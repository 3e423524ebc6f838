import StrandFirmware.StopRecord

/-!
# Drift of absolute positioning

Every absolute command moves the motor by a whole number of steps but records its exact target, so
the fraction of a step that one command cuts off is never made up by a later one.  `droppedTotal`
adds up these fractions, in fifths of a step, from the targets alone.  After any sequence of
commands without notifications the counter is behind the recorded position by exactly that sum
(`recordError_runCommands`), and so stays within one step of it exactly when the sum does.
-/

namespace Strand

open Rounding Stepping

/-- One command of a sequence: the command and the iterations of its run loop. -/
def commandStep (s : Stepping) (e : StepperCommand × List Poll) : Option Stepping :=
  s.executeCommand e.1 e.2

/-- An absolute command that no notification interrupts. -/
def UndisturbedAbsolute (e : StepperCommand × List Poll) : Prop :=
  (e.1.type = 1 ∨ e.1.type = 2) ∧ ∀ p ∈ e.2, p.notify = none

instance (e : StepperCommand × List Poll) : Decidable (UndisturbedAbsolute e) :=
  inferInstanceAs (Decidable (_ ∧ _))

/-- What the move from `position` to `target` cuts off, in fifths of a step. -/
def droppedFifths (position target : ℤ) : ℤ := (113 * (target - position)).tmod 5

/-- What a sequence of absolute commands cuts off, starting from `position`. -/
def droppedTotal : ℤ → List (StepperCommand × List Poll) → ℤ
  | _, [] => 0
  | position, e :: es => droppedFifths position e.1.move + droppedTotal e.1.move es

/-- The counter of `t` is within one step of the position recorded since `s`. -/
def WithinOneStep (s t : Stepping) : Prop :=
  |(t.motor.currentPos : ℚ) -
      (s.motor.currentPos + factor * ((t.currentPosition - s.currentPosition : ℤ) : ℚ))| < 1

/-- Without notifications no iteration loses anything. -/
lemma stopLossTotal_of_quiet {s : Stepping} {ps : List Poll} (hps : ∀ p ∈ ps, p.notify = none) :
    stopLossTotal s ps = 0 := by
  induction ps generalizing s with
  | nil => rfl
  | cons p ps ih =>
    have hp : p.takesStop = false := by simp [Poll.takesStop, hps p List.mem_cons_self]
    rw [stopLossTotal, ih fun q hq => hps q (List.mem_cons_of_mem p hq), stopLoss]
    simp [hp]

/-- Without notifications an iteration leaves the position alone. -/
lemma currentPosition_run {s t : Stepping} {ps : List Poll} (hps : ∀ p ∈ ps, p.notify = none)
    (hrun : StepRuns.run loopStep s ps = some t) : t.currentPosition = s.currentPosition := by
  induction ps generalizing s with
  | nil =>
    obtain rfl : s = t := by simpa using hrun
    rfl
  | cons p ps ih =>
    obtain ⟨u, hu, hrest⟩ := StepRuns.run_cons_eq_some_iff.mp hrun
    obtain ⟨-, rfl⟩ := loopStep_eq_some_iff.mp hu
    rw [ih (fun q hq => hps q (List.mem_cons_of_mem p hq)) hrest]
    simp [iterate_eq, hps p List.mem_cons_self]

/-- One undisturbed absolute command records its target, and leaves the counter behind it by what
it cut off. -/
lemma commandStep_spec {s t : Stepping} {e : StepperCommand × List Poll}
    (he : UndisturbedAbsolute e) (h : commandStep s e = some t) :
    t.currentPosition = e.1.move ∧
      113 * (t.currentPosition - s.currentPosition) -
        5 * (t.motor.currentPos - s.motor.currentPos) =
          droppedFifths s.currentPosition e.1.move := by
  obtain ⟨hc, hps⟩ := he
  have hhome : ∀ p ∈ e.2, p.takesHome = false := fun p hp => by simp [Poll.takesHome, hps p hp]
  have herr := recordError_executeCommand hc hhome h
  obtain ⟨hloop, hend⟩ := executeCommand_eq_some_iff.mp h
  have htarget : t.motor.targetPos = t.motor.currentPos := sub_eq_zero.mp hend
  constructor
  · rw [currentPosition_run hps hloop]
    simp [beginCommand_eq, hc.symm]
  · rwa [recordError, htarget, stopLossTotal_of_quiet hps, sub_zero] at herr

/-- **The account of a sequence.**  The counter is behind the recorded position by what the
commands cut off, all together. -/
lemma recordError_runCommands {s t : Stepping} {es : List (StepperCommand × List Poll)}
    (hes : ∀ e ∈ es, UndisturbedAbsolute e) (hrun : StepRuns.run commandStep s es = some t) :
    113 * (t.currentPosition - s.currentPosition) -
      5 * (t.motor.currentPos - s.motor.currentPos) = droppedTotal s.currentPosition es := by
  induction es generalizing s with
  | nil =>
    obtain rfl : s = t := by simpa using hrun
    simp [droppedTotal]
  | cons e es ih =>
    obtain ⟨u, hu, hrest⟩ := StepRuns.run_cons_eq_some_iff.mp hrun
    obtain ⟨hpos, herr⟩ := commandStep_spec (hes e List.mem_cons_self) hu
    have htail := ih (fun e' he' => hes e' (List.mem_cons_of_mem e he')) hrest
    rw [hpos] at htail herr
    rw [droppedTotal]
    linarith

/-- Being within one step is a bound on the account. -/
lemma withinOneStep_iff (s t : Stepping) :
    WithinOneStep s t ↔
      |113 * (t.currentPosition - s.currentPosition) -
        5 * (t.motor.currentPos - s.motor.currentPos)| < 5 := by
  have hscale : (t.motor.currentPos : ℚ) -
      (s.motor.currentPos + factor * ((t.currentPosition - s.currentPosition : ℤ) : ℚ)) =
        -((113 * (t.currentPosition - s.currentPosition) -
          5 * (t.motor.currentPos - s.motor.currentPos) : ℤ) : ℚ) / 5 := by
    rw [factor_eq]
    push_cast
    ring
  rw [WithinOneStep, hscale, abs_div, abs_neg, abs_of_pos (by norm_num : (0 : ℚ) < 5),
    div_lt_iff₀ (by norm_num), one_mul, ← Int.cast_abs]
  exact_mod_cast Iff.rfl

/-- A prefix of a run that ends somewhere ends somewhere. -/
lemma exists_run_of_prefix {s u : Stepping} {pre es : List (StepperCommand × List Poll)}
    (hpre : pre <+: es) (hrun : StepRuns.run commandStep s es = some u) :
    ∃ t, StepRuns.run commandStep s pre = some t := by
  obtain ⟨rest, rfl⟩ := hpre
  obtain ⟨t, ht, -⟩ := StepRuns.run_append_eq_some_iff.mp hrun
  exact ⟨t, ht⟩

/-- **When absolute positioning does not drift.**  In a sequence of absolute commands without
notifications the counter is within one step of the recorded position after every command exactly
when, after every command, the fractions cut off so far add up to less than one step. -/
theorem withinOneStep_prefixes_iff {s u : Stepping} {es : List (StepperCommand × List Poll)}
    (hes : ∀ e ∈ es, UndisturbedAbsolute e) (hrun : StepRuns.run commandStep s es = some u) :
    (∀ pre t, pre <+: es → StepRuns.run commandStep s pre = some t → WithinOneStep s t) ↔
      ∀ pre, pre <+: es → |droppedTotal s.currentPosition pre| < 5 := by
  have haccount : ∀ {pre t}, pre <+: es → StepRuns.run commandStep s pre = some t →
      (WithinOneStep s t ↔ |droppedTotal s.currentPosition pre| < 5) := by
    intro pre t hpre ht
    rw [withinOneStep_iff, recordError_runCommands (fun e he => hes e (hpre.subset he)) ht]
  constructor
  · intro h pre hpre
    obtain ⟨t, ht⟩ := exists_run_of_prefix hpre hrun
    exact (haccount hpre ht).mp (h pre t hpre ht)
  · intro h pre t hpre ht
    exact (haccount hpre ht).mpr (h pre hpre)

/-- An absolute command to `target` whose motor makes `steps` steps of size `delta`. -/
def quietMove (target : ℤ) (steps : ℕ) (delta : ℤ) (h : |delta| ≤ 1) :
    StepperCommand × List Poll :=
  (translateTo target, List.replicate steps (quietPoll delta h))

/-- The same as a command of type 2, in `time` seconds. -/
def quietStrandMove (target time : ℤ) (steps : ℕ) (delta : ℤ) (h : |delta| ≤ 1) :
    StepperCommand × List Poll :=
  ({ translateTo target with type := 2, time := time },
    List.replicate steps (quietPoll delta h))

/-- Four moves of both types, each of which cuts off a fraction of a step. -/
theorem withinOneStep_back_and_forth :
    let s : Stepping := ⟨⟨0, 0⟩, 0, 0⟩
    let es := [quietMove 1 22 1 (by decide), quietStrandMove 0 5 22 (-1) (by decide),
      quietMove 2 45 1 (by decide), quietStrandMove 1 5 22 (-1) (by decide)]
    StepRuns.run commandStep s es = some ⟨⟨23, 23⟩, -22, 1⟩ ∧
      (∀ pre ∈ [1, 3, 4], droppedTotal 0 (es.take pre) ≠ 0) ∧
      ∀ pre t, pre <+: es → StepRuns.run commandStep s pre = some t → WithinOneStep s t := by
  intro s es
  have hrun : StepRuns.run commandStep s es = some ⟨⟨23, 23⟩, -22, 1⟩ := by decide +kernel
  have hdropped : ∀ pre ∈ es.inits, |droppedTotal 0 pre| < 5 := by decide +kernel
  refine ⟨hrun, by decide +kernel, (withinOneStep_prefixes_iff (by decide +kernel) hrun).mpr ?_⟩
  intro pre hpre
  exact hdropped pre ((List.mem_inits pre es).mpr hpre)

/-- Two moves of one millimetre each leave the counter more than a step behind, and the move back
to the start leaves it off by one step. -/
theorem not_withinOneStep_there_and_back :
    let s : Stepping := ⟨⟨0, 0⟩, 0, 0⟩
    let out := [quietMove 1 22 1 (by decide), quietMove 2 22 1 (by decide)]
    StepRuns.run commandStep s out = some ⟨⟨44, 44⟩, 22, 2⟩ ∧
      ¬ WithinOneStep s ⟨⟨44, 44⟩, 22, 2⟩ ∧
      StepRuns.run commandStep s (out ++ [quietMove 0 45 (-1) (by decide)]) =
        some ⟨⟨-1, -1⟩, -45, 0⟩ := by
  refine ⟨by decide +kernel, ?_, by decide +kernel⟩
  rw [withinOneStep_iff]
  decide

end Strand
