import StrandFirmware.StepperTask

/-!
# The position recorded after a STOP

An absolute command records its target before the motor has moved.  A STOP taken in the run loop
has to correct that record, because the motor will not reach the target.  This file compares the
record with the way the motor really made.

The account is kept in fifths of a step: `recordError` is how far the record is ahead of the way
to the library's target.  A command starts it below one step (`recordError_beginCommand`), a STOP
changes it by `stopLoss` (`recordError_iterate`), and at the end of the loop the target is the
counter, so the error of the record is the sum of these changes (`recordError_executeCommand`).

The STOP branch leaves two things out.  The library brakes for `stepsToStop` further steps after
the record was corrected, and for a move that is not positive the remaining distance is negative
already, so adding it moves the record away from the motor instead of back to it.
-/

namespace Strand

open Rounding Stepping

/-! ## The account of one command -/

/-- The iteration sees `HOME_BIT`. -/
def Poll.takesHome (p : Poll) : Bool := p.notify.any fun n => n.home

/-- The iteration takes a STOP: `STOP_BIT` is set and `HOME_BIT` is not. -/
def Poll.takesStop (p : Poll) : Bool := p.notify.any fun n => !n.home && n.stop

/-- The number of STOPs taken in the iterations `ps`. -/
def stopCount (ps : List Poll) : ℕ := ps.countP Poll.takesStop

/-- The distance that the STOP branch takes off the record, in fifths of a step, before it is cut
to whole millimetres. -/
def stopCorrection (s : Stepping) : ℤ :=
  if s.stepperMove ≤ 0 then 5 * s.motor.distanceToGo else -(5 * s.motor.distanceToGo)

/-- The steps that the STOP branch does not account for: the braking steps of the library and, for
a move that is not positive, twice the remaining distance, which is added with the wrong sign. -/
def unrecordedSteps (s : Stepping) (p : Poll) : ℤ :=
  p.direction * p.stepsToStop -
    if s.stepperMove ≤ 0 then 2 * s.motor.distanceToGo else 0

/-- What the record loses at an iteration, in fifths of a step: nothing without a STOP, else the
fraction of a millimetre that is cut off and the steps left out. -/
def stopLoss (s : Stepping) (p : Poll) : ℤ :=
  if p.takesStop then
    (113 * s.currentPosition + stopCorrection s).tmod 113 + 5 * unrecordedSteps s p
  else 0

/-- The losses of all iterations of a run of the loop. -/
def stopLossTotal : Stepping → List Poll → ℤ
  | _, [] => 0
  | s, p :: ps => stopLoss s p + stopLossTotal (s.iterate p) ps

/-- How far the record of `s` is ahead of the way from `s₀` to the library's target, in fifths of
a step. -/
def recordError (s₀ s : Stepping) : ℤ :=
  113 * (s.currentPosition - s₀.currentPosition) - 5 * (s.motor.targetPos - s₀.motor.currentPos)

/-- The property asked of a command with STOPs: the record changed by the way the motor made, up to
one millimetre for each STOP and the equivalent of one step. -/
def KeepsRecord (s t : Stepping) (ps : List Poll) : Prop :=
  |(t.currentPosition : ℚ) -
      (s.currentPosition + ((t.motor.currentPos - s.motor.currentPos : ℤ) : ℚ) / factor)| <
    stopCount ps + 1 / factor

/-! ## Step lemmas -/

/-- The library's `stop` in terms of the signed stopping distance. -/
lemma AccelStepper.stop_targetPos (m : AccelStepper) (p : Poll) :
    (m.stop p.direction p.stepsToStop).targetPos =
      m.currentPos + p.direction * p.stepsToStop := by
  rcases p.direction_eq with h | h <;>
    simp [AccelStepper.stop, AccelStepper.move, AccelStepper.moveTo, h]

/-- The position recorded by the STOP branch, as a truncated quotient. -/
lemma serveStop_currentPosition (s : Stepping) (p : Poll) :
    (s.serveStop p).currentPosition =
      (113 * s.currentPosition + stopCorrection s).tdiv 113 := by
  rw [serveStop_eq]
  unfold stopCorrection
  dsimp only
  split
  next => exact truncate_add_div_factor _ _
  next =>
    have h := truncate_add_div_factor s.currentPosition (-s.motor.distanceToGo)
    rw [mul_neg] at h
    rw [← h]
    push_cast
    ring_nf

/-- An absolute command starts the account with what its own rounding cuts off. -/
lemma recordError_beginCommand (s : Stepping) {c : StepperCommand} (hc : c.type = 1 ∨ c.type = 2) :
    recordError s (s.beginCommand c) = (113 * (c.move - s.currentPosition)).tmod 5 := by
  have hc' : c.type = 2 ∨ c.type = 1 := hc.symm
  have hdiv := Int.mul_tdiv_add_tmod (113 * (c.move - s.currentPosition)) 5
  simp only [recordError, beginCommand_eq, if_pos hc', stepsBetween_eq, AccelStepper.move,
    AccelStepper.moveTo]
  linarith

namespace Arithmetic

variable (a : Arithmetic) {s : Stepping} {p : Poll}

/-- An iteration that takes a STOP is the STOP branch followed by `run()`. -/
lemma iterate_of_takesStop (hp : p.takesStop = true) :
    a.iterate s p = { a.serveStop s p with motor := (a.serveStop s p).motor.run p.delta } := by
  unfold Poll.takesStop at hp
  unfold iterate
  cases hn : p.notify with
  | none => simp [hn] at hp
  | some n =>
    simp only [hn, Option.any_some, Bool.and_eq_true, Bool.not_eq_true'] at hp
    simp [hp.1, hp.2]

/-- An iteration that takes the `HOME_BIT` branch is the branch followed by `run()`. -/
lemma iterate_of_takesHome (hp : p.takesHome = true) :
    a.iterate s p = { s.serveHome with motor := s.serveHome.motor.run p.delta } := by
  unfold Poll.takesHome at hp
  unfold iterate
  cases hn : p.notify with
  | none => simp [hn] at hp
  | some n =>
    simp only [hn, Option.any_some] at hp
    simp [hp]

/-- An iteration that takes no notification is a call of `run()`. -/
lemma iterate_of_quiet (hhome : p.takesHome = false) (hstop : p.takesStop = false) :
    a.iterate s p = { s with motor := s.motor.run p.delta } := by
  unfold Poll.takesHome at hhome
  unfold Poll.takesStop at hstop
  unfold iterate
  cases hn : p.notify with
  | none => rfl
  | some n =>
    simp only [hn, Option.any_some] at hhome hstop
    simp only [hhome, Bool.not_false, Bool.true_and] at hstop
    simp [hhome, hstop]

end Arithmetic

/-- The exact iteration that takes a STOP. -/
lemma iterate_of_takesStop {s : Stepping} {p : Poll} (hp : p.takesStop = true) :
    s.iterate p = { s.serveStop p with motor := (s.serveStop p).motor.run p.delta } :=
  Arithmetic.exact.iterate_of_takesStop hp

/-- The exact iteration that takes no notification. -/
lemma iterate_of_quiet {s : Stepping} {p : Poll} (hhome : p.takesHome = false)
    (hstop : p.takesStop = false) : s.iterate p = { s with motor := s.motor.run p.delta } :=
  Arithmetic.exact.iterate_of_quiet hhome hstop

/-- Without `HOME_BIT` an iteration changes the account by the loss of its STOP. -/
lemma recordError_iterate (s₀ s : Stepping) {p : Poll} (hp : p.takesHome = false) :
    recordError s₀ (s.iterate p) = recordError s₀ s - stopLoss s p := by
  by_cases hstop : p.takesStop = true
  · have hit := iterate_of_takesStop (s := s) hstop
    have htarget : (s.iterate p).motor.targetPos =
        s.motor.currentPos + p.direction * p.stepsToStop := by
      rw [hit]
      exact s.motor.stop_targetPos p
    have hpos : (s.iterate p).currentPosition =
        (113 * s.currentPosition + stopCorrection s).tdiv 113 := by
      rw [hit]
      exact serveStop_currentPosition s p
    have hdiv := Int.mul_tdiv_add_tmod (113 * s.currentPosition + stopCorrection s) 113
    simp only [recordError, htarget, hpos, stopLoss, if_pos hstop, unrecordedSteps]
    simp only [stopCorrection, AccelStepper.distanceToGo] at hdiv ⊢
    split at hdiv <;> simp only [*, if_true, if_false] <;> linarith
  · rw [iterate_of_quiet hp (by simpa using hstop), stopLoss, if_neg hstop, sub_zero]
    rfl

/-- The account after a run of the loop. -/
lemma recordError_run (s₀ : Stepping) {s t : Stepping} {ps : List Poll}
    (hps : ∀ p ∈ ps, p.takesHome = false) (hrun : StepRuns.run loopStep s ps = some t) :
    recordError s₀ t = recordError s₀ s - stopLossTotal s ps := by
  induction ps generalizing s with
  | nil =>
    obtain rfl : s = t := by simpa using hrun
    simp [stopLossTotal]
  | cons p ps ih =>
    obtain ⟨u, hu, hrest⟩ := StepRuns.run_cons_eq_some_iff.mp hrun
    obtain ⟨-, rfl⟩ := loopStep_eq_some_iff.mp hu
    rw [ih (fun q hq => hps q (List.mem_cons_of_mem p hq)) hrest,
      recordError_iterate s₀ s (hps p List.mem_cons_self), stopLossTotal]
    ring

/-- The account of a whole command: the rounding of its start less the losses of its STOPs. -/
lemma recordError_executeCommand {s t : Stepping} {c : StepperCommand} {ps : List Poll}
    (hc : c.type = 1 ∨ c.type = 2) (hps : ∀ p ∈ ps, p.takesHome = false)
    (hrun : s.executeCommand c ps = some t) :
    recordError s t =
      (113 * (c.move - s.currentPosition)).tmod 5 - stopLossTotal (s.beginCommand c) ps := by
  obtain ⟨hloop, -⟩ := executeCommand_eq_some_iff.mp hrun
  rw [recordError_run s hps hloop, recordError_beginCommand s hc]

/-- At the end of a command the property is a bound on the account. -/
lemma keepsRecord_iff {s t : Stepping} (ps : List Poll) (ht : t.motor.distanceToGo = 0) :
    KeepsRecord s t ps ↔ |recordError s t| < 113 * stopCount ps + 5 := by
  have htarget : t.motor.targetPos = t.motor.currentPos := sub_eq_zero.mp ht
  have hscale : (t.currentPosition : ℚ) -
      (s.currentPosition + ((t.motor.currentPos - s.motor.currentPos : ℤ) : ℚ) / factor) =
        (recordError s t : ℚ) / 113 := by
    rw [recordError, htarget, factor_eq]
    push_cast
    ring
  have hbound : (stopCount ps : ℚ) + 1 / factor = ((113 * stopCount ps + 5 : ℤ) : ℚ) / 113 := by
    rw [factor_eq]
    push_cast
    ring
  rw [KeepsRecord, hscale, hbound, abs_div, abs_of_pos (by norm_num : (0 : ℚ) < 113),
    div_lt_div_iff_of_pos_right (by norm_num), ← Int.cast_abs, Int.cast_lt]

/-! ## The record after a command with STOPs -/

/-- A STOP leaves out less than one millimetre. -/
def HarmlessStop (s : Stepping) (p : Poll) : Prop := |stopLoss s p| < 113

/-- Harmless STOPs lose less than one millimetre each. -/
lemma abs_stopLossTotal_le {s t : Stepping} {ps : List Poll}
    (hrun : StepRuns.run loopStep s ps = some t)
    (hharm : StepRuns.Along loopStep HarmlessStop s ps) :
    |stopLossTotal s ps| ≤ 113 * stopCount ps := by
  induction ps generalizing s with
  | nil => simp [stopLossTotal, stopCount]
  | cons p ps ih =>
    obtain ⟨u, hu, hrest⟩ := StepRuns.run_cons_eq_some_iff.mp hrun
    obtain ⟨hp, hps⟩ := (StepRuns.along_cons_iff hu).mp hharm
    obtain ⟨-, rfl⟩ := loopStep_eq_some_iff.mp hu
    have hrec := ih hrest hps
    have htri := abs_add_le (stopLoss s p) (stopLossTotal (s.iterate p) ps)
    simp only [stopLossTotal, stopCount, List.countP_cons] at hrec ⊢
    by_cases hstop : p.takesStop = true
    · have hp' : |stopLoss s p| < 113 := hp
      simp only [hstop, if_true]
      push_cast
      linarith
    · have hzero : stopLoss s p = 0 := if_neg hstop
      simp only [hstop]
      rw [hzero, zero_add]
      simpa using hrec

/-- **The record after an absolute command with STOPs.**  The record stays true to one millimetre
for each STOP, and one step, whenever each STOP leaves out less than one millimetre; and in every
case exactly when all that the STOPs leave out, and the rounding of the command itself, stay below
that bound together. -/
theorem keepsRecord_executeCommand {s t : Stepping} {c : StepperCommand} {ps : List Poll}
    (hc : c.type = 1 ∨ c.type = 2) (hps : ∀ p ∈ ps, p.takesHome = false)
    (hrun : s.executeCommand c ps = some t) :
    (StepRuns.Along loopStep HarmlessStop (s.beginCommand c) ps → KeepsRecord s t ps) ∧
      (KeepsRecord s t ps ↔
        |(113 * (c.move - s.currentPosition)).tmod 5 - stopLossTotal (s.beginCommand c) ps| <
          113 * stopCount ps + 5) := by
  obtain ⟨hloop, ht⟩ := executeCommand_eq_some_iff.mp hrun
  have hiff : KeepsRecord s t ps ↔
      |(113 * (c.move - s.currentPosition)).tmod 5 - stopLossTotal (s.beginCommand c) ps| <
        113 * stopCount ps + 5 := by
    rw [keepsRecord_iff ps ht, recordError_executeCommand hc hps hrun]
  refine ⟨fun hharm => hiff.mpr ?_, hiff⟩
  have hstart := abs_tmod_lt (113 * (c.move - s.currentPosition)) (by norm_num : (0 : ℤ) < 5)
  have hloss := abs_stopLossTotal_le hloop hharm
  have htri := abs_sub (113 * (c.move - s.currentPosition) |>.tmod 5)
    (stopLossTotal (s.beginCommand c) ps)
  linarith

/-! ### Two runs

Both start with the motor at rest and take one STOP in the first iteration, while the library can
still stop within one step. -/

/-- The forward direction. -/
lemma direction_one : (1 : ℤ) = 1 ∨ (1 : ℤ) = -1 := .inl rfl

/-- An iteration can move the counter by one step. -/
lemma abs_delta_one : |(1 : ℤ)| ≤ 1 := by decide

/-- An iteration can leave the counter alone. -/
lemma abs_delta_zero : |(0 : ℤ)| ≤ 1 := by decide

/-- An iteration that takes a STOP and makes one step in the given direction. -/
def stopPoll (direction : ℤ) (h : direction = 1 ∨ direction = -1) : Poll where
  notify := some ⟨false, true⟩
  direction := direction
  stepsToStop := 1
  delta := direction
  direction_eq := h
  one_le_stepsToStop := le_rfl
  abs_delta_le := by rcases h with rfl | rfl <;> decide

/-- An iteration without notification that moves the counter by `delta`. -/
def quietPoll (delta : ℤ) (h : |delta| ≤ 1) : Poll where
  notify := none
  direction := 1
  stepsToStop := 1
  delta := delta
  direction_eq := .inl rfl
  one_le_stepsToStop := le_rfl
  abs_delta_le := h

/-- `stepperTranslate target 2000 1000` as `stepper_task` receives it. -/
def translateTo (target : ℤ) : StepperCommand :=
  { min := 0, max := 1000, speed := 2000, accel := 1000, move := target, type := 1, time := 0 }

/-- A STOP of a forward move of one millimetre leaves out less than a millimetre. -/
theorem keepsRecord_forward :
    KeepsRecord ⟨⟨0, 0⟩, 0, 0⟩ ⟨⟨1, 1⟩, 22, 0⟩ [stopPoll 1 (.inl rfl)] :=
  (keepsRecord_executeCommand (c := translateTo 1) (.inl rfl) (by decide)
    (by decide +kernel)).1 (by
      refine (StepRuns.along_cons_iff (t := ⟨⟨1, 1⟩, 22, 0⟩) (by decide +kernel)).mpr ⟨?_, trivial⟩
      unfold HarmlessStop
      decide +kernel)

/-- A STOP of the move from 100 back to 0, taken before the first step, records the position -100
although the motor has made one step. -/
theorem not_keepsRecord_backward :
    let s : Stepping := ⟨⟨0, 0⟩, 0, 100⟩
    let t : Stepping := ⟨⟨-1, -1⟩, -2260, -100⟩
    s.executeCommand (translateTo 0) [stopPoll (-1) (.inr rfl)] = some t ∧
      ¬ KeepsRecord s t [stopPoll (-1) (.inr rfl)] := by
  refine ⟨by decide +kernel, ?_⟩
  rw [keepsRecord_iff _ (by decide)]
  decide

end Strand
