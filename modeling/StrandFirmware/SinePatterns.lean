import StrandFirmware.Motion

/-!
# The pattern of a sine request

`sine_task` and `sine_wave_task` are two copies of one generator.  Here each is given with its own
loop, as it is written, and both are compared with the pattern they are meant to draw: `loops`
targets that alternate between `move + offset` and `move - offset`, then `move`, each clamped to the
limits (`sineTask_eq_pattern`).
-/

namespace Strand

/-! ## The generators as they are written -/

/-- The loop of `sine_task` from `i` on. -/
def sineTaskLoop (unset : ℤ) (sine : Sine) (top bottom : ℤ) (i : ℕ) : List StepperCommand :=
  if (i : ℤ) < sine.loops then
    (if i % 2 = 0 then
      commandMove unset sine.sineStepper.type top sine.sineStepper.speed sine.sineStepper.accel 0
        sine.sineStepper.min sine.sineStepper.max
    else
      commandMove unset sine.sineStepper.type bottom sine.sineStepper.speed sine.sineStepper.accel 0
        sine.sineStepper.min sine.sineStepper.max) ::
      sineTaskLoop unset sine top bottom (i + 1)
  else []
termination_by (sine.loops - i).toNat

/-- `sine_task`: the calls of `command_move` for one request. -/
def sineTask (unset : ℤ) (sine : Sine) : List StepperCommand :=
  let top := wrap32 (sine.sineStepper.move + sine.offset)
  let bottom := wrap32 (sine.sineStepper.move - sine.offset)
  sineTaskLoop unset sine top bottom 0 ++
    [commandMove unset sine.sineStepper.type sine.sineStepper.move sine.sineStepper.speed
      sine.sineStepper.accel 0 sine.sineStepper.min sine.sineStepper.max]

/-- The loop of `sine_wave_task` from `i` on. -/
def sineWaveTaskLoop (unset : ℤ) (sineWave : SineWave) (top bottom : ℤ) (i : ℕ) :
    List StepperCommand :=
  if (i : ℤ) < sineWave.loops then
    (if i % 2 = 0 then
      commandMove unset sineWave.sineWaveStepper.type top sineWave.sineWaveStepper.speed
        sineWave.sineWaveStepper.accel 0 sineWave.sineWaveStepper.min sineWave.sineWaveStepper.max
    else
      commandMove unset sineWave.sineWaveStepper.type bottom sineWave.sineWaveStepper.speed
        sineWave.sineWaveStepper.accel 0 sineWave.sineWaveStepper.min
        sineWave.sineWaveStepper.max) ::
      sineWaveTaskLoop unset sineWave top bottom (i + 1)
  else []
termination_by (sineWave.loops - i).toNat

/-- `sine_wave_task`: the calls of `command_move` for one request, after the delay that its origin
and wave speed give. -/
def sineWaveTask (unset : ℤ) (sineWave : SineWave) : List StepperCommand :=
  let top := wrap32 (sineWave.sineWaveStepper.move + sineWave.offset)
  let bottom := wrap32 (sineWave.sineWaveStepper.move - sineWave.offset)
  sineWaveTaskLoop unset sineWave top bottom 0 ++
    [commandMove unset sineWave.sineWaveStepper.type sineWave.sineWaveStepper.move
      sineWave.sineWaveStepper.speed sineWave.sineWaveStepper.accel 0
      sineWave.sineWaveStepper.min sineWave.sineWaveStepper.max]

/-! ## The loops -/

/-- A loop that counts up to a bound makes one call for each number below it. -/
lemma countingLoop_eq {α : Type*} {bound : ℤ} {body : ℕ → α} {loop : ℕ → List α}
    (hloop : ∀ i : ℕ, loop i = if (i : ℤ) < bound then body i :: loop (i + 1) else []) (i : ℕ) :
    loop i = (List.range' i (bound - i).toNat).map body := by
  induction hn : (bound - i).toNat generalizing i with
  | zero =>
    have hstop : ¬ (i : ℤ) < bound := by omega
    rw [hloop, if_neg hstop]
    rfl
  | succ n ih =>
    have hgo : (i : ℤ) < bound := by omega
    rw [hloop, if_pos hgo, List.range'_succ, List.map_cons, ih (i + 1) (by omega)]

/-- The loop of `sine_task` counts up to `loops`. -/
lemma sineTaskLoop_eq (unset : ℤ) (sine : Sine) (top bottom : ℤ) (i : ℕ) :
    sineTaskLoop unset sine top bottom i =
      (List.range' i (sine.loops - i).toNat).map fun j =>
        moveLike unset sine.sineStepper (if j % 2 = 0 then top else bottom) := by
  refine countingLoop_eq (fun j => ?_) i
  rw [sineTaskLoop, apply_ite (moveLike unset sine.sineStepper)]
  rfl

/-- The loop of `sine_wave_task` counts up to `loops`. -/
lemma sineWaveTaskLoop_eq (unset : ℤ) (sineWave : SineWave) (top bottom : ℤ) (i : ℕ) :
    sineWaveTaskLoop unset sineWave top bottom i =
      (List.range' i (sineWave.loops - i).toNat).map fun j =>
        moveLike unset sineWave.sineWaveStepper (if j % 2 = 0 then top else bottom) := by
  refine countingLoop_eq (fun j => ?_) i
  rw [sineWaveTaskLoop, apply_ite (moveLike unset sineWave.sineWaveStepper)]
  rfl

/-- `sine_task` makes the calls that the motion pipeline takes it to make. -/
theorem sineTask_eq (unset : ℤ) (sine : Sine) :
    sineTask unset sine = sineTaskCommands unset sine := by
  simp only [sineTask, sineTaskCommands, loopCommands, sineTaskLoop_eq, Nat.cast_zero, Int.sub_zero,
    List.range_eq_range']
  rfl

/-- So does `sine_wave_task`. -/
theorem sineWaveTask_eq (unset : ℤ) (sineWave : SineWave) :
    sineWaveTask unset sineWave = sineWaveTaskCommands unset sineWave := by
  simp only [sineWaveTask, sineWaveTaskCommands, loopCommands, sineWaveTaskLoop_eq, Nat.cast_zero,
    Int.sub_zero, List.range_eq_range']
  rfl

/-! ## The pattern -/

/-- The nearest value inside the limits. -/
def clampTo (lo hi v : ℤ) : ℤ := Max.max lo (Min.min v hi)

/-- `command_move` clamps to the limits when they are in order. -/
lemma clampMove_eq_clampTo {lo hi : ℤ} (h : lo ≤ hi) (v : ℤ) :
    clampMove lo hi v = clampTo lo hi v := by
  unfold clampMove clampTo
  split_ifs <;> omega

/-- The target of step `i` of the pattern around `move`. -/
def patternTarget (loops : ℕ) (move offset : ℤ) (i : ℕ) : ℤ :=
  if i < loops then (if i % 2 = 0 then wrap32 (move + offset) else wrap32 (move - offset)) else move

/-- The pattern of a request with the parameters `c`. -/
def sinePattern (loops offset : ℤ) (c : StepperCommand) : List StepperCommand :=
  (List.range (loops.toNat + 1)).map fun i =>
    { c with move := clampTo c.min c.max (patternTarget loops.toNat c.move offset i), time := 0 }

/-- The calls for the targets of a pattern. -/
lemma moveLike_eq {c : StepperCommand} (htype : 1 ≤ c.type) (h : c.min ≤ c.max) (unset v : ℤ) :
    moveLike unset c v = { c with move := clampTo c.min c.max v, time := 0 } := by
  rw [moveLike, commandMove, if_pos htype, clampMove_eq_clampTo h]

/-- The loop of a generator and its last call draw the pattern. -/
lemma loopCommands_append_eq {c : StepperCommand} (htype : 1 ≤ c.type) (h : c.min ≤ c.max)
    (unset loops offset : ℤ) :
    loopCommands unset loops offset c ++ [moveLike unset c c.move] =
      sinePattern loops offset c := by
  rw [sinePattern, List.range_succ, List.map_append, loopCommands]
  congr 1
  · refine List.map_congr_left ?_
    intro i hi
    rw [moveLike_eq htype h, patternTarget, if_pos (List.mem_range.mp hi)]
  · rw [List.map_singleton, moveLike_eq htype h, patternTarget, if_neg (lt_irrefl _)]

/-- The parameters of two requests agree; `time` is not read. -/
def SameParameters (c d : StepperCommand) : Prop := { c with time := 0 } = { d with time := 0 }

/-- The pattern depends on the parameters only. -/
lemma sinePattern_congr {c d : StepperCommand} (h : SameParameters c d) (loops offset : ℤ) :
    sinePattern loops offset c = sinePattern loops offset d := by
  obtain ⟨hmin, hmax, hspeed, haccel, hmove, htype⟩ : c.min = d.min ∧ c.max = d.max ∧
      c.speed = d.speed ∧ c.accel = d.accel ∧ c.move = d.move ∧ c.type = d.type := by
    simpa [SameParameters] using h
  simp only [sinePattern, hmin, hmax, hspeed, haccel, hmove, htype]

/-- **Both generators draw the pattern.**  A request of an absolute type whose limits are in order
is turned into `max(loops, 0) + 1` calls with the targets of the pattern, by either task. -/
theorem sineTask_eq_pattern {sine : Sine} (htype : 1 ≤ sine.sineStepper.type)
    (h : sine.sineStepper.min ≤ sine.sineStepper.max) (unset : ℤ) :
    ((sineTask unset sine).length : ℤ) = Max.max sine.loops 0 + 1 ∧
      sineTask unset sine = sinePattern sine.loops sine.offset sine.sineStepper ∧
      ∀ sineWave : SineWave, sineWave.loops = sine.loops → sineWave.offset = sine.offset →
        SameParameters sineWave.sineWaveStepper sine.sineStepper →
        sineWaveTask unset sineWave = sineTask unset sine := by
  have hsine : sineTask unset sine = sinePattern sine.loops sine.offset sine.sineStepper :=
    (sineTask_eq unset sine).trans (loopCommands_append_eq htype h unset _ _)
  refine ⟨?_, hsine, ?_⟩
  · rw [sineTask_eq, length_sineTaskCommands]
    omega
  · intro sineWave hloops hoffset hsame
    obtain ⟨hmin, hmax, -, -, -, htype'⟩ : sineWave.sineWaveStepper.min = sine.sineStepper.min ∧
        sineWave.sineWaveStepper.max = sine.sineStepper.max ∧ _ ∧ _ ∧ _ ∧
        sineWave.sineWaveStepper.type = sine.sineStepper.type := by
      simpa [SameParameters] using hsame
    have hdraws := loopCommands_append_eq (htype' ▸ htype) (hmin ▸ hmax ▸ h) unset sineWave.loops
      sineWave.offset
    rw [hsine, ← sinePattern_congr hsame, sineWaveTask_eq, ← hloops, ← hoffset]
    exact hdraws

/-- A request for three steps of 50 around 100 between 0 and 120. -/
private def threeSteps : Sine :=
  { loops := 3
    offset := 50
    sineStepper := ⟨0, 120, 800, 400, 100, 1, 0⟩ }

/-- The targets of three steps of 50 around 100 between 0 and 120. -/
theorem sineTask_eq_pattern_three :
    sineTask 0 threeSteps = sinePattern 3 50 threeSteps.sineStepper ∧
      (sineTask 0 threeSteps).map StepperCommand.move = [120, 50, 120, 100] ∧
      ∀ x y z speed : ℤ,
        sineWaveTask 0 ⟨3, 50, x, y, z, speed, threeSteps.sineStepper⟩ = sineTask 0 threeSteps := by
  have htype : 1 ≤ threeSteps.sineStepper.type := by decide
  have hdraws := sineTask_eq_pattern htype (by decide) 0
  refine ⟨hdraws.2.1, ?_, ?_⟩
  · rw [hdraws.2.1]
    decide
  · intro x y z speed
    exact hdraws.2.2 ⟨3, 50, x, y, z, speed, threeSteps.sineStepper⟩ rfl rfl rfl

end Strand
