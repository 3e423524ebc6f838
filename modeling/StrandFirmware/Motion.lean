import StrandFirmware.Device

/-!
# Motion commands

`commandMove` is `command_move`: every command reaches the stepper queue through it, and it clamps
the target of an absolute command to the limits it is given.  The wave, sine and sine-wave requests
carry the limits with them, from `command_handler` through a queue of their own to a generator
task, which turns one request into one or more calls of `command_move`.
-/

namespace Strand

/-- The target of an absolute command, clamped to the limits. -/
def clampMove (min max move : ℤ) : ℤ :=
  if move ≤ min then min else if max ≤ move then max else move

/-- A clamped target is inside the limits, provided these are in order. -/
lemma clampMove_mem {min max : ℤ} (h : min ≤ max) (move : ℤ) :
    min ≤ clampMove min max move ∧ clampMove min max move ≤ max := by
  unfold clampMove
  split_ifs <;> omega

/-- `command_move(type, move, speed, accel, time, min, max)`: the item sent to the stepper queue.
For a negative type no branch assigns `test_action.move`; `unset` is what the stack holds there. -/
def commandMove (unset type move speed accel time min max : ℤ) : StepperCommand where
  min := min
  max := max
  speed := speed
  accel := accel
  move := if 1 ≤ type then clampMove min max move else if type = 0 then move else unset
  type := type
  time := time

/-- An absolute command is inside the limits it carries, provided these are in order. -/
lemma commandMove_mem {unset type move speed accel time min max : ℤ} (htype : 1 ≤ type)
    (h : min ≤ max) :
    min ≤ (commandMove unset type move speed accel time min max).move ∧
      (commandMove unset type move speed accel time min max).move ≤ max := by
  simpa [commandMove, htype] using clampMove_mem h move

/-! ## Requests to the generator tasks -/

/-- The `stepper_command_t` inside a request.  Its `time` is left unset and never read. -/
def requestedStepper (type move speed accel min max : ℤ) : StepperCommand :=
  { min, max, speed, accel, move, type, time := 0 }

/-- `wave_command`: the item sent to the wave queue. -/
def waveCommand (x y z speed type move stepperSpeed accel min max : ℤ) : Wave :=
  { x, y, z, speed, waveStepper := requestedStepper type move stepperSpeed accel min max }

/-- `sine_command`: the item sent to the sine queue. -/
def sineCommand (type move stepperSpeed accel min max loops offset : ℤ) : Sine :=
  { loops, offset, sineStepper := requestedStepper type move stepperSpeed accel min max }

/-- `sine_wave_command`: the item sent to the sine-wave queue. -/
def sineWaveCommand (x y z speed type move stepperSpeed accel min max loops offset : ℤ) :
    SineWave :=
  { loops, offset, x, y, z, speed
    sineWaveStepper := requestedStepper type move stepperSpeed accel min max }

/-! ## The generator tasks -/

/-- The result of an `int` computation that wraps around. -/
def wrap32 (v : ℤ) : ℤ := v.bmod (2 ^ 32)

/-- `command_move` as the generator tasks call it: the parameters of the request, another target
and time 0. -/
def moveLike (unset : ℤ) (c : StepperCommand) (target : ℤ) : StepperCommand :=
  commandMove unset c.type target c.speed c.accel 0 c.min c.max

/-- The calls of `command_move` that `wave_task` makes for one request. -/
def waveTaskCommands (unset : ℤ) (w : Wave) : List StepperCommand :=
  [moveLike unset w.waveStepper w.waveStepper.move]

/-- The calls of `command_move` in the loop `for (int i = 0; i < loops; i++)` of a generator. -/
def loopCommands (unset loops offset : ℤ) (c : StepperCommand) : List StepperCommand :=
  let top := wrap32 (c.move + offset)
  let bottom := wrap32 (c.move - offset)
  (List.range loops.toNat).map fun i => moveLike unset c (if i % 2 = 0 then top else bottom)

/-- The calls of `command_move` that `sine_task` makes for one request. -/
def sineTaskCommands (unset : ℤ) (s : Sine) : List StepperCommand :=
  loopCommands unset s.loops s.offset s.sineStepper ++
    [moveLike unset s.sineStepper s.sineStepper.move]

/-- The calls of `command_move` that `sine_wave_task` makes for one request. -/
def sineWaveTaskCommands (unset : ℤ) (s : SineWave) : List StepperCommand :=
  loopCommands unset s.loops s.offset s.sineWaveStepper ++
    [moveLike unset s.sineWaveStepper s.sineWaveStepper.move]

/-- `loops` commands in the loop of a generator; none when `loops` is negative. -/
lemma length_loopCommands (unset loops offset : ℤ) (c : StepperCommand) :
    (loopCommands unset loops offset c).length = loops.toNat := by
  simp [loopCommands]

/-- A sine request makes `loops + 1` commands. -/
lemma length_sineTaskCommands (unset : ℤ) (s : Sine) :
    (sineTaskCommands unset s).length = s.loops.toNat + 1 := by
  simp [sineTaskCommands, length_loopCommands]

/-- A sine-wave request makes `loops + 1` commands. -/
lemma length_sineWaveTaskCommands (unset : ℤ) (s : SineWave) :
    (sineWaveTaskCommands unset s).length = s.loops.toNat + 1 := by
  simp [sineWaveTaskCommands, length_loopCommands]

/-- Every command of a generator loop carries the limits of its request. -/
lemma mem_loopCommands {unset loops offset : ℤ} {c e : StepperCommand}
    (he : e ∈ loopCommands unset loops offset c) : ∃ target, e = moveLike unset c target := by
  simp only [loopCommands, List.mem_map] at he
  obtain ⟨i, -, rfl⟩ := he
  exact ⟨_, rfl⟩

end Strand
