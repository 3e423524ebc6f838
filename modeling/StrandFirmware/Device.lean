import Mathlib

/-!
# The data of the device

The records of `main.h` and the constants that the modelled functions use.  The `int` and `int32_t`
fields are integers; a computation that can leave the 32-bit range says so where it stands.
-/

namespace Strand

/-- `COMMAND_ITEMS`: the number of slots of `command_line`. -/
abbrev COMMAND_ITEMS : ℕ := 40

/-- The size of one slot of `command_line`. -/
abbrev COMMAND_SLOT_SIZE : ℕ := 50

/-- `COMMAND_ITEM_SIZE`: the size of a message in a network queue. -/
abbrev COMMAND_ITEM_SIZE : ℕ := 400

/-- A value of a 32-bit `int`. -/
def IsInt32 (v : ℤ) : Prop := -2 ^ 31 ≤ v ∧ v < 2 ^ 31

instance (v : ℤ) : Decidable (IsInt32 v) := inferInstanceAs (Decidable (_ ∧ _))

/-- `location_t`. -/
structure Location where
  x : ℤ
  y : ℤ
  z : ℤ
deriving DecidableEq

/-- `stepper_t`: the stored record of the device. -/
structure Stepper where
  current : ℤ
  min : ℤ
  max : ℤ
  target : ℤ
  number : ℤ
deriving DecidableEq

/-- `stepper_command_t`: one command of the stepper queue. -/
structure StepperCommand where
  min : ℤ
  max : ℤ
  speed : ℤ
  accel : ℤ
  move : ℤ
  type : ℤ
  time : ℤ
deriving DecidableEq

/-- `wave_t`. -/
structure Wave where
  x : ℤ
  y : ℤ
  z : ℤ
  speed : ℤ
  waveStepper : StepperCommand
deriving DecidableEq

/-- `sine_t`. -/
structure Sine where
  loops : ℤ
  offset : ℤ
  sineStepper : StepperCommand
deriving DecidableEq

/-- `sine_wave_t`. -/
structure SineWave where
  loops : ℤ
  offset : ℤ
  x : ℤ
  y : ℤ
  z : ℤ
  speed : ℤ
  sineWaveStepper : StepperCommand
deriving DecidableEq

end Strand
