import StrandFirmware.Device
import StrandFirmware.Library.FloatRounding
import StrandFirmware.Library.Runs

/-!
# The motion loop of `stepper_task`

`stepper_task` keeps the logical position `currentPosition` in millimetres and moves the motor by
relative step counts.  `beginCommand` is the code before the run loop, `iterate` one iteration of
the loop, and `executeCommand` a whole command: the list of `Poll`s fixes, for each iteration, what
`xTaskNotifyWait` returned and what the motor library did.

Of the library only the step counter and the target are kept.  How far `run()` moves the counter
and how many steps `stop()` needs are inputs of the iteration, bounded by the fields of `Poll`.

The code computes with `factor` in `float`.  An `Arithmetic` says how that is read: with the
rounding of the device (`Arithmetic.float32`) or exactly (`Arithmetic.exact`).  The functions under
`Stepping` are the exact reading.
-/

namespace Strand

open Rounding

/-- `float factor = 22.6`: motor steps per millimetre. -/
def factor : ℚ := 22.6

/-- How the `float` expressions of the task are computed. -/
structure Arithmetic where
  /-- What a constant, a converted `int` or a result is rounded to. -/
  round : ℚ → ℚ
  /-- The conversion to `int`. -/
  toInt : ℚ → ℤ

namespace Arithmetic

/-- Nothing is rounded, and every integer is an `int`. -/
def exact : Arithmetic := ⟨id, truncate⟩

/-- The arithmetic of the device: a `float` has 24 bits, and what is outside the range of `int` is
converted to the nearest `int`. -/
def float32 : Arithmetic := ⟨single, fun q => max (-2 ^ 31) (min (truncate q) (2 ^ 31 - 1))⟩

end Arithmetic

/-! ## The motor library -/

/-- The two step counts of `AccelStepper` that the task reads and moves. -/
structure AccelStepper where
  /-- `_currentPos`: the step counter. -/
  currentPos : ℤ
  /-- `_targetPos`. -/
  targetPos : ℤ
deriving DecidableEq

namespace AccelStepper

/-- `AccelStepper::distanceToGo`. -/
def distanceToGo (m : AccelStepper) : ℤ := m.targetPos - m.currentPos

/-- `AccelStepper::moveTo`. -/
def moveTo (m : AccelStepper) (absolute : ℤ) : AccelStepper := { m with targetPos := absolute }

/-- `AccelStepper::move`. -/
def move (m : AccelStepper) (relative : ℤ) : AccelStepper := m.moveTo (m.currentPos + relative)

/-- `AccelStepper::setCurrentPosition`. -/
def setCurrentPosition (_ : AccelStepper) (position : ℤ) : AccelStepper := ⟨position, position⟩

/-- `AccelStepper::runToNewPosition`: blocks until the motor stands at the new position. -/
def runToNewPosition (m : AccelStepper) (position : ℤ) : AccelStepper :=
  { m.moveTo position with currentPos := position }

/-- `AccelStepper::stop` for a motor travelling in `direction` (`1` or `-1`) that needs
`stepsToStop` steps to stop. -/
def stop (m : AccelStepper) (direction stepsToStop : ℤ) : AccelStepper :=
  if 0 < direction then m.move stepsToStop else m.move (-stepsToStop)

/-- `AccelStepper::run`: the counter moves by at most one step. -/
def run (m : AccelStepper) (delta : ℤ) : AccelStepper :=
  { m with currentPos := m.currentPos + delta }

end AccelStepper

/-! ## The task -/

/-- The value of a task notification: which of `HOME_BIT` and `STOP_BIT` are set. -/
structure Notification where
  /-- `HOME_BIT` (0x01). -/
  home : Bool
  /-- `STOP_BIT` (0x02). -/
  stop : Bool
deriving DecidableEq

/-- What one iteration of the run loop meets: the result of `xTaskNotifyWait` (`none` for
`pdFAIL`) and the behaviour of the motor library. -/
structure Poll where
  /-- The notification value received. -/
  notify : Option Notification
  /-- The direction of travel when `stop()` is called. -/
  direction : ℤ
  /-- The stopping distance of the library at that moment. -/
  stepsToStop : ℤ
  /-- The step made by `run()`. -/
  delta : ℤ
  direction_eq : direction = 1 ∨ direction = -1
  one_le_stepsToStop : 1 ≤ stepsToStop
  abs_delta_le : |delta| ≤ 1
deriving DecidableEq

/-- The variables of `stepper_task` that outlive an iteration. -/
structure Stepping where
  motor : AccelStepper
  /-- `stepper_move`: the relative step count of the last command. -/
  stepperMove : ℤ
  /-- `currentPosition`: the logical position in millimetres. -/
  currentPosition : ℤ
deriving DecidableEq

/-- The `HOME_BIT` branch, without the parameter writes: the counter restarts at zero, the motor
runs 4000 steps off the switch and the position becomes zero. -/
def Stepping.serveHome (s : Stepping) : Stepping :=
  { s with
    motor := (s.motor.setCurrentPosition 0).runToNewPosition 4000
    currentPosition := 0 }

namespace Arithmetic

variable (a : Arithmetic)

/-- `(stepper_commands.move - currentPosition) * factor`. -/
def product (position target : ℤ) : ℚ :=
  a.round (a.round ((target - position : ℤ) : ℚ) * a.round factor)

/-- The distance in steps between two logical positions, cut to an integer. -/
def stepsBetween (position target : ℤ) : ℤ := a.toInt (a.product position target)

/-- The code before the run loop: `stepper_move` is set from the command, an absolute command
records its target as the new position, and the motor is given its target.  A type that is none of
0, 1 and 2 leaves `stepper_move` as the last command set it. -/
def beginCommand (s : Stepping) (c : StepperCommand) : Stepping :=
  let s :=
    if c.type = 2 ∨ c.type = 1 then
      { s with
        stepperMove := a.stepsBetween s.currentPosition c.move
        currentPosition := c.move }
    else if c.type = 0 then { s with stepperMove := c.move } else s
  { s with motor := s.motor.move s.stepperMove }

/-- `stepper.distanceToGo() / factor`. -/
def toGo (distanceToGo : ℤ) : ℚ := a.round (a.round (distanceToGo : ℚ) / a.round factor)

/-- The `STOP_BIT` branch: the remaining distance is taken off the recorded target (added for a
move that is not positive), then the library picks a new target. -/
def serveStop (s : Stepping) (p : Poll) : Stepping :=
  let position := a.round (s.currentPosition : ℚ)
  let toGo := a.toGo s.motor.distanceToGo
  { s with
    currentPosition :=
      if s.stepperMove ≤ 0 then a.toInt (a.round (position + toGo))
      else a.toInt (a.round (position - toGo))
    motor := s.motor.stop p.direction p.stepsToStop }

/-- One iteration of the run loop.  The `HOME_BIT` branch clears the local copy of the
notification, so `STOP_BIT` is looked at only without `HOME_BIT`. -/
def iterate (s : Stepping) (p : Poll) : Stepping :=
  let s :=
    match p.notify with
    | some n => if n.home then s.serveHome else if n.stop then a.serveStop s p else s
    | none => s
  { s with motor := s.motor.run p.delta }

/-- The run loop is entered again only while the target is not reached. -/
def loopStep (s : Stepping) (p : Poll) : Option Stepping :=
  if s.motor.distanceToGo = 0 then none else some (a.iterate s p)

/-- A step of the loop is an iteration short of the target. -/
lemma loopStep_eq_some_iff {s t : Stepping} {p : Poll} :
    a.loopStep s p = some t ↔ s.motor.distanceToGo ≠ 0 ∧ a.iterate s p = t := by
  unfold loopStep
  split <;> simp [*]

end Arithmetic

/-! ### The exact reading -/

namespace Stepping

/-- The distance in steps between two logical positions, read exactly. -/
def stepsBetween (position target : ℤ) : ℤ := Arithmetic.exact.stepsBetween position target

/-- The code before the run loop, read exactly. -/
def beginCommand (s : Stepping) (c : StepperCommand) : Stepping :=
  Arithmetic.exact.beginCommand s c

/-- The `STOP_BIT` branch, read exactly. -/
def serveStop (s : Stepping) (p : Poll) : Stepping := Arithmetic.exact.serveStop s p

/-- One iteration of the run loop, read exactly. -/
def iterate (s : Stepping) (p : Poll) : Stepping := Arithmetic.exact.iterate s p

/-- The run loop, read exactly. -/
def loopStep (s : Stepping) (p : Poll) : Option Stepping := Arithmetic.exact.loopStep s p

/-- The exact distance in steps. -/
lemma stepsBetween_eq_truncate (position target : ℤ) :
    stepsBetween position target = truncate (((target - position : ℤ) : ℚ) * factor) := rfl

/-- The exact code before the run loop. -/
lemma beginCommand_eq (s : Stepping) (c : StepperCommand) : s.beginCommand c =
    let s :=
      if c.type = 2 ∨ c.type = 1 then
        { s with
          stepperMove := stepsBetween s.currentPosition c.move
          currentPosition := c.move }
      else if c.type = 0 then { s with stepperMove := c.move } else s
    { s with motor := s.motor.move s.stepperMove } := rfl

/-- The exact `STOP_BIT` branch. -/
lemma serveStop_eq (s : Stepping) (p : Poll) : s.serveStop p =
    { s with
      currentPosition :=
        if s.stepperMove ≤ 0 then
          truncate ((s.currentPosition : ℚ) + (s.motor.distanceToGo : ℚ) / factor)
        else truncate ((s.currentPosition : ℚ) - (s.motor.distanceToGo : ℚ) / factor)
      motor := s.motor.stop p.direction p.stepsToStop } := rfl

/-- The exact iteration. -/
lemma iterate_eq (s : Stepping) (p : Poll) : s.iterate p =
    let s :=
      match p.notify with
      | some n => if n.home then s.serveHome else if n.stop then s.serveStop p else s
      | none => s
    { s with motor := s.motor.run p.delta } := rfl

/-- A whole command: the code before the loop, then the iterations `ps`, after which the motor
stands at its target.  `none` when the loop makes another number of iterations. -/
def executeCommand (s : Stepping) (c : StepperCommand) (ps : List Poll) : Option Stepping :=
  (StepRuns.run loopStep (s.beginCommand c) ps).filter fun t => t.motor.distanceToGo = 0

/-- A command that was executed is a run of the loop that ends at the target. -/
lemma executeCommand_eq_some_iff {s t : Stepping} {c : StepperCommand} {ps : List Poll} :
    s.executeCommand c ps = some t ↔
      StepRuns.run loopStep (s.beginCommand c) ps = some t ∧ t.motor.distanceToGo = 0 := by
  simp [executeCommand, Option.filter_eq_some_iff]

/-- A step of the exact loop is an iteration short of the target. -/
lemma loopStep_eq_some_iff {s t : Stepping} {p : Poll} :
    s.loopStep p = some t ↔ s.motor.distanceToGo ≠ 0 ∧ s.iterate p = t :=
  Arithmetic.exact.loopStep_eq_some_iff

end Stepping

/-! ## Exact integer forms of the rounded quantities

`factor` is `113 / 5`, so a millimetre is `113` fifths of a step and every rounded quantity of the
task is a truncated quotient of integers. -/

/-- `factor` as a fraction. -/
lemma factor_eq : factor = 113 / 5 := by norm_num [factor]

/-- The step count of an absolute move is a truncated quotient by `5`. -/
lemma stepsBetween_eq (position target : ℤ) :
    Stepping.stepsBetween position target = (113 * (target - position)).tdiv 5 := by
  have h : ((target - position : ℤ) : ℚ) * factor =
      ((113 * (target - position) : ℤ) : ℚ) / (5 : ℕ) := by
    rw [factor_eq]
    push_cast
    ring
  rw [Stepping.stepsBetween_eq_truncate, h, truncate_div]
  rfl

/-- The position recorded at a STOP is a truncated quotient by `113`. -/
lemma truncate_add_div_factor (position distance : ℤ) :
    truncate ((position : ℚ) + (distance : ℚ) / factor) =
      (113 * position + 5 * distance).tdiv 113 := by
  have h : (position : ℚ) + (distance : ℚ) / factor =
      ((113 * position + 5 * distance : ℤ) : ℚ) / (113 : ℕ) := by
    rw [factor_eq]
    push_cast
    ring
  rw [h, truncate_div]
  rfl

end Strand
