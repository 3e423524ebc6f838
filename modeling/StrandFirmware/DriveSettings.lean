import StrandFirmware.Drift
import StrandFirmware.Handler
import StrandFirmware.Library.FloatValue

/-!
# Acceleration and maximum speed

Besides its target, `stepper_task` gives the motor library an acceleration and a maximum speed with
each command.  The library keeps both until they are set again: `setAcceleration` ignores zero, and
a command whose type is none of 0, 1 and 2 sets neither.  A command with a time gets a speed that
depends on its displacement, computed in `float`.

A `Drive` is the task with these two settings, and `Drive.execute` one command on it, with the
iterations of its run loop.
-/

namespace Strand

open Rounding Stepping

/-! ## The settings of the library -/

/-- The variables of `stepper_task` and the settings of the library. -/
structure Drive where
  stepping : Stepping
  /-- `_acceleration`. -/
  acceleration : ℤ
  /-- `_maxSpeed`. -/
  maxSpeed : ℤ
deriving DecidableEq

/-- `stepper_move / float(time)` without its sign, times the speed of the command. -/
def stepperSpeed (stepperMove : ℤ) (c : StepperCommand) : FloatValue :=
  (FloatValue.ofInt c.speed).mul
    ((FloatValue.ofInt stepperMove).div (FloatValue.ofInt c.time)).abs

/-- What the branch for type 2 passes to `setMaxSpeed`. -/
def timedSpeed (platform : FloatValue → ℤ) (stepperMove : ℤ) (c : StepperCommand) : ℤ :=
  let speed := stepperSpeed stepperMove c
  if c.speed < 10000 ∧ (FloatValue.finite 100).LessEq speed then speed.toInt platform
  else if speed.Less (.finite 100) then 100
  else 10000

namespace Drive

/-- The state after `init_strand(bootPosition)`. -/
def boot (bootPosition : ℤ) : Drive where
  stepping := ⟨⟨0, 0⟩, 0, bootPosition⟩
  acceleration := 1000 * 8
  maxSpeed := 1400 * 8

/-- `AccelStepper::setMaxSpeed`. -/
def setMaxSpeed (d : Drive) (speed : ℤ) : Drive :=
  { d with maxSpeed := if speed < 0 then -speed else speed }

/-- `AccelStepper::setAcceleration`. -/
def setAcceleration (d : Drive) (acceleration : ℤ) : Drive :=
  if acceleration = 0 then d
  else { d with acceleration := if acceleration < 0 then -acceleration else acceleration }

variable (platform : FloatValue → ℤ)

/-- The code before the run loop. -/
def beginCommand (d : Drive) (c : StepperCommand) : Drive :=
  let stepping := d.stepping.beginCommand c
  let d := { d with stepping }
  if c.type = 2 then
    (d.setAcceleration c.accel).setMaxSpeed (timedSpeed platform stepping.stepperMove c)
  else if c.type = 1 ∨ c.type = 0 then (d.setMaxSpeed c.speed).setAcceleration c.accel
  else d

/-- One command: the code before the loop, and the iterations of the loop. -/
def execute (d : Drive) (e : StepperCommand × List Poll) : Option Drive :=
  (commandStep d.stepping e).map fun stepping => { d.beginCommand platform e.1 with stepping }

/-- What the motor library is told for a command: the steps passed to `move`, the acceleration and
the maximum speed. -/
structure Order where
  steps : ℤ
  acceleration : ℤ
  maxSpeed : ℤ
deriving DecidableEq

/-- The order in force when the run loop is entered for the command `c`. -/
def order (d : Drive) (c : StepperCommand) : Order :=
  let d := d.beginCommand platform c
  ⟨d.stepping.stepperMove, d.acceleration, d.maxSpeed⟩

variable {platform}

/-- The settings do not touch the positions. -/
@[simp] lemma stepping_beginCommand (d : Drive) (c : StepperCommand) :
    (d.beginCommand platform c).stepping = d.stepping.beginCommand c := by
  simp only [beginCommand, setAcceleration, setMaxSpeed]
  split_ifs <;> rfl

/-- A command that was executed. -/
lemma execute_eq_some_iff {d t : Drive} {e : StepperCommand × List Poll} :
    d.execute platform e = some t ↔
      commandStep d.stepping e = some t.stepping ∧
        t.acceleration = (d.beginCommand platform e.1).acceleration ∧
        t.maxSpeed = (d.beginCommand platform e.1).maxSpeed := by
  obtain ⟨stepping, acceleration, maxSpeed⟩ := t
  simp only [execute, Option.map_eq_some_iff, Drive.mk.injEq]
  constructor
  · rintro ⟨s, hs, rfl, rfl, rfl⟩
    exact ⟨hs, rfl, rfl⟩
  · rintro ⟨hs, rfl, rfl⟩
    exact ⟨stepping, hs, rfl, rfl, rfl⟩

end Drive

/-! ## Commands that come from messages -/

/-- The commands that an effect brings to the queue of `stepper_task`, at once or by way of a
generator task. -/
def Effect.commands (unset : ℤ) : Effect → List StepperCommand
  | .stepperQueue c => [c]
  | .waveQueue w => waveTaskCommands unset w
  | .sineQueue s => sineTaskCommands unset s
  | .sineWaveQueue s => sineWaveTaskCommands unset s
  | _ => []

/-- The commands that a text sent over TCP to a new device brings to the queue of `stepper_task`. -/
def messageCommands (text : String) : List StepperCommand :=
  match commandHandler .faithful .fresh (Message.ofText text).toList 1 with
  | .ok (_, es) => es.flatMap (Effect.commands 0)
  | .error _ => []

/-! ## What the code before the loop sets -/

/-- A command of type 0, 1 or 2. -/
def StepperCommand.Typed (c : StepperCommand) : Prop := c.type = 0 ∨ c.type = 1 ∨ c.type = 2

instance (c : StepperCommand) : Decidable c.Typed := inferInstanceAs (Decidable (_ ∨ _))

/-- The displacement of a command of type 0, 1 or 2 from the given position. -/
def displacement (position : ℤ) (c : StepperCommand) : ℤ :=
  if c.type = 0 then c.move else stepsBetween position c.move

/-- The maximum speed set by a command of type 0, 1 or 2. -/
def speedSetting (platform : FloatValue → ℤ) (position : ℤ) (c : StepperCommand) : ℤ :=
  if c.type = 2 then timedSpeed platform (displacement position c) c else c.speed

/-- A command of type 0, 1 or 2 replaces `stepper_move`. -/
lemma stepperMove_beginCommand {s : Stepping} {c : StepperCommand} (hc : c.Typed) :
    (s.beginCommand c).stepperMove = displacement s.currentPosition c := by
  rcases hc with hc | hc | hc <;> simp [Stepping.beginCommand_eq, displacement, hc]

/-- A command of another type leaves `stepper_move` alone. -/
lemma stepperMove_beginCommand_of_not {s : Stepping} {c : StepperCommand} (hc : ¬ c.Typed) :
    (s.beginCommand c).stepperMove = s.stepperMove := by
  simp only [StepperCommand.Typed, not_or] at hc
  simp [Stepping.beginCommand_eq, hc]

/-- The run loop starts with the whole displacement to go. -/
lemma distanceToGo_beginCommand (s : Stepping) (c : StepperCommand) :
    (s.beginCommand c).motor.distanceToGo = (s.beginCommand c).stepperMove := by
  simp [Stepping.beginCommand_eq, AccelStepper.move, AccelStepper.moveTo, AccelStepper.distanceToGo]

/-- The library takes the absolute value of its settings. -/
lemma ite_neg_eq_abs (v : ℤ) : (if v < 0 then -v else v) = |v| := by
  split
  next h => exact (abs_of_neg h).symm
  next h => exact (abs_of_nonneg (not_lt.mp h)).symm

namespace Drive

variable {platform : FloatValue → ℤ}

/-- The maximum speed after a command of type 0, 1 or 2. -/
lemma maxSpeed_beginCommand {d : Drive} {c : StepperCommand} (hc : c.Typed) :
    (d.beginCommand platform c).maxSpeed =
      |speedSetting platform d.stepping.currentPosition c| := by
  have hmove := stepperMove_beginCommand (s := d.stepping) hc
  rcases hc with hc | hc | hc <;>
    simp only [beginCommand, speedSetting, hmove, hc, setMaxSpeed, setAcceleration,
      ite_neg_eq_abs] <;>
    split_ifs <;> simp_all

/-- The acceleration after a command of type 0, 1 or 2. -/
lemma acceleration_beginCommand {d : Drive} {c : StepperCommand} (hc : c.Typed) :
    (d.beginCommand platform c).acceleration =
      if c.accel = 0 then d.acceleration else |c.accel| := by
  rcases hc with hc | hc | hc <;>
    simp only [beginCommand, hc, setMaxSpeed, setAcceleration, ite_neg_eq_abs] <;>
    split_ifs <;> simp_all

/-- A command of another type sets nothing. -/
lemma beginCommand_of_not_typed {d : Drive} {c : StepperCommand} (hc : ¬ c.Typed) :
    d.beginCommand platform c = { d with stepping := d.stepping.beginCommand c } := by
  simp only [StepperCommand.Typed, not_or] at hc
  simp [beginCommand, hc]

/-! ## Orders and histories -/

/-- The order of a command of type 0, 1 or 2. -/
lemma order_of_typed {d : Drive} {c : StepperCommand} (hc : c.Typed) :
    d.order platform c =
      ⟨displacement d.stepping.currentPosition c, if c.accel = 0 then d.acceleration else |c.accel|,
        |speedSetting platform d.stepping.currentPosition c|⟩ := by
  rw [order, maxSpeed_beginCommand hc, acceleration_beginCommand hc, stepping_beginCommand,
    stepperMove_beginCommand hc]

/-- A command of another type repeats the order before it. -/
lemma order_of_not_typed {d : Drive} {c : StepperCommand} (hc : ¬ c.Typed) :
    d.order platform c = ⟨d.stepping.stepperMove, d.acceleration, d.maxSpeed⟩ := by
  rw [order, beginCommand_of_not_typed hc]
  exact congrArg (Order.mk · _ _) (stepperMove_beginCommand_of_not hc)

/-- The order of the command `c` is the same after any two histories that end at the same position,
each from its own start. -/
def HistoryIndependent (platform : FloatValue → ℤ) (c : StepperCommand) : Prop :=
  ∀ (b b' : ℤ) (es es' : List (StepperCommand × List Poll)) (d d' : Drive),
    StepRuns.run (execute platform) (boot b) es = some d →
      StepRuns.run (execute platform) (boot b') es' = some d' →
        d.stepping.currentPosition = d'.stepping.currentPosition →
          d.order platform c = d'.order platform c

/-- `stepperMove move speed accel` as `stepper_task` receives it. -/
def stepBy (move speed accel : ℤ) : StepperCommand :=
  commandMove 0 0 move speed accel 0 0 100

/-- The move of one step. -/
def oneStep : StepperCommand × List Poll := (stepBy 1 1 1, [quietPoll 1 abs_delta_one])

/-- One step makes the counter and `stepper_move` 1, and leaves the position alone. -/
lemma run_oneStep (b : ℤ) :
    StepRuns.run (execute platform) (boot b) [oneStep] = some ⟨⟨⟨1, 1⟩, 1, b⟩, 1, 1⟩ := rfl

/-- A move of no steps sets the acceleration and nothing else. -/
lemma run_stepBy_zero (b : ℤ) {accel : ℤ} (h : 0 < accel) :
    StepRuns.run (execute platform) (boot b) [(stepBy 0 1 accel, [])] =
      some ⟨⟨⟨0, 0⟩, 0, b⟩, accel, 1⟩ := by
  have h₀ : accel ≠ 0 := h.ne'
  have h₁ : ¬ accel < 0 := h.le.not_gt
  simp [StepRuns.run, execute, commandStep, Stepping.executeCommand, stepBy, commandMove, boot,
    Stepping.beginCommand_eq, beginCommand, setMaxSpeed, setAcceleration, AccelStepper.move,
    AccelStepper.moveTo, AccelStepper.distanceToGo, h₀, h₁]

/-- **The order depends on the command and the position alone** exactly for the commands of type 0,
1 or 2 with an acceleration. -/
theorem historyIndependent_iff (platform : FloatValue → ℤ) (c : StepperCommand) :
    HistoryIndependent platform c ↔ c.Typed ∧ c.accel ≠ 0 := by
  constructor
  · intro hall
    have htyped : c.Typed := by
      by_contra hc
      -- one step, and then nothing: the earlier displacement is repeated
      have h := hall 0 0 [oneStep] [] _ _ (run_oneStep 0) rfl rfl
      rw [order_of_not_typed hc, order_of_not_typed hc] at h
      exact absurd (congrArg Order.steps h) (by decide)
    refine ⟨htyped, ?_⟩
    intro ha
    -- two commands that differ in their acceleration only
    have h := hall 0 0 _ _ _ _ (run_stepBy_zero 0 (by decide : (0 : ℤ) < 1))
      (run_stepBy_zero 0 (by decide : (0 : ℤ) < 2)) rfl
    rw [order_of_typed htyped, order_of_typed htyped, if_pos ha, if_pos ha] at h
    have hacceleration : (1 : ℤ) = 2 := congrArg Order.acceleration h
    exact absurd hacceleration (by decide)
  · rintro ⟨hc, ha⟩ b b' es es' d d' - - hposition
    rw [order_of_typed hc, order_of_typed hc, hposition, if_neg ha, if_neg ha]

/-- The command that a `stepperWave` with the type 5 leads to. -/
def typeFive : StepperCommand := commandMove 0 5 0 1 1 0 0 100

/-- A `stepperWave` message can bring a command of type 5, and after a move of one step this command
repeats the step, at the position where it makes none after the start. -/
theorem not_historyIndependent_typeFive :
    typeFive ∈ messageCommands "stepperWave 0 0 0 0 5 0 1 1" ∧
      ∀ platform, (boot 0).order platform typeFive = ⟨0, 8000, 11200⟩ ∧
        (∃ d, StepRuns.run (execute platform) (boot 0) [oneStep] = some d ∧
          d.stepping.currentPosition = 0 ∧ d.order platform typeFive = ⟨1, 1, 1⟩) ∧
        ¬ HistoryIndependent platform typeFive := by
  refine ⟨by decide +kernel, fun platform => ⟨rfl, ⟨_, run_oneStep 0, rfl, rfl⟩, ?_⟩⟩
  intro hall
  have hsteps : (1 : ℤ) = 0 :=
    congrArg Order.steps (hall 0 0 [oneStep] [] _ _ (run_oneStep 0) rfl rfl)
  exact absurd hsteps (by decide)

end Drive

end Strand
