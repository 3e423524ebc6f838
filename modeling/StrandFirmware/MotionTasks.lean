import StrandFirmware.DriveSettings
import StrandFirmware.TravelLimits
import StrandFirmware.WaveDelay

/-!
# What the tasks compute with the numbers of a message

The numbers of a message travel through queues before anything is computed with them.  A generator
divides a distance by the speed of its request and adds and subtracts its offset when it takes the
request; `stepper_task` subtracts its position from a target, multiplies by `factor` and, for a
command of type 2, divides by the time when it receives the command.  Nothing on the way checks
them.

`MotionTasks` is `command_handler`, the queues and the generators, and `stepper_task` with its run
loop.  `newDivisions` and `newResults` are the divisions and the `int` results that one step
computes; what a whole run computes is their `StepRuns.outputs`.
-/

namespace Strand

open Rounding
open Arithmetic (float32)

/-! ## What is computed -/

/-- A division by a number of a message. -/
inductive Division where
  /-- `distance / speed` in `deviceDistanceSpeed`, with `speed = s / 100.0`. -/
  | delay (distance : ℕ) (s : ℤ)
  /-- `stepper_move / float(stepper_commands.time)` in `stepper_task`. -/
  | speed (stepperMove : ℤ) (c : StepperCommand)
deriving DecidableEq

namespace Division

/-- The divisor. -/
def divisor : Division → FloatValue
  | delay _ s => (FloatValue.ofInt s).div (FloatValue.ofInt 100)
  | speed _ c => FloatValue.ofInt c.time

/-- What is derived from the quotient: the delay in milliseconds, or the speed of the motor. -/
def value : Division → FloatValue
  | delay distance s => distanceFromStart distance s
  | speed stepperMove c => stepperSpeed stepperMove c

/-- The divisor is not zero. -/
def Defined (d : Division) : Prop := d.divisor ≠ .finite 0

instance (d : Division) : Decidable d.Defined := inferInstanceAs (Decidable (_ ≠ _))

/-- The divisor of a delay is zero exactly for the speed zero. -/
lemma defined_delay_iff {distance : ℕ} {s : ℤ} : (delay distance s).Defined ↔ s ≠ 0 := by
  simp [Defined, divisor, FloatValue.ofInt, FloatValue.div]

/-- The divisor of a speed is zero exactly for the time zero. -/
lemma defined_speed_iff {stepperMove : ℤ} {c : StepperCommand} :
    (speed stepperMove c).Defined ↔ c.time ≠ 0 := by
  simp [Defined, divisor, FloatValue.ofInt]

/-- A value derived with a divisor that is not zero is a finite number. -/
lemma exists_value_eq_finite {d : Division} (h : d.Defined) : ∃ q, d.value = .finite q := by
  cases d with
  | delay distance s =>
    have hs : (s : ℚ) / 100 ≠ 0 :=
      div_ne_zero (Int.cast_ne_zero.mpr (defined_delay_iff.mp h)) (by norm_num)
    refine ⟨(distance : ℚ) / ((s : ℚ) / 100), ?_⟩
    simp [value, distanceFromStart, FloatValue.ofInt, FloatValue.div, hs]
  | speed stepperMove c =>
    exact ⟨_, FloatValue.mul_abs_div_ofInt c.speed stepperMove (defined_speed_iff.mp h)⟩

end Division

/-- The coordinate differences in `deviceDistanceSpeed`. -/
def coordinateDifferences (deviceLocation : Location) (x y z : ℤ) : List ℤ :=
  [deviceLocation.x - x, deviceLocation.y - y, deviceLocation.z - z]

/-- `top` and `bottom` of a generator. -/
def turningPoints (c : StepperCommand) (offset : ℤ) : List ℤ := [c.move + offset, c.move - offset]

namespace Request

/-- The divisions of a generator that takes the request. -/
def divisions (deviceLocation : Location) : Request → List Division
  | wave w => [.delay (deviceDistance deviceLocation w.x w.y w.z) w.speed]
  | sine _ => []
  | sineWave s => [.delay (deviceDistance deviceLocation s.x s.y s.z) s.speed]

/-- The exact values of the `int` expressions of a generator that takes the request. -/
def results (deviceLocation : Location) : Request → List ℤ
  | wave w => coordinateDifferences deviceLocation w.x w.y w.z
  | sine s => turningPoints s.sineStepper s.offset
  | sineWave s =>
    turningPoints s.sineWaveStepper s.offset ++ coordinateDifferences deviceLocation s.x s.y s.z

end Request

namespace StepperCommand

/-- The division of `stepper_task` for a command received at `position`. -/
def divisions (position : ℤ) (c : StepperCommand) : List Division :=
  if c.type = 2 then [.speed (float32.stepsBetween position c.move) c] else []

/-- The values of the `int` expressions of `stepper_task` for a command received at `position`: the
displacement, and its product with `factor` in `float`, without the fraction. -/
def results (position : ℤ) (c : StepperCommand) : List ℤ :=
  if c.type = 2 ∨ c.type = 1 then [c.move - position, truncate (float32.product position c.move)]
  else []

end StepperCommand

/-! ## The tasks -/

/-- The step is `stepper_task` taking a command from its queue. -/
def TravelSystem.Label.dequeues : TravelSystem.Label → Bool
  | .task .dequeue => true
  | _ => false

/-- Another record in `device_stepper`. -/
def TravelSystem.withStepper (s : TravelSystem) (record : Stepper) : TravelSystem :=
  { s with net := { s.net with stepper := record } }

/-- `command_handler`, the generators and `stepper_task`. -/
structure MotionTasks where
  /-- `command_handler`, the queues and the generators. -/
  travel : TravelSystem
  /-- The variables of `stepper_task`. -/
  stepping : Stepping
  /-- The command that `stepper_task` executes. -/
  command : Option StepperCommand

namespace MotionTasks

/-- One step of one of the tasks. -/
inductive Label where
  /-- A step of `command_handler` or of a generator, or a tick. -/
  | travel (l : TravelSystem.Label)
  /-- `stepper_task` receives a command and runs up to its loop. -/
  | receive
  /-- An iteration of the run loop.  `env` says what NVS returns to the `HOME_BIT` branch. -/
  | poll (env : Environment) (p : Poll)
  /-- The code after the loop. -/
  | finish

/-- The start of the device with its records, after `init_strand(device_stepper.current)`. -/
def boot (net : NetState) : MotionTasks where
  travel := .boot net
  stepping := ⟨⟨0, 0⟩, 0, net.stepper.current⟩
  command := none

/-- The request that a generator takes next. -/
def nextRequest (s : MotionTasks) (g : Generator) : Option Request :=
  (s.travel.pipeline.task g).queue.items.head?.map Prod.snd

/-- The command that `stepper_task` receives next. -/
def nextCommand (s : MotionTasks) : Option StepperCommand :=
  s.travel.pipeline.stepperQueue.items.head?.map Prod.snd

/-- `device_stepper` after an iteration: the `HOME_BIT` branch sets the position to zero, saves the
record and reads it back. -/
def recordAfterPoll (env : Environment) (record : Stepper) (p : Poll) : Stepper :=
  if p.takesHome then env.reloadStepper (setPramamter record 1 0) else record

/-- `device_stepper` after the loop of a command. -/
def recordAfterLoop (s : MotionTasks) (c : StepperCommand) : Stepper :=
  if 1 ≤ c.type then setPramamter s.travel.net.stepper 1 s.stepping.currentPosition
  else s.travel.net.stepper

/-- One step. -/
def step (unset : Stepper → ℤ) (s : MotionTasks) : Label → Option MotionTasks
  | .travel l =>
    if l.dequeues then none else (s.travel.step unset l).map fun travel => { s with travel }
  | .receive =>
    match s.command with
    | some _ => none
    | none =>
      s.nextCommand.bind fun c =>
        (s.travel.step unset (.task .dequeue)).map fun travel =>
          { travel, stepping := float32.beginCommand s.stepping c, command := some c }
  | .poll env p =>
    match s.command with
    | none => none
    | some _ =>
      (float32.loopStep s.stepping p).map fun stepping =>
        { s with
          stepping
          travel := s.travel.withStepper (recordAfterPoll env s.travel.net.stepper p) }
  | .finish =>
    match s.command with
    | none => none
    | some c =>
      if s.stepping.motor.distanceToGo = 0 then
        some { s with travel := s.travel.withStepper (s.recordAfterLoop c), command := none }
      else none

/-- What a step does. -/
inductive Stepped (unset : Stepper → ℤ) (s : MotionTasks) : Label → MotionTasks → Prop
  /-- Only `command_handler`, the queues and the generators change. -/
  | travel {l : TravelSystem.Label} {travel : TravelSystem}
      (htravel : s.travel.step unset l = some travel) :
      Stepped unset s (.travel l) { s with travel }
  /-- The first command of the queue is taken and begun. -/
  | receive {c : StepperCommand} {travel : TravelSystem} (hidle : s.command = none)
      (hc : c ∈ s.nextCommand) (htravel : s.travel.step unset (.task .dequeue) = some travel) :
      Stepped unset s .receive
        { travel, stepping := float32.beginCommand s.stepping c, command := some c }
  /-- The motor goes on, and HOME changes the record. -/
  | poll {env : Environment} {p : Poll} {c : StepperCommand} (hrunning : s.command = some c)
      (hgo : s.stepping.motor.distanceToGo ≠ 0) :
      Stepped unset s (.poll env p)
        { s with
          stepping := float32.iterate s.stepping p
          travel := s.travel.withStepper (recordAfterPoll env s.travel.net.stepper p) }
  /-- The command is done, and the record is written. -/
  | finish {c : StepperCommand} (hrunning : s.command = some c)
      (hdone : s.stepping.motor.distanceToGo = 0) :
      Stepped unset s .finish
        { s with travel := s.travel.withStepper (s.recordAfterLoop c), command := none }

/-- **What one step can do.** -/
theorem stepped_of_step {unset : Stepper → ℤ} {s t : MotionTasks} {l : Label}
    (h : s.step unset l = some t) : Stepped unset s l t := by
  cases l with
  | travel l =>
    obtain ⟨-, h⟩ := Option.ite_none_left_eq_some.mp h
    obtain ⟨travel, htravel, rfl⟩ := Option.map_eq_some_iff.mp h
    exact .travel htravel
  | receive =>
    unfold step at h
    cases hidle : s.command with
    | some c => simp [hidle] at h
    | none =>
      simp only [hidle] at h
      obtain ⟨c, hc, h⟩ := Option.bind_eq_some_iff.mp h
      obtain ⟨travel, htravel, rfl⟩ := Option.map_eq_some_iff.mp h
      exact .receive hidle hc htravel
  | poll env p =>
    simp only [step] at h
    split at h
    next => exact absurd h (by simp)
    next c hrunning =>
      obtain ⟨stepping, hstepping, rfl⟩ := Option.map_eq_some_iff.mp h
      obtain ⟨hgo, rfl⟩ := float32.loopStep_eq_some_iff.mp hstepping
      exact .poll hrunning hgo
  | finish =>
    unfold step at h
    cases hrunning : s.command with
    | none => simp [hrunning] at h
    | some c =>
      simp only [hrunning] at h
      obtain ⟨hdone, rfl⟩ := StepRuns.of_guarded h
      exact .finish hrunning hdone

/-- The divisions of a step. -/
def newDivisions (s : MotionTasks) : Label → List Division
  | .travel (.task (.take g)) =>
    (s.nextRequest g).toList.flatMap (Request.divisions s.travel.net.location)
  | .receive => s.nextCommand.toList.flatMap (StepperCommand.divisions s.stepping.currentPosition)
  | _ => []

/-- The `int` results of a step. -/
def newResults (s : MotionTasks) : Label → List ℤ
  | .travel (.task (.take g)) =>
    (s.nextRequest g).toList.flatMap (Request.results s.travel.net.location)
  | .receive => s.nextCommand.toList.flatMap (StepperCommand.results s.stepping.currentPosition)
  | _ => []

/-- Over TCP: the message, and so many effects of it. -/
def handled (text : String) (effects : ℕ) : List Label :=
  .travel (.message .faithful .tcp (.ofText text)) :: List.replicate effects (.travel .act)

/-- A generator takes its request and sends a command to `stepper_task`, which receives it. -/
def generated (g : Generator) : List Label :=
  [.travel (.task (.take g)), .travel (.task (.call g)), .travel (.task (.send g)), .receive]

/-- The command of `command_handler` is sent to `stepper_task`, which receives it. -/
def sent : List Label := [.travel (.task .handlerSend), .receive]

/-! ## What is on its way -/

/-- Everything on its way to the motor has a property: `P` for a request, `Q` for a command, both
with the record that they come from. -/
structure Carrying (unset : Stepper → ℤ) (P : Stepper → Request → Prop)
    (Q : Stepper → StepperCommand → Prop) (s : MotionTasks) : Prop where
  sending : s.travel.Sending unset P Q
  queued : ∀ g, ∀ x ∈ (s.travel.pipeline.task g).queue.items, P x.1 x.2

section Carrying

variable {unset : Stepper → ℤ} {P : Stepper → Request → Prop} {Q : Stepper → StepperCommand → Prop}
  {s t : MotionTasks} {l : Label}

/-- At the start nothing is on its way. -/
lemma carrying_boot (unset : Stepper → ℤ) (P : Stepper → Request → Prop)
    (Q : Stepper → StepperCommand → Prop) (net : NetState) : (boot net).Carrying unset P Q where
  sending := ⟨by simp [boot, TravelSystem.boot], MotionPipeline.all_boot unset _⟩
  queued := by simp [boot, TravelSystem.boot, MotionPipeline.boot]

/-- Every step keeps the property if the messages bring only effects with the property. -/
theorem carrying_step (hPQ : ∀ a r, P a r → ∀ c ∈ r.commands (unset a), Q a c)
    (hs : s.Carrying unset P Q)
    (hl : ∀ env r m net es, l = .travel (.message env r m) →
      commandHandler env s.travel.net m.toList r.commandType = .ok (net, es) →
        ∀ e ∈ es, e.Sends (P s.travel.net.stepper) (Q s.travel.net.stepper))
    (h : s.step unset l = some t) : t.Carrying unset P Q := by
  obtain ⟨hsending, hqueued⟩ := hs
  cases stepped_of_step h with
  | travel htravel =>
    refine ⟨TravelSystem.sending_step hPQ hsending ?_ htravel,
      TravelSystem.queued_step hsending hqueued htravel⟩
    rintro env r m net es rfl hm
    exact hl env r m net es rfl hm
  | receive _ _ htravel =>
    exact ⟨TravelSystem.sending_step hPQ hsending (by simp) htravel,
      TravelSystem.queued_step hsending hqueued htravel⟩
  | poll | finish => exact ⟨⟨hsending.agenda, hsending.commands⟩, hqueued⟩

/-- The request that a generator takes has the property. -/
lemma Carrying.nextRequest (hs : s.Carrying unset P Q) {g : Generator} {r : Request}
    (hr : r ∈ s.nextRequest g) : ∃ a, P a r := by
  obtain ⟨x, hx, rfl⟩ := Option.map_eq_some_iff.mp hr
  exact ⟨x.1, hs.queued g x (List.mem_of_mem_head? hx)⟩

/-- The command that `stepper_task` receives has the property. -/
lemma Carrying.nextCommand (hs : s.Carrying unset P Q) {c : StepperCommand}
    (hc : c ∈ s.nextCommand) : ∃ a, Q a c := by
  obtain ⟨x, hx, rfl⟩ := Option.map_eq_some_iff.mp hc
  exact ⟨x.1, hs.sending.commands.put x (List.mem_append_right _ (List.mem_of_mem_head? hx))⟩

end Carrying

end MotionTasks

end Strand
