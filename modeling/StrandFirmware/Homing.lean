import StrandFirmware.PendingNotifications
import StrandFirmware.StepGenerator

/-!
# Homing

`HomingSystem` is `stepper_task` with everything that homing touches: the step generator, the
notification value, the logical position, and `device_stepper` with its copy in NVS, which
`command_handler` writes too.  The homing run is made step by step, so that notifications and
parameter writes can fall anywhere in it.

Seen without its parameters and between the steps of the homing run, the system is the
`MotorSystem` in which that run is one step (`exists_run_motorSystem`).
-/

namespace Strand

open Rounding Stepping

/-- What the float arithmetic of the motor library yields in one iteration of the run loop. -/
structure Reading where
  /-- The stopping distance before the iteration. -/
  stepsToStop : ℕ
  /-- The next step is due. -/
  due : Bool
  /-- The stopping distance after that step. -/
  stepsToStopAfter : ℕ
deriving DecidableEq

/-- What the float arithmetic of the motor library yields at the start of a command. -/
structure Tuning where
  /-- The effect of `setMaxSpeed`. -/
  maxSpeed : Option ℕ
  /-- The effect of `setAcceleration`. -/
  acceleration : Option (ℤ × ℕ)
  /-- The stopping distance when the motor is given its target. -/
  stepsToStop : ℕ
deriving DecidableEq

/-- The calls of `setMaxSpeed` and `setAcceleration` for a command, in the order of its type. -/
def StepGenerator.tune (m : StepGenerator) (c : StepperCommand) (t : Tuning) : StepGenerator :=
  if c.type = 2 then (m.setAcceleration t.acceleration).setMaxSpeed t.maxSpeed
  else if c.type = 1 ∨ c.type = 0 then (m.setMaxSpeed t.maxSpeed).setAcceleration t.acceleration
  else m

/-- A call of `run()` in a move that started from rest and met nothing: braking takes as many steps
as speeding up, so the motor arrives at its target with at most one step needed to stop. -/
def StepGenerator.Settles (m : StepGenerator) (due : Bool) (stepsToStop : ℕ) : Prop :=
  (m.run due stepsToStop).distanceToGo = 0 → stepsToStop ≤ 1

instance (m : StepGenerator) (due : Bool) (stepsToStop : ℕ) :
    Decidable (m.Settles due stepsToStop) :=
  inferInstanceAs (Decidable (_ → _))

/-- The calls at the start of a command change neither the counter nor the target. -/
@[simp] lemma StepGenerator.toAccelStepper_tune (m : StepGenerator) (c : StepperCommand)
    (t : Tuning) : (m.tune c t).toAccelStepper = m.toAccelStepper := by
  unfold tune
  split_ifs <;> simp

/-- They keep the speed. -/
lemma StepGenerator.Sound.tune {m : StepGenerator} (hm : m.Sound) (c : StepperCommand)
    (t : Tuning) : (m.tune c t).Sound := by
  unfold StepGenerator.tune
  split_ifs
  · exact (hm.setAcceleration _).setMaxSpeed _
  · exact (hm.setMaxSpeed _).setAcceleration _
  · exact hm

/-- Where `stepper_task` stands. -/
inductive HomingStage where
  /-- It waits for the next command. -/
  | waiting
  /-- It is in the run loop. -/
  | running (c : StepperCommand)
  /-- It is in `runToNewPosition(4000)` of the `HOME_BIT` branch. -/
  | homing (c : StepperCommand) (notify : Option Notification)
  /-- It saves the parameters in that branch. -/
  | saving (c : StepperCommand) (notify : Option Notification)
deriving DecidableEq

/-- `stepper_task` with all that homing touches. -/
structure HomingSystem where
  /-- The bits that are set. -/
  pending : Notification
  generator : StepGenerator
  stepperMove : ℤ
  currentPosition : ℤ
  record : ParameterSystem
  stage : HomingStage
  /-- The steps that the motor made. -/
  made : ℕ
  /-- The same, backward ones counted negative. -/
  travelled : ℤ

namespace HomingSystem

/-- What happens next. -/
inductive Label where
  /-- `isr` sets `HOME_BIT`. -/
  | isr
  /-- `command_handler` sets `STOP_BIT`. -/
  | stop
  /-- The task receives a command and runs up to its loop. -/
  | receive (c : StepperCommand) (t : Tuning)
  /-- An iteration of the loop, up to the homing run if it takes `HOME_BIT`. -/
  | poll (notify : Option Notification) (r : Reading)
  /-- A call of `run()` in the homing run. -/
  | homingRun (due : Bool) (stepsToStop : ℕ)
  /-- The homing run is over: the position is set and the save begins. -/
  | homed
  /-- The next step of a save. -/
  | proceed (a : ParameterTask)
  /-- The save is over: the rest of the iteration. -/
  | saved (r : Reading)
  /-- The code after the loop. -/
  | finish
  /-- `command_handler` sets a parameter and calls `saveParamters`. -/
  | parameter (type value : ℤ)
deriving DecidableEq

/-- The variables of the motion loop. -/
def stepping (s : HomingSystem) : Stepping :=
  ⟨s.generator.toAccelStepper, s.stepperMove, s.currentPosition⟩

/-- The state right after `init_strand(device_stepper.current)`. -/
def boot (record : Stepper) (nvs : String → ℤ) : HomingSystem where
  pending := .empty
  generator := { currentPos := 0, targetPos := 0, n := 0, clockwise := false, moving := false }
  stepperMove := 0
  currentPosition := record.current
  record := .boot record nvs
  stage := .waiting
  made := 0
  travelled := 0

/-- The motor after the `STOP_BIT` branch, if the iteration takes it. -/
def braked (m : StepGenerator) (notify : Option Notification) (r : Reading) : StepGenerator :=
  if notify.any (fun n => n.stop) then m.stop r.stepsToStop else m

/-- An iteration without `HOME_BIT` as the motion loop sees it. -/
def poll (m : StepGenerator) (notify : Option Notification) (r : Reading) : Poll where
  notify := notify
  direction := m.direction
  stepsToStop := r.stepsToStop + 1
  delta := (braked m notify r).runSpeed r.due
  direction_eq := m.direction_eq
  one_le_stepsToStop := by omega
  abs_delta_le := (braked m notify r).abs_runSpeed_le r.due

/-- One step.  The homing run starts from rest, and nothing interferes with it. -/
def step (s : HomingSystem) : Label → Option HomingSystem
  | .isr => some { s with pending := s.pending.setBits ⟨true, false⟩ }
  | .stop => some { s with pending := s.pending.setBits ⟨false, true⟩ }
  | .receive c t =>
    if s.stage = .waiting then
      let begun := s.stepping.beginCommand c
      some { s with
        generator := (s.generator.tune c t).move begun.stepperMove t.stepsToStop
        stepperMove := begun.stepperMove
        currentPosition := begun.currentPosition
        stage := .running c }
    else none
  | .poll notify r =>
    match s.stage with
    | .running c =>
      if s.generator.distanceToGo = 0 ∨ notify ≠ s.pending.take then none
      else if notify.any (fun n => n.home) then
        some { s with
          pending := .empty
          generator := (s.generator.setCurrentPosition 0).moveTo 4000 0
          stage := .homing c notify }
      else
        let m := braked s.generator notify r
        some { s with
          pending := .empty
          generator := m.run r.due r.stepsToStopAfter
          currentPosition := (s.stepping.iterate (poll s.generator notify r)).currentPosition
          made := s.made + m.steps r.due
          travelled := s.travelled + m.runSpeed r.due }
    | _ => none
  | .homingRun due stepsToStop =>
    match s.stage with
    | .homing _ _ =>
      if s.generator.isRunning ∧ s.generator.Settles due stepsToStop then
        some { s with
          generator := s.generator.run due stepsToStop
          made := s.made + s.generator.steps due
          travelled := s.travelled + s.generator.runSpeed due }
      else none
    | _ => none
  | .homed =>
    match s.stage with
    | .homing c notify =>
      if s.generator.isRunning = false then
        some { s with
          record := PositionSystem.setAndSave s.record .stepperTask 1 0
          currentPosition := 0
          stage := .saving c notify }
      else none
    | _ => none
  | .proceed a =>
    (s.record.proceed StepperField.all StepperField.key a).map fun record => { s with record }
  | .saved r =>
    match s.stage with
    | .saving c _ =>
      if s.record.Idle .stepperTask then
        some { s with
          generator := s.generator.run r.due r.stepsToStopAfter
          stage := .running c
          made := s.made + s.generator.steps r.due
          travelled := s.travelled + s.generator.runSpeed r.due }
      else none
    | _ => none
  | .finish =>
    match s.stage with
    | .running c =>
      if s.generator.distanceToGo = 0 then
        let record :=
          if 1 ≤ c.type then s.record.setPramamter 1 s.currentPosition else s.record
        some { s with record, stage := .waiting }
      else none
    | _ => none
  | .parameter type value =>
    if s.record.Idle .commandHandler then
      some { s with record := PositionSystem.setAndSave s.record .commandHandler type value }
    else none

/-! ## Steps by their label -/

variable {s t : HomingSystem}

/-- A command is received by a waiting task. -/
lemma step_receive {c : StepperCommand} {x : Tuning} (h : s.step (.receive c x) = some t) :
    s.stage = .waiting ∧
      t = { s with
        generator := (s.generator.tune c x).move (s.stepping.beginCommand c).stepperMove
          x.stepsToStop
        stepperMove := (s.stepping.beginCommand c).stepperMove
        currentPosition := (s.stepping.beginCommand c).currentPosition
        stage := .running c } := by
  obtain ⟨hstage, rfl⟩ := StepRuns.of_guarded h
  exact ⟨hstage, rfl⟩

/-- An iteration is made short of the target, and takes the bits that are set. -/
lemma step_poll {notify : Option Notification} {r : Reading}
    (h : s.step (.poll notify r) = some t) :
    ∃ c, s.stage = .running c ∧ s.generator.distanceToGo ≠ 0 ∧ notify = s.pending.take ∧
      t = if notify.any (fun n => n.home) then
          { s with
            pending := .empty
            generator := (s.generator.setCurrentPosition 0).moveTo 4000 0
            stage := .homing c notify }
        else
          { s with
            pending := .empty
            generator := (braked s.generator notify r).run r.due r.stepsToStopAfter
            currentPosition := (s.stepping.iterate (poll s.generator notify r)).currentPosition
            made := s.made + (braked s.generator notify r).steps r.due
            travelled := s.travelled + (braked s.generator notify r).runSpeed r.due } := by
  unfold step at h
  cases hstage : s.stage with
  | waiting | homing c n | saving c n => simp [hstage] at h
  | running c =>
    simp only [hstage] at h
    obtain ⟨hguard, h⟩ := Option.ite_none_left_eq_some.mp h
    obtain ⟨hgo, hnotify⟩ := not_or.mp hguard
    refine ⟨c, rfl, hgo, not_not.mp hnotify, ?_⟩
    split at h
    next hhome => rw [if_pos hhome, ← Option.some.inj h]
    next hhome => rw [if_neg hhome, ← Option.some.inj h]

/-- A call of `run()` in the homing run. -/
lemma step_homingRun {due : Bool} {k : ℕ} (h : s.step (.homingRun due k) = some t) :
    (∃ c notify, s.stage = .homing c notify) ∧ s.generator.isRunning = true ∧
      s.generator.Settles due k ∧
      t = { s with
        generator := s.generator.run due k
        made := s.made + s.generator.steps due
        travelled := s.travelled + s.generator.runSpeed due } := by
  unfold step at h
  cases hstage : s.stage with
  | waiting | running c | saving c n => simp [hstage] at h
  | homing c n =>
    simp only [hstage] at h
    obtain ⟨⟨hrunning, harrive⟩, rfl⟩ := StepRuns.of_guarded h
    exact ⟨⟨c, n, rfl⟩, hrunning, harrive, rfl⟩

/-- The homing run ends where the motor is at rest. -/
lemma step_homed (h : s.step .homed = some t) :
    ∃ c notify, s.stage = .homing c notify ∧ s.generator.isRunning = false ∧
      t = { s with
        record := PositionSystem.setAndSave s.record .stepperTask 1 0
        currentPosition := 0
        stage := .saving c notify } := by
  unfold step at h
  cases hstage : s.stage with
  | waiting | running c | saving c n => simp [hstage] at h
  | homing c n =>
    simp only [hstage] at h
    obtain ⟨hrest, rfl⟩ := StepRuns.of_guarded h
    exact ⟨c, n, rfl, hrest, rfl⟩

/-- The iteration goes on when its save is over. -/
lemma step_saved {r : Reading} (h : s.step (.saved r) = some t) :
    ∃ c notify, s.stage = .saving c notify ∧ s.record.Idle .stepperTask ∧
      t = { s with
        generator := s.generator.run r.due r.stepsToStopAfter
        stage := .running c
        made := s.made + s.generator.steps r.due
        travelled := s.travelled + s.generator.runSpeed r.due } := by
  unfold step at h
  cases hstage : s.stage with
  | waiting | running c | homing c n => simp [hstage] at h
  | saving c n =>
    simp only [hstage] at h
    obtain ⟨hidle, rfl⟩ := StepRuns.of_guarded h
    exact ⟨c, n, rfl, hidle, rfl⟩

/-- The loop ends at the target. -/
lemma step_finish (h : s.step .finish = some t) :
    ∃ c, s.stage = .running c ∧ s.generator.distanceToGo = 0 ∧
      t = { s with
        record := if 1 ≤ c.type then s.record.setPramamter 1 s.currentPosition else s.record
        stage := .waiting } := by
  unfold step at h
  cases hstage : s.stage with
  | waiting | homing c n | saving c n => simp [hstage] at h
  | running c =>
    simp only [hstage] at h
    obtain ⟨hgo, rfl⟩ := StepRuns.of_guarded h
    exact ⟨c, rfl, hgo, rfl⟩

/-! ## The invariant -/

/-- The motor has come to rest at the end of the homing run, and the position is zero. -/
structure AtOrigin (m : StepGenerator) (currentPosition : ℤ) : Prop where
  motor : m.toAccelStepper = ⟨4000, 4000⟩
  rest : m.moving = false
  position : currentPosition = 0

/-- What holds in every state: the motor has speed until it is at its target; the homing run goes
from 0 to 4000; and `stepper_task` saves in its `HOME_BIT` branch only. -/
structure Consistent (s : HomingSystem) : Prop where
  sound : s.generator.Sound
  homing : ∀ c notify, s.stage = .homing c notify → s.generator.targetPos = 4000 ∧
    s.generator.Approaching ∧ (s.generator.distanceToGo = 0 → s.generator.moving = false)
  saving : ∀ c notify, s.stage = .saving c notify → AtOrigin s.generator s.currentPosition
  idle : (∀ c notify, s.stage ≠ .saving c notify) → s.record.Idle .stepperTask

/-- The invariant holds at the start. -/
lemma consistent_boot (record : Stepper) (nvs : String → ℤ) : (boot record nvs).Consistent where
  sound h := absurd rfl h
  homing _ _ h := by simp [boot] at h
  saving _ _ h := by simp [boot] at h
  idle _ := rfl

/-- The end of the homing run is the origin. -/
lemma atOrigin_of_homed {m : StepGenerator} (htarget : m.targetPos = 4000)
    (hrest : m.isRunning = false) : m.toAccelStepper = ⟨4000, 4000⟩ ∧ m.moving = false := by
  obtain ⟨hmoving, hgo⟩ := StepGenerator.isRunning_eq_false_iff.mp hrest
  obtain ⟨⟨currentPos, targetPos⟩, n, clockwise, moving⟩ := m
  obtain rfl : targetPos = 4000 := htarget
  have hcurrent : currentPos = 4000 := by
    simp only [AccelStepper.distanceToGo] at hgo
    omega
  exact ⟨by rw [hcurrent], hmoving⟩

/-- The motor at the start of the homing run. -/
lemma homingStart (m : StepGenerator) :
    let start := (m.setCurrentPosition 0).moveTo 4000 0
    start.toAccelStepper = ⟨0, 4000⟩ ∧ start.Approaching ∧ start.Sound := by
  refine ⟨?_, StepGenerator.approaching_moveTo_of_rest rfl ?_ 0, ?_⟩
  · rw [StepGenerator.toAccelStepper_moveTo, StepGenerator.toAccelStepper_setCurrentPosition]
    rfl
  · exact show (0 : ℤ) ≠ 4000 by decide
  · exact StepGenerator.Sound.moveTo (fun h => absurd rfl h) 4000 0

/-- A write of a parameter is no step of a save. -/
lemma task_setPramamter (r : ParameterSystem) (type value : ℤ) :
    (r.setPramamter type value).task = r.task := by
  unfold ParameterSystem.setPramamter
  split <;> rfl

/-- A save of one task leaves the other one idle. -/
lemma idle_setAndSave_of_ne {r : ParameterSystem} {a b : ParameterTask} (hab : b ≠ a)
    (type value : ℤ) (hidle : r.Idle b) : (PositionSystem.setAndSave r a type value).Idle b := by
  have htask : (PositionSystem.setAndSave r a type value).task b = r.task b := by
    rw [← task_setPramamter r type value]
    exact Function.update_of_ne hab _ _
  rw [ParameterSystem.Idle, htask]
  exact hidle

/-- The invariant is kept by every step. -/
lemma consistent_step (s : HomingSystem) (l : Label) (t : HomingSystem) (hs : s.Consistent)
    (h : s.step l = some t) : t.Consistent := by
  obtain ⟨hsound, hhoming, hsaving, hidle⟩ := hs
  cases l with
  | isr | stop =>
    obtain rfl := Option.some.inj h
    exact ⟨hsound, hhoming, hsaving, hidle⟩
  | receive c x =>
    obtain ⟨hstage, rfl⟩ := step_receive h
    refine ⟨(hsound.tune c x).moveTo _ _, by simp, by simp, fun _ => hidle ?_⟩
    simp [hstage]
  | poll notify r =>
    obtain ⟨c, hstage, -, -, rfl⟩ := step_poll h
    have hrecord : s.record.Idle .stepperTask := hidle (by simp [hstage])
    split
    next =>
      obtain ⟨hmotor, happroaching, hstart⟩ := homingStart s.generator
      refine ⟨hstart, fun _ _ _ => ⟨by rw [hmotor], happroaching, fun hzero => ?_⟩, by simp,
        fun _ => hrecord⟩
      rw [hmotor] at hzero
      exact absurd hzero (by decide)
    next =>
      refine ⟨?_, by simp [hstage], by simp [hstage], fun _ => hrecord⟩
      unfold braked
      split
      · exact (hsound.stop _).run _ _
      · exact hsound.run _ _
  | homingRun due k =>
    obtain ⟨⟨c, n, hstage⟩, -, harrive, rfl⟩ := step_homingRun h
    obtain ⟨htarget, happroaching, hrest⟩ := hhoming c n hstage
    refine ⟨hsound.run due k, fun _ _ _ => ⟨?_, ?_, fun hzero => ?_⟩, by simp [hstage], hidle⟩
    · rw [StepGenerator.toAccelStepper_run]
      exact htarget
    · by_cases hgo : s.generator.distanceToGo = 0
      · rw [(StepGenerator.run_of_rest (hrest hgo) due k).1]
        exact happroaching
      · exact (happroaching.run hgo due k).1
    · exact StepGenerator.moving_run_of_arrived hrest hzero (harrive hzero)
  | homed =>
    obtain ⟨c, n, hstage, hrest, rfl⟩ := step_homed h
    obtain ⟨hmotor, hmoving⟩ := atOrigin_of_homed (hhoming c n hstage).1 hrest
    exact ⟨hsound, by simp, fun _ _ _ => ⟨hmotor, hmoving, rfl⟩, by simp⟩
  | proceed a =>
    obtain ⟨record, hrecord, rfl⟩ := Option.map_eq_some_iff.mp h
    refine ⟨hsound, hhoming, hsaving, fun hstage => ?_⟩
    have hstepper := hidle hstage
    have hne : ParameterTask.stepperTask ≠ a := by
      rintro rfl
      simp [SharedRecord.proceed_of_idle hstepper] at hrecord
    rw [ParameterSystem.Idle, SharedRecord.task_proceed_of_ne hne hrecord]
    exact hstepper
  | saved r =>
    obtain ⟨c, n, hstage, hstepper, rfl⟩ := step_saved h
    exact ⟨hsound.run _ _, by simp, by simp, fun _ => hstepper⟩
  | finish =>
    obtain ⟨c, hstage, -, rfl⟩ := step_finish h
    refine ⟨hsound, by simp, by simp, fun _ => ?_⟩
    have hstepper := hidle (by simp [hstage])
    dsimp only
    split
    · rwa [ParameterSystem.Idle, task_setPramamter]
    · exact hstepper
  | parameter type value =>
    obtain ⟨-, rfl⟩ := StepRuns.of_guarded h
    exact ⟨hsound, hhoming, hsaving, fun hstage => idle_setAndSave_of_ne (by decide) _ _
      (hidle hstage)⟩

/-- An iteration that took these bits and makes no step after the homing run. -/
def homedPoll (notify : Option Notification) : Poll :=
  { quietPoll 0 abs_delta_zero with notify }

/-- The system without its parameters, and as if the homing run were one step: while it goes on, the
motor is already where it will end. -/
def motorSystem (s : HomingSystem) : MotorSystem :=
  match s.stage with
  | .waiting => ⟨s.pending, s.stepping, .waiting, s.travelled⟩
  | .running c => ⟨s.pending, s.stepping, .running c, s.travelled⟩
  | .homing c notify | .saving c notify =>
    ⟨s.pending, ⟨⟨4000, 4000⟩, s.stepperMove, 0⟩, .homing c (homedPoll notify),
      s.travelled + s.generator.distanceToGo⟩

/-- The bits are kept apart from the rest. -/
lemma motorSystem_pending (s : HomingSystem) (bits : Notification) :
    motorSystem { s with pending := s.pending.setBits bits } =
      { s.motorSystem with pending := s.motorSystem.pending.setBits bits } := by
  obtain ⟨_, _, _, _, _, stage, _, _⟩ := s
  rcases stage with _ | _ | _ | _ <;> rfl

/-- The task at the start of an iteration. -/
lemma motorSystem_of_running {c : StepperCommand} (h : s.stage = .running c) :
    s.motorSystem = ⟨s.pending, s.stepping, .running c, s.travelled⟩ := by
  simp [motorSystem, h]

/-- An iteration without `HOME_BIT` is one of the motion loop. -/
lemma iterate_poll (hs : s.generator.Sound) (hgo : s.generator.distanceToGo ≠ 0)
    {notify : Option Notification} {r : Reading}
    (hhome : ¬ notify.any (fun n => n.home) = true) :
    s.stepping.iterate (poll s.generator notify r) =
      ⟨((braked s.generator notify r).run r.due r.stepsToStopAfter).toAccelStepper, s.stepperMove,
        (s.stepping.iterate (poll s.generator notify r)).currentPosition⟩ := by
  have hhome' : (poll s.generator notify r).takesHome = false := by
    simpa [Poll.takesHome, poll] using hhome
  by_cases hstop : (poll s.generator notify r).takesStop = true
  · have hbit : notify.any (fun n => n.stop) = true := by
      rcases notify with _ | n
      · exact hstop
      · exact (Bool.and_eq_true_iff.mp hstop).2
    rw [iterate_of_takesStop hstop, StepGenerator.toAccelStepper_run]
    unfold braked
    rw [if_pos hbit, StepGenerator.toAccelStepper_stop (hs hgo)]
    simp [serveStop_eq, stepping, poll, braked, hbit]
  · have hbit : ¬ notify.any (fun n => n.stop) = true := by
      rcases notify with _ | n
      · simp
      · have hn : n.home = false := by simpa using hhome
        simpa [Poll.takesStop, poll, hn] using hstop
    rw [iterate_of_quiet hhome' (by simpa using hstop), StepGenerator.toAccelStepper_run]
    simp [stepping, poll, braked, hbit]

/-- The start of a command is the start of a command of the motor system. -/
lemma motorSystem_receive {c : StepperCommand} {x : Tuning} (h : s.step (.receive c x) = some t) :
    s.motorSystem.step (.receive c) = some t.motorSystem := by
  obtain ⟨hstage, rfl⟩ := step_receive h
  have hwaiting : s.motorSystem = ⟨s.pending, s.stepping, .waiting, s.travelled⟩ := by
    simp [motorSystem, hstage]
  have hmotor : (s.stepping.beginCommand c).motor =
      s.generator.toAccelStepper.move (s.stepping.beginCommand c).stepperMove := by
    rw [beginCommand_eq]
    split_ifs <;> rfl
  have hbegun : s.stepping.beginCommand c =
      ⟨((s.generator.tune c x).move (s.stepping.beginCommand c).stepperMove
        x.stepsToStop).toAccelStepper, (s.stepping.beginCommand c).stepperMove,
        (s.stepping.beginCommand c).currentPosition⟩ := by
    rw [StepGenerator.toAccelStepper_move, StepGenerator.toAccelStepper_tune, ← hmotor]
  rw [hwaiting, motorSystem_of_running (c := c) rfl]
  simp only [MotorSystem.step, if_true]
  rw [hbegun]
  rfl

/-- An iteration is one of the motor system, in which `HOME_BIT` runs the whole homing run. -/
lemma motorSystem_poll {notify : Option Notification} {r : Reading} (hs : s.generator.Sound)
    (h : s.step (.poll notify r) = some t) :
    ∃ p, s.motorSystem.step (.poll p) = some t.motorSystem := by
  obtain ⟨c, hstage, hgo, hnotify, rfl⟩ := step_poll h
  have hgo' : s.stepping.motor.distanceToGo ≠ 0 := hgo
  by_cases hhome : notify.any (fun n => n.home) = true
  · refine ⟨homedPoll notify, ?_⟩
    have hhome' : (homedPoll notify).takesHome = true := hhome
    rw [if_pos hhome, motorSystem_of_running hstage]
    simp only [MotorSystem.step]
    rw [if_neg (by simp [hgo', homedPoll, hnotify]), if_pos hhome']
    simp [motorSystem, serveHome, stepping, AccelStepper.distanceToGo,
      AccelStepper.runToNewPosition, AccelStepper.setCurrentPosition, AccelStepper.moveTo]
  · refine ⟨poll s.generator notify r, ?_⟩
    have hiterate := iterate_poll hs hgo (r := r) hhome
    have hhome' : ¬ (poll s.generator notify r).takesHome = true := hhome
    rw [if_neg hhome, motorSystem_of_running hstage,
      motorSystem_of_running (c := c) (by exact hstage)]
    simp only [MotorSystem.step]
    rw [if_neg (by simp [hgo', poll, hnotify]), if_neg hhome', hiterate]
    rfl

/-- The rest of the iteration after homing, in which the motor is at rest. -/
lemma motorSystem_saved {r : Reading} (hs : s.Consistent) (h : s.step (.saved r) = some t) :
    s.motorSystem.step .homed = some t.motorSystem := by
  obtain ⟨c, n, hstage, -, rfl⟩ := step_saved h
  obtain ⟨hmotor, hrest, hposition⟩ := hs.saving c n hstage
  obtain ⟨hrun, -, hspeed⟩ := StepGenerator.run_of_rest hrest r.due r.stepsToStopAfter
  simp [motorSystem, hstage, MotorSystem.step, hrun, hspeed, homedPoll, quietPoll, hmotor,
    AccelStepper.run, AccelStepper.distanceToGo, stepping, hposition]

/-- Each step is a step of the motor system, or does not concern it. -/
lemma motorSystem_step (s : HomingSystem) (l : Label) (t : HomingSystem) (hs : s.Consistent)
    (h : s.step l = some t) :
    t.motorSystem = s.motorSystem ∨ ∃ l', s.motorSystem.step l' = some t.motorSystem := by
  cases l with
  | isr =>
    obtain rfl := Option.some.inj h
    exact .inr ⟨.isr, by rw [motorSystem_pending]; rfl⟩
  | stop =>
    obtain rfl := Option.some.inj h
    exact .inr ⟨.stop, by rw [motorSystem_pending]; rfl⟩
  | receive c x => exact .inr ⟨.receive c, motorSystem_receive h⟩
  | poll notify r =>
    obtain ⟨p, hp⟩ := motorSystem_poll hs.sound h
    exact .inr ⟨.poll p, hp⟩
  | homingRun due k =>
    -- what is travelled and what is left of the homing run add up
    obtain ⟨⟨c, n, hstage⟩, -, -, rfl⟩ := step_homingRun h
    refine .inl ?_
    simp only [motorSystem, hstage, StepGenerator.toAccelStepper_run, AccelStepper.run,
      AccelStepper.distanceToGo]
    congr 1
    ring
  | homed =>
    obtain ⟨c, n, hstage, -, rfl⟩ := step_homed h
    exact .inl (by simp [motorSystem, hstage])
  | proceed a =>
    obtain ⟨record, -, rfl⟩ := Option.map_eq_some_iff.mp h
    exact .inl rfl
  | saved r => exact .inr ⟨.homed, motorSystem_saved hs h⟩
  | finish =>
    obtain ⟨c, hstage, hgo, rfl⟩ := step_finish h
    have hgo' : s.stepping.motor.distanceToGo = 0 := hgo
    refine .inr ⟨.finish, ?_⟩
    rw [motorSystem_of_running hstage]
    simp only [MotorSystem.step]
    rw [if_pos hgo']
    rfl
  | parameter type value =>
    obtain ⟨-, rfl⟩ := StepRuns.of_guarded h
    exact .inl rfl

/-- **Every run is a run of the motor system**, in which the homing run is one step. -/
theorem exists_run_motorSystem {record : Stepper} {nvs : String → ℤ} {ls : List Label}
    (h : StepRuns.run step (boot record nvs) ls = some s) :
    ∃ ls', StepRuns.run MotorSystem.step (MotorSystem.boot record.current) ls' =
      some s.motorSystem :=
  StepRuns.exists_run_of_simulation consistent_step motorSystem_step (consistent_boot record nvs) h

end HomingSystem

end Strand
