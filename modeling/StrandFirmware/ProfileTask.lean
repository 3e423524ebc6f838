import StrandFirmware.HomingStop
import StrandFirmware.DriveSettings
import StrandFirmware.ProfileRuns

/-!
# `stepper_task` with the floats of the motor library

`ProfileTask` is `HomingSystem` over the `SpeedProfile`: nothing is read from outside any more but
the clock, the bits of the notification and the order of the tasks.  Every run of it is a run of the
`HomingSystem` with the readings that the floats give (`run_toHomingSystem`), provided that homing
is asked for only under settings that stop within a short ramp.  That the homing run arrives with at
most one step needed to stop, which `HomingSystem` requires of its readings, is proved here.  The
runs are those in which every command gives `setMaxSpeed` a speed other than zero.

Without notifications the motor stands whenever the task waits, and it makes the steps of its
commands, no more and no fewer (`account_run`).
-/

namespace Strand

open Rounding Stepping

namespace SpeedProfile

/-! ## The start of a command -/

/-- The calls of `setMaxSpeed` and `setAcceleration` for a command, in the order of its type.  They
take an `int` for a `float`.  A speed of zero, by which the library divides, has no step here: no
run contains a command of type 0 or 1 with this speed. -/
def tune (platform : FloatValue → ℤ) (position : ℤ) (m : SpeedProfile) (c : StepperCommand) :
    Option SpeedProfile :=
  if c.Typed then
    if h : single (speedSetting platform position c) ≠ 0 then
      if c.type = 2 then some ((m.setAcceleration (single c.accel)).setMaxSpeed ⟨_, h⟩)
      else some ((m.setMaxSpeed ⟨_, h⟩).setAcceleration (single c.accel))
    else none
  else some m

/-- What these calls do to the step generator. -/
def tuning (platform : FloatValue → ℤ) (position : ℤ) (m : SpeedProfile) (c : StepperCommand) :
    Tuning :=
  let stepsToStop := ((m.tune platform position c).getD m).stepsToStop
  if h : single (speedSetting platform position c) ≠ 0 then
    if c.type = 2 then
      ⟨(m.setAcceleration (single c.accel)).maxSpeedChange ⟨_, h⟩,
        m.accelerationChange (single c.accel), stepsToStop⟩
    else
      ⟨m.maxSpeedChange ⟨_, h⟩, (m.setMaxSpeed ⟨_, h⟩).accelerationChange (single c.accel),
        stepsToStop⟩
  else ⟨none, none, stepsToStop⟩

variable {platform : FloatValue → ℤ} {position : ℤ} {m t : SpeedProfile} {c : StepperCommand}

/-- The calls keep the values valid. -/
lemma Valid.tune (hm : m.Valid) (h : m.tune platform position c = some t) : t.Valid := by
  unfold SpeedProfile.tune at h
  split_ifs at h
  · obtain rfl := Option.some.inj h
    exact (hm.setAcceleration _).setMaxSpeed _
  · obtain rfl := Option.some.inj h
    exact (hm.setMaxSpeed _).setAcceleration _
  · obtain rfl := Option.some.inj h
    exact hm

/-- **The start of a command** without the floats. -/
theorem toStepGenerator_tune (hm : m.Valid) (h : m.tune platform position c = some t) :
    t.toStepGenerator = m.toStepGenerator.tune c (m.tuning platform position c) := by
  unfold SpeedProfile.tune at h
  unfold tuning StepGenerator.tune
  by_cases htyped : c.Typed
  · rw [if_pos htyped] at h
    split at h
    next hspeed =>
      by_cases htwo : c.type = 2
      · rw [if_pos htwo] at h
        obtain rfl := Option.some.inj h
        rw [if_pos htwo, dif_pos hspeed, if_pos htwo,
          toStepGenerator_setMaxSpeed (hm.setAcceleration _), toStepGenerator_setAcceleration hm]
      · have hother : c.type = 1 ∨ c.type = 0 := by
          rcases htyped with h0 | h1 | h2
          · exact .inr h0
          · exact .inl h1
          · exact absurd h2 htwo
        rw [if_neg htwo] at h
        obtain rfl := Option.some.inj h
        rw [if_neg htwo, if_pos hother, dif_pos hspeed, if_neg htwo,
          toStepGenerator_setAcceleration (hm.setMaxSpeed _), toStepGenerator_setMaxSpeed hm]
    next => simp at h
  · rw [if_neg htyped] at h
    obtain rfl := Option.some.inj h
    have htwo : ¬ c.type = 2 := fun h2 => htyped (.inr (.inr h2))
    have hother : ¬ (c.type = 1 ∨ c.type = 0) := by
      rintro (h1 | h0)
      · exact htyped (.inr (.inl h1))
      · exact htyped (.inl h0)
    rw [if_neg htwo, if_neg hother]

/-- The stopping distance after the calls. -/
lemma stepsToStop_tuning (h : m.tune platform position c = some t) :
    (m.tuning platform position c).stepsToStop = t.stepsToStop := by
  unfold tuning
  dsimp only
  rw [h, Option.getD_some]
  split_ifs <;> rfl

/-- The calls change neither the counter nor the target. -/
lemma toAccelStepper_tune (hm : m.Valid) (h : m.tune platform position c = some t) :
    t.toAccelStepper = m.toAccelStepper := by
  have hview := congrArg StepGenerator.toAccelStepper (toStepGenerator_tune hm h)
  rwa [StepGenerator.toAccelStepper_tune] at hview

end SpeedProfile

/-! ## The task -/

/-- `stepper_task` with all that homing touches, over the speed profile. -/
structure ProfileTask where
  /-- The bits that are set. -/
  pending : Notification
  profile : SpeedProfile
  stepperMove : ℤ
  currentPosition : ℤ
  record : ParameterSystem
  stage : HomingStage
  /-- The steps that the motor made. -/
  made : ℕ
  /-- The same, backward ones counted negative. -/
  travelled : ℤ

namespace ProfileTask

/-- What happens next; `time` is the value of `micros()` in the call of `run()`. -/
inductive Label where
  /-- `isr` sets `HOME_BIT`. -/
  | isr
  /-- `command_handler` sets `STOP_BIT`. -/
  | stop
  /-- The task receives a command and runs up to its loop. -/
  | receive (c : StepperCommand)
  /-- An iteration of the loop, up to the homing run if it takes `HOME_BIT`. -/
  | poll (notify : Option Notification) (time : BitVec 32)
  /-- A call of `run()` in the homing run. -/
  | homingRun (time : BitVec 32)
  /-- The homing run is over: the position is set and the save begins. -/
  | homed
  /-- The next step of a save. -/
  | proceed (a : ParameterTask)
  /-- The save is over: the rest of the iteration. -/
  | saved (time : BitVec 32)
  /-- The code after the loop. -/
  | finish
  /-- `command_handler` sets a parameter and calls `saveParamters`. -/
  | parameter (type value : ℤ)
deriving DecidableEq

/-- The variables of the motion loop. -/
def stepping (s : ProfileTask) : Stepping :=
  ⟨s.profile.toAccelStepper, s.stepperMove, s.currentPosition⟩

/-- The state right after `init_strand(device_stepper.current)`. -/
def boot (record : Stepper) (nvs : String → ℤ) : ProfileTask where
  pending := .empty
  profile := .boot
  stepperMove := 0
  currentPosition := record.current
  record := .boot record nvs
  stage := .waiting
  made := 0
  travelled := 0

/-- The motor after the `STOP_BIT` branch, if the iteration takes it. -/
def braked (m : SpeedProfile) (notify : Option Notification) : SpeedProfile :=
  if notify.any (fun n => n.stop) then m.stop else m

/-- A call of `run()`, with the counts of the steps. -/
def runMotor (s : ProfileTask) (m : SpeedProfile) (time : BitVec 32) : ProfileTask :=
  { s with
    profile := m.run time
    made := s.made + m.toStepGenerator.steps (m.due time)
    travelled := s.travelled + m.toStepGenerator.runSpeed (m.due time) }

/-- What the float arithmetic yields in an iteration. -/
def reading (m : SpeedProfile) (notify : Option Notification) (time : BitVec 32) : Reading where
  stepsToStop := m.stepsToStop
  due := (braked m notify).due time
  stepsToStopAfter := ((braked m notify).makeStep time).stepsToStop

variable (platform : FloatValue → ℤ)

/-- One step. -/
def step (s : ProfileTask) : Label → Option ProfileTask
  | .isr => some { s with pending := s.pending.setBits ⟨true, false⟩ }
  | .stop => some { s with pending := s.pending.setBits ⟨false, true⟩ }
  | .receive c =>
    if s.stage = .waiting then
      let begun := s.stepping.beginCommand c
      (s.profile.tune platform s.currentPosition c).map fun m =>
        { s with
          profile := m.move begun.stepperMove
          stepperMove := begun.stepperMove
          currentPosition := begun.currentPosition
          stage := .running c }
    else none
  | .poll notify time =>
    match s.stage with
    | .running c =>
      if s.profile.distanceToGo = 0 ∨ notify ≠ s.pending.take then none
      else if notify.any (fun n => n.home) then
        some { s with
          pending := .empty
          profile := (s.profile.setCurrentPosition 0).moveTo 4000
          stage := .homing c notify }
      else
        let p := HomingSystem.poll s.profile.toStepGenerator notify (reading s.profile notify time)
        some
          (runMotor
            { s with
              pending := .empty
              currentPosition := (s.stepping.iterate p).currentPosition }
            (braked s.profile notify) time)
    | _ => none
  | .homingRun time =>
    match s.stage with
    | .homing _ _ => if s.profile.isRunning then some (s.runMotor s.profile time) else none
    | _ => none
  | .homed =>
    match s.stage with
    | .homing c notify =>
      if s.profile.isRunning = false then
        some { s with
          record := PositionSystem.setAndSave s.record .stepperTask 1 0
          currentPosition := 0
          stage := .saving c notify }
      else none
    | _ => none
  | .proceed a =>
    (s.record.proceed StepperField.all StepperField.key a).map fun record => { s with record }
  | .saved time =>
    match s.stage with
    | .saving c _ =>
      if s.record.Idle .stepperTask then
        some { s.runMotor s.profile time with stage := .running c }
      else none
    | _ => none
  | .finish =>
    match s.stage with
    | .running c =>
      if s.profile.distanceToGo = 0 then
        let record :=
          if 1 ≤ c.type then s.record.setPramamter 1 s.currentPosition else s.record
        some { s with record, stage := .waiting }
      else none
    | _ => none
  | .parameter type value =>
    if s.record.Idle .commandHandler then
      some { s with record := PositionSystem.setAndSave s.record .commandHandler type value }
    else none

/-! ## Steps by their label -/

section Cases

variable {platform} {s t : ProfileTask}

/-- A command is received by a waiting task. -/
lemma step_receive {c : StepperCommand} (h : s.step platform (.receive c) = some t) :
    s.stage = .waiting ∧ ∃ m, s.profile.tune platform s.currentPosition c = some m ∧
      t = { s with
        profile := m.move (s.stepping.beginCommand c).stepperMove
        stepperMove := (s.stepping.beginCommand c).stepperMove
        currentPosition := (s.stepping.beginCommand c).currentPosition
        stage := .running c } := by
  obtain ⟨hstage, h⟩ := Option.ite_none_right_eq_some.mp h
  obtain ⟨m, hm, rfl⟩ := Option.map_eq_some_iff.mp h
  exact ⟨hstage, m, hm, rfl⟩

/-- An iteration is made short of the target, and takes the bits that are set. -/
lemma step_poll {notify : Option Notification} {time : BitVec 32}
    (h : s.step platform (.poll notify time) = some t) :
    ∃ c, s.stage = .running c ∧ s.profile.distanceToGo ≠ 0 ∧ notify = s.pending.take ∧
      t = if notify.any (fun n => n.home) then
          { s with
            pending := .empty
            profile := (s.profile.setCurrentPosition 0).moveTo 4000
            stage := .homing c notify }
        else
          runMotor
            { s with
              pending := .empty
              currentPosition := (s.stepping.iterate (HomingSystem.poll s.profile.toStepGenerator
                notify (reading s.profile notify time))).currentPosition }
            (braked s.profile notify) time := by
  unfold step at h
  cases hstage : s.stage with
  | waiting | homing c n | saving c n => simp [hstage] at h
  | running c =>
    simp only [hstage] at h
    obtain ⟨hguard, h⟩ := Option.ite_none_left_eq_some.mp h
    obtain ⟨hgo, hnotify⟩ := not_or.mp hguard
    refine ⟨c, rfl, hgo, not_not.mp hnotify, ?_⟩
    split at h
    next hhome => rw [if_pos hhome, ← Option.some.inj h]
    next hhome => rw [if_neg hhome, ← Option.some.inj h]

/-- A call of `run()` in the homing run. -/
lemma step_homingRun {time : BitVec 32} (h : s.step platform (.homingRun time) = some t) :
    (∃ c notify, s.stage = .homing c notify) ∧ s.profile.isRunning = true ∧
      t = s.runMotor s.profile time := by
  unfold step at h
  cases hstage : s.stage with
  | waiting | running c | saving c n => simp [hstage] at h
  | homing c n =>
    simp only [hstage] at h
    obtain ⟨hrunning, rfl⟩ := StepRuns.of_guarded h
    exact ⟨⟨c, n, rfl⟩, hrunning, rfl⟩

/-- The homing run ends where the motor is at rest. -/
lemma step_homed (h : s.step platform .homed = some t) :
    ∃ c notify, s.stage = .homing c notify ∧ s.profile.isRunning = false ∧
      t = { s with
        record := PositionSystem.setAndSave s.record .stepperTask 1 0
        currentPosition := 0
        stage := .saving c notify } := by
  unfold step at h
  cases hstage : s.stage with
  | waiting | running c | saving c n => simp [hstage] at h
  | homing c n =>
    simp only [hstage] at h
    obtain ⟨hrest, rfl⟩ := StepRuns.of_guarded h
    exact ⟨c, n, rfl, hrest, rfl⟩

/-- The iteration goes on when its save is over. -/
lemma step_saved {time : BitVec 32} (h : s.step platform (.saved time) = some t) :
    ∃ c notify, s.stage = .saving c notify ∧ s.record.Idle .stepperTask ∧
      t = { s.runMotor s.profile time with stage := .running c } := by
  unfold step at h
  cases hstage : s.stage with
  | waiting | running c | homing c n => simp [hstage] at h
  | saving c n =>
    simp only [hstage] at h
    obtain ⟨hidle, rfl⟩ := StepRuns.of_guarded h
    exact ⟨c, n, rfl, hidle, rfl⟩

/-- The loop ends at the target. -/
lemma step_finish (h : s.step platform .finish = some t) :
    ∃ c, s.stage = .running c ∧ s.profile.distanceToGo = 0 ∧
      t = { s with
        record := if 1 ≤ c.type then s.record.setPramamter 1 s.currentPosition else s.record
        stage := .waiting } := by
  unfold step at h
  cases hstage : s.stage with
  | waiting | homing c n | saving c n => simp [hstage] at h
  | running c =>
    simp only [hstage] at h
    obtain ⟨hgo, rfl⟩ := StepRuns.of_guarded h
    exact ⟨c, rfl, hgo, rfl⟩

end Cases

/-! ## Without the floats -/

/-- What is left without the floats. -/
def toHomingSystem (s : ProfileTask) : HomingSystem :=
  { s with generator := s.profile.toStepGenerator }

/-- The label with what the floats yield. -/
def toLabel (s : ProfileTask) : Label → HomingSystem.Label
  | .isr => .isr
  | .stop => .stop
  | .receive c => .receive c (s.profile.tuning platform s.currentPosition c)
  | .poll notify time => .poll notify (reading s.profile notify time)
  | .homingRun time => .homingRun (s.profile.due time) (s.profile.makeStep time).stepsToStop
  | .homed => .homed
  | .proceed a => .proceed a
  | .saved time => .saved (reading s.profile none time)
  | .finish => .finish
  | .parameter type value => .parameter type value

/-- `HOME_BIT` is taken only under settings that stop within a short ramp. -/
def HomesSlowly (s : ProfileTask) : Label → Prop
  | .poll notify _ =>
    notify.any (fun n => n.home) = true → s.profile.maxSpeed ^ 2 ≤ 2000 * s.profile.acceleration
  | _ => True

instance (s : ProfileTask) (l : Label) : Decidable (s.HomesSlowly l) :=
  match l with
  | .poll _ _ => inferInstanceAs (Decidable (_ → _))
  | .isr | .stop | .receive _ | .homingRun _ | .homed | .proceed _ | .saved _ | .finish
  | .parameter _ _ => .isTrue trivial

/-- The values of the profile belong together, and the homing run is on course. -/
structure Consistent (s : ProfileTask) : Prop where
  valid : s.profile.Valid
  homing : ∀ c notify, s.stage = .homing c notify → SpeedProfile.OnCourse 2000 s.profile

variable {platform} {s t : ProfileTask}

/-- `stop` in an iteration keeps the values valid. -/
lemma valid_braked {m : SpeedProfile} (hm : m.Valid) (notify : Option Notification) :
    (braked m notify).Valid := by
  unfold braked
  split
  · exact hm.stop
  · exact hm

/-- `stop` in an iteration without the floats. -/
lemma toStepGenerator_braked {m : SpeedProfile} (hm : m.Valid) (notify : Option Notification)
    (time : BitVec 32) :
    (braked m notify).toStepGenerator =
      HomingSystem.braked m.toStepGenerator notify (reading m notify time) := by
  unfold braked HomingSystem.braked
  split
  · exact SpeedProfile.toStepGenerator_stop hm
  · rfl

/-- A call of `run()` without the floats. -/
lemma toHomingSystem_runMotor {m : SpeedProfile} (hm : m.Valid) (time : BitVec 32) :
    (s.runMotor m time).toHomingSystem =
      { s.toHomingSystem with
        generator := m.toStepGenerator.run (m.due time) (m.makeStep time).stepsToStop
        made := s.made + m.toStepGenerator.steps (m.due time)
        travelled := s.travelled + m.toStepGenerator.runSpeed (m.due time) } := by
  simp only [toHomingSystem, runMotor, SpeedProfile.toStepGenerator_run hm]

/-- The homing run starts from rest. -/
lemma homing_start {m : SpeedProfile} (hm : m.Valid) :
    (m.setCurrentPosition 0).Standing ∧
      ((m.setCurrentPosition 0).moveTo 4000).toStepGenerator =
        (m.toStepGenerator.setCurrentPosition 0).moveTo 4000 0 := by
  obtain ⟨hvalid, hrests⟩ := hm.setCurrentPosition 0
  refine ⟨⟨hvalid, hrests, sub_self 0⟩, ?_⟩
  have hzero : ({ m.setCurrentPosition 0 with targetPos := 4000 } : SpeedProfile).stepsToStop = 0 :=
    SpeedProfile.stepsToStop_of_speed_eq_zero rfl
  rw [SpeedProfile.toStepGenerator_moveTo hvalid.toTuned, hzero,
    SpeedProfile.toStepGenerator_setCurrentPosition]

/-- **Arriving.**  A motor on course that still runs settles. -/
lemma settles_of_onCourse {way : ℕ} {m : SpeedProfile} (hm : SpeedProfile.OnCourse way m)
    (hrunning : m.isRunning = true) (time : BitVec 32) :
    m.toStepGenerator.Settles (m.due time) (m.makeStep time).stepsToStop := by
  intro harrive
  have hgo : m.distance ≠ 0 := by
    intro hzero
    obtain ⟨-, hrest⟩ | ⟨hgo, -⟩ := hm.phase
    · have hd : m.distanceToGo = 0 := Int.natAbs_eq_zero.mp hzero
      simp [SpeedProfile.isRunning, hrest.speed_eq, hd] at hrunning
    · exact hgo hzero
  rw [← SpeedProfile.toStepGenerator_run hm.toValid] at harrive
  unfold SpeedProfile.run at harrive
  split at harrive
  · have htuned : (m.makeStep time).Tuned := hm.toTuned.of_settings rfl
    have hdistance := (SpeedProfile.approaching_makeStep hm.approaching hgo time).2
    have hzero : (m.makeStep time).distance = 0 := by
      rw [← SpeedProfile.distance_computeNewSpeed htuned]
      exact Int.natAbs_eq_zero.mpr harrive
    exact hm.stepsToStop_le (by omega)
  · exact absurd (Int.natAbs_eq_zero.mpr harrive) hgo

/-- **One step without the floats.** -/
theorem step_toHomingSystem {l : Label} (hs : s.Consistent) (h : s.step platform l = some t) :
    s.toHomingSystem.step (s.toLabel platform l) = some t.toHomingSystem := by
  cases l with
  | isr | stop =>
    obtain rfl := Option.some.inj h
    rfl
  | receive c =>
    obtain ⟨hstage, m, htune, rfl⟩ := step_receive h
    have hmove := SpeedProfile.toStepGenerator_move (hs.valid.tune htune).toTuned
      (s.stepping.beginCommand c).stepperMove
    rw [SpeedProfile.toStepGenerator_tune hs.valid htune,
      ← SpeedProfile.stepsToStop_tuning htune] at hmove
    simp only [toHomingSystem, hmove]
    exact if_pos hstage
  | poll notify time =>
    obtain ⟨c, hstage, hgo, hnotify, rfl⟩ := step_poll h
    have hguard : ¬ (s.profile.distanceToGo = 0 ∨ notify ≠ s.pending.take) :=
      not_or.mpr ⟨hgo, not_not.mpr hnotify⟩
    by_cases hhome : notify.any (fun n => n.home) = true
    · rw [if_pos hhome]
      simp only [HomingSystem.step, toLabel, toHomingSystem, hstage, (homing_start hs.valid).2]
      exact (if_neg hguard).trans (if_pos hhome)
    · have hvalid := valid_braked hs.valid notify
      rw [if_neg hhome, toHomingSystem_runMotor hvalid, toStepGenerator_braked hs.valid notify time]
      simp only [HomingSystem.step, toLabel, toHomingSystem, hstage]
      exact (if_neg hguard).trans (if_neg hhome)
  | homingRun time =>
    obtain ⟨⟨c, notify, hstage⟩, hrunning, rfl⟩ := step_homingRun h
    have hsettles := settles_of_onCourse (hs.homing c notify hstage) hrunning time
    rw [toHomingSystem_runMotor hs.valid]
    simp only [HomingSystem.step, toLabel, toHomingSystem, hstage]
    exact if_pos ⟨hrunning, hsettles⟩
  | homed =>
    obtain ⟨c, notify, hstage, hrest, rfl⟩ := step_homed h
    simp only [HomingSystem.step, toLabel, toHomingSystem, hstage]
    exact if_pos hrest
  | proceed a =>
    obtain ⟨record, hrecord, rfl⟩ := Option.map_eq_some_iff.mp h
    exact Option.map_eq_some_iff.mpr ⟨record, hrecord, rfl⟩
  | saved time =>
    obtain ⟨c, notify, hstage, hidle, rfl⟩ := step_saved h
    simp only [HomingSystem.step, toLabel, toHomingSystem, runMotor,
      SpeedProfile.toStepGenerator_run hs.valid, hstage]
    exact if_pos hidle
  | finish =>
    obtain ⟨c, hstage, hgo, rfl⟩ := step_finish h
    simp only [HomingSystem.step, toLabel, toHomingSystem, hstage]
    exact if_pos hgo
  | parameter type value =>
    obtain ⟨hidle, rfl⟩ := StepRuns.of_guarded h
    exact if_pos hidle

/-- A call of `run()` on course. -/
lemma run_onCourse {way : ℕ} {m : SpeedProfile} (hm : SpeedProfile.OnCourse way m)
    (hway : way ≤ 2 * rampLimit) (time : BitVec 32) : SpeedProfile.OnCourse way (m.run time) := by
  unfold SpeedProfile.run
  split
  next hdue =>
    refine (hm.makeStep hway ?_ time).1
    intro hzero
    obtain ⟨-, hrest⟩ | ⟨hgo, -⟩ := hm.phase
    · exact hm.toValid.speed_ne_zero_of_due hdue hrest.speed_eq
    · exact hgo hzero
  next => exact hm

/-- The start of the task is consistent. -/
lemma consistent_boot (record : Stepper) (nvs : String → ℤ) : (boot record nvs).Consistent where
  valid := SpeedProfile.standing_boot.1.toValid
  homing c notify h := by simp [boot] at h

/-- Every step keeps the values of the profile together. -/
lemma valid_step {l : Label} (hs : s.profile.Valid) (h : s.step platform l = some t) :
    t.profile.Valid := by
  cases l with
  | isr | stop =>
    obtain rfl := Option.some.inj h
    exact hs
  | receive c =>
    obtain ⟨-, m, htune, rfl⟩ := step_receive h
    exact (hs.tune htune).moveTo _
  | poll notify time =>
    obtain ⟨c, -, -, -, rfl⟩ := step_poll h
    split
    · exact (hs.setCurrentPosition 0).1.moveTo 4000
    · exact (valid_braked hs notify).run time
  | homingRun time =>
    obtain ⟨-, -, rfl⟩ := step_homingRun h
    exact hs.run time
  | homed =>
    obtain ⟨c, notify, -, -, rfl⟩ := step_homed h
    exact hs
  | proceed a =>
    obtain ⟨record, -, rfl⟩ := Option.map_eq_some_iff.mp h
    exact hs
  | saved time =>
    obtain ⟨c, notify, -, -, rfl⟩ := step_saved h
    exact hs.run time
  | finish =>
    obtain ⟨c, -, -, rfl⟩ := step_finish h
    exact hs
  | parameter type value =>
    obtain ⟨-, rfl⟩ := StepRuns.of_guarded h
    exact hs

/-- Every step keeps the task consistent. -/
lemma consistent_step {l : Label} (hs : s.Consistent) (hl : s.HomesSlowly l)
    (h : s.step platform l = some t) : t.Consistent := by
  refine ⟨valid_step hs.valid h, ?_⟩
  cases l with
  | isr | stop =>
    obtain rfl := Option.some.inj h
    exact hs.homing
  | receive c =>
    obtain ⟨-, m, -, rfl⟩ := step_receive h
    exact fun c notify h => by simp at h
  | poll notify time =>
    obtain ⟨c, hstage, -, -, rfl⟩ := step_poll h
    split
    next hhome =>
      obtain ⟨hstanding, -⟩ := homing_start hs.valid
      have hreach : (s.profile.setCurrentPosition 0).Reaches (4000 - 0) := .inr (hl hhome)
      exact fun _ _ _ => (hstanding.moveTo hreach).1
    next => exact fun c' notify' h => by simp [runMotor, hstage] at h
  | homingRun time =>
    obtain ⟨⟨c, notify, hstage⟩, -, rfl⟩ := step_homingRun h
    exact fun _ _ _ => run_onCourse (hs.homing c notify hstage) (by norm_num) time
  | homed =>
    obtain ⟨c, notify, -, -, rfl⟩ := step_homed h
    exact fun c notify h => by simp at h
  | proceed a =>
    obtain ⟨record, -, rfl⟩ := Option.map_eq_some_iff.mp h
    exact hs.homing
  | saved time =>
    obtain ⟨c, notify, -, -, rfl⟩ := step_saved h
    exact fun c notify h => by simp at h
  | finish =>
    obtain ⟨c, -, -, rfl⟩ := step_finish h
    exact fun c notify h => by simp at h
  | parameter type value =>
    obtain ⟨-, rfl⟩ := StepRuns.of_guarded h
    exact hs.homing

/-- The view of the start. -/
lemma toHomingSystem_boot (record : Stepper) (nvs : String → ℤ) :
    (boot record nvs).toHomingSystem = HomingSystem.boot record nvs := by
  obtain ⟨hstanding, -, -, hcounters, hclockwise⟩ := SpeedProfile.standing_boot
  simp [toHomingSystem, boot, HomingSystem.boot, SpeedProfile.toStepGenerator, hcounters,
    hclockwise, hstanding.n_eq, hstanding.speed_eq]

/-- **`stepper_task` over the float library is the `HomingSystem`.**  In a run from the start that
homes only under settings that stop within a short ramp, the floats yield readings with which the
`HomingSystem` makes the same run. -/
theorem run_toHomingSystem {record : Stepper} {nvs : String → ℤ} {ls : List Label}
    (hslow : StepRuns.Along (step platform) HomesSlowly (boot record nvs) ls)
    (hrun : StepRuns.run (step platform) (boot record nvs) ls = some t) :
    StepRuns.run HomingSystem.step (HomingSystem.boot record nvs)
      (StepRuns.outputs (step platform) (fun s l => [s.toLabel platform l]) (boot record nvs) ls) =
        some t.toHomingSystem := by
  rw [← toHomingSystem_boot]
  have hsim : ∀ (s : ProfileTask) l t, s.Consistent → s.HomesSlowly l →
      s.step platform l = some t →
        s.toHomingSystem.step (s.toLabel platform l) = some t.toHomingSystem :=
    fun _ _ _ hs _ h => step_toHomingSystem hs h
  exact StepRuns.run_outputs_of_simulation (fun _ _ _ hs hl h => consistent_step hs hl h) hsim
    (consistent_boot record nvs) hslow hrun

/-- A run that begins to home, and makes the first step. -/
theorem run_toHomingSystem_home : ∃ ls t,
    StepRuns.run HomingSystem.step (HomingSystem.boot ⟨50, 0, 2000, 0, 0⟩ fun _ => 0) ls = some t ∧
      t.made = 1 := by
  let ls : List Label := [.receive ⟨0, 2000, 1000, 1000, 2, 0, 0⟩, .isr,
    .poll (some ⟨true, false⟩) 60000#32, .homingRun 120000#32]
  have hslow : StepRuns.Along (step fun _ => 0) HomesSlowly
      (boot ⟨50, 0, 2000, 0, 0⟩ fun _ => 0) ls := by
    decide +kernel
  have heval : ((StepRuns.run (step fun _ => 0) (boot ⟨50, 0, 2000, 0, 0⟩ fun _ => 0) ls).any
      fun t => t.made = 1) = true := by
    decide +kernel
  obtain ⟨t, hrun, hmade⟩ := StepRuns.exists_run_of_any heval
  exact ⟨_, _, run_toHomingSystem hslow hrun, hmade⟩

/-! ## Runs without notifications -/

/-- The steps that a label asks the motor for. -/
def ordered (s : ProfileTask) : Label → List ℤ
  | .receive c => [(s.stepping.beginCommand c).stepperMove]
  | _ => []

variable (platform) in
/-- No bit is set, and each command is short or sets a speed that is reached on a short ramp. -/
def QuietlyReaches (s : ProfileTask) : Label → Prop
  | .isr | .stop => False
  | .receive c => ∀ m, s.profile.tune platform s.currentPosition c = some m →
      m.Reaches (s.stepping.beginCommand c).stepperMove
  | _ => True

instance (s : ProfileTask) (l : Label) : Decidable (s.QuietlyReaches platform l) :=
  match l with
  | .isr | .stop => .isFalse id
  | .receive c => inferInstanceAs (Decidable (∀ m ∈ s.profile.tune platform s.currentPosition c,
      m.Reaches (s.stepping.beginCommand c).stepperMove))
  | .poll _ _ | .homingRun _ | .homed | .proceed _ | .saved _ | .finish | .parameter _ _ =>
    .isTrue trivial

/-- Without notifications the motor stands or is on course to its target. -/
structure Quiet (s : ProfileTask) : Prop where
  pending_eq : s.pending = .empty
  phase : s.stage = .waiting ∧ s.profile.Standing ∨
    (∃ c, s.stage = .running c) ∧ SpeedProfile.OnCourse 2000 s.profile

/-- The steps made and those to go, and the same with their signs. -/
def account (s : ProfileTask) : ℕ × ℤ :=
  (s.made + s.profile.distanceToGo.natAbs, s.travelled + s.profile.distanceToGo)

/-- Both counts of some steps. -/
def counts (steps : List ℤ) : ℕ × ℤ := ((steps.map Int.natAbs).sum, steps.sum)

/-- A motor that stands goes on standing when a command sets its speed. -/
lemma standing_tune {m m' : SpeedProfile} {position : ℤ} {c : StepperCommand} (hm : m.Standing)
    (h : m.tune platform position c = some m') : m'.Standing := by
  unfold SpeedProfile.tune at h
  split_ifs at h
  · obtain rfl := Option.some.inj h
    exact ((hm.setAcceleration _).1.setMaxSpeed _).1
  · obtain rfl := Option.some.inj h
    exact ((hm.setMaxSpeed _).1.setAcceleration _).1
  · obtain rfl := Option.some.inj h
    exact hm

/-- A call of `run()` moves steps from those to go to those made. -/
lemma account_runMotor {way : ℕ} {m : SpeedProfile} (hm : SpeedProfile.OnCourse way m)
    (hgo : m.distance ≠ 0) (time : BitVec 32) :
    (s.runMotor m time).account =
      (s.made + m.distanceToGo.natAbs, s.travelled + m.distanceToGo) := by
  have hgo' : m.distanceToGo ≠ 0 := fun h => hgo (Int.natAbs_eq_zero.mpr h)
  have hview := SpeedProfile.toStepGenerator_run hm.toValid time
  obtain ⟨-, hsteps⟩ := hm.approaching.run hgo' (m.due time) (m.makeStep time).stepsToStop
  have hmoved := StepGenerator.toAccelStepper_run m.toStepGenerator (m.due time)
    (m.makeStep time).stepsToStop
  rw [← hview] at hsteps hmoved
  refine Prod.ext ?_ ?_
  · change s.made + m.toStepGenerator.steps (m.due time) +
      (m.run time).toStepGenerator.distance = s.made + m.toStepGenerator.distance
    omega
  · change s.travelled + m.toStepGenerator.runSpeed (m.due time) +
      (m.run time).toStepGenerator.toAccelStepper.distanceToGo = s.travelled + m.distanceToGo
    rw [hmoved]
    simp only [AccelStepper.run, AccelStepper.distanceToGo]
    change _ + (m.targetPos - (m.currentPos + _)) = _
    omega

/-- **One step without notifications** keeps the account. -/
theorem quiet_step {l : Label} (hs : s.Quiet) (hl : s.QuietlyReaches platform l)
    (h : s.step platform l = some t) :
    t.Quiet ∧ t.account = s.account + counts (s.ordered l) := by
  have hnone : s.pending.take = none := by
    rw [hs.pending_eq]
    rfl
  cases l with
  | isr | stop => exact absurd hl id
  | receive c =>
    obtain ⟨hstage, m, htune, rfl⟩ := step_receive h
    obtain ⟨-, hstanding⟩ | ⟨⟨c', hc'⟩, -⟩ := hs.phase
    · have hm := standing_tune hstanding htune
      obtain ⟨hcourse, -, -, hgo⟩ := hm.move (hl m htune)
      refine ⟨⟨hs.pending_eq, .inr ⟨⟨c, rfl⟩, hcourse⟩⟩, ?_⟩
      have hzero := hstanding.distanceToGo_eq
      refine Prod.ext ?_ ?_
      · change s.made + (m.move _).distanceToGo.natAbs = s.made + _ + _
        rw [hgo, hzero]
        simp [ordered, counts]
      · change s.travelled + (m.move _).distanceToGo = s.travelled + _ + _
        rw [hgo, hzero]
        simp [ordered, counts]
    · rw [hstage] at hc'
      cases hc'
  | poll notify time =>
    obtain ⟨c, hstage, hgo, hnotify, rfl⟩ := step_poll h
    rw [hnone] at hnotify
    subst hnotify
    obtain ⟨hwaiting, -⟩ | ⟨-, hcourse⟩ := hs.phase
    · rw [hstage] at hwaiting
      cases hwaiting
    · have hdistance : s.profile.distance ≠ 0 := fun h => hgo (Int.natAbs_eq_zero.mp h)
      refine ⟨⟨rfl, .inr ⟨⟨c, hstage⟩, run_onCourse hcourse (by norm_num) time⟩⟩, ?_⟩
      exact (account_runMotor hcourse hdistance time).trans (by simp [account, ordered, counts])
  | homingRun time =>
    obtain ⟨⟨c, notify, hstage⟩, -⟩ := step_homingRun h
    rcases hs.phase with ⟨hphase, -⟩ | ⟨⟨c', hphase⟩, -⟩ <;> rw [hstage] at hphase <;> cases hphase
  | homed =>
    obtain ⟨c, notify, hstage, -⟩ := step_homed h
    rcases hs.phase with ⟨hphase, -⟩ | ⟨⟨c', hphase⟩, -⟩ <;> rw [hstage] at hphase <;> cases hphase
  | proceed a =>
    obtain ⟨record, -, rfl⟩ := Option.map_eq_some_iff.mp h
    exact ⟨⟨hs.pending_eq, hs.phase⟩, by simp [account, ordered, counts]⟩
  | saved time =>
    obtain ⟨c, notify, hstage, -⟩ := step_saved h
    rcases hs.phase with ⟨hphase, -⟩ | ⟨⟨c', hphase⟩, -⟩ <;> rw [hstage] at hphase <;> cases hphase
  | finish =>
    obtain ⟨c, hstage, hgo, rfl⟩ := step_finish h
    obtain ⟨hwaiting, -⟩ | ⟨-, hcourse⟩ := hs.phase
    · rw [hstage] at hwaiting
      cases hwaiting
    · exact ⟨⟨hs.pending_eq, .inl ⟨rfl, hcourse.standing hgo⟩⟩, by simp [account, ordered, counts]⟩
  | parameter type value =>
    obtain ⟨-, rfl⟩ := StepRuns.of_guarded h
    exact ⟨⟨hs.pending_eq, hs.phase⟩, by simp [account, ordered, counts]⟩

/-- The counts of some steps and some more. -/
lemma counts_append (steps steps' : List ℤ) :
    counts (steps ++ steps') = counts steps + counts steps' := by
  simp [counts]

/-- The start of the task is quiet. -/
lemma quiet_boot (record : Stepper) (nvs : String → ℤ) : (boot record nvs).Quiet where
  pending_eq := rfl
  phase := .inl ⟨rfl, SpeedProfile.standing_boot.1⟩

/-- **Runs without notifications.**  Whenever the task waits for a command, the motor stands; and
the motor has made the steps of all commands so far, but for those that are still to go. -/
theorem account_run {record : Stepper} {nvs : String → ℤ} {ls : List Label}
    (hquiet : StepRuns.Along (step platform) (QuietlyReaches platform) (boot record nvs) ls)
    (hrun : StepRuns.run (step platform) (boot record nvs) ls = some t) :
    (t.stage = .waiting → t.profile.Standing) ∧
      t.account = counts (StepRuns.outputs (step platform) ordered (boot record nvs) ls) := by
  have hboot : (boot record nvs).Quiet ∧ (boot record nvs).account = counts [] :=
    ⟨quiet_boot record nvs,
      by simp [boot, account, counts, SpeedProfile.standing_boot.1.distanceToGo_eq]⟩
  have hsteps : ∀ s l t steps, Quiet s ∧ s.account = counts steps → s.QuietlyReaches platform l →
      s.step platform l = some t → Quiet t ∧ t.account = counts (steps ++ s.ordered l) := by
    rintro s l t steps ⟨hs, haccount⟩ hl h
    obtain ⟨ht, hstep⟩ := quiet_step hs hl h
    exact ⟨ht, by rw [hstep, haccount, counts_append]⟩
  obtain ⟨ht, haccount⟩ := StepRuns.invariant_outputs_of_run_along hsteps hboot hquiet hrun
  refine ⟨fun hwaiting => ?_, haccount⟩
  obtain ⟨-, hstanding⟩ | ⟨⟨c, hrunning⟩, -⟩ := ht.phase
  · exact hstanding
  · rw [hwaiting] at hrunning
    cases hrunning

/-- A command of two steps. -/
theorem account_run_two : ∃ t : ProfileTask, t.profile.Standing ∧ t.made = 2 := by
  let ls : List Label :=
    [.receive ⟨0, 2000, 1000, 1000, 2, 0, 0⟩, .poll none 60000#32, .poll none 120000#32, .finish]
  have hquiet : StepRuns.Along (step fun _ => 0) (QuietlyReaches fun _ => 0)
      (boot ⟨50, 0, 2000, 0, 0⟩ fun _ => 0) ls := by
    decide +kernel
  have heval : ((StepRuns.run (step fun _ => 0) (boot ⟨50, 0, 2000, 0, 0⟩ fun _ => 0) ls).any
      fun t => t.stage = .waiting ∧ t.made = 2) = true := by
    decide +kernel
  obtain ⟨t, hrun, hwaiting, hmade⟩ := StepRuns.exists_run_of_any heval
  exact ⟨t, (account_run hquiet hrun).1 hwaiting, hmade⟩

end ProfileTask

end Strand
