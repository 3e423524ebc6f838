import StrandFirmware.Drift
import StrandFirmware.StopRounding
import StrandFirmware.ParameterRace

/-!
# The two copies of the position

The logical position is kept twice: as `currentPosition` in `stepper_task` and as the field
`current` of `device_stepper`.  An absolute command changes the first at its start and copies it to
the second at its end; `HOME_BIT` sets both to zero and saves; a STOP corrects the first alone; and
`setCurrent` writes the second alone.

A run interleaves the steps of `stepper_task`, with any commands and notifications, and those of
`command_handler`.  Messages that write no parameter do nothing to either copy; they appear as the
commands and notifications that `stepper_task` receives.
-/

namespace Strand

open Rounding Stepping
open Arithmetic (float32)

/-- Where `stepper_task` stands. -/
inductive StepperStage where
  /-- It waits for the next command. -/
  | waiting
  /-- It is in the run loop. -/
  | running (c : StepperCommand)
  /-- It saves the parameters in the `HOME_BIT` branch of an iteration. -/
  | homing (c : StepperCommand) (p : Poll)
deriving DecidableEq

/-- The command that is being executed. -/
def StepperStage.command : StepperStage → Option StepperCommand
  | waiting => none
  | running c => some c
  | homing c _ => some c

/-- The two copies of the position with the tasks that write them. -/
structure PositionSystem where
  record : ParameterSystem
  stepping : Stepping
  stage : StepperStage

namespace PositionSystem

/-- One step of one of the tasks. -/
inductive Label where
  /-- `stepper_task` receives a command and runs up to its loop. -/
  | receive (c : StepperCommand)
  /-- An iteration of the loop, up to the save in the `HOME_BIT` branch if it takes that branch. -/
  | poll (p : Poll)
  /-- The rest of an iteration that took the `HOME_BIT` branch. -/
  | homed
  /-- The code after the loop. -/
  | finish
  /-- `command_handler` sets a parameter and calls `saveParamters`. -/
  | parameter (type value : ℤ)
  /-- The next step of a save. -/
  | proceed (a : ParameterTask)

/-- The state right after `init_strand(device_stepper.current)`. -/
def boot (record : Stepper) (nvs : String → ℤ) (motor : AccelStepper) : PositionSystem where
  record := .boot record nvs
  stepping := ⟨motor, 0, record.current⟩
  stage := .waiting

/-- `setPramamter(type, value)` followed by the call of `saveParamters`. -/
def setAndSave (s : ParameterSystem) (a : ParameterTask) (type value : ℤ) : ParameterSystem :=
  (s.setPramamter type value).save StepperField.all a

/-- One step. -/
def step (s : PositionSystem) : Label → Option PositionSystem
  | .receive c =>
    if s.stage = .waiting then
      some { s with stepping := float32.beginCommand s.stepping c, stage := .running c }
    else none
  | .poll p =>
    match s.stage with
    | .running c =>
      if s.stepping.motor.distanceToGo = 0 then none
      else if p.takesHome then
        some {
          record := setAndSave s.record .stepperTask 1 0
          stepping := s.stepping.serveHome
          stage := .homing c p }
      else some { s with stepping := float32.iterate s.stepping p }
    | _ => none
  | .homed =>
    match s.stage with
    | .homing c p =>
      if s.record.Idle .stepperTask then
        let stepping := { s.stepping with motor := s.stepping.motor.run p.delta }
        some { s with stepping, stage := .running c }
      else none
    | _ => none
  | .finish =>
    match s.stage with
    | .running c =>
      if s.stepping.motor.distanceToGo = 0 then
        let record :=
          if 1 ≤ c.type then s.record.setPramamter 1 s.stepping.currentPosition else s.record
        some { s with record, stage := .waiting }
      else none
    | _ => none
  | .parameter type value =>
    if s.record.Idle .commandHandler then
      some { s with record := setAndSave s.record .commandHandler type value }
    else none
  | .proceed a =>
    (s.record.proceed StepperField.all StepperField.key a).map fun record => { s with record }

/-- What a step does. -/
inductive Stepped (s : PositionSystem) : Label → PositionSystem → Prop
  /-- A command is begun. -/
  | receive {c : StepperCommand} (hstage : s.stage = .waiting) :
      Stepped s (.receive c)
        { s with stepping := float32.beginCommand s.stepping c, stage := .running c }
  /-- The `HOME_BIT` branch sets the position and starts a save. -/
  | home {c : StepperCommand} {p : Poll} (hstage : s.stage = .running c)
      (hhome : p.takesHome = true) :
      Stepped s (.poll p)
        { record := setAndSave s.record .stepperTask 1 0
          stepping := s.stepping.serveHome
          stage := .homing c p }
  /-- An iteration without it. -/
  | poll {c : StepperCommand} {p : Poll} (hstage : s.stage = .running c)
      (hhome : p.takesHome = false) :
      Stepped s (.poll p) { s with stepping := float32.iterate s.stepping p }
  /-- The save is done, and the motor goes on. -/
  | homed {c : StepperCommand} {p : Poll} (hstage : s.stage = .homing c p) :
      Stepped s .homed
        { s with
          stepping := { s.stepping with motor := s.stepping.motor.run p.delta }
          stage := .running c }
  /-- The command is done, and an absolute one is recorded. -/
  | finish {c : StepperCommand} (hstage : s.stage = .running c) :
      Stepped s .finish
        { s with
          record :=
            if 1 ≤ c.type then s.record.setPramamter 1 s.stepping.currentPosition else s.record
          stage := .waiting }
  /-- `command_handler` sets a parameter and starts a save. -/
  | parameter {type value : ℤ} :
      Stepped s (.parameter type value)
        { s with record := setAndSave s.record .commandHandler type value }
  /-- A save goes on. -/
  | proceed {a : ParameterTask} {record : ParameterSystem}
      (hrecord : s.record.proceed StepperField.all StepperField.key a = some record) :
      Stepped s (.proceed a) { s with record }

/-- **What one step can do.** -/
theorem stepped_of_step {s t : PositionSystem} {l : Label} (h : s.step l = some t) :
    Stepped s l t := by
  cases l with
  | receive c =>
    obtain ⟨hstage, rfl⟩ := StepRuns.of_guarded h
    exact .receive hstage
  | poll p =>
    unfold step at h
    cases hstage : s.stage with
    | waiting | homing c q => simp [hstage] at h
    | running c =>
      simp only [hstage] at h
      obtain ⟨-, h⟩ := Option.ite_none_left_eq_some.mp h
      split at h
      next hhome => exact Option.some.inj h ▸ .home hstage hhome
      next hhome =>
        obtain rfl := Option.some.inj h
        simpa only [hstage] using Stepped.poll hstage (by simpa using hhome)
  | homed =>
    unfold step at h
    cases hstage : s.stage with
    | waiting | running c => simp [hstage] at h
    | homing c p =>
      simp only [hstage] at h
      obtain ⟨-, rfl⟩ := StepRuns.of_guarded h
      exact .homed hstage
  | finish =>
    unfold step at h
    cases hstage : s.stage with
    | waiting | homing c p => simp [hstage] at h
    | running c =>
      simp only [hstage] at h
      obtain ⟨-, rfl⟩ := StepRuns.of_guarded h
      exact .finish hstage
  | parameter type value =>
    obtain ⟨-, rfl⟩ := StepRuns.of_guarded h
    exact .parameter
  | proceed a =>
    obtain ⟨record, hrecord, rfl⟩ := Option.map_eq_some_iff.mp h
    exact .proceed hrecord

/-- An absolute command is being executed. -/
def Absolute (s : PositionSystem) : Prop := ∃ c ∈ s.stage.command, 1 ≤ c.type

instance (s : PositionSystem) : Decidable s.Absolute :=
  inferInstanceAs (Decidable (∃ c ∈ s.stage.command, _))

/-- The STOP branch leaves `currentPosition` alone: less than about a millimetre is left to go, and
when the correction points towards zero, so little that the rounding drops it. -/
def NegligibleStop (s : Stepping) : Prop :=
  IsInt32 s.currentPosition ∧ Negligible s.currentPosition (stopSteps s)

instance (s : Stepping) : Decidable (NegligibleStop s) := inferInstanceAs (Decidable (_ ∧ _))

/-- The step does not part the two copies for good: `setCurrent` comes with the position itself, or
while an absolute command is being executed; a STOP of any other command leaves the position alone;
and no write of `current` changes the field after a save in progress has copied it. -/
def Together (s : PositionSystem) : Label → Prop
  | .parameter type value => type = 1 →
      (value = s.stepping.currentPosition ∨ s.Absolute) ∧ s.record.Unobserved .current value
  | .poll p => (p.takesHome → s.record.Unobserved .current 0) ∧
      (p.takesStop → s.Absolute ∨ NegligibleStop s.stepping)
  | .finish => s.Absolute → s.record.Unobserved .current s.stepping.currentPosition
  | .receive _ | .homed | .proceed _ => True

instance (s : PositionSystem) : (l : Label) → Decidable (s.Together l)
  | .parameter .. => inferInstanceAs (Decidable (_ → _ ∧ _))
  | .poll _ => inferInstanceAs (Decidable (_ ∧ _))
  | .finish => inferInstanceAs (Decidable (_ → _))
  | .receive _ | .homed | .proceed _ => .isTrue trivial

/-- The field `current` is as it was last set, and unless an absolute command is being executed that
is the position. -/
structure Agreeing (s : PositionSystem) : Prop where
  synced : s.record.SyncedAt StepperField.key .current
  last : ¬ s.Absolute → s.record.last .current = s.stepping.currentPosition

/-- The steps of a save, in terms of the shared record. -/
lemma run_replicate_proceed (s : PositionSystem) (a : ParameterTask) (n : ℕ) :
    StepRuns.run step s (List.replicate n (.proceed a)) =
      (StepRuns.run (SharedRecord.proceed StepperField.all StepperField.key) s.record
        (List.replicate n a)).map fun record => { s with record } := by
  rw [← List.map_replicate]
  exact StepRuns.run_component PositionSystem.record (fun s record => { s with record })
    (fun _ _ => rfl) (fun _ _ _ => rfl) (fun _ => rfl) (fun _ _ => rfl) s _

/-- **An iteration that takes the `HOME_BIT` branch**, when nothing disturbs its save, is the
iteration of the loop together with a save of the position zero. -/
theorem run_home {s : PositionSystem} {c : StepperCommand} {p : Poll}
    (hstage : s.stage = .running c) (hgo : s.stepping.motor.distanceToGo ≠ 0)
    (hhome : p.takesHome = true) :
    ∃ t, StepRuns.run step s
        (.poll p :: (List.replicate 18 (.proceed .stepperTask) ++ [.homed])) = some t ∧
      t.stage = .running c ∧ t.stepping = float32.iterate s.stepping p ∧
      t.record.deviceStepper.current = 0 := by
  let u := s.record.setPramamter 1 0
  have hpoll : s.step (.poll p) = some
      { record := u.save StepperField.all .stepperTask
        stepping := s.stepping.serveHome
        stage := .homing c p } := by
    simp [step, hstage, hgo, hhome, setAndSave, u]
  have hsave := SharedRecord.run_save StepperField.mem_all StepperField.key_injective u .stepperTask
  obtain ⟨record, hrun, hlive, hidle⟩ : ∃ record, StepRuns.run
      (SharedRecord.proceed StepperField.all StepperField.key)
        (u.save StepperField.all .stepperTask) (List.replicate 18 .stepperTask) = some record ∧
      record.live = u.live ∧ ParameterSystem.Idle record .stepperTask :=
    ⟨_, hsave, rfl, by simp [ParameterSystem.Idle]⟩
  let stepping := { s.stepping.serveHome with motor := s.stepping.serveHome.motor.run p.delta }
  refine ⟨⟨record, stepping, .running c⟩, ?_, rfl, (float32.iterate_of_takesHome hhome).symm, ?_⟩
  · rw [StepRuns.run_cons_eq_some_iff]
    refine ⟨_, hpoll, ?_⟩
    rw [StepRuns.run_append_eq_some_iff, run_replicate_proceed, hrun]
    exact ⟨_, rfl, by simp [StepRuns.run, step, hidle, stepping]⟩
  · exact congrFun hlive .current

/-- The STOP branch leaves the position alone exactly when it is negligible. -/
lemma serveStop_currentPosition_eq_iff {s : Stepping} {p : Poll} :
    (float32.serveStop s p).currentPosition = s.currentPosition ↔ NegligibleStop s := by
  rw [Arithmetic.serveStop_currentPosition]
  constructor
  · intro h
    have hposition : IsInt32 s.currentPosition := h ▸ Arithmetic.isInt32_toInt _
    exact ⟨hposition, (toInt_stopSum_eq_iff hposition _).mp h⟩
  · rintro ⟨hposition, hnegligible⟩
    exact (toInt_stopSum_eq_iff hposition _).mpr hnegligible

/-- Only a STOP changes the position in an iteration without `HOME_BIT`. -/
lemma iterate_currentPosition {s : Stepping} {p : Poll} (hhome : p.takesHome = false)
    (hstop : p.takesStop = true → NegligibleStop s) :
    (float32.iterate s p).currentPosition = s.currentPosition := by
  by_cases hp : p.takesStop = true
  · rw [float32.iterate_of_takesStop hp]
    exact (serveStop_currentPosition_eq_iff (p := p)).mpr (hstop hp)
  · rw [float32.iterate_of_quiet hhome (by simpa using hp)]

/-- A command that is not absolute does not touch the position at its start. -/
lemma beginCommand_currentPosition {s : Stepping} {c : StepperCommand} (hc : ¬ 1 ≤ c.type) :
    (float32.beginCommand s c).currentPosition = s.currentPosition := by
  have h : ¬ (c.type = 2 ∨ c.type = 1) := by omega
  unfold Arithmetic.beginCommand
  simp only [if_neg h]
  split <;> rfl

/-- `current` is the field of type 1, and of no other. -/
lemma current_mem_ofType_iff {type : ℤ} : .current ∈ StepperField.ofType type ↔ type = 1 := by
  unfold StepperField.ofType
  split_ifs <;> simp_all

/-- A write of a parameter followed by the call of `saveParamters`, which no save in progress can
undo. -/
lemma syncedAt_setAndSave {s : ParameterSystem} {a : ParameterTask} {type value : ℤ}
    (hs : s.SyncedAt StepperField.key .current)
    (hv : type = 1 → s.Unobserved .current value) :
    (setAndSave s a type value).SyncedAt StepperField.key .current :=
  (ParameterSystem.syncedAt_setPramamter hs fun h => hv (current_mem_ofType_iff.mp h)).save
    StepperField.mem_all a

/-- What `current` was last set to. -/
lemma last_current_setPramamter (s : ParameterSystem) (type value : ℤ) :
    (s.setPramamter type value).last .current = if type = 1 then value else s.last .current := by
  simp only [ParameterSystem.last_setPramamter, current_mem_ofType_iff]

/-- A step that keeps the copies together keeps them in agreement. -/
lemma agreeing_step (s : PositionSystem) (l : Label) (t : PositionSystem) (hs : s.Agreeing)
    (hl : s.Together l) (h : s.step l = some t) : t.Agreeing := by
  obtain ⟨hsynced, hlast⟩ := hs
  cases stepped_of_step h with
  | @receive c hstage =>
    refine ⟨hsynced, ?_⟩
    intro habs
    have hc : ¬ 1 ≤ c.type := fun hc => habs ⟨c, rfl, hc⟩
    have hwait : ¬ s.Absolute := by simp [Absolute, hstage, StepperStage.command]
    exact (hlast hwait).trans (beginCommand_currentPosition hc).symm
  | home _ hhome =>
    refine ⟨syncedAt_setAndSave hsynced fun _ => hl.1 hhome, ?_⟩
    intro _
    exact last_current_setPramamter s.record 1 0
  | poll hstage hhome =>
    refine ⟨hsynced, ?_⟩
    intro habs
    have habs' : ¬ s.Absolute := by simpa [Absolute, hstage] using habs
    rw [hlast habs']
    refine (iterate_currentPosition hhome fun hstop => ?_).symm
    exact (hl.2 hstop).resolve_left habs'
  | homed hstage =>
    refine ⟨hsynced, fun habs => hlast ?_⟩
    simpa [Absolute, hstage, StepperStage.command] using habs
  | @finish c hstage =>
    by_cases hc : 1 ≤ c.type
    · have habs : s.Absolute := ⟨c, by simp [hstage, StepperStage.command], hc⟩
      refine ⟨?_, fun _ => ?_⟩
      · simp only [if_pos hc]
        exact ParameterSystem.syncedAt_setPramamter hsynced fun _ => hl habs
      · simp only [if_pos hc]
        exact last_current_setPramamter s.record 1 _
    · have habs : ¬ s.Absolute := by simpa [Absolute, hstage, StepperStage.command] using hc
      simp only [if_neg hc]
      exact ⟨hsynced, fun _ => hlast habs⟩
  | @parameter type value =>
    refine ⟨syncedAt_setAndSave hsynced fun htype => (hl htype).2, ?_⟩
    intro habs
    refine (last_current_setPramamter s.record type value).trans ?_
    split
    next htype => exact (hl htype).1.resolve_right habs
    next => exact hlast habs
  | @proceed a record hrecord =>
    refine ⟨hsynced.proceed StepperField.mem_all StepperField.key_injective hrecord, ?_⟩
    intro habs
    rw [show record.last = s.record.last from SharedRecord.last_proceed hrecord]
    exact hlast habs

/-- **One logical position** in the runs whose steps all keep the two copies together: whenever
`stepper_task` waits for its next command, `device_stepper.current` is `currentPosition`. -/
theorem current_eq_currentPosition_of_along {record : Stepper} {nvs : String → ℤ}
    {motor : AccelStepper} {ls : List Label} {s : PositionSystem}
    (h : StepRuns.run step (boot record nvs motor) ls = some s)
    (htogether : StepRuns.Along step Together (boot record nvs motor) ls)
    (hwaiting : s.stage = .waiting) :
    s.record.deviceStepper.current = s.stepping.currentPosition := by
  have hboot : (boot record nvs motor).Agreeing :=
    ⟨SharedRecord.syncedAt_boot _ _ _ _, fun _ => rfl⟩
  obtain ⟨hsynced, hlast⟩ := StepRuns.invariant_of_run_along agreeing_step hboot htogether h
  have hwait : ¬ s.Absolute := by simp [Absolute, hwaiting, StepperStage.command]
  exact hsynced.live.trans (hlast hwait)

/-- The start of a device that stands at 0, with the limits 0 and 100. -/
def start : PositionSystem := boot ⟨0, 0, 100, 0, 0⟩ (fun _ => 0) ⟨0, 0⟩

/-- A move of one millimetre without notifications, and a `setMin 10` meanwhile. -/
def moveAndSetMin : List Label :=
  [.receive (translateTo 1), .parameter 2 10] ++
    List.replicate 22 (.poll (quietPoll 1 (by decide))) ++ [.finish]

/-- After the move both copies are 1. -/
theorem current_eq_currentPosition_after_move :
    ∃ s, StepRuns.run step start moveAndSetMin = some s ∧ s.stepping.currentPosition = 1 ∧
      s.record.deviceStepper.current = s.stepping.currentPosition := by
  have hrun : (StepRuns.run step start moveAndSetMin).any (fun s =>
      s.stepping.currentPosition = 1 ∧ s.stage = .waiting) = true := by
    decide +kernel
  obtain ⟨s, hs, hposition, hwaiting⟩ := StepRuns.exists_run_of_any hrun
  exact ⟨s, hs, hposition, current_eq_currentPosition_of_along hs (by decide +kernel) hwaiting⟩

/-- `setCurrent 100` is handled while the motor stands still. -/
def setCurrentAtRest : List Label :=
  .parameter 1 100 :: List.replicate 18 (.proceed .commandHandler)

/-- After a `setCurrent` at rest the two copies differ. -/
theorem not_current_eq_currentPosition_at_rest :
    ¬ ∀ (record : Stepper) (nvs : String → ℤ) (motor : AccelStepper) (ls : List Label)
      (s : PositionSystem), StepRuns.run step (boot record nvs motor) ls = some s →
        s.stage = .waiting → s.record.Idle .commandHandler →
          s.record.deviceStepper.current = s.stepping.currentPosition := by
  intro hall
  have hrun : (StepRuns.run step start setCurrentAtRest).any (fun s =>
      s.stage = .waiting ∧ s.record.Idle .commandHandler ∧
        s.record.deviceStepper.current = 100 ∧ s.stepping.currentPosition = 0) = true := by
    decide +kernel
  obtain ⟨s, hs, hwaiting, hidle, hcurrent, hposition⟩ := StepRuns.exists_run_of_any hrun
  have h := hall _ _ _ _ s hs hwaiting hidle
  rw [hcurrent, hposition] at h
  exact absurd h (by decide)

end PositionSystem

end Strand
