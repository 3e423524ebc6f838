import StrandFirmware.DriveSettings
import StrandFirmware.OnePosition

/-!
# Notifications that wait

`isr` and the command `stop` set a bit in the notification value of `stepper_task`, which stays set
until `xTaskNotifyWait` takes it.  Only the run loop calls `xTaskNotifyWait`, and it does not clear
the bits on entry, so a bit that is set while the task waits for a command, or during the blocking
homing run, is taken in the first iteration of the next command that has anything to go.

`MotorSystem` adds the notification value and an odometer to the task.  Once no bit is set, the
odometer and the distance to go add up to the same number until the loop ends (`due_step`), so what
a command travels is decided by the bits it finds (`travelled_iff`).
-/

namespace Strand

open Rounding Stepping

/-! ## The notification value -/

namespace Notification

/-- No bit is set. -/
def empty : Notification := ⟨false, false⟩

/-- `xTaskNotify(.., eSetBits)`. -/
def setBits (n bits : Notification) : Notification := ⟨n.home || bits.home, n.stop || bits.stop⟩

/-- What `xTaskNotifyWait` returns at once for this value; it takes all bits. -/
def take (n : Notification) : Option Notification := if n = empty then none else some n

end Notification

/-- `stepper_task` with its notification value and the way of the motor. -/
structure MotorSystem where
  /-- The bits that are set. -/
  pending : Notification
  stepping : Stepping
  stage : StepperStage
  /-- The steps that the motor made, backward ones counted negative. -/
  travelled : ℤ

namespace MotorSystem

/-- What happens next. -/
inductive Label where
  /-- The home switch closes: `isr` sets `HOME_BIT`. -/
  | isr
  /-- `command_handler` handles `stop` and sets `STOP_BIT`. -/
  | stop
  /-- The task receives a command and runs up to its loop. -/
  | receive (c : StepperCommand)
  /-- An iteration of the loop, up to the homing run if it takes `HOME_BIT`. -/
  | poll (p : Poll)
  /-- The homing run is over, and the iteration too. -/
  | homed
  /-- The code after the loop. -/
  | finish
deriving DecidableEq

/-- The task waits for its first command. -/
def boot (position : ℤ) : MotorSystem := ⟨.empty, ⟨⟨0, 0⟩, 0, position⟩, .waiting, 0⟩

/-- One step.  An iteration finds the bits that are set, and the homing run moves the motor by 4000
steps. -/
def step (s : MotorSystem) : Label → Option MotorSystem
  | .isr => some { s with pending := s.pending.setBits ⟨true, false⟩ }
  | .stop => some { s with pending := s.pending.setBits ⟨false, true⟩ }
  | .receive c =>
    if s.stage = .waiting then
      some { s with stepping := s.stepping.beginCommand c, stage := .running c }
    else none
  | .poll p =>
    match s.stage with
    | .running c =>
      if s.stepping.motor.distanceToGo = 0 ∨ p.notify ≠ s.pending.take then none
      else if p.takesHome then
        some {
          pending := .empty
          stepping := s.stepping.serveHome
          stage := .homing c p
          travelled := s.travelled + 4000 }
      else
        some { s with
          pending := .empty
          stepping := s.stepping.iterate p
          travelled := s.travelled + p.delta }
    | _ => none
  | .homed =>
    match s.stage with
    | .homing c p =>
      some { s with
        stepping := { s.stepping with motor := s.stepping.motor.run p.delta }
        stage := .running c
        travelled := s.travelled + p.delta }
    | _ => none
  | .finish =>
    match s.stage with
    | .running _ =>
      if s.stepping.motor.distanceToGo = 0 then some { s with stage := .waiting } else none
    | _ => none

/-- The label belongs to the run loop of one command, in which no notification is raised. -/
def InLoop : Label → Prop
  | .poll _ | .homed => True
  | .isr | .stop | .receive _ | .finish => False

instance : (l : Label) → Decidable (InLoop l)
  | .poll _ | .homed => .isTrue trivial
  | .isr | .stop | .receive _ | .finish => .isFalse id

/-- The signed stopping distance that the library finds in the first iteration, if that takes a
STOP. -/
def firstStop : List Label → Option ℤ
  | .poll p :: _ => if p.takesStop then some (p.direction * p.stepsToStop) else none
  | _ => none

/-! ## What the odometer will show -/

/-- The odometer when the target is reached, if nothing changes the target. -/
def due (s : MotorSystem) : ℤ := s.travelled + s.stepping.motor.distanceToGo

/-- An iteration without notification moves the odometer and the counter together. -/
lemma due_iterate {s : Stepping} {p : Poll} (hp : p.notify = none) :
    p.delta + (s.iterate p).motor.distanceToGo = s.motor.distanceToGo := by
  simp only [iterate_eq, hp, AccelStepper.run, AccelStepper.distanceToGo]
  ring

/-- With no bit set, the loop keeps what is due. -/
lemma due_step {s t : MotorSystem} {l : Label} (hl : InLoop l) (hs : s.pending = .empty)
    (h : s.step l = some t) : t.pending = .empty ∧ t.due = s.due := by
  cases l with
  | poll p =>
    unfold step at h
    cases hstage : s.stage with
    | waiting | homing c q => simp [hstage] at h
    | running c =>
      simp only [hstage] at h
      obtain ⟨hguard, h⟩ := Option.ite_none_left_eq_some.mp h
      obtain ⟨-, hnotify⟩ := not_or.mp hguard
      have hp : p.notify = none := by simpa [hs, Notification.take] using hnotify
      have hhome : p.takesHome = false := by simp [Poll.takesHome, hp]
      simp only [hhome, Bool.false_eq_true, if_false] at h
      obtain rfl := Option.some.inj h
      refine ⟨rfl, ?_⟩
      have hdue := due_iterate (s := s.stepping) hp
      simp only [due]
      omega
  | homed =>
    unfold step at h
    cases hstage : s.stage with
    | waiting | running c => simp [hstage] at h
    | homing c p =>
      simp only [hstage] at h
      obtain rfl := Option.some.inj h
      refine ⟨hs, ?_⟩
      simp only [due, AccelStepper.run, AccelStepper.distanceToGo]
      ring
  | isr | stop | receive c | finish => exact absurd hl id

/-- What is due after the loop, once no bit is set. -/
lemma due_run {s t : MotorSystem} {ls : List Label} (hls : ∀ l ∈ ls, InLoop l)
    (hs : s.pending = .empty) (h : StepRuns.run step s ls = some t) :
    t.pending = .empty ∧ t.due = s.due := by
  induction ls generalizing s with
  | nil =>
    obtain rfl : s = t := by simpa using h
    exact ⟨hs, rfl⟩
  | cons l ls ih =>
    obtain ⟨u, hu, hrest⟩ := StepRuns.run_cons_eq_some_iff.mp h
    obtain ⟨hl, hls⟩ := List.forall_mem_cons.mp hls
    obtain ⟨hpending, hdue⟩ := due_step hl hs hu
    obtain ⟨hend, htotal⟩ := ih hls hpending hrest
    exact ⟨hend, htotal.trans hdue⟩

/-- The STOP branch leaves the stopping distance to go, and the iteration makes one step of it. -/
lemma due_iterate_of_takesStop {s : Stepping} {p : Poll} (hp : p.takesStop = true) :
    p.delta + (s.iterate p).motor.distanceToGo = p.direction * p.stepsToStop := by
  have htarget := s.motor.stop_targetPos p
  have hcurrent : (s.motor.stop p.direction p.stepsToStop).currentPos = s.motor.currentPos := by
    unfold AccelStepper.stop
    split <;> rfl
  rw [iterate_of_takesStop hp]
  simp only [serveStop_eq, AccelStepper.run, AccelStepper.distanceToGo, htarget, hcurrent]
  ring

/-- What is due after an iteration: as before without notification, the 4000 steps of the homing run
for `HOME_BIT`, and the stopping distance for a STOP. -/
lemma due_poll {s t : MotorSystem} {p : Poll} (h : s.step (.poll p) = some t) :
    s.stepping.motor.distanceToGo ≠ 0 ∧ p.notify = s.pending.take ∧ t.pending = .empty ∧
      t.due =
        if p.takesHome then s.travelled + 4000
        else if p.takesStop then s.travelled + p.direction * p.stepsToStop
        else s.due := by
  unfold step at h
  cases hstage : s.stage with
  | waiting | homing c q => simp [hstage] at h
  | running c =>
    simp only [hstage] at h
    obtain ⟨hguard, h⟩ := Option.ite_none_left_eq_some.mp h
    obtain ⟨hgo, hnotify⟩ := not_or.mp hguard
    refine ⟨hgo, not_not.mp hnotify, ?_⟩
    split at h
    next hhome =>
      obtain rfl := Option.some.inj h
      refine ⟨rfl, ?_⟩
      simp [due, hhome, serveHome, AccelStepper.runToNewPosition, AccelStepper.setCurrentPosition,
        AccelStepper.moveTo, AccelStepper.distanceToGo]
    next hhome =>
      obtain rfl := Option.some.inj h
      refine ⟨rfl, ?_⟩
      rw [if_neg hhome]
      by_cases hstop : p.takesStop = true
      · have hdue := due_iterate_of_takesStop (s := s.stepping) hstop
        rw [if_pos hstop]
        simp only [due]
        omega
      · have hquiet := iterate_of_quiet (s := s.stepping) (by simpa using hhome)
          (by simpa using hstop)
        rw [if_neg hstop]
        simp only [due, hquiet, AccelStepper.run, AccelStepper.distanceToGo]
        ring

/-- The first step of a loop in which no notification is raised is an iteration. -/
lemma exists_poll_of_inLoop {s t : MotorSystem} {c : StepperCommand} {l : Label} (hl : InLoop l)
    (hs : s.stage = .running c) (h : s.step l = some t) : ∃ p, l = .poll p := by
  cases l with
  | poll p => exact ⟨p, rfl⟩
  | homed => simp [step, hs] at h
  | isr | stop | receive c' | finish => exact absurd hl id

/-- **What a command travels.**  A command during which no notification is raised travels exactly
the steps that were passed to `move` if it finds no bit set or has nothing to go.  If it finds a
bit, it travels the 4000 steps of the homing run or the stopping distance of the library, and these
can only be the same number by coincidence. -/
theorem travelled_iff {s t : MotorSystem} {c : StepperCommand} {ls : List Label}
    (hls : ∀ l ∈ ls, InLoop l)
    (hrun : StepRuns.run step s (.receive c :: (ls ++ [.finish])) = some t) :
    t.travelled = s.travelled + (s.stepping.beginCommand c).stepperMove ↔
      s.pending = .empty ∨ (s.stepping.beginCommand c).stepperMove = 0 ∨
        (s.pending.home = true ∧ (s.stepping.beginCommand c).stepperMove = 4000) ∨
          firstStop ls = some (s.stepping.beginCommand c).stepperMove := by
  obtain ⟨u, hu, hrest⟩ := StepRuns.run_cons_eq_some_iff.mp hrun
  obtain ⟨v, hv, hfinish⟩ := StepRuns.run_append_eq_some_iff.mp hrest
  obtain ⟨-, rfl⟩ := StepRuns.of_guarded hu
  have hmove := distanceToGo_beginCommand s.stepping c
  generalize (s.stepping.beginCommand c).stepperMove = m at *
  -- the loop ends where nothing is left to go
  have hend : t.travelled = v.due := by
    obtain ⟨w, hw, hnil⟩ := StepRuns.run_cons_eq_some_iff.mp hfinish
    obtain rfl : w = t := by simpa using hnil
    unfold step at hw
    cases hstage : v.stage with
    | waiting | homing c p => simp [hstage] at hw
    | running c =>
      simp only [hstage] at hw
      obtain ⟨hgo, rfl⟩ := StepRuns.of_guarded hw
      simp [due, hgo]
  cases ls with
  | nil =>
    -- the loop is not entered, so there is nothing to go
    obtain rfl : { s with stepping := s.stepping.beginCommand c, stage := .running c } = v := by
      simpa using hv
    have hzero : m = 0 := by
      obtain ⟨w, hw, -⟩ := StepRuns.run_cons_eq_some_iff.mp hfinish
      rw [← hmove]
      exact (Option.ite_none_right_eq_some.mp hw).1
    rw [hend, due, hmove]
    simp [hzero]
  | cons l rest =>
    obtain ⟨hl, hquiet⟩ := List.forall_mem_cons.mp hls
    obtain ⟨w, hw, hloop⟩ := StepRuns.run_cons_eq_some_iff.mp hv
    obtain ⟨p, rfl⟩ := exists_poll_of_inLoop hl rfl hw
    obtain ⟨hgo, hnotify, hempty, hdue⟩ := due_poll hw
    have hne : m ≠ 0 := hmove ▸ hgo
    rw [hend, (due_run hquiet hempty hloop).2, hdue]
    simp only [due, hmove, firstStop, Poll.takesHome, Poll.takesStop, hnotify]
    obtain ⟨⟨home, stop⟩, stepping, stage, travelled⟩ := s
    cases home <;> cases stop <;>
      simp [Notification.take, Notification.empty, hne, eq_comm]

/-! ### Runs

The moves are `stepperMove` commands as `stepper_task` receives them. -/

/-- An iteration that takes `HOME_BIT` and makes no step after the homing run. -/
def homePoll : Poll :=
  { quietPoll 0 abs_delta_zero with notify := some ⟨true, false⟩ }

/-- A move of 226 steps whose loop makes the steps `ls`. -/
def moveWith (ls : List Label) : List Label :=
  .receive (Drive.stepBy 226 1 1) :: (ls ++ [.finish])

/-- A move of 226 steps that finds no bit set. -/
theorem travelled_without_notification :
    ∃ t, StepRuns.run step (boot 0)
        (moveWith (List.replicate 226 (.poll (quietPoll 1 abs_delta_one)))) = some t ∧
      t.travelled = 226 := by
  have hrun : (StepRuns.run step (boot 0)
      (moveWith (List.replicate 226 (.poll (quietPoll 1 abs_delta_one))))).isSome = true := by
    decide +kernel
  obtain ⟨t, ht⟩ := Option.isSome_iff_exists.mp hrun
  exact ⟨t, ht, (travelled_iff (by decide +kernel) ht).mpr (.inl rfl)⟩

/-- A run to a state in which the task waits, followed by a move of 226 steps without further
notification. -/
def Travels (pre ls : List Label) (steps : ℤ) : Prop :=
  (∀ l ∈ ls, InLoop l) ∧
    (StepRuns.run step (boot 0) pre).any (fun s => s.stage = .waiting ∧
      (s.stepping.beginCommand (Drive.stepBy 226 1 1)).stepperMove = 226 ∧
      (StepRuns.run step s (moveWith ls)).any (fun t => t.travelled = s.travelled + steps) = true) =
        true

/-- A STOP that comes while the task waits makes the next command travel one step instead of 226;
and when the home switch closes a second time during the homing run, the next command travels 4000
steps instead of 226. -/
theorem not_travelled_after_notification :
    Travels [.stop] [.poll (stopPoll 1 direction_one)] 1 ∧
      Travels [.isr, .receive (Drive.stepBy 1 1 1), .poll homePoll, .isr, .homed, .finish]
        [.poll homePoll, .homed] 4000 := by
  unfold Travels
  decide +kernel

end MotorSystem

end Strand
