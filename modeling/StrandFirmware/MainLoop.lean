import StrandFirmware.QueueRegistration
import StrandFirmware.Library.Program

/-!
# The way from a queue to `command_handler`

The whole of `app_main`, from its first statement through the set-up to its two main loops, beside
the three receiver tasks.  The first of the loops, a test of the LED output, has no exit, and the
loop that dispatches the messages stands behind it.

The tasks post messages from the time they are created.  Messages have numbers, so that two
messages with the same text are told apart.  Seen from the queue set, each run of the program is a
run of `Registration` (`exists_run_registration`).
-/

namespace Strand

open Program

/-- The statements of `app_main`. -/
inductive MainAction where
  /-- From `Serial.begin` to `esp_wifi_set_ps`. -/
  | startUp
  /-- `command_init_location` and `command_init_stepper`. -/
  | loadRecords
  /-- `xTaskCreate` of a receiver task. -/
  | createTask (r : Receiver)
  | serverPing
  | initStrand
  | createStepperTask
  | deleteWatchdog
  | createWaveTask
  | createSineTask
  | createSineWaveTask
  /-- `xQueueCreateSet`. -/
  | createSet
  /-- `vTaskDelay(10)`. -/
  | delay
  /-- `xQueueAddToSet` of the queue of a receiver task. -/
  | addToSet (r : Receiver)
  /-- `ledc_timer_config` and `ledc_channel_config`. -/
  | configurePwm
  | installFade
  /-- `ledc_set_duty` and `ledc_update_duty`. -/
  | pwmOn
  /-- `vTaskDelay(LEDC_TEST_FADE_TIME / portTICK_PERIOD_MS)`. -/
  | pwmDelay
  /-- `queue_set_member = xQueueSelectFromSet(queue_set, portMAX_DELAY)`. -/
  | select
  /-- The `if` statement for the queue of a receiver task. -/
  | receive (r : Receiver)
deriving DecidableEq

/-- The statements of `app_main` in front of its loops. -/
def setUp : List MainAction :=
  [.startUp, .loadRecords, .createTask .tcp, .createTask .multicast, .createTask .broadcast,
    .serverPing, .initStrand, .createStepperTask, .deleteWatchdog, .createWaveTask,
    .createSineTask, .createSineWaveTask, .createSet, .delay, .addToSet .multicast,
    .addToSet .broadcast, .addToSet .tcp, .configurePwm, .installFade]

/-- The body of the first loop, `while(1)`. -/
def pwmLoop : List MainAction := [.pwmOn, .pwmDelay]

/-- The second loop.  With `portMAX_DELAY` the selection in its condition blocks until there is a
member to return, so the condition never ends the loop. -/
def dispatchLoop : List MainAction :=
  [.select, .receive .multicast, .receive .broadcast, .receive .tcp]

/-- A message that a receiver task has posted. -/
structure PostedMessage where
  /-- How many messages were accepted before it. -/
  number : ℕ
  receiver : Receiver
  text : Message
deriving DecidableEq

/-- `app_main` and the receiver tasks. -/
structure Firmware where
  /-- What is left of `app_main`. -/
  main : List (Statement MainAction)
  stage : Receiver → ReceiverStage
  /-- `xQueue_multicast_task`, `xQueue_broadcast_task` and `xQueue_tcp_task`; `none` is `NULL`. -/
  handle : Receiver → Option ℕ
  /-- The messages in the queue with a handle, oldest first. -/
  waiting : ℕ → List PostedMessage
  /-- The handles that were added to `queue_set`. -/
  members : List ℕ
  /-- The handles that wait in `queue_set`. -/
  events : List ℕ
  /-- `queue_set_member`. -/
  queueSetMember : Option ℕ
  /-- The handle that the next `xQueueCreate` returns. -/
  next : ℕ
  /-- The messages for which `xQueueSendToBack` returned `pdPASS`. -/
  accepted : List PostedMessage
  /-- The messages that `command_handler` was called with. -/
  handled : List PostedMessage

namespace Registration

/-- No queue is overfull, and a task has a queue once it opens its socket. -/
structure Ready (s : Registration) : Prop where
  waiting_le : ∀ r, s.waiting r ≤ r.queueLength
  created : ∀ r, s.stage r = .opening ∨ s.stage r = .receiving → (s.handle r).isSome

/-- Every step keeps the queues ready. -/
lemma ready_step (s : Registration) (l : Label) (t : Registration) (hs : s.Ready)
    (h : s.step l = some t) : t.Ready := by
  obtain ⟨hwaiting, hcreated⟩ := hs
  have hwaits : ∀ r n, n ≤ r.queueLength →
      ∀ r', Function.update s.waiting r n r' ≤ r'.queueLength := fun r n hn =>
    (Function.forall_update_iff s.waiting fun r' n => n ≤ r'.queueLength).mpr
      ⟨hn, fun r' _ => hwaiting r'⟩
  have hstages : ∀ r stage, (stage = .opening ∨ stage = .receiving → (s.handle r).isSome) →
      ∀ r', Function.update s.stage r stage r' = .opening ∨
        Function.update s.stage r stage r' = .receiving → (s.handle r').isSome := fun r _ h =>
    (Function.forall_update_iff s.stage fun r' stage =>
      stage = .opening ∨ stage = .receiving → (s.handle r').isSome).mpr
        ⟨h, fun r' _ => hcreated r'⟩
  cases l with
  | main =>
    unfold step at h
    cases hmain : s.main with
    | nil => simp [hmain] at h
    | cons m rest =>
      cases m with
      | createTask r =>
        simp only [hmain, Option.some.injEq] at h
        subst h
        exact ⟨hwaiting, hstages r .creating (by simp)⟩
      | addToSet r =>
        simp only [hmain, Option.some.injEq] at h
        subst h
        exact ⟨hwaiting, hcreated⟩
  | create r =>
    obtain ⟨-, rfl⟩ := StepRuns.of_guarded h
    refine ⟨hwaits r 0 (Nat.zero_le _), ?_⟩
    intro r' hr'
    by_cases heq : r' = r
    · subst heq
      simp
    · simp only [Function.update_of_ne heq] at hr' ⊢
      exact hcreated r' hr'
  | openSocket r succeeds =>
    obtain ⟨hstage, rfl⟩ := StepRuns.of_guarded h
    exact ⟨hwaiting, hstages r _ fun _ => hcreated r (.inl hstage)⟩
  | error r =>
    obtain ⟨hstage, rfl⟩ := StepRuns.of_guarded h
    exact ⟨hwaiting, hstages r _ fun _ => hcreated r (.inr hstage)⟩
  | message r =>
    obtain ⟨-, rfl⟩ := StepRuns.of_guarded h
    exact ⟨hwaits r _ (min_le_right _ _), hcreated⟩
  | dispatch r =>
    obtain ⟨-, rfl⟩ := StepRuns.of_guarded h
    exact ⟨hwaits r _ ((Nat.sub_le _ _).trans (hwaiting r)), hcreated⟩

/-- At the start there are no queues. -/
lemma ready_boot : boot.Ready := ⟨fun _ => Nat.zero_le _, by simp [boot]⟩

end Registration

namespace Firmware

/-- The steps of `app_main` and of the receiver tasks. -/
inductive Label where
  /-- The next statement of `app_main`. -/
  | main
  /-- `xQueueCreate`. -/
  | create (r : Receiver)
  /-- The socket is opened, or not. -/
  | openSocket (r : Receiver) (succeeds : Bool)
  /-- A message is received and `xQueueSendToBack` returns. -/
  | message (r : Receiver) (text : Message)
  /-- A network error ends the wait for messages. -/
  | error (r : Receiver)

/-- The power is switched on. -/
def boot : Firmware where
  main := setUp.map .act ++ [.forever pwmLoop, .forever dispatchLoop]
  stage _ := .notStarted
  handle _ := none
  waiting _ := []
  members := []
  events := []
  queueSetMember := none
  next := 0
  accepted := []
  handled := []

/-- `xQueueAddToSet`: fails on a queue that holds messages.  A `NULL` handle adds nothing. -/
def addToSet (s : Firmware) (r : Receiver) : List ℕ :=
  match s.handle r with
  | none => s.members
  | some h => if s.waiting h = [] then h :: s.members else s.members

/-- `xQueueSelectFromSet` with `portMAX_DELAY`: waits for a handle. -/
def select (s : Firmware) : Option Firmware :=
  match s.events with
  | [] => none
  | h :: events => some { s with events, queueSetMember := some h }

/-- `xQueueReceive` from the selected queue and `command_handler`, if it is the queue of the task
and holds a message. -/
def receive (s : Firmware) (r : Receiver) : Firmware :=
  match s.handle r with
  | none => s
  | some h =>
    if s.queueSetMember = some h then
      match s.waiting h with
      | [] => s
      | p :: ps =>
        { s with waiting := Function.update s.waiting h ps, handled := s.handled ++ [p] }
    else s

/-- `xQueueSendToBack` from the task: a full queue refuses the message; otherwise the handle goes
to the set, if the queue is a member and the set has a free slot. -/
def post (s : Firmware) (r : Receiver) (text : Message) : Firmware :=
  match s.handle r with
  | none => s
  | some h =>
    if (s.waiting h).length < r.queueLength then
      let p : PostedMessage := ⟨s.accepted.length, r, text⟩
      { s with
        waiting := Function.update s.waiting h (s.waiting h ++ [p])
        events :=
          if h ∈ s.members ∧ s.events.length < QUEUE_SET_LENGTH then s.events ++ [h] else s.events
        accepted := s.accepted ++ [p] }
    else s

/-- A statement of `app_main`; `none` while it blocks. -/
def exec (s : Firmware) : MainAction → Option Firmware
  | .createTask r => some { s with stage := Function.update s.stage r .creating }
  | .createSet => some { s with members := [], events := [] }
  | .addToSet r => some { s with members := s.addToSet r }
  | .select => s.select
  | .receive r => some (s.receive r)
  | .startUp | .loadRecords | .serverPing | .initStrand | .createStepperTask | .deleteWatchdog
  | .createWaveTask | .createSineTask | .createSineWaveTask | .delay | .configurePwm
  | .installFade | .pwmOn | .pwmDelay => some s

/-- One step. -/
def step (s : Firmware) : Label → Option Firmware
  | .main => (Program.next s.main).bind fun (a, main) => (s.exec a).map ({ · with main })
  | .create r =>
    if s.stage r = .creating then
      some { s with
        stage := Function.update s.stage r .opening
        handle := Function.update s.handle r (some s.next)
        waiting := Function.update s.waiting s.next []
        next := s.next + 1 }
    else none
  | .openSocket r succeeds =>
    if s.stage r = .opening then
      some { s with
        stage := Function.update s.stage r (if succeeds then .receiving else r.afterOpenFailure) }
    else none
  | .message r text => if s.stage r = .receiving then some (s.post r text) else none
  | .error r =>
    if s.stage r = .receiving then
      some { s with stage := Function.update s.stage r r.afterError }
    else none

/-- No message arrives and nothing fails. -/
def Label.Quiet : Label → Prop
  | .main | .create _ | .openSocket _ true => True
  | .openSocket _ false | .message _ _ | .error _ => False

/-- Some run from here, without new messages and failures, calls `command_handler` with the
message. -/
def CanBeHandled (s : Firmware) (p : PostedMessage) : Prop :=
  ∃ ls t, (∀ l ∈ ls, Label.Quiet l) ∧ StepRuns.run step s ls = some t ∧ p ∈ t.handled

/-- `app_main` has not left the first loop, and `command_handler` was not called. -/
structure Stuck (s : Firmware) : Prop where
  confined : Confined setUp pwmLoop [.forever dispatchLoop] s.main
  handled_eq_nil : s.handled = []

/-- The statements of `app_main` that concern the receivers. -/
def mainStep : Statement MainAction → Option MainStep
  | .act (.createTask r) => some (.createTask r)
  | .act (.addToSet r) => some (.addToSet r)
  | .act _ | .forever _ => none

/-- What a statement of the set-up or of the first loop can do. -/
lemma exec_cases {s t : Firmware} {a : MainAction} (h : s.exec a = some t)
    (ha : a ∈ setUp ∨ a ∈ pwmLoop) :
    (∃ r, a = .createTask r ∧ t = { s with stage := Function.update s.stage r .creating }) ∨
      (∃ r, a = .addToSet r ∧ t = { s with members := s.addToSet r }) ∨
      (a = .createSet ∧ t = { s with members := [], events := [] }) ∨
      (mainStep (.act a) = none ∧ a ≠ .createSet ∧ t = s) := by
  cases a with
  | createTask r => exact .inl ⟨r, rfl, (Option.some.inj h).symm⟩
  | addToSet r => exact .inr (.inl ⟨r, rfl, (Option.some.inj h).symm⟩)
  | createSet => exact .inr (.inr (.inl ⟨rfl, (Option.some.inj h).symm⟩))
  | select => exact absurd ha (by decide)
  | receive r => exact absurd ha (by cases r <;> decide)
  | _ => exact .inr (.inr (.inr ⟨rfl, by simp, (Option.some.inj h).symm⟩))

/-- A post leaves `app_main` and the calls of `command_handler` alone. -/
lemma post_main_handled (s : Firmware) (r : Receiver) (text : Message) :
    (s.post r text).main = s.main ∧ (s.post r text).handled = s.handled := by
  unfold post
  split
  · exact ⟨rfl, rfl⟩
  · split <;> exact ⟨rfl, rfl⟩

/-- The next statement of `app_main` is one of the set-up or of the first loop. -/
lemma mem_of_next {k k' : List (Statement MainAction)} {a : MainAction}
    (hk : Confined setUp pwmLoop [.forever dispatchLoop] k) (h : Program.next k = some (a, k')) :
    a ∈ setUp ∨ a ∈ pwmLoop := by
  obtain ⟨as, has, -, -⟩ := confined_next hk h
  exact has.imp (fun h => h.subset List.mem_cons_self) fun h => h.subset List.mem_cons_self

/-- No step leads out of the first loop. -/
lemma stuck_step (s : Firmware) (l : Label) (t : Firmware) (hs : s.Stuck)
    (h : s.step l = some t) : t.Stuck := by
  cases l with
  | main =>
    obtain ⟨⟨a, main⟩, hnext, h⟩ := Option.bind_eq_some_iff.mp h
    obtain ⟨u, hexec, rfl⟩ := Option.map_eq_some_iff.mp h
    obtain ⟨as, has, rfl, -⟩ := confined_next hs.confined hnext
    have hhandled : u.handled = s.handled := by
      rcases exec_cases hexec (mem_of_next hs.confined hnext) with
        ⟨r, -, rfl⟩ | ⟨r, -, rfl⟩ | ⟨-, rfl⟩ | ⟨-, -, rfl⟩ <;> rfl
    exact ⟨confined_of_suffix has, hhandled.trans hs.handled_eq_nil⟩
  | message r text =>
    obtain ⟨-, rfl⟩ := StepRuns.of_guarded h
    obtain ⟨hmain, hhandled⟩ := s.post_main_handled r text
    exact ⟨hmain ▸ hs.confined, hhandled.trans hs.handled_eq_nil⟩
  | create r | openSocket r succeeds | error r =>
    obtain ⟨-, rfl⟩ := StepRuns.of_guarded h
    exact ⟨hs.confined, hs.handled_eq_nil⟩

/-- `app_main` starts in front of the first loop. -/
lemma stuck_boot : boot.Stuck := ⟨confined_start, rfl⟩

/-- **No accepted message is ever handled**: in every state that the program can reach, each
accepted message is unhandled, and no continuation handles it. -/
theorem not_canBeHandled {ls : List Label} {s : Firmware}
    (h : StepRuns.run step boot ls = some s) :
    ∀ p ∈ s.accepted, p ∉ s.handled ∧ ¬ s.CanBeHandled p := by
  have hs := StepRuns.invariant_of_run stuck_step stuck_boot h
  intro p _
  constructor
  · rw [hs.handled_eq_nil]
    exact List.not_mem_nil
  · rintro ⟨ls', t, -, hrun, hp⟩
    have ht := StepRuns.invariant_of_run stuck_step hs hrun
    rw [ht.handled_eq_nil] at hp
    exact List.not_mem_nil hp

/-- A start in which the multicast task is ready and a datagram arrives. -/
def firstDatagram : List Label :=
  [.main, .main, .main, .main, .create .multicast, .openSocket .multicast true,
    .message .multicast (.ofText "1 stop")]

/-- The message of `firstDatagram` is accepted. -/
lemma accepted_firstDatagram : ∃ s, StepRuns.run step boot firstDatagram = some s ∧
    s.accepted = [⟨0, .multicast, .ofText "1 stop"⟩] := ⟨_, rfl, rfl⟩

/-- The message "1 stop" waits in the queue of `multicast_task` and is never handled. -/
theorem not_canBeHandled_firstDatagram : ∃ s, StepRuns.run step boot firstDatagram = some s ∧
    (⟨0, .multicast, .ofText "1 stop"⟩ : PostedMessage) ∈ s.accepted ∧
    ¬ s.CanBeHandled ⟨0, .multicast, .ofText "1 stop"⟩ := by
  obtain ⟨s, hs, haccepted⟩ := accepted_firstDatagram
  have hmem : (⟨0, .multicast, .ofText "1 stop"⟩ : PostedMessage) ∈ s.accepted := by
    simp [haccepted]
  exact ⟨s, hs, hmem, (not_canBeHandled hs _ hmem).2⟩

/-- Not every accepted message can still be handled. -/
theorem not_forall_canBeHandled : ¬ ∀ (ls : List Label) (s : Firmware),
    StepRuns.run step boot ls = some s → ∀ p ∈ s.accepted, p ∉ s.handled → s.CanBeHandled p := by
  intro hall
  obtain ⟨s, hs, haccepted⟩ := accepted_firstDatagram
  have hstuck := StepRuns.invariant_of_run stuck_step stuck_boot hs
  have hmem : (⟨0, .multicast, .ofText "1 stop"⟩ : PostedMessage) ∈ s.accepted := by
    simp [haccepted]
  obtain ⟨ls, t, -, hrun, hp⟩ := hall firstDatagram s hs _ hmem (by simp [hstuck.handled_eq_nil])
  rw [(StepRuns.invariant_of_run stuck_step hstuck hrun).handled_eq_nil] at hp
  exact List.not_mem_nil hp

/-! ## The set-up of the queue set

Seen from the queue set, a run of the whole program is a run of `Registration`. -/

/-- What the queue set depends on. -/
def registration (s : Firmware) : Registration where
  main := s.main.filterMap mainStep
  stage := s.stage
  handle := s.handle
  waiting r := ((s.handle r).map fun h => (s.waiting h).length).getD 0
  members := s.members
  next := s.next

/-- What holds in every state: besides the invariants of `Registration`, the set is empty up to its
creation. -/
structure Orderly (s : Firmware) : Prop where
  stuck : s.Stuck
  consistent : s.registration.Consistent
  ready : s.registration.Ready
  members_eq_nil : .act .createSet ∈ s.main → s.members = []

/-- The next statement of `app_main` goes away from what is left. -/
lemma filterMap_mainStep_next {k k' : List (Statement MainAction)} {a : MainAction}
    (hk : Confined setUp pwmLoop [.forever dispatchLoop] k)
    (h : Program.next k = some (a, k')) :
    k.filterMap mainStep = (mainStep (.act a)).toList ++ k'.filterMap mainStep := by
  obtain ⟨as, has, rfl, rfl | ⟨hbody, rfl⟩⟩ := confined_next hk h
  · cases ha : mainStep (.act a) <;> simp [List.filterMap_cons, ha]
  · obtain ⟨rfl, rfl⟩ : a = .pwmOn ∧ as = [.pwmDelay] := List.cons.inj hbody
    rfl

/-- A statement of the set-up is left until it is executed. -/
lemma act_mem_of_next {k k' : List (Statement MainAction)} {a : MainAction}
    (hk : Confined setUp pwmLoop [.forever dispatchLoop] k) (h : Program.next k = some (a, k'))
    (ha : a ∉ pwmLoop) : .act a ∈ k := by
  obtain ⟨as, -, -, rfl | ⟨hbody, -⟩⟩ := confined_next hk h
  · exact List.mem_cons_self
  · exact absurd (hbody ▸ List.mem_cons_self) ha

/-- Both models agree on `xQueueAddToSet`. -/
lemma registration_addToSet (s : Firmware) (r : Receiver) :
    s.registration.addToSet r = s.addToSet r := by
  unfold Registration.addToSet addToSet
  cases hr : s.handle r with
  | none => simp [registration, hr]
  | some h => simp [registration, hr, List.length_eq_zero_iff]

/-- Seen from the queue set, a post adds a message to the queue of the task if there is room. -/
lemma registration_post {s : Firmware} (hs : s.Orderly) {r : Receiver}
    (hstage : s.stage r = .receiving) (text : Message) :
    (s.post r text).registration = { s.registration with
      waiting := Function.update s.registration.waiting r
        (min (s.registration.waiting r + 1) r.queueLength) } := by
  obtain ⟨h, hr⟩ := Option.isSome_iff_exists.mp (hs.ready.created r (.inr hstage))
  replace hr : s.handle r = some h := hr
  have hwaiting : s.registration.waiting r = (s.waiting h).length := by simp [registration, hr]
  have hle := hs.ready.waiting_le r
  by_cases hroom : (s.waiting h).length < r.queueLength
  · rw [hwaiting]
    simp only [post, hr, if_pos hroom, registration, Registration.mk.injEq, true_and, and_true]
    funext r'
    by_cases heq : r' = r
    · subst heq
      simp [hr]
      omega
    · rw [Function.update_of_ne heq]
      cases hr' : s.handle r' with
      | none => rfl
      | some h' =>
        have hne : h' ≠ h := by
          rintro rfl
          exact heq (hs.consistent.handle_injective r' r h' hr' hr)
        simp [Function.update_of_ne hne]
  · have hfull : min ((s.waiting h).length + 1) r.queueLength = (s.waiting h).length := by omega
    rw [hwaiting, hfull, ← hwaiting, Function.update_eq_self]
    simp only [post, hr, if_neg hroom]

/-- Seen from the queue set, each step is a step of `Registration` or changes nothing. -/
lemma registration_step (s : Firmware) (l : Label) (t : Firmware) (hs : s.Orderly)
    (h : s.step l = some t) :
    t.registration = s.registration ∨ ∃ l', s.registration.step l' = some t.registration := by
  cases l with
  | main =>
    obtain ⟨⟨a, main⟩, hnext, h⟩ := Option.bind_eq_some_iff.mp h
    obtain ⟨u, hexec, rfl⟩ := Option.map_eq_some_iff.mp h
    have hmain : s.registration.main =
        (mainStep (.act a)).toList ++ main.filterMap mainStep :=
      filterMap_mainStep_next hs.stuck.confined hnext
    rcases exec_cases hexec (mem_of_next hs.stuck.confined hnext) with
      ⟨r, rfl, rfl⟩ | ⟨r, rfl, rfl⟩ | ⟨rfl, rfl⟩ | ⟨hnone, -, rfl⟩
    · refine .inr ⟨.main, ?_⟩
      simp only [Registration.step, hmain, mainStep, Option.toList_some, List.singleton_append]
      rfl
    · refine .inr ⟨.main, ?_⟩
      simp only [Registration.step, hmain, mainStep, Option.toList_some, List.singleton_append,
        registration_addToSet]
      rfl
    · refine .inl ?_
      have hempty := hs.members_eq_nil (act_mem_of_next hs.stuck.confined hnext (by decide))
      simp only [mainStep, Option.toList_none, List.nil_append] at hmain
      simp only [registration] at hmain ⊢
      rw [hmain, hempty]
    · refine .inl ?_
      simp only [hnone, Option.toList_none, List.nil_append] at hmain
      simp only [registration] at hmain ⊢
      rw [hmain]
  | create r =>
    obtain ⟨hstage, rfl⟩ := StepRuns.of_guarded h
    refine .inr ⟨.create r, (if_pos hstage).trans (congrArg some ?_)⟩
    simp only [registration, Registration.mk.injEq, true_and, and_true]
    funext r'
    by_cases heq : r' = r
    · subst heq
      simp
    · rw [Function.update_of_ne heq, Function.update_of_ne heq]
      cases hr' : s.handle r' with
      | none => rfl
      | some h' =>
        have hlt : h' < s.next := hs.consistent.handle_lt r' h' hr'
        simp [Function.update_of_ne hlt.ne]
  | openSocket r succeeds =>
    obtain ⟨hstage, rfl⟩ := StepRuns.of_guarded h
    exact .inr ⟨.openSocket r succeeds, if_pos hstage⟩
  | message r text =>
    obtain ⟨hstage, rfl⟩ := StepRuns.of_guarded h
    exact .inr ⟨.message r, by rw [registration_post hs hstage]; exact if_pos hstage⟩
  | error r =>
    obtain ⟨hstage, rfl⟩ := StepRuns.of_guarded h
    exact .inr ⟨.error r, if_pos hstage⟩

/-- Once a queue is added to the set, the set is not created any more. -/
lemma createSet_not_mem {r : Receiver} {as : List MainAction}
    (h : .addToSet r :: as <:+ setUp ∨ .addToSet r :: as <:+ pwmLoop) : .createSet ∉ as := by
  have hall : ∀ bs ∈ setUp.tails ++ pwmLoop.tails, ∀ r, bs.head? = some (.addToSet r) →
      .createSet ∉ bs.tail := by
    decide
  exact hall (.addToSet r :: as) (by simpa using h) r rfl

/-- While the set has still to be created, no queue is added to it. -/
lemma createSet_mem_of_next {k k' : List (Statement MainAction)} {a : MainAction}
    (hk : Confined setUp pwmLoop [.forever dispatchLoop] k) (h : Program.next k = some (a, k'))
    (hmem : .act .createSet ∈ k') : .act .createSet ∈ k ∧ ∀ r, a ≠ .addToSet r := by
  obtain ⟨as, has, rfl, hleft⟩ := confined_next hk h
  have hmem' : .createSet ∈ as := by simpa using hmem
  constructor
  · rcases hleft with rfl | ⟨hbody, -⟩
    · exact List.mem_cons_of_mem _ hmem
    · have : .createSet ∈ pwmLoop := hbody ▸ List.mem_cons_of_mem a hmem'
      exact absurd this (by decide)
  · rintro r rfl
    exact createSet_not_mem has hmem'

/-- Every step leaves the set empty up to its creation. -/
lemma members_eq_nil_step {s t : Firmware} {l : Label} (hs : s.Orderly) (h : s.step l = some t)
    (hmem : .act .createSet ∈ t.main) : t.members = [] := by
  cases l with
  | main =>
    obtain ⟨⟨a, main⟩, hnext, h⟩ := Option.bind_eq_some_iff.mp h
    obtain ⟨u, hexec, rfl⟩ := Option.map_eq_some_iff.mp h
    obtain ⟨hbefore, hadd⟩ := createSet_mem_of_next hs.stuck.confined hnext hmem
    have hempty := hs.members_eq_nil hbefore
    rcases exec_cases hexec (mem_of_next hs.stuck.confined hnext) with
      ⟨r, -, rfl⟩ | ⟨r, rfl, -⟩ | ⟨-, rfl⟩ | ⟨-, -, rfl⟩
    · exact hempty
    · exact absurd rfl (hadd r)
    · rfl
    · exact hempty
  | message r text =>
    obtain ⟨hstage, rfl⟩ := StepRuns.of_guarded h
    have hmembers : (s.post r text).members = s.members :=
      congrArg Registration.members (registration_post hs hstage text)
    rw [hmembers]
    exact hs.members_eq_nil ((s.post_main_handled r text).1 ▸ hmem)
  | create r | openSocket r succeeds | error r =>
    obtain ⟨-, rfl⟩ := StepRuns.of_guarded h
    exact hs.members_eq_nil hmem

/-- Every step keeps the state orderly. -/
lemma orderly_step (s : Firmware) (l : Label) (t : Firmware) (hs : s.Orderly)
    (h : s.step l = some t) : t.Orderly := by
  have hstuck := stuck_step s l t hs.stuck h
  have hmembers := members_eq_nil_step hs h
  rcases registration_step s l t hs h with heq | ⟨l', hl'⟩
  · exact ⟨hstuck, heq ▸ hs.consistent, heq ▸ hs.ready, hmembers⟩
  · exact ⟨hstuck, Registration.consistent_step _ l' _ hs.consistent hl',
      Registration.ready_step _ l' _ hs.ready hl', hmembers⟩

/-- At the start there are no queues. -/
lemma orderly_boot : boot.Orderly where
  stuck := stuck_boot
  consistent := Registration.consistent_boot
  ready := Registration.ready_boot
  members_eq_nil _ := rfl

/-- **Every run of the program is a run of the set-up**: what the queue set depends on goes through
states of `Registration`. -/
theorem exists_run_registration {ls : List Label} {s : Firmware}
    (h : StepRuns.run step boot ls = some s) :
    ∃ ls', StepRuns.run Registration.step Registration.boot ls' = some s.registration :=
  StepRuns.exists_run_of_simulation orderly_step registration_step orderly_boot h

end Firmware

end Strand
