import StrandFirmware.EventDispatch

/-!
# The set-up of the queue set

`app_main` starts the receiver tasks and, after the other tasks, adds the queue of each of them to
`queue_set`, once and without looking at the result.  The tasks create their queues themselves, at
the top of their loops: `multicast_task` and `broadcast_task` create a new one, and overwrite the
handle, whenever a network error sends them back there.  `tcp_task` creates its queue before its
loop.

A run interleaves the statements of `app_main` with the steps of the three tasks, with any order of
messages and errors.  Handles are numbers; `xQueueCreate` succeeds and returns a new one.
-/

namespace Strand

/-- The statements of `app_main` that concern the receivers. -/
inductive MainStep where
  /-- `xTaskCreate` of the task. -/
  | createTask (r : Receiver)
  /-- `xQueueAddToSet` of the queue of the task. -/
  | addToSet (r : Receiver)
deriving DecidableEq

/-- The statements of `app_main` in order. -/
def appMain : List MainStep :=
  [.createTask .tcp, .createTask .multicast, .createTask .broadcast,
    .addToSet .multicast, .addToSet .broadcast, .addToSet .tcp]

/-- Where a receiver task stands. -/
inductive ReceiverStage where
  /-- The task was not created yet. -/
  | notStarted
  /-- The next statement is `xQueueCreate`. -/
  | creating
  /-- The queue is created and the socket is not open yet. -/
  | opening
  /-- The loop that waits for messages. -/
  | receiving
  /-- The task function has returned. -/
  | ended
deriving DecidableEq

namespace Receiver

/-- Where a task goes when its socket cannot be opened: `multicast_task` starts its loop again,
`broadcast_task` leaves its loop, and `tcp_task` does not look at the failure. -/
def afterOpenFailure : Receiver → ReceiverStage
  | multicast => .creating
  | broadcast => .ended
  | tcp => .receiving

/-- Where a task goes on a network error while it waits for messages. -/
def afterError : Receiver → ReceiverStage
  | multicast => .creating
  | broadcast => .creating
  | tcp => .receiving

end Receiver

/-- The handles of the receivers' queues and the members of `queue_set`. -/
structure Registration where
  /-- The statements that `app_main` has still to execute. -/
  main : List MainStep
  stage : Receiver → ReceiverStage
  /-- `xQueue_multicast_task`, `xQueue_broadcast_task` and `xQueue_tcp_task`; `none` is `NULL`. -/
  handle : Receiver → Option ℕ
  /-- The number of messages in the queue with the current handle. -/
  waiting : Receiver → ℕ
  /-- The handles that were added to `queue_set`. -/
  members : List ℕ
  /-- The handle that the next `xQueueCreate` returns. -/
  next : ℕ

namespace Registration

/-- The steps of `app_main` and the receivers. -/
inductive Label where
  /-- The next statement of `app_main`. -/
  | main
  /-- `xQueueCreate`. -/
  | create (r : Receiver)
  /-- The socket is opened, or not. -/
  | openSocket (r : Receiver) (succeeds : Bool)
  /-- A message is received and posted. -/
  | message (r : Receiver)
  /-- A network error ends the wait for messages. -/
  | error (r : Receiver)
  /-- The dispatch loop receives a message from a member of the set. -/
  | dispatch (r : Receiver)
deriving DecidableEq

/-- The state in which `app_main` starts. -/
def boot : Registration where
  main := appMain
  stage _ := .notStarted
  handle _ := none
  waiting _ := 0
  members := []
  next := 0

/-- `xQueueAddToSet`: fails on a queue that holds messages.  A `NULL` handle adds nothing. -/
def addToSet (s : Registration) (r : Receiver) : List ℕ :=
  match s.handle r with
  | none => s.members
  | some h => if s.waiting r = 0 then h :: s.members else s.members

/-- The queue of the task is a member of the set. -/
def Listening (s : Registration) (r : Receiver) : Prop := ∃ h, s.handle r = some h ∧ h ∈ s.members

/-- One step. -/
def step (s : Registration) : Label → Option Registration
  | .main =>
    match s.main with
    | [] => none
    | .createTask r :: rest =>
      some { s with main := rest, stage := Function.update s.stage r .creating }
    | .addToSet r :: rest => some { s with main := rest, members := s.addToSet r }
  | .create r =>
    if s.stage r = .creating then
      some { s with
        stage := Function.update s.stage r .opening
        handle := Function.update s.handle r (some s.next)
        waiting := Function.update s.waiting r 0
        next := s.next + 1 }
    else none
  | .openSocket r succeeds =>
    if s.stage r = .opening then
      some { s with
        stage := Function.update s.stage r (if succeeds then .receiving else r.afterOpenFailure) }
    else none
  | .message r =>
    if s.stage r = .receiving then
      some { s with waiting := Function.update s.waiting r (min (s.waiting r + 1) r.queueLength) }
    else none
  | .error r =>
    if s.stage r = .receiving then
      some { s with stage := Function.update s.stage r r.afterError }
    else none
  | .dispatch r =>
    if s.main = [] ∧ 0 < s.waiting r ∧ ∃ h ∈ s.handle r, h ∈ s.members then
      some { s with waiting := Function.update s.waiting r (s.waiting r - 1) }
    else none

/-- The queue of the task will still be added, or is a member of the set. -/
def Covered (s : Registration) (r : Receiver) : Prop := .addToSet r ∈ s.main ∨ s.Listening r

/-- The step does not spoil the set-up: `app_main` adds only queues that exist and are empty, and
no queue is created after `app_main` added that of its task. -/
def Timely (s : Registration) : Label → Prop
  | .main => ∀ r, s.main.head? = some (.addToSet r) → (s.handle r).isSome ∧ s.waiting r = 0
  | .create r => .addToSet r ∈ s.main
  | .openSocket .. | .message _ | .error _ | .dispatch _ => True

instance (s : Registration) : (l : Label) → Decidable (s.Timely l)
  | .main => inferInstanceAs (Decidable (∀ _, _))
  | .create _ => inferInstanceAs (Decidable (_ ∈ _))
  | .openSocket .. | .message _ | .error _ | .dispatch _ => .isTrue trivial

/-- What holds in every state: handles are older than `next` and not shared, and a queue that has
still to be added is no member. -/
structure Consistent (s : Registration) : Prop where
  main_suffix : s.main <:+ appMain
  handle_lt : ∀ r h, s.handle r = some h → h < s.next
  member_lt : ∀ h ∈ s.members, h < s.next
  handle_injective : ∀ r r' h, s.handle r = some h → s.handle r' = some h → r = r'
  not_mem_of_pending : ∀ r h, .addToSet r ∈ s.main → s.handle r = some h → h ∉ s.members

/-- What a step can do: leave handles, members and pending additions alone, add a queue to the
set, or create a queue. -/
lemma step_cases {s t : Registration} {l : Label} (h : s.step l = some t) :
    (s.Timely l ∧ t.handle = s.handle ∧ t.members = s.members ∧ t.next = s.next ∧
        t.main <:+ s.main ∧ ∀ r, .addToSet r ∈ t.main ↔ .addToSet r ∈ s.main) ∨
      (∃ r rest, l = .main ∧ s.main = .addToSet r :: rest ∧
        t = { s with main := rest, members := s.addToSet r }) ∨
      (∃ r, l = .create r ∧ t.main = s.main ∧ t.members = s.members ∧ t.next = s.next + 1 ∧
        t.handle = Function.update s.handle r (some s.next)) := by
  cases l with
  | main =>
    unfold step at h
    cases hmain : s.main with
    | nil => simp [hmain] at h
    | cons m rest =>
      cases m with
      | createTask r =>
        simp only [hmain, Option.some.injEq] at h
        subst h
        refine .inl ⟨fun r' hr' => ?_, rfl, rfl, rfl, List.suffix_cons _ _, fun r' => by simp⟩
        simp [hmain] at hr'
      | addToSet r =>
        simp only [hmain, Option.some.injEq] at h
        exact .inr (.inl ⟨r, rest, rfl, rfl, h.symm⟩)
  | create r =>
    obtain ⟨-, rfl⟩ := StepRuns.of_guarded h
    exact .inr (.inr ⟨r, rfl, rfl, rfl, rfl, rfl⟩)
  | openSocket r succeeds | message r | error r | dispatch r =>
    obtain ⟨-, rfl⟩ := StepRuns.of_guarded h
    exact .inl ⟨trivial, rfl, rfl, rfl, List.suffix_rfl, fun _ => Iff.rfl⟩

/-- `app_main` adds each queue once. -/
lemma Consistent.not_mem_rest {s : Registration} (hs : s.Consistent) {r : Receiver}
    {rest : List MainStep} (hmain : s.main = .addToSet r :: rest) : .addToSet r ∉ rest := by
  have hnodup : s.main.Nodup := hs.main_suffix.sublist.nodup (by decide)
  rw [hmain] at hnodup
  exact (List.nodup_cons.mp hnodup).1

/-- The members after `xQueueAddToSet`. -/
lemma mem_addToSet_iff {s : Registration} {r : Receiver} {h : ℕ} :
    h ∈ s.addToSet r ↔ h ∈ s.members ∨ s.handle r = some h ∧ s.waiting r = 0 := by
  unfold addToSet
  cases hr : s.handle r with
  | none => simp
  | some h' =>
    by_cases hw : s.waiting r = 0
    · simp [hw, or_comm, eq_comm]
    · simp [hw]

/-- Adding a queue does not change whether another receiver is heard. -/
lemma listening_addToSet_iff {s : Registration} (hs : s.Consistent) {r r' : Receiver}
    {rest : List MainStep} (hne : r' ≠ r) :
    Listening { s with main := rest, members := s.addToSet r } r' ↔ s.Listening r' := by
  apply exists_congr
  intro h
  apply and_congr_right
  intro hr'
  rw [mem_addToSet_iff]
  apply or_iff_left
  rintro ⟨hr, -⟩
  exact hne (hs.handle_injective r' r h hr' hr)

/-- Every step keeps the handles apart. -/
lemma consistent_step (s : Registration) (l : Label) (t : Registration) (hs : s.Consistent)
    (h : s.step l = some t) : t.Consistent := by
  obtain ⟨-, hhandle, hmembers, hnext, hsuffix, hpending⟩ | ⟨r, rest, rfl, hmain, rfl⟩ |
    ⟨r, rfl, hmain, hmembers, hnext, hhandle⟩ := step_cases h
  · constructor
    · exact hsuffix.trans hs.main_suffix
    · simpa only [hhandle, hnext] using hs.handle_lt
    · simpa only [hmembers, hnext] using hs.member_lt
    · simpa only [hhandle] using hs.handle_injective
    · simpa only [hpending, hhandle, hmembers] using hs.not_mem_of_pending
  · constructor
    · exact (hmain ▸ List.suffix_cons _ _ : rest <:+ s.main).trans hs.main_suffix
    · exact hs.handle_lt
    · intro h' hmem
      rcases mem_addToSet_iff.mp hmem with hmem | ⟨hr, -⟩
      · exact hs.member_lt h' hmem
      · exact hs.handle_lt r h' hr
    · exact hs.handle_injective
    · intro r' h' hr' hh' hmem
      have hpending : .addToSet r' ∈ s.main := hmain ▸ List.mem_cons_of_mem _ hr'
      rcases mem_addToSet_iff.mp hmem with hmem | ⟨hr, -⟩
      · exact hs.not_mem_of_pending r' h' hpending hh' hmem
      · obtain rfl := hs.handle_injective r' r h' hh' hr
        exact hs.not_mem_rest hmain hr'
  · have hlt : ∀ r' h', t.handle r' = some h' →
        r' = r ∧ h' = s.next ∨ r' ≠ r ∧ s.handle r' = some h' := by
      intro r' h' hr'
      rw [hhandle] at hr'
      by_cases heq : r' = r
      · subst heq
        exact .inl ⟨rfl, by simpa [eq_comm] using hr'⟩
      · exact .inr ⟨heq, by simpa [heq] using hr'⟩
    constructor
    · exact hmain ▸ hs.main_suffix
    · intro r' h' hr'
      rcases hlt r' h' hr' with ⟨-, rfl⟩ | ⟨-, hr'⟩
      · omega
      · have := hs.handle_lt r' h' hr'
        omega
    · intro h' hmem
      have := hs.member_lt h' (hmembers ▸ hmem)
      omega
    · intro r₁ r₂ h' h₁ h₂
      rcases hlt r₁ h' h₁ with ⟨rfl, rfl⟩ | ⟨hne₁, h₁⟩ <;>
        rcases hlt r₂ _ h₂ with ⟨rfl, heq⟩ | ⟨hne₂, h₂⟩
      · rfl
      · exact absurd (hs.handle_lt r₂ _ h₂) (lt_irrefl _)
      · exact absurd (hs.handle_lt r₁ _ (heq ▸ h₁)) (lt_irrefl _)
      · exact hs.handle_injective r₁ r₂ h' h₁ h₂
    · intro r' h' hr' hh' hmem
      rw [hmain] at hr'
      rw [hmembers] at hmem
      rcases hlt r' h' hh' with ⟨-, rfl⟩ | ⟨-, hh'⟩
      · exact absurd (hs.member_lt _ hmem) (lt_irrefl _)
      · exact hs.not_mem_of_pending r' h' hr' hh' hmem

/-- Only one receiver is concerned, and it is covered after the step exactly under the condition
`P`. -/
lemma forall_covered_iff {s t : Registration} {r : Receiver} {P : Prop} (hself : t.Covered r ↔ P)
    (hother : ∀ r' ≠ r, t.Covered r' ↔ s.Covered r') (hbefore : P → s.Covered r) :
    (∀ r, t.Covered r) ↔ (∀ r, s.Covered r) ∧ P := by
  constructor
  · intro ht
    have hP := hself.mp (ht r)
    refine ⟨?_, hP⟩
    intro r'
    by_cases hr' : r' = r
    · exact hr' ▸ hbefore hP
    · exact (hother r' hr').mp (ht r')
  · rintro ⟨hs, hP⟩ r'
    by_cases hr' : r' = r
    · exact hr' ▸ hself.mpr hP
    · exact (hother r' hr').mpr (hs r')

/-- A step keeps every receiver covered exactly when it is timely. -/
lemma covered_step_iff (s : Registration) (l : Label) (t : Registration) (hs : s.Consistent)
    (h : s.step l = some t) : (∀ r, t.Covered r) ↔ (∀ r, s.Covered r) ∧ s.Timely l := by
  obtain ⟨htimely, hhandle, hmembers, -, -, hpending⟩ | ⟨r, rest, rfl, hmain, rfl⟩ |
    ⟨r, rfl, hmain, hmembers, -, hhandle⟩ := step_cases h
  · simp only [Covered, Listening, hhandle, hmembers, hpending, htimely, and_true]
  · have hrest := hs.not_mem_rest hmain
    have hpending : .addToSet r ∈ s.main := hmain ▸ List.mem_cons_self
    have hself : Covered { s with main := rest, members := s.addToSet r } r ↔ s.Timely .main := by
      have hhead : ∀ r', s.main.head? = some (.addToSet r') ↔ r = r' := by simp [hmain]
      simp only [Covered, hrest, false_or, Timely, hhead, forall_eq']
      constructor
      · rintro ⟨h', hr, hmem⟩
        rcases mem_addToSet_iff.mp hmem with hmem | ⟨-, hw⟩
        · exact absurd hmem (hs.not_mem_of_pending r h' hpending hr)
        · exact ⟨by simp [show s.handle r = some h' from hr], hw⟩
      · rintro ⟨hsome, hw⟩
        obtain ⟨h', hr⟩ := Option.isSome_iff_exists.mp hsome
        exact ⟨h', hr, mem_addToSet_iff.mpr (.inr ⟨hr, hw⟩)⟩
    have hother : ∀ r' ≠ r, Covered { s with main := rest, members := s.addToSet r } r' ↔
        s.Covered r' := by
      intro r' hne
      rw [Covered, listening_addToSet_iff hs hne, Covered, hmain]
      simp [hne]
    exact forall_covered_iff hself hother fun _ => .inl hpending
  · have hself : t.Covered r ↔ .addToSet r ∈ s.main := by
      rw [Covered, hmain]
      apply or_iff_left
      rintro ⟨h', hr, hmem⟩
      rw [hhandle, Function.update_self, Option.some.injEq] at hr
      rw [hmembers, ← hr] at hmem
      exact absurd (hs.member_lt _ hmem) (lt_irrefl _)
    have hother : ∀ r' ≠ r, t.Covered r' ↔ s.Covered r' := by
      intro r' hne
      simp only [Covered, Listening, hmain, hmembers, hhandle, Function.update_of_ne hne]
    exact forall_covered_iff hself hother fun hpending => .inl hpending

/-- The start is consistent: there are no handles. -/
lemma consistent_boot : boot.Consistent where
  main_suffix := List.suffix_rfl
  handle_lt := by simp [boot]
  member_lt := by simp [boot]
  handle_injective := by simp [boot]
  not_mem_of_pending := by simp [boot]

/-- **Every receiver posts into a queue of the set** once `app_main` made its three additions,
exactly in the runs in which each addition finds an existing and empty queue and no queue is
created after it. -/
theorem listening_iff_along_timely {ls : List Label} {s : Registration}
    (h : StepRuns.run step boot ls = some s) (hmain : s.main = []) :
    (∀ r, ∃ h, s.handle r = some h ∧ h ∈ s.members) ↔ StepRuns.Along step Timely boot ls := by
  have hboot : ∀ r, boot.Covered r := fun r => .inl (by cases r <;> decide)
  have hiff := StepRuns.iff_along_of_run consistent_step covered_step_iff consistent_boot h
  rw [and_iff_right hboot] at hiff
  rw [← hiff]
  simp [Covered, Listening, hmain]

/-- The steps of a start in which every receiver opens its socket before `app_main` goes on. -/
def smoothStart : List Label :=
  [.main, .create .tcp, .openSocket .tcp true, .main, .create .multicast,
    .openSocket .multicast true, .main, .create .broadcast, .openSocket .broadcast true,
    .main, .main, .main]

/-- After a smooth start every receiver is heard. -/
theorem listening_smoothStart : ∃ s, StepRuns.run step boot smoothStart = some s ∧
    ∀ r, ∃ h, s.handle r = some h ∧ h ∈ s.members := by
  obtain ⟨s, hs⟩ : ∃ s, StepRuns.run step boot smoothStart = some s := ⟨_, rfl⟩
  have hmain : s.main = [] := by
    obtain rfl := Option.some.inj hs
    rfl
  exact ⟨s, hs, (listening_iff_along_timely hs hmain).mpr (by decide)⟩

/-- One failure of `recvfrom` after a smooth start, and `broadcast_task` is not heard any more. -/
theorem not_listening_after_error : ¬ ∀ (ls : List Label) (s : Registration),
    StepRuns.run step boot ls = some s → s.main = [] →
      ∀ r, ∃ h, s.handle r = some h ∧ h ∈ s.members := by
  intro hall
  obtain ⟨h, hr, hmem⟩ :=
    hall (smoothStart ++ [.error .broadcast, .create .broadcast]) _ rfl rfl .broadcast
  obtain rfl : 3 = h := Option.some.inj hr
  exact absurd hmem (by decide)

end Registration

end Strand
