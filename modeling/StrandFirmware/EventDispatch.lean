import StrandFirmware.CommandLine
import StrandFirmware.Library.QueueSet
import StrandFirmware.Library.Runs

/-!
# The dispatch loop of `app_main`

Three receiver tasks post messages to their queues, and `app_main` waits for all of them with
`xQueueSelectFromSet` on `queue_set`, then receives one message from the selected queue.  A run
interleaves posts with the two halves of an iteration of the loop.

The loop stands after a loop of LED tests that never ends; it is modelled as it is written.  The
posts alone suffice for what is shown here: the set is created with 3 slots for 35 messages, so
the handle of an accepted message is lost when 3 handles wait already
(`covered_iff_along_eventFits`).
-/

namespace Strand

/-- The tasks that receive messages from the network. -/
inductive Receiver where
  | multicast
  | broadcast
  | tcp
deriving DecidableEq

instance : Fintype Receiver where
  elems := {.multicast, .broadcast, .tcp}
  complete r := by cases r <;> decide

/-- The length of the queue that each task creates. -/
def Receiver.queueLength : Receiver → ℕ
  | multicast => 25
  | broadcast => 5
  | tcp => 5

/-- The type that `command_handler` is called with for a message of each task. -/
def Receiver.commandType : Receiver → ℤ
  | multicast => 0
  | broadcast => 0
  | tcp => 1

/-- The length passed to `xQueueCreateSet`. -/
abbrev QUEUE_SET_LENGTH : ℕ := 3

/-- The queues of the receivers and the dispatch loop. -/
structure Dispatcher where
  /-- `queue_set` with its three members. -/
  queueSet : QueueSet Receiver Message Receiver.queueLength QUEUE_SET_LENGTH
  /-- `queue_set_member`, from the selection up to the receive. -/
  queueSetMember : Option Receiver

namespace Dispatcher

/-- One step of a receiver task or of the dispatch loop. -/
inductive Label where
  /-- `xQueueSendToBack` of a receiver task returns. -/
  | post (r : Receiver) (m : Message)
  /-- `xQueueSelectFromSet` returns. -/
  | select
  /-- `xQueueReceive` on the selected queue returns. -/
  | receive

/-- The queues after set-up. -/
def boot : Dispatcher := ⟨.empty .., none⟩

/-- A post to a full queue gives up and changes nothing.  The loop selects while no queue is
selected and blocks on an empty set; a receive from an empty queue gives up after 10 ticks. -/
def step (d : Dispatcher) : Label → Option Dispatcher
  | .post r m => some { d with queueSet := (d.queueSet.post r m).getD d.queueSet }
  | .select =>
    match d.queueSetMember with
    | none => d.queueSet.select.map fun (r, queueSet) => ⟨queueSet, some r⟩
    | some _ => none
  | .receive =>
    match d.queueSetMember with
    | none => none
    | some r => some ⟨((d.queueSet.receive r).map Prod.snd).getD d.queueSet, none⟩

/-- For each queue, the handles in the set and the selected one are as many as the messages. -/
def Covered (d : Dispatcher) : Prop := d.queueSet.Covered d.queueSetMember

/-- No handle is without a message. -/
def Sound (d : Dispatcher) : Prop := d.queueSet.Sound d.queueSetMember

/-- A post that is accepted finds a free slot in the set. -/
def EventFits (d : Dispatcher) : Label → Prop
  | .post r _ => ¬ (d.queueSet.waiting r).Full → ¬ d.queueSet.handles.Full
  | .select => True
  | .receive => True

instance (d : Dispatcher) : (l : Label) → Decidable (d.EventFits l)
  | .post _ _ => inferInstanceAs (Decidable (_ → _))
  | .select => .isTrue trivial
  | .receive => .isTrue trivial

/-- What a step can do: nothing, post, select or receive. -/
lemma step_cases {d e : Dispatcher} {l : Label} (h : d.step l = some e) :
    (∃ r m, l = .post r m ∧ (d.queueSet.waiting r).Full ∧ e = d) ∨
      (∃ r m, l = .post r m ∧ ¬ (d.queueSet.waiting r).Full ∧
        d.queueSet.post r m = some e.queueSet ∧ e.queueSetMember = d.queueSetMember) ∨
      (∃ r, l = .select ∧ d.queueSetMember = none ∧ e.queueSetMember = some r ∧
        d.queueSet.select = some (r, e.queueSet)) ∨
      (∃ r, l = .receive ∧ d.queueSetMember = some r ∧
        e = ⟨((d.queueSet.receive r).map Prod.snd).getD d.queueSet, none⟩) := by
  cases l with
  | post r m =>
    obtain rfl : _ = e := Option.some.inj h
    cases hpost : d.queueSet.post r m with
    | none => exact .inl ⟨r, m, rfl, QueueSet.post_eq_none_iff.mp hpost, by simp⟩
    | some qs =>
      have hfree : ¬ (d.queueSet.waiting r).Full := by
        intro hfull
        simp [QueueSet.post_eq_none_iff.mpr hfull] at hpost
      exact .inr (.inl ⟨r, m, rfl, hfree, by simp [hpost], rfl⟩)
  | select =>
    unfold step at h
    cases hm : d.queueSetMember with
    | some r => simp [hm] at h
    | none =>
      simp only [hm] at h
      obtain ⟨⟨r, qs⟩, hsel, rfl⟩ := Option.map_eq_some_iff.mp h
      exact .inr (.inr (.inl ⟨r, rfl, rfl, rfl, hsel⟩))
  | receive =>
    unfold step at h
    cases hm : d.queueSetMember with
    | none => simp [hm] at h
    | some r =>
      simp only [hm, Option.some.injEq] at h
      exact .inr (.inr (.inr ⟨r, rfl, rfl, h.symm⟩))

/-- No step leaves a handle without a message. -/
lemma sound_step (d : Dispatcher) (l : Label) (e : Dispatcher) (hd : d.Sound)
    (h : d.step l = some e) : e.Sound := by
  obtain ⟨r, m, rfl, hfull, rfl⟩ | ⟨r, m, rfl, -, hpost, hm⟩ | ⟨r, rfl, hnone, hsome, hsel⟩ |
    ⟨r, rfl, hsome, rfl⟩ := step_cases h
  · exact hd
  · unfold Sound at hd ⊢
    rw [hm]
    exact hd.post hpost
  · unfold Sound at hd ⊢
    rw [hnone] at hd
    rw [hsome]
    exact hd.select hsel
  · unfold Sound at hd
    rw [hsome] at hd
    obtain ⟨m, qs, hr⟩ := hd.exists_receive
    simpa [Sound, hr] using hd.receive hr

/-- A step loses the cover of the messages exactly when an accepted message finds the set full. -/
lemma covered_step_iff (d : Dispatcher) (l : Label) (e : Dispatcher) (hd : d.Sound)
    (h : d.step l = some e) : e.Covered ↔ d.Covered ∧ d.EventFits l := by
  obtain ⟨r, m, rfl, hfull, rfl⟩ | ⟨r, m, rfl, hfree, hpost, hm⟩ | ⟨r, rfl, hnone, hsome, hsel⟩ |
    ⟨r, rfl, hsome, rfl⟩ := step_cases h
  · simp [EventFits, hfull]
  · unfold Covered Sound at *
    rw [hm, QueueSet.covered_post_iff hd hpost]
    simp [EventFits, hfree]
  · unfold Covered
    rw [hnone, hsome, QueueSet.covered_select_iff hsel]
    simp [EventFits]
  · unfold Sound at hd
    rw [hsome] at hd
    obtain ⟨m, qs, hr⟩ := hd.exists_receive
    have hiff := QueueSet.covered_receive_iff hr
    simp [Covered, EventFits, hr, hsome, hiff]

/-- **The queue set holds every event** exactly in the runs in which each accepted message finds a
free slot in the set: after such a run, and only then, each queue has as many handles, in the set
or selected, as it has messages. -/
theorem covered_iff_along_eventFits {ls : List Label} {d : Dispatcher}
    (h : StepRuns.run step boot ls = some d) :
    d.Covered ↔ StepRuns.Along step EventFits boot ls := by
  have hboot : boot.Covered := QueueSet.covered_empty
  rw [StepRuns.iff_along_of_run sound_step covered_step_iff hboot.sound h]
  exact and_iff_right hboot

/-- A message of zeros. -/
def blank : Message := List.Vector.replicate _ 0

/-- A post to each of two queues, with one of the messages handled, keeps the events. -/
theorem covered_two_posts :
    ∃ d, StepRuns.run step boot [.post .multicast blank, .post .tcp blank, .select, .receive] =
      some d ∧ d.Covered := by
  obtain ⟨d, hd⟩ : ∃ d, StepRuns.run step boot
      [.post .multicast blank, .post .tcp blank, .select, .receive] = some d := ⟨_, rfl⟩
  exact ⟨d, hd, (covered_iff_along_eventFits hd).mpr (by decide)⟩

/-- Four messages in a row for one queue leave a message without an event. -/
theorem not_covered_four_posts :
    ¬ ∀ (ls : List Label) (d : Dispatcher), StepRuns.run step boot ls = some d → d.Covered := by
  intro hall
  have h := hall (List.replicate 4 (.post .multicast blank)) _ rfl .multicast
  exact absurd h (by decide)

end Dispatcher

end Strand
