import StrandFirmware.EventDispatch

/-!
# The order of the messages

The dispatch loop may leave messages behind in their queues, when their handles found the set full.
What it does hand to `command_handler` is right all the same: on each channel the messages are
handled in the order in which they were accepted, each at most once, and those that were not handled
are the ones that wait in the queue (`dispatch_run`).  When the loop receives, there is a message:
it never handles the item of an earlier iteration again.
-/

namespace Strand

namespace Dispatcher

/-- What becomes of a message. -/
inductive Event where
  /-- The queue of its receiver has taken it. -/
  | accepted (r : Receiver) (m : Message)
  /-- `command_handler` is called with it. -/
  | handled (r : Receiver) (m : Message)

/-- What becomes of messages in a step. -/
def events (d : Dispatcher) : Label → List Event
  | .post r m => if (d.queueSet.waiting r).Full then [] else [.accepted r m]
  | .select => []
  | .receive =>
    match d.queueSetMember with
    | none => []
    | some r => (d.queueSet.receive r).toList.map fun x => .handled r x.1

/-- The messages that a queue has taken. -/
def acceptedBy (r : Receiver) : List Event → List Message :=
  List.filterMap fun
    | .accepted r' m => if r' = r then some m else none
    | .handled .. => none

/-- The messages of a queue that were handled. -/
def handledBy (r : Receiver) : List Event → List Message :=
  List.filterMap fun
    | .accepted .. => none
    | .handled r' m => if r' = r then some m else none

/-- Each queue holds the messages that it has taken and that were not handled, in order. -/
structure Orderly (d : Dispatcher) (es : List Event) : Prop where
  sound : d.Sound
  accepted_eq : ∀ r, acceptedBy r es = handledBy r es ++ (d.queueSet.waiting r).items

variable {d e : Dispatcher} {es : List Event}

/-- A message that is accepted goes to the back of its queue. -/
lemma items_post {qs qs' : QueueSet Receiver Message Receiver.queueLength QUEUE_SET_LENGTH}
    {r : Receiver} {m : Message} (h : qs.post r m = some qs') (r' : Receiver) :
    (qs'.waiting r').items = (qs.waiting r').items ++ if r = r' then [m] else [] := by
  obtain ⟨q, hq, rfl⟩ := Option.map_eq_some_iff.mp h
  obtain ⟨-, hitems⟩ := BoundedQueue.sendToBack_eq_some_iff.mp hq
  by_cases hr : r' = r
  · subst hr
    simp [hitems]
  · simp [Function.update_of_ne hr, Ne.symm hr]

/-- A message that is received was the first of its queue. -/
lemma items_receive {qs qs' : QueueSet Receiver Message Receiver.queueLength QUEUE_SET_LENGTH}
    {r : Receiver} {m : Message} (h : qs.receive r = some (m, qs')) (r' : Receiver) :
    (qs.waiting r').items = (if r = r' then [m] else []) ++ (qs'.waiting r').items := by
  obtain ⟨⟨m', q⟩, hq, heq⟩ := Option.map_eq_some_iff.mp h
  obtain ⟨rfl, rfl⟩ := Prod.mk.inj heq
  have hitems := BoundedQueue.receive_eq_some_iff.mp hq
  by_cases hr : r' = r
  · subst hr
    simp [hitems]
  · simp [Function.update_of_ne hr, Ne.symm hr]

/-- **One step** keeps the messages in order. -/
theorem orderly_step {l : Label} (hd : d.Orderly es) (h : d.step l = some e) :
    e.Orderly (es ++ d.events l) := by
  refine ⟨sound_step d l e hd.sound h, fun r' => ?_⟩
  have hold := hd.accepted_eq r'
  obtain ⟨r, m, rfl, hfull, rfl⟩ | ⟨r, m, rfl, hfree, hpost, -⟩ | ⟨r, rfl, -, -, hsel⟩ |
    ⟨r, rfl, hsome, rfl⟩ := step_cases h
  · rw [events, if_pos hfull, List.append_nil, hold]
  · rw [events, if_neg hfree, items_post hpost]
    unfold acceptedBy handledBy at hold ⊢
    by_cases hr : r = r'
    · simp [hold, hr]
    · simp [hold, hr]
  · obtain ⟨⟨k, handles⟩, -, heq⟩ := Option.map_eq_some_iff.mp hsel
    obtain ⟨-, hqueues⟩ := Prod.mk.inj heq
    rw [events, List.append_nil, hold, ← hqueues]
  · have hsound := hd.sound
    unfold Sound at hsound
    rw [hsome] at hsound
    obtain ⟨m, qs, hr⟩ := hsound.exists_receive
    rw [items_receive hr] at hold
    unfold acceptedBy handledBy at hold ⊢
    by_cases hr' : r = r'
    · subst hr'
      simp [events, hsome, hr, hold]
    · simp [events, hsome, hr, hold, hr']

/-- **Messages are handled once and in order.**  In every run, on each channel the messages accepted
are those handled and then those that wait, in the same order; and when a queue is selected there is
a message in it. -/
theorem dispatch_run {ls : List Label} (hrun : StepRuns.run step boot ls = some d) :
    (∀ r, acceptedBy r (StepRuns.outputs step events boot ls) =
        handledBy r (StepRuns.outputs step events boot ls) ++ (d.queueSet.waiting r).items) ∧
      ∀ r, d.queueSetMember = some r → (d.queueSet.waiting r).items ≠ [] := by
  have hboot : boot.Orderly [] := by
    have hcovered : boot.Covered := QueueSet.covered_empty
    exact ⟨hcovered.sound, fun r => rfl⟩
  have hd := StepRuns.invariant_outputs_of_run (fun _ _ _ _ hs h => orderly_step hs h) hboot hrun
  refine ⟨hd.accepted_eq, fun r hr hempty => ?_⟩
  have hsound := hd.sound
  unfold Sound at hsound
  rw [hr] at hsound
  obtain ⟨m, qs, hreceive⟩ := hsound.exists_receive
  have hitems := items_receive hreceive r
  rw [if_pos rfl, hempty] at hitems
  simp at hitems

/-- Two messages for one queue, of which one is handled. -/
theorem dispatch_run_two : ∃ d,
    StepRuns.run step boot [.post .tcp blank, .post .tcp blank, .select, .receive] = some d ∧
      handledBy .tcp (StepRuns.outputs step events boot
          [.post .tcp blank, .post .tcp blank, .select, .receive]) ++
        (d.queueSet.waiting .tcp).items = [blank, blank] := by
  obtain ⟨d, hd⟩ : ∃ d, StepRuns.run step boot
      [.post .tcp blank, .post .tcp blank, .select, .receive] = some d := ⟨_, rfl⟩
  exact ⟨d, hd, ((dispatch_run hd).1 .tcp).symm.trans rfl⟩

end Dispatcher

end Strand
