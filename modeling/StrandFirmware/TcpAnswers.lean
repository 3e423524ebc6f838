import StrandFirmware.TcpReplies

/-!
# The answers over TCP

`tcp_server_run` knows nothing of the requests that the replies belong to, but it loses none of them
and invents none.  Whatever `command_handler` posts and whenever it does, every request is answered
once, in the order in which the requests came, and the replies that were posted are handed out in
their order, each to one connection (`answers_run`).  So when a reply is handed to the wrong
connection, the one after it is late as well.
-/

namespace Strand

/-- The connection that waits for its answer. -/
def ServerStage.connection : ServerStage → Option ℕ
  | accepting => none
  | waiting n _ => some n

/-- `respond_value`, while a connection waits. -/
def ServerStage.respondValue : ServerStage → Option Reply
  | accepting => none
  | waiting _ r => r

/-- The reply has a text, and a poll that receives it is the last one. -/
def Reply.HasText (r : Reply) : Prop := r.text ≠ ""

instance : DecidablePred Reply.HasText := fun r => inferInstanceAs (Decidable (r.text ≠ ""))

namespace TcpSystem

/-- The reply that a step puts on the queue. -/
def posted (s : TcpSystem) : Label → List Reply
  | .act =>
    match s.agenda with
    | .tcpRespond text :: _ => if s.respondQueue.Full then [] else [⟨s.requester, text⟩]
    | _ => []
  | _ => []

/-- The replies that were handed to a connection, in order. -/
def handedOut (s : TcpSystem) : List Reply :=
  s.sent.filterMap Prod.snd ++ s.stage.respondValue.toList

/-- The requests were answered in order, and the replies `replies` were handed out in order. -/
structure Answering (s : TcpSystem) (replies : List Reply) : Prop where
  connections : s.sent.map Prod.fst ++ s.stage.connection.toList = List.range s.received
  replies_eq : s.handedOut ++ s.respondQueue.items.filter Reply.HasText =
    replies.filter Reply.HasText

variable {s t : TcpSystem} {replies : List Reply}

/-- A step that leaves the server and the replies alone. -/
lemma Answering.of_eq (hs : s.Answering replies) (hqueue : t.respondQueue = s.respondQueue)
    (hstage : t.stage = s.stage) (hsent : t.sent = s.sent) (hreceived : t.received = s.received) :
    t.Answering replies where
  connections := by rw [hsent, hstage, hreceived, hs.connections]
  replies_eq := by rw [handedOut, hsent, hstage, hqueue, ← hs.replies_eq, handedOut]

/-- Taking a message receives no request. -/
lemma received_handle {env : Environment} {requester : Option ℕ} {m : Message} {type : ℤ}
    (h : s.handle env requester m type = some t) : t.received = s.received := by
  unfold handle at h
  cases hm : commandHandler env s.net m.toList type with
  | error e => simp [hm] at h
  | ok x =>
    simp only [hm, Option.some.injEq] at h
    subst h
    rfl

/-- Something that `command_handler` does: a reply goes to the back of the queue if there is room,
and anything else leaves the server and the replies alone. -/
lemma Answering.act (hs : s.Answering replies) (h : s.step .act = some t) :
    t.Answering (replies ++ s.posted .act) := by
  unfold step at h
  unfold posted
  cases hagenda : s.agenda with
  | nil => simp [hagenda] at h
  | cons e es =>
    rw [hagenda] at h
    cases e with
    | tcpRespond text =>
      obtain rfl := Option.some.inj h
      refine ⟨hs.connections, ?_⟩
      dsimp only
      cases hsend : s.respondQueue.sendToBack ⟨s.requester, text⟩ with
      | none =>
        rw [if_pos (BoundedQueue.sendToBack_eq_none_iff.mp hsend), List.append_nil]
        exact hs.replies_eq
      | some q =>
        obtain ⟨hfree, hitems⟩ := BoundedQueue.sendToBack_eq_some_iff.mp hsend
        rw [if_neg hfree, List.filter_append, ← hs.replies_eq, Option.getD_some, hitems,
          List.filter_append, List.append_assoc]
        rfl
    | _ =>
      obtain rfl := Option.some.inj h
      dsimp only
      rw [List.append_nil]
      exact hs.of_eq rfl rfl rfl rfl

/-- **One step** answers in order. -/
theorem answering_step {l : Label} (hs : s.Answering replies) (h : s.step l = some t) :
    t.Answering (replies ++ s.posted l) := by
  cases l with
  | udp env m =>
    obtain ⟨-, h⟩ := Option.ite_none_right_eq_some.mp h
    obtain ⟨hqueue, hstage, hsent⟩ := handle_eq h
    simpa [posted] using hs.of_eq hqueue hstage hsent (received_handle h)
  | tcp env =>
    obtain ⟨-, h⟩ := Option.ite_none_right_eq_some.mp h
    obtain ⟨⟨⟨n, m⟩, q⟩, -, h⟩ := Option.bind_eq_some_iff.mp h
    have hreceived := received_handle h
    obtain ⟨hqueue, hstage, hsent⟩ := handle_eq h
    simpa [posted] using hs.of_eq hqueue hstage hsent hreceived
  | act => exact hs.act h
  | request m =>
    unfold step at h
    cases hstage : s.stage with
    | waiting n r => simp [hstage] at h
    | accepting =>
      simp only [hstage, Option.some.injEq] at h
      subst h
      have hconnections := hs.connections
      have hreplies := hs.replies_eq
      simp only [handedOut, hstage, ServerStage.connection, ServerStage.respondValue,
        Option.toList_none, List.append_nil] at hconnections hreplies
      constructor
      · simp [ServerStage.connection, List.range_succ, hconnections]
      · simp [handedOut, ServerStage.respondValue, posted, hreplies]
  | poll =>
    unfold step at h
    cases hstage : s.stage with
    | accepting => simp [hstage] at h
    | waiting n v =>
      cases v with
      | some r => simp [hstage] at h
      | none =>
        simp only [hstage] at h
        cases hr : s.respondQueue.receive with
        | none =>
          simp only [hr, Option.some.injEq] at h
          simpa [posted, h] using hs
        | some x =>
          obtain ⟨r, q⟩ := x
          simp only [hr, Option.some.injEq] at h
          subst h
          have hitems := BoundedQueue.receive_eq_some_iff.mp hr
          have hreplies := hs.replies_eq
          rw [handedOut, hstage, hitems] at hreplies
          refine ⟨by simpa [hstage, ServerStage.connection] using hs.connections, ?_⟩
          by_cases htext : r.text = ""
          · simpa [handedOut, ServerStage.respondValue, posted, Reply.HasText, htext]
              using hreplies
          · simpa [handedOut, ServerStage.respondValue, posted, Reply.HasText, htext]
              using hreplies
  | answer =>
    unfold step at h
    cases hstage : s.stage with
    | accepting => simp [hstage] at h
    | waiting n v =>
      simp only [hstage, Option.some.injEq] at h
      subst h
      have hconnections := hs.connections
      have hreplies := hs.replies_eq
      simp only [handedOut, hstage, ServerStage.connection, ServerStage.respondValue]
        at hconnections hreplies
      constructor
      · simpa [ServerStage.connection] using hconnections
      · cases v <;> simpa [handedOut, ServerStage.respondValue, posted] using hreplies

/-- **Every request is answered once, and every reply is handed out once.**  In every run, the
connections answered and the one that waits are those of the requests received, in their order; and
the replies with a text that `command_handler` put on the queue are those handed to the connections
and then those that still wait, in the order in which they were posted. -/
theorem answers_run {net : NetState} {ls : List Label}
    (hrun : StepRuns.run step (boot net) ls = some t) :
    t.sent.map Prod.fst ++ t.stage.connection.toList = List.range t.received ∧
      t.handedOut ++ t.respondQueue.items.filter Reply.HasText =
        (StepRuns.outputs step posted (boot net) ls).filter Reply.HasText := by
  have hboot : (boot net).Answering [] := ⟨rfl, rfl⟩
  have ht := StepRuns.invariant_outputs_of_run (fun _ _ _ _ hs h => answering_step hs h) hboot hrun
  exact ⟨ht.connections, by simpa using ht.replies_eq⟩

/-- Two requests, the first of which waits in vain: its reply goes to the second. -/
theorem answers_run_late : ∃ t,
    StepRuns.run step (boot .fresh) [.request (.ofText "get_mac"), .answer,
      .request (.ofText "get_location"), .tcp .faithful, .act, .poll, .answer] = some t ∧
    t.sent.map Prod.fst ++ t.stage.connection.toList = [0, 1] ∧
    t.handedOut ++ t.respondQueue.items.filter Reply.HasText =
      [⟨some 0, "24:0A:C4:00:00:01"⟩] := by
  have heval : (StepRuns.run step (boot .fresh) [.request (.ofText "get_mac"), .answer,
      .request (.ofText "get_location"), .tcp .faithful, .act, .poll, .answer]).any
        (fun t => t.received = 2) = true := by
    decide +kernel
  obtain ⟨t, hrun, hreceived⟩ := StepRuns.exists_run_of_any heval
  obtain ⟨hconnections, hreplies⟩ := answers_run hrun
  refine ⟨t, hrun, by rw [hconnections, hreceived]; rfl, hreplies.trans ?_⟩
  decide +kernel

end TcpSystem

end Strand
