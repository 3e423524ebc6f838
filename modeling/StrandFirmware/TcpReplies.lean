import StrandFirmware.EventDispatch
import StrandFirmware.Handler

/-!
# Replies over TCP

`tcp_server_run` serves one connection at a time: it receives a request, puts it into
`xQueue_tcp_task`, and polls `xQueue_tcp_respond` for at most a second.  `command_handler` puts its
replies into that queue, also those to `set_location` messages that came over UDP, and a reply that
comes after the second stays there.

The connections are numbered.  Requests and replies carry the number of the connection they belong
to, which the code knows nothing of; a reply made for a message over UDP carries none.  How long a
poll, a wait or the handling of a message takes is left open, so the second may end at any poll.
-/

namespace Strand

open CString

/-- The length of `xQueue_tcp_respond`. -/
abbrev RESPOND_QUEUE_LENGTH : ℕ := 5

/-- A reply in `xQueue_tcp_respond`. -/
structure Reply where
  /-- The connection whose request was being handled when the reply was posted. -/
  requester : Option ℕ
  text : String
deriving DecidableEq

/-- Where `tcp_server_run` stands. -/
inductive ServerStage where
  /-- It waits for the next request. -/
  | accepting
  /-- It waits for the reply to the request of a connection; `respond_value` may be filled. -/
  | waiting (connection : ℕ) (respondValue : Option Reply)
deriving DecidableEq

/-- The connection that waits and has received no reply. -/
def ServerStage.unanswered : ServerStage → Option ℕ
  | waiting n none => some n
  | _ => none

/-- The effect is a reply offered to `xQueue_tcp_respond`. -/
def Effect.IsReply : Effect → Bool
  | .tcpRespond _ => true
  | _ => false

/-- `tcp_server_run`, `command_handler` and the two queues between them. -/
structure TcpSystem where
  net : NetState
  /-- What `command_handler` has still to do for the message being handled. -/
  agenda : List Effect
  /-- The connection that this message came from. -/
  requester : Option ℕ
  /-- `xQueue_tcp_task`. -/
  tcpQueue : BoundedQueue (ℕ × Message) Receiver.tcp.queueLength
  /-- `xQueue_tcp_respond`. -/
  respondQueue : BoundedQueue Reply RESPOND_QUEUE_LENGTH
  /-- The number of requests received so far. -/
  received : ℕ
  stage : ServerStage
  /-- What was sent back on each connection; `none` is the text `"timeout"`. -/
  sent : List (ℕ × Option Reply)

namespace TcpSystem

/-- One step of one of the tasks. -/
inductive Label where
  /-- `command_handler` takes a message that came over UDP. -/
  | udp (env : Environment) (m : Message)
  /-- `command_handler` takes a message from `xQueue_tcp_task`. -/
  | tcp (env : Environment)
  /-- `command_handler` does the next thing for its message. -/
  | act
  /-- `tcp_server_run` receives a request on a new connection and posts it. -/
  | request (m : Message)
  /-- `tcp_server_run` polls `xQueue_tcp_respond`. -/
  | poll
  /-- `tcp_server_run` answers and closes the connection. -/
  | answer

/-- The start with some state of the network code. -/
def boot (net : NetState) : TcpSystem where
  net := net
  agenda := []
  requester := none
  tcpQueue := .empty ..
  respondQueue := .empty ..
  received := 0
  stage := .accepting
  sent := []

/-- `command_handler` takes a message. -/
def handle (s : TcpSystem) (env : Environment) (requester : Option ℕ) (m : Message) (type : ℤ) :
    Option TcpSystem :=
  match commandHandler env s.net m.toList type with
  | .error _ => none
  | .ok (net, es) => some { s with net, agenda := es, requester }

/-- One step.  A request or a reply that finds its queue full is dropped.  A poll that receives the
empty text leaves `respond_value` empty. -/
def step (s : TcpSystem) : Label → Option TcpSystem
  | .udp env m => if s.agenda = [] then s.handle env none m Receiver.broadcast.commandType else none
  | .tcp env =>
    if s.agenda = [] then
      s.tcpQueue.receive.bind fun ((n, m), q) =>
        { s with tcpQueue := q }.handle env (some n) m Receiver.tcp.commandType
    else none
  | .act =>
    match s.agenda with
    | [] => none
    | .tcpRespond text :: es =>
      let q := (s.respondQueue.sendToBack ⟨s.requester, text⟩).getD s.respondQueue
      some { s with agenda := es, respondQueue := q }
    | _ :: es => some { s with agenda := es }
  | .request m =>
    match s.stage with
    | .accepting =>
      some { s with
        tcpQueue := (s.tcpQueue.sendToBack (s.received, m)).getD s.tcpQueue
        received := s.received + 1
        stage := .waiting s.received none }
    | .waiting .. => none
  | .poll =>
    match s.stage with
    | .waiting n none =>
      match s.respondQueue.receive with
      | none => some s
      | some (r, q) =>
        let respondValue := if r.text = "" then none else some r
        some { s with respondQueue := q, stage := .waiting n respondValue }
    | _ => none
  | .answer =>
    match s.stage with
    | .waiting n r => some { s with stage := .accepting, sent := s.sent ++ [(n, r)] }
    | .accepting => none

/-- What is sent back on a connection is `"timeout"` or a reply to the request received on it. -/
def RepliesBelong (s : TcpSystem) : Prop := ∀ x ∈ s.sent, ∀ r ∈ x.2, r.requester = some x.1

/-- No request finds an old reply waiting, and while a connection waits only replies to its own
request are posted. -/
def Unmixed (s : TcpSystem) : Label → Prop
  | .request _ => s.respondQueue.items = []
  | .act => ∀ n ∈ s.stage.unanswered, ∀ e ∈ s.agenda.head?, e.IsReply → s.requester = some n
  | .udp .. | .tcp _ | .poll | .answer => True

instance (s : TcpSystem) : (l : Label) → Decidable (s.Unmixed l)
  | .request _ => inferInstanceAs (Decidable (_ = _))
  | .act => inferInstanceAs (Decidable (∀ n ∈ s.stage.unanswered, _))
  | .udp .. | .tcp _ | .poll | .answer => .isTrue trivial

/-- What belongs to the waiting connection: every reply it can still receive, and the one it has
received. -/
structure Consistent (s : TcpSystem) : Prop where
  queue : ∀ n, s.stage = .waiting n none → ∀ r ∈ s.respondQueue.items, r.requester = some n
  value : ∀ n r, s.stage = .waiting n (some r) → r.requester = some n
  sent : s.RepliesBelong

/-- Taking a message touches neither the server nor the replies. -/
lemma handle_eq {s t : TcpSystem} {env : Environment} {requester : Option ℕ} {m : Message}
    {type : ℤ} (h : s.handle env requester m type = some t) :
    t.respondQueue = s.respondQueue ∧ t.stage = s.stage ∧ t.sent = s.sent := by
  unfold handle at h
  cases hm : commandHandler env s.net m.toList type with
  | error e => simp [hm] at h
  | ok x =>
    simp only [hm, Option.some.injEq] at h
    subst h
    exact ⟨rfl, rfl, rfl⟩

/-- A step that leaves the server and the replies alone keeps everything in its place. -/
lemma Consistent.of_eq {s t : TcpSystem} (hs : s.Consistent)
    (h : t.respondQueue = s.respondQueue ∧ t.stage = s.stage ∧ t.sent = s.sent) :
    t.Consistent := by
  obtain ⟨hqueue, hstage, hsent⟩ := h
  constructor
  · simpa only [hqueue, hstage] using hs.queue
  · simpa only [hstage] using hs.value
  · simpa only [RepliesBelong, hsent] using hs.sent

/-- What `command_handler` does next: post a reply, or something that is no reply. -/
lemma act_cases {s t : TcpSystem} (h : s.step .act = some t) :
    (∃ text es, s.agenda = .tcpRespond text :: es ∧ t.stage = s.stage ∧ t.sent = s.sent ∧
        t.respondQueue = (s.respondQueue.sendToBack ⟨s.requester, text⟩).getD s.respondQueue) ∨
      t.respondQueue = s.respondQueue ∧ t.stage = s.stage ∧ t.sent = s.sent := by
  unfold step at h
  cases hagenda : s.agenda with
  | nil => simp [hagenda] at h
  | cons e es =>
    rw [hagenda] at h
    cases e with
    | tcpRespond text =>
      obtain rfl := Option.some.inj h
      exact .inl ⟨text, es, rfl, rfl, rfl, rfl⟩
    | _ =>
      obtain rfl := Option.some.inj h
      exact .inr ⟨rfl, rfl, rfl⟩

/-- An unmixed step keeps every reply with its connection. -/
lemma consistent_step (s : TcpSystem) (l : Label) (t : TcpSystem) (hs : s.Consistent)
    (hl : s.Unmixed l) (h : s.step l = some t) : t.Consistent := by
  cases l with
  | udp env m =>
    obtain ⟨-, h⟩ := Option.ite_none_right_eq_some.mp h
    exact hs.of_eq (handle_eq h)
  | tcp env =>
    obtain ⟨-, h⟩ := Option.ite_none_right_eq_some.mp h
    obtain ⟨⟨⟨n, m⟩, q⟩, -, h⟩ := Option.bind_eq_some_iff.mp h
    have heq := handle_eq h
    exact hs.of_eq heq
  | act =>
    rcases act_cases h with ⟨text, es, hagenda, hstage, hsent, hqueue⟩ | heq
    · refine ⟨fun n hn r hr => ?_, by simpa only [hstage] using hs.value,
        by simpa only [RepliesBelong, hsent] using hs.sent⟩
      rw [hstage] at hn
      have hself : s.requester = some n :=
        hl n (by simp [hn, ServerStage.unanswered]) (.tcpRespond text) (by simp [hagenda]) rfl
      cases hsend : s.respondQueue.sendToBack ⟨s.requester, text⟩ with
      | none =>
        rw [hqueue, hsend] at hr
        exact hs.queue n hn r hr
      | some q =>
        obtain ⟨-, hitems⟩ := BoundedQueue.sendToBack_eq_some_iff.mp hsend
        rw [hqueue, hsend, Option.getD_some, hitems] at hr
        rcases List.mem_append.mp hr with hr | hr
        · exact hs.queue n hn r hr
        · obtain rfl := List.mem_singleton.mp hr
          exact hself
    · exact hs.of_eq heq
  | request m =>
    unfold step at h
    cases hstage : s.stage with
    | waiting n r => simp [hstage] at h
    | accepting =>
      simp only [hstage, Option.some.injEq] at h
      subst h
      have hempty : s.respondQueue.items = [] := hl
      exact ⟨by simp [hempty], by simp, hs.sent⟩
  | poll =>
    unfold step at h
    cases hstage : s.stage with
    | accepting => simp [hstage] at h
    | waiting n v =>
      cases v with
      | some r => simp [hstage] at h
      | none =>
        simp only [hstage] at h
        cases hr : s.respondQueue.receive with
        | none =>
          simp only [hr, Option.some.injEq] at h
          exact h ▸ hs
        | some x =>
          obtain ⟨r, q⟩ := x
          simp only [hr, Option.some.injEq] at h
          subst h
          have hitems := BoundedQueue.receive_eq_some_iff.mp hr
          have hall := hs.queue n hstage
          rw [hitems] at hall
          refine ⟨fun n' hn' r' hr' => ?_, fun n' r' hn' => ?_, hs.sent⟩
          · obtain ⟨rfl, -⟩ := ServerStage.waiting.inj hn'
            exact hall r' (List.mem_cons_of_mem r hr')
          · obtain ⟨rfl, hval⟩ := ServerStage.waiting.inj hn'
            obtain ⟨-, hval⟩ := Option.ite_none_left_eq_some.mp hval
            obtain rfl := Option.some.inj hval
            exact hall r List.mem_cons_self
  | answer =>
    unfold step at h
    cases hstage : s.stage with
    | accepting => simp [hstage] at h
    | waiting n v =>
      simp only [hstage, Option.some.injEq] at h
      subst h
      refine ⟨by simp, by simp, ?_⟩
      intro x hx r hr
      rcases List.mem_append.mp hx with hx | hx
      · exact hs.sent x hx r hr
      · obtain rfl := List.mem_singleton.mp hx
        obtain rfl : v = some r := hr
        exact hs.value n r hstage

/-- **Replies stay with their request** in the runs in which no request finds an old reply waiting
and, while a connection waits, `command_handler` posts replies to its own request only: what is
sent back on a connection is `"timeout"` or was posted while the request received on it was being
handled. -/
theorem repliesBelong_of_along_unmixed {net : NetState} {ls : List Label} {t : TcpSystem}
    (h : StepRuns.run step (boot net) ls = some t)
    (hunmixed : StepRuns.Along step Unmixed (boot net) ls) :
    ∀ x ∈ t.sent, ∀ r ∈ x.2, r.requester = some x.1 := by
  have hboot : (boot net).Consistent :=
    ⟨by simp [boot], by simp [boot], by simp [boot, RepliesBelong]⟩
  exact (StepRuns.invariant_of_run_along consistent_step hboot hunmixed h).sent

/-- A `setMin` comes over UDP, a connection asks for the MAC address, and a second one for the
location while a STOP comes over UDP. -/
def askTwice : List Label :=
  [.udp .faithful (.ofText "2 setMin 10")] ++ List.replicate 3 .act ++
    [.request (.ofText "get_mac"), .tcp .faithful, .act, .poll, .answer,
      .request (.ofText "get_location"), .poll, .udp .faithful (.ofText "3 stop"), .act,
      .tcp .faithful, .poll, .act, .poll, .answer]

/-- Each connection is sent what was posted for it. -/
theorem repliesBelong_askTwice : ∃ t, StepRuns.run step (boot .fresh) askTwice = some t ∧
    t.sent = [(0, some ⟨some 0, "24:0A:C4:00:00:01"⟩),
      (1, some ⟨some 1, "location x: 1 y: 2 z: 3"⟩)] ∧
      ∀ x ∈ t.sent, ∀ r ∈ x.2, r.requester = some x.1 := by
  have hrun : (StepRuns.run step (boot .fresh) askTwice).any (fun t =>
      t.sent = [(0, some ⟨some 0, "24:0A:C4:00:00:01"⟩),
        (1, some ⟨some 1, "location x: 1 y: 2 z: 3"⟩)]) = true := by
    decide +kernel
  obtain ⟨t, ht, hsent⟩ := StepRuns.exists_run_of_any hrun
  exact ⟨t, ht, hsent, repliesBelong_of_along_unmixed ht (by decide +kernel)⟩

/-- A `set_location` message comes over UDP and is handled. -/
def setLocationOverUdp : List Label :=
  [.udp .faithful (.ofText "2 set_location 1 2 3"), .act, .act]

/-- After a `set_location` over UDP, the next connection that asks for the MAC address is sent
`"OK"`. -/
theorem not_repliesBelong_after_udp : ¬ ∀ (net : NetState) (ls : List Label) (t : TcpSystem),
    StepRuns.run step (boot net) ls = some t →
      ∀ x ∈ t.sent, ∀ r ∈ x.2, r.requester = some x.1 := by
  intro hall
  have hrun : (StepRuns.run step (boot .fresh) (setLocationOverUdp ++
      [.request (.ofText "get_mac"), .poll, .answer])).any (fun t =>
        t.sent = [(0, some ⟨none, "OK"⟩)]) = true := by
    decide +kernel
  obtain ⟨t, ht, hsent⟩ := StepRuns.exists_run_of_any hrun
  have hx := hall .fresh _ t ht (0, some ⟨none, "OK"⟩)
  rw [hsent] at hx
  exact absurd (hx List.mem_cons_self _ rfl) (by decide)

end TcpSystem

end Strand
