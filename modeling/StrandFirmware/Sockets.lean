import StrandFirmware.EventDispatch

/-!
# The sockets of the program

Five things hold sockets: the two datagram receivers, the listener of `tcp_task` and the client
that it serves, and `send_udp`.  The receivers close what they open on each way back to the top of
their loops, and `tcp_server_run` closes the client on each way out.  `send_udp` opens a socket for
its datagram and returns.

A run interleaves the three receiver tasks with the task of `app_main`, which creates them and is
the only one that calls `send_udp`: for the boot message, for an error of the driver, and for the
updates of `command_handler`.  Here it sends any number of them.
-/

namespace Strand

/-- `CONFIG_LWIP_MAX_SOCKETS`. -/
abbrev CONFIG_LWIP_MAX_SOCKETS : ℕ := 10

/-- What a socket is opened for. -/
inductive SocketOwner where
  /-- `sock` of `multicast_task`. -/
  | multicast
  /-- `sock` of `broadcast_task`. -/
  | broadcast
  /-- `listen_sock`. -/
  | listener
  /-- `sock` of `tcp_server_run`. -/
  | client
  /-- `sock` of `send_udp`. -/
  | datagram
deriving DecidableEq

instance : Fintype SocketOwner where
  elems := {.multicast, .broadcast, .listener, .client, .datagram}
  complete o := by cases o <;> decide

/-- Where `multicast_task` stands. -/
inductive MulticastStage where
  | notStarted
  /-- In front of `socket` in `create_multicast_ipv4_socket`. -/
  | opening
  /-- Between `socket` and the return of `create_multicast_ipv4_socket`. -/
  | configuring
  /-- In the loop that waits for datagrams. -/
  | receiving
deriving DecidableEq

/-- Where `broadcast_task` stands. -/
inductive BroadcastStage where
  | notStarted
  /-- In front of `socket`. -/
  | opening
  /-- In the loop that waits for datagrams. -/
  | receiving
  /-- The task function has returned. -/
  | ended
deriving DecidableEq

/-- Where `tcp_task` stands. -/
inductive TcpStage where
  | notStarted
  /-- In front of `socket` in `tcp_task_init`. -/
  | opening
  /-- In `tcp_server_run` up to `accept`; `listen_sock` is a socket or negative. -/
  | waiting (listener : Bool)
  /-- In `tcp_server_run` after `accept`. -/
  | serving
deriving DecidableEq

/-- Where the task of `app_main` stands. -/
inductive SenderStage where
  /-- Not in `send_udp`; the tasks have still to be created. -/
  | running (tasks : List Receiver)
  /-- In `send_udp` after `socket`, which returned a socket or not. -/
  | sending (socket : Bool)
deriving DecidableEq

/-- The tasks and their sockets. -/
structure Sockets where
  main : SenderStage
  multicast : MulticastStage
  broadcast : BroadcastStage
  tcp : TcpStage
  /-- How many sockets were opened and not closed. -/
  opened : SocketOwner → ℕ

namespace Sockets

/-- The steps of the tasks that concern sockets. -/
inductive Label where
  /-- `xTaskCreate` of a receiver task. -/
  | createTask
  /-- `socket` in `send_udp`. -/
  | sendSocket (succeeds : Bool)
  /-- `sendto` in `send_udp`, and the return. -/
  | sendReturn
  /-- `socket` in `create_multicast_ipv4_socket`. -/
  | multicastSocket (succeeds : Bool)
  /-- `bind`, `setsockopt` and the joining of the group. -/
  | multicastConfigure (succeeds : Bool)
  /-- `select` and `recvfrom` in `multicast_task`. -/
  | multicastReceive (succeeds : Bool)
  /-- `socket` in `broadcast_task`. -/
  | broadcastSocket (succeeds : Bool)
  /-- `recvfrom` and `sendto` in `broadcast_task`. -/
  | broadcastReceive (succeeds : Bool)
  /-- `socket` in `tcp_task_init`. -/
  | tcpSocket (succeeds : Bool)
  /-- `listen` and `accept` in `tcp_server_run`. -/
  | tcpAccept (succeeds : Bool)
  /-- The loop of `tcp_server_run` ends and the client's socket is closed. -/
  | tcpClose
deriving DecidableEq

/-- `app_main` has its three tasks to create. -/
def boot : Sockets where
  main := .running [.tcp, .multicast, .broadcast]
  multicast := .notStarted
  broadcast := .notStarted
  tcp := .notStarted
  opened _ := 0

/-- The number of open sockets. -/
def total (s : Sockets) : ℕ := ∑ o, s.opened o

/-- A call of `socket` or `accept` can have this outcome: it fails at any time, and succeeds only
if the platform has a socket left. -/
def CanOpen (s : Sockets) (succeeds : Bool) : Prop :=
  succeeds = true → s.total < CONFIG_LWIP_MAX_SOCKETS

instance (s : Sockets) (succeeds : Bool) : Decidable (s.CanOpen succeeds) :=
  inferInstanceAs (Decidable (_ → _))

/-- The open sockets after a call of `socket` or `accept`. -/
def openSocket (s : Sockets) (o : SocketOwner) (succeeds : Bool) : SocketOwner → ℕ :=
  Function.update s.opened o (s.opened o + succeeds.toNat)

/-- The open sockets after a `close`. -/
def closeSocket (s : Sockets) (o : SocketOwner) : SocketOwner → ℕ :=
  Function.update s.opened o (s.opened o - 1)

/-- A created task runs up to its first `socket`. -/
def startTask (s : Sockets) : Receiver → Sockets
  | .multicast => { s with multicast := .opening }
  | .broadcast => { s with broadcast := .opening }
  | .tcp => { s with tcp := .opening }

/-- One step. -/
def step (s : Sockets) : Label → Option Sockets
  | .createTask =>
    match s.main with
    | .running (r :: tasks) => some { s.startTask r with main := .running tasks }
    | .running [] | .sending _ => none
  | .sendSocket succeeds =>
    if s.main = .running [] ∧ s.CanOpen succeeds then
      some { s with main := .sending succeeds, opened := s.openSocket .datagram succeeds }
    else none
  | .sendReturn =>
    match s.main with
    | .sending _ => some { s with main := .running [] }
    | .running _ => none
  | .multicastSocket succeeds =>
    if s.multicast = .opening ∧ s.CanOpen succeeds then
      some { s with
        multicast := if succeeds then .configuring else .opening
        opened := s.openSocket .multicast succeeds }
    else none
  | .multicastConfigure succeeds =>
    if s.multicast = .configuring then
      if succeeds then some { s with multicast := .receiving }
      else some { s with multicast := .opening, opened := s.closeSocket .multicast }
    else none
  | .multicastReceive succeeds =>
    if s.multicast = .receiving then
      if succeeds then some s
      else some { s with multicast := .opening, opened := s.closeSocket .multicast }
    else none
  | .broadcastSocket succeeds =>
    -- without a socket the task leaves its loop; a failure of `bind` is only logged
    if s.broadcast = .opening ∧ s.CanOpen succeeds then
      some { s with
        broadcast := if succeeds then .receiving else .ended
        opened := s.openSocket .broadcast succeeds }
    else none
  | .broadcastReceive succeeds =>
    if s.broadcast = .receiving then
      if succeeds then some s
      else some { s with broadcast := .opening, opened := s.closeSocket .broadcast }
    else none
  | .tcpSocket succeeds =>
    -- `tcp_task` goes on without a socket, and with one that could not be bound
    if s.tcp = .opening ∧ s.CanOpen succeeds then
      some { s with tcp := .waiting succeeds, opened := s.openSocket .listener succeeds }
    else none
  | .tcpAccept true =>
    if s.tcp = .waiting true ∧ s.CanOpen true then
      some { s with tcp := .serving, opened := s.openSocket .client true }
    else none
  | .tcpAccept false =>
    match s.tcp with
    | .waiting _ => some s
    | .notStarted | .opening | .serving => none
  | .tcpClose =>
    if s.tcp = .serving then
      some { s with tcp := .waiting true, opened := s.closeSocket .client }
    else none

/-! ## The sockets in use -/

/-- The sockets that the tasks use where they stand. -/
def inUse (s : Sockets) : SocketOwner → ℕ
  | .multicast =>
    match s.multicast with
    | .configuring | .receiving => 1
    | .notStarted | .opening => 0
  | .broadcast =>
    match s.broadcast with
    | .receiving => 1
    | .notStarted | .opening | .ended => 0
  | .listener =>
    match s.tcp with
    | .waiting listener => listener.toNat
    | .serving => 1
    | .notStarted | .opening => 0
  | .client =>
    match s.tcp with
    | .serving => 1
    | .notStarted | .opening | .waiting _ => 0
  | .datagram =>
    match s.main with
    | .sending socket => socket.toNat
    | .running _ => 0

/-- No owner uses more than one socket. -/
lemma inUse_le_one (s : Sockets) (o : SocketOwner) : s.inUse o ≤ 1 := by
  cases o <;> simp only [inUse] <;> split <;> first | exact Bool.toNat_le _ | omega

/-- The task was not created yet. -/
def NotStarted (s : Sockets) : Receiver → Prop
  | .multicast => s.multicast = .notStarted
  | .broadcast => s.broadcast = .notStarted
  | .tcp => s.tcp = .notStarted

/-- What holds in every state: the receivers have open exactly the sockets in use, `send_udp` has
at least those, and a task that `app_main` has still to create does not run. -/
structure Consistent (s : Sockets) : Prop where
  opened_eq : ∀ o ≠ .datagram, s.opened o = s.inUse o
  le_opened : s.inUse .datagram ≤ s.opened .datagram
  notStarted : ∀ tasks, s.main = .running tasks → tasks.Nodup ∧ ∀ r ∈ tasks, s.NotStarted r

/-- At the start no socket is open. -/
lemma consistent_boot : boot.Consistent where
  opened_eq o _ := by cases o <;> rfl
  le_opened := le_rfl
  notStarted tasks h := by
    obtain rfl : [.tcp, .multicast, .broadcast] = tasks := SenderStage.running.inj h
    exact ⟨by decide, fun r _ => by cases r <;> rfl⟩

/-- A step of a receiver task that opens or closes the socket `o` and then uses what is open. -/
lemma Consistent.of_receiver_step {s t : Sockets} {o : SocketOwner} {n : ℕ} (hs : s.Consistent)
    (ho : o ≠ .datagram) (hmain : t.main = s.main)
    (hopened : t.opened = Function.update s.opened o n) (hself : t.inUse o = n)
    (hother : ∀ o' ≠ o, t.inUse o' = s.inUse o')
    (hstarted : ∀ r, s.NotStarted r → t.NotStarted r) : t.Consistent := by
  constructor
  · intro o' ho'
    rw [hopened]
    by_cases heq : o' = o
    · subst heq
      rw [Function.update_self, hself]
    · rw [Function.update_of_ne heq, hother o' heq, hs.opened_eq o' ho']
  · rw [hopened, Function.update_of_ne ho.symm, hother _ ho.symm]
    exact hs.le_opened
  · intro tasks h
    obtain ⟨hnodup, hidle⟩ := hs.notStarted tasks (hmain ▸ h)
    exact ⟨hnodup, fun r hr => hstarted r (hidle r hr)⟩

/-- A step of `multicast_task`. -/
lemma Consistent.set_multicast {s : Sockets} {stage : MulticastStage} {opened : SocketOwner → ℕ}
    {n : ℕ} (hs : s.Consistent) (hstarted : s.multicast ≠ .notStarted)
    (hopened : opened = Function.update s.opened .multicast n)
    (hn : inUse { s with multicast := stage, opened } .multicast = n) :
    Consistent { s with multicast := stage, opened } := by
  refine hs.of_receiver_step (by decide) rfl hopened hn ?_ ?_
  · intro o ho
    cases o <;> first | exact absurd rfl ho | rfl
  · intro r hr
    cases r with
    | multicast => exact absurd hr hstarted
    | broadcast | tcp => exact hr

/-- A step of `broadcast_task`. -/
lemma Consistent.set_broadcast {s : Sockets} {stage : BroadcastStage} {opened : SocketOwner → ℕ}
    {n : ℕ} (hs : s.Consistent) (hstarted : s.broadcast ≠ .notStarted)
    (hopened : opened = Function.update s.opened .broadcast n)
    (hn : inUse { s with broadcast := stage, opened } .broadcast = n) :
    Consistent { s with broadcast := stage, opened } := by
  refine hs.of_receiver_step (by decide) rfl hopened hn ?_ ?_
  · intro o ho
    cases o <;> first | exact absurd rfl ho | rfl
  · intro r hr
    cases r with
    | broadcast => exact absurd hr hstarted
    | multicast | tcp => exact hr

/-- A step of `tcp_task` with the socket `o`; the other one of its sockets is used as before. -/
lemma Consistent.set_tcp {s : Sockets} {stage : TcpStage} {opened : SocketOwner → ℕ}
    {o : SocketOwner} {n : ℕ} (hs : s.Consistent) (hstarted : s.tcp ≠ .notStarted)
    (ho : o ≠ .datagram) (hopened : opened = Function.update s.opened o n)
    (hn : inUse { s with tcp := stage, opened } o = n)
    (hother : ∀ o' ≠ o, inUse { s with tcp := stage, opened } o' = s.inUse o') :
    Consistent { s with tcp := stage, opened } := by
  refine hs.of_receiver_step ho rfl hopened hn hother ?_
  intro r hr
  cases r with
  | tcp => exact absurd hr hstarted
  | multicast | broadcast => exact hr

/-- A task that is created uses no socket yet. -/
lemma inUse_startTask {s : Sockets} {r : Receiver} (hr : s.NotStarted r) {o : SocketOwner}
    (ho : o ≠ .datagram) (main : SenderStage) :
    inUse { s.startTask r with main } o = s.inUse o := by
  cases r <;> cases o <;> first | exact absurd rfl ho | simp_all [startTask, inUse, NotStarted]

/-- Creating a task opens nothing. -/
lemma opened_startTask (s : Sockets) (r : Receiver) : (s.startTask r).opened = s.opened := by
  cases r <;> rfl

/-- Creating a task leaves the others alone. -/
lemma notStarted_startTask {s : Sockets} {r r' : Receiver} (hne : r' ≠ r)
    (hr' : s.NotStarted r') (main : SenderStage) :
    NotStarted { s.startTask r with main } r' := by
  cases r <;> cases r' <;> first | exact absurd rfl hne | exact hr'

/-- Creating a task keeps the account. -/
lemma Consistent.createTask {s : Sockets} {r : Receiver} {tasks : List Receiver}
    (hs : s.Consistent) (hmain : s.main = .running (r :: tasks)) :
    Consistent { s.startTask r with main := .running tasks } := by
  obtain ⟨hnodup, hidle⟩ := hs.notStarted _ hmain
  obtain ⟨hr, hnodup⟩ := List.nodup_cons.mp hnodup
  constructor
  · intro o ho
    rw [inUse_startTask (hidle r List.mem_cons_self) ho, ← hs.opened_eq o ho]
    exact congrFun (opened_startTask s r) o
  · exact Nat.zero_le _
  · intro tasks' h
    obtain rfl := SenderStage.running.inj h
    refine ⟨hnodup, ?_⟩
    intro r' hr'
    have hne : r' ≠ r := by
      rintro rfl
      exact hr hr'
    exact notStarted_startTask hne (hidle r' (List.mem_cons_of_mem _ hr')) _

/-- A step of `send_udp`. -/
lemma Consistent.set_main {s : Sockets} {main : SenderStage} {opened : SocketOwner → ℕ} {n : ℕ}
    (hs : s.Consistent) (hopened : opened = Function.update s.opened .datagram n)
    (hn : inUse { s with main, opened } .datagram ≤ n)
    (htasks : ∀ tasks, main = .running tasks → tasks = []) :
    Consistent { s with main, opened } := by
  subst hopened
  constructor
  · intro o ho
    have hinUse : inUse { s with main, opened := Function.update s.opened .datagram n } o =
        s.inUse o := by
      cases o <;> first | exact absurd rfl ho | rfl
    rw [hinUse, ← hs.opened_eq o ho]
    exact Function.update_of_ne ho ..
  · simpa using hn
  · intro tasks h
    obtain rfl := htasks tasks h
    exact ⟨List.nodup_nil, fun r hr => absurd hr List.not_mem_nil⟩

/-- Every step keeps the account of the open sockets. -/
lemma consistent_step (s : Sockets) (l : Label) (t : Sockets) (hs : s.Consistent)
    (h : s.step l = some t) : t.Consistent := by
  have hmulticast := hs.opened_eq .multicast (by decide)
  have hbroadcast := hs.opened_eq .broadcast (by decide)
  have hlistener := hs.opened_eq .listener (by decide)
  have hclient := hs.opened_eq .client (by decide)
  cases l with
  | createTask =>
    simp only [step] at h
    split at h
    next r tasks hmain =>
      obtain rfl := Option.some.inj h
      exact hs.createTask hmain
    all_goals simp at h
  | sendSocket succeeds =>
    obtain ⟨-, rfl⟩ := StepRuns.of_guarded h
    exact hs.set_main rfl (Nat.le_add_left _ _) (by simp)
  | sendReturn =>
    simp only [step] at h
    split at h
    next socket hmain =>
      obtain rfl := Option.some.inj h
      exact hs.set_main (Function.update_eq_self ..).symm (Nat.zero_le _) (by simp [eq_comm])
    next => simp at h
  | multicastSocket succeeds =>
    obtain ⟨⟨hstage, -⟩, rfl⟩ := StepRuns.of_guarded h
    apply hs.set_multicast (by simp [hstage]) rfl
    cases succeeds <;> simp [inUse, hmulticast, hstage]
  | multicastConfigure succeeds =>
    obtain ⟨hstage, h⟩ := Option.ite_none_right_eq_some.mp h
    cases succeeds with
    | true =>
      obtain rfl := Option.some.inj h
      apply hs.set_multicast (by simp [hstage]) (Function.update_eq_self ..).symm
      simp [inUse, hmulticast, hstage]
    | false =>
      obtain rfl := Option.some.inj h
      apply hs.set_multicast (by simp [hstage]) rfl
      simp [inUse, hmulticast, hstage]
  | multicastReceive succeeds =>
    obtain ⟨hstage, h⟩ := Option.ite_none_right_eq_some.mp h
    cases succeeds with
    | true =>
      obtain rfl := Option.some.inj h
      exact hs
    | false =>
      obtain rfl := Option.some.inj h
      apply hs.set_multicast (by simp [hstage]) rfl
      simp [inUse, hmulticast, hstage]
  | broadcastSocket succeeds =>
    obtain ⟨⟨hstage, -⟩, rfl⟩ := StepRuns.of_guarded h
    apply hs.set_broadcast (by simp [hstage]) rfl
    cases succeeds <;> simp [inUse, hbroadcast, hstage]
  | broadcastReceive succeeds =>
    obtain ⟨hstage, h⟩ := Option.ite_none_right_eq_some.mp h
    cases succeeds with
    | true =>
      obtain rfl := Option.some.inj h
      exact hs
    | false =>
      obtain rfl := Option.some.inj h
      apply hs.set_broadcast (by simp [hstage]) rfl
      simp [inUse, hbroadcast, hstage]
  | tcpSocket succeeds =>
    obtain ⟨⟨hstage, -⟩, rfl⟩ := StepRuns.of_guarded h
    refine hs.set_tcp (o := .listener) (by simp [hstage]) (by decide) rfl ?_ ?_
    · simp [inUse, hlistener, hstage]
    · intro o ho
      cases o <;> simp_all [inUse]
  | tcpAccept succeeds =>
    cases succeeds with
    | true =>
      obtain ⟨⟨hstage, -⟩, rfl⟩ := StepRuns.of_guarded h
      refine hs.set_tcp (o := .client) (by simp [hstage]) (by decide) rfl ?_ ?_
      · simp [inUse, hclient, hstage]
      · intro o ho
        cases o <;> simp_all [inUse]
    | false =>
      simp only [step] at h
      split at h
      next =>
        obtain rfl := Option.some.inj h
        exact hs
      all_goals simp at h
  | tcpClose =>
    obtain ⟨hstage, rfl⟩ := StepRuns.of_guarded h
    refine hs.set_tcp (o := .client) (by simp [hstage]) (by decide) rfl ?_ ?_
    · simp [inUse, hclient, hstage]
    · intro o ho
      cases o <;> simp_all [inUse]

/-! ## The bound -/

/-- At most one socket for each of the five owners, and so at most five. -/
def OnePerOwner (s : Sockets) : Prop := (∀ o, s.opened o ≤ 1) ∧ s.total ≤ 5

/-- At most one socket for each owner, and one for a datagram only while it is being sent. -/
def Bounded (s : Sockets) : Prop :=
  s.OnePerOwner ∧ (0 < s.opened .datagram → s.main = .sending true)

/-- `send_udp` does not get a socket while one of its sockets is open. -/
def FirstSocket (s : Sockets) : Label → Prop
  | .sendSocket succeeds => succeeds = true → s.opened .datagram = 0
  | _ => True

instance (s : Sockets) : (l : Label) → Decidable (s.FirstSocket l)
  | .sendSocket _ => inferInstanceAs (Decidable (_ → _))
  | .createTask | .sendReturn | .multicastSocket _ | .multicastConfigure _ | .multicastReceive _
  | .broadcastSocket _ | .broadcastReceive _ | .tcpSocket _ | .tcpAccept _ | .tcpClose =>
    .isTrue trivial

/-- `send_udp` does not return after it got a socket. -/
def KeepsSending (s : Sockets) : Label → Prop
  | .sendReturn => s.main ≠ .sending true
  | _ => True

instance (s : Sockets) : (l : Label) → Decidable (s.KeepsSending l)
  | .sendReturn => inferInstanceAs (Decidable (_ ≠ _))
  | .createTask | .sendSocket _ | .multicastSocket _ | .multicastConfigure _
  | .multicastReceive _ | .broadcastSocket _ | .broadcastReceive _ | .tcpSocket _ | .tcpAccept _
  | .tcpClose => .isTrue trivial

/-- The receivers never have more than one socket each. -/
lemma Consistent.onePerOwner_iff {s : Sockets} (hs : s.Consistent) :
    s.OnePerOwner ↔ s.opened .datagram ≤ 1 := by
  constructor
  · intro h
    exact h.1 .datagram
  · intro hdatagram
    have hall : ∀ o, s.opened o ≤ 1 := by
      intro o
      by_cases ho : o = .datagram
      · exact ho ▸ hdatagram
      · exact (hs.opened_eq o ho).trans_le (s.inUse_le_one o)
    refine ⟨hall, ?_⟩
    calc s.total ≤ ∑ _o : SocketOwner, 1 := Finset.sum_le_sum fun o _ => hall o
      _ = 5 := rfl

/-- The sockets are bounded exactly when `send_udp` has open only what it uses. -/
lemma Consistent.bounded_iff {s : Sockets} (hs : s.Consistent) :
    s.Bounded ↔ s.opened .datagram ≤ s.inUse .datagram := by
  have hle := s.inUse_le_one .datagram
  rw [Bounded, hs.onePerOwner_iff]
  constructor
  · rintro ⟨hone, hsending⟩
    by_cases hzero : 0 < s.opened .datagram
    · simpa [inUse, hsending hzero] using hone
    · omega
  · intro h
    refine ⟨h.trans hle, ?_⟩
    intro hpos
    have hused : 0 < s.inUse .datagram := hpos.trans_le h
    cases hmain : s.main with
    | running tasks => simp [inUse, hmain] at hused
    | sending socket => cases socket <;> simp_all [inUse]

/-- What a step does to the sockets of `send_udp`: it gets one or not, it returns, or another task
moves. -/
lemma datagram_cases {s t : Sockets} {l : Label} (h : s.step l = some t) :
    (∃ succeeds, l = .sendSocket succeeds ∧ s.inUse .datagram = 0 ∧
        t.inUse .datagram = succeeds.toNat ∧
        t.opened .datagram = s.opened .datagram + succeeds.toNat) ∨
      (∃ socket, l = .sendReturn ∧ s.main = .sending socket ∧ t.inUse .datagram = 0 ∧
        t.opened = s.opened) ∨
      ((∀ succeeds, l ≠ .sendSocket succeeds) ∧ l ≠ .sendReturn ∧
        t.inUse .datagram = s.inUse .datagram ∧ t.opened .datagram = s.opened .datagram) := by
  cases l with
  | createTask =>
    refine .inr (.inr ⟨by simp, by simp, ?_⟩)
    simp only [step] at h
    split at h
    next r tasks hmain =>
      obtain rfl := Option.some.inj h
      exact ⟨by simp [inUse, hmain], congrFun (opened_startTask s r) _⟩
    all_goals simp at h
  | sendSocket succeeds =>
    obtain ⟨⟨hmain, -⟩, rfl⟩ := StepRuns.of_guarded h
    exact .inl ⟨succeeds, rfl, by simp [inUse, hmain], rfl, by simp [openSocket]⟩
  | sendReturn =>
    simp only [step] at h
    split at h
    next socket hmain =>
      obtain rfl := Option.some.inj h
      exact .inr (.inl ⟨socket, rfl, hmain, rfl, rfl⟩)
    next => simp at h
  | tcpAccept succeeds =>
    refine .inr (.inr ⟨by simp, by simp, ?_⟩)
    cases succeeds with
    | true =>
      obtain ⟨-, rfl⟩ := StepRuns.of_guarded h
      exact ⟨rfl, rfl⟩
    | false =>
      simp only [step] at h
      split at h
      next =>
        obtain rfl := Option.some.inj h
        exact ⟨rfl, rfl⟩
      all_goals simp at h
  | multicastConfigure succeeds | multicastReceive succeeds | broadcastReceive succeeds =>
    refine .inr (.inr ⟨by simp, by simp, ?_⟩)
    obtain ⟨-, h⟩ := Option.ite_none_right_eq_some.mp h
    cases succeeds <;>
    · obtain rfl := Option.some.inj h
      exact ⟨rfl, rfl⟩
  | multicastSocket succeeds | broadcastSocket succeeds | tcpSocket succeeds | tcpClose =>
    refine .inr (.inr ⟨by simp, by simp, ?_⟩)
    obtain ⟨-, rfl⟩ := StepRuns.of_guarded h
    exact ⟨rfl, rfl⟩

/-- A step keeps one socket for each owner exactly when it is no second one of `send_udp`. -/
lemma onePerOwner_step_iff (s : Sockets) (l : Label) (t : Sockets) (hs : s.Consistent)
    (h : s.step l = some t) : t.OnePerOwner ↔ s.OnePerOwner ∧ s.FirstSocket l := by
  rw [(consistent_step s l t hs h).onePerOwner_iff, hs.onePerOwner_iff]
  obtain ⟨succeeds, rfl, -, -, hopened⟩ | ⟨socket, rfl, -, -, hopened⟩ | ⟨hsend, -, -, hopened⟩ :=
    datagram_cases h
  · cases succeeds with
    | true =>
      simp only [FirstSocket, hopened, Bool.toNat_true, forall_const]
      omega
    | false => simp [FirstSocket, hopened]
  · simp [FirstSocket, hopened]
  · have hfirst : s.FirstSocket l := by
      cases l <;> first | exact absurd rfl (hsend _) | trivial
    simp [hfirst, hopened]

/-- A step keeps the sockets bounded exactly when it is no return of `send_udp` with a socket. -/
lemma bounded_step_iff (s : Sockets) (l : Label) (t : Sockets) (hs : s.Consistent)
    (h : s.step l = some t) : t.Bounded ↔ s.Bounded ∧ s.KeepsSending l := by
  have hle := hs.le_opened
  rw [(consistent_step s l t hs h).bounded_iff, hs.bounded_iff]
  obtain ⟨succeeds, rfl, hused, hused', hopened⟩ | ⟨socket, rfl, hmain, hused', hopened⟩ |
    ⟨-, hreturn, hused', hopened⟩ := datagram_cases h
  · simp only [KeepsSending, hused, hused', hopened, and_true]
    omega
  · have hused : s.inUse .datagram = socket.toNat := by simp [inUse, hmain]
    rw [hused] at hle ⊢
    rw [hused', hopened, KeepsSending, hmain]
    cases socket with
    | true =>
      simp only [Bool.toNat_true] at hle ⊢
      simp only [ne_eq, not_true_eq_false, and_false, iff_false]
      omega
    | false => simp
  · have hkeeps : s.KeepsSending l := by
      cases l <;> first | exact absurd rfl hreturn | trivial
    simp [hkeeps, hused', hopened]

/-- **Sockets are bounded** exactly in the runs in which no call of `send_udp` that got a socket
returns; and no owner has two sockets exactly in the runs in which `send_udp` gets no socket after
its first one. -/
theorem bounded_iff_along {ls : List Label} {s : Sockets}
    (h : StepRuns.run step boot ls = some s) :
    (s.Bounded ↔ StepRuns.Along step KeepsSending boot ls) ∧
      (s.OnePerOwner ↔ StepRuns.Along step FirstSocket boot ls) := by
  have hboot : boot.Bounded := consistent_boot.bounded_iff.mpr le_rfl
  have hbounded := StepRuns.iff_along_of_run consistent_step bounded_step_iff consistent_boot h
  have hone := StepRuns.iff_along_of_run consistent_step onePerOwner_step_iff consistent_boot h
  rw [and_iff_right hboot] at hbounded
  rw [and_iff_right hboot.1] at hone
  exact ⟨hbounded, hone⟩

/-- Every call of `send_udp` that gets a socket leaves it open: its sockets are as many as such
calls. -/
theorem opened_datagram_run {ls : List Label} {s t : Sockets}
    (h : StepRuns.run step s ls = some t) :
    t.opened .datagram = s.opened .datagram + ls.count (.sendSocket true) := by
  induction ls generalizing s with
  | nil =>
    obtain rfl : s = t := by simpa using h
    rfl
  | cons l ls ih =>
    obtain ⟨u, hu, hrest⟩ := StepRuns.run_cons_eq_some_iff.mp h
    rw [ih hrest, List.count_cons]
    obtain ⟨succeeds, rfl, -, -, hopened⟩ | ⟨socket, rfl, -, -, hopened⟩ |
      ⟨hsend, -, -, hopened⟩ := datagram_cases hu
    · cases succeeds with
      | true =>
        rw [hopened]
        simp only [Bool.toNat_true, beq_self_eq_true, if_true]
        omega
      | false => simp [hopened]
    · simp [hopened]
    · simp [hopened, hsend]

/-- The tasks are created, and `app_main` is sending the boot message. -/
def sendingBoot : List Label :=
  [.createTask, .createTask, .createTask, .sendSocket true]

/-- While the boot message is being sent the sockets are bounded. -/
theorem bounded_sendingBoot : ∃ s, StepRuns.run step boot sendingBoot = some s ∧
    s.Bounded ∧ s.OnePerOwner := by
  obtain ⟨s, hs⟩ : ∃ s, StepRuns.run step boot sendingBoot = some s := ⟨_, rfl⟩
  have hiff := bounded_iff_along hs
  exact ⟨s, hs, hiff.1.mpr (by decide), hiff.2.mpr (by decide)⟩

/-- All receivers are ready, a client is connected, and a second message is being sent after the
boot message. -/
def sixSockets : List Label :=
  sendingBoot ++ [.sendReturn, .tcpSocket true, .multicastSocket true, .multicastConfigure true,
    .broadcastSocket true, .tcpAccept true, .sendSocket true]

/-- The second message has the sixth socket, and the boot message alone leaves one behind. -/
theorem not_bounded_sixSockets :
    (¬ ∀ (ls : List Label) (s : Sockets), StepRuns.run step boot ls = some s → s.total ≤ 5) ∧
      ¬ ∀ (ls : List Label) (s : Sockets), StepRuns.run step boot ls = some s →
        0 < s.opened .datagram → s.main = .sending true := by
  constructor
  · intro hall
    exact absurd (hall sixSockets _ rfl) (by decide)
  · intro hall
    exact absurd (hall (sendingBoot ++ [.sendReturn]) _ rfl (by decide)) (by decide)

end Sockets

end Strand
