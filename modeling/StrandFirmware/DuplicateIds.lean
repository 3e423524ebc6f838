import StrandFirmware.CommandIsolation
import StrandFirmware.Library.RepeatFilter

/-!
# Repeated ids

A datagram starts with an id.  `get_command_line` compares it with `multicast_id`, the id of the
last datagram, and overwrites the command word with `duplicate` when they are equal.  Both datagram
channels share this one variable, so a repeat is noticed only if nothing else came in between, and
what is compared is the number that `atoi` makes of the id word, against 1 for the first datagram.
-/

namespace Strand

open CString MemoryFault

/-! ## The id of a datagram -/

/-- The number in the id word of a message in memory, if there is an id word. -/
def idValue (stack : Stack) (a : List Byte) : Except MemoryFault ℤ :=
  (readId a).map fun r => r.id stack

/-- It is the number in the first word. -/
lemma eq_idNumber_of_idValue {stack : Stack} {a : List Byte} {v : ℤ}
    (h : idValue stack a = .ok v) : v = idNumber stack (idWord a) := by
  obtain ⟨r, hr, rfl⟩ := map_eq_ok_iff.mp h
  exact id_of_readId hr stack

/-- A handled message leaves its id, if it has one, in `multicast_id`. -/
lemma multicastId_handle {s t : NetState} {env : Environment} {r : Receiver} {m : Message}
    (h : s.handle (env, r, m) = some t) :
    (r.commandType = 0 ∧ ∃ rd, readId m.toList = .ok rd ∧
        t.multicastId = BitVec.ofInt 64 (rd.id env.stack)) ∨
      (r.commandType ≠ 0 ∧ t.multicastId = s.multicastId) := by
  obtain ⟨n, t', id', -, -, hline, rfl⟩ := NetState.handle_cases h
  by_cases htype : r.commandType = 0
  · rw [htype] at hline
    obtain ⟨rd, -, hrd, -, -, rfl⟩ := getCommandLine_datagram hline
    exact .inl ⟨htype, rd, hrd, rfl⟩
  · exact .inr ⟨htype, (getCommandLine_other env.stack env.stack _ _ _ htype).2 _ _ _ hline⟩

/-! ## Datagrams taken for a repeat

`get_command_line` sets `multicast_id` before it copies the words of a datagram, so a datagram
counts for the next one whether or not its words fit the table.  What is written outside the table
or behind the message is not followed here; only a null pointer ends a run. -/

/-- A message as `get_command_line` finds it: the bytes behind `buff`, the channel it came over, and
the message in memory with what follows its item. -/
abbrev Call := Stack × Receiver × List Byte

/-- What a call of `get_command_line` leaves in `multicast_id`; `none` when it is given no id, or a
repeated id without a command word, and uses a null pointer. -/
def idAfter (multicastId : BitVec 64) : Call → Option (BitVec 64)
  | (stack, r, a) =>
    if r.commandType = 0 then
      match readId a with
      | .error _ => none
      | .ok rd =>
        if BitVec.ofInt 64 (rd.id stack) = multicastId ∧ rd.token = none then none
        else some (BitVec.ofInt 64 (rd.id stack))
    else some multicastId

/-- Every call that returns leaves this id. -/
lemma idAfter_of_getCommandLine {stack : Stack} {r : Receiver} {a : List Byte} {t t' : CommandLine}
    {id id' : BitVec 64} {n : ℕ}
    (h : getCommandLine stack t id a r.commandType = .ok (n, t', id')) :
    idAfter id (stack, r, a) = some id' := by
  unfold idAfter
  by_cases htype : r.commandType = 0
  · rw [htype] at h
    obtain ⟨rd, b, hrd, hmark, -, rfl⟩ := getCommandLine_datagram h
    have hno : ¬ (BitVec.ofInt 64 (rd.id stack) = id ∧ rd.token = none) := by
      rintro ⟨hid, htoken⟩
      simp [markDuplicate, hid, htoken] at hmark
    simp [htype, hrd, hno]
  · simp only [if_neg htype, (getCommandLine_other stack stack _ _ _ htype).2 _ _ _ h]

/-- So after messages that `command_handler` handled, `multicast_id` is what these calls leave. -/
lemma run_idAfter_of_handle {s t : NetState} {xs : List (Environment × Receiver × Message)}
    (hrun : StepRuns.run NetState.handle s xs = some t) :
    StepRuns.run idAfter s.multicastId
      (xs.map fun x => (x.1.stack, x.2.1, x.2.2.toList)) = some t.multicastId := by
  induction xs generalizing s with
  | nil =>
    obtain rfl : s = t := by simpa using hrun
    rfl
  | cons x xs ih =>
    obtain ⟨env, r, m⟩ := x
    obtain ⟨u, hu, hrest⟩ := StepRuns.run_cons_eq_some_iff.mp hrun
    obtain ⟨n, t', id', b, s', hline, rfl⟩ := NetState.handle_cases hu
    exact StepRuns.run_cons_eq_some_iff.mpr ⟨id', idAfter_of_getCommandLine hline, ih hrest⟩

/-- The number in the last id word of some messages, `v` being the one before them. -/
def lastIdValue (v : ℤ) : List Call → ℤ
  | [] => v
  | (stack, r, a) :: xs =>
    if r.commandType = 0 then lastIdValue ((idValue stack a).toOption.getD v) xs
    else lastIdValue v xs

/-- After any messages `multicast_id` is the number in the last id word. -/
lemma run_idAfter {id : BitVec 64} {v : ℤ} {xs : List Call}
    (hrun : StepRuns.run idAfter (BitVec.ofInt 64 v) xs = some id) :
    id = BitVec.ofInt 64 (lastIdValue v xs) := by
  induction xs generalizing v with
  | nil => exact (Option.some.inj hrun).symm
  | cons x xs ih =>
    obtain ⟨stack, r, a⟩ := x
    obtain ⟨u, hu, hrest⟩ := StepRuns.run_cons_eq_some_iff.mp hrun
    unfold idAfter at hu
    rw [lastIdValue]
    by_cases htype : r.commandType = 0
    · simp only [if_pos htype] at hu ⊢
      rcases hrd : readId a with e | rd
      · simp [hrd] at hu
      · simp only [hrd, Option.ite_none_left_eq_some, Option.some.injEq] at hu
        obtain ⟨-, rfl⟩ := hu
        simpa [idValue, hrd, Except.map, Except.toOption] using ih hrest
    · simp only [if_neg htype, Option.some.injEq] at hu ⊢
      exact ih (hu ▸ hrest)

/-- The conversion of an id is an `int`. -/
lemma ReadId.id_mem (r : ReadId) (stack : Stack) :
    -2 ^ 31 ≤ r.id stack ∧ r.id stack < 2 ^ 31 :=
  atoi_mem (stack.atoi_append r.buff.toList)

/-- The number in an id word is a 32-bit `int`. -/
lemma idValue_mem {stack : Stack} {a : List Byte} {v : ℤ} (h : idValue stack a = .ok v) :
    -2 ^ 31 ≤ v ∧ v < 2 ^ 31 := by
  obtain ⟨r, -, rfl⟩ := map_eq_ok_iff.mp h
  exact r.id_mem stack

/-- As 64-bit numbers two `int`s are equal only if they are the same. -/
lemma ofInt_eq_ofInt_iff {v w : ℤ} (hv : -2 ^ 31 ≤ v ∧ v < 2 ^ 31) (hw : -2 ^ 31 ≤ w ∧ w < 2 ^ 31) :
    BitVec.ofInt 64 v = BitVec.ofInt 64 w ↔ v = w := by
  refine ⟨fun h => ?_, fun h => congrArg _ h⟩
  have h' := congrArg BitVec.toInt h
  rwa [BitVec.toInt_ofInt, BitVec.toInt_ofInt, Int.bmod_eq_of_le (by omega) (by omega),
    Int.bmod_eq_of_le (by omega) (by omega)] at h'

/-- `get_command_line` takes the message for a repeat: the number in its id word is
`multicast_id`. -/
def TreatsAsDuplicate (multicastId : BitVec 64) (stack : Stack) (a : List Byte) : Prop :=
  ∃ r, readId a = .ok r ∧ BitVec.ofInt 64 (r.id stack) = multicastId

instance (multicastId : BitVec 64) (stack : Stack) (a : List Byte) :
    Decidable (TreatsAsDuplicate multicastId stack a) :=
  match h : readId a with
  | .ok r => decidable_of_iff (BitVec.ofInt 64 (r.id stack) = multicastId) (by
      simp [TreatsAsDuplicate, h])
  | .error e => .isFalse (by simp [TreatsAsDuplicate, h])

/-- The number in the last id word is an `int`. -/
lemma lastIdValue_mem {v : ℤ} (hv : -2 ^ 31 ≤ v ∧ v < 2 ^ 31) (xs : List Call) :
    -2 ^ 31 ≤ lastIdValue v xs ∧ lastIdValue v xs < 2 ^ 31 := by
  induction xs generalizing v with
  | nil => exact hv
  | cons x xs ih =>
    obtain ⟨stack, r, a⟩ := x
    unfold lastIdValue
    split
    · apply ih
      cases ha : idValue stack a with
      | error e => exact hv
      | ok w => exact idValue_mem ha
    · exact ih hv

/-- **Which datagrams are taken for a repeat**: those whose id word has the same number as that of
the datagram before, or the number 1 for the first datagram since the start. -/
theorem treatsAsDuplicate_iff {xs : List Call} {id : BitVec 64}
    (hrun : StepRuns.run idAfter 1 xs = some id) (stack : Stack) (a : List Byte) :
    ¬ TreatsAsDuplicate id stack a ↔ idValue stack a ≠ .ok (lastIdValue 1 xs) := by
  refine not_congr ?_
  unfold TreatsAsDuplicate
  rw [run_idAfter (v := 1) hrun]
  constructor
  · rintro ⟨r, hr, h⟩
    have ha : idValue stack a = .ok (r.id stack) := by simp [idValue, hr, Except.map]
    rw [ha, (ofInt_eq_ofInt_iff (idValue_mem ha) (lastIdValue_mem (by decide) xs)).mp h]
  · intro h
    obtain ⟨r, hr, h⟩ := map_eq_ok_iff.mp h
    exact ⟨r, hr, congrArg _ h⟩

/-- The id word occurs in none of the datagrams before. -/
def FreshId (xs : List (Environment × Receiver × Message)) (m : Message) : Prop :=
  ∀ x ∈ xs, x.2.1.commandType = 0 → idWord x.2.2.toList ≠ idWord m.toList

instance (xs : List (Environment × Receiver × Message)) (m : Message) : Decidable (FreshId xs m) :=
  inferInstanceAs (Decidable (∀ x ∈ xs, _ → _))

/-- Datagrams with these texts. -/
def datagrams (texts : List String) : List (Environment × Receiver × Message) :=
  texts.map fun text => (.faithful, .multicast, .ofText text)

/-- A datagram of 41 words, one more than the table has slots. -/
def crowdedDatagram : List Byte := ascii "2" ++ (List.replicate 41 [space, 120]).flatten ++ [0]

/-- After a datagram with the id 2, the words of which do not fit the table, the datagram `3 stop`
is no repeat. -/
theorem not_treatsAsDuplicate_three :
    ∃ id, StepRuns.run idAfter 1 [(.clear, .multicast, crowdedDatagram)] = some id ∧
      ¬ TreatsAsDuplicate id .clear (Message.ofText "3 stop").toList := by
  have hrun : (StepRuns.run idAfter 1
      [(.clear, .multicast, crowdedDatagram)]).isSome = true := by
    decide +kernel
  obtain ⟨id, hid⟩ := Option.isSome_iff_exists.mp hrun
  exact ⟨id, hid, (treatsAsDuplicate_iff hid .clear _).mpr (by decide +kernel)⟩

/-- The datagram with the text `last` has a new id word after the others, is taken for a repeat all
the same, and does nothing. -/
def DropsFresh (texts : List String) (last : String) : Prop :=
  FreshId (datagrams texts) (.ofText last) ∧
    ∃ s, StepRuns.run NetState.handle .fresh (datagrams texts) = some s ∧
      TreatsAsDuplicate s.multicastId .clear (Message.ofText last).toList ∧
      s.effects .faithful .multicast (.ofText last) = .ok []

/-- How a dropped datagram is found by running the handler. -/
lemma dropsFresh_of_run {texts : List String} {last : String}
    (hfresh : FreshId (datagrams texts) (.ofText last))
    (hrun : (StepRuns.run NetState.handle .fresh (datagrams texts)).any (fun s =>
      TreatsAsDuplicate s.multicastId .clear (Message.ofText last).toList ∧
        s.effects .faithful .multicast (.ofText last) = .ok []) = true) :
    DropsFresh texts last := by
  obtain ⟨s, hs, hend⟩ := StepRuns.exists_run_of_any hrun
  exact ⟨hfresh, s, hs, hend⟩

/-- An id of 100 digits, which fill the buffer that it is copied to. -/
def longId : String := String.ofList (List.replicate 100 '9')

/-- A command is dropped although its id word is new: an id of 1 in the first datagram after the
start, an id that is not a number after another such id, and ids above the range of `int`, one of
them of 100 digits, after another one. -/
theorem not_treatsAsDuplicate_fresh :
    DropsFresh [] "1 stop" ∧ DropsFresh ["abc stop"] "xyz stop" ∧
      DropsFresh ["3000000000 stop"] "4000000000 stop" ∧
        DropsFresh ["3000000000 stop"] (longId ++ " stop") := by
  refine ⟨dropsFresh_of_run ?_ ?_, dropsFresh_of_run ?_ ?_, dropsFresh_of_run ?_ ?_,
    dropsFresh_of_run ?_ ?_⟩ <;> decide +kernel

/-! ## The duplicate branch -/

/-- `command_handler` takes the branch `duplicate` for the message. -/
def NetState.takesDuplicateBranch (s : NetState) (stack : Stack) (m : Message) (type : ℤ) : Bool :=
  match getCommandLine stack s.commandLine s.multicastId m.toList type with
  | .ok (_, t, _) => duplicateBranch.test t = .ok true
  | .error _ => false

/-- The command word of the message is `duplicate`. -/
def saysDuplicate (m : Message) : Bool :=
  match readId m.toList with
  | .ok ⟨_, some p, buf, _⟩ =>
    match strncpy COMMAND_SLOT_SIZE (buf.drop p) with
    | .ok w => duplicateBranch.accepts w
    | .error _ => false
  | _ => false

/-- The first word that is copied goes into the first slot. -/
lemma rows_copyWords {t t' : CommandLine} {p n : ℕ} {b : List Byte} {next : Option ℕ}
    (h : copyWords t 0 (some p) b next = .ok (n, t')) :
    ∃ w rest, strncpy COMMAND_SLOT_SIZE (b.drop p) = .ok w ∧ t'.rows = w :: rest := by
  rw [copyWords_eq] at h
  obtain ⟨rows, hrows, h⟩ := bind_eq_ok_iff.mp h
  obtain ⟨-, rfl⟩ := Prod.mk.inj (Except.ok.inj h)
  have hloop := mapError_eq_ok_iff.mp hrows
  have hlen := add_length_wordRows_le hloop (Nat.zero_le _)
  obtain ⟨w, rest, hw, rfl⟩ := exists_wordRows_eq_cons hloop
  exact ⟨w, _, hw, by rw [rows_fill hlen]; rfl⟩

/-- Whether a command is taken for a repeat is decided by its id, unless its command word is
`duplicate` anyway. -/
lemma takesDuplicateBranch_eq {s t : NetState} {env : Environment} {r : Receiver} {m : Message}
    {rd : ReadId} (htype : r.commandType = 0) (hrd : readId m.toList = .ok rd)
    (htoken : rd.token.isSome = true) (h : s.handle (env, r, m) = some t) :
    s.takesDuplicateBranch env.stack m r.commandType =
      (decide (BitVec.ofInt 64 (rd.id env.stack) = s.multicastId) || saysDuplicate m) := by
  obtain ⟨p, hp⟩ := Option.isSome_iff_exists.mp htoken
  obtain ⟨n, t', id', -, -, hline, -⟩ := NetState.handle_cases h
  unfold NetState.takesDuplicateBranch
  rw [htype] at hline ⊢
  rw [hline]
  obtain ⟨rd', b, hrd', hmark, hcopy, -⟩ := getCommandLine_datagram hline
  obtain rfl : rd = rd' := Except.ok.inj (hrd.symm.trans hrd')
  rw [hp] at hmark hcopy
  obtain ⟨w, rest, hw, hrows⟩ := rows_copyWords hcopy
  have hfit : duplicateBranch.FitsSlot := fitsSlot_of_mem (.inl (by simp [standardBranches]))
  simp only [Branch.test_eq hfit hrows, Except.ok.injEq]
  by_cases hid : BitVec.ofInt 64 (rd.id env.stack) = s.multicastId
  · have hover : overwrite rd.buf p (ascii "duplicate" ++ [0]) = .ok b := by
      simpa [markDuplicate, hid] using hmark
    have hdrop : b.drop p = ascii "duplicate" ++ 0 :: rd.buf.drop (p + 10) := by
      rw [drop_overwrite hover]
      simp [ascii]
    have hw' : w = rowOf (ascii "duplicate") := by
      rw [hdrop, strncpy_terminated (by decide)] at hw
      exact (Except.ok.inj hw).symm
    rw [hw']
    simp [hid]
    decide
  · have hb : rd.buf = b := by simpa [markDuplicate, hid] using hmark
    subst hb
    obtain ⟨buff, token, buf, next⟩ := rd
    obtain rfl : token = some p := hp
    simp [saysDuplicate, hrd, hw, hid]

/-- A message that takes the branch `duplicate` does nothing. -/
theorem effects_of_takesDuplicateBranch {s : NetState} {env : Environment} {r : Receiver}
    {m : Message} (h : s.takesDuplicateBranch env.stack m r.commandType = true) :
    s.effects env r m = .ok [] := by
  unfold NetState.takesDuplicateBranch at h
  cases hline : getCommandLine env.stack s.commandLine s.multicastId m.toList r.commandType with
  | error e => simp [hline] at h
  | ok x =>
    obtain ⟨n, t, id⟩ := x
    obtain ⟨w, rest, ht⟩ := t.exists_rows_eq_cons
    have hfit : duplicateBranch.FitsSlot := fitsSlot_of_mem (.inl (by simp [standardBranches]))
    have hacc : duplicateBranch.accepts w = true := by
      simpa [hline, Branch.test_eq hfit ht] using h
    have hmatch : standardMatch w = some duplicateBranch := by
      simp [standardMatch, standardBranches, hacc]
    rw [NetState.effects_of_parsed hline, dispatch_eq env ht, hmatch]
    rfl

/-! ## Commands with different ids -/

/-- The messages of a history whose commands are executed: those that do not take the branch
`duplicate`. -/
def executions (s : NetState) : List (Environment × Receiver × Message) → List Message
  | [] => []
  | (env, r, m) :: xs =>
    match s.handle (env, r, m) with
    | none => []
    | some t =>
      if s.takesDuplicateBranch env.stack m r.commandType then executions t xs
      else m :: executions t xs

/-- The datagrams of a sender: commands with ids from 2 on, all different. -/
structure SenderCommands (cmds : List Message) : Prop where
  /-- Each has an id, the same whatever lies behind `buff`, and a command word. -/
  command : ∀ m ∈ cmds, ∃ r v, readId m.toList = .ok r ∧ r.token.isSome = true ∧ 2 ≤ v ∧
    ∀ stack, r.id stack = v
  /-- No id is used twice. -/
  distinct : (cmds.map fun m => idValue .clear m.toList).Nodup

/-- Copies of the datagrams, as the two datagram channels deliver them. -/
structure Delivered (cmds : List Message) (xs : List (Environment × Receiver × Message)) :
    Prop where
  /-- Each is a copy that came over a datagram channel. -/
  copies : ∀ x ∈ xs, x.2.1.commandType = 0 ∧ x.2.2 ∈ cmds
  /-- Each channel keeps the order in which they were sent. -/
  ordered : ∀ r, ((xs.filter fun x => x.2.1 = r).map fun x => cmds.idxOf x.2.2).Pairwise (· ≤ ·)

namespace SenderCommands

variable {cmds : List Message}

/-- A datagram is known by its id. -/
lemma eq_of_id_eq (h : SenderCommands cmds) {m m' : Message} (hm : m ∈ cmds) (hm' : m' ∈ cmds)
    {r r' : ReadId} (hr : readId m.toList = .ok r) (hr' : readId m'.toList = .ok r')
    (hid : BitVec.ofInt 64 (r.id .clear) = BitVec.ofInt 64 (r'.id .clear)) : m = m' := by
  have hv : idValue .clear m.toList = .ok (r.id .clear) := by simp [idValue, hr, Except.map]
  have hv' : idValue .clear m'.toList = .ok (r'.id .clear) := by simp [idValue, hr', Except.map]
  refine List.inj_on_of_nodup_map h.distinct hm hm' ?_
  rw [hv, hv', (ofInt_eq_ofInt_iff (idValue_mem hv) (idValue_mem hv')).mp hid]

/-- Its id is the same on every stack. -/
lemma id_eq (h : SenderCommands cmds) {m : Message} (hm : m ∈ cmds) {r : ReadId}
    (hr : readId m.toList = .ok r) (stack : Stack) : r.id stack = r.id .clear := by
  obtain ⟨r', v, hr', -, -, hv⟩ := h.command m hm
  obtain rfl : r = r' := Except.ok.inj (hr.symm.trans hr')
  rw [hv, hv]

/-- The handled datagram leaves its id in `multicast_id`. -/
lemma multicastId_handle (h : SenderCommands cmds) {s t : NetState} {env : Environment}
    {r : Receiver} {m : Message} (htype : r.commandType = 0) (hm : m ∈ cmds) {rd : ReadId}
    (hrd : readId m.toList = .ok rd) (ht : s.handle (env, r, m) = some t) :
    t.multicastId = BitVec.ofInt 64 (rd.id .clear) := by
  rcases Strand.multicastId_handle ht with ⟨-, rd', hrd', hid⟩ | ⟨hne, -⟩
  · obtain rfl : rd = rd' := Except.ok.inj (hrd.symm.trans hrd')
    rw [hid, h.id_eq hm hrd]
  · exact absurd htype hne

/-- After one of the datagrams, what is executed are the datagrams that do not repeat the one before
them, apart from commands that say `duplicate` themselves. -/
lemma executions_eq (h : SenderCommands cmds) {s t : NetState} {p : Message} {rp : ReadId}
    (hp : p ∈ cmds) (hrp : readId p.toList = .ok rp)
    (hs : s.multicastId = BitVec.ofInt 64 (rp.id .clear))
    {xs : List (Environment × Receiver × Message)}
    (hxs : ∀ x ∈ xs, x.2.1.commandType = 0 ∧ x.2.2 ∈ cmds)
    (hrun : StepRuns.run NetState.handle s xs = some t) :
    ∃ q, (xs.map fun x => x.2.2).destutter' (· ≠ ·) p = p :: q ∧
      executions s xs = q.filter fun m => !saysDuplicate m := by
  induction xs generalizing s p rp with
  | nil => exact ⟨[], rfl, rfl⟩
  | cons x xs ih =>
    obtain ⟨env, r, m⟩ := x
    obtain ⟨⟨htype, hm⟩, hrest⟩ := List.forall_mem_cons.mp hxs
    obtain ⟨u, hu, hrun⟩ := StepRuns.run_cons_eq_some_iff.mp hrun
    obtain ⟨rm, -, hrm, htoken, -⟩ := h.command m hm
    obtain ⟨q, hq, hexec⟩ := ih hm hrm (h.multicastId_handle htype hm hrm hu) hrest hrun
    have hbranch := takesDuplicateBranch_eq htype hrm htoken hu
    rw [hs, h.id_eq hm hrm] at hbranch
    rw [List.map_cons, executions, hu]
    simp only [hbranch]
    by_cases heq : p = m
    · subst heq
      obtain rfl : rp = rm := Except.ok.inj (hrp.symm.trans hrm)
      refine ⟨q, ?_, by simpa using hexec⟩
      rw [List.destutter'_cons_neg _ (not_not.mpr rfl)]
      exact hq
    · have hne : ¬ BitVec.ofInt 64 (rm.id .clear) = BitVec.ofInt 64 (rp.id .clear) :=
        fun hid => heq (h.eq_of_id_eq hm hp hrm hrp hid).symm
      refine ⟨m :: q, ?_, ?_⟩
      · rw [List.destutter'_cons_pos _ heq, hq]
      · cases hread : saysDuplicate m <;> simp [hne, hread, hexec]

/-- The first datagram since the start is never a repeat, as no id is 1. -/
lemma executions_boot (h : SenderCommands cmds) {stepper : Stepper} {location : Location}
    {xs : List (Environment × Receiver × Message)} {t : NetState}
    (hxs : ∀ x ∈ xs, x.2.1.commandType = 0 ∧ x.2.2 ∈ cmds)
    (hrun : StepRuns.run NetState.handle (.boot stepper location) xs = some t) :
    executions (.boot stepper location) xs =
      ((xs.map fun x => x.2.2).destutter (· ≠ ·)).filter fun m => !saysDuplicate m := by
  cases xs with
  | nil => rfl
  | cons x xs =>
    obtain ⟨env, r, m⟩ := x
    obtain ⟨⟨htype, hm⟩, hrest⟩ := List.forall_mem_cons.mp hxs
    obtain ⟨u, hu, hrun⟩ := StepRuns.run_cons_eq_some_iff.mp hrun
    obtain ⟨rm, v, hrm, htoken, hlow, hv⟩ := h.command m hm
    have hfirst : ¬ BitVec.ofInt 64 (rm.id .clear) =
        (NetState.boot stepper location).multicastId := by
      change ¬ BitVec.ofInt 64 (rm.id .clear) = BitVec.ofInt 64 1
      rw [ofInt_eq_ofInt_iff (rm.id_mem .clear) (by decide), hv]
      omega
    obtain ⟨q, hq, hexec⟩ :=
      h.executions_eq hm hrm (h.multicastId_handle htype hm hrm hu) hrest hrun
    have hbranch := takesDuplicateBranch_eq htype hrm htoken hu
    rw [h.id_eq hm hrm] at hbranch
    rw [List.map_cons, List.destutter_cons', hq, executions, hu]
    simp only [hbranch]
    cases hread : saysDuplicate m <;> simp [hfirst, hread, hexec]

end SenderCommands

/-- **Repeated datagrams are executed at most once** exactly when, for each command, all delivered
copies stand together: no other datagram comes between two of them. -/
theorem count_executions_le_one_iff {cmds : List Message} {stepper : Stepper} {location : Location}
    {xs : List (Environment × Receiver × Message)} {t : NetState} (hcmds : SenderCommands cmds)
    (hxs : Delivered cmds xs)
    (hrun : StepRuns.run NetState.handle (.boot stepper location) xs = some t) :
    (∀ m ∈ cmds, (executions (.boot stepper location) xs).count m ≤ 1) ↔
      ∀ m ∈ cmds, saysDuplicate m = false →
        RepeatFilter.Together m (xs.map fun x => x.2.2) := by
  rw [hcmds.executions_boot hxs.copies hrun]
  apply forall₂_congr
  intro m _
  rw [← RepeatFilter.count_destutter_le_one_iff]
  cases hread : saysDuplicate m with
  | false => simp [List.count_filter, hread]
  | true =>
    have hzero : (((xs.map fun x => x.2.2).destutter (· ≠ ·)).filter fun m =>
        !saysDuplicate m).count m = 0 := by
      simp [List.count_eq_zero, hread]
    simp [hzero]

/-- Two commands of a sender. -/
def twoMoves : List Message := [.ofText "2 stepperMove 10 1 1", .ofText "3 stepperMove 20 1 1"]

/-- Datagrams of these commands, by their place in the list. -/
def deliveries (ds : List (Receiver × ℕ)) : List (Environment × Receiver × Message) :=
  ds.map fun d => (.faithful, d.1, twoMoves.getD d.2 (.ofText ""))

/-- A datagram whose copy of the id ends within `buff` is one of a sender. -/
lemma exists_command_of_any {m : Message}
    (h : (readId m.toList).toOption.any (fun r =>
      r.token.isSome && (atoi r.buff.toList).toOption.any (2 ≤ ·)) = true) :
    ∃ r v, readId m.toList = .ok r ∧ r.token.isSome = true ∧ 2 ≤ v ∧ ∀ stack, r.id stack = v := by
  cases hread : readId m.toList with
  | error e => simp [hread, Except.toOption] at h
  | ok r =>
    cases hid : atoi r.buff.toList with
    | error e => simp [hread, hid, Except.toOption] at h
    | ok v =>
      simp only [hread, hid, Except.toOption, Option.any_some, Bool.and_eq_true,
        decide_eq_true_eq] at h
      exact ⟨r, v, rfl, h.1, h.2, atoi_eq_of_eq_ok hid⟩

/-- The two commands have ids and command words. -/
lemma senderCommands_twoMoves : SenderCommands twoMoves where
  command := by
    simp only [twoMoves, List.forall_mem_cons]
    exact ⟨exists_command_of_any (by decide +kernel), exists_command_of_any (by decide +kernel),
      by simp⟩
  distinct := by
    have hids : (twoMoves.map fun m => idValue .clear m.toList) = [.ok 2, .ok 3] := by
      decide +kernel
    rw [hids]
    decide

/-- Each command comes over both channels, one after the other. -/
def paired : List (Receiver × ℕ) := [(.multicast, 0), (.broadcast, 0), (.multicast, 1)]

/-- Both commands come over the one channel, and then both over the other. -/
def alternating : List (Receiver × ℕ) :=
  [(.multicast, 0), (.multicast, 1), (.broadcast, 0), (.broadcast, 1)]

/-- Copies that come one after the other are executed once. -/
theorem count_executions_paired :
    ∃ t, StepRuns.run NetState.handle .fresh (deliveries paired) = some t ∧
      ∀ m ∈ twoMoves, (executions .fresh (deliveries paired)).count m ≤ 1 := by
  have hrun : (StepRuns.run NetState.handle .fresh (deliveries paired)).isSome = true := by
    decide +kernel
  obtain ⟨t, ht⟩ := Option.isSome_iff_exists.mp hrun
  have hdelivered : Delivered twoMoves (deliveries paired) :=
    ⟨by simp [deliveries, paired, twoMoves, Receiver.commandType],
      fun r => by cases r <;> simp [deliveries, paired, twoMoves]⟩
  refine ⟨t, ht, (count_executions_le_one_iff senderCommands_twoMoves hdelivered ht).mpr ?_⟩
  intro m hm _
  rw [← RepeatFilter.count_destutter_le_one_iff]
  revert m
  simp only [twoMoves, List.forall_mem_cons]
  exact ⟨by decide +kernel, by decide +kernel, by simp⟩

/-- When the second channel is late, each command is executed twice. -/
theorem not_count_executions_alternating :
    ¬ ∀ (cmds : List Message) (stepper : Stepper) (location : Location)
      (xs : List (Environment × Receiver × Message)) (t : NetState), SenderCommands cmds →
        Delivered cmds xs → StepRuns.run NetState.handle (.boot stepper location) xs = some t →
          ∀ m ∈ cmds, (executions (.boot stepper location) xs).count m ≤ 1 := by
  intro hall
  have hrun : (StepRuns.run NetState.handle .fresh (deliveries alternating)).isSome = true := by
    decide +kernel
  obtain ⟨t, ht⟩ := Option.isSome_iff_exists.mp hrun
  have hdelivered : Delivered twoMoves (deliveries alternating) :=
    ⟨by simp [deliveries, alternating, twoMoves, Receiver.commandType],
      fun r => by cases r <;> simp [deliveries, alternating, twoMoves]⟩
  have hcount : (executions .fresh (deliveries alternating)).count
      (.ofText "2 stepperMove 10 1 1") = 2 := by
    decide +kernel
  have h := hall twoMoves _ _ _ t senderCommands_twoMoves hdelivered ht
    (.ofText "2 stepperMove 10 1 1") (by simp [twoMoves])
  exact absurd (hcount ▸ h) (by decide)

end Strand
