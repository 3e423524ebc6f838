import StrandFirmware.MessageParsing

/-!
# What a command takes from earlier messages

`command_line` is never cleared, and the number of words that `get_command_line` returns is not
looked at.  A command that reads a slot which its own message did not fill therefore acts on the
words of an earlier message, or on bytes of several of them.

The state of the device is `device_stepper`, `device_location` and `multicast_id`; two histories of
messages may lead to the same state of the device and leave different tables, and different bytes on
the stack of the parser.  A message is `SelfContained` when it is parsed without a fault, has a
command word and fills every slot that its command reads, and when what lies behind `buff` does not
decide whether its command is run.  These are exactly the messages that have the same effects after
all such histories (`effects_eq_iff_selfContained`): any other message faults after some history,
built from a few TCP messages without any effect on the device, or has other effects.
-/

namespace Strand

open CString MemoryFault

/-! ## Histories -/

namespace NetState

/-- The same state of the device: the table may differ. -/
structure SameDevice (s s' : NetState) : Prop where
  stepper : s'.stepper = s.stepper
  location : s'.location = s.location
  multicastId : s'.multicastId = s.multicastId

/-- `command_handler` handles a message without a fault. -/
def handle (s : NetState) (x : Environment × Receiver × Message) : Option NetState :=
  match commandHandler x.1 s x.2.2.toList x.2.1.commandType with
  | .error _ => none
  | .ok (t, _) => some t

/-- The state after some history of messages. -/
def Reached (s : NetState) : Prop :=
  StepRuns.Reachable handle (fun s => ∃ stepper location, s = .boot stepper location) s

/-- The effects of a message, or its fault. -/
def effects (env : Environment) (r : Receiver) (m : Message) (s : NetState) :
    Except MemoryFault (List Effect) :=
  (commandHandler env s m.toList r.commandType).map Prod.snd

variable {s s' s'' : NetState}

lemma SameDevice.refl (s : NetState) : s.SameDevice s := ⟨rfl, rfl, rfl⟩

lemma SameDevice.trans (h : s.SameDevice s') (h' : s'.SameDevice s'') : s.SameDevice s'' :=
  ⟨h'.stepper.trans h.stepper, h'.location.trans h.location, h'.multicastId.trans h.multicastId⟩

/-- One more message. -/
lemma Reached.handle (hs : s.Reached) {x : Environment × Receiver × Message}
    (h : s.handle x = some s') : s'.Reached := by
  obtain ⟨s₀, xs, hboot, hrun⟩ := hs
  refine ⟨s₀, xs ++ [x], hboot, StepRuns.run_append_eq_some_iff.mpr ⟨s, hrun, ?_⟩⟩
  simp [StepRuns.run, h]

/-- A message that was handled was parsed, and the comparisons did the rest. -/
lemma handle_cases {env : Environment} {r : Receiver} {m : Message}
    (h : s.handle (env, r, m) = some s') :
    ∃ n t id stepper location,
      getCommandLine env.stack s.commandLine s.multicastId m.toList r.commandType =
          .ok (n, t, id) ∧
        s' = ⟨t, id, stepper, location⟩ := by
  unfold handle at h
  split at h
  next => exact absurd h (by simp)
  next s'' es hhandler =>
    obtain rfl := Option.some.inj h
    obtain ⟨n, t, id, h', hline, -, hstate, -⟩ := commandHandler_cases hhandler
    exact ⟨n, t, id, h'.stepper, h'.location, hline, hstate⟩

/-- The effects of a message that was parsed are those of its comparisons. -/
lemma effects_of_parsed {env : Environment} {r : Receiver} {m : Message} {n : ℕ} {t : CommandLine}
    {id : BitVec 64}
    (h : getCommandLine env.stack s.commandLine s.multicastId m.toList r.commandType =
      .ok (n, t, id)) :
    s.effects env r m =
      (dispatch env t r.commandType ⟨s.stepper, s.location, []⟩).map Handling.effects := by
  unfold effects commandHandler
  rw [h]
  cases hd : dispatch env t r.commandType ⟨s.stepper, s.location, []⟩ <;>
    simp [hd, bind, Except.bind, Except.map]

/-- A message that cannot be parsed has no effects. -/
lemma effects_of_not_parsed {env : Environment} {r : Receiver} {m : Message} {e : MemoryFault}
    (h : getCommandLine env.stack s.commandLine s.multicastId m.toList r.commandType =
      .error e) : s.effects env r m = .error e := by
  unfold effects commandHandler
  rw [h]
  rfl

end NetState

/-! ## The slots that a message fills -/

/-- The slot of the table that follows from the message: its bytes, up to the last slot that was
filled, hold a whole number. -/
def Supplied (fresh : List Row) (j : ℤ) : Prop :=
  ∃ v, atoi (CommandLine.bytesOf (fresh.drop j.toNat)) = .ok v

instance (fresh : List Row) (j : ℤ) : Decidable (Supplied fresh j) :=
  match h : atoi (CommandLine.bytesOf (fresh.drop j.toNat)) with
  | .ok v => isTrue ⟨v, h⟩
  | .error _ => isFalse fun ⟨v, hv⟩ => by simp [h] at hv

/-- The index is one of the table. -/
abbrev InTable (j : ℤ) : Prop := 0 ≤ j ∧ j < COMMAND_ITEMS

section Overwritten

variable {t t' : CommandLine} {fresh : List Row} {j : ℤ}

/-- The bytes that a slot is read from. -/
lemma slot_of_overwritten (h : t.Overwritten t' fresh) (i : ℕ) :
    t'.slot i = CommandLine.bytesOf (fresh.drop i) ++
      CommandLine.bytesOf ((t.rows.drop fresh.length).drop (i - fresh.length)) := by
  have hrows : t'.rows = fresh ++ t.rows.drop fresh.length := h
  rw [CommandLine.slot, hrows, List.drop_append, CommandLine.bytesOf, List.flatMap_append]
  rfl

/-- A supplied slot has its value whatever the table held. -/
lemma atoiSlot_of_supplied (h : t.Overwritten t' fresh) (hj : InTable j) {v : ℤ}
    (hv : atoi (CommandLine.bytesOf (fresh.drop j.toNat)) = .ok v) : t'.atoiSlot j = .ok v := by
  rw [CommandLine.atoiSlot, if_pos hj, slot_of_overwritten h]
  exact atoi_append hv

/-- An index outside the table is a fault. -/
lemma atoiSlot_of_not_inTable (t : CommandLine) (hj : ¬ InTable j) :
    t.atoiSlot j = .error outOfBounds := if_neg hj

end Overwritten

/-! ## Two ways to fill the table

Words that are no command may be sent over TCP without any effect but the slots they fill.  `"x"`
ends every number before it; fifty digits fill a slot without a terminator, so that a number goes
on in the next slot, and past the end of the table when the last slot holds digits as well. -/

/-- A word that is no number. -/
def wordX : List Byte := ascii "x"

/-- A word of fifty digits. -/
def wordDigits : List Byte := List.replicate COMMAND_SLOT_SIZE 57

/-- The message of some words. -/
def ofWords (ws : List (List Byte)) : Message := padded COMMAND_ITEM_SIZE (joinWords ws)

/-- The bytes of a message shorter than its item. -/
lemma exists_toList_ofWords {ws : List (List Byte)}
    (h : (joinWords ws).length < COMMAND_ITEM_SIZE) :
    ∃ pad, (ofWords ws).toList = joinWords ws ++ 0 :: pad := by
  refine ⟨List.replicate (COMMAND_ITEM_SIZE - (joinWords ws).length - 1) 0, ?_⟩
  have hlen : COMMAND_ITEM_SIZE - (joinWords ws).length =
      COMMAND_ITEM_SIZE - (joinWords ws).length - 1 + 1 := by omega
  rw [ofWords, padded, List.Vector.toList_mk, List.take_append, List.take_of_length_le h.le,
    List.take_replicate, min_eq_left (by omega), hlen, List.replicate_succ]
  simp

/-- As the first word of a message, `w` has these effects and leaves the device as it is. -/
def Yields (w : List Byte) (es : List Effect) : Prop :=
  ∀ (env : Environment) (t : CommandLine) (rest : List Row) (type : ℤ) (stepper : Stepper)
    (location : Location), t.rows = rowOf w :: rest →
      dispatch env t type ⟨stepper, location, []⟩ = .ok ⟨stepper, location, es⟩

/-- A word that no branch of either chain accepts does nothing. -/
lemma yields_of_unknown {w : List Byte} (hw : standardMatch (rowOf w) = none)
    (hw' : tcpMatch (rowOf w) = none) : Yields w [] := by
  intro env t rest type stepper location ht
  rw [dispatch_eq env ht, hw, hw']
  simp [execMatch, Except.map]

lemma yields_wordX : Yields wordX [] := yields_of_unknown rfl rfl

lemma yields_wordDigits : Yields wordDigits [] := yields_of_unknown rfl rfl

/-- `"stop"` is matched by the first chain alone. -/
lemma yields_stop : Yields (ascii "stop") [.notifyStop] := by
  intro env t rest type stepper location ht
  have hmatch : standardMatch (rowOf (ascii "stop")) = some stopBranch := rfl
  have hmatch' : tcpMatch (rowOf (ascii "stop")) = none := rfl
  have hexec : stopBranch.exec env t ⟨stepper, location, []⟩ =
      .ok ⟨stepper, location, [.notifyStop]⟩ := rfl
  have hreturns : stopBranch.returns = false := rfl
  rw [dispatch_eq env ht, hmatch, hmatch']
  simp [execMatch, hexec, hreturns, Except.map]

namespace NetState

variable {s : NetState}

/-- **A message of words**, sent over TCP, fills the first slots. -/
lemma exists_handle_ofWords (env : Environment) (s : NetState) {w : List Byte}
    {ws : List (List Byte)} {es : List Effect} (hw : Yields w es)
    (hws : ∀ v ∈ w :: ws, IsWord space v)
    (hlen : (w :: ws).length ≤ COMMAND_ITEMS)
    (hsize : (joinWords (w :: ws)).length < COMMAND_ITEM_SIZE) :
    ∃ s', s.handle (env, .tcp, ofWords (w :: ws)) = some s' ∧ s.SameDevice s' ∧
      s.commandLine.Overwritten s'.commandLine ((w :: ws).map rowOf) := by
  obtain ⟨pad, hpad⟩ := exists_toList_ofWords hsize
  have htype : Receiver.tcp.commandType ≠ 0 := by decide
  obtain ⟨t, hparse, hrows⟩ := getCommandLine_joinWords htype hws hlen pad env.stack
    s.multicastId s.commandLine
  have ht : t.rows = rowOf w :: (ws.map rowOf ++
      s.commandLine.rows.drop ((w :: ws).map rowOf).length) := hrows
  refine ⟨⟨t, s.multicastId, s.stepper, s.location⟩, ?_, ⟨rfl, rfl, rfl⟩, hrows⟩
  have hdispatch : dispatch env t Receiver.tcp.commandType ⟨s.stepper, s.location, []⟩ =
      .ok ⟨s.stepper, s.location, es⟩ := hw env t _ _ _ _ ht
  simp only [handle, commandHandler, hpad, hparse, hdispatch, bind, Except.bind]

/-- The length of a message in terms of its words. -/
lemma length_joinWords_le (ws : List (List Byte)) :
    (joinWords ws).length ≤ (ws.map fun w => w.length + 1).sum := by
  induction ws with
  | nil => rfl
  | cons w ws ih =>
    cases ws with
    | nil => simp [joinWords]
    | cons w' ws =>
      rw [List.map_cons, List.sum_cons]
      simp only [joinWords, List.length_append, List.length_cons] at ih ⊢
      omega

/-- After some history that leads to the same device, the last `d` slots hold digits only. -/
lemma exists_unterminated (env : Environment) (hs : s.Reached) {d : ℕ} (hd : d ≤ COMMAND_ITEMS) :
    ∃ s', s'.Reached ∧ s.SameDevice s' ∧
      s'.commandLine.rows.drop (COMMAND_ITEMS - d) = List.replicate d (rowOf wordDigits) := by
  induction d with
  | zero =>
    exact ⟨s, hs, .refl s, List.drop_eq_nil_of_le s.commandLine.length_rows.le⟩
  | succ d ih =>
    -- the slots are filled from the last one to the first
    obtain ⟨s', hs', hdevice', hrows'⟩ := ih (by omega)
    obtain ⟨w, ws, hws⟩ : ∃ w ws, List.replicate (COMMAND_ITEMS - (d + 1)) wordX ++ [wordDigits] =
        w :: ws := List.exists_cons_of_ne_nil (by simp)
    have hmem : ∀ v ∈ w :: ws, v = wordX ∨ v = wordDigits := by
      intro v hv
      rw [← hws] at hv
      rcases List.mem_append.mp hv with hv | hv
      · exact .inl (List.eq_of_mem_replicate hv)
      · exact .inr (List.mem_singleton.mp hv)
    have hwords : ∀ v ∈ w :: ws, IsWord space v := by
      intro v hv
      rcases hmem v hv with rfl | rfl <;> decide
    have hyields : Yields w [] := by
      rcases hmem w List.mem_cons_self with rfl | rfl
      · exact yields_wordX
      · exact yields_wordDigits
    have hsize : (joinWords (w :: ws)).length < COMMAND_ITEM_SIZE := by
      refine (length_joinWords_le _).trans_lt ?_
      have hx : wordX.length = 1 := rfl
      have hdigits : wordDigits.length = 50 := rfl
      have hitems : COMMAND_ITEMS = 40 := rfl
      have hbytes : COMMAND_ITEM_SIZE = 400 := rfl
      rw [← hws]
      simp only [List.map_append, List.map_replicate, List.map_cons, List.map_nil, hx, hdigits,
        List.sum_append, List.sum_replicate, List.sum_cons, List.sum_nil, smul_eq_mul]
      omega
    obtain ⟨s'', hhandle, hdevice, hrows⟩ := exists_handle_ofWords env s' hyields hwords
      (by rw [← hws]; simp) hsize
    refine ⟨s'', hs'.handle hhandle, hdevice'.trans hdevice, ?_⟩
    have hnext : COMMAND_ITEMS - (d + 1) + 1 = COMMAND_ITEMS - d := by omega
    rw [hrows, ← hws]
    simp [hnext, hrows', List.replicate_succ]

/-- After some history that leads to the same device, the first slot holds a word. -/
lemma exists_first (env : Environment) (hs : s.Reached) {w : List Byte} {es : List Effect}
    (hw : Yields w es) (hword : IsWord space w) (hsize : w.length < COMMAND_ITEM_SIZE) :
    ∃ s', s'.Reached ∧ s.SameDevice s' ∧ ∃ rest, s'.commandLine.rows = rowOf w :: rest := by
  have hwords : ∀ v ∈ [w], IsWord space v := by simpa using hword
  obtain ⟨s', hhandle, hdevice, hrows⟩ := exists_handle_ofWords env s hw hwords (by simp) hsize
  exact ⟨s', hs.handle hhandle, hdevice, _, hrows⟩

end NetState

/-! ## The slots after these messages -/

section Fillings

variable {t t' : CommandLine} {fresh : List Row} {j : ℤ}

/-- With digits in all the slots that a message leaves alone, a slot that it did not fill has no
end. -/
lemma atoiSlot_of_unterminated {d : ℕ} (h : t.Overwritten t' fresh)
    (ht : t.rows.drop fresh.length = List.replicate d (rowOf wordDigits)) (hj : InTable j)
    (hno : ¬ Supplied fresh j) : t'.atoiSlot j = .error outOfBounds := by
  have hfresh := (atoi_cases (CommandLine.bytesOf (fresh.drop j.toNat))).resolve_right hno
  have hdigits : (rowOf wordDigits).toList = List.replicate COMMAND_SLOT_SIZE 57 := rfl
  rw [CommandLine.atoiSlot, if_pos hj, slot_of_overwritten h, ht, List.drop_replicate]
  apply atoi_append_digits hfresh
  intro b hb
  obtain ⟨row, hrow, hb⟩ := List.mem_flatMap.mp hb
  rw [List.eq_of_mem_replicate hrow, hdigits] at hb
  rw [List.eq_of_mem_replicate hb]
  rfl

end Fillings

/-! ## Messages that depend on nothing else -/

/-- The slots that a message writes begin with a command word, and every slot that its command reads
is one of the table and is supplied by the message. -/
def FillsSlots (s : Stepper) (type : ℤ) : List Row → Prop
  | [] => False
  | w :: fresh => ∀ j ∈ slotsRead s w type, InTable j ∧ Supplied (w :: fresh) j

instance (s : Stepper) (type : ℤ) : (fresh : List Row) → Decidable (FillsSlots s type fresh)
  | [] => .isFalse id
  | _ :: _ => inferInstanceAs (Decidable (∀ j ∈ _, _))

/-- The command in the first slot does nothing: it is none of the first chain, or `duplicate`, or
`stepperNumTranslate` on a device without a number. -/
def Idle (s : Stepper) (fresh : List Row) : Prop :=
  ∀ w ∈ fresh.head?, ∀ b ∈ standardMatch w,
    b.word = "duplicate" ∨ b.word = "stepperNumTranslate" ∧ s.number = 0

/-- The number in the id word is that of the last datagram, or is not, whatever lies behind
`buff`. -/
def IdSettled (id : BitVec 64) (m : Message) : Prop :=
  ∀ stack stack' : Stack, BitVec.ofInt 64 (idNumber stack (idWord m.toList)) = id ↔
    BitVec.ofInt 64 (idNumber stack' (idWord m.toList)) = id

/-- The message depends on its own words alone.  With an id word of 100 bytes or more the copy of
the id may go on behind `buff`. -/
structure SelfContained (s : Stepper) (id : BitVec 64) (m : Message) (type : ℤ) : Prop where
  /-- It is parsed without a fault and fills the slots that its command reads. -/
  fills : ∀ stack, ∃ x, messageRows stack id m.toList type = .ok x ∧ FillsSlots s type x.1
  /-- What lies behind `buff` does not decide whether its command is run. -/
  settled : type = 0 → IdSettled id m ∨
    ∀ stack x, messageRows stack id m.toList type = .ok x → Idle s x.1

/-- Writing slots from the first one on. -/
lemma overwritten_fill (t : CommandLine) {fresh : List Row} (hlen : fresh.length ≤ COMMAND_ITEMS) :
    t.Overwritten (t.fill 0 fresh) fresh := by
  rw [CommandLine.Overwritten, rows_fill (by simpa using hlen)]
  simp

/-- No branch of the first chain looks at the stack of the parser. -/
lemma act_withStack_standard (env : Environment) (stack : Stack) :
    ∀ b ∈ standardBranches, b.act (env.withStack stack) = b.act env := by
  simp only [standardBranches, List.forall_mem_cons, List.not_mem_nil, false_implies,
    implies_true, and_true]
  and_intros <;> rfl

/-- Nor does any of the second. -/
lemma act_withStack_tcp (env : Environment) (stack : Stack) :
    ∀ b ∈ tcpBranches, b.act (env.withStack stack) = b.act env := by
  simp only [tcpBranches, List.forall_mem_cons, List.not_mem_nil, false_implies, implies_true,
    and_true]
  and_intros <;> rfl

/-- The comparisons do the same whatever lies on the stack of the parser. -/
lemma dispatch_withStack (env : Environment) (stack : Stack) (t : CommandLine) (type : ℤ)
    (h : Handling) : dispatch (env.withStack stack) t type h = dispatch env t type h := by
  obtain ⟨w, rest, ht⟩ := t.exists_rows_eq_cons
  have hexec : ∀ (b : Option Branch) (h : Handling),
      (∀ c ∈ b, c.act (env.withStack stack) = c.act env) →
        execMatch (env.withStack stack) t b h = execMatch env t b h := by
    intro b h hb
    rcases b with _ | b
    · rfl
    · simp only [execMatch, Branch.exec, hb b rfl]
  rw [dispatch_eq _ ht, dispatch_eq _ ht, hexec (standardMatch w) _ fun b hb =>
    act_withStack_standard env stack b (List.mem_of_find?_eq_some hb)]
  rcases execMatch env t (standardMatch w) h with e | ⟨h', returned⟩
  · rfl
  · dsimp only
    rw [hexec (tcpMatch w) _ fun b hb =>
      act_withStack_tcp env stack b (List.mem_of_find?_eq_some hb)]

section Idle

variable {env : Environment} {t : CommandLine} {w : Row} {fresh rest : List Row} {h h' : Handling}

/-- A branch of the first chain has an effect, but for the commands that do nothing. -/
lemma effects_act_eq_nil_iff (heffects : h.effects = []) (word : ℤ → ℤ) :
    ∀ b ∈ standardBranches, (b.act env word h).effects = [] ↔
      b.word = "duplicate" ∨ b.word = "stepperNumTranslate" ∧ h.stepper.number = 0 := by
  have hemit : ∀ {b : Branch} {h₁ : Handling} {e : Effect}, b.act env word h = h₁.emit e →
      b.word ≠ "duplicate" → b.word ≠ "stepperNumTranslate" → ((b.act env word h).effects = [] ↔
        b.word = "duplicate" ∨ b.word = "stepperNumTranslate" ∧ h.stepper.number = 0) := by
    intro b h₁ e hact hne hne'
    simp [hact, Handling.emit, hne, hne']
  simp only [standardBranches, List.forall_mem_cons, List.not_mem_nil, false_implies,
    implies_true, and_true]
  and_intros
  any_goals exact hemit rfl (by decide) (by decide)
  · exact iff_of_true heffects (.inl rfl)
  · -- `stepperNumTranslate` on a device without a number does nothing
    by_cases hnumber : h.stepper.number = 0
    · simp [stepperNumTranslateBranch, hnumber, heffects]
    · simp [stepperNumTranslateBranch, hnumber, Handling.commandMove, Handling.emit]

/-- A datagram is without effects exactly when its command does nothing. -/
lemma effects_eq_nil_iff_idle (ht : t.rows = w :: rest) (heffects : h.effects = [])
    (hdispatch : dispatch env t 0 h = .ok h') :
    h'.effects = [] ↔ Idle h.stepper (w :: fresh) := by
  obtain ⟨h₁, returned, hexec, ⟨-, rfl⟩ | ⟨hgo, -⟩⟩ := dispatch_cases ht hdispatch
  · have hidle : Idle h.stepper (w :: fresh) ↔ ∀ b ∈ standardMatch w,
        b.word = "duplicate" ∨ b.word = "stepperNumTranslate" ∧ h.stepper.number = 0 := by
      simp [Idle]
    rw [hidle]
    rcases execMatch_cases hexec with ⟨hnone, rfl⟩ | ⟨c, hc, word, -, rfl⟩
    · simp [hnone, heffects]
    · rw [effects_act_eq_nil_iff heffects word c (List.mem_of_find?_eq_some hc)]
      simp [Option.mem_def.mp hc]
  · simp at hgo

end Idle

namespace NetState

variable {s₀ s s' : NetState} {env : Environment} {stack stack' : Stack} {r : Receiver}
  {m : Message} {id : BitVec 64} {w : Row} {fresh : List Row}

/-- A message that was parsed leaves its slots in the table, and its effects are those of the
comparisons there. -/
lemma effects_of_rows (hs : s₀.SameDevice s)
    (h : messageRows stack s₀.multicastId m.toList r.commandType = .ok (fresh, id)) :
    s.effects (env.withStack stack) r m = (dispatch env (s.commandLine.fill 0 fresh) r.commandType
      ⟨s₀.stepper, s₀.location, []⟩).map Handling.effects := by
  rw [← hs.multicastId] at h
  have hparse : getCommandLine (env.withStack stack).stack s.commandLine s.multicastId m.toList
      r.commandType = .ok (fresh.length, s.commandLine.fill 0 fresh, id) :=
    getCommandLine_of_rows h s.commandLine
  rw [effects_of_parsed hparse, dispatch_withStack, hs.stepper, hs.location]

/-- A message that fills the slots of its command has the same effects after every history. -/
lemma exists_effects_of_fillsSlots (env : Environment)
    (h : messageRows stack s₀.multicastId m.toList r.commandType = .ok (fresh, id))
    (hfills : FillsSlots s₀.stepper r.commandType fresh) :
    ∃ es, ∀ s : NetState, s₀.SameDevice s → s.effects (env.withStack stack) r m = .ok es := by
  have hover : ∀ t : CommandLine, t.Overwritten (t.fill 0 fresh) fresh :=
    fun t => overwritten_fill t (length_messageRows_le h)
  rcases fresh with _ | ⟨w, fresh⟩
  · exact hfills.elim
  have hread : ∀ t : CommandLine, ∀ j ∈ slotsRead s₀.stepper w r.commandType,
      ∃ v, atoi (CommandLine.bytesOf ((w :: fresh).drop j.toNat)) = .ok v ∧
        (t.fill 0 (w :: fresh)).atoiSlot j = .ok v := by
    intro t j hj
    obtain ⟨hin, v, hv⟩ := hfills j hj
    exact ⟨v, hv, atoiSlot_of_supplied (hover t) hin hv⟩
  obtain ⟨h', hok⟩ := exists_dispatch_eq_ok env (h := ⟨s₀.stepper, s₀.location, []⟩)
    (hover s₀.commandLine) fun j hj => (hread s₀.commandLine j hj).imp fun _ hv => hv.2
  refine ⟨h'.effects, fun s hs => ?_⟩
  rw [effects_of_rows hs h, dispatch_congr (hover _) (hover s₀.commandLine) fun j hj => ?_, hok]
  · rfl
  · obtain ⟨v, hv, hs⟩ := hread s.commandLine j hj
    obtain ⟨v', hv', hs'⟩ := hread s₀.commandLine j hj
    rw [hs, hs', Except.ok.inj (hv.symm.trans hv')]

/-- A message that has the same effects after every history fills the slots of its command. -/
lemma fillsSlots_of_effects (hs₀ : s₀.Reached)
    (hall : ∀ s s' : NetState, s.Reached → s'.Reached → s₀.SameDevice s → s₀.SameDevice s' →
      ∃ es, s.effects (env.withStack stack) r m = .ok es ∧
        s'.effects (env.withStack stack) r m = .ok es) :
    ∃ x, messageRows stack s₀.multicastId m.toList r.commandType = .ok x ∧
      FillsSlots s₀.stepper r.commandType x.1 := by
  rcases h : messageRows stack s₀.multicastId m.toList r.commandType with e | ⟨fresh, id⟩
  · -- a message that cannot be parsed is a fault after every history
    obtain ⟨es, hes, -⟩ := hall s₀ s₀ hs₀ hs₀ (.refl s₀) (.refl s₀)
    have hfault : getCommandLine (env.withStack stack).stack s₀.commandLine s₀.multicastId m.toList
        r.commandType = .error e.kind := by
      rw [getCommandLine_eq]
      exact congrArg (fun x => x.mapError ParseFault.kind >>= _) h
    rw [effects_of_not_parsed hfault] at hes
    simp at hes
  refine ⟨_, rfl, ?_⟩
  have hlen := length_messageRows_le h
  rcases fresh with _ | ⟨w, fresh⟩
  · -- without a command word the last command is run again
    obtain ⟨s, hs, hsame, rest, hfirst⟩ := exists_first env hs₀ yields_stop (by decide) (by decide)
    obtain ⟨s', hs', hsame', rest', hfirst'⟩ :=
      exists_first env hs₀ yields_wordX (by decide) (by decide)
    obtain ⟨es, hes, hes'⟩ := hall s s' hs hs' hsame hsame'
    rw [effects_of_rows hsame h] at hes
    rw [effects_of_rows hsame' h] at hes'
    have hstop := yields_stop env (s.commandLine.fill 0 []) rest r.commandType s₀.stepper
      s₀.location hfirst
    have hx := yields_wordX env (s'.commandLine.fill 0 []) rest' r.commandType s₀.stepper
      s₀.location hfirst'
    rw [hstop] at hes
    rw [hx] at hes'
    exact absurd ((Except.ok.inj hes).trans (Except.ok.inj hes').symm) (by simp)
  · intro j hj
    by_contra hno
    -- after some history the slot cannot be read
    obtain ⟨s, hs, hsame, hfault⟩ : ∃ s, s.Reached ∧ s₀.SameDevice s ∧
        (s.commandLine.fill 0 (w :: fresh)).atoiSlot j = .error outOfBounds := by
      by_cases hin : InTable j
      · obtain ⟨s, hs, hsame, hdigits⟩ :=
          exists_unterminated env hs₀ (Nat.sub_le COMMAND_ITEMS (w :: fresh).length)
        rw [Nat.sub_sub_self hlen] at hdigits
        exact ⟨s, hs, hsame, atoiSlot_of_unterminated (overwritten_fill _ hlen) hdigits hin
          fun hsupplied => hno ⟨hin, hsupplied⟩⟩
      · exact ⟨s₀, hs₀, .refl s₀, atoiSlot_of_not_inTable _ hin⟩
    obtain ⟨es, hes, -⟩ := hall s s hs hs hsame hsame
    rw [effects_of_rows hsame h, dispatch_eq_error (overwritten_fill _ hlen) ⟨j, hj, hfault⟩] at hes
    simp [Except.map] at hes

end NetState

/-- Messages of another type are parsed without a look at the stack. -/
lemma messageRows_of_ne (stack stack' : Stack) (id : BitVec 64) (a : List Byte) {type : ℤ}
    (htype : type ≠ 0) : messageRows stack id a type = messageRows stack' id a type := by
  unfold messageRows
  simp only [if_neg htype]

/-- The slots of a datagram whose id is settled do not depend on the stack. -/
lemma map_fst_messageRows {id : BitVec 64} {m : Message} (h : IdSettled id m)
    (stack stack' : Stack) : (messageRows stack id m.toList 0).map Prod.fst =
      (messageRows stack' id m.toList 0).map Prod.fst := by
  rw [messageRows_eq_readId, messageRows_eq_readId]
  rcases hread : readId m.toList with e | r
  · rfl
  · have hid := h stack stack'
    rw [← id_of_readId hread, ← id_of_readId hread] at hid
    exact map_fst_afterId hid _

/-- A repeated id makes the message do nothing. -/
lemma idle_of_repeated {stack : Stack} {id : BitVec 64} {m : Message}
    (hrepeat : BitVec.ofInt 64 (idNumber stack (idWord m.toList)) = id) (s : Stepper)
    {x : List Row × BitVec 64} (h : messageRows stack id m.toList 0 = .ok x) : Idle s x.1 := by
  rw [messageRows_eq_readId] at h
  obtain ⟨r, hr, h⟩ := bind_eq_ok_iff.mp h
  rw [id_of_readId (mapError_eq_ok_iff.mp hr), hrepeat] at h
  obtain ⟨rest, hrest⟩ := exists_afterId_eq_cons h
  intro w hw b hb
  obtain rfl : rowOf (ascii "duplicate") = w := by simpa [hrest] using hw
  rw [standardMatch_duplicate, Option.mem_some_iff] at hb
  exact .inl (hb ▸ rfl)

/-- A datagram that is handled has no effects exactly when its command does nothing. -/
lemma NetState.effects_eq_nil_iff {env : Environment} {stack : Stack} {r : Receiver} {m : Message}
    {s : NetState} {x : List Row × BitVec 64} {es : List Effect} (htype : r.commandType = 0)
    (h : messageRows stack s.multicastId m.toList r.commandType = .ok x)
    (hfills : FillsSlots s.stepper r.commandType x.1)
    (hes : s.effects (env.withStack stack) r m = .ok es) : es = [] ↔ Idle s.stepper x.1 := by
  obtain ⟨fresh, id⟩ := x
  rcases fresh with _ | ⟨w, fresh⟩
  · exact hfills.elim
  · rw [effects_of_rows (.refl s) h] at hes
    obtain ⟨h', hdispatch, rfl⟩ := map_eq_ok_iff.mp hes
    rw [htype] at hdispatch
    exact effects_eq_nil_iff_idle (overwritten_fill _ (length_messageRows_le h)) rfl hdispatch

/-- **Which messages depend on their own words alone**: a message is handled with the same effects
after any two histories that lead to the same device, whatever these leave on the stack, exactly
when it is self-contained. -/
theorem NetState.effects_eq_iff_selfContained (env : Environment) (r : Receiver) (m : Message)
    {s₀ : NetState} (hs₀ : s₀.Reached) :
    (∀ (stack stack' : Stack) (s s' : NetState), s.Reached → s'.Reached → s₀.SameDevice s →
        s₀.SameDevice s' → ∃ es, s.effects (env.withStack stack) r m = .ok es ∧
          s'.effects (env.withStack stack') r m = .ok es) ↔
      SelfContained s₀.stepper s₀.multicastId m r.commandType := by
  constructor
  · intro hall
    have hfills := fun stack => fillsSlots_of_effects hs₀ (hall stack stack)
    refine ⟨hfills, fun htype => or_iff_not_imp_left.mpr fun hsettled => ?_⟩
    -- with one of the two stacks the message is a repeat, so it has no effects with any
    obtain ⟨stack₁, hrepeat⟩ : ∃ stack : Stack,
        BitVec.ofInt 64 (idNumber stack (idWord m.toList)) = s₀.multicastId := by
      by_contra hno
      push Not at hno
      exact hsettled fun stack stack' => iff_of_false (hno stack) (hno stack')
    intro stack x hx
    obtain ⟨y, hy, hfills₁⟩ := hfills stack₁
    obtain ⟨x', hx', hfills'⟩ := hfills stack
    obtain rfl : x' = x := Except.ok.inj (hx'.symm.trans hx)
    obtain ⟨es, hes, hes₁⟩ := hall stack stack₁ s₀ s₀ hs₀ hs₀ (.refl s₀) (.refl s₀)
    rw [← effects_eq_nil_iff htype hx hfills' hes, effects_eq_nil_iff htype hy hfills₁ hes₁]
    rw [htype] at hy
    exact idle_of_repeated hrepeat _ hy
  · rintro ⟨hfills, hsettled⟩ stack stack' s s' - - hsame hsame'
    obtain ⟨x, hx, hfx⟩ := hfills stack
    obtain ⟨y, hy, hfy⟩ := hfills stack'
    obtain ⟨es, hes⟩ := exists_effects_of_fillsSlots env hx hfx
    obtain ⟨es', hes'⟩ := exists_effects_of_fillsSlots env hy hfy
    suffices heq : es = es' from ⟨es, hes s hsame, heq ▸ hes' s' hsame'⟩
    have hes := hes s₀ (.refl s₀)
    have hes' := hes' s₀ (.refl s₀)
    have hslots : x.1 = y.1 → es = es' := by
      intro hxy
      rw [effects_of_rows (.refl s₀) hx] at hes
      rw [effects_of_rows (.refl s₀) hy, ← hxy] at hes'
      exact Except.ok.inj (hes.symm.trans hes')
    by_cases htype : r.commandType = 0
    · rcases hsettled htype with hid | hidle
      · apply hslots
        have hfst := map_fst_messageRows hid stack stack'
        rw [← htype, hx, hy] at hfst
        exact Except.ok.inj hfst
      · rw [(effects_eq_nil_iff htype hx hfx hes).mpr (hidle stack x hx),
          (effects_eq_nil_iff htype hy hfy hes').mpr (hidle stack' y hy)]
    · rw [messageRows_of_ne stack stack' _ _ htype] at hx
      exact hslots (congrArg Prod.fst (Except.ok.inj (hx.symm.trans hy)))

/-- A datagram that moves a device. -/
def translateDatagram : Message := .ofText "7 stepperTranslate 50 10 10"

/-- `stepperTranslate` with an id and its three arguments depends on nothing else. -/
theorem NetState.effects_eq_stepperTranslate :
    fresh.Reached ∧ ∀ (stack stack' : Stack) (s s' : NetState), s.Reached → s'.Reached →
      fresh.SameDevice s → fresh.SameDevice s' → ∃ es,
        s.effects (Environment.faithful.withStack stack) .multicast translateDatagram = .ok es ∧
          s'.effects (Environment.faithful.withStack stack') .multicast translateDatagram =
            .ok es := by
  have hreached : fresh.Reached := ⟨fresh, [], ⟨_, _, rfl⟩, rfl⟩
  have hword : idWord translateDatagram.toList = ascii "7" := by decide +kernel
  obtain ⟨v, -, hv⟩ := idNumber_eq (show (idWord translateDatagram.toList).length < 100 by
    rw [hword]
    decide)
  have hid : IdSettled fresh.multicastId translateDatagram := by
    intro stack stack'
    rw [hv stack, hv stack']
  have hclear : (messageRows .clear fresh.multicastId translateDatagram.toList 0).toOption.any
      (fun x => FillsSlots fresh.stepper 0 x.1) = true := by
    decide +kernel
  refine ⟨hreached, (NetState.effects_eq_iff_selfContained .faithful .multicast _ hreached).mpr
    ⟨fun stack => ?_, fun _ => .inl hid⟩⟩
  have hfst := map_fst_messageRows hid stack .clear
  rcases hx : messageRows .clear fresh.multicastId translateDatagram.toList 0 with e | x
  · simp [hx, Except.toOption] at hclear
  · rw [hx] at hfst
    obtain ⟨y, hy, hfst⟩ := map_eq_ok_iff.mp hfst
    refine ⟨y, hy, ?_⟩
    rw [hfst]
    simpa [hx, Except.toOption, Receiver.commandType] using hclear

/-- **A message of a space repeats the last command**: sent over TCP after `"stop"` it stops the
device once more, after `"x"` it does nothing. -/
theorem NetState.not_effects_eq_blank :
    ∃ s s' : NetState, fresh.handle (.faithful, .tcp, .ofText "stop") = some s ∧
      fresh.handle (.faithful, .tcp, .ofText "x") = some s' ∧ s.SameDevice s' ∧
      s.effects .faithful .tcp (.ofText " ") = .ok [.notifyStop] ∧
      s'.effects .faithful .tcp (.ofText " ") = .ok [] := by
  have hruns : (fresh.handle (.faithful, .tcp, .ofText "stop")).any (fun s =>
      (fresh.handle (.faithful, .tcp, .ofText "x")).any fun s' =>
        s'.stepper = s.stepper ∧ s'.location = s.location ∧ s'.multicastId = s.multicastId ∧
          s.effects .faithful .tcp (.ofText " ") = .ok [.notifyStop] ∧
          s'.effects .faithful .tcp (.ofText " ") = .ok []) = true := by
    decide +kernel
  obtain ⟨s, hs, hruns⟩ := (Option.any_eq_true _ _).mp hruns
  obtain ⟨s', hs', hruns⟩ := (Option.any_eq_true _ _).mp hruns
  obtain ⟨hstepper, hlocation, hid, heffects⟩ := of_decide_eq_true hruns
  exact ⟨s, s', hs, hs', ⟨hstepper, hlocation, hid⟩, heffects⟩

end Strand
