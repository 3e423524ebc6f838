import StrandFirmware.CommandIsolation

/-!
# Values chosen by the number of the device

`stepperNumTranslate` and `stepperNumSine` carry one value for each device of a strand; the device
takes the one in slot `number + 2` or `number + 6`.  The number is whatever `setNumber` stored, and
the slot is compared neither with the number of words of the message nor with the size of the
table.  So the device takes a value of the message exactly when its number has one inside the table
(`picksOwnValue_iff`); otherwise it takes a parameter of the command, a word left by an earlier
message, or bytes outside the table.

A message may have more words than the table has slots.  `getAllWords` is `get_command_line` with a
loop that goes on then, and agrees with `getCommandLine` otherwise (`getAllWords_of_parsed`).
-/

namespace Strand

open CString MemoryFault

/-! ## Messages of any number of words -/

/-- The loop over the words of a message, to its end: a word too many is counted, and what it
overwrites behind the table is not followed.  A word takes a byte of the message at least, so
there are at most as many rounds as bytes. -/
def copyAllWords (t : CommandLine) (i : ℕ) (token : Option ℕ) (buf : List Byte)
    (next : Option ℕ) : ℕ → Except MemoryFault (ℕ × CommandLine)
  | 0 => .error outOfBounds
  | rounds + 1 =>
    match token with
    | none => .ok (i, t)
    | some p => do
      let row ← strncpy COMMAND_SLOT_SIZE (buf.drop p)
      let (token, buf, next) ← strtokNext space buf next
      -- `setRow` leaves the table as it is when there is no slot `i`
      copyAllWords (t.setRow i row) (i + 1) token buf next rounds

/-- `get_command_line(a, type)` for a message of any number of words: their number and the table. -/
def getAllWords (stack : Stack) (t : CommandLine) (multicastId : BitVec 64) (a : List Byte)
    (type : ℤ) : Except MemoryFault (ℕ × CommandLine) := do
  let rounds := COMMAND_ITEMS + a.length + 1
  if type = 0 then
    let r ← readId a
    let b ← markDuplicate multicastId (BitVec.ofInt 64 (r.id stack)) r.token r.buf
    copyAllWords t 0 r.token b r.next rounds
  else
    let (token, a, next) ← strtok space a 0
    copyAllWords t 0 token a next rounds

/-- Words that fit the table are copied as `get_command_line` copies them. -/
lemma copyAllWords_of_copyWords {t : CommandLine} {i : ℕ} {token : Option ℕ} {buf : List Byte}
    {next : Option ℕ} {x : ℕ × CommandLine} (h : copyWords t i token buf next = .ok x)
    {rounds : ℕ} (hrounds : COMMAND_ITEMS - i < rounds) :
    copyAllWords t i token buf next rounds = .ok x := by
  induction rounds generalizing t i token buf next with
  | zero => omega
  | succ rounds ih =>
    rcases token with _ | p
    · rw [copyWords] at h
      exact h
    · rw [copyWords] at h
      rw [copyAllWords]
      by_cases hi : i < COMMAND_ITEMS
      · simp only [hi, dite_true] at h
        obtain ⟨row, hrow, h⟩ := bind_eq_ok_iff.mp h
        obtain ⟨y, hy, h⟩ := bind_eq_ok_iff.mp h
        simp only [hrow, hy, bind, Except.bind]
        exact ih h (by omega)
      · simp [hi] at h

/-- **A message that `get_command_line` copies into the table is read as before.** -/
theorem getAllWords_of_parsed {stack : Stack} {t t' : CommandLine} {multicastId id : BitVec 64}
    {a : List Byte} {type : ℤ} {n : ℕ}
    (h : getCommandLine stack t multicastId a type = .ok (n, t', id)) :
    getAllWords stack t multicastId a type = .ok (n, t') := by
  have hrounds : COMMAND_ITEMS - 0 < COMMAND_ITEMS + a.length + 1 := by omega
  unfold getAllWords
  by_cases htype : type = 0
  · subst htype
    obtain ⟨r, b, hr, hb, hcopy, -⟩ := getCommandLine_datagram h
    simp only [if_true, hr, hb, bind, Except.bind]
    exact copyAllWords_of_copyWords hcopy hrounds
  · unfold getCommandLine at h
    simp only [if_neg htype] at h ⊢
    obtain ⟨x, hx, h⟩ := bind_eq_ok_iff.mp h
    obtain ⟨y, hy, h⟩ := bind_eq_ok_iff.mp h
    simp only [Except.ok.injEq, Prod.mk.injEq] at h
    obtain ⟨rfl, rfl, -⟩ := h
    simp only [hx, bind, Except.bind]
    exact copyAllWords_of_copyWords hy hrounds

section Loop

variable {text pad buf w : List Byte}

/-- The loop at a word. -/
lemma copyAllWords_word {t : CommandLine} {i p : ℕ} (hw : 0 ∉ w) (hbuf : buf.drop p = w ++ 0 :: pad)
    (next : Option ℕ) (rounds : ℕ) :
    copyAllWords t i (some p) buf next (rounds + 1) = strtokNext space buf next >>= fun x =>
      copyAllWords (t.setRow i (rowOf w)) (i + 1) x.1 x.2.1 x.2.2 rounds := by
  have hrow : strncpy COMMAND_SLOT_SIZE (buf.drop p) = .ok (rowOf w) := by
    rw [hbuf]
    exact strncpy_terminated hw
  rw [copyAllWords]
  simp only [hrow, bind, Except.bind]

/-- The loop, started on a terminated text, comes to its end and has copied its words. -/
lemma copyAllWords_text (t : CommandLine) (i rounds : ℕ) {p : ℕ} (htext : 0 ∉ text)
    (hbuf : buf.drop p = text ++ 0 :: pad) (hrounds : text.length < rounds) :
    (strtok space buf p >>= fun x => copyAllWords t i x.1 x.2.1 x.2.2 rounds) =
      .ok (i + (wordsOf space text).length, t.fill i ((wordsOf space text).map rowOf)) := by
  have hspace : space ≠ 0 := by decide
  suffices h : ∀ (t : CommandLine) (i p rounds : ℕ) (buf : List Byte),
      buf.drop p = text ++ 0 :: pad → text.length < rounds →
        (strtok space buf p >>= fun x => copyAllWords t i x.1 x.2.1 x.2.2 rounds) =
          .ok (i + (wordsOf space text).length, t.fill i ((wordsOf space text).map rowOf)) from
    h t i p rounds buf hbuf hrounds
  refine text_induction space ?_ ?_ ?_ htext
  · rintro n t i p (_ | rounds) buf hbuf hrounds
    · omega
    · rw [strtok_blank hspace hbuf, wordsOf_replicate]
      simp only [bind, Except.bind]
      rw [copyAllWords]
      rfl
  · rintro n w hw t i p rounds buf hbuf hrounds
    have hone := List.length_pos_of_ne_nil hw.1
    rw [List.length_append] at hrounds
    obtain ⟨k, rfl⟩ := Nat.exists_eq_add_of_le' (show 2 ≤ rounds by omega)
    rw [List.append_assoc] at hbuf
    obtain ⟨htok, hat⟩ := strtok_last hw hbuf
    rw [htok, wordsOf_replicate_append, wordsOf_word hw]
    simp only [bind, Except.bind]
    rw [copyAllWords_word hw.2.2 hat]
    simp only [strtokNext, bind, Except.bind]
    rw [copyAllWords]
    rfl
  · rintro n w rest hw hrest ih t i p (_ | rounds) buf hbuf hrounds
    · omega
    · rw [List.append_assoc, List.append_assoc, List.cons_append] at hbuf
      obtain ⟨htok, hat, hafter⟩ := strtok_next hspace hw hbuf
      have hless : rest.length < rounds := by
        simp only [List.length_append, List.length_cons] at hrounds
        omega
      rw [htok, wordsOf_replicate_append, wordsOf_word_append hw]
      simp only [bind, Except.bind]
      rw [copyAllWords_word hw.2.2 hat]
      simp only [strtokNext]
      rw [ih _ _ _ _ _ hafter hless, List.length_cons, List.map_cons, CommandLine.fill]
      congr 2
      omega

/-- **Every terminated message sent without an id is read to its end**, whatever its words. -/
theorem getAllWords_text {type : ℤ} (htype : type ≠ 0) (htext : 0 ∉ text) (pad : List Byte)
    (stack : Stack) (t : CommandLine) (multicastId : BitVec 64) :
    getAllWords stack t multicastId (text ++ 0 :: pad) type =
      .ok ((wordsOf space text).length, t.fill 0 ((wordsOf space text).map rowOf)) := by
  have hstart : (text ++ 0 :: pad).drop 0 = text ++ 0 :: pad := rfl
  have h := copyAllWords_text t 0 (COMMAND_ITEMS + (text ++ 0 :: pad).length + 1) htext hstart
    (by rw [List.length_append]; omega)
  rw [Nat.zero_add] at h
  unfold getAllWords
  simp only [if_neg htype]
  exact h

/-- **Every terminated datagram with a new id is read to its end**, whatever its words. -/
theorem getAllWords_datagram {stack : Stack} {multicastId : BitVec 64} {idWord : List Byte}
    {ws : List (List Byte)} (htext : 0 ∉ text) (hwords : wordsOf space text = idWord :: ws)
    (hid : BitVec.ofInt 64 (idNumber stack idWord) ≠ multicastId) (pad : List Byte)
    (t : CommandLine) : getAllWords stack t multicastId (text ++ 0 :: pad) 0 =
      .ok (ws.length, t.fill 0 (ws.map rowOf)) := by
  unfold getAllWords
  simp only [if_true]
  rcases exists_shape space htext with ⟨n, rfl⟩ | ⟨n, w, hw, rfl | ⟨r, rfl⟩⟩
  · rw [wordsOf_replicate] at hwords
    exact absurd hwords (by simp)
  · rw [wordsOf_replicate_append, wordsOf_word hw] at hwords
    obtain ⟨rfl, rfl⟩ := List.cons.inj hwords
    rw [List.append_assoc, readId_last hw rfl]
    have hnew : ¬ BitVec.ofInt 64 (ReadId.id ⟨padded 100 w, none,
        List.replicate n space ++ (w ++ 0 :: pad), none⟩ stack) = multicastId := hid
    simp only [bind, Except.bind, markDuplicate, if_neg hnew]
    rfl
  · rw [wordsOf_replicate_append, wordsOf_word_append hw] at hwords
    obtain ⟨rfl, rfl⟩ := List.cons.inj hwords
    have hmsg : List.replicate n space ++ (w ++ space :: r) ++ 0 :: pad =
        List.replicate n space ++ (w ++ space :: (r ++ 0 :: pad)) := by simp
    obtain ⟨b, q, hlen, -, hafter, hread⟩ := readId_next hw hmsg
    have hr : 0 ∉ r := fun h => htext (by simp [h])
    have h := copyAllWords_text t 0
      (COMMAND_ITEMS + (List.replicate n space ++ (w ++ space :: r) ++ 0 :: pad).length + 1)
      hr hafter (by
        simp only [List.length_append, List.length_cons]
        omega)
    rw [Nat.zero_add] at h
    rw [hread, ← h, bind_assoc]
    apply bind_congr
    rintro ⟨token, b, next⟩
    have hnew : ¬ BitVec.ofInt 64 (ReadId.id ⟨padded 100 w, token, b, next⟩ stack) =
        multicastId := hid
    simp only [bind, Except.bind, markDuplicate, if_neg hnew]

end Loop

/-! ## The commands -/

/-- The commands with a value for each device. -/
inductive NumberedCommand where
  | stepperNumTranslate
  | stepperNumSine
deriving DecidableEq

namespace NumberedCommand

/-- The branch of the handler. -/
def branch : NumberedCommand → Branch
  | stepperNumTranslate => stepperNumTranslateBranch
  | stepperNumSine => stepperNumSineBranch

/-- `selectedCommand`. -/
def selectedCommand : NumberedCommand → ℤ → ℤ
  | stepperNumTranslate, number => number + 2
  | stepperNumSine, number => number + 6

/-- The slot behind the fixed parameters of the command: two of `stepperNumTranslate`, four of
`stepperNumSine`. -/
def firstValue : NumberedCommand → ℤ
  | stepperNumTranslate => 3
  | stepperNumSine => 5

/-- The message of `n` words carries a value for this number. -/
def Carries (c : NumberedCommand) (n : ℕ) (number : ℤ) : Prop :=
  c.firstValue ≤ c.selectedCommand number ∧ c.selectedCommand number < n

instance (c : NumberedCommand) (n : ℕ) (number : ℤ) : Decidable (c.Carries n number) :=
  inferInstanceAs (Decidable (_ ∧ _))

/-- The command does nothing for this number: `if (device_stepper.number != 0)`. -/
def Ignores (c : NumberedCommand) (number : ℤ) : Prop := c = stepperNumTranslate ∧ number = 0

instance (c : NumberedCommand) (number : ℤ) : Decidable (c.Ignores number) :=
  inferInstanceAs (Decidable (_ ∧ _))

end NumberedCommand

/-- A move for `stepper_task`, or a pattern of moves for a generator. -/
def Effect.isMove : Effect → Bool
  | .stepperQueue _ => true
  | .sineQueue _ => true
  | _ => false

/-- The handler enqueues a move; when it reads outside the table it may do so. -/
def MayMove : Except MemoryFault (List Effect) → Prop
  | .error _ => True
  | .ok effects => ∃ e ∈ effects, e.isMove = true

/-- A move is enqueued only with a value of this message: the index is one of the values of the
message and of the table, and without a value for the device there is no move. -/
def PicksOwnValue (c : NumberedCommand) (n : ℕ) (number : ℤ)
    (outcome : Except MemoryFault (List Effect)) : Prop :=
  (MayMove outcome → c.firstValue ≤ c.selectedCommand number ∧
    c.selectedCommand number < COMMAND_ITEMS ∧ c.selectedCommand number < n) ∧
  (¬ c.Carries n number → ¬ MayMove outcome)

/-- What the handler does with a message in memory of any number of words. -/
def NetState.outcome (env : Environment) (r : Receiver) (a : List Byte) (s : NetState) :
    Except MemoryFault (List Effect) := do
  let (_, t) ← getAllWords env.stack s.commandLine s.multicastId a r.commandType
  (dispatch env t r.commandType ⟨s.stepper, s.location, []⟩).map Handling.effects

/-- It is what `command_handler` does when the words fit the table. -/
lemma NetState.outcome_of_parsed {s : NetState} {env : Environment} {r : Receiver} {m : Message}
    {n : ℕ} {t : CommandLine} {id : BitVec 64}
    (h : getCommandLine env.stack s.commandLine s.multicastId m.toList r.commandType =
      .ok (n, t, id)) : s.outcome env r m.toList = s.effects env r m := by
  rw [NetState.effects_of_parsed h, outcome, getAllWords_of_parsed h]
  rfl

/-! ## What the commands enqueue -/

namespace NumberedCommand

section Dispatch

variable {c : NumberedCommand} {env : Environment} {t : CommandLine} {w : Row} {rest : List Row}
  {h : Handling}

lemma branch_mem (c : NumberedCommand) : c.branch ∈ standardBranches := by
  rcases c <;> simp [branch, standardBranches]

/-- The branch does not return. -/
lemma branch_returns (c : NumberedCommand) : c.branch.returns = false := by
  rcases c <;> rfl

/-- No word of the TCP chain starts like these commands. -/
lemma tcpMatch_of_accepts (hacc : c.branch.accepts w = true) : tcpMatch w = none := by
  refine tcpMatch_eq_none c.branch_mem ?_ ?_ hacc
  · rcases c <;> decide
  · rcases c <;> decide

/-- The comparisons come to the branch of the command. -/
lemma dispatch_eq_exec (ht : t.rows = w :: rest) (hacc : c.branch.accepts w = true) (type : ℤ) :
    dispatch env t type h = c.branch.exec env t h := by
  have hmatch : standardMatch w = some c.branch :=
    find?_eq_some_of_exclusive exclusive_standardBranches c.branch_mem hacc
  rw [dispatch_eq env ht, hmatch, tcpMatch_of_accepts hacc]
  rcases hexec : c.branch.exec env t h with e | h'
  · simp [execMatch, hexec, Except.map]
  · simp [execMatch, hexec, Except.map, c.branch_returns]

/-- A command that ignores the number reads nothing and does nothing. -/
lemma exec_of_ignores (hignores : c.Ignores h.stepper.number) : c.branch.exec env t h = .ok h := by
  obtain ⟨rfl, hzero⟩ := hignores
  simp [branch, stepperNumTranslateBranch, Branch.exec, hzero, bind, Except.bind, pure,
    Except.pure]

/-- A command that does not ignore the number enqueues a move. -/
lemma exists_move_of_not_ignores (hignores : ¬ c.Ignores h.stepper.number) (word : ℤ → ℤ) :
    ∃ e, e.isMove = true ∧ (c.branch.act env word h).effects = h.effects ++ [e] := by
  rcases c with _ | _
  · have hnumber : h.stepper.number ≠ 0 := fun hzero => hignores ⟨rfl, hzero⟩
    have hact : (branch stepperNumTranslate).act env word h = h.commandMove 1
        (word (h.stepper.number + 2)) (word 1) (word 2) 0 := if_pos hnumber
    rw [hact]
    exact ⟨_, rfl, rfl⟩
  · exact ⟨_, rfl, rfl⟩

/-- From no effects, a command may move the motor exactly when it does not ignore the number. -/
lemma mayMove_exec_iff (heffects : h.effects = []) :
    MayMove ((c.branch.exec env t h).map Handling.effects) ↔ ¬ c.Ignores h.stepper.number := by
  by_cases hignores : c.Ignores h.stepper.number
  · simp [exec_of_ignores hignores, Except.map, MayMove, heffects, hignores]
  · refine iff_of_true ?_ hignores
    unfold Branch.exec
    rcases (c.branch.slots h.stepper).mapM t.atoiSlot with e | values
    · exact trivial
    · let word : ℤ → ℤ := fun j => (((c.branch.slots h.stepper).zip values).lookup j).getD 0
      obtain ⟨e, hmove, he⟩ : ∃ e : Effect, e.isMove = true ∧
          (c.branch.act env word h).effects = h.effects ++ [e] :=
        exists_move_of_not_ignores hignores word
      refine ⟨e, ?_, hmove⟩
      rw [he]
      exact List.mem_append_right _ List.mem_cons_self

end Dispatch

/-- **When a device takes its own value.**  A message of `n` words whose command word is one of the
two moves the motor with a value of this message exactly when the message carries a value for the
number of the device in a slot of the table, or the command ignores the number. -/
theorem picksOwnValue_iff (c : NumberedCommand) {s : NetState} {env : Environment} {r : Receiver}
    {a : List Byte} {n : ℕ} {t : CommandLine} {w : Row} {rest : List Row}
    (hline : getAllWords env.stack s.commandLine s.multicastId a r.commandType = .ok (n, t))
    (ht : t.rows = w :: rest) (hacc : c.branch.accepts w = true) :
    PicksOwnValue c n s.stepper.number (s.outcome env r a) ↔
      c.Ignores s.stepper.number ∨
        (c.Carries n s.stepper.number ∧ c.selectedCommand s.stepper.number < COMMAND_ITEMS) := by
  have hmay : MayMove (s.outcome env r a) ↔ ¬ c.Ignores s.stepper.number := by
    rw [NetState.outcome, hline]
    simp only [bind, Except.bind, dispatch_eq_exec ht hacc]
    exact mayMove_exec_iff rfl
  unfold PicksOwnValue
  rw [hmay]
  unfold Carries
  by_cases hignores : c.Ignores s.stepper.number
  · simp [hignores]
  · simp only [hignores, not_false_iff, true_imp_iff, false_or, not_true, imp_false, not_not]
    tauto

/-- A device with the limits 0 and 100 and some number. -/
def numbered (number : ℤ) : NetState := .boot ⟨0, 0, 100, 0, number⟩ ⟨0, 0, 0⟩

/-- A move for the devices 1 to 3. -/
def threeValues : Message := .ofText "stepperNumTranslate 100 200 7 8 9"

/-- A move for the devices 1 to 39, in 42 words. -/
def manyValues : List Byte :=
  ascii "stepperNumTranslate 100 200" ++ (List.replicate 39 [space, 55]).flatten ++ [0]

/-- What the device with the number 37 makes of them. -/
def manyWords : Except MemoryFault (ℕ × CommandLine) :=
  getAllWords Environment.faithful.stack (numbered 37).commandLine (numbered 37).multicastId
    manyValues Receiver.tcp.commandType

/-- The device with the number 37 takes the value in the last slot, though the message goes on
behind the table. -/
theorem picksOwnValue_last : ∃ n t w rest, manyWords = .ok (n, t) ∧ t.rows = w :: rest ∧
    n = 42 ∧ PicksOwnValue stepperNumTranslate n 37
      ((numbered 37).outcome .faithful .tcp manyValues) := by
  have hwords : manyWords.toOption.any (fun x =>
      x.1 = 42 ∧ x.2.rows.head?.any fun w => stepperNumTranslateBranch.accepts w) = true := by
    decide +kernel
  rcases hline : manyWords with e | ⟨n, t⟩
  · simp [hline, Except.toOption] at hwords
  · rcases hrows : t.rows with _ | ⟨w, rest⟩
    · simp [hline, Except.toOption, hrows] at hwords
    · obtain ⟨rfl, hacc⟩ : n = 42 ∧ stepperNumTranslateBranch.accepts w = true := by
        simpa [hline, Except.toOption, hrows] using hwords
      exact ⟨42, t, w, rest, rfl, hrows, rfl,
        (picksOwnValue_iff stepperNumTranslate hline hrows hacc).mpr (.inr (by decide))⟩

/-- **A device without a value of its own moves all the same**: the fifth device finds nothing in
the message and goes to the position in a slot that the message did not fill, a device with the
number -1 takes the speed for its position, and the device 38 of a crowded message reads behind the
table. -/
theorem not_picksOwnValue_fifth :
    (getAllWords .clear .zero 1 threeValues.toList Receiver.tcp.commandType).map Prod.fst = .ok 6 ∧
      (numbered 5).outcome .faithful .tcp threeValues.toList =
        .ok [.stepperQueue ⟨0, 100, 100, 200, 0, 1, 0⟩] ∧
      ¬ PicksOwnValue stepperNumTranslate 6 5
        ((numbered 5).outcome .faithful .tcp threeValues.toList) ∧
      (numbered (-1)).outcome .faithful .tcp threeValues.toList =
        .ok [.stepperQueue ⟨0, 100, 100, 200, 100, 1, 0⟩] ∧
      ¬ PicksOwnValue stepperNumTranslate 6 (-1)
        ((numbered (-1)).outcome .faithful .tcp threeValues.toList) ∧
      (getAllWords .clear .zero 1 manyValues Receiver.tcp.commandType).map Prod.fst = .ok 42 ∧
      (numbered 38).outcome .faithful .tcp manyValues = .error outOfBounds ∧
      ¬ PicksOwnValue stepperNumTranslate 42 38
        ((numbered 38).outcome .faithful .tcp manyValues) := by
  have hfifth : (numbered 5).outcome .faithful .tcp threeValues.toList =
      .ok [.stepperQueue ⟨0, 100, 100, 200, 0, 1, 0⟩] := by decide +kernel
  have hnegative : (numbered (-1)).outcome .faithful .tcp threeValues.toList =
      .ok [.stepperQueue ⟨0, 100, 100, 200, 100, 1, 0⟩] := by decide +kernel
  have hbehind : (numbered 38).outcome .faithful .tcp manyValues = .error outOfBounds := by
    decide +kernel
  refine ⟨by decide +kernel, hfifth, ?_, hnegative, ?_, by decide +kernel, hbehind, ?_⟩
  · rintro ⟨hindex, -⟩
    have hmove := hindex (by rw [hfifth]; exact ⟨_, List.mem_cons_self, rfl⟩)
    exact absurd hmove.2.2 (by decide)
  · rintro ⟨hindex, -⟩
    have hmove := hindex (by rw [hnegative]; exact ⟨_, List.mem_cons_self, rfl⟩)
    exact absurd hmove.1 (by decide)
  · rintro ⟨hindex, -⟩
    have hmove := hindex (by rw [hbehind]; trivial)
    exact absurd hmove.2.1 (by decide)

end NumberedCommand

end Strand
