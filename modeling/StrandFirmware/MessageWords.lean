import StrandFirmware.HandlerBranches
import StrandFirmware.Library.Words

/-!
# What a message says

`messageRows` is `get_command_line` without the table: the slots that a message writes, in order,
and the new `multicast_id`, or the place at which the call leaves defined behaviour.  The three
places are told apart here: a null pointer given to `strncpy`, an access outside the message, and a
slot outside the table.  `getCommandLine_eq` says that `get_command_line` writes exactly these
slots.  So what a message puts into the table, and whether it faults, depends on the message, the
last id and what lies behind `buff` alone (`getCommandLine_writesFresh`).

For a terminated message the slots are its words (`messageRows_text`); for a datagram they are the
words after the id, and a repeated id has the first of them replaced by `duplicate`
(`messageRows_datagram`).
-/

namespace Strand

open CString MemoryFault

/-! ## The places where the parser leaves defined behaviour -/

/-- Where `get_command_line` first leaves defined behaviour. -/
inductive ParseFault where
  /-- `strncpy` is given the null pointer that `strtok` returned. -/
  | noWord
  /-- A byte outside the message is read or written. -/
  | message
  /-- A slot outside `command_line` is written. -/
  | slot
deriving DecidableEq

/-- The fault of the memory access. -/
def ParseFault.kind : ParseFault → MemoryFault
  | .noWord => nullPointer
  | .message => outOfBounds
  | .slot => outOfBounds

/-- An access to the memory of one object. -/
def within {α : Type} (place : ParseFault) (x : Except MemoryFault α) : Except ParseFault α :=
  x.mapError fun _ => place

/-- The slots written by the loop over the words, from slot `i` on. -/
def wordRows (i : ℕ) (token : Option ℕ) (buf : List Byte) (next : Option ℕ) :
    Except ParseFault (List Row) :=
  match token with
  | none => .ok []
  | some p =>
    if _h : i < COMMAND_ITEMS then do
      let row ← within .message (strncpy COMMAND_SLOT_SIZE (buf.drop p))
      let (token, buf, next) ← within .message (strtokNext space buf next)
      let rows ← wordRows (i + 1) token buf next
      .ok (row :: rows)
    else .error .slot
termination_by COMMAND_ITEMS - i

/-- The check for a repeated id, with its place. -/
def markRepeat (multicastId id : BitVec 64) (token : Option ℕ) (a : List Byte) :
    Except ParseFault (List Byte) :=
  if id = multicastId then
    match token with
    | none => .error .noWord
    | some p => within .message (overwrite a p (ascii "duplicate" ++ [0]))
  else .ok a

/-- The number that `atoi` reads from `buff` on. -/
def Stack.atoi (stack : Stack) (buff : List Byte) : ℤ :=
  (CString.atoi (buff ++ stack.bytes)).toOption.getD 0

/-- The conversion of an id never fails: its number ends at the first zero, if not before. -/
lemma Stack.atoi_append (stack : Stack) (buff : List Byte) :
    CString.atoi (buff ++ stack.bytes) = .ok (stack.atoi buff) := by
  obtain ⟨l, r, hbytes⟩ := List.append_of_mem stack.zero_mem
  obtain ⟨v, hv⟩ : ∃ v, CString.atoi (buff ++ stack.bytes) = .ok v := by
    rw [hbytes, ← List.append_assoc]
    exact exists_atoi_append_eq_ok (by decide) (by decide) (by decide) (by decide)
  simp [Stack.atoi, hv, Except.toOption]

/-- The slots written by `get_command_line(a, type)` and the new `multicast_id`. -/
def messageRows (stack : Stack) (multicastId : BitVec 64) (a : List Byte) (type : ℤ) :
    Except ParseFault (List Row × BitVec 64) := do
  let (token, a, next) ← within .message (strtok space a 0)
  if type = 0 then
    match token with
    | none => .error .noWord
    | some p =>
      let buff ← within .message (strncpy 100 (a.drop p))
      let (token, a, next) ← within .message (strtokNext space a next)
      let id := BitVec.ofInt 64 (stack.atoi buff.toList)
      let a ← markRepeat multicastId id token a
      let rows ← wordRows 0 token a next
      .ok (rows, id)
  else
    let rows ← wordRows 0 token a next
    .ok (rows, multicastId)

/-- Write slots from slot `i` on. -/
def CommandLine.fill (t : CommandLine) (i : ℕ) : List Row → CommandLine
  | [] => t
  | row :: rows => (t.setRow i row).fill (i + 1) rows

/-! ## `get_command_line` writes these slots -/

/-- Forgetting the places does not change the result. -/
lemma mapError_eq_ok_iff {ε ε' α : Type} {f : ε → ε'} {x : Except ε α} {a : α} :
    x.mapError f = .ok a ↔ x = .ok a := by
  rcases x with e | b <;> simp [Except.mapError]

/-- A step that was given a place returns what it returns. -/
lemma within_eq_ok_iff {α : Type} {place : ParseFault} {x : Except MemoryFault α} {a : α} :
    within place x = .ok a ↔ x = .ok a := mapError_eq_ok_iff

/-- Forgetting the places of a computation in steps. -/
lemma mapError_bind {ε ε' α β : Type} (f : ε → ε') (x : Except ε α) (g : α → Except ε β) :
    (x >>= g).mapError f = x.mapError f >>= fun a => (g a).mapError f := by
  rcases x with e | a
  · rfl
  · rfl

section Places

variable {α : Type} {place : ParseFault} {x : Except MemoryFault α}

/-- A memory access whose only fault is that of its place. -/
lemma mapError_within (h : x = .error place.kind ∨ ∃ a, x = .ok a) :
    (within place x).mapError ParseFault.kind = x := by
  rcases h with rfl | ⟨a, rfl⟩
  · rfl
  · rfl

lemma mapError_strtok (buf : List Byte) (p : ℕ) :
    (within .message (strtok space buf p)).mapError ParseFault.kind = strtok space buf p :=
  mapError_within (strtok_cases space buf p)

lemma mapError_strtokNext (buf : List Byte) (next : Option ℕ) :
    (within .message (strtokNext space buf next)).mapError ParseFault.kind =
      strtokNext space buf next :=
  mapError_within (strtokNext_cases space buf next)

lemma mapError_strncpy (n : ℕ) (m : List Byte) :
    (within .message (strncpy n m)).mapError ParseFault.kind = strncpy n m :=
  mapError_within (strncpy_cases n m)

end Places

/-- The check for a repeated id is `markDuplicate`. -/
lemma mapError_markRepeat (multicastId id : BitVec 64) (token : Option ℕ) (a : List Byte) :
    (markRepeat multicastId id token a).mapError ParseFault.kind =
      markDuplicate multicastId id token a := by
  unfold markRepeat markDuplicate
  split
  · rcases token with _ | p
    · rfl
    · apply mapError_within
      unfold overwrite
      split
      · exact .inr ⟨_, rfl⟩
      · exact .inl rfl
  · rfl

/-- The word loop writes the slots of `wordRows`. -/
lemma copyWords_eq (t : CommandLine) (i : ℕ) (token : Option ℕ) (buf : List Byte)
    (next : Option ℕ) :
    copyWords t i token buf next = (wordRows i token buf next).mapError ParseFault.kind >>=
      fun rows => .ok (i + rows.length, t.fill i rows) := by
  -- the induction follows the slots that are still free
  induction hn : COMMAND_ITEMS - i generalizing t i token buf next with
  | zero =>
    rcases token with _ | p
    · rw [copyWords, wordRows]
      rfl
    · have hi : ¬ i < COMMAND_ITEMS := by omega
      rw [copyWords, wordRows]
      simp only [hi, dite_false]
      rfl
  | succ n ih =>
    rcases token with _ | p
    · rw [copyWords, wordRows]
      rfl
    · have hi : i < COMMAND_ITEMS := by omega
      rw [copyWords, wordRows]
      simp only [hi, dite_true, mapError_bind, mapError_strncpy, mapError_strtokNext, bind_assoc]
      apply bind_congr
      intro row
      apply bind_congr
      rintro ⟨token, buf, next⟩
      rw [ih _ _ _ _ _ (by omega)]
      apply bind_congr
      intro rows
      simp only [Except.mapError, bind, Except.bind, List.length_cons, CommandLine.fill]
      congr 2
      omega

/-- **`get_command_line` writes the slots of the message**, or leaves defined behaviour where the
message does. -/
theorem getCommandLine_eq (stack : Stack) (t : CommandLine) (multicastId : BitVec 64)
    (a : List Byte) (type : ℤ) : getCommandLine stack t multicastId a type =
      (messageRows stack multicastId a type).mapError ParseFault.kind >>=
        fun (rows, id) => .ok (rows.length, t.fill 0 rows, id) := by
  unfold getCommandLine messageRows
  rw [mapError_bind, mapError_strtok, bind_assoc]
  apply bind_congr
  rintro ⟨token, a, next⟩
  by_cases htype : type = 0
  · simp only [if_pos htype]
    rcases token with _ | p
    · rfl
    · simp only [mapError_bind, mapError_strncpy, mapError_strtokNext, mapError_markRepeat,
        stack.atoi_append, bind_assoc, copyWords_eq]
      apply bind_congr
      intro buff
      apply bind_congr
      rintro ⟨token, a, next⟩
      change markDuplicate _ _ _ _ >>= _ = markDuplicate _ _ _ _ >>= _
      apply bind_congr
      intro b
      apply bind_congr
      intro rows
      simp [Except.mapError, bind, Except.bind]
  · simp only [if_neg htype, mapError_bind, bind_assoc, copyWords_eq]
    apply bind_congr
    intro rows
    simp [Except.mapError, bind, Except.bind]

/-! ## What a message puts into the table -/

/-- Filling slots changes no other slot. -/
lemma rows_fill {t : CommandLine} {i : ℕ} {rows : List Row}
    (h : i + rows.length ≤ COMMAND_ITEMS) :
    (t.fill i rows).rows = t.rows.take i ++ rows ++ t.rows.drop (i + rows.length) := by
  induction rows generalizing t i with
  | nil => simp [CommandLine.fill]
  | cons row rows ih =>
    rw [List.length_cons] at h
    have hlen : i < t.rows.length := by
      rw [t.length_rows]
      omega
    have htake : (t.setRow i row).rows.take (i + 1) = t.rows.take i ++ [row] := by
      rw [CommandLine.setRow, List.take_add_one, List.getElem?_set_self hlen,
        List.take_set_of_le le_rfl]
      rfl
    have hdrop : (t.setRow i row).rows.drop (i + 1 + rows.length) =
        t.rows.drop (i + 1 + rows.length) := List.drop_set_of_lt (by omega)
    rw [CommandLine.fill, ih (by omega), htake, hdrop, List.length_cons]
    simp [Nat.add_assoc, Nat.add_comm 1]

/-- What a message that stays in defined behaviour does to the table. -/
lemma getCommandLine_of_rows {stack : Stack} {multicastId id : BitVec 64} {a : List Byte} {type : ℤ}
    {rows : List Row} (h : messageRows stack multicastId a type = .ok (rows, id))
    (t : CommandLine) :
    getCommandLine stack t multicastId a type = .ok (rows.length, t.fill 0 rows, id) := by
  rw [getCommandLine_eq, h]
  rfl

/-- The word loop stays inside the table. -/
lemma add_length_wordRows_le {i : ℕ} {token : Option ℕ} {buf : List Byte} {next : Option ℕ}
    {rows : List Row} (h : wordRows i token buf next = .ok rows) (hi : i ≤ COMMAND_ITEMS) :
    i + rows.length ≤ COMMAND_ITEMS := by
  induction rows generalizing i token buf next with
  | nil => exact hi
  | cons row rows ih =>
    rcases token with _ | p
    · rw [wordRows] at h
      simp at h
    · rw [wordRows] at h
      by_cases hlt : i < COMMAND_ITEMS
      · simp only [hlt, dite_true] at h
        obtain ⟨row', -, h⟩ := bind_eq_ok_iff.mp h
        obtain ⟨⟨token, buf', next'⟩, -, h⟩ := bind_eq_ok_iff.mp h
        obtain ⟨rows', hrows', h⟩ := bind_eq_ok_iff.mp h
        obtain ⟨rfl, rfl⟩ := List.cons.inj (Except.ok.inj h)
        have := ih hrows' hlt
        rw [List.length_cons]
        omega
      · simp [hlt] at h

/-- The first word that is copied goes into the first slot. -/
lemma exists_wordRows_eq_cons {p : ℕ} {buf : List Byte} {next : Option ℕ} {rows : List Row}
    (h : wordRows 0 (some p) buf next = .ok rows) :
    ∃ w rest, strncpy COMMAND_SLOT_SIZE (buf.drop p) = .ok w ∧ rows = w :: rest := by
  rw [wordRows] at h
  simp only [show 0 < COMMAND_ITEMS by decide, dite_true] at h
  obtain ⟨w, hw, h⟩ := bind_eq_ok_iff.mp h
  obtain ⟨x, -, h⟩ := bind_eq_ok_iff.mp h
  obtain ⟨rest, -, h⟩ := bind_eq_ok_iff.mp h
  exact ⟨w, rest, within_eq_ok_iff.mp hw, (Except.ok.inj h).symm⟩

/-- A message stays inside the table. -/
lemma length_messageRows_le {stack : Stack} {multicastId id : BitVec 64} {a : List Byte} {type : ℤ}
    {rows : List Row} (h : messageRows stack multicastId a type = .ok (rows, id)) :
    rows.length ≤ COMMAND_ITEMS := by
  unfold messageRows at h
  obtain ⟨⟨token, b, next⟩, -, h⟩ := bind_eq_ok_iff.mp h
  have hend : ∀ {token b next id'}, (wordRows 0 token b next >>= fun rows => .ok (rows, id')) =
      .ok (rows, id) → rows.length ≤ COMMAND_ITEMS := by
    intro token b next id' hloop
    obtain ⟨rows', hrows', heq⟩ := bind_eq_ok_iff.mp hloop
    obtain ⟨rfl, -⟩ := Prod.mk.inj (Except.ok.inj heq)
    simpa using add_length_wordRows_le hrows' (Nat.zero_le _)
  dsimp only at h
  split at h
  · rcases token with _ | p
    · simp at h
    · obtain ⟨buff, -, h⟩ := bind_eq_ok_iff.mp h
      obtain ⟨⟨token, b, next⟩, -, h⟩ := bind_eq_ok_iff.mp h
      obtain ⟨marked, -, h⟩ := bind_eq_ok_iff.mp h
      exact hend h
  · exact hend h

/-- **What a message puts into the table** does not depend on the table. -/
theorem getCommandLine_writesFresh (stack : Stack) (multicastId : BitVec 64) (a : List Byte)
    (type : ℤ) : WritesFresh fun t => getCommandLine stack t multicastId a type := by
  rcases h : messageRows stack multicastId a type with e | ⟨rows, id⟩
  · refine .inl ⟨e.kind, fun t => ?_⟩
    change getCommandLine stack t multicastId a type = .error e.kind
    rw [getCommandLine_eq, h]
    rfl
  · have hlen := length_messageRows_le h
    refine .inr ⟨rows, id, hlen, fun t => ⟨_, getCommandLine_of_rows h t, ?_⟩⟩
    rw [CommandLine.Overwritten, rows_fill (by simpa using hlen)]
    simp

/-- `get_command_line` returns the number of slots it wrote, which is at most their number. -/
lemma getCommandLine_le {stack : Stack} {t t' : CommandLine} {multicastId id : BitVec 64}
    {a : List Byte} {type : ℤ} {n : ℕ}
    (h : getCommandLine stack t multicastId a type = .ok (n, t', id)) : n ≤ COMMAND_ITEMS := by
  rcases getCommandLine_writesFresh stack multicastId a type with ⟨e, he⟩ | ⟨fresh, _, hle, hfresh⟩
  · simp [he t] at h
  · obtain ⟨t'', ht'', -⟩ := hfresh t
    obtain rfl : fresh.length = n := (Prod.mk.inj (Except.ok.inj (ht''.symm.trans h))).1
    exact hle

/-! ## The id of a datagram -/

/-- The first word of a message in memory: the id of a datagram. -/
def idWord (a : List Byte) : List Byte :=
  (a.dropWhile fun c => c == space).takeWhile fun c => c != space && c != 0

/-- What `get_command_line` has read of a datagram when it converts the id. -/
structure ReadId where
  /-- `buff`: the copy of the id word. -/
  buff : List.Vector Byte 100
  /-- `token`: the offset of the command word. -/
  token : Option ℕ
  /-- The message, with a zero after the words that were read. -/
  buf : List Byte
  /-- Where `strtok` continues. -/
  next : Option ℕ

/-- `atoi(buff)`. -/
def ReadId.id (r : ReadId) (stack : Stack) : ℤ := stack.atoi r.buff.toList

/-- The part of `get_command_line` before the conversion, for a message of type 0. -/
def readId (a : List Byte) : Except MemoryFault ReadId := do
  let (token, a, next) ← strtok space a 0
  match token with
  | none => .error nullPointer
  | some p =>
    let buff ← strncpy 100 (a.drop p)
    let (token, a, next) ← strtokNext space a next
    .ok ⟨buff, token, a, next⟩

/-- For a message of type 0, `get_command_line` is `readId`, the check, and the copy of the
words. -/
lemma getCommandLine_eq_readId (stack : Stack) (t : CommandLine) (multicastId : BitVec 64)
    (a : List Byte) : getCommandLine stack t multicastId a 0 = readId a >>= fun r =>
      markDuplicate multicastId (BitVec.ofInt 64 (r.id stack)) r.token r.buf >>= fun b =>
        copyWords t 0 r.token b r.next >>= fun x =>
          .ok (x.1, x.2, BitVec.ofInt 64 (r.id stack)) := by
  unfold getCommandLine readId
  simp only [if_true, bind_assoc]
  apply bind_congr
  rintro ⟨token, b, next⟩
  rcases token with _ | p
  · rfl
  · simp only [bind_assoc, stack.atoi_append]
    rfl

/-- What a datagram that was parsed has left. -/
lemma getCommandLine_datagram {stack : Stack} {t t' : CommandLine} {multicastId id' : BitVec 64}
    {a : List Byte} {n : ℕ} (h : getCommandLine stack t multicastId a 0 = .ok (n, t', id')) :
    ∃ r b, readId a = .ok r ∧
      markDuplicate multicastId (BitVec.ofInt 64 (r.id stack)) r.token r.buf = .ok b ∧
      copyWords t 0 r.token b r.next = .ok (n, t') ∧ id' = BitVec.ofInt 64 (r.id stack) := by
  rw [getCommandLine_eq_readId] at h
  obtain ⟨r, hr, h⟩ := bind_eq_ok_iff.mp h
  obtain ⟨b, hb, h⟩ := bind_eq_ok_iff.mp h
  obtain ⟨⟨i, u⟩, hcopy, h⟩ := bind_eq_ok_iff.mp h
  simp only [Except.ok.injEq, Prod.mk.injEq] at h
  obtain ⟨rfl, rfl, rfl⟩ := h
  exact ⟨r, b, hr, hb, hcopy, rfl⟩

/-- A message of another type leaves `multicast_id` alone, and its id is not converted. -/
lemma getCommandLine_other (stack stack' : Stack) (t : CommandLine) (multicastId : BitVec 64)
    (a : List Byte) {type : ℤ} (htype : type ≠ 0) :
    getCommandLine stack t multicastId a type = getCommandLine stack' t multicastId a type ∧
      ∀ n t' id', getCommandLine stack t multicastId a type = .ok (n, t', id') →
        id' = multicastId := by
  unfold getCommandLine
  simp only [if_neg htype]
  refine ⟨trivial, ?_⟩
  intro n t' id' h
  obtain ⟨x, -, h⟩ := bind_eq_ok_iff.mp h
  obtain ⟨y, -, h⟩ := bind_eq_ok_iff.mp h
  simp only [Except.ok.injEq, Prod.mk.injEq] at h
  exact h.2.2.symm

/-! ## The words of a terminated message -/

/-- Some words in the slots from slot `i` on. -/
def rowsFrom (i : ℕ) (ws : List (List Byte)) : Except ParseFault (List Row) :=
  if i + ws.length ≤ COMMAND_ITEMS then .ok (ws.map rowOf) else .error .slot

/-- One more word before some words. -/
lemma rowsFrom_cons (i : ℕ) (w : List Byte) (ws : List (List Byte)) :
    rowsFrom i (w :: ws) = if i < COMMAND_ITEMS then
      rowsFrom (i + 1) ws >>= fun rows => .ok (rowOf w :: rows) else .error .slot := by
  have hlen : i + (w :: ws).length = i + 1 + ws.length := by
    rw [List.length_cons]
    omega
  unfold rowsFrom
  rw [hlen]
  by_cases hfit : i + 1 + ws.length ≤ COMMAND_ITEMS
  · have hi : i < COMMAND_ITEMS := by omega
    simp [hfit, hi, bind, Except.bind]
  · simp [hfit, bind, Except.bind]

section Loop

variable {i p : ℕ} {text pad buf w : List Byte}

/-- The word loop at a word. -/
lemma wordRows_word (hw : 0 ∉ w) (hbuf : buf.drop p = w ++ 0 :: pad) (next : Option ℕ) :
    wordRows i (some p) buf next = if i < COMMAND_ITEMS then
      (within .message (strtokNext space buf next) >>= fun x =>
        wordRows (i + 1) x.1 x.2.1 x.2.2) >>= fun rows => .ok (rowOf w :: rows)
      else .error .slot := by
  have hrow : strncpy COMMAND_SLOT_SIZE (buf.drop p) = .ok (rowOf w) := by
    rw [hbuf]
    exact strncpy_terminated hw
  rw [wordRows]
  by_cases hi : i < COMMAND_ITEMS
  · simp only [hi, dite_true, if_true, hrow, bind_assoc]
    rfl
  · simp [hi]

/-- The word loop, started on a terminated text, copies its words. -/
lemma wordRows_text (htext : 0 ∉ text) (hbuf : buf.drop p = text ++ 0 :: pad)
    (hi : i ≤ COMMAND_ITEMS) :
    (within .message (strtok space buf p) >>= fun x => wordRows i x.1 x.2.1 x.2.2) =
      rowsFrom i (wordsOf space text) := by
  have hspace : space ≠ 0 := by decide
  suffices h : ∀ (i p : ℕ) (buf : List Byte), buf.drop p = text ++ 0 :: pad → i ≤ COMMAND_ITEMS →
      (within .message (strtok space buf p) >>= fun x => wordRows i x.1 x.2.1 x.2.2) =
        rowsFrom i (wordsOf space text) from h i p buf hbuf hi
  refine text_induction space ?_ ?_ ?_ htext
  · intro n i p buf hbuf hi
    rw [strtok_blank hspace hbuf, wordsOf_replicate, rowsFrom]
    simp only [within, Except.mapError, bind, Except.bind]
    rw [wordRows]
    simp [hi]
  · intro n w hw i p buf hbuf hi
    rw [List.append_assoc] at hbuf
    obtain ⟨htok, hat⟩ := strtok_last hw hbuf
    rw [htok, wordsOf_replicate_append, wordsOf_word hw, rowsFrom_cons]
    simp only [within, Except.mapError, bind, Except.bind]
    rw [wordRows_word hw.2.2 hat]
    split
    next hlt =>
      simp only [within, strtokNext, Except.mapError, bind, Except.bind]
      rw [wordRows, rowsFrom, if_pos (by simpa using hlt)]
      rfl
    next => rfl
  · intro n w rest hw hrest ih i p buf hbuf hi
    rw [List.append_assoc, List.append_assoc, List.cons_append] at hbuf
    obtain ⟨htok, hat, hafter⟩ := strtok_next hspace hw hbuf
    rw [htok, wordsOf_replicate_append, wordsOf_word_append hw, rowsFrom_cons]
    simp only [within, Except.mapError, bind, Except.bind]
    rw [wordRows_word hw.2.2 hat]
    split
    next hlt =>
      rw [← ih (i + 1) _ _ hafter hlt]
      rfl
    next => rfl

end Loop

/-- A terminated message sent without an id writes its words. -/
theorem messageRows_text {text : List Byte} {type : ℤ} (htype : type ≠ 0) (htext : 0 ∉ text)
    (pad : List Byte) (stack : Stack) (multicastId : BitVec 64) :
    messageRows stack multicastId (text ++ 0 :: pad) type =
      rowsFrom 0 (wordsOf space text) >>= fun rows => .ok (rows, multicastId) := by
  have hstart : (text ++ 0 :: pad).drop 0 = text ++ 0 :: pad := rfl
  unfold messageRows
  rw [← wordRows_text htext hstart (Nat.zero_le _), bind_assoc]
  simp only [if_neg htype]

/-! ## The words of a datagram -/

/-- The number in an id word, as `atoi` finds it in the copy of the word. -/
def idNumber (stack : Stack) (w : List Byte) : ℤ := stack.atoi (padded 100 w).toList

/-- The id that is read is the number in the first word. -/
lemma id_of_readId {a : List Byte} {r : ReadId} (h : readId a = .ok r) (stack : Stack) :
    r.id stack = idNumber stack (idWord a) := by
  have hzero : 0 ∉ idWord a := fun h0 => by simpa using List.mem_takeWhile_imp h0
  obtain ⟨⟨token, b, next⟩, htok, h⟩ := bind_eq_ok_iff.mp h
  rcases token with _ | p
  · simp at h
  · obtain ⟨buff, hbuff, h⟩ := bind_eq_ok_iff.mp h
    obtain ⟨x, -, h⟩ := bind_eq_ok_iff.mp h
    obtain rfl := Except.ok.inj h
    obtain ⟨rest, hrest⟩ := drop_of_strtok htok
    have hcopy : strncpy 100 (b.drop p) = .ok (padded 100 (idWord a)) := by
      rw [hrest]
      exact strncpy_terminated hzero
    obtain rfl : buff = padded 100 (idWord a) := Except.ok.inj (hbuff.symm.trans hcopy)
    rfl

/-- A text from its second word on. -/
def commandText (text : List Byte) : List Byte :=
  ((text.dropWhile fun c => c == space).dropWhile fun c => c != space).dropWhile
    fun c => c == space

/-- The offset of the second word of a text. -/
def commandOffset (text : List Byte) : ℕ := text.length - (commandText text).length

/-- The words of a datagram with a repeated id, given its text from the command word on.  The ten
bytes of `"duplicate"` take the place of the command word; when that is shorter, the scan for the
next word goes on among the ten bytes and ends with them. -/
def repeatWords (command : List Byte) : List (List Byte) :=
  let length := (command.takeWhile fun c => c != space).length
  ascii "duplicate" ::
    if 9 ≤ length then wordsOf space (command.drop (length + 1))
    else if command.length = length then []
    else wordsOf space ((ascii "duplicate").drop (length + 1))

/-- What a datagram says: the slots it writes and its id. -/
def datagramRows (stack : Stack) (multicastId : BitVec 64) (text : List Byte) (size : ℕ) :
    Except ParseFault (List Row × BitVec 64) :=
  match wordsOf space text with
  | [] => .error .noWord
  | idWord :: ws =>
    let id := BitVec.ofInt 64 (idNumber stack idWord)
    if id = multicastId then
      match ws with
      | [] => .error .noWord
      | _ :: _ =>
        if commandOffset text + 10 ≤ size then
          rowsFrom 0 (repeatWords (commandText text)) >>= fun rows => .ok (rows, id)
        else .error .message
    else rowsFrom 0 ws >>= fun rows => .ok (rows, id)

/-- `get_command_line` after it has read the id word and looked for the next word. -/
def afterId (multicastId id : BitVec 64) (x : Option ℕ × List Byte × Option ℕ) :
    Except ParseFault (List Row × BitVec 64) := do
  let a ← markRepeat multicastId id x.1 x.2.1
  let rows ← wordRows 0 x.1 a x.2.2
  .ok (rows, id)

/-- The place of a fault in `readId`: only a missing word is a null pointer. -/
def ParseFault.ofRead : MemoryFault → ParseFault
  | .nullPointer => .noWord
  | .outOfBounds => .message

/-- A datagram is read up to its id, and the rest depends on the number in it. -/
lemma messageRows_eq_readId (stack : Stack) (multicastId : BitVec 64) (a : List Byte) :
    messageRows stack multicastId a 0 = (readId a).mapError ParseFault.ofRead >>= fun r =>
      afterId multicastId (BitVec.ofInt 64 (r.id stack)) (r.token, r.buf, r.next) := by
  unfold messageRows readId
  rcases strtok_cases space a 0 with h | ⟨⟨token, b, next⟩, h⟩
  · rw [h]
    rfl
  · rw [h]
    rcases token with _ | p
    · rfl
    · rcases hcopy : strncpy 100 (b.drop p) with e | buff
      · obtain rfl : e = outOfBounds := by
          rcases strncpy_cases 100 (b.drop p) with hf | ⟨_, hf⟩ <;> rw [hf] at hcopy
          · exact (Except.error.inj hcopy).symm
          · simp at hcopy
        simp only [bind, Except.bind, within, Except.mapError, if_true, hcopy]
        rfl
      · rcases strtokNext_cases space b next with h' | ⟨x, h'⟩
        · simp only [bind, Except.bind, within, Except.mapError, if_true, hcopy, h']
          rfl
        · simp only [bind, Except.bind, within, Except.mapError, if_true, hcopy, h']
          rfl

/-- The slots of a datagram depend on its id only in whether it repeats the last one. -/
lemma map_fst_afterId {multicastId id id' : BitVec 64} (h : id = multicastId ↔ id' = multicastId)
    (x : Option ℕ × List Byte × Option ℕ) :
    (afterId multicastId id x).map Prod.fst = (afterId multicastId id' x).map Prod.fst := by
  have hmark : markRepeat multicastId id x.1 x.2.1 = markRepeat multicastId id' x.1 x.2.1 := by
    unfold markRepeat
    by_cases hid : id = multicastId
    · rw [if_pos hid, if_pos (h.mp hid)]
    · rw [if_neg hid, if_neg fun hid' => hid (h.mpr hid')]
  unfold afterId
  rw [hmark]
  rcases markRepeat multicastId id' x.1 x.2.1 with e | a
  · rfl
  · rcases hrows : wordRows 0 x.1 a x.2.2 with e | rows
    · simp [hrows, bind, Except.bind, Except.map]
    · simp [hrows, bind, Except.bind, Except.map]

/-- A string written over a part of an object is found there. -/
lemma drop_overwrite {b b' bytes : List Byte} {p : ℕ} (h : overwrite b p bytes = .ok b') :
    b'.drop p = bytes ++ b.drop (p + bytes.length) := by
  unfold overwrite at h
  split at h
  next hle =>
    obtain rfl := Except.ok.inj h
    rw [List.append_assoc, List.drop_append_of_le_length (by simp; omega)]
    simp
  next => exact absurd h (by simp)

/-- A repeat leaves `"duplicate"` in the first slot. -/
lemma exists_afterId_eq_cons {multicastId : BitVec 64} {x : Option ℕ × List Byte × Option ℕ}
    {y : List Row × BitVec 64} (h : afterId multicastId multicastId x = .ok y) :
    ∃ rest, y.1 = rowOf (ascii "duplicate") :: rest := by
  obtain ⟨b, hb, h⟩ := bind_eq_ok_iff.mp h
  obtain ⟨rows, hrows, h⟩ := bind_eq_ok_iff.mp h
  obtain rfl := Except.ok.inj h
  rcases hp : x.1 with _ | p
  · simp [markRepeat, hp] at hb
  · have hover : overwrite x.2.1 p (ascii "duplicate" ++ [0]) = .ok b := by
      simpa [markRepeat, hp, within_eq_ok_iff] using hb
    rw [hp] at hrows
    obtain ⟨w, rest, hw, rfl⟩ := exists_wordRows_eq_cons hrows
    rw [drop_overwrite hover, List.append_assoc, List.singleton_append,
      strncpy_terminated (by decide)] at hw
    exact ⟨rest, by rw [← Except.ok.inj hw, rowOf]⟩

section Datagram

variable {n m : ℕ} {text pad a w r : List Byte} {stack : Stack} {multicastId id : BitVec 64}

/-- A message of spaces. -/
lemma messageRows_blank (ha : a = List.replicate n space ++ 0 :: pad) :
    messageRows stack multicastId a 0 = .error .noWord := by
  have htok : strtok space a 0 = .ok (none, a, none) :=
    strtok_blank (by decide) (p := 0) ha
  unfold messageRows
  rw [htok]
  rfl

/-- The id is the whole text. -/
lemma readId_last (hw : IsWord space w) (ha : a = List.replicate n space ++ (w ++ 0 :: pad)) :
    readId a = .ok ⟨padded 100 w, none, a, none⟩ := by
  obtain ⟨htok, hat⟩ := strtok_last hw (p := 0) ha
  have hid : strncpy 100 (a.drop (0 + n)) = .ok (padded 100 w) := by
    rw [hat]
    exact strncpy_terminated hw.2.2
  unfold readId
  rw [htok]
  simp only [bind, Except.bind, hid]
  rfl

/-- There is more text after the id. -/
lemma readId_next (hw : IsWord space w) (ha : a = List.replicate n space ++ (w ++ space :: r)) :
    ∃ b q, b.length = a.length ∧ q = n + w.length + 1 ∧ b.drop q = r ∧
      readId a = strtok space b q >>= fun x => .ok ⟨padded 100 w, x.1, x.2.1, x.2.2⟩ := by
  obtain ⟨htok, hat, hafter⟩ := strtok_next (by decide) hw (p := 0) ha
  have hid : strncpy 100 ((a.set (0 + n + w.length) 0).drop (0 + n)) = .ok (padded 100 w) := by
    rw [hat]
    exact strncpy_terminated hw.2.2
  refine ⟨a.set (0 + n + w.length) 0, 0 + n + w.length + 1, by simp, by omega, hafter, ?_⟩
  unfold readId
  rw [htok]
  simp only [bind, Except.bind, hid, strtokNext]

/-- A datagram that is its id. -/
lemma messageRows_last (hw : IsWord space w) (ha : a = List.replicate n space ++ (w ++ 0 :: pad)) :
    messageRows stack multicastId a 0 =
      afterId multicastId (BitVec.ofInt 64 (idNumber stack w)) (none, a, none) := by
  rw [messageRows_eq_readId, readId_last hw ha]
  rfl

/-- A datagram that goes on after its id. -/
lemma messageRows_next (hw : IsWord space w) (ha : a = List.replicate n space ++ (w ++ space :: r))
    (stack : Stack) (multicastId : BitVec 64) :
    ∃ b q, b.length = a.length ∧ q = n + w.length + 1 ∧ b.drop q = r ∧
      messageRows stack multicastId a 0 = within .message (strtok space b q) >>=
        afterId multicastId (BitVec.ofInt 64 (idNumber stack w)) := by
  obtain ⟨b, q, hlen, hq, hafter, hread⟩ := readId_next hw ha
  refine ⟨b, q, hlen, hq, hafter, ?_⟩
  rw [messageRows_eq_readId, hread]
  rcases strtok_cases space b q with htok | ⟨x, htok⟩
  · rw [htok]
    rfl
  · rw [htok]
    rfl

/-- There is no word after the id. -/
lemma afterId_none (multicastId id : BitVec 64) (a : List Byte) :
    afterId multicastId id (none, a, none) =
      if id = multicastId then .error .noWord
      else rowsFrom 0 [] >>= fun rows => .ok (rows, id) := by
  by_cases hid : id = multicastId
  · simp [afterId, markRepeat, hid, bind, Except.bind]
  · simp only [afterId, markRepeat, hid, bind, Except.bind, if_false]
    rw [wordRows]
    rfl

/-- `"duplicate"` is a word of nine bytes. -/
lemma isWord_duplicate : IsWord space (ascii "duplicate") ∧ (ascii "duplicate").length = 9 := by
  decide

/-- A message with ten bytes overwritten by `"duplicate"` and its terminator. -/
def marked (b : List Byte) (q : ℕ) : List Byte :=
  b.take q ++ (ascii "duplicate" ++ [0]) ++ b.drop (q + 10)

/-- The bytes from inside the overwritten ten on. -/
lemma drop_marked {q k : ℕ} {b : List Byte} (hq : q + 10 ≤ b.length) (hk : k ≤ 9) :
    (marked b q).drop (q + k) = (ascii "duplicate").drop k ++ 0 :: b.drop (q + 10) := by
  have hlen : (b.take q).length = q := by
    rw [List.length_take]
    omega
  have hle : k ≤ (ascii "duplicate").length := by rw [isWord_duplicate.2]; exact hk
  rw [marked, List.append_assoc, ← List.drop_drop, List.drop_left' hlen, List.append_assoc,
    List.drop_append_of_le_length hle]
  rfl

/-- The bytes behind the overwritten ten. -/
lemma drop_marked_of_le {q k : ℕ} {b : List Byte} (hq : q + 10 ≤ b.length) (hk : 10 ≤ k) :
    (marked b q).drop (q + k) = b.drop (q + k) := by
  obtain ⟨j, rfl⟩ := Nat.exists_eq_add_of_le hk
  have hlen : (b.take q ++ (ascii "duplicate" ++ [0])).length = q + 10 := by
    have : (ascii "duplicate" ++ [0]).length = 10 := by decide
    rw [List.length_append, List.length_take, this]
    omega
  rw [marked, ← Nat.add_assoc, ← List.drop_drop, List.drop_left' hlen, List.drop_drop]

/-- The datagram is not a repeat: the words from the command word on are copied. -/
lemma afterId_fresh {q : ℕ} {b : List Byte} {next : Option ℕ} (hid : id ≠ multicastId) :
    afterId multicastId id (some q, b, next) =
      wordRows 0 (some q) b next >>= fun rows => .ok (rows, id) := by
  simp [afterId, markRepeat, hid, bind, Except.bind]

/-- The datagram is a repeat: the words are copied after the command word was overwritten. -/
lemma afterId_repeat {q : ℕ} {b : List Byte} {next : Option ℕ} (hid : id = multicastId) :
    afterId multicastId id (some q, b, next) =
      if q + 10 ≤ b.length then
        wordRows 0 (some q) (marked b q) next >>= fun rows => .ok (rows, id)
      else .error .message := by
  have hlen : (ascii "duplicate" ++ [0]).length = 10 := by decide
  subst hid
  by_cases hfit : q + 10 ≤ b.length
  · simp only [afterId, markRepeat, within, Except.mapError, bind, Except.bind, if_true, overwrite,
      hlen, hfit, marked]
  · simp only [afterId, markRepeat, within, Except.mapError, bind, Except.bind, if_true, overwrite,
      hlen, hfit, if_false]

/-- The text from the second word on. -/
lemma commandText_eq {v t : List Byte} (hw : IsWord space w) (hv : IsWord space v) :
    commandText (List.replicate n space ++ (w ++ space :: (List.replicate m space ++ (v ++ t)))) =
      v ++ t := by
  have hword : (space :: (List.replicate m space ++ (v ++ t))).dropWhile (fun c => c != space) =
      space :: (List.replicate m space ++ (v ++ t)) := by
    simp
  have hskip : (space :: (List.replicate m space ++ (v ++ t))).dropWhile (fun c => c == space) =
      v ++ t := dropWhile_replicate_append hv (m + 1)
  rw [commandText, dropWhile_replicate_append hw, dropWhile_word_append hw, hword, hskip]

/-- The offset of the second word. -/
lemma commandOffset_eq {v t : List Byte} (hw : IsWord space w) (hv : IsWord space v) :
    commandOffset (List.replicate n space ++ (w ++ space :: (List.replicate m space ++ (v ++ t)))) =
      n + w.length + 1 + m := by
  rw [commandOffset, commandText_eq hw hv]
  simp only [List.length_append, List.length_cons, List.length_replicate]
  omega

/-- A repeat whose command word ends the text. -/
lemma wordRows_repeat_last {q : ℕ} {b v : List Byte} (hv : IsWord space v)
    (hfit : q + 10 ≤ b.length) :
    wordRows 0 (some q) (marked b q) none = rowsFrom 0 (repeatWords v) := by
  have htake : (v.takeWhile fun c => c != space) = v := by
    rw [← List.append_nil v, takeWhile_word_append hv]
    simp
  have htail : repeatWords v = [ascii "duplicate"] := by
    have hdrop : v.drop (v.length + 1) = [] := List.drop_eq_nil_of_le (Nat.le_succ _)
    simp [repeatWords, htake, hdrop]
  have hat : (marked b q).drop q = ascii "duplicate" ++ 0 :: b.drop (q + 10) :=
    drop_marked hfit (Nat.zero_le 9)
  rw [wordRows_word isWord_duplicate.1.2.2 hat, htail, rowsFrom_cons]
  simp only [strtokNext, within, Except.mapError, bind, Except.bind]
  rw [wordRows]
  rfl

/-- A repeat with more text behind the command word. -/
lemma wordRows_repeat_next {q : ℕ} {b v rest : List Byte} (hv : IsWord space v)
    (hrest : 0 ∉ rest) (hfit : q + 10 ≤ b.length)
    (hafter : b.drop (q + (v.length + 1)) = rest ++ 0 :: pad) :
    wordRows 0 (some q) (marked b q) (some (q + (v.length + 1))) =
      rowsFrom 0 (repeatWords (v ++ space :: rest)) := by
  have htake : ((v ++ space :: rest).takeWhile fun c => c != space).length = v.length := by
    rw [takeWhile_word_append hv]
    simp
  have hat : (marked b q).drop q = ascii "duplicate" ++ 0 :: b.drop (q + 10) :=
    drop_marked hfit (Nat.zero_le 9)
  rw [wordRows_word isWord_duplicate.1.2.2 hat, repeatWords, rowsFrom_cons, htake]
  simp only [strtokNext, show 0 < COMMAND_ITEMS by decide, if_true]
  congr 1
  by_cases hlong : 9 ≤ v.length
  · -- the scan goes on behind the ten bytes
    have hfar : (marked b q).drop (q + (v.length + 1)) = rest ++ 0 :: pad := by
      rw [drop_marked_of_le hfit (by omega), hafter]
    have hcut : (v ++ space :: rest).drop (v.length + 1) = rest := by
      rw [List.drop_append]
      simp
    rw [if_pos hlong, hcut]
    exact wordRows_text hrest hfar (by decide)
  · -- the scan goes on among the ten bytes
    have hnear := drop_marked (k := v.length + 1) hfit (by omega)
    have hne : (v ++ space :: rest).length ≠ v.length := by simp
    have hno : 0 ∉ (ascii "duplicate").drop (v.length + 1) :=
      fun h => isWord_duplicate.1.2.2 (List.mem_of_mem_drop h)
    rw [if_neg hlong, if_neg hne]
    exact wordRows_text hno hnear (by decide)

/-- There is a command word after the id. -/
lemma afterId_some {q : ℕ} {b command : List Byte} {next : Option ℕ} {ws : List (List Byte)}
    (hcopy : wordRows 0 (some q) b next = rowsFrom 0 ws)
    (hrepeat : q + 10 ≤ b.length →
      wordRows 0 (some q) (marked b q) next = rowsFrom 0 (repeatWords command))
    (id : BitVec 64) :
    afterId multicastId id (some q, b, next) =
      if id = multicastId then
        if q + 10 ≤ b.length then
          rowsFrom 0 (repeatWords command) >>= fun rows => .ok (rows, id)
        else .error .message
      else rowsFrom 0 ws >>= fun rows => .ok (rows, id) := by
  by_cases hid : id = multicastId
  · rw [afterId_repeat hid]
    simp only [hid, if_true]
    split
    next hfit => rw [hrepeat hfit]
    next => rfl
  · rw [afterId_fresh hid, hcopy]
    simp only [hid, if_false]

/-- **A terminated datagram writes what it says.** -/
theorem messageRows_datagram (htext : 0 ∉ text) (pad : List Byte) (stack : Stack)
    (multicastId : BitVec 64) : messageRows stack multicastId (text ++ 0 :: pad) 0 =
      datagramRows stack multicastId text (text ++ 0 :: pad).length := by
  have hspace : space ≠ 0 := by decide
  rcases exists_shape space htext with ⟨n, rfl⟩ | ⟨n, w, hw, rfl | ⟨r, rfl⟩⟩
  · rw [messageRows_blank rfl, datagramRows, wordsOf_replicate]
  · rw [List.append_assoc, messageRows_last hw rfl, afterId_none, datagramRows,
      wordsOf_replicate_append, wordsOf_word hw]
  · have hmsg : List.replicate n space ++ (w ++ space :: r) ++ 0 :: pad =
        List.replicate n space ++ (w ++ space :: (r ++ 0 :: pad)) := by simp
    obtain ⟨b, q, hlen, hq, hafter, hrows⟩ :=
      messageRows_next hw hmsg stack multicastId
    have hr : 0 ∉ r := fun h => htext (by simp [h])
    have hcopy := wordRows_text hr hafter (Nat.zero_le _)
    rw [hrows, datagramRows, wordsOf_replicate_append, wordsOf_word_append hw, ← hlen]
    rcases exists_shape space hr with ⟨m, rfl⟩ | ⟨m, v, hv, rfl | ⟨rest, rfl⟩⟩
    · -- no command word
      rw [strtok_blank hspace hafter, wordsOf_replicate]
      exact afterId_none multicastId _ b
    · -- the command word ends the text
      rw [List.append_assoc] at hafter
      obtain ⟨htok, -⟩ := strtok_last hv hafter
      have htext' := List.append_nil v
      rw [htok] at hcopy ⊢
      rw [← htext', commandText_eq hw hv, commandOffset_eq hw hv, htext', wordsOf_replicate_append,
        wordsOf_word hv]
      rw [wordsOf_replicate_append, wordsOf_word hv] at hcopy
      subst hq
      exact afterId_some hcopy (wordRows_repeat_last hv) _
    · -- there is more text behind the command word
      rw [List.append_assoc, List.append_assoc, List.cons_append] at hafter
      obtain ⟨htok, -, hbehind⟩ := strtok_next hspace hv hafter
      have hrest : 0 ∉ rest := fun h => hr (by simp [h])
      rw [htok] at hcopy ⊢
      rw [commandText_eq hw hv, commandOffset_eq hw hv, wordsOf_replicate_append,
        wordsOf_word_append hv]
      rw [wordsOf_replicate_append, wordsOf_word_append hv] at hcopy
      subst hq
      have hset : (b.set (n + w.length + 1 + m + v.length) 0).length = b.length := List.length_set
      rw [← hset]
      exact afterId_some hcopy (fun hfit => wordRows_repeat_next hv hrest hfit hbehind) _

end Datagram

/-! ## Words that fit the table -/

/-- Words that fit the table are copied. -/
lemma rowsFrom_eq_ok {ws : List (List Byte)} (hlen : ws.length ≤ COMMAND_ITEMS) :
    rowsFrom 0 ws = .ok (ws.map rowOf) := if_pos (by simpa using hlen)

/-- The words of some separated words. -/
lemma wordsOf_joinWords {ws : List (List Byte)} (hws : ∀ w ∈ ws, IsWord space w) :
    wordsOf space (joinWords ws) = ws := by
  induction ws with
  | nil => exact wordsOf_nil
  | cons w ws ih =>
    obtain ⟨hw, hws⟩ := List.forall_mem_cons.mp hws
    rcases ws with _ | ⟨v, ws⟩
    · exact wordsOf_word hw
    · rw [joinWords, wordsOf_word_append hw, ih hws]
      exact List.cons_ne_nil v ws

/-- Separated words contain no zero. -/
lemma zero_not_mem_joinWords {ws : List (List Byte)} (hws : ∀ w ∈ ws, IsWord space w) :
    0 ∉ joinWords ws := by
  induction ws with
  | nil => exact List.not_mem_nil
  | cons w ws ih =>
    obtain ⟨hw, hws⟩ := List.forall_mem_cons.mp hws
    have hspace : (0 : Byte) ≠ space := by decide
    rcases ws with _ | ⟨v, ws⟩
    · exact hw.2.2
    · simp only [joinWords, List.mem_append, List.mem_cons, not_or]
      exact ⟨hw.2.2, hspace, ih hws⟩

/-- A message of separated words, sent without an id, fills the slots from 0 on with its words. -/
theorem getCommandLine_joinWords {ws : List (List Byte)} {type : ℤ} (htype : type ≠ 0)
    (hws : ∀ w ∈ ws, IsWord space w) (hlen : ws.length ≤ COMMAND_ITEMS) (pad : List Byte)
    (stack : Stack) (multicastId : BitVec 64) (t : CommandLine) :
    ∃ t', getCommandLine stack t multicastId (joinWords ws ++ 0 :: pad) type =
        .ok (ws.length, t', multicastId) ∧
      t.Overwritten t' (ws.map rowOf) := by
  have hrows := messageRows_text htype (zero_not_mem_joinWords hws) pad stack multicastId
  rw [wordsOf_joinWords hws, rowsFrom_eq_ok hlen] at hrows
  refine ⟨t.fill 0 (ws.map rowOf), ?_, ?_⟩
  · rw [getCommandLine_of_rows hrows, List.length_map]
  · rw [CommandLine.Overwritten, rows_fill (by simpa using hlen)]
    simp

end Strand
