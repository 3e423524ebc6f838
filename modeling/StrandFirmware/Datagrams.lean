import StrandFirmware.ParserSafety

/-!
# Datagrams from the socket to the parser

A datagram task receives up to 400 bytes into a buffer of 401, writes a zero behind them, and queues
the first 400 bytes of the buffer.  `app_main` receives these 400 bytes and gives them to
`get_command_line`.  A datagram of 400 bytes fills the item, and its terminator stays behind
(`zero_mem_item_iff`).

`nullPointer_iff` says which datagrams make the parser copy from or to a null pointer, and
`staysInMessage_iff` which ones make it leave the item.
-/

namespace Strand

open CString MemoryFault

/-- What `recvfrom` returns of a datagram: at most the bytes it was asked for. -/
structure Datagram where
  /-- The bytes received. -/
  bytes : List Byte
  /-- `recvfrom(sock, rx_buffer, sizeof(rx_buffer) - 1, ...)`. -/
  length_le : bytes.length ≤ COMMAND_ITEM_SIZE

/-- `char rx_buffer[COMMAND_ITEM_SIZE + 1]`. -/
abbrev ReceiveBuffer := List.Vector Byte (COMMAND_ITEM_SIZE + 1)

/-- `xQueueSendToBack(queue, &rx_buffer, 10)`: the queue copies one item. -/
def ReceiveBuffer.queueItem (buffer : ReceiveBuffer) : Message :=
  ⟨buffer.toList.take COMMAND_ITEM_SIZE, by simp⟩

namespace Datagram

/-- `recvfrom` and `rx_buffer[len] = 0`: the rest of the buffer stays. -/
def receive (d : Datagram) (buffer : ReceiveBuffer) : ReceiveBuffer :=
  ⟨d.bytes ++ 0 :: buffer.toList.drop (d.bytes.length + 1), by
    have h := d.length_le
    rw [List.length_append, List.length_cons, List.length_drop, List.Vector.toList_length]
    omega⟩

/-- The item that `app_main` receives. -/
def item (d : Datagram) (buffer : ReceiveBuffer) : Message := (d.receive buffer).queueItem

/-- The text of the datagram ends inside the item. -/
def Ends (d : Datagram) : Prop := d.bytes.length < COMMAND_ITEM_SIZE ∨ 0 ∈ d.bytes

instance (d : Datagram) : Decidable d.Ends := inferInstanceAs (Decidable (_ ∨ _))

section Item

variable (d : Datagram) (buffer : ReceiveBuffer)

/-- A shorter datagram is followed by its terminator. -/
lemma exists_toList_item (h : d.bytes.length < COMMAND_ITEM_SIZE) :
    ∃ r, (d.item buffer).toList = d.bytes ++ 0 :: r := by
  obtain ⟨k, hk⟩ := Nat.exists_eq_add_of_lt h
  refine ⟨(buffer.toList.drop (d.bytes.length + 1)).take k, ?_⟩
  have htake : (0 :: buffer.toList.drop (d.bytes.length + 1)).take (k + 1) =
      0 :: (buffer.toList.drop (d.bytes.length + 1)).take k := rfl
  have hsub : COMMAND_ITEM_SIZE - d.bytes.length = k + 1 := by omega
  rw [item, ReceiveBuffer.queueItem, receive, List.Vector.toList_mk, List.Vector.toList_mk,
    List.take_append, List.take_of_length_le h.le, hsub, htake]

/-- A datagram of the size of the item fills it. -/
lemma toList_item (h : ¬ d.bytes.length < COMMAND_ITEM_SIZE) :
    (d.item buffer).toList = d.bytes := by
  have hlen : d.bytes.length = COMMAND_ITEM_SIZE := le_antisymm d.length_le (not_lt.mp h)
  rw [item, ReceiveBuffer.queueItem, receive, List.Vector.toList_mk, List.Vector.toList_mk,
    List.take_left' hlen]

/-- The item has a terminator when the datagram is shorter than the item or contains one. -/
lemma zero_mem_item_iff : 0 ∈ (d.item buffer).toList ↔ d.Ends := by
  by_cases h : d.bytes.length < COMMAND_ITEM_SIZE
  · obtain ⟨r, hr⟩ := d.exists_toList_item buffer h
    simp [Ends, h, hr]
  · rw [d.toList_item buffer h]
    simp [Ends, h]

end Item

end Datagram

/-- The text of a string goes on past bytes without a zero, and no further than the first. -/
lemma textOf_append_eq (l r : List Byte) :
    textOf (l ++ r) = if 0 ∈ l then textOf l else l ++ textOf r := by
  induction l with
  | nil => simp
  | cons c l ih =>
    by_cases hc : c = 0
    · simp [textOf, hc]
    · have hne : (0 : Byte) ≠ c := Ne.symm hc
      have hcons : ∀ s, textOf (c :: s) = c :: textOf s := fun s => by simp [textOf, hc]
      simp only [List.cons_append, hcons, ih, List.mem_cons, hne, false_or]
      split
      · rfl
      · rfl

namespace Datagram

/-- The text that the parser finds, `after` being what follows the item in memory. -/
def text (d : Datagram) (after : List Byte) : Option (List Byte) :=
  if d.Ends then some (textOf d.bytes)
  else if 0 ∈ after then some (d.bytes ++ textOf after)
  else none

/-- The text in the item and what follows it. -/
lemma text_eq (d : Datagram) (buffer : ReceiveBuffer) (after : List Byte) :
    d.text after = if 0 ∈ (d.item buffer).toList ++ after then
      some (textOf ((d.item buffer).toList ++ after)) else none := by
  unfold text
  by_cases hends : d.Ends
  · have hzero := (d.zero_mem_item_iff buffer).mpr hends
    rw [if_pos hends, if_pos (List.mem_append_left _ hzero), textOf_append_eq, if_pos hzero]
    by_cases h : d.bytes.length < COMMAND_ITEM_SIZE
    · obtain ⟨r, hr⟩ := d.exists_toList_item buffer h
      have hnil : textOf (0 :: r) = [] := by simp [textOf]
      rw [hr, textOf_append_eq, hnil, List.append_nil]
      split
      next => rfl
      next hno =>
        have hall : textOf d.bytes = d.bytes := by
          have h := textOf_append_eq d.bytes []
          rw [if_neg hno, List.append_nil] at h
          exact h.trans (List.append_nil _)
        rw [hall]
    · rw [d.toList_item buffer h]
  · have hno : 0 ∉ (d.item buffer).toList := fun h => hends ((d.zero_mem_item_iff buffer).mp h)
    have hfull : ¬ d.bytes.length < COMMAND_ITEM_SIZE := fun h => hends (.inl h)
    rw [if_neg hends, textOf_append_eq, if_neg hno, d.toList_item buffer hfull]
    have hbytes : 0 ∉ d.bytes := fun h => hends (.inr h)
    simp [hbytes]

end Datagram

/-! ## Null pointers -/

/-- The parser finds a word wherever it expects one: there is an id, and a command word behind a
repeated one. -/
def NamesCommand (stack : Stack) (multicastId : BitVec 64) (text : List Byte) : Prop :=
  match wordsOf space text with
  | [] => False
  | [idWord] => BitVec.ofInt 64 (idNumber stack idWord) ≠ multicastId
  | _ :: _ :: _ => True

/-- Copying words needs no pointer that may be null. -/
lemma rowsFrom_ne_noWord {id : BitVec 64} (ws : List (List Byte)) :
    (rowsFrom 0 ws >>= fun rows => .ok (rows, id)) ≠ .error .noWord := by
  unfold rowsFrom
  split
  · simp [bind, Except.bind]
  · simp [bind, Except.bind]

/-- What a datagram says needs a word that is not there. -/
lemma datagramRows_eq_noWord_iff {stack : Stack} {multicastId : BitVec 64} {text : List Byte}
    {size : ℕ} : datagramRows stack multicastId text size = .error .noWord ↔
      ¬ NamesCommand stack multicastId text := by
  unfold datagramRows NamesCommand
  rcases wordsOf space text with _ | ⟨idWord, _ | ⟨w, ws⟩⟩
  · simp
  · by_cases hid : BitVec.ofInt 64 (idNumber stack idWord) = multicastId
    · simp [hid]
    · simp [hid, rowsFrom_ne_noWord]
  · by_cases hid : BitVec.ofInt 64 (idNumber stack idWord) = multicastId
    · simp only [hid, if_true, not_true, iff_false]
      split
      · exact rowsFrom_ne_noWord _
      · simp
    · simp [hid, rowsFrom_ne_noWord]

/-- A computation in steps avoids a fault when each step does. -/
lemma bind_ne_error {ε α β : Type} {x : Except ε α} {f : α → Except ε β} {e : ε}
    (hx : x ≠ .error e) (hf : ∀ a, x = .ok a → f a ≠ .error e) : (x >>= f) ≠ .error e := by
  rcases x with e' | a
  · intro h
    exact hx (congrArg Except.error (Except.error.inj h))
  · exact hf a rfl

section Within

variable {α : Type} {place e : ParseFault} {x : Except MemoryFault α}

/-- An access faults in its own place only. -/
lemma within_ne_error (h : place ≠ e) : within place x ≠ .error e := by
  rcases x with e' | a
  · intro hx
    exact h (Except.error.inj hx)
  · intro hx
    cases hx

end Within

/-- The word loop is never given a null pointer. -/
lemma wordRows_ne_noWord (i : ℕ) (token : Option ℕ) (buf : List Byte) (next : Option ℕ) :
    wordRows i token buf next ≠ .error .noWord := by
  -- the induction follows the slots that are still free
  induction hn : COMMAND_ITEMS - i generalizing i token buf next with
  | zero =>
    have hi : ¬ i < COMMAND_ITEMS := by omega
    rcases token with _ | p
    · rw [wordRows]
      simp
    · rw [wordRows]
      simp [hi]
  | succ n ih =>
    have hi : i < COMMAND_ITEMS := by omega
    rcases token with _ | p
    · rw [wordRows]
      simp
    · rw [wordRows]
      simp only [hi, dite_true]
      refine bind_ne_error (within_ne_error (by decide)) fun row _ => ?_
      refine bind_ne_error (within_ne_error (by decide)) fun x _ => ?_
      exact bind_ne_error (ih _ _ _ _ (by omega)) fun rows _ => by simp

/-- In bytes without a zero the parser always finds a further word, or leaves them. -/
lemma messageRows_ne_noWord {a : List Byte} (ha : 0 ∉ a) (stack : Stack)
    (multicastId : BitVec 64) : messageRows stack multicastId a 0 ≠ .error .noWord := by
  unfold messageRows
  refine bind_ne_error (within_ne_error (by decide)) ?_
  rintro ⟨token, b, next⟩ htok
  obtain ⟨hsome, q, rfl, hb⟩ := strtok_unterminated (p := 0) ha (within_eq_ok_iff.mp htok)
  obtain ⟨p, rfl⟩ := Option.isSome_iff_exists.mp hsome
  simp only [if_true]
  refine bind_ne_error (within_ne_error (by decide)) fun buff _ => ?_
  refine bind_ne_error (within_ne_error (by decide)) ?_
  rintro ⟨token, b', next⟩ hnext
  obtain ⟨hsome, -⟩ := strtok_unterminated hb (within_eq_ok_iff.mp hnext)
  obtain ⟨p', rfl⟩ := Option.isSome_iff_exists.mp hsome
  refine bind_ne_error ?_ fun c _ => ?_
  · unfold markRepeat
    split
    · exact within_ne_error (by decide)
    · simp
  · exact bind_ne_error (wordRows_ne_noWord _ _ _ _) fun rows _ => by simp

/-- The null pointers of the parser. -/
lemma getCommandLine_eq_nullPointer_iff {stack : Stack} {t : CommandLine}
    {multicastId : BitVec 64} {a : List Byte} {type : ℤ} :
    getCommandLine stack t multicastId a type = .error nullPointer ↔
      messageRows stack multicastId a type = .error .noWord := by
  rw [getCommandLine_eq]
  rcases messageRows stack multicastId a type with e | x
  · have hkind : e.kind = nullPointer ↔ e = .noWord := by
      rcases e <;> decide
    simpa [Except.mapError, bind, Except.bind] using hkind
  · simp [Except.mapError, bind, Except.bind]

/-- A null pointer is used when a word is missing from the text that the parser finds. -/
lemma eq_nullPointer_iff (d : Datagram) (buffer : ReceiveBuffer) (after : List Byte)
    (stack : Stack) (t : CommandLine) (multicastId : BitVec 64) :
    getCommandLine stack t multicastId ((d.item buffer).toList ++ after) 0 = .error nullPointer ↔
      ∃ text ∈ d.text after, ¬ NamesCommand stack multicastId text := by
  rw [getCommandLine_eq_nullPointer_iff, d.text_eq buffer after]
  by_cases hzero : 0 ∈ (d.item buffer).toList ++ after
  · obtain ⟨hno, r, hr⟩ := eq_textOf_append hzero
    have hread := messageRows_datagram hno r stack multicastId
    rw [← hr] at hread
    rw [if_pos hzero, hread, datagramRows_eq_noWord_iff]
    simp
  · rw [if_neg hzero]
    simp [messageRows_ne_noWord hzero]

/-- **Which datagrams make the parser use a null pointer.**  `after` is what follows the item in
memory, where the parser reads on when the datagram fills its item. -/
theorem nullPointer_iff (d : Datagram) (buffer : ReceiveBuffer) (after : List Byte)
    (stack : Stack) (t : CommandLine) (multicastId : BitVec 64) :
    getCommandLine stack t multicastId ((d.item buffer).toList ++ after) 0 ≠ .error nullPointer ↔
      ∀ text ∈ d.text after, NamesCommand stack multicastId text := by
  rw [Ne, eq_nullPointer_iff]
  push Not
  rfl

/-- The receive buffer of a task that has received nothing. -/
def ReceiveBuffer.zero : ReceiveBuffer := List.Vector.replicate _ 0

/-- The empty datagram. -/
def emptyDatagram : Datagram := ⟨[], by decide⟩

/-- A datagram with the id 1 and no command. -/
def idDatagram : Datagram := ⟨ascii "1", by decide⟩

/-- The empty datagram makes every device copy from a null pointer, and an id that repeats the last
one and comes without a command makes it write to one. -/
theorem nullPointer_emptyDatagram :
    getCommandLine .clear .zero 1 (emptyDatagram.item .zero).toList 0 = .error nullPointer ∧
      getCommandLine .clear .zero 1 (idDatagram.item .zero).toList 0 = .error nullPointer := by
  have hempty := eq_nullPointer_iff emptyDatagram .zero [] .clear .zero 1
  have hid := eq_nullPointer_iff idDatagram .zero [] .clear .zero 1
  rw [List.append_nil] at hempty hid
  refine ⟨hempty.mpr ⟨[], by decide, ?_⟩, hid.mpr ⟨ascii "1", by decide, ?_⟩⟩
  · simp [NamesCommand]
  · have hwords : wordsOf space (ascii "1") = [ascii "1"] := by decide +kernel
    simp only [NamesCommand, hwords]
    decide +kernel

/-! ## The bounds of the item -/

/-- A repeat has its command word at least ten bytes before the end of the item. -/
def OverwriteFits (stack : Stack) (multicastId : BitVec 64) (text : List Byte) : Prop :=
  match wordsOf space text with
  | idWord :: _ :: _ => BitVec.ofInt 64 (idNumber stack idWord) = multicastId →
      commandOffset text + 10 ≤ COMMAND_ITEM_SIZE
  | _ => True

/-- The item has a terminator, and the parser reads and writes the message inside its item. -/
def StaysInMessage (stack : Stack) (multicastId : BitVec 64) (m : Message) : Prop :=
  0 ∈ m.toList ∧ messageRows stack multicastId m.toList 0 ≠ .error .message

/-- Copying words stays inside the message. -/
lemma rowsFrom_ne_message {id : BitVec 64} (ws : List (List Byte)) :
    (rowsFrom 0 ws >>= fun rows => .ok (rows, id)) ≠ .error .message := by
  unfold rowsFrom
  split
  · simp [bind, Except.bind]
  · simp [bind, Except.bind]

/-- What a datagram says leaves its item. -/
lemma datagramRows_ne_message_iff {stack : Stack} {multicastId : BitVec 64} {text : List Byte} :
    datagramRows stack multicastId text COMMAND_ITEM_SIZE ≠ .error .message ↔
      OverwriteFits stack multicastId text := by
  unfold datagramRows OverwriteFits
  rcases wordsOf space text with _ | ⟨idWord, _ | ⟨w, ws⟩⟩
  · simp
  · by_cases hid : BitVec.ofInt 64 (idNumber stack idWord) = multicastId
    · simp [hid]
    · simp [hid, rowsFrom_ne_message]
  · by_cases hid : BitVec.ofInt 64 (idNumber stack idWord) = multicastId
    · by_cases hfit : commandOffset text + 10 ≤ COMMAND_ITEM_SIZE
      · simp [hid, hfit, rowsFrom_ne_message]
      · simp [hid, hfit]
    · simp [hid, rowsFrom_ne_message]

/-- A datagram that ends inside its item leaves it only by an overwriting at its end. -/
lemma messageRows_item_ne_message_iff {d : Datagram} (hends : d.Ends) (buffer : ReceiveBuffer)
    (stack : Stack) (multicastId : BitVec 64) :
    messageRows stack multicastId (d.item buffer).toList 0 ≠ .error .message ↔
      OverwriteFits stack multicastId (textOf d.bytes) := by
  have hzero := (d.zero_mem_item_iff buffer).mpr hends
  obtain ⟨hno, r, hr⟩ := eq_textOf_append hzero
  have hread := messageRows_datagram hno r stack multicastId
  have htext : textOf (d.item buffer).toList = textOf d.bytes := by
    have h := d.text_eq buffer []
    rw [List.append_nil, if_pos hzero, Datagram.text, if_pos hends] at h
    exact (Option.some.inj h).symm
  rw [← hr, (d.item buffer).toList_length, htext] at hread
  rw [hread, datagramRows_ne_message_iff]

/-- **Which datagrams keep the parser inside their item.** -/
theorem staysInMessage_iff (d : Datagram) (buffer : ReceiveBuffer) (stack : Stack)
    (multicastId : BitVec 64) :
    StaysInMessage stack multicastId (d.item buffer) ↔
      d.Ends ∧ OverwriteFits stack multicastId (textOf d.bytes) := by
  rw [StaysInMessage, d.zero_mem_item_iff buffer]
  exact and_congr_right fun hends => messageRows_item_ne_message_iff hends buffer stack multicastId

/-- A datagram as long as its item. -/
def fullDatagram : Datagram := ⟨List.replicate 400 97, List.length_replicate.le⟩

/-- A repeat of the id 1 whose command word starts five bytes before the end of the item. -/
def lateDatagram : Datagram := ⟨49 :: (List.replicate 394 space ++ ascii "ota"), by
  rw [List.length_cons, List.length_append, List.length_replicate]
  decide⟩

/-- A datagram that fills its item leaves it without a terminator, and a late command word is
overwritten past the end of its item. -/
theorem not_staysInMessage_full :
    0 ∉ (fullDatagram.item .zero).toList ∧ ¬ StaysInMessage .clear 1 (fullDatagram.item .zero) ∧
      0 ∈ (lateDatagram.item .zero).toList ∧
        ¬ StaysInMessage .clear 1 (lateDatagram.item .zero) := by
  have hfull : 0 ∉ (fullDatagram.item .zero).toList := by
    rw [fullDatagram.zero_mem_item_iff]
    decide +kernel
  have hends : lateDatagram.Ends := by decide +kernel
  have hword : IsWord space [49] ∧ IsWord space (ascii "ota") := by decide
  have hbytes : lateDatagram.bytes = [49] ++ space :: (List.replicate 393 space ++ ascii "ota") :=
    rfl
  have htext : textOf lateDatagram.bytes = lateDatagram.bytes := by decide +kernel
  refine ⟨hfull, fun h => hfull h.1, (lateDatagram.zero_mem_item_iff .zero).mpr hends, ?_⟩
  rintro ⟨-, hstays⟩
  rw [messageRows_item_ne_message_iff hends, htext, hbytes] at hstays
  have hwords : wordsOf space ([49] ++ space :: (List.replicate 393 space ++ ascii "ota")) =
      [[49], ascii "ota"] := by
    rw [wordsOf_word_append hword.1, wordsOf_replicate_append, wordsOf_word hword.2]
  have hoffset : commandOffset ([49] ++ space :: (List.replicate 393 space ++ ascii "ota")) =
      395 := by
    have h := commandOffset_eq (n := 0) (m := 393) (t := []) hword.1 hword.2
    rw [List.append_nil] at h
    exact h
  simp only [OverwriteFits, hwords, hoffset] at hstays
  exact absurd (hstays (by decide +kernel)) (by decide)

end Strand
