import StrandFirmware.MessageParsing

/-!
# Where the parser leaves defined behaviour

`get_command_line` checks nothing about the message it is given.  Which messages lead it outside is
read off `datagramRows`:

* outside the table, or to a slot without terminator, when there are more than 40 words or a word of
  50 bytes (`keepsTable_iff`);
* to a null pointer when there is no word, or no word after a repeated id (`nullPointer_iff`);
* outside the message when it does not end inside its item, or when a repeated id has its command
  word in the last bytes (`staysInMessage_iff`).
-/

namespace Strand

open CString MemoryFault

/-! ## The table -/

/-- Every slot of the table has its terminator. -/
def CommandLine.WellFormed (t : CommandLine) : Prop := ∀ row ∈ t.rows, 0 ∈ row.toList

/-- A message in memory: its text, of any length, and what follows the terminator. -/
structure StoredText where
  /-- The bytes before the terminator. -/
  text : List Byte
  /-- What follows the terminator. -/
  after : List Byte
  /-- The text ends at the first zero. -/
  terminated : 0 ∉ text
  /-- Memory goes on behind the text, so `"duplicate"` can be written over its last word. -/
  room : 8 ≤ after.length

namespace StoredText

/-- The bytes in memory. -/
def bytes (m : StoredText) : List Byte := m.text ++ 0 :: m.after

/-- Some words fit the slots of the table. -/
def FitsSlots (ws : List (List Byte)) : Prop :=
  ws.length ≤ COMMAND_ITEMS ∧ ∀ w ∈ ws, w.length < COMMAND_SLOT_SIZE

/-- The words that are copied fit the slots.  A repeat copies `"duplicate"` in place of its command
word, and the words behind it only when the command word is not shorter than `"duplicate"`. -/
def Fits (m : StoredText) (stack : Stack) (multicastId : BitVec 64) (type : ℤ) : Prop :=
  if type = 0 then
    match wordsOf space m.text with
    | [] => True
    | idWord :: ws =>
      if BitVec.ofInt 64 (idNumber stack idWord) = multicastId then
        match ws with
        | [] => True
        | w :: rest => 9 ≤ w.length → FitsSlots (ascii "duplicate" :: rest)
      else FitsSlots ws
  else FitsSlots (wordsOf space m.text)

/-- What a datagram in memory says. -/
lemma messageRows_bytes (m : StoredText) (stack : Stack) (multicastId : BitVec 64) :
    messageRows stack multicastId m.bytes 0 =
      datagramRows stack multicastId m.text m.bytes.length :=
  messageRows_datagram m.terminated m.after stack multicastId

/-- What a message in memory says that carries no id. -/
lemma messageRows_bytes_of_ne (m : StoredText) (stack : Stack) (multicastId : BitVec 64) {type : ℤ}
    (htype : type ≠ 0) : messageRows stack multicastId m.bytes type =
      rowsFrom 0 (wordsOf space m.text) >>= fun rows => .ok (rows, multicastId) :=
  messageRows_text htype m.terminated m.after stack multicastId

/-- Without an id all words are copied. -/
lemma fits_of_ne (m : StoredText) (stack : Stack) (multicastId : BitVec 64) {type : ℤ}
    (htype : type ≠ 0) : m.Fits stack multicastId type ↔ FitsSlots (wordsOf space m.text) := by
  rw [Fits, if_neg htype]

/-- The words of the text have no zero. -/
lemma zero_not_mem_of_mem_wordsOf (m : StoredText) : ∀ w ∈ wordsOf space m.text, 0 ∉ w :=
  fun w hw => (isWord_of_mem_wordsOf m.terminated w hw).2.2

end StoredText

/-- `get_command_line` writes slots of the table only, and leaves a terminator in each of them, or
stops at a null pointer before it writes a slot. -/
def KeepsTable (t : CommandLine) (stack : Stack) (multicastId : BitVec 64) (a : List Byte)
    (type : ℤ) : Prop :=
  match getCommandLine stack t multicastId a type with
  | .ok (_, t', _) => t'.WellFormed
  | .error e => e = nullPointer

/-- A word leaves a terminator in its slot when it is shorter than the slot. -/
lemma zero_mem_rowOf_iff {w : List Byte} (hw : 0 ∉ w) :
    0 ∈ (rowOf w).toList ↔ w.length < COMMAND_SLOT_SIZE := by
  constructor
  · intro h
    by_contra hlong
    have hcut : (rowOf w).toList = w.take COMMAND_SLOT_SIZE := by
      rw [rowOf, padded, List.Vector.toList_mk, List.take_append_of_le_length (by omega)]
    rw [hcut] at h
    exact hw (List.mem_of_mem_take h)
  · intro h
    rw [toList_rowOf h]
    refine List.mem_append_right _ (List.mem_replicate.mpr ⟨?_, rfl⟩)
    omega

/-- Copying words keeps the table well formed when they fit its slots. -/
lemma rowsFrom_keeps_iff {t : CommandLine} (ht : t.WellFormed) {stack : Stack}
    {multicastId id : BitVec 64} {a : List Byte} {type : ℤ} {ws : List (List Byte)}
    (hws : ∀ w ∈ ws, 0 ∉ w)
    (h : messageRows stack multicastId a type = rowsFrom 0 ws >>= fun rows => .ok (rows, id)) :
    KeepsTable t stack multicastId a type ↔ StoredText.FitsSlots ws := by
  by_cases hlen : ws.length ≤ COMMAND_ITEMS
  · rw [rowsFrom_eq_ok hlen] at h
    have hrows : (t.fill 0 (ws.map rowOf)).rows = ws.map rowOf ++ t.rows.drop ws.length := by
      rw [rows_fill (by simpa using hlen)]
      simp
    rw [KeepsTable, getCommandLine_of_rows h t]
    constructor
    · intro hkeep
      refine ⟨hlen, fun w hw => (zero_mem_rowOf_iff (hws w hw)).mp (hkeep _ ?_)⟩
      rw [hrows]
      exact List.mem_append_left _ (List.mem_map_of_mem hw)
    · rintro ⟨-, hshort⟩ row hrow
      rw [hrows] at hrow
      rcases List.mem_append.mp hrow with hrow | hrow
      · obtain ⟨w, hw, rfl⟩ := List.mem_map.mp hrow
        exact (zero_mem_rowOf_iff (hws w hw)).mpr (hshort w hw)
      · exact ht row (List.mem_of_mem_drop hrow)
  · have hfault : getCommandLine stack t multicastId a type = .error outOfBounds := by
      rw [getCommandLine_eq, h, rowsFrom, if_neg (by simpa using hlen)]
      rfl
    rw [KeepsTable, hfault]
    exact iff_of_false (by simp) fun hfit => absurd hfit.1 hlen

/-- A message without the word that the parser looks for leaves the table alone. -/
lemma keepsTable_of_noWord {t : CommandLine} {stack : Stack} {multicastId : BitVec 64}
    {a : List Byte} {type : ℤ} (h : messageRows stack multicastId a type = .error .noWord) :
    KeepsTable t stack multicastId a type := by
  rw [KeepsTable, getCommandLine_eq, h]
  rfl

/-- The second word of a text lies inside it. -/
lemma commandOffset_add_le {text idWord w : List Byte} {ws : List (List Byte)} (htext : 0 ∉ text)
    (hwords : wordsOf space text = idWord :: w :: ws) :
    commandOffset text + w.length ≤ text.length := by
  have hle : (commandText text).length ≤ text.length :=
    ((List.length_dropWhile_le _ _).trans (List.length_dropWhile_le _ _)).trans
      (List.length_dropWhile_le _ _)
  have hw : w.length ≤ (commandText text).length := by
    obtain ⟨-, ⟨hcommand, -⟩ | ⟨rest, hcommand, -⟩⟩ := exists_commandText htext hwords
    · rw [hcommand]
    · rw [hcommand, List.length_append]
      omega
  unfold commandOffset
  omega

/-- A repeat keeps the table when its words fit. -/
lemma keepsTable_repeat_iff {t : CommandLine} (ht : t.WellFormed) {m : StoredText} {stack : Stack}
    {multicastId : BitVec 64} {idWord w : List Byte} {ws : List (List Byte)}
    (hwords : wordsOf space m.text = idWord :: w :: ws)
    (hid : BitVec.ofInt 64 (idNumber stack idWord) = multicastId) :
    KeepsTable t stack multicastId m.bytes 0 ↔
      (9 ≤ w.length → StoredText.FitsSlots (ascii "duplicate" :: ws)) := by
  have hread := m.messageRows_bytes stack multicastId
  have hmem : w ∈ wordsOf space m.text := by rw [hwords]; simp
  have hword := List.length_pos_of_ne_nil (isWord_of_mem_wordsOf m.terminated w hmem).1
  have hinside := commandOffset_add_le m.terminated hwords
  have hroom := m.room
  have hsize : m.bytes.length = m.text.length + (m.after.length + 1) := by
    simp [StoredText.bytes]
  rw [datagramRows, hwords] at hread
  simp only [if_pos hid, if_pos (show commandOffset m.text + 10 ≤ m.bytes.length by omega)] at hread
  obtain ⟨tail, htail, hfar, hnear⟩ := exists_repeatWords m.terminated hwords
  have hzero := m.zero_not_mem_of_mem_wordsOf
  rw [htail] at hread
  by_cases hlong : 9 ≤ w.length
  · rw [hfar hlong] at hread
    have hwords' : ∀ u ∈ ascii "duplicate" :: ws, 0 ∉ u := by
      rw [hwords] at hzero
      rw [List.forall_mem_cons]
      exact ⟨isWord_duplicate.1.2.2,
        fun u hu => hzero u (List.mem_cons_of_mem _ (List.mem_cons_of_mem _ hu))⟩
    rw [rowsFrom_keeps_iff ht hwords' hread]
    exact ⟨fun h _ => h, fun h => h hlong⟩
  · -- at most two short words are copied
    obtain ⟨hcount, hshort⟩ := hnear (by omega)
    have htail' : ∀ u ∈ ascii "duplicate" :: tail, 0 ∉ u := by
      rw [List.forall_mem_cons]
      exact ⟨isWord_duplicate.1.2.2, fun u hu => (hshort u hu).1.2.2⟩
    rw [rowsFrom_keeps_iff ht htail' hread]
    refine iff_of_true ⟨?_, ?_⟩ fun h => absurd h hlong
    · rw [List.length_cons]
      exact (Nat.succ_le_succ hcount).trans (by decide)
    · rw [List.forall_mem_cons]
      exact ⟨by decide, fun u hu => (hshort u hu).2.trans_lt (by decide)⟩

/-- **A message keeps the table well formed exactly when the words that are copied fit it.** -/
theorem keepsTable_message_iff {t : CommandLine} (ht : t.WellFormed) (m : StoredText)
    (stack : Stack) (multicastId : BitVec 64) (type : ℤ) :
    KeepsTable t stack multicastId m.bytes type ↔ m.Fits stack multicastId type := by
  have hzero := m.zero_not_mem_of_mem_wordsOf
  by_cases htype : type = 0
  · subst htype
    rw [StoredText.Fits, if_pos rfl]
    have hread := m.messageRows_bytes stack multicastId
    rw [datagramRows] at hread
    rcases hwords : wordsOf space m.text with _ | ⟨idWord, ws⟩
    · rw [hwords] at hread
      exact iff_of_true (keepsTable_of_noWord hread) trivial
    · simp only [hwords] at hread ⊢
      by_cases hid : BitVec.ofInt 64 (idNumber stack idWord) = multicastId
      · rw [if_pos hid] at hread ⊢
        rcases ws with _ | ⟨w, ws⟩
        · exact iff_of_true (keepsTable_of_noWord hread) trivial
        · exact keepsTable_repeat_iff ht hwords hid
      · rw [if_neg hid] at hread ⊢
        rw [hwords] at hzero
        exact rowsFrom_keeps_iff ht (fun u hu => hzero u (List.mem_cons_of_mem _ hu)) hread
  · rw [m.fits_of_ne stack multicastId htype]
    exact rowsFrom_keeps_iff ht hzero (m.messageRows_bytes_of_ne stack multicastId htype)

/-- The variables of the parser. -/
structure Parser where
  /-- `command_line`. -/
  commandLine : CommandLine
  /-- `multicast_id`. -/
  multicastId : BitVec 64

namespace Parser

/-- After the start: static memory is zero, and `multicast_id` is 1. -/
def boot : Parser := ⟨.zero, 1⟩

/-- One call of `get_command_line` that stays in defined behaviour. -/
def parse (s : Parser) : Stack × StoredText × ℤ → Option Parser
  | (stack, m, type) =>
    match getCommandLine stack s.commandLine s.multicastId m.bytes type with
    | .error _ => none
    | .ok (_, t, id) => some ⟨t, id⟩

/-- The words of the message fit the table. -/
def FitsNext (s : Parser) : Stack × StoredText × ℤ → Prop
  | (stack, m, type) => m.Fits stack s.multicastId type

/-- The table is well formed after the start. -/
lemma wellFormed_boot : boot.commandLine.WellFormed := by
  intro row hrow
  obtain rfl : row = List.Vector.replicate COMMAND_SLOT_SIZE 0 := List.eq_of_mem_replicate hrow
  simp [List.Vector.replicate, COMMAND_SLOT_SIZE]

/-- A call that fits keeps the table well formed. -/
lemma wellFormed_parse {s t : Parser} {x : Stack × StoredText × ℤ}
    (hs : s.commandLine.WellFormed) (hfit : s.FitsNext x) (h : s.parse x = some t) :
    t.commandLine.WellFormed := by
  obtain ⟨stack, m, type⟩ := x
  have hkeep := (keepsTable_message_iff hs m stack s.multicastId type).mpr hfit
  unfold KeepsTable at hkeep
  simp only [parse] at h
  rcases hline : getCommandLine stack s.commandLine s.multicastId m.bytes type with
    e | ⟨n, t', id⟩
  · simp [hline] at h
  · rw [hline] at h hkeep
    obtain rfl := Option.some.inj h
    exact hkeep

/-- **The table stays well formed as long as the words of every message fit it**, and no longer:
after any such messages, the next one keeps it exactly when its words fit. -/
theorem keepsTable_iff {s : Parser} {xs : List (Stack × StoredText × ℤ)}
    (hrun : StepRuns.run parse boot xs = some s)
    (hfit : StepRuns.Along parse FitsNext boot xs) :
    s.commandLine.WellFormed ∧
      ∀ (stack : Stack) (m : StoredText) (type : ℤ),
        KeepsTable s.commandLine stack s.multicastId m.bytes type ↔
          m.Fits stack s.multicastId type := by
  have hwell : s.commandLine.WellFormed :=
    StepRuns.invariant_of_run_along (I := fun s => s.commandLine.WellFormed)
      (fun _ _ _ hs hC h => wellFormed_parse hs hC h) wellFormed_boot hfit hrun
  exact ⟨hwell, fun stack m type => keepsTable_message_iff hwell m stack s.multicastId type⟩

/-- A command of one word. -/
def stopText : StoredText := ⟨ascii "stop", List.replicate 8 0, by decide, by decide⟩

/-- One word more than the table has slots. -/
def crowdedText : StoredText :=
  ⟨(List.replicate 41 [97, space]).flatten, List.replicate 8 0, by decide, by decide⟩

/-- A word as long as a slot. -/
def longText : StoredText := ⟨List.replicate 50 97, List.replicate 8 0, by decide, by decide⟩

/-- The words of the crowded text. -/
lemma wordsOf_crowdedText : wordsOf space crowdedText.text = List.replicate 41 [97] := by
  decide +kernel

/-- After a command of one word the table is well formed, and the crowded text would change
that. -/
theorem keepsTable_iff_stop : ∃ s, StepRuns.run parse boot [(.clear, stopText, 1)] = some s ∧
    s.commandLine.WellFormed ∧
      ¬ KeepsTable s.commandLine .clear s.multicastId crowdedText.bytes 1 := by
  have hwords : wordsOf space stopText.text = [ascii "stop"] := by decide +kernel
  have hone : (1 : ℤ) ≠ 0 := by decide
  have hread := stopText.messageRows_bytes_of_ne .clear 1 hone
  rw [hwords, rowsFrom_eq_ok (by decide)] at hread
  have hline := getCommandLine_of_rows hread .zero
  have hrun : StepRuns.run parse boot [(.clear, stopText, 1)] =
      some ⟨CommandLine.zero.fill 0 ([ascii "stop"].map rowOf), 1⟩ := by
    have hparse : boot.parse (.clear, stopText, 1) =
        some ⟨CommandLine.zero.fill 0 ([ascii "stop"].map rowOf), 1⟩ := by
      simp only [parse, boot, hline]
    simp [StepRuns.run, hparse]
  have hfit : StepRuns.Along parse FitsNext boot [(.clear, stopText, 1)] := by
    refine ⟨(stopText.fits_of_ne _ _ hone).mpr ?_, fun _ _ => trivial⟩
    rw [hwords]
    exact ⟨by decide, by decide⟩
  obtain ⟨hwell, hiff⟩ := keepsTable_iff hrun hfit
  refine ⟨_, hrun, hwell, ?_⟩
  rw [hiff, crowdedText.fits_of_ne _ _ hone, wordsOf_crowdedText]
  rintro ⟨hcount, -⟩
  exact absurd hcount (by decide)

/-- Forty-one words leave the table, and a word of fifty bytes leaves a slot without terminator. -/
theorem not_keepsTable_crowded :
    crowdedText.text.length ≤ COMMAND_ITEM_SIZE ∧
      messageRows .clear 1 crowdedText.bytes 1 = .error .slot ∧
      ¬ KeepsTable .zero .clear 1 crowdedText.bytes 1 ∧
      longText.text.length ≤ COMMAND_ITEM_SIZE ∧ ¬ KeepsTable .zero .clear 1 longText.bytes 1 := by
  have hslot : messageRows .clear 1 crowdedText.bytes 1 = .error .slot := by
    rw [crowdedText.messageRows_bytes_of_ne .clear 1 (by decide), wordsOf_crowdedText]
    rfl
  have hcrowded := keepsTable_message_iff wellFormed_boot crowdedText .clear 1 1
  rw [crowdedText.fits_of_ne .clear 1 (by decide), wordsOf_crowdedText] at hcrowded
  have hwords : wordsOf space longText.text = [List.replicate 50 97] := by decide +kernel
  have hlong := keepsTable_message_iff wellFormed_boot longText .clear 1 1
  rw [longText.fits_of_ne .clear 1 (by decide), hwords] at hlong
  refine ⟨by decide, hslot, fun h => ?_, by decide, fun h => ?_⟩
  · exact absurd (hcrowded.mp h).1 (by decide)
  · exact absurd ((hlong.mp h).2 _ List.mem_cons_self) (by decide)

end Parser

end Strand
