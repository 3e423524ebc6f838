import StrandFirmware.EventDispatch
import StrandFirmware.MessageWords

/-!
# Messages that fit the parser

For a message that ends inside its item and whose words fit the slots, `get_command_line` does what
it is meant to do (`getCommandLine_words`): the words of the message fill the slots from 0 on, and a
repeated id leaves `duplicate` in slot 0, which `command_handler` drops.
-/

namespace Strand

open CString MemoryFault

/-! ## Messages that fit -/

/-- The first slots hold some words, each with its terminator, and the others are those of
before. -/
structure CommandLine.HoldsWords (t t' : CommandLine) (ws : List (List Byte)) : Prop where
  /-- The words in order, filled up with zeros. -/
  words : ∀ (i : ℕ) (w : List Byte), ws[i]? = some w → ∃ row : Row, t'.rows[i]? = some row ∧
    w.length < COMMAND_SLOT_SIZE ∧
    row.toList = w ++ List.replicate (COMMAND_SLOT_SIZE - w.length) 0
  /-- The slots behind the words. -/
  unchanged : t'.rows.drop ws.length = t.rows.drop ws.length

/-- A short word in its slot. -/
lemma toList_rowOf {w : List Byte} (hw : w.length < COMMAND_SLOT_SIZE) :
    (rowOf w).toList = w ++ List.replicate (COMMAND_SLOT_SIZE - w.length) 0 := by
  rw [rowOf, padded, List.Vector.toList_mk, List.take_append, List.take_of_length_le hw.le,
    List.take_replicate, Nat.min_eq_left (Nat.sub_le _ _)]

/-- Short words fill the slots. -/
lemma holdsWords_fill {t : CommandLine} {ws : List (List Byte)} (hlen : ws.length ≤ COMMAND_ITEMS)
    (hshort : ∀ w ∈ ws, w.length < COMMAND_SLOT_SIZE) :
    t.HoldsWords (t.fill 0 (ws.map rowOf)) ws := by
  have hrows : (t.fill 0 (ws.map rowOf)).rows = ws.map rowOf ++ t.rows.drop ws.length := by
    rw [rows_fill (by simpa using hlen)]
    simp
  refine ⟨?_, ?_⟩
  · intro i w hw
    have hmem : w ∈ ws := List.mem_of_getElem? hw
    obtain ⟨hi, -⟩ := List.getElem?_eq_some_iff.mp hw
    refine ⟨rowOf w, ?_, hshort w hmem, toList_rowOf (hshort w hmem)⟩
    rw [hrows, List.getElem?_append_left (by simpa using hi), List.getElem?_map, hw]
    rfl
  · rw [hrows, List.drop_left' (by simp)]

/-- A number that ends inside its copy does not depend on what lies behind. -/
lemma atoi_eq_of_eq_ok {buff : List Byte} {v : ℤ} (h : atoi buff = .ok v) (stack : Stack) :
    stack.atoi buff = v :=
  Except.ok.inj ((stack.atoi_append buff).symm.trans (CString.atoi_append h))

/-- The number in a short id word. -/
lemma idNumber_eq {w : List Byte} (hw : w.length < 100) :
    ∃ v, atoi (w ++ [0]) = .ok v ∧ ∀ stack, idNumber stack w = v := by
  obtain ⟨v, hv⟩ : ∃ v, atoi (w ++ [0]) = .ok v :=
    exists_atoi_append_eq_ok (by decide) (by decide) (by decide) (by decide)
  refine ⟨v, hv, ?_⟩
  obtain ⟨k, hk⟩ := Nat.exists_eq_add_of_lt hw
  have hpad : (padded 100 w).toList = w ++ [0] ++ List.replicate k 0 := by
    rw [padded, List.Vector.toList_mk, List.take_append, List.take_of_length_le hw.le,
      List.take_replicate, Nat.min_eq_left (Nat.sub_le _ _), List.append_assoc,
      List.singleton_append, ← List.replicate_succ]
    congr 2
    omega
  intro stack
  rw [idNumber, hpad]
  exact atoi_eq_of_eq_ok (CString.atoi_append hv) stack

/-- Slot 0 holds `"duplicate"`. -/
lemma standardMatch_duplicate :
    standardMatch (rowOf (ascii "duplicate")) = some duplicateBranch := by
  have hacc : duplicateBranch.accepts (rowOf (ascii "duplicate")) = true := by decide
  simp [standardMatch, standardBranches, hacc]

/-- The handling of a message whose slot 0 became `"duplicate"`. -/
lemma commandHandler_duplicate {env : Environment} {s : NetState} {a : List Byte} {type : ℤ}
    {n : ℕ} {t : CommandLine} {id : BitVec 64}
    (hline : getCommandLine env.stack s.commandLine s.multicastId a type = .ok (n, t, id))
    (ht : t.rows.head? = some (rowOf (ascii "duplicate"))) :
    commandHandler env s a type = .ok (⟨t, id, s.stepper, s.location⟩, []) := by
  obtain ⟨rest, hrows⟩ : ∃ rest, t.rows = rowOf (ascii "duplicate") :: rest := by
    rcases hr : t.rows with _ | ⟨row, rest⟩
    · simp [hr] at ht
    · rw [hr] at ht
      exact ⟨rest, by simpa using ht⟩
  have hdispatch : dispatch env t type ⟨s.stepper, s.location, []⟩ =
      .ok ⟨s.stepper, s.location, []⟩ := by
    rw [dispatch_eq env hrows, standardMatch_duplicate]
    rfl
  simp [commandHandler, hline, hdispatch, bind, Except.bind]

/-- The second word of a text starts its command text. -/
lemma exists_commandText {text idWord w : List Byte} {ws : List (List Byte)} (htext : 0 ∉ text)
    (hwords : wordsOf space text = idWord :: w :: ws) :
    IsWord space w ∧ (commandText text = w ∧ ws = [] ∨
      ∃ rest, commandText text = w ++ space :: rest ∧ ws = wordsOf space rest) := by
  rcases exists_shape space htext with ⟨n, rfl⟩ | ⟨n, v, hv, rfl | ⟨r, rfl⟩⟩
  · simp at hwords
  · simp [wordsOf_word hv] at hwords
  · have hr : 0 ∉ r := fun h => htext (by simp [h])
    rw [wordsOf_replicate_append, wordsOf_word_append hv] at hwords
    obtain ⟨-, hr'⟩ := List.cons.inj hwords
    rcases exists_shape space hr with ⟨m, rfl⟩ | ⟨m, u, hu, rfl | ⟨rest, rfl⟩⟩
    · simp at hr'
    · obtain ⟨rfl, rfl⟩ : u = w ∧ [] = ws := by simpa [wordsOf_word hu] using hr'
      refine ⟨hu, .inl ⟨?_, rfl⟩⟩
      have h := commandText_eq (n := n) (m := m) (t := []) hv hu
      rwa [List.append_nil] at h
    · obtain ⟨rfl, rfl⟩ : u = w ∧ wordsOf space rest = ws := by
        simpa [wordsOf_word_append hu] using hr'
      exact ⟨hu, .inr ⟨rest, commandText_eq hv hu, rfl⟩⟩

/-- The words of a repeat: `"duplicate"`, and then those behind the command word, or at most one
short piece of `"duplicate"` itself. -/
lemma exists_repeatWords {text idWord w : List Byte} {ws : List (List Byte)} (htext : 0 ∉ text)
    (hwords : wordsOf space text = idWord :: w :: ws) :
    ∃ tail, repeatWords (commandText text) = ascii "duplicate" :: tail ∧
      (9 ≤ w.length → tail = ws) ∧
      (w.length < 9 → tail.length ≤ 1 ∧ ∀ v ∈ tail, IsWord space v ∧ v.length ≤ 9) := by
  obtain ⟨hw, ⟨hcommand, rfl⟩ | ⟨rest, hcommand, rfl⟩⟩ := exists_commandText htext hwords
  · refine ⟨[], ?_, fun _ => rfl, by simp⟩
    have htake : (w.takeWhile fun c => c != space) = w := by
      rw [← List.append_nil w, takeWhile_word_append hw]
      simp
    have hdrop : w.drop (w.length + 1) = [] := List.drop_eq_nil_of_le (Nat.le_succ _)
    simp [hcommand, repeatWords, htake, hdrop]
  · have htake : ((w ++ space :: rest).takeWhile fun c => c != space).length = w.length := by
      rw [takeWhile_word_append hw]
      simp
    have hcut : (w ++ space :: rest).drop (w.length + 1) = rest := by
      rw [List.drop_append]
      simp
    by_cases hlong : 9 ≤ w.length
    · refine ⟨wordsOf space rest, ?_, fun _ => rfl, fun h => absurd hlong (by omega)⟩
      rw [hcommand, repeatWords, htake, if_pos hlong, hcut]
    · refine ⟨wordsOf space ((ascii "duplicate").drop (w.length + 1)), ?_,
        fun h => absurd h hlong, fun _ => ?_⟩
      · rw [hcommand, repeatWords, htake, if_neg hlong, if_neg (by simp)]
      · by_cases hnil : (ascii "duplicate").drop (w.length + 1) = []
        · simp [hnil]
        · have hpiece : IsWord space ((ascii "duplicate").drop (w.length + 1)) :=
            ⟨hnil, fun h => isWord_duplicate.1.2.1 (List.mem_of_mem_drop h),
              fun h => isWord_duplicate.1.2.2 (List.mem_of_mem_drop h)⟩
          rw [wordsOf_word hpiece]
          refine ⟨le_rfl, ?_⟩
          intro v hv
          obtain rfl := List.mem_singleton.mp hv
          refine ⟨hpiece, ?_⟩
          rw [List.length_drop, isWord_duplicate.2]
          omega

/-- **`get_command_line` finds exactly the words of a message** that ends inside its item and whose
words fit the slots.  A datagram whose id is that of the last one leaves `"duplicate"` in slot 0,
and `command_handler` then does nothing. -/
theorem getCommandLine_words {m : Message} (hm : 0 ∈ m.toList) (stack : Stack) (t : CommandLine)
    (multicastId : BitVec 64) :
    (∀ type ≠ 0, (wordsOf space (textOf m.toList)).length ≤ COMMAND_ITEMS →
      (∀ w ∈ wordsOf space (textOf m.toList), w.length ≤ 49) →
      ∃ t', getCommandLine stack t multicastId m.toList type =
          .ok ((wordsOf space (textOf m.toList)).length, t', multicastId) ∧
        t.HoldsWords t' (wordsOf space (textOf m.toList))) ∧
    ∀ idWord ws, wordsOf space (textOf m.toList) = idWord :: ws → idWord.length ≤ 99 → ws ≠ [] →
      commandOffset (textOf m.toList) + 10 ≤ COMMAND_ITEM_SIZE → ws.length ≤ COMMAND_ITEMS →
      (∀ w ∈ ws, w.length ≤ 49) →
      ∃ v, atoi (idWord ++ [0]) = .ok v ∧
        (BitVec.ofInt 64 v ≠ multicastId →
          ∃ t', getCommandLine stack t multicastId m.toList 0 =
              .ok (ws.length, t', BitVec.ofInt 64 v) ∧ t.HoldsWords t' ws) ∧
        (BitVec.ofInt 64 v = multicastId →
          ∃ n t', getCommandLine stack t multicastId m.toList 0 = .ok (n, t', BitVec.ofInt 64 v) ∧
            t'.rows.head? = some (rowOf (ascii "duplicate")) ∧
            ∀ env : Environment, env.stack = stack → ∀ stepper location,
              commandHandler env ⟨t, multicastId, stepper, location⟩ m.toList 0 =
                .ok (⟨t', BitVec.ofInt 64 v, stepper, location⟩, [])) := by
  obtain ⟨htext, pad, hpad⟩ := eq_textOf_append hm
  refine ⟨?_, ?_⟩
  · intro type htype hlen hshort
    refine ⟨t.fill 0 ((wordsOf space (textOf m.toList)).map rowOf), ?_, holdsWords_fill hlen ?_⟩
    · have hrows := messageRows_text htype htext pad stack multicastId
      rw [← hpad, rowsFrom_eq_ok hlen] at hrows
      rw [getCommandLine_of_rows hrows, List.length_map]
    · exact fun w hw => Nat.lt_succ_of_le (hshort w hw)
  · intro idWord ws hwords hid hne hoffset hlen hshort
    obtain ⟨v, hv, hnumber⟩ := idNumber_eq (Nat.lt_succ_of_le hid)
    have hrows := messageRows_datagram htext pad stack multicastId
    have hsize : m.toList.length = COMMAND_ITEM_SIZE := m.toList_length
    rw [← hpad, hsize, datagramRows, hwords] at hrows
    simp only [hnumber stack] at hrows
    refine ⟨v, hv, ?_, ?_⟩
    · intro hnew
      refine ⟨t.fill 0 (ws.map rowOf), ?_, holdsWords_fill hlen ?_⟩
      · rw [if_neg hnew, rowsFrom_eq_ok hlen] at hrows
        rw [getCommandLine_of_rows hrows, List.length_map]
      · exact fun w hw => Nat.lt_succ_of_le (hshort w hw)
    · intro hrepeat
      obtain ⟨w, ws, rfl⟩ := List.exists_cons_of_ne_nil hne
      obtain ⟨tail, htail, hfar, hnear⟩ := exists_repeatWords htext hwords
      have htlen : (ascii "duplicate" :: tail).length ≤ COMMAND_ITEMS := by
        rw [List.length_cons] at hlen ⊢
        by_cases hlong : 9 ≤ w.length
        · rw [hfar hlong]
          exact hlen
        · have := (hnear (by omega)).1
          unfold COMMAND_ITEMS
          omega
      rw [if_pos hrepeat] at hrows
      simp only [if_pos hoffset, htail, rowsFrom_eq_ok htlen] at hrows
      have hline := getCommandLine_of_rows hrows t
      have hfirst : (t.fill 0 ((ascii "duplicate" :: tail).map rowOf)).rows.head? =
          some (rowOf (ascii "duplicate")) := by
        rw [rows_fill (by simpa using htlen)]
        rfl
      refine ⟨_, _, hline, hfirst, ?_⟩
      rintro env rfl stepper location
      exact commandHandler_duplicate hline hfirst

/-- A datagram with more than one space between its words. -/
def spacedDatagram : Message := Message.ofText " 7  stepperMove 10 "

/-- The datagram as a message over TCP, as the datagram after the id 1, and as a repeat. -/
theorem getCommandLine_words_spaced :
    (∃ t', getCommandLine .clear .zero 1 spacedDatagram.toList 1 = .ok (3, t', 1) ∧
      CommandLine.zero.HoldsWords t' [ascii "7", ascii "stepperMove", ascii "10"]) ∧
    (∃ t', getCommandLine .clear .zero 1 spacedDatagram.toList 0 = .ok (2, t', BitVec.ofInt 64 7) ∧
      CommandLine.zero.HoldsWords t' [ascii "stepperMove", ascii "10"]) ∧
    ∃ n t', getCommandLine .clear .zero 7 spacedDatagram.toList 0 = .ok (n, t', BitVec.ofInt 64 7) ∧
      t'.rows.head? = some (rowOf (ascii "duplicate")) := by
  have hzero : 0 ∈ spacedDatagram.toList := by decide +kernel
  have hwords : wordsOf space (textOf spacedDatagram.toList) =
      [ascii "7", ascii "stepperMove", ascii "10"] := by decide +kernel
  have hoffset : commandOffset (textOf spacedDatagram.toList) = 4 := by decide +kernel
  have hnumber : atoi (ascii "7" ++ [0]) = .ok 7 := by decide +kernel
  refine ⟨?_, ?_, ?_⟩
  · have h := (getCommandLine_words hzero .clear .zero 1).1 1 (by decide)
    rw [hwords] at h
    exact h (by decide) (by decide)
  · obtain ⟨v, hv, hnew, -⟩ := (getCommandLine_words hzero .clear .zero 1).2 _ _ hwords (by decide)
      (by decide) (by rw [hoffset]; decide) (by decide) (by decide)
    obtain rfl : 7 = v := Except.ok.inj (hnumber.symm.trans hv)
    exact hnew (by decide)
  · obtain ⟨v, hv, -, hrepeat⟩ := (getCommandLine_words hzero .clear .zero 7).2 _ _ hwords
      (by decide) (by decide) (by rw [hoffset]; decide) (by decide) (by decide)
    obtain rfl : 7 = v := Except.ok.inj (hnumber.symm.trans hv)
    obtain ⟨n, t', hline, hfirst, -⟩ := hrepeat (by decide)
    exact ⟨n, t', hline, hfirst⟩

end Strand
