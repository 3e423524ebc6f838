import StrandFirmware.Library.CString

/-!
# The words of a text

The words of a text are its maximal runs of bytes other than the delimiter.  `strtok`, called again
and again on a terminated text, returns them in order: it skips the delimiters before a word and
leaves the text after it for the next call (`strtok_skip`, `strtok_word`).

A text is either made of delimiters only, or it is some delimiters, a word and a rest that is empty
or starts with a delimiter; `text_induction` is the induction on this shape.
-/

namespace CString

open MemoryFault

/-- The maximal runs of bytes other than the delimiter. -/
def wordsOf (delim : Byte) (text : List Byte) : List (List Byte) :=
  (text.splitOn delim).filter fun w => w ≠ []

/-- The text up to the terminating zero. -/
def textOf (a : List Byte) : List Byte := a.takeWhile fun c => c != 0

section Words

variable {delim : Byte} {w text : List Byte}

@[simp] lemma wordsOf_nil : wordsOf delim [] = [] := by simp [wordsOf]

/-- A delimiter before a text changes nothing. -/
@[simp] lemma wordsOf_delim_cons : wordsOf delim (delim :: text) = wordsOf delim text := by
  have h : (delim :: text).splitOn delim = [] :: text.splitOn delim :=
    List.splitOn_append_cons_self_of_not_mem List.not_mem_nil text
  simp [wordsOf, h]

/-- Delimiters before a text change nothing. -/
@[simp] lemma wordsOf_replicate_append (n : ℕ) :
    wordsOf delim (List.replicate n delim ++ text) = wordsOf delim text := by
  induction n with
  | zero => rfl
  | succ n ih => rw [List.replicate_succ, List.cons_append, wordsOf_delim_cons, ih]

/-- A text of delimiters has no word. -/
@[simp] lemma wordsOf_replicate (n : ℕ) : wordsOf delim (List.replicate n delim) = [] := by
  rw [← List.append_nil (List.replicate n delim), wordsOf_replicate_append, wordsOf_nil]

/-- One word. -/
lemma wordsOf_word (hw : IsWord delim w) : wordsOf delim w = [w] := by
  rw [wordsOf, List.splitOn_eq_singleton hw.2.1]
  simp [hw.1]

/-- A word ends at the next delimiter. -/
lemma wordsOf_word_append (hw : IsWord delim w) :
    wordsOf delim (w ++ delim :: text) = w :: wordsOf delim text := by
  rw [wordsOf, List.splitOn_append_cons_self_of_not_mem hw.2.1]
  simp [hw.1, wordsOf]

/-- The shape of a text. -/
lemma exists_shape (delim : Byte) (htext : 0 ∉ text) :
    (∃ n, text = List.replicate n delim) ∨
      ∃ n w, IsWord delim w ∧ (text = List.replicate n delim ++ w ∨
        ∃ rest, text = List.replicate n delim ++ (w ++ delim :: rest)) := by
  induction text with
  | nil => exact .inl ⟨0, rfl⟩
  | cons c text ih =>
    obtain ⟨hc0, ht0⟩ : ¬ 0 = c ∧ 0 ∉ text := by simpa using htext
    by_cases hc : c = delim
    · subst hc
      rcases ih ht0 with ⟨n, rfl⟩ | ⟨n, w, hw, rfl | ⟨rest, rfl⟩⟩
      · exact .inl ⟨n + 1, rfl⟩
      · exact .inr ⟨n + 1, w, hw, .inl rfl⟩
      · exact .inr ⟨n + 1, w, hw, .inr ⟨rest, rfl⟩⟩
    · -- the first byte belongs to the first word
      have hc' : (0 : Byte) ≠ c := hc0
      have hd : delim ≠ c := fun h => hc h.symm
      have hone : IsWord delim [c] := by simp [IsWord, hc', hd]
      have hmore : ∀ {w}, IsWord delim w → IsWord delim (c :: w) := by
        intro w hw
        simp [IsWord, hc', hd, hw.2.1, hw.2.2]
      rcases ih ht0 with ⟨n, rfl⟩ | ⟨n, w, hw, rfl | ⟨rest, rfl⟩⟩
      · rcases n with _ | n
        · exact .inr ⟨0, [c], hone, .inl rfl⟩
        · exact .inr ⟨0, [c], hone, .inr ⟨List.replicate n delim, rfl⟩⟩
      · rcases n with _ | n
        · exact .inr ⟨0, c :: w, hmore hw, .inl rfl⟩
        · exact .inr ⟨0, [c], hone, .inr ⟨List.replicate n delim ++ w, rfl⟩⟩
      · rcases n with _ | n
        · exact .inr ⟨0, c :: w, hmore hw, .inr ⟨rest, rfl⟩⟩
        · exact .inr ⟨0, [c], hone, .inr ⟨List.replicate n delim ++ (w ++ delim :: rest), rfl⟩⟩

/-- Induction on the words of a text. -/
@[elab_as_elim]
theorem text_induction (delim : Byte) {motive : List Byte → Prop}
    (blank : ∀ n, motive (List.replicate n delim))
    (last : ∀ n w, IsWord delim w → motive (List.replicate n delim ++ w))
    (word : ∀ n w rest, IsWord delim w → 0 ∉ rest → motive rest →
      motive (List.replicate n delim ++ (w ++ delim :: rest)))
    (htext : 0 ∉ text) : motive text := by
  induction hlen : text.length using Nat.strong_induction_on generalizing text with
  | _ len ih =>
    rcases exists_shape delim htext with ⟨n, rfl⟩ | ⟨n, w, hw, rfl | ⟨rest, rfl⟩⟩
    · exact blank n
    · exact last n w hw
    · have hrest : 0 ∉ rest := fun h => htext (by simp [h])
      refine word n w rest hw hrest (ih rest.length ?_ hrest rfl)
      rw [← hlen]
      simp only [List.length_append, List.length_cons]
      omega

/-- Dropping the delimiters before a word. -/
lemma dropWhile_replicate_append (hw : IsWord delim w) (n : ℕ) :
    (List.replicate n delim ++ (w ++ text)).dropWhile (fun c => c == delim) = w ++ text := by
  obtain ⟨c, w', rfl⟩ := List.exists_cons_of_ne_nil hw.1
  have hc : c ≠ delim := fun h => hw.2.1 (h ▸ List.mem_cons_self)
  rw [List.dropWhile_append_of_pos (by simp), List.cons_append,
    List.dropWhile_cons_of_neg (by simpa using hc)]

/-- Dropping a word. -/
lemma dropWhile_word_append (hw : IsWord delim w) :
    (w ++ text).dropWhile (fun c => c != delim) = text.dropWhile fun c => c != delim := by
  rw [List.dropWhile_append_of_pos]
  intro c hc
  have : c ≠ delim := fun h => hw.2.1 (h ▸ hc)
  simpa using this

/-- The first word of a text that starts with it. -/
lemma takeWhile_word_append (hw : IsWord delim w) :
    (w ++ text).takeWhile (fun c => c != delim) = w ++ text.takeWhile fun c => c != delim := by
  rw [List.takeWhile_append_of_pos]
  intro c hc
  have : c ≠ delim := fun h => hw.2.1 (h ▸ hc)
  simpa using this

/-- The words of a text are words. -/
lemma isWord_of_mem_wordsOf (htext : 0 ∉ text) : ∀ v ∈ wordsOf delim text, IsWord delim v := by
  refine text_induction delim ?_ ?_ ?_ htext
  · intro n
    simp
  · intro n w hw
    simp [wordsOf_word hw, hw]
  · intro n w rest hw _ ih
    simp only [wordsOf_replicate_append, wordsOf_word_append hw, List.forall_mem_cons]
    exact ⟨hw, ih⟩

end Words

/-! ## The scan of a terminated text -/

section Scan

variable {delim : Byte} {buf w r : List Byte} {p n : ℕ}

/-- `strtok` skips the delimiters before a word. -/
lemma strtok_skip {s : List Byte} (hbuf : buf.drop p = List.replicate n delim ++ s) :
    strtok delim buf p = strtok delim buf (p + n) := by
  have hs : buf.drop (p + n) = s := by
    rw [← List.drop_drop, hbuf, List.drop_left' (by simp)]
  have htake : ((buf.drop p).takeWhile fun c => c == delim) =
      List.replicate n delim ++ (buf.drop (p + n)).takeWhile fun c => c == delim := by
    rw [hbuf, hs, List.takeWhile_append_of_pos]
    simp
  unfold strtok
  simp only [htake, List.length_append, List.length_replicate, Nat.add_assoc]

/-- There is no word in delimiters only. -/
lemma strtok_blank (hdelim : delim ≠ 0) (hbuf : buf.drop p = List.replicate n delim ++ 0 :: r) :
    strtok delim buf p = .ok (none, buf, none) := by
  have hs : buf.drop (p + n) = 0 :: r := by
    rw [← List.drop_drop, hbuf, List.drop_left' (by simp)]
  have hzero : buf[p + n]? = some 0 := by
    rw [← List.head?_drop, hs]
    rfl
  rw [strtok_skip hbuf]
  simp [strtok, hs, hdelim.symm, hzero]

/-- The last word of a text. -/
lemma strtok_last (hw : IsWord delim w)
    (hbuf : buf.drop p = List.replicate n delim ++ (w ++ 0 :: r)) :
    strtok delim buf p = .ok (some (p + n), buf, none) ∧ buf.drop (p + n) = w ++ 0 :: r := by
  have hs : buf.drop (p + n) = w ++ 0 :: r := by
    rw [← List.drop_drop, hbuf, List.drop_left' (by simp)]
  refine ⟨?_, hs⟩
  rw [strtok_skip hbuf, strtok_word hw hs (.inr rfl)]
  simp

/-- A word with more text behind it: the delimiter after it becomes a zero. -/
lemma strtok_next (hdelim : delim ≠ 0) (hw : IsWord delim w)
    (hbuf : buf.drop p = List.replicate n delim ++ (w ++ delim :: r)) :
    strtok delim buf p =
        .ok (some (p + n), buf.set (p + n + w.length) 0, some (p + n + w.length + 1)) ∧
      (buf.set (p + n + w.length) 0).drop (p + n) = w ++ 0 :: r ∧
      (buf.set (p + n + w.length) 0).drop (p + n + w.length + 1) = r := by
  have hs : buf.drop (p + n) = w ++ delim :: r := by
    rw [← List.drop_drop, hbuf, List.drop_left' (by simp)]
  refine ⟨?_, ?_, ?_⟩
  · rw [strtok_skip hbuf, strtok_word hw hs (.inl rfl)]
    simp [hdelim]
  · rw [← List.set_drop, hs, List.set_append_right _ _ (by simp)]
    simp
  · rw [List.drop_set_of_lt (by omega), Nat.add_assoc (p + n), ← List.drop_drop, hs,
      List.drop_append]
    simp

/-- What is left behind the first bytes with a property. -/
lemma drop_length_takeWhile (f : Byte → Bool) (s : List Byte) :
    s.drop (s.takeWhile f).length = s.dropWhile f := by
  have h := List.takeWhile_append_dropWhile (p := f) (l := s)
  calc
    s.drop (s.takeWhile f).length =
        (s.takeWhile f ++ s.dropWhile f).drop (s.takeWhile f).length := by rw [h]
    _ = s.dropWhile f := List.drop_left' rfl

/-- The first bytes with a property, and the byte that ends them. -/
lemma drop_eq_takeWhile_append (f : Byte → Bool) {start : ℕ} {c : Byte}
    (hc : buf[start + ((buf.drop start).takeWhile f).length]? = some c) :
    ∃ r, buf.drop start = (buf.drop start).takeWhile f ++ c :: r := by
  obtain ⟨hlt, hget⟩ := List.getElem?_eq_some_iff.mp hc
  have hdrop := drop_length_takeWhile f (buf.drop start)
  rw [List.drop_drop, List.drop_eq_getElem_cons hlt, hget] at hdrop
  exact ⟨_, by rw [hdrop, List.takeWhile_append_dropWhile]⟩

/-- A word that `strtok` found: what stands behind the delimiters, ended by a zero. -/
lemma drop_of_strtok {q : ℕ} {buf' : List Byte} {next : Option ℕ}
    (h : strtok delim buf p = .ok (some q, buf', next)) :
    ∃ r, buf'.drop q = (((buf.drop p).dropWhile fun c => c == delim).takeWhile
      fun c => c != delim && c != 0) ++ 0 :: r := by
  have hstart := drop_length_takeWhile (fun c => c == delim) (buf.drop p)
  rw [List.drop_drop] at hstart
  rw [← hstart]
  unfold strtok at h
  dsimp only at h
  split at h
  next => simp at h
  next b hb =>
    split at h
    next => simp at h
    next =>
      split at h
      next => simp at h
      next c hc =>
        obtain ⟨r, hr⟩ := drop_eq_takeWhile_append _ hc
        split at h
        next hzero =>
          simp only [Except.ok.injEq, Prod.mk.injEq, Option.some.injEq] at h
          obtain ⟨rfl, rfl, -⟩ := h
          exact ⟨r, hzero ▸ hr⟩
        next =>
          simp only [Except.ok.injEq, Prod.mk.injEq, Option.some.injEq] at h
          obtain ⟨rfl, rfl, -⟩ := h
          refine ⟨r, ?_⟩
          generalize ((buf.drop _).takeWhile fun c => c != delim && c != 0) = w at hr ⊢
          rw [← List.set_drop, hr, List.set_append_right _ _ le_rfl]
          simp

/-- Without a zero the scan for a word, or for its end, runs past the end. -/
lemma strtok_error (hw : w = [] ∨ IsWord delim w)
    (hbuf : buf.drop p = List.replicate n delim ++ w) :
    strtok delim buf p = .error outOfBounds := by
  have hs : buf.drop (p + n) = w := by
    rw [← List.drop_drop, hbuf, List.drop_left' (by simp)]
  have hget : ∀ i, buf[p + n + i]? = w[i]? := fun i => by rw [← hs, List.getElem?_drop]
  rw [strtok_skip hbuf]
  rcases hw with rfl | hw
  · have hstart : buf[p + n]? = none := hget 0
    simp [strtok, hs, hstart]
  · obtain ⟨c, w', rfl⟩ := List.exists_cons_of_ne_nil hw.1
    have hc : c ≠ delim := fun h => hw.2.1 (h ▸ List.mem_cons_self)
    have hc0 : c ≠ 0 := fun h => hw.2.2 (h ▸ List.mem_cons_self)
    have hskip : ((buf.drop (p + n)).takeWhile fun x => x == delim) = [] := by
      rw [hs, List.takeWhile_cons_of_neg (by simpa using hc)]
    have hword : ((buf.drop (p + n)).takeWhile fun x => x != delim && x != 0) = c :: w' := by
      rw [hs, List.takeWhile_eq_self_iff]
      intro x hx
      have h1 : x ≠ delim := fun h => hw.2.1 (h ▸ hx)
      have h2 : x ≠ 0 := fun h => hw.2.2 (h ▸ hx)
      simp [h1, h2]
    have hstart : buf[p + n]? = some c := hget 0
    have hstop : buf[p + n + (c :: w').length]? = none := by
      rw [hget]
      simp
    unfold strtok
    simp only [hskip, List.length_nil, Nat.add_zero, hstart, if_neg hc0, hword, hstop]

/-- The only fault of `strtok` is to run past the end. -/
lemma strtok_cases (delim : Byte) (buf : List Byte) (p : ℕ) :
    strtok delim buf p = .error outOfBounds ∨ ∃ x, strtok delim buf p = .ok x := by
  unfold strtok
  dsimp only
  split
  · exact .inl rfl
  · split
    · exact .inr ⟨_, rfl⟩
    · split
      · exact .inl rfl
      · split
        · exact .inr ⟨_, rfl⟩
        · exact .inr ⟨_, rfl⟩

/-- The only fault of the next call is to run past the end. -/
lemma strtokNext_cases (delim : Byte) (buf : List Byte) (next : Option ℕ) :
    strtokNext delim buf next = .error outOfBounds ∨ ∃ x, strtokNext delim buf next = .ok x := by
  cases next with
  | none => exact .inr ⟨_, rfl⟩
  | some p => exact strtok_cases delim buf p

/-- In bytes without a zero there is always a further word, or the scan runs past the end. -/
lemma strtok_unterminated (hbuf : 0 ∉ buf.drop p) {token next : Option ℕ} {buf' : List Byte}
    (h : strtok delim buf p = .ok (token, buf', next)) :
    token.isSome ∧ ∃ q, next = some q ∧ 0 ∉ buf'.drop q := by
  have hne : ∀ {i : ℕ} {b : Byte}, p ≤ i → buf[i]? = some b → b ≠ 0 := by
    rintro i b hi hb rfl
    refine hbuf (List.mem_iff_getElem?.mpr ⟨i - p, ?_⟩)
    rw [List.getElem?_drop, Nat.add_sub_cancel' hi, hb]
  unfold strtok at h
  dsimp only at h
  split at h
  next => simp at h
  next b hb =>
    rw [if_neg (hne (Nat.le_add_right _ _) hb)] at h
    split at h
    next => simp at h
    next c hc =>
      rw [if_neg (hne (by omega) hc)] at h
      simp only [Except.ok.injEq, Prod.mk.injEq] at h
      obtain ⟨rfl, rfl, rfl⟩ := h
      refine ⟨rfl, _, rfl, ?_⟩
      rw [List.drop_set_of_lt (by omega)]
      intro h0
      refine hbuf ?_
      rw [Nat.add_assoc, Nat.add_assoc, ← List.drop_drop] at h0
      exact List.mem_of_mem_drop h0

/-- A copy of bytes without a zero ends at its size, or the scan runs past the end. -/
lemma strncpy_cases (n : ℕ) (m : List Byte) :
    strncpy n m = .error outOfBounds ∨ ∃ row, strncpy n m = .ok row := by
  induction m generalizing n with
  | nil =>
    cases n with
    | zero => exact .inr ⟨_, rfl⟩
    | succ n => exact .inl rfl
  | cons b m ih =>
    cases n with
    | zero => exact .inr ⟨_, rfl⟩
    | succ n =>
      rw [strncpy]
      split
      · exact .inr ⟨_, rfl⟩
      · rcases ih n with h | ⟨row, h⟩
        · exact .inl (by rw [h]; rfl)
        · exact .inr ⟨_, by rw [h]; rfl⟩

end Scan

/-- A string in memory: its text, the zero, and what follows. -/
lemma eq_textOf_append {a : List Byte} (h : 0 ∈ a) :
    0 ∉ textOf a ∧ ∃ r, a = textOf a ++ 0 :: r := by
  induction a with
  | nil => simp at h
  | cons c a ih =>
    by_cases hc : c = 0
    · subst hc
      exact ⟨by simp [textOf], a, by simp [textOf]⟩
    · have h' : 0 ∈ a := (List.mem_cons.mp h).resolve_left fun h => hc h.symm
      obtain ⟨hno, r, hr⟩ := ih h'
      have htext : textOf (c :: a) = c :: textOf a := by simp [textOf, hc]
      refine ⟨by simp [htext, hno, Ne.symm hc], r, ?_⟩
      rw [htext, List.cons_append, ← hr]

/-- A comparison with a shorter literal compares the text. -/
lemma strcmpEqual_eq_true_iff {m lit : List Byte} (hlit : 0 ∉ lit) (hlen : lit.length < m.length) :
    strcmpEqual m lit = .ok true ↔ textOf m = lit := by
  induction m generalizing lit with
  | nil => simp at hlen
  | cons b m ih =>
    rcases lit with _ | ⟨c, lit⟩
    · by_cases hb : b = 0
      · simp [strcmpEqual, textOf, hb]
      · simp [strcmpEqual, textOf, hb]
    · obtain ⟨hc, hrest⟩ : ¬ 0 = c ∧ 0 ∉ lit := by simpa using hlit
      by_cases hb : b = c
      · subst hb
        have hb0 : b ≠ 0 := Ne.symm hc
        have htext : textOf (b :: m) = b :: textOf m := by simp [textOf, hb0]
        simp only [strcmpEqual, if_true, htext, List.cons.injEq, true_and]
        exact ih hrest (by simpa using hlen)
      · by_cases hb0 : b = 0
        · simp [strcmpEqual, textOf, hb0, hc]
        · simp [strcmpEqual, textOf, hb, hb0]

end CString
