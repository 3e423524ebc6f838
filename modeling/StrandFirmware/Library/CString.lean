import Mathlib

/-!
# Strings of C in byte memory

A pointer into an object is the list of bytes from there to the end of the object.  The functions
below follow the C standard on such lists: they read byte by byte, stop at the terminating zero,
and fail with `outOfBounds` when they would read or write past the end of the object.

`atoi` is given with the saturation of `strtol` to a 32-bit `long`.  `strtok` is given for one
delimiter; it works on an offset because it writes a zero into the object at the end of each word.
-/

/-- The ways in which code on C strings leaves defined behaviour. -/
inductive MemoryFault where
  /-- A null pointer is read or written through. -/
  | nullPointer
  /-- An access falls outside its object. -/
  | outOfBounds
deriving DecidableEq

namespace CString

open MemoryFault

/-- A byte of memory. -/
abbrev Byte := UInt8

/-- The bytes of a literal, without its terminator. -/
def ascii (s : String) : List Byte := s.toList.map fun c => UInt8.ofNat c.toNat

/-- A computation that may fault, followed by another. -/
lemma bind_eq_ok_iff {ε α β : Type} {x : Except ε α} {f : α → Except ε β} {b : β} :
    (x >>= f) = .ok b ↔ ∃ a, x = .ok a ∧ f a = .ok b := by
  cases x with
  | error e => simp [bind, Except.bind]
  | ok a => simp [bind, Except.bind]

lemma map_eq_ok_iff {ε α β : Type} {x : Except ε α} {f : α → β} {b : β} :
    x.map f = .ok b ↔ ∃ a, x = .ok a ∧ f a = b := by
  cases x with
  | error e => simp [Except.map]
  | ok a => simp [Except.map]

/-! ## Comparison -/

/-- `strcmp(p, lit) == 0` for a literal, read byte by byte. -/
def strcmpEqual : List Byte → List Byte → Except MemoryFault Bool
  | [], _ => .error outOfBounds
  | b :: _, [] => .ok (b == 0)
  | b :: m, c :: lit => if b = c then strcmpEqual m lit else .ok false

/-- `strncmp(p, lit, n) == 0` for a literal, read byte by byte. -/
def strncmpEqual : List Byte → List Byte → ℕ → Except MemoryFault Bool
  | _, _, 0 => .ok true
  | [], _, _ + 1 => .error outOfBounds
  | b :: _, [], _ + 1 => .ok (b == 0)
  | b :: m, c :: lit, n + 1 => if b = c then strncmpEqual m lit n else .ok false

/-- A comparison with a literal never looks further than one byte past it. -/
lemma strcmpEqual_append {m lit : List Byte} (r : List Byte) (h : lit.length < m.length) :
    strcmpEqual (m ++ r) lit = strcmpEqual m lit := by
  induction m generalizing lit with
  | nil => simp at h
  | cons b m ih =>
    cases lit with
    | nil => rfl
    | cons c lit =>
      have hm : lit.length < m.length := by simpa using h
      simp only [List.cons_append, strcmpEqual, ih hm]

/-- A bounded comparison never looks further than its bound. -/
lemma strncmpEqual_append {m lit : List Byte} {n : ℕ} (r : List Byte) (h : n ≤ m.length) :
    strncmpEqual (m ++ r) lit n = strncmpEqual m lit n := by
  induction m generalizing lit n with
  | nil =>
    obtain rfl : n = 0 := by simpa using h
    cases lit <;> simp [strncmpEqual]
  | cons b m ih =>
    cases n with
    | zero => cases lit <;> simp [strncmpEqual]
    | succ n =>
      have hm : n ≤ m.length := by simpa using h
      cases lit with
      | nil => rfl
      | cons c lit => simp only [List.cons_append, strncmpEqual, ih hm]

/-- A comparison with a literal shorter than the object stays inside the object. -/
lemma exists_strcmpEqual_eq_ok {m lit : List Byte} (h : lit.length < m.length) :
    ∃ v, strcmpEqual m lit = .ok v := by
  induction m generalizing lit with
  | nil => simp at h
  | cons b m ih =>
    cases lit with
    | nil => exact ⟨_, rfl⟩
    | cons c lit =>
      have hm : lit.length < m.length := by simpa using h
      simp only [strcmpEqual]
      split
      · exact ih hm
      · exact ⟨_, rfl⟩

/-- A comparison with a bound below the size of the object stays inside the object. -/
lemma exists_strncmpEqual_eq_ok {m : List Byte} (lit : List Byte) {n : ℕ} (h : n ≤ m.length) :
    ∃ v, strncmpEqual m lit n = .ok v := by
  induction m generalizing lit n with
  | nil =>
    obtain rfl : n = 0 := by simpa using h
    cases lit <;> simp [strncmpEqual]
  | cons b m ih =>
    cases n with
    | zero => cases lit <;> simp [strncmpEqual]
    | succ n =>
      have hm : n ≤ m.length := by simpa using h
      cases lit with
      | nil => exact ⟨_, rfl⟩
      | cons c lit =>
        simp only [strncmpEqual]
        split
        · exact ih lit hm
        · exact ⟨_, rfl⟩

/-- Equal up to a bound means the same bytes up to the bound and the end of the literal. -/
lemma take_eq_of_strncmpEqual {m lit : List Byte} {n k : ℕ}
    (h : strncmpEqual m lit n = .ok true) (hn : k ≤ n) (hk : k ≤ lit.length) :
    m.take k = lit.take k := by
  induction m generalizing lit n k with
  | nil =>
    cases n with
    | zero =>
      obtain rfl : k = 0 := by omega
      rfl
    | succ n => cases lit <;> simp [strncmpEqual] at h
  | cons b m ih =>
    cases k with
    | zero => rfl
    | succ k =>
      cases n with
      | zero => omega
      | succ n =>
        cases lit with
        | nil => simp at hk
        | cons c lit =>
          have hb : b = c := by
            by_contra hne
            simp [strncmpEqual, hne] at h
          subst hb
          simp only [strncmpEqual, if_true] at h
          rw [List.take_succ_cons, List.take_succ_cons,
            ih h (by omega) (by simpa using hk)]

/-- A string equal to a literal starts with it. -/
lemma take_eq_of_strcmpEqual {m lit : List Byte} (h : strcmpEqual m lit = .ok true) :
    m.take lit.length = lit := by
  induction m generalizing lit with
  | nil => simp [strcmpEqual] at h
  | cons b m ih =>
    rcases lit with _ | ⟨c, lit⟩
    · rfl
    · obtain rfl : b = c := by
        by_contra hne
        simp [strcmpEqual, hne] at h
      simp only [strcmpEqual, if_true] at h
      rw [List.length_cons, List.take_succ_cons, ih h]

/-- A string equals at most one literal. -/
lemma strcmpEqual_unique {m a b : List Byte} (ha : strcmpEqual m a = .ok true)
    (hb : strcmpEqual m b = .ok true) (ha0 : 0 ∉ a) (hb0 : 0 ∉ b) : a = b := by
  induction m generalizing a b with
  | nil => simp [strcmpEqual] at ha
  | cons x m ih =>
    cases a with
    | nil =>
      cases b with
      | nil => rfl
      | cons c b =>
        obtain rfl : x = 0 := by simpa [strcmpEqual] using ha
        have hne : (0 : Byte) ≠ c := fun h => hb0 (h ▸ List.mem_cons_self)
        simp [strcmpEqual, hne] at hb
    | cons c a =>
      have hc : x = c := by
        by_contra h
        simp [strcmpEqual, h] at ha
      subst hc
      cases b with
      | nil =>
        obtain rfl : x = 0 := by simpa [strcmpEqual] using hb
        exact absurd List.mem_cons_self ha0
      | cons d b =>
        have hd : x = d := by
          by_contra h
          simp [strcmpEqual, h] at hb
        subst hd
        simp only [strcmpEqual, if_true] at ha hb
        rw [ih ha hb (fun h => ha0 (List.mem_cons_of_mem x h))
          (fun h => hb0 (List.mem_cons_of_mem x h))]

/-! ## Conversion to numbers -/

/-- `isspace`. -/
def isSpace (b : Byte) : Bool := b.toNat = 32 ∨ 9 ≤ b.toNat ∧ b.toNat ≤ 13

/-- `isdigit`. -/
def isDigit (b : Byte) : Bool := 48 ≤ b.toNat ∧ b.toNat ≤ 57

/-- The conversion of an out-of-range number by `strtol` with a 32-bit `long`. -/
def saturate (v : ℤ) : ℤ := max (-2 ^ 31) (min v (2 ^ 31 - 1))

/-- The digits of a number after its sign, `acc` being the value of those read already. -/
def atoiDigits (negative : Bool) : ℕ → List Byte → Except MemoryFault ℤ
  | _, [] => .error outOfBounds
  | acc, b :: m =>
    if isDigit b then atoiDigits negative (acc * 10 + (b.toNat - 48)) m
    else .ok (saturate (if negative then -acc else acc))

/-- The optional sign and the digits of a number. -/
def atoiSigned : List Byte → Except MemoryFault ℤ
  | [] => .error outOfBounds
  | b :: m =>
    if b = 45 then atoiDigits true 0 m
    else if b = 43 then atoiDigits false 0 m
    else atoiDigits false 0 (b :: m)

/-- `atoi`: leading white space, an optional sign, and digits up to the first other byte. -/
def atoi : List Byte → Except MemoryFault ℤ
  | [] => .error outOfBounds
  | b :: m => if isSpace b then atoi m else atoiSigned (b :: m)

/-- A digit is neither space nor sign. -/
lemma of_isDigit {b : Byte} (hb : isDigit b = true) : isSpace b = false ∧ b ≠ 45 ∧ b ≠ 43 := by
  simp only [isDigit, decide_eq_true_eq] at hb
  refine ⟨?_, ?_, ?_⟩
  · simp only [isSpace, decide_eq_false_iff_not]
    omega
  · rintro rfl
    simp at hb
  · rintro rfl
    simp at hb

section Atoi

variable {m r : List Byte} {v : ℤ} {negative : Bool} {acc : ℕ}

/-- A number that ended is not changed by what follows. -/
lemma atoiDigits_append (h : atoiDigits negative acc m = .ok v) :
    atoiDigits negative acc (m ++ r) = .ok v := by
  induction m generalizing acc with
  | nil => simp [atoiDigits] at h
  | cons b m ih =>
    simp only [List.cons_append, atoiDigits] at h ⊢
    split
    next hb => exact ih (by rwa [if_pos hb] at h)
    next hb => rwa [if_neg hb] at h

/-- Digits only: the number has no end. -/
lemma atoiDigits_error_iff :
    atoiDigits negative acc m = .error outOfBounds ↔ ∀ b ∈ m, isDigit b = true := by
  induction m generalizing acc with
  | nil => simp [atoiDigits]
  | cons b m ih =>
    simp only [atoiDigits, List.forall_mem_cons]
    split
    next hb => simp [ih, hb]
    next hb => simp [hb]

/-- A byte that is no digit ends the number. -/
lemma exists_atoiDigits_eq_ok {b : Byte} (hb : isDigit b = false) :
    ∃ v, atoiDigits negative acc (m ++ b :: r) = .ok v := by
  induction m generalizing acc with
  | nil => simp [atoiDigits, hb]
  | cons c m ih =>
    simp only [List.cons_append, atoiDigits]
    split
    · exact ih
    · exact ⟨_, rfl⟩

/-- The only fault of `atoiDigits` is to run past the end. -/
lemma atoiDigits_cases :
    atoiDigits negative acc m = .error outOfBounds ∨ ∃ v, atoiDigits negative acc m = .ok v := by
  induction m generalizing acc with
  | nil => exact .inl rfl
  | cons b m ih =>
    simp only [atoiDigits]
    split
    · exact ih
    · exact .inr ⟨_, rfl⟩

/-- A number that ended is not changed by what follows. -/
lemma atoi_append (h : atoi m = .ok v) : atoi (m ++ r) = .ok v := by
  induction m with
  | nil => simp [atoi] at h
  | cons b m ih =>
    simp only [List.cons_append, atoi] at h ⊢
    split
    next hb => exact ih (by rwa [if_pos hb] at h)
    next hb =>
      rw [if_neg hb] at h
      simp only [atoiSigned] at h ⊢
      split_ifs at h ⊢
      · exact atoiDigits_append h
      · exact atoiDigits_append h
      · exact atoiDigits_append (m := b :: m) h

/-- The only fault of `atoi` is to run past the end. -/
lemma atoi_cases (m : List Byte) : atoi m = .error outOfBounds ∨ ∃ v, atoi m = .ok v := by
  induction m with
  | nil => exact .inl rfl
  | cons b m ih =>
    simp only [atoi, atoiSigned]
    split_ifs
    · exact ih
    all_goals exact atoiDigits_cases

/-- A number that ended is a 32-bit `int`. -/
lemma atoiDigits_mem (h : atoiDigits negative acc m = .ok v) : -2 ^ 31 ≤ v ∧ v < 2 ^ 31 := by
  induction m generalizing acc with
  | nil => simp [atoiDigits] at h
  | cons b m ih =>
    simp only [atoiDigits] at h
    split at h
    · exact ih h
    · obtain rfl := Except.ok.inj h
      unfold saturate
      omega

/-- The value of `atoi` is a 32-bit `int`. -/
lemma atoi_mem (h : atoi m = .ok v) : -2 ^ 31 ≤ v ∧ v < 2 ^ 31 := by
  induction m with
  | nil => simp [atoi] at h
  | cons b m ih =>
    simp only [atoi, atoiSigned] at h
    split_ifs at h
    · exact ih h
    all_goals exact atoiDigits_mem h

/-- A number that ran past the end still does when only digits follow. -/
lemma atoi_append_digits (h : atoi m = .error outOfBounds) (hr : ∀ b ∈ r, isDigit b = true) :
    atoi (m ++ r) = .error outOfBounds := by
  induction m with
  | nil =>
    cases r with
    | nil => rfl
    | cons b r =>
      have hb := hr b List.mem_cons_self
      obtain ⟨hspace, hminus, hplus⟩ := of_isDigit hb
      simp only [List.nil_append, atoi, hspace, atoiSigned, if_neg hminus, if_neg hplus]
      exact atoiDigits_error_iff.mpr hr
  | cons b m ih =>
    simp only [List.cons_append, atoi] at h ⊢
    split
    next hb => exact ih (by rwa [if_pos hb] at h)
    next hb =>
      rw [if_neg hb] at h
      have happ : ∀ {l : List Byte}, (∀ c ∈ l, isDigit c = true) → ∀ c ∈ l ++ r, isDigit c = true :=
        fun hl c hc => (List.mem_append.mp hc).elim (hl c) (hr c)
      simp only [atoiSigned] at h ⊢
      split_ifs at h ⊢
      · exact atoiDigits_error_iff.mpr (happ (atoiDigits_error_iff.mp h))
      · exact atoiDigits_error_iff.mpr (happ (atoiDigits_error_iff.mp h))
      · exact atoiDigits_error_iff.mpr (happ (l := b :: m) (atoiDigits_error_iff.mp h))

/-- A byte that is neither space, sign nor digit ends every number before it. -/
lemma exists_atoi_append_eq_ok {b : Byte} (hspace : isSpace b = false) (hdigit : isDigit b = false)
    (hminus : b ≠ 45) (hplus : b ≠ 43) : ∃ v, atoi (m ++ b :: r) = .ok v := by
  induction m with
  | nil => simp [atoi, hspace, atoiSigned, hminus, hplus, atoiDigits, hdigit]
  | cons c m ih =>
    simp only [List.cons_append, atoi, atoiSigned]
    split_ifs
    · exact ih
    · exact exists_atoiDigits_eq_ok hdigit
    · exact exists_atoiDigits_eq_ok hdigit
    · exact exists_atoiDigits_eq_ok (m := c :: m) hdigit

end Atoi

/-! ## Copies -/

/-- `strncpy` into an object of `n` bytes: up to `n` bytes of the string, padded with zeros.  A
string of `n` bytes or more leaves no terminator. -/
def strncpy : (n : ℕ) → List Byte → Except MemoryFault (List.Vector Byte n)
  | 0, _ => .ok List.Vector.nil
  | _ + 1, [] => .error outOfBounds
  | n + 1, b :: m =>
    if b = 0 then .ok (List.Vector.replicate (n + 1) 0)
    else (strncpy n m).map fun row => b ::ᵥ row

/-- The object that holds a string of less than its size: the bytes, then zeros. -/
def padded (n : ℕ) (w : List Byte) : List.Vector Byte n :=
  ⟨(w ++ List.replicate n 0).take n, by simp⟩

/-- Copying a terminated string, whole or cut to the size of the object. -/
lemma strncpy_terminated {n : ℕ} {w r : List Byte} (hw : 0 ∉ w) :
    strncpy n (w ++ 0 :: r) = .ok (padded n w) := by
  induction w generalizing n with
  | nil =>
    cases n with
    | zero => rfl
    | succ n =>
      have h : padded (n + 1) [] = List.Vector.replicate (n + 1) 0 := by
        apply List.Vector.eq
        simp [padded, List.Vector.replicate]
      simp [strncpy, h]
  | cons b w ih =>
    cases n with
    | zero => rfl
    | succ n =>
      have hb : b ≠ 0 := fun h => hw (h ▸ List.mem_cons_self)
      have h : padded (n + 1) (b :: w) = b ::ᵥ padded n w := by
        apply List.Vector.eq
        rw [List.Vector.toList_cons]
        simp only [padded, List.Vector.toList_mk, List.cons_append, List.take_succ_cons,
          List.replicate_succ']
        rw [← List.append_assoc, List.take_append_of_le_length (by simp)]
      rw [List.cons_append, strncpy, if_neg hb, ih fun h => hw (List.mem_cons_of_mem b h), h]
      rfl

/-! ## Words -/

/-- `strtok(s, delim)` with the string at offset `p` of `buf`: the offset of the next word, the
object with a zero after it, and where the next call continues.  There is no next call to continue
when the word ends the string, and no word at all in what is left of delimiters only. -/
def strtok (delim : Byte) (buf : List Byte) (p : ℕ) :
    Except MemoryFault (Option ℕ × List Byte × Option ℕ) :=
  let start := p + ((buf.drop p).takeWhile fun c => c == delim).length
  match buf[start]? with
  | none => .error outOfBounds
  | some b =>
    if b = 0 then .ok (none, buf, none)
    else
      let stop := start + ((buf.drop start).takeWhile fun c => c != delim && c != 0).length
      match buf[stop]? with
      | none => .error outOfBounds
      | some c =>
        if c = 0 then .ok (some start, buf, none)
        else .ok (some start, buf.set stop 0, some (stop + 1))

/-- `strtok(NULL, delim)`: continue where the last call stopped. -/
def strtokNext (delim : Byte) (buf : List Byte) :
    Option ℕ → Except MemoryFault (Option ℕ × List Byte × Option ℕ)
  | none => .ok (none, buf, none)
  | some p => strtok delim buf p

/-- `strncpy(p, bytes, n)` into the object itself, `n` being the length of `bytes`. -/
def overwrite (buf : List Byte) (p : ℕ) (bytes : List Byte) : Except MemoryFault (List Byte) :=
  if p + bytes.length ≤ buf.length then
    .ok (buf.take p ++ bytes ++ buf.drop (p + bytes.length))
  else .error outOfBounds

/-- A word of a message: not empty, without the delimiter and without a zero. -/
def IsWord (delim : Byte) (w : List Byte) : Prop := w ≠ [] ∧ delim ∉ w ∧ 0 ∉ w

instance (delim : Byte) (w : List Byte) : Decidable (IsWord delim w) :=
  inferInstanceAs (Decidable (_ ∧ _ ∧ _))

/-- The scan for the end of a word stops right after it. -/
lemma takeWhile_word {delim b : Byte} {w r : List Byte} (hw : IsWord delim w)
    (hb : b = delim ∨ b = 0) :
    (w ++ b :: r).takeWhile (fun c => c != delim && c != 0) = w := by
  rw [List.takeWhile_append_of_pos, List.takeWhile_cons_of_neg, List.append_nil]
  · rcases hb with rfl | rfl <;> simp
  · intro c hc
    have h1 : c ≠ delim := fun h => hw.2.1 (h ▸ hc)
    have h2 : c ≠ 0 := fun h => hw.2.2 (h ▸ hc)
    simp [h1, h2]

/-- At a word, `strtok` returns the word itself: there is no delimiter to skip. -/
lemma strtok_word {delim b : Byte} {buf w r : List Byte} {p : ℕ} (hw : IsWord delim w)
    (hbuf : buf.drop p = w ++ b :: r) (hb : b = delim ∨ b = 0) :
    strtok delim buf p =
      .ok (some p, if b = 0 then buf else buf.set (p + w.length) 0,
        if b = 0 then none else some (p + w.length + 1)) := by
  obtain ⟨c, w', rfl⟩ := List.exists_cons_of_ne_nil hw.1
  have hc : c ≠ delim := fun h => hw.2.1 (h ▸ List.mem_cons_self)
  have hc0 : c ≠ 0 := fun h => hw.2.2 (h ▸ List.mem_cons_self)
  have hskip : ((buf.drop p).takeWhile fun x => x == delim) = [] := by
    rw [hbuf, List.cons_append, List.takeWhile_cons_of_neg (by simpa using hc)]
  have hstart : buf[p]? = some c := by
    rw [← List.head?_drop, hbuf]
    rfl
  have hstop : buf[p + (c :: w').length]? = some b := by
    rw [← List.getElem?_drop, hbuf]
    simp
  have hword : ((buf.drop p).takeWhile fun x => x != delim && x != 0) = c :: w' := by
    rw [hbuf]
    exact takeWhile_word hw hb
  unfold strtok
  simp only [hskip, List.length_nil, Nat.add_zero, hstart, if_neg hc0, hword, hstop]
  split <;> rfl

end CString
