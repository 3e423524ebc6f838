import StrandFirmware.Library.CString

/-!
# Decimal numbers in messages

`decimal v` is the text of an integer as `%d` prints it: a minus sign for a negative number, and the
digits without leading zeros.  It is a word for every delimiter that is neither a digit nor the
sign, it has at most eleven bytes when the number is a 32-bit `int`, and `atoi` returns this number
(`atoi_decimal`).
-/

namespace CString

/-- The text of an integer. -/
def decimal (v : ℤ) : List Byte := ascii v.repr

/-! ## Digits -/

/-- The byte of a decimal digit. -/
lemma digitChar_toNat {d : ℕ} (hd : d < 10) : (UInt8.ofNat d.digitChar.toNat).toNat = 48 + d := by
  have hchar : d.digitChar.toNat = 48 + d := by
    have h := Nat.toNat_digitChar_of_lt_ten hd
    omega
  rw [hchar, UInt8.toNat_ofNat']
  omega

/-- The bytes of the digits of a number. -/
def digitBytes (n : ℕ) : List Byte := (Nat.toDigits 10 n).map fun c => UInt8.ofNat c.toNat

/-- One more digit. -/
lemma digitBytes_of_lt {n : ℕ} (h : n < 10) : digitBytes n = [UInt8.ofNat n.digitChar.toNat] := by
  rw [digitBytes, Nat.toDigits_of_lt_base h, List.map_singleton]

/-- The digits of a number are those of its tenth part and the last one. -/
lemma digitBytes_of_le {n : ℕ} (h : 10 ≤ n) :
    digitBytes n = digitBytes (n / 10) ++ digitBytes (n % 10) := by
  rw [digitBytes, Nat.toDigits_of_base_le (by norm_num) h, List.map_append,
    digitBytes_of_lt (Nat.mod_lt n (by norm_num))]
  rfl

/-- Digits are digits. -/
lemma isDigit_of_mem_digitBytes {n : ℕ} {b : Byte} (hb : b ∈ digitBytes n) : isDigit b = true := by
  obtain ⟨c, hc, rfl⟩ := List.mem_map.mp hb
  have hdigit := Nat.isDigit_of_mem_toDigits (by norm_num) le_rfl hc
  simp only [Char.isDigit, Bool.and_eq_true, decide_eq_true_eq, ge_iff_le] at hdigit
  have hlow : 48 ≤ c.toNat := hdigit.1
  have hhigh : c.toNat ≤ 57 := hdigit.2
  simp only [isDigit, decide_eq_true_eq, UInt8.toNat_ofNat']
  omega

/-- There is a digit. -/
lemma digitBytes_ne_nil (n : ℕ) : digitBytes n ≠ [] := by
  simp [digitBytes, Nat.toDigits_ne_nil]

/-- A number has at most `k` digits when it is less than the power of ten. -/
lemma length_digitBytes_le {n k : ℕ} (hk : 0 < k) (h : n < 10 ^ k) : (digitBytes n).length ≤ k := by
  rw [digitBytes, List.length_map]
  exact (Nat.length_toDigits_le_iff (by norm_num) hk).mpr h

/-- Reading digits continues the number read so far. -/
lemma atoiDigits_digitBytes (negative : Bool) (n : ℕ) (r : List Byte) :
    atoiDigits negative 0 (digitBytes n ++ r) = atoiDigits negative n r := by
  induction n using Nat.strongRecOn generalizing r with
  | _ n ih =>
    have hlast : ∀ d < 10, ∀ acc, atoiDigits negative acc (digitBytes d ++ r) =
        atoiDigits negative (acc * 10 + d) r := by
      intro d hd acc
      have hvalue := digitChar_toNat hd
      have hdigit : isDigit (UInt8.ofNat d.digitChar.toNat) = true := by
        simp only [isDigit, decide_eq_true_eq, hvalue]
        omega
      rw [digitBytes_of_lt hd, List.singleton_append, atoiDigits, if_pos hdigit, hvalue,
        Nat.add_sub_cancel_left]
    by_cases h : n < 10
    · rw [hlast n h, zero_mul, zero_add]
    · rw [not_lt] at h
      rw [digitBytes_of_le h, List.append_assoc, ih (n / 10) (by omega),
        hlast (n % 10) (by omega), Nat.div_add_mod']

/-! ## Signed numbers -/

/-- The text of a natural number. -/
lemma decimal_natCast (n : ℕ) : decimal n = digitBytes n := by
  change ascii n.repr = _
  rw [ascii, Nat.toList_repr]
  rfl

/-- The text of a negative number. -/
lemma decimal_negSucc (n : ℕ) : decimal (Int.negSucc n) = 45 :: digitBytes (n + 1) := by
  change ascii ("-" ++ (n + 1).repr) = _
  rw [ascii, String.toList_append, List.map_append, Nat.toList_repr]
  rfl

/-- The bytes of a number. -/
lemma mem_decimal {v : ℤ} {b : Byte} (hb : b ∈ decimal v) : isDigit b = true ∨ b = 45 := by
  obtain ⟨n, rfl | hv⟩ : ∃ n : ℕ, v = n ∨ v = Int.negSucc n := by
    cases v with
    | ofNat n => exact ⟨n, .inl rfl⟩
    | negSucc n => exact ⟨n, .inr rfl⟩
  · rw [decimal_natCast] at hb
    exact .inl (isDigit_of_mem_digitBytes hb)
  · rw [hv, decimal_negSucc, List.mem_cons] at hb
    exact hb.symm.imp isDigit_of_mem_digitBytes id

/-- A number is a word between delimiters that are neither digits nor the sign. -/
lemma isWord_decimal {delim : Byte} (hdigit : isDigit delim = false) (hsign : delim ≠ 45) (v : ℤ) :
    IsWord delim (decimal v) := by
  refine ⟨?_, fun h => ?_, fun h => ?_⟩
  · cases v with
    | ofNat n =>
      change decimal (n : ℤ) ≠ []
      rw [decimal_natCast]
      exact digitBytes_ne_nil n
    | negSucc n => simp [decimal_negSucc]
  · rcases mem_decimal h with h | h
    · simp [hdigit] at h
    · exact hsign h
  · rcases mem_decimal h with h | h
    · exact absurd h (by decide)
    · exact absurd h (by decide)

/-- A 32-bit number has at most ten digits and a sign. -/
lemma length_decimal_le {v : ℤ} (hlow : -2 ^ 31 ≤ v) (hhigh : v < 2 ^ 31) :
    (decimal v).length ≤ 11 := by
  cases v with
  | ofNat n =>
    change (decimal (n : ℤ)).length ≤ 11
    rw [decimal_natCast]
    have hn : n < 2 ^ 31 := Int.ofNat_lt.mp hhigh
    exact (length_digitBytes_le (k := 10) (by norm_num) (by omega)).trans (by norm_num)
  | negSucc n =>
    rw [decimal_negSucc, List.length_cons]
    have hn : n + 1 ≤ 2 ^ 31 := by
      rw [Int.negSucc_eq] at hlow
      omega
    have := length_digitBytes_le (n := n + 1) (k := 10) (by norm_num) (by omega)
    omega

/-- **`atoi` reads a 32-bit number back**, whatever follows its terminator. -/
theorem atoi_decimal {v : ℤ} (hlow : -2 ^ 31 ≤ v) (hhigh : v < 2 ^ 31) (r : List Byte) :
    atoi (decimal v ++ 0 :: r) = .ok v := by
  have hend : ∀ (negative : Bool) (n : ℕ), atoiDigits negative n (0 :: r) =
      .ok (saturate (if negative then -n else n)) := fun negative n => by
    rw [atoiDigits, if_neg (by decide)]
  have hsaturate : saturate v = v := by
    unfold saturate
    omega
  cases v with
  | ofNat n =>
    obtain ⟨b, m, hbm⟩ := List.exists_cons_of_ne_nil (digitBytes_ne_nil n)
    have hb : isDigit b = true := isDigit_of_mem_digitBytes (hbm ▸ List.mem_cons_self)
    obtain ⟨hspace, hminus, hplus⟩ := of_isDigit hb
    have hread := atoiDigits_digitBytes false n (0 :: r)
    change atoi (decimal (n : ℤ) ++ 0 :: r) = _
    rw [hbm, List.cons_append] at hread
    rw [decimal_natCast, hbm, List.cons_append, atoi, hspace, if_neg Bool.false_ne_true, atoiSigned,
      if_neg hminus, if_neg hplus, hread, hend]
    exact congrArg Except.ok hsaturate
  | negSucc n =>
    rw [decimal_negSucc, List.cons_append, atoi, if_neg (by decide), atoiSigned, if_pos rfl,
      atoiDigits_digitBytes, hend]
    exact congrArg Except.ok hsaturate

end CString
