import Mathlib

/-!
# Conversion of a rational to an integer by truncation

`truncate` is the float-to-integer conversion of C read over exact rationals: it drops the
fraction, toward zero.  On a quotient of two integers it is `Int.tdiv`, and `Int.tmod` is what it
drops; this is the form in which accumulated rounding is counted.
-/

namespace Rounding

/-- The integer part of a rational, rounded toward zero. -/
def truncate (q : ℚ) : ℤ := if 0 ≤ q then ⌊q⌋ else ⌈q⌉

/-- Truncating a quotient of integers is truncated integer division. -/
lemma truncate_div (a : ℤ) (d : ℕ) : truncate ((a : ℚ) / d) = a.tdiv d := by
  unfold truncate
  rcases Nat.eq_zero_or_pos d with rfl | hd
  · simp
  have hd' : (0 : ℚ) < d := by exact_mod_cast hd
  by_cases ha : 0 ≤ a
  · have hq : (0 : ℚ) ≤ (a : ℚ) / d := div_nonneg (by exact_mod_cast ha) hd'.le
    rw [if_pos hq, Rat.floor_intCast_div_natCast, Int.tdiv_eq_ediv_of_nonneg ha]
  · have hq : ¬ (0 : ℚ) ≤ (a : ℚ) / d := by
      rw [not_le]
      exact div_neg_of_neg_of_pos (by exact_mod_cast not_le.mp ha) hd'
    rw [if_neg hq, Rat.ceil_intCast_div_natCast, ← Int.tdiv_eq_ediv_of_nonneg (by omega),
      Int.neg_tdiv, neg_neg]

/-- An integer is not changed. -/
@[simp] lemma truncate_intCast (n : ℤ) : truncate n = n := by simp [truncate]

/-- Truncation is towards zero. -/
lemma abs_truncate_le (q : ℚ) : |(truncate q : ℚ)| ≤ |q| := by
  unfold truncate
  split
  next h =>
    have hfloor : (0 : ℚ) ≤ ⌊q⌋ := by exact_mod_cast Int.floor_nonneg.mpr h
    rw [abs_of_nonneg hfloor, abs_of_nonneg h]
    exact Int.floor_le q
  next h =>
    have hceil : (⌈q⌉ : ℚ) ≤ 0 := by exact_mod_cast Int.ceil_le.mpr (by push_cast; linarith)
    rw [abs_of_nonpos hceil, abs_of_nonpos (not_le.mp h).le]
    exact neg_le_neg (Int.le_ceil q)

/-- Truncation does not depend on the sign. -/
lemma truncate_neg (q : ℚ) : truncate (-q) = -truncate q := by
  unfold truncate
  rcases lt_trichotomy q 0 with h | rfl | h
  · rw [if_pos (by linarith), if_neg (by linarith), Int.floor_neg]
  · simp
  · rw [if_neg (by linarith), if_pos h.le, Int.ceil_neg]

/-- Truncation keeps the order. -/
lemma monotone_truncate : Monotone truncate := by
  intro x y hxy
  unfold truncate
  split_ifs with hx hy hy
  · exact Int.floor_mono hxy
  · exact absurd (hx.trans hxy) hy
  · have hceil : ⌈x⌉ ≤ 0 := Int.ceil_le.mpr (by push_cast; linarith)
    exact hceil.trans (Int.floor_nonneg.mpr hy)
  · exact Int.ceil_mono hxy

/-- A positive integer is below a truncated number when it is below the number. -/
lemma le_truncate_iff {q : ℚ} {n : ℤ} (hn : 0 < n) : n ≤ truncate q ↔ (n : ℚ) ≤ q := by
  unfold truncate
  split
  next => exact Int.le_floor
  next h =>
    have hceil : ⌈q⌉ ≤ 0 := Int.ceil_le.mpr (by push_cast; linarith)
    have hn' : (0 : ℚ) < n := by exact_mod_cast hn
    exact iff_of_false (by omega) (by linarith)

/-- A truncated number is at most an integer when the number is short of the next one. -/
lemma truncate_le_iff {q : ℚ} {n : ℤ} (hn : 0 ≤ n) : truncate q ≤ n ↔ q < n + 1 := by
  unfold truncate
  split
  next => rw [← Int.lt_add_one_iff, Int.floor_lt]; push_cast; rfl
  next h =>
    have hceil : ⌈q⌉ ≤ 0 := Int.ceil_le.mpr (by push_cast; linarith)
    have hn' : (0 : ℚ) ≤ n := by exact_mod_cast hn
    exact iff_of_true (by omega) (by linarith)

/-- What truncated division drops is smaller than the divisor. -/
lemma abs_tmod_lt (a : ℤ) {d : ℤ} (hd : 0 < d) : |a.tmod d| < d := by
  rw [abs_lt]
  exact ⟨Int.lt_tmod_of_pos a hd, Int.tmod_lt_of_pos a hd⟩

end Rounding
