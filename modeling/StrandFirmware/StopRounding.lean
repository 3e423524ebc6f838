import StrandFirmware.StopRecord

/-!
# The position after a STOP, in single precision

The STOP branch adds a signed distance in millimetres to `currentPosition` and cuts the sum to an
`int`.  The quotient by `factor`, the position and the sum are `float`s, so what is added depends on
the distance of neighbouring `float`s at the position.  `toInt_stopSum_eq_iff` says when the branch
leaves the position as it was: the distance added away from zero stays short of the next
millimetre, or the distance added towards zero is lost in the rounding.

The way is counted in whole steps, 22.6 of them to a millimetre, so no distance meets one of the
bounds, and rounding the quotient moves no distance across one (`SameSide`).
-/

namespace Strand

open Rounding

/-- The steps that the STOP branch adds to the position. -/
def stopSteps (s : Stepping) : ℤ :=
  if s.stepperMove ≤ 0 then s.motor.distanceToGo else -s.motor.distanceToGo

/-- The sum that the STOP branch cuts to an `int`, for a position and some steps. -/
def stopSum (position steps : ℤ) : ℚ :=
  single (single position + Arithmetic.float32.toGo steps)

/-- How far a position moves away from zero before its `float` is the next millimetre or more: a
millimetre less half a unit, or half a unit when a unit is more than a millimetre. -/
def awayMargin (position : ℤ) : ℚ := max (1 - ulp 24 position / 2) (ulp 24 position / 2)

/-- How far it moves towards zero before its `float` changes: half a unit of the numbers below. -/
def backMargin (position : ℤ) : ℚ := ulp 24 (|(position : ℚ)| - 1 / 2) / 2

/-- Adding the steps to the position in `float` gives the position again.  The position is a number
of the format, or the largest `int`, for which the conversions stand in. -/
def Negligible (position steps : ℤ) : Prop :=
  (single position = position ∨ position = 2 ^ 31 - 1) ∧
    if 0 ≤ steps * position then
      position = 2 ^ 31 - 1 ∨ position = -2 ^ 31 ∨ (|steps| : ℚ) / factor < awayMargin position
    else (|steps| : ℚ) / factor < backMargin position

instance (position steps : ℤ) : Decidable (Negligible position steps) :=
  inferInstanceAs (Decidable (_ ∧ _))

/-! ## The distance in millimetres -/

namespace Arithmetic

/-- The distance has the sign of the steps. -/
lemma toGo_neg (steps : ℤ) : float32.toGo (-steps) = -float32.toGo steps := by
  have hneg : ∀ x : ℚ, float32.round (-x) = -float32.round x := roundTo_neg 24
  rw [toGo, toGo, Int.cast_neg, hneg, neg_div, hneg]

/-- The distance is as exact as two numbers and a quotient in single precision are. -/
lemma within_toGo (n : ℕ) : Within (1 / 2 ^ 22) (float32.toGo n) (n / factor) := by
  rcases Nat.eq_zero_or_pos n with rfl | hn
  · have hzero : float32.toGo ((0 : ℕ) : ℤ) = 0 := by decide +kernel
    rw [hzero]
    constructor <;> simp
  · have hn' : (0 : ℚ) < n := by exact_mod_cast hn
    have hfactor : (0 : ℚ) < factor := by norm_num [factor]
    have hsteps : Within (1 / 2 ^ 24) (single (n : ℚ)) n := within_roundTo (by norm_num) hn'
    have hunit : Within (1 / 2 ^ 24) (single factor) factor := within_roundTo (by norm_num) hfactor
    have hquotient := hsteps.div hunit (by norm_num) (by norm_num) (by norm_num) (by norm_num)
      hn'.le hfactor
    have hrounded := hquotient.roundTo (p := 24) (by norm_num) (by norm_num) (by positivity)
    exact hrounded.mono (by norm_num) (by positivity)

end Arithmetic

/-- The distance lies on one side of a bound, exactly and in `float`. -/
def SameSide (n : ℕ) (bound : ℚ) : Prop :=
  (n / factor < bound ∧ Arithmetic.float32.toGo n < bound) ∨
    (bound < n / factor ∧ bound < Arithmetic.float32.toGo n)

section SameSide

variable {n : ℕ}

/-- A bound that is no whole number of steps, and not too fine. -/
lemma sameSide_div {k d : ℕ} (hd : 0 < d) (hk : k ≤ 2 ^ 15) (hne : 5 * n * d ≠ 113 * k) :
    SameSide n (k / d) := by
  obtain ⟨hlow, hhigh⟩ := Arithmetic.within_toGo n
  have hexact : (n : ℚ) / factor = 5 * n / 113 := by
    rw [factor_eq]
    field_simp
  have hd' : (0 : ℚ) < d := by exact_mod_cast hd
  have hk' : (k : ℚ) ≤ 2 ^ 15 := by exact_mod_cast hk
  unfold SameSide
  rw [hexact] at hlow hhigh ⊢
  rcases Nat.lt_or_gt_of_ne hne with hlt | hgt
  · -- the distance is short of the bound by a fifth of a step at least
    have hgap : (5 * n * d : ℚ) + 1 ≤ 113 * k := by exact_mod_cast hlt
    refine .inl ⟨?_, hhigh.trans_lt ?_⟩ <;> rw [lt_div_iff₀ hd'] <;> nlinarith
  · have hgap : (113 * k : ℚ) + 1 ≤ 5 * n * d := by exact_mod_cast hgt
    refine .inr ⟨?_, lt_of_lt_of_le ?_ hlow⟩ <;> rw [div_lt_iff₀ hd'] <;> nlinarith

/-- A bound that is a power of two. -/
lemma sameSide_zpow {j : ℤ} (hj : j ≤ 15) : SameSide n (2 ^ j) := by
  rcases lt_or_ge j 0 with hneg | hpos
  · obtain ⟨i, rfl⟩ : ∃ i : ℕ, j = -((i + 1 : ℕ) : ℤ) := ⟨(-j - 1).toNat, by omega⟩
    have hne : 5 * n * 2 ^ (i + 1) ≠ 113 * 1 := by
      intro h
      have heven : 2 ∣ 5 * n * 2 ^ (i + 1) := (dvd_pow_self 2 (Nat.succ_ne_zero i)).mul_left _
      omega
    have h := sameSide_div (by positivity) (by norm_num) hne
    rw [zpow_neg, zpow_natCast]
    simpa using h
  · obtain ⟨i, rfl⟩ := Int.eq_ofNat_of_zero_le hpos
    have hi : i ≤ 15 := by omega
    have hne : 5 * n * 1 ≠ 113 * 2 ^ i := by
      intro h
      have hdvd : 5 ∣ 113 * 2 ^ i := ⟨n, by omega⟩
      rcases (Nat.Prime.dvd_mul Nat.prime_five).mp hdvd with h | h
      · omega
      · exact absurd (Nat.prime_five.dvd_of_dvd_pow h) (by norm_num)
    have h := sameSide_div one_pos (Nat.pow_le_pow_right two_pos hi) hne
    simpa using h

/-- A bound that is a little less than a millimetre: 22 steps are less, and 23 are more than the
millimetre. -/
lemma near_one_cases (n : ℕ) {b : ℚ} (hlow : 1 - 1 / 2 ^ 15 ≤ b) :
    (n / factor < b ∧ Arithmetic.float32.toGo n < b) ∨
      (1 < n / factor ∧ 1 < Arithmetic.float32.toGo n) := by
  obtain ⟨hlow', hhigh'⟩ := Arithmetic.within_toGo n
  have hexact : (n : ℚ) / factor = 5 * n / 113 := by
    rw [factor_eq]
    field_simp
  rw [hexact] at hlow' hhigh' ⊢
  rcases Nat.lt_or_ge n 23 with hn | hn
  · have hn' : (n : ℚ) ≤ 22 := by exact_mod_cast Nat.le_of_lt_succ hn
    exact .inl ⟨by linarith, by linarith⟩
  · have hn' : (23 : ℚ) ≤ n := by exact_mod_cast hn
    exact .inr ⟨by linarith, by linarith⟩

/-- A bound that is a millimetre less a power of two. -/
lemma sameSide_one_sub {i : ℕ} (hi : 1 ≤ i) : SameSide n (1 - 1 / 2 ^ i) := by
  rcases le_or_gt i 15 with hle | hgt
  · obtain ⟨i, rfl⟩ := Nat.exists_eq_add_of_le' hi
    have hone : 1 ≤ 2 ^ (i + 1) := Nat.one_le_two_pow
    have hne : 5 * n * 2 ^ (i + 1) ≠ 113 * (2 ^ (i + 1) - 1) := by
      intro h
      have heven : 2 ∣ 2 ^ (i + 1) := dvd_pow_self 2 (Nat.succ_ne_zero i)
      have heven' : 2 ∣ 5 * n * 2 ^ (i + 1) := heven.mul_left _
      omega
    have hbound : 2 ^ (i + 1) - 1 ≤ 2 ^ 15 :=
      (Nat.sub_le _ _).trans (Nat.pow_le_pow_right two_pos hle)
    have h := sameSide_div (by positivity) hbound hne
    have hvalue : ((2 ^ (i + 1) - 1 : ℕ) : ℚ) / ((2 ^ (i + 1) : ℕ) : ℚ) = 1 - 1 / 2 ^ (i + 1) := by
      rw [Nat.cast_sub hone]
      push_cast
      rw [sub_div, div_self (by positivity)]
    rwa [hvalue] at h
  · have hpow : (1 : ℚ) / 2 ^ i ≤ 1 / 2 ^ 15 :=
      one_div_le_one_div_of_le (by positivity) (pow_le_pow_right₀ one_le_two hgt.le)
    have hbound : (1 : ℚ) - 1 / 2 ^ i ≤ 1 := by simp
    rcases near_one_cases n (b := 1 - 1 / 2 ^ i) (by linarith) with h | ⟨h, h'⟩
    · exact .inl h
    · exact .inr ⟨hbound.trans_lt h, hbound.trans_lt h'⟩

end SameSide

/-- The distance is not negative. -/
lemma toGo_nonneg (n : ℕ) : 0 ≤ Arithmetic.float32.toGo n := by
  refine le_trans ?_ (Arithmetic.within_toGo n).1
  have hfactor : (0 : ℚ) < factor := by norm_num [factor]
  exact mul_nonneg (by norm_num) (by positivity)

/-! ## A position that is a number of the format -/

section Positive

variable {position : ℤ}

/-- The unit of a position and its significand. -/
lemma exists_significand (hpos : 0 < position) (hle : position ≤ 2 ^ 31)
    (hrep : Representable 24 position) :
    ∃ k e : ℤ, 2 ^ (24 - 1) ≤ k ∧ k < 2 ^ 24 ∧ (position : ℚ) = k * 2 ^ e ∧
      ulp 24 position = 2 ^ e ∧ -23 ≤ e ∧ e ≤ 8 := by
  have hpos' : (0 : ℚ) < position := by exact_mod_cast hpos
  obtain ⟨k, hk⟩ := hrep.exists_eq_mul_ulp
  have hulp := ulp_pos 24 (position : ℚ)
  have hlow := ulp_le_abs (p := 24) (by norm_num) hpos'.ne'
  have hhigh := abs_lt_ulp 24 (position : ℚ)
  rw [abs_of_pos hpos'] at hlow hhigh
  have hlogLow : 0 ≤ Int.log 2 (position : ℚ) := by
    rw [← Int.zpow_le_iff_le_log one_lt_two hpos']
    exact_mod_cast hpos
  have hlogHigh : Int.log 2 (position : ℚ) ≤ 31 := by
    have hle' : (position : ℚ) ≤ ((2 : ℕ) : ℚ) ^ (31 : ℤ) := by exact_mod_cast hle
    exact (Int.log_mono_right hpos' hle').trans_eq (Int.log_zpow one_lt_two 31)
  have hexponent : ulp 24 (position : ℚ) = 2 ^ (Int.log 2 (position : ℚ) - 23) := by
    rw [ulp, abs_of_pos hpos']
    congr 1
    push_cast
    ring
  refine ⟨k, Int.log 2 (position : ℚ) - 23, ?_, ?_, ?_, hexponent, by omega, by omega⟩
  · have h : (2 ^ (24 - 1) : ℚ) ≤ k := le_of_mul_le_mul_right (hlow.trans_eq hk) hulp
    exact_mod_cast h
  · have h : (k : ℚ) < 2 ^ 24 := lt_of_mul_lt_mul_right (hk.symm.trans_lt hhigh) hulp.le
    exact_mod_cast h
  · rw [← hexponent]
    exact hk

/-- The sum stays short of the next millimetre while the distance is short of the middle between two
neighbours around it. -/
lemma single_add_lt_iff_of_middle {k e : ℤ} {n : ℕ} {b : ℚ} (hpos : 0 < position)
    (hlow : 2 ^ (24 - 1) ≤ k) (hhigh : k < 2 ^ 24) (hmiddle : (k + 1 / 2) * 2 ^ e = position + b)
    (hbelow : k * 2 ^ e < (position : ℚ) + 1) (habove : (position : ℚ) + 1 ≤ (k + 1) * 2 ^ e)
    (hside : SameSide n b) :
    single (position + Arithmetic.float32.toGo n) < position + 1 ↔ (n : ℚ) / factor < b := by
  rcases hside with ⟨hexact, hfloat⟩ | ⟨hexact, hfloat⟩
  · have hpos' : (0 : ℚ) < position := by exact_mod_cast hpos
    have hsum : 0 < position + Arithmetic.float32.toGo n := by linarith [toGo_nonneg n]
    have h := roundTo_le_of_lt_middle (p := 24) (by norm_num) hlow hhigh hsum
      (by rw [hmiddle]; linarith)
    exact iff_of_true (h.trans_lt hbelow) hexact
  · have h := le_roundTo_of_middle_lt (p := 24) (by norm_num) hlow hhigh
      (x := position + Arithmetic.float32.toGo n) (by rw [hmiddle]; linarith)
    exact iff_of_false (not_lt.mpr (habove.trans h)) hexact.not_gt

/-- The neighbour below the next millimetre, when a unit is a millimetre or less. -/
lemma significand_below_next {k : ℤ} {i : ℕ} (hi : i ≤ 24)
    (hk : (position : ℚ) = k * 2 ^ (-(i : ℤ))) (hlow : 2 ^ (24 - 1) ≤ k) (hhigh : k < 2 ^ 24) :
    2 ^ (24 - 1) ≤ k + 2 ^ i - 1 ∧ k + 2 ^ i - 1 < 2 ^ 24 ∧
      (((k + 2 ^ i - 1 : ℤ) : ℚ) + 1) * 2 ^ (-(i : ℤ)) = position + 1 := by
  have hscale : (2 : ℚ) ^ (-(i : ℤ)) * 2 ^ i = 1 := by
    rw [zpow_neg, zpow_natCast, inv_mul_cancel₀ (by positivity)]
  have hpower : (0 : ℤ) < 2 ^ i := by positivity
  refine ⟨by omega, ?_, ?_⟩
  · have hsignificand : k = position * 2 ^ i := by
      have h : (position : ℚ) * 2 ^ i = k := by rw [hk, mul_assoc, hscale, mul_one]
      exact_mod_cast h.symm
    obtain ⟨j, hj⟩ := Nat.exists_eq_add_of_le hi
    have hsplit : (2 : ℤ) ^ 24 = 2 ^ j * 2 ^ i := by rw [← pow_add, Nat.add_comm j, ← hj]
    rw [hsignificand, hsplit] at hhigh ⊢
    have hless : position < 2 ^ j := lt_of_mul_lt_mul_right hhigh hpower.le
    nlinarith
  · push_cast
    rw [hk]
    linear_combination hscale

/-- Away from zero the position stays while the distance is within the margin. -/
lemma single_add_lt_iff (hpos : 0 < position) (hle : position ≤ 2 ^ 31)
    (hrep : Representable 24 position) (n : ℕ) :
    single (position + Arithmetic.float32.toGo n) < position + 1 ↔
      (n : ℚ) / factor < awayMargin position := by
  obtain ⟨k, e, hlow, hhigh, hk, hulp, helow, hehigh⟩ := exists_significand hpos hle hrep
  rw [awayMargin, hulp]
  rcases le_or_gt e 0 with he | he
  · -- the next millimetre is a number of the format with the same unit
    obtain ⟨i, rfl⟩ : ∃ i : ℕ, e = -(i : ℤ) := ⟨(-e).toNat, by omega⟩
    obtain ⟨hnextLow, hnext, hone⟩ := significand_below_next (by omega) hk hlow hhigh
    have hunit : (0 : ℚ) < 2 ^ (-(i : ℤ)) := zpow_pos two_pos _
    have hhalf : (2 : ℚ) ^ (-(i : ℤ)) / 2 = 1 / 2 ^ (i + 1) := by
      rw [zpow_neg, zpow_natCast, pow_succ]
      field_simp
    have hsmall : (2 : ℚ) ^ (-(i : ℤ)) ≤ 1 := zpow_le_one_of_nonpos₀ one_le_two he
    rw [max_eq_left (by linarith), hhalf]
    refine single_add_lt_iff_of_middle hpos hnextLow hnext ?_ (by linarith) hone.ge
      (sameSide_one_sub (Nat.le_add_left 1 i))
    rw [← hhalf]
    linarith
  · -- the next number of the format is farther than the next millimetre
    have htwo : (2 : ℚ) ≤ 2 ^ e := by
      simpa using zpow_le_zpow_right₀ one_le_two (show (1 : ℤ) ≤ e by omega)
    have hhalf : (2 : ℚ) ^ e / 2 = 2 ^ (e - 1) := by
      rw [zpow_sub_one₀ two_ne_zero]
      ring
    rw [max_eq_right (by linarith), hhalf]
    have hmiddle : ((k : ℚ) + 1 / 2) * 2 ^ e = position + 2 ^ (e - 1) := by
      rw [← hhalf, hk]
      ring
    exact single_add_lt_iff_of_middle hpos hlow hhigh hmiddle (by linarith) (by linarith)
      (sameSide_zpow (by omega))

/-- The margin towards zero by the exponent of the numbers below a position. -/
lemma backMargin_eq (hpos : 0 < position) :
    backMargin position = 2 ^ (Int.log 2 ((position : ℚ) - 1 / 2) - 24) := by
  have hone : (1 : ℚ) ≤ position := by exact_mod_cast hpos
  have hexponent : Int.log 2 ((position : ℚ) - 1 / 2) + 1 - ((24 : ℕ) : ℤ) - 1 =
      Int.log 2 ((position : ℚ) - 1 / 2) - 24 := by
    push_cast
    ring
  rw [backMargin, abs_of_pos (by linarith), ulp, abs_of_pos (by linarith), ← hexponent,
    zpow_sub_one₀ two_ne_zero]
  ring

/-- A power of two is a whole number, so a position does not pass it by a half. -/
lemma le_zpow_of_sub_half_lt {m : ℤ} (hm : 0 ≤ m) (h : (position : ℚ) - 1 / 2 < 2 ^ m) :
    (position : ℚ) ≤ 2 ^ m := by
  obtain ⟨i, rfl⟩ := Int.eq_ofNat_of_zero_le hm
  rw [zpow_natCast] at h ⊢
  have hlt : ((2 * position - 1 : ℤ) : ℚ) < ((2 * 2 ^ i : ℤ) : ℚ) := by
    push_cast
    linarith
  have hle : position ≤ 2 ^ i := by
    have hlt' : 2 * position - 1 < 2 * 2 ^ i := by exact_mod_cast hlt
    omega
  exact_mod_cast hle

/-- The unit of the numbers below a position, and its significand in these units. -/
lemma exists_lower_significand (hpos : 0 < position) (hle : position ≤ 2 ^ 31)
    (hrep : Representable 24 position) :
    ∃ k e : ℤ, (position : ℚ) = k * 2 ^ e ∧ 2 ^ (24 - 1) < k ∧ k ≤ 2 ^ 24 ∧
      backMargin position = 2 ^ (e - 1) ∧ e ≤ 8 := by
  obtain ⟨k, e, -, -, hk, hulp, -, hehigh⟩ := exists_significand hpos hle hrep
  have hone : (1 : ℚ) ≤ position := by exact_mod_cast hpos
  have hpos' : (0 : ℚ) < position - 1 / 2 := by linarith
  rw [backMargin_eq hpos]
  set m := Int.log 2 ((position : ℚ) - 1 / 2) with hm
  have hbinade := Int.zpow_log_le_self (b := 2) one_lt_two hpos'
  have hnext := Int.lt_zpow_succ_log_self (b := 2) one_lt_two ((position : ℚ) - 1 / 2)
  rw [← hm] at hbinade hnext
  have hlower : -1 ≤ m := by
    rw [hm, ← Int.zpow_le_iff_le_log one_lt_two hpos']
    norm_num
    linarith
  have hupper : m ≤ e + 23 := by
    have hlog : Int.log 2 (position : ℚ) + 1 - 24 = e := by
      have h := hulp
      rw [ulp, abs_of_pos (by linarith)] at h
      exact zpow_right_injective₀ two_pos (by norm_num) h
    have hmono := Int.log_mono_right (b := 2) hpos'
      (show (position : ℚ) - 1 / 2 ≤ position by linarith)
    omega
  -- the significand in the unit below is that of the position, shifted
  obtain ⟨j, hj⟩ := Int.le.dest hupper
  have hposition : (position : ℚ) = ((k * 2 ^ j : ℤ) : ℚ) * 2 ^ (m - 23) := by
    have hscale : (2 : ℚ) ^ e = 2 ^ j * 2 ^ (m - 23) := by
      rw [← zpow_natCast, ← zpow_add₀ two_ne_zero]
      congr 1
      omega
    rw [hk, hscale]
    push_cast
    ring
  have hunit : (0 : ℚ) < 2 ^ (m - 23) := zpow_pos two_pos _
  have hpower : ∀ p : ℕ, (2 ^ p : ℚ) * 2 ^ (m - 23) = 2 ^ (m - 23 + p) := by
    intro p
    rw [← zpow_natCast, ← zpow_add₀ two_ne_zero, add_comm]
  refine ⟨k * 2 ^ j, m - 23, hposition, ?_, ?_, by ring_nf, by omega⟩
  · have h : (2 ^ 23 : ℚ) * 2 ^ (m - 23) < ((k * 2 ^ j : ℤ) : ℚ) * 2 ^ (m - 23) := by
      rw [← hposition, hpower, Nat.cast_ofNat, sub_add_cancel]
      exact lt_of_le_of_lt (by exact_mod_cast hbinade) (by linarith)
    exact_mod_cast lt_of_mul_lt_mul_right h hunit.le
  · have h : ((k * 2 ^ j : ℤ) : ℚ) * 2 ^ (m - 23) ≤ (2 ^ 24 : ℚ) * 2 ^ (m - 23) := by
      have hexponent : m - 23 + ((24 : ℕ) : ℤ) = m + 1 := by push_cast; ring
      rw [← hposition, hpower, hexponent]
      exact le_zpow_of_sub_half_lt (by omega) hnext
    exact_mod_cast le_of_mul_le_mul_right h hunit

/-- Towards zero it stays while the distance is within the margin, and else it falls by a unit. -/
lemma single_sub_cases (hpos : 0 < position) (hle : position ≤ 2 ^ 31)
    (hrep : Representable 24 position) (n : ℕ) :
    ((n : ℚ) / factor < backMargin position ∧
      position ≤ single (position - Arithmetic.float32.toGo n)) ∨
    (¬ (n : ℚ) / factor < backMargin position ∧
      single (position - Arithmetic.float32.toGo n) ≤ position - 2 * backMargin position) := by
  obtain ⟨k, e, hk, hbelow, habove, hmargin, he⟩ := exists_lower_significand hpos hle hrep
  have hunit : (0 : ℚ) < 2 ^ e := zpow_pos two_pos e
  have hlow : (2 : ℤ) ^ (24 - 1) ≤ k - 1 := by omega
  have hhigh : k - 1 < 2 ^ 24 := by omega
  have hhalf : (2 : ℚ) ^ (e - 1) = 2 ^ e / 2 := by
    rw [zpow_sub_one₀ two_ne_zero]
    ring
  rw [hmargin]
  rcases sameSide_zpow (n := n) (show e - 1 ≤ 15 by omega) with
    ⟨hexact, hfloat⟩ | ⟨hexact, hfloat⟩
  · refine .inl ⟨hexact, ?_⟩
    have h := le_roundTo_of_middle_lt (p := 24) (e := e) (by norm_num) hlow hhigh
      (x := position - Arithmetic.float32.toGo n) (by push_cast; linarith)
    refine le_trans (le_of_eq ?_) h
    push_cast
    linarith
  · refine .inr ⟨hexact.not_gt, ?_⟩
    have hbound : ((k - 1 : ℤ) : ℚ) * 2 ^ e = position - 2 * 2 ^ (e - 1) := by
      push_cast
      linarith
    rw [← hbound]
    rcases le_or_gt (position - Arithmetic.float32.toGo n) 0 with hneg | hsum
    · refine (roundTo_nonpos hneg).trans (mul_nonneg ?_ hunit.le)
      exact_mod_cast (le_trans (by positivity) hlow : (0 : ℤ) ≤ k - 1)
    · exact roundTo_le_of_lt_middle (p := 24) (by norm_num) hlow hhigh hsum
        (by push_cast; linarith)

/-- The truncated sum away from zero. -/
lemma truncate_add (hpos : 0 < position) (hle : position ≤ 2 ^ 31)
    (hrep : Representable 24 position) (n : ℕ) :
    position ≤ truncate (single (position + Arithmetic.float32.toGo n)) ∧
      (truncate (single (position + Arithmetic.float32.toGo n)) ≤ position ↔
        (n : ℚ) / factor < awayMargin position) := by
  constructor
  · rw [le_truncate_iff hpos]
    exact le_roundTo (by norm_num) (by exact_mod_cast hpos) (by linarith [toGo_nonneg n]) hrep
  · rw [truncate_le_iff hpos.le]
    exact single_add_lt_iff hpos hle hrep n

/-- The truncated sum towards zero. -/
lemma truncate_sub (hpos : 0 < position) (hle : position ≤ 2 ^ 31)
    (hrep : Representable 24 position) (n : ℕ) :
    truncate (single (position - Arithmetic.float32.toGo n)) ≤ position ∧
      (position ≤ truncate (single (position - Arithmetic.float32.toGo n)) ↔
        (n : ℚ) / factor < backMargin position) := by
  have hmargin : 0 < backMargin position := half_pos (ulp_pos 24 _)
  rw [truncate_le_iff hpos.le, le_truncate_iff hpos]
  constructor
  · refine lt_of_le_of_lt ?_ (lt_add_one (position : ℚ))
    rcases le_or_gt (position - Arithmetic.float32.toGo n) 0 with hneg | hsum
    · exact (roundTo_nonpos hneg).trans (by exact_mod_cast hpos.le)
    · exact roundTo_le (by norm_num) hsum (by linarith [toGo_nonneg n]) hrep
  · rcases single_sub_cases hpos hle hrep n with ⟨hexact, hstays⟩ | ⟨hexact, hfalls⟩
    · exact iff_of_true hstays hexact
    · exact iff_of_false (not_le.mpr (by linarith)) hexact

end Positive

/-! ## When a STOP leaves the position alone -/

/-- The sum does not depend on the sign. -/
lemma stopSum_neg (position steps : ℤ) :
    stopSum (-position) (-steps) = -stopSum position steps := by
  unfold stopSum
  rw [Arithmetic.toGo_neg, Int.cast_neg, single, roundTo_neg, ← neg_add, roundTo_neg]

/-- A conversion that gives an `int`. -/
lemma toInt_eq_iff {q : ℚ} {v : ℤ} (hv : IsInt32 v) : Arithmetic.float32.toInt q = v ↔
    truncate q = v ∨ (v = 2 ^ 31 - 1 ∧ v ≤ truncate q) ∨ (v = -2 ^ 31 ∧ truncate q ≤ v) := by
  obtain ⟨hlow, hhigh⟩ := hv
  change max (-2 ^ 31) (min (truncate q) (2 ^ 31 - 1)) = v ↔ _
  omega

/-- A sum that is no `float` position is not the position. -/
lemma truncate_stopSum_ne {position : ℤ} (steps : ℤ) (hrep : single position ≠ position) :
    truncate (stopSum position steps) ≠ position := by
  intro h
  have hno : ¬ Representable 24 position := fun hr => hrep (roundTo_of_representable hr)
  have hfar : 2 ^ 24 < |position| := by
    by_contra hnear
    exact hno (representable_intCast (by norm_num) (not_lt.mp hnear))
  obtain ⟨k, e, hk, hsum⟩ := representable_roundTo (p := 24) (by norm_num)
    (single position + Arithmetic.float32.toGo steps)
  change stopSum position steps = k * 2 ^ e at hsum
  rcases lt_or_ge e 0 with he | he
  · -- a sum with a fraction is too small
    have hpow : (2 : ℚ) ^ e ≤ 1 := zpow_le_one_of_nonpos₀ one_le_two he.le
    have hpow' : (0 : ℚ) < 2 ^ e := zpow_pos two_pos e
    have hk' : |(k : ℚ)| < 2 ^ 24 := by exact_mod_cast hk
    have hsmall : |stopSum position steps| < 2 ^ 24 := by
      rw [hsum, abs_mul, abs_of_pos hpow']
      exact (mul_le_of_le_one_right (abs_nonneg _) hpow).trans_lt hk'
    have habs := (abs_truncate_le (stopSum position steps)).trans_lt hsmall
    rw [h] at habs
    exact absurd (hfar.trans (by exact_mod_cast habs)) (lt_irrefl _)
  · obtain ⟨i, rfl⟩ := Int.eq_ofNat_of_zero_le he
    have hint : stopSum position steps = ((k * 2 ^ i : ℤ) : ℚ) := by
      rw [hsum]
      push_cast
      rfl
    rw [hint, truncate_intCast] at h
    exact hno ⟨k, i, hk, by rw [← h]; push_cast; rfl⟩

/-- The conversion of the largest `int`. -/
lemma single_max : single ((2 ^ 31 - 1 : ℤ) : ℚ) = ((2 ^ 31 : ℤ) : ℚ) := by decide +kernel

/-- What is its own `float` is a number of the format. -/
lemma representable_of_single {position : ℤ} (h : single position = position) :
    Representable 24 position := by
  rw [← h]
  exact representable_roundTo (by norm_num) _

section Magnitude

variable {m : ℤ}

/-- The truncated sum away from zero, from zero on. -/
lemma truncate_stopSum_away (hm : 0 ≤ m) (hle : m ≤ 2 ^ 31) (hrep : single m = m) (n : ℕ) :
    m ≤ truncate (stopSum m n) ∧
      (truncate (stopSum m n) ≤ m ↔ (n : ℚ) / factor < awayMargin m) := by
  rcases hm.eq_or_lt with rfl | hpos
  · have hsum : stopSum 0 n = Arithmetic.float32.toGo n := by
      rw [stopSum, hrep, Int.cast_zero, zero_add]
      exact roundTo_of_representable (representable_roundTo (by norm_num) _)
    have hmargin : awayMargin 0 = 1 - 1 / 2 ^ 24 := by decide +kernel
    rw [hsum, hmargin, truncate_le_iff le_rfl, Int.cast_zero, zero_add]
    constructor
    · rw [truncate, if_pos (toGo_nonneg n)]
      exact Int.floor_nonneg.mpr (toGo_nonneg n)
    · rcases near_one_cases n (b := 1 - 1 / 2 ^ 24) (by norm_num) with ⟨h, h'⟩ | ⟨h, h'⟩
      · exact iff_of_true (by linarith) h
      · exact iff_of_false (by linarith) (by linarith)
  · have h := truncate_add hpos hle (representable_of_single hrep) n
    rwa [← hrep] at h

/-- The truncated sum towards zero. -/
lemma truncate_stopSum_back (hm : 0 < m) (hle : m ≤ 2 ^ 31) (hrep : single m = m) (n : ℕ) :
    truncate (stopSum m (-n)) ≤ m ∧
      (m ≤ truncate (stopSum m (-n)) ↔ (n : ℚ) / factor < backMargin m) := by
  have hsum : stopSum m (-n) = single (m - Arithmetic.float32.toGo n) := by
    rw [stopSum, Arithmetic.toGo_neg, hrep, sub_eq_add_neg]
  rw [hsum]
  exact truncate_sub hm hle (representable_of_single hrep) n

end Magnitude

/-- The margins do not depend on the sign. -/
lemma awayMargin_neg (position : ℤ) : awayMargin (-position) = awayMargin position := by
  simp [awayMargin, ulp_neg]

lemma backMargin_neg (position : ℤ) : backMargin (-position) = backMargin position := by
  simp [backMargin]

/-- A position and steps of one sign. -/
lemma exists_of_mul_nonneg {position steps : ℤ} (h : 0 ≤ steps * position) :
    ∃ (m : ℤ) (n : ℕ), 0 ≤ m ∧
      (position = m ∧ steps = n ∨ position = -m ∧ steps = -n) := by
  refine ⟨|position|, steps.natAbs, abs_nonneg _, ?_⟩
  rcases lt_trichotomy position 0 with hp | rfl | hp
  · have hs : steps ≤ 0 := nonpos_of_mul_nonneg_left h hp
    rw [abs_of_neg hp]
    omega
  · rcases steps.natAbs_eq with hs | hs
    · exact .inl ⟨by simp, hs⟩
    · exact .inr ⟨by simp, hs⟩
  · have hs : 0 ≤ steps := nonneg_of_mul_nonneg_left h hp
    rw [abs_of_pos hp]
    omega

/-- A position and steps of different signs. -/
lemma exists_of_mul_neg {position steps : ℤ} (h : ¬ 0 ≤ steps * position) :
    ∃ (m : ℤ) (n : ℕ), 0 < m ∧
      (position = m ∧ steps = -n ∨ position = -m ∧ steps = n) := by
  refine ⟨|position|, steps.natAbs, abs_pos.mpr (by rintro rfl; simp at h), ?_⟩
  rcases mul_neg_iff.mp (not_le.mp h) with ⟨hs, hp⟩ | ⟨hs, hp⟩
  · rw [abs_of_neg hp]
    omega
  · rw [abs_of_pos hp]
    omega

/-- The opposite of a position that is its own `float`. -/
lemma single_of_neg {m : ℤ} (h : single ((-m : ℤ) : ℚ) = ((-m : ℤ) : ℚ)) : single m = m := by
  rw [Int.cast_neg, single, roundTo_neg] at h
  exact neg_injective h

/-- A position that is its own `float`, moved away from zero. -/
lemma toInt_stopSum_away {position : ℤ} (hposition : IsInt32 position)
    (hrep : single position = position) {steps : ℤ} (hsign : 0 ≤ steps * position) :
    Arithmetic.float32.toInt (stopSum position steps) = position ↔
      position = 2 ^ 31 - 1 ∨ position = -2 ^ 31 ∨
        (|steps| : ℚ) / factor < awayMargin position := by
  obtain ⟨hlow, hhigh⟩ := hposition
  rw [toInt_eq_iff ⟨hlow, hhigh⟩]
  obtain ⟨m, n, hm, ⟨rfl, rfl⟩ | ⟨rfl, rfl⟩⟩ := exists_of_mul_nonneg hsign
  · obtain ⟨hge, hiff⟩ := truncate_stopSum_away hm (by omega) hrep n
    have habs : |((n : ℤ) : ℚ)| = n := by simp
    rw [habs, ← hiff]
    generalize truncate (stopSum position n) = t at *
    omega
  · obtain ⟨hge, hiff⟩ := truncate_stopSum_away hm (by omega) (single_of_neg hrep) n
    have habs : |((-n : ℤ) : ℚ)| = n := by simp
    rw [habs, awayMargin_neg, ← hiff, stopSum_neg, truncate_neg]
    generalize truncate (stopSum m n) = t at *
    omega

/-- A position that is its own `float`, moved towards zero. -/
lemma toInt_stopSum_back {position : ℤ} (hposition : IsInt32 position)
    (hrep : single position = position) {steps : ℤ} (hsign : ¬ 0 ≤ steps * position) :
    Arithmetic.float32.toInt (stopSum position steps) = position ↔
      (|steps| : ℚ) / factor < backMargin position := by
  obtain ⟨hlow, hhigh⟩ := hposition
  rw [toInt_eq_iff ⟨hlow, hhigh⟩]
  obtain ⟨m, n, hm, ⟨rfl, rfl⟩ | ⟨rfl, rfl⟩⟩ := exists_of_mul_neg hsign
  · obtain ⟨hle, hiff⟩ := truncate_stopSum_back hm (by omega) hrep n
    have habs : |((-n : ℤ) : ℚ)| = n := by simp
    rw [habs, ← hiff]
    generalize truncate (stopSum position (-n)) = t at *
    omega
  · obtain ⟨hle, hiff⟩ := truncate_stopSum_back hm (by omega) (single_of_neg hrep) n
    have habs : |((n : ℤ) : ℚ)| = n := by simp
    have hneg : stopSum (-m) n = -stopSum m (-n) := by rw [← stopSum_neg, neg_neg]
    rw [habs, backMargin_neg, ← hiff, hneg, truncate_neg]
    generalize truncate (stopSum m (-n)) = t at *
    omega

/-- The largest `int`, which is added to as 2^31 is. -/
lemma toInt_stopSum_max (steps : ℤ) :
    Arithmetic.float32.toInt (stopSum (2 ^ 31 - 1) steps) = 2 ^ 31 - 1 ↔
      Negligible (2 ^ 31 - 1) steps := by
  have hnext : single ((2 ^ 31 : ℤ) : ℚ) = ((2 ^ 31 : ℤ) : ℚ) := by decide +kernel
  have hsum : stopSum (2 ^ 31 - 1) steps = stopSum (2 ^ 31) steps := by
    rw [stopSum, stopSum, single_max, hnext]
  rw [toInt_eq_iff (by decide), hsum, Negligible, and_iff_right (Or.inr rfl)]
  by_cases hsign : 0 ≤ steps
  · obtain ⟨n, rfl⟩ := Int.eq_ofNat_of_zero_le hsign
    obtain ⟨hge, -⟩ := truncate_stopSum_away (by norm_num) le_rfl hnext n
    rw [if_pos (mul_nonneg hsign (by norm_num))]
    exact iff_of_true (.inr (.inl ⟨rfl, by omega⟩)) (.inl rfl)
  · obtain ⟨n, rfl⟩ : ∃ n : ℕ, steps = -(n : ℤ) := ⟨(-steps).toNat, by omega⟩
    have hback : ¬ 0 ≤ -(n : ℤ) * (2 ^ 31 - 1) := by
      norm_num at hsign ⊢
      exact Nat.pos_of_ne_zero hsign
    have habs : |((-n : ℤ) : ℚ)| = n := by simp
    have hmargin : backMargin (2 ^ 31 - 1) = backMargin (2 ^ 31) := by decide +kernel
    have hunit : backMargin (2 ^ 31) = 64 := by decide +kernel
    rw [if_neg hback, habs, hmargin]
    have hform : stopSum (2 ^ 31) (-n) =
        single (((2 ^ 31 : ℤ) : ℚ) - Arithmetic.float32.toGo n) := by
      rw [stopSum, Arithmetic.toGo_neg, hnext, sub_eq_add_neg]
    rw [hform]
    rcases single_sub_cases (by norm_num) le_rfl (representable_of_single hnext) n with
      ⟨hexact, hstays⟩ | ⟨hexact, hfalls⟩
    · have hge := (le_truncate_iff (by norm_num)).mpr hstays
      exact iff_of_true (.inr (.inl ⟨rfl, by omega⟩)) hexact
    · -- a unit below 2^31 is less than the largest `int`
      rw [hunit] at hfalls
      have hle := (truncate_le_iff (n := 2 ^ 31 - 128) (by norm_num)).mpr
        (lt_of_le_of_lt hfalls (by norm_num))
      refine iff_of_false ?_ hexact
      omega

/-- **When a STOP leaves the position as it was.** -/
theorem toInt_stopSum_eq_iff {position : ℤ} (hposition : IsInt32 position) (steps : ℤ) :
    Arithmetic.float32.toInt (stopSum position steps) = position ↔ Negligible position steps := by
  by_cases hrep : single position = position
  · rw [Negligible, and_iff_right (Or.inl hrep)]
    split
    next hsign => exact toInt_stopSum_away hposition hrep hsign
    next hsign => exact toInt_stopSum_back hposition hrep hsign
  by_cases hmax : position = 2 ^ 31 - 1
  · rw [hmax]
    exact toInt_stopSum_max steps
  · have hmin : position ≠ -2 ^ 31 := by
      rintro rfl
      exact hrep (by decide +kernel)
    rw [toInt_eq_iff hposition]
    refine iff_of_false ?_ fun h => h.1.elim hrep hmax
    rintro (h | ⟨h, -⟩ | ⟨h, -⟩)
    · exact truncate_stopSum_ne steps hrep h
    · exact hmax h
    · exact hmin h

/-- From -33554432 on 23 steps more are lost, although they are more than a millimetre. -/
example : Negligible (-33554432) (-23) := by decide +kernel

/-- At -524289 22 steps are not, although they are less. -/
example : ¬ Negligible (-524289) (-22) := by decide +kernel

/-- The position that the STOP branch records. -/
lemma Arithmetic.serveStop_currentPosition (s : Stepping) (p : Poll) :
    (float32.serveStop s p).currentPosition =
      float32.toInt (stopSum s.currentPosition (stopSteps s)) := by
  unfold serveStop stopSteps stopSum
  dsimp only
  split
  next => rfl
  next =>
    rw [toGo_neg, ← sub_eq_add_neg]
    rfl

/-- What is converted to `int` is an `int`. -/
lemma Arithmetic.isInt32_toInt (q : ℚ) : IsInt32 (float32.toInt q) := by
  unfold float32 IsInt32
  dsimp only
  omega

end Strand
