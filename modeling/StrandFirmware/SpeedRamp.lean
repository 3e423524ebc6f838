import StrandFirmware.Library.RampRatios
import StrandFirmware.SpeedProfile

/-!
# The stopping distance along the ramp

The motor library decides when to brake by comparing the steps to go with the distance it needs to
stop, which it computes from the speed, in `float` and `double`.  Here the value it computes is
followed along the ramp, with every rounding counted.

After `k + 1` steps from rest the truncated distance is exactly `k` (`ramp_bounds`), and with each
braking step it falls by exactly one (`braking_bounds`), both up to the length `rampLimit`.  Beyond
some length neither is true of the rounded values, though both are of exact ones at any length.
-/

namespace Strand

open Rounding Ramp

/-- The ramps on which the truncated stopping distance is the exact one, whatever is rounded. -/
abbrev rampLimit : ℕ := 1005

/-- The stopping distance without rounding, from the interval between two steps. -/
def exactStopping (acceleration cn : ℚ) : ℚ := 10 ^ 12 / (2 * acceleration * cn ^ 2)

variable {a cn cn' : ℚ}

/-! ## Relative errors -/

/-- The error of an operation in `double`. -/
lemma within_double {x : ℚ} (hx : 0 < x) : Within (1 / 2 ^ 53) (double x) x :=
  within_roundTo (by norm_num) hx

/-- The error of the speed. -/
lemma within_speedOf (hcn : 0 < cn) : Within (59605 / 10 ^ 12) (speedOf cn) (1000000 / cn) := by
  have hexact : 0 < 1000000 / cn := by positivity
  refine Within.mono ((within_double hexact).roundTo ?_ ?_ hexact) ?_ hexact.le <;> norm_num

/-- The speed is positive. -/
lemma speedOf_pos (hcn : 0 < cn) : 0 < speedOf cn :=
  (within_speedOf hcn).pos (by norm_num) (by positivity)

/-- The direction does not matter for the stopping distance. -/
@[simp] lemma stoppingDistance_neg (speed acceleration : ℚ) :
    stoppingDistance (-speed) acceleration = stoppingDistance speed acceleration := by
  rw [stoppingDistance, neg_mul_neg, ← stoppingDistance]

/-- The exact stopping distance is positive. -/
lemma exactStopping_pos (ha : 0 < a) (hcn : 0 < cn) : 0 < exactStopping a cn := by
  unfold exactStopping
  positivity

/-- The error of the stopping distance. -/
lemma within_stoppingDistance (ha : 0 < a) (hcn : 0 < cn) :
    Within (17882 / 10 ^ 11) (stoppingDistance (speedOf cn) a) (exactStopping a cn) := by
  have hspeed := within_speedOf hcn
  have hexact : 0 < 1000000 / cn := by positivity
  have hsquare := hspeed.mul hspeed (by norm_num) (by norm_num) (by norm_num) hexact.le hexact.le
  have hsingle := hsquare.roundTo (p := 24) (by norm_num) (by norm_num) (by positivity)
  have hquotient := hsingle.div (within_double (x := 2 * a) (by positivity)) (by norm_num)
    (by norm_num) (by norm_num) (by norm_num) (by positivity) (by positivity)
  have hdouble := hquotient.roundTo (p := 53) (by norm_num) (by norm_num) (by positivity)
  have hvalue : exactStopping a cn = 1000000 / cn * (1000000 / cn) / (2 * a) := by
    rw [exactStopping]
    field_simp
    norm_num
  rw [hvalue]
  exact hdouble.mono (by norm_num) (by positivity)

/-- The error of an interval leads to twice the error of the stopping distance. -/
lemma within_exactStopping (ha : 0 < a) (hcn' : 0 < cn')
    (h : Within (59605 / 10 ^ 12) cn cn') :
    Within (119211 / 10 ^ 12) (exactStopping a cn) (exactStopping a cn') := by
  have hsquare := h.mul h (by norm_num) (by norm_num) (by norm_num) hcn'.le hcn'.le
  have hinverse := hsquare.inv (by norm_num) (by norm_num) (by positivity)
  have hscaled := (within_refl (e := 0) (y := 10 ^ 12 / (2 * a)) le_rfl (by positivity)).mul
    hinverse le_rfl zero_le_one (by norm_num) (by positivity) (by positivity)
  have hvalue : ∀ x : ℚ, exactStopping a x = 10 ^ 12 / (2 * a) * (x * x)⁻¹ := by
    intro x
    rw [exactStopping, ← div_eq_mul_inv, div_div, sq]
  rw [hvalue, hvalue]
  exact hscaled.mono (by norm_num) (by positivity)

/-- The divisor in the recurrence of the interval is not zero. -/
lemma three_le_abs (n : ℤ) (hn : n ≠ 0) : 3 ≤ |4 * (n : ℚ) + 1| ∧ 3 ≤ |4 * (n : ℚ) - 1| := by
  have h₁ : (3 : ℤ) ≤ |4 * n + 1| := by
    rcases lt_or_gt_of_ne hn with h | h
    · rw [abs_of_neg (by omega)]
      omega
    · rw [abs_of_pos (by omega)]
      omega
  have h₂ : (3 : ℤ) ≤ |4 * n - 1| := by
    rcases lt_or_gt_of_ne hn with h | h
    · rw [abs_of_neg (by omega)]
      omega
    · rw [abs_of_pos (by omega)]
      omega
  exact ⟨by exact_mod_cast h₁, by exact_mod_cast h₂⟩

/-- The error of the next interval. -/
lemma within_nextInterval (hcn : 0 < cn) {n : ℤ} (hn : n ≠ 0) :
    Within (59605 / 10 ^ 12) (nextInterval cn n) (cn * ((4 * n - 1) / (4 * n + 1))) := by
  obtain ⟨hplus, hminus⟩ := three_le_abs n hn
  set q : ℚ := 4 * n + 1 with hq
  have hq0 : q ≠ 0 := by
    intro h
    rw [h, abs_zero] at hplus
    norm_num at hplus
  have hm0 : (4 * n - 1 : ℚ) ≠ 0 := by
    intro h
    rw [h, abs_zero] at hminus
    norm_num at hminus
  have h4n : (4 * n : ℚ) ≠ 0 := by
    have : (n : ℚ) ≠ 0 := Int.cast_ne_zero.mpr hn
    positivity
  -- the divisor
  have hfour := within_roundTo_div (p := 53) (by norm_num) h4n
  have hsum : Within (2 / 2 ^ 53) ((double (4 * n) + 1) / q) 1 := by
    have hshare : |4 * n / q| * (1 / 2 ^ 53) ≤ 2 / 2 ^ 53 := by
      have hle : |4 * n / q| ≤ 2 := by
        rw [abs_div, div_le_iff₀ (by linarith)]
        have h := abs_sub_abs_le_abs_sub (4 * n : ℚ) (-1)
        rw [sub_neg_eq_add, abs_neg, abs_one, ← hq] at h
        linarith
      linarith [mul_le_mul_of_nonneg_right hle (show (0 : ℚ) ≤ 1 / 2 ^ 53 by norm_num)]
    have hform : (double (4 * n) + 1) / q = 1 + 4 * n / q * (roundTo 53 (4 * n) / (4 * n) - 1) := by
      rw [double]
      field_simp
      rw [hq]
      ring
    rw [hform]
    exact hfour.scaled hshare
  have hdivisor := hsum.roundTo_div (p := 53) (by norm_num) (by norm_num)
  -- the quotient
  have htwice := within_roundTo_div (p := 53) (x := 2 * cn) (by norm_num) (by positivity)
  have hquotient := htwice.div hdivisor (by norm_num) (by norm_num) (by norm_num) (by norm_num)
    zero_le_one one_pos
  rw [div_self one_ne_zero, div_div_div_comm] at hquotient
  have hstep := hquotient.roundTo_div (p := 53) (by norm_num) (by norm_num)
  -- what is left of the interval
  have hrest : Within (8 / 2 ^ 53)
      ((cn - double (double (2 * cn) / double (double (4 * n) + 1))) /
        (cn * ((4 * n - 1) / q))) 1 := by
    have hshare : |-2 / (4 * (n : ℚ) - 1)| ≤ 1 := by
      rw [abs_div, abs_neg, abs_two, div_le_one (by linarith)]
      linarith
    have hform : ∀ z, (cn - z) / (cn * ((4 * n - 1) / q)) =
        1 + -2 / (4 * n - 1) * (z / (2 * cn / q) - 1) := by
      intro z
      field_simp
      rw [hq]
      ring
    rw [hform]
    refine hstep.scaled ((mul_le_of_le_one_left ?_ hshare).trans ?_) <;> norm_num
  have hsingle := (hrest.roundTo_div (p := 53) (by norm_num) (by norm_num)).roundTo_div
    (p := 24) (by norm_num) (by norm_num)
  -- the exact interval is positive
  have hfactor : 0 < (4 * n - 1 : ℚ) / q := by
    rcases lt_or_gt_of_ne hn with h | h
    · have hle : (n : ℚ) ≤ -1 := by exact_mod_cast Int.le_sub_one_of_lt h
      exact div_pos_of_neg_of_neg (by linarith) (by rw [hq]; linarith)
    · have hge : (1 : ℚ) ≤ n := by exact_mod_cast h
      exact div_pos (by linarith) (by rw [hq]; linarith)
  have hexact : 0 < cn * ((4 * n - 1) / q) := mul_pos hcn hfactor
  obtain ⟨h₁, h₂⟩ := hsingle.mono (f := 59605 / 10 ^ 12) (by norm_num) zero_le_one
  rw [mul_one, le_div_iff₀ hexact] at h₁
  rw [mul_one, div_le_iff₀ hexact] at h₂
  exact ⟨h₁, h₂⟩

/-- The next interval is positive. -/
lemma nextInterval_pos (hcn : 0 < cn) {n : ℤ} (hn : n ≠ 0) : 0 < nextInterval cn n := by
  refine (within_nextInterval hcn hn).pos (by norm_num) (mul_pos hcn ?_)
  rcases lt_or_gt_of_ne hn with h | h
  · have hle : (n : ℚ) ≤ -1 := by exact_mod_cast Int.le_sub_one_of_lt h
    exact div_pos_of_neg_of_neg (by linarith) (by linarith)
  · have hge : (1 : ℚ) ≤ n := by exact_mod_cast h
    exact div_pos (by linarith) (by linarith)

/-- The error of the exact stopping distance after one step. -/
lemma within_exactStopping_next (ha : 0 < a) (hcn : 0 < cn) {n : ℤ} (hn : n ≠ 0) :
    Within (119211 / 10 ^ 12) (exactStopping a (nextInterval cn n))
      (exactStopping a cn * ((4 * n + 1) / (4 * n - 1)) ^ 2) := by
  have hfactor : 0 < (4 * n - 1 : ℚ) / (4 * n + 1) := by
    have hpos := nextInterval_pos hcn hn
    have hwithin := (within_nextInterval hcn hn).2
    have hproduct : 0 < cn * ((4 * n - 1 : ℚ) / (4 * n + 1)) := by
      by_contra hle
      rw [not_lt] at hle
      nlinarith
    exact (mul_pos_iff_of_pos_left hcn).mp hproduct
  have h := within_exactStopping ha (mul_pos hcn hfactor) (within_nextInterval hcn hn)
  have hvalue : exactStopping a (cn * ((4 * n - 1) / (4 * n + 1))) =
      exactStopping a cn * ((4 * n + 1) / (4 * n - 1)) ^ 2 := by
    have hinverse : ((4 * n + 1 : ℚ) / (4 * n - 1)) = ((4 * n - 1 : ℚ) / (4 * n + 1))⁻¹ :=
      (inv_div _ _).symm
    rw [hinverse, exactStopping, exactStopping, mul_pow, inv_pow, ← div_eq_mul_inv, div_div]
    ring
  rwa [hvalue] at h

/-- A longer interval is a shorter stopping distance. -/
lemma exactStopping_le_exactStopping (ha : 0 < a) (hcn : 0 < cn) (h : cn ≤ cn') :
    exactStopping a cn' ≤ exactStopping a cn := by
  unfold exactStopping
  apply div_le_div_of_nonneg_left (by norm_num) (by positivity)
  have hsquare : cn ^ 2 ≤ cn' ^ 2 := pow_le_pow_left₀ hcn.le h 2
  nlinarith

/-- Accelerating never lengthens an interval, however it is rounded. -/
lemma nextInterval_le (hcn : 0 < cn) (hformat : Representable 24 cn) {n : ℤ} (hn : 1 ≤ n) :
    nextInterval cn n ≤ cn := by
  have hpos := nextInterval_pos hcn (show n ≠ 0 by omega)
  have hn' : (1 : ℚ) ≤ n := by exact_mod_cast hn
  have hfour := (within_double (x := 4 * n) (by linarith)).pos (by norm_num) (by linarith)
  have htwice := (within_double (x := 2 * cn) (by linarith)).pos (by norm_num) (by linarith)
  have hsum := (within_double (x := double (4 * n) + 1) (by linarith)).pos (by norm_num)
    (by linarith)
  have hquotient := (within_double (div_pos htwice hsum)).pos (by norm_num) (div_pos htwice hsum)
  set rest := cn - double (double (2 * cn) / double (double (4 * n) + 1)) with hrest
  -- a rest that is not positive would be rounded to a number that is not positive
  have hrest0 : 0 < rest := by
    by_contra hle
    rw [not_lt] at hle
    have h : nextInterval cn n ≤ 0 := roundTo_nonpos (roundTo_nonpos hle)
    linarith
  have hdouble : 0 < double rest := (within_double hrest0).pos (by norm_num) hrest0
  have hle : double rest ≤ cn :=
    roundTo_le (by norm_num) hrest0 (by linarith) (hformat.mono (by norm_num))
  exact roundTo_le (by norm_num) hdouble hle hformat

/-! ## Speeding up -/

/-- The interval `cn` is the one after `k + 1` steps from rest, up to rounding. -/
def OnRamp (a cn : ℚ) (k : ℕ) : Prop :=
  Within ((k + 1) * (11923 / 10 ^ 11)) (exactStopping a cn) (squaredRatio k / (4 * 0.676 ^ 2))

/-- The factor in the first interval, squared. -/
lemma within_firstFactor (ha : 0 < a) :
    Within (10 / 2 ^ 53) ((double 0.676 * sqrtTo 53 (double (2 / a))) ^ 2)
      (0.676 ^ 2 * (2 / a)) := by
  have hquotient : 0 < 2 / a := by positivity
  have hroot := (within_sqrtTo (p := 53) (by norm_num)
    ((within_double hquotient).pos (by norm_num) hquotient)).trans (within_double hquotient)
    (by norm_num)
  have hconstant := within_double (x := 0.676) (by norm_num)
  have hsquare := hconstant.mul hconstant (by norm_num) (by norm_num) (by norm_num) (by norm_num)
    (by norm_num)
  have hproduct := hsquare.mul hroot (by norm_num) (by norm_num) (by norm_num) (by norm_num)
    hquotient.le
  rw [← sq (double 0.676), ← sq (0.676 : ℚ), ← mul_pow] at hproduct
  exact hproduct.mono (by norm_num) (by positivity)

/-- The first interval with the rounding of the conversions only. -/
lemma within_firstInterval (ha : 0 < a) :
    0 < double 0.676 * sqrtTo 53 (double (2 / a)) ∧
      Within (59605 / 10 ^ 12) (firstInterval a)
        (double 0.676 * sqrtTo 53 (double (2 / a)) * 1000000) := by
  have hpos : 0 < double 0.676 * sqrtTo 53 (double (2 / a)) := by
    refine lt_of_le_of_ne ?_ ?_
    · exact mul_nonneg ((within_double (by norm_num)).pos (by norm_num) (by norm_num)).le
        (sqrtTo_nonneg _ _)
    · intro hzero
      have h := (within_firstFactor ha).pos (by norm_num) (by positivity)
      rw [← hzero] at h
      norm_num at h
  refine ⟨hpos, ?_⟩
  have hmillion := (within_double hpos).mul (within_refl (e := 0) (y := 1000000) le_rfl
    (by norm_num)) (by norm_num) (by norm_num) zero_le_one hpos.le (by norm_num)
  have hdouble := hmillion.roundTo (p := 53) (by norm_num) (by norm_num) (by positivity)
  have hsingle := hdouble.roundTo (p := 24) (by norm_num) (by norm_num) (by positivity)
  exact hsingle.mono (by norm_num) (by positivity)

/-- The first interval is positive. -/
lemma firstInterval_pos (ha : 0 < a) : 0 < firstInterval a := by
  obtain ⟨hpos, h⟩ := within_firstInterval ha
  exact h.pos (by norm_num) (by positivity)

/-- The first step is on the ramp. -/
lemma onRamp_firstInterval (ha : 0 < a) : OnRamp a (firstInterval a) 0 := by
  obtain ⟨hpos, h⟩ := within_firstInterval ha
  have hrounded := within_exactStopping ha (by positivity) h
  have hinverse := ((within_firstFactor ha).inv (by norm_num) (by norm_num) (by positivity))
  have hscaled := (within_refl (e := 0) (y := 1 / (2 * a)) le_rfl (by positivity)).mul hinverse
    le_rfl zero_le_one (by norm_num) (by positivity) (by positivity)
  have hvalue : ∀ y : ℚ, exactStopping a (y * 1000000) = 1 / (2 * a) * (y ^ 2)⁻¹ := by
    intro y
    rw [exactStopping, ← div_eq_mul_inv, div_div, mul_pow]
    have hpow : (1000000 : ℚ) ^ 2 = 10 ^ 12 := by norm_num
    rw [hpow, ← mul_assoc, mul_comm _ ((10 : ℚ) ^ 12), div_mul_cancel_left₀ (by norm_num),
      one_div]
  have hlimit : 1 / (2 * a) * (0.676 ^ 2 * (2 / a))⁻¹ = squaredRatio 0 / (4 * 0.676 ^ 2) := by
    rw [squaredRatio]
    field_simp
    norm_num
  rw [hvalue] at hrounded
  rw [hlimit] at hscaled
  refine (hrounded.trans hscaled (by norm_num)).mono (by norm_num) ?_
  exact (div_pos (squaredRatio_pos 0) (by norm_num)).le

/-- The next one stays on it. -/
lemma OnRamp.next {k : ℕ} (h : OnRamp a cn k) (hk : k ≤ rampLimit) (ha : 0 < a) (hcn : 0 < cn) :
    OnRamp a (nextInterval cn (k + 1)) (k + 1) := by
  have hstep := within_exactStopping_next ha hcn (n := k + 1) (by omega)
  have hpos : (0 : ℚ) < squaredRatio k / (4 * 0.676 ^ 2) :=
    div_pos (squaredRatio_pos k) (by norm_num)
  have hk' : (k : ℚ) ≤ 1005 := by exact_mod_cast hk
  have hsmall : ((k : ℚ) + 1) * (11923 / 10 ^ 11) ≤ 12 / 10 ^ 5 := by linarith
  have hscaled := h.mul (within_refl (e := 0) (y := ((4 * k + 5) / (4 * k + 3) : ℚ) ^ 2) le_rfl
    (by positivity)) (by positivity) (by linarith) zero_le_one hpos.le (by positivity)
  have hvalue : squaredRatio k / (4 * 0.676 ^ 2) * ((4 * k + 5) / (4 * k + 3)) ^ 2 =
      squaredRatio (k + 1) / (4 * 0.676 ^ 2) := by
    rw [squaredRatio]
    ring
  have hfactor : ((4 * (((k : ℤ) + 1 : ℤ) : ℚ) + 1) / (4 * (((k : ℤ) + 1 : ℤ) : ℚ) - 1)) ^ 2 =
      ((4 * k + 5) / (4 * k + 3)) ^ 2 := by
    push_cast
    ring
  rw [hfactor] at hstep
  rw [hvalue] at hscaled
  refine (hstep.trans hscaled (by norm_num)).mono ?_ ?_
  · push_cast
    linarith
  · exact (div_pos (squaredRatio_pos (k + 1)) (by norm_num)).le

/-- **The stopping distance on the ramp**, truncated, is the number of steps after the first. -/
theorem ramp_bounds {k : ℕ} (h : OnRamp a cn k) (hk : k ≤ rampLimit + 1) (ha : 0 < a)
    (hcn : 0 < cn) :
    k ≤ stoppingDistance (speedOf cn) a ∧
      (1 + 17882 / 10 ^ 11) * exactStopping a cn < k + 1 := by
  obtain ⟨h₁, h₂⟩ := h
  have hstop := (within_stoppingDistance ha hcn).1
  have hlow := le_squaredRatio k
  have hhigh := squaredRatio_le k
  have hk0 : (0 : ℚ) ≤ k := Nat.cast_nonneg k
  have hk' : (k : ℚ) ≤ 1006 := by exact_mod_cast hk
  have hsmall : ((k : ℚ) + 1) * (11923 / 10 ^ 11) ≤ 1201 / 10 ^ 7 := by linarith
  set r := squaredRatio k / (4 * 0.676 ^ 2) with hr
  have hlow' : 9997 / 10 ^ 4 * (k : ℚ) + 1 / 2 ≤ r := by
    rw [hr, le_div_iff₀ (by norm_num)]
    linarith
  have hhigh' : r ≤ k + 5471 / 10 ^ 4 := by
    rw [hr, div_le_iff₀ (by norm_num)]
    linarith
  have hr0 : 0 ≤ r := by linarith
  constructor
  · have hexact : (1 - 1201 / 10 ^ 7) * r ≤ exactStopping a cn := by nlinarith
    linarith
  · have hexact : exactStopping a cn ≤ (1 + 1201 / 10 ^ 7) * r := by nlinarith
    linarith

/-! ## Braking -/

/-- **A braking step** takes one off the truncated stopping distance. -/
theorem braking_bounds {m : ℕ} (hm : 1 ≤ m) (hlimit : m ≤ rampLimit) (ha : 0 < a) (hcn : 0 < cn)
    (hlow : m ≤ stoppingDistance (speedOf cn) a) (hhigh : stoppingDistance (speedOf cn) a < m + 1) :
    m - 1 ≤ stoppingDistance (speedOf (nextInterval cn (-m))) a ∧
      stoppingDistance (speedOf (nextInterval cn (-m))) a < m ∧
      1 / 3 ≤ stoppingDistance (speedOf (nextInterval cn (-m))) a := by
  have hn : -(m : ℤ) ≠ 0 := by omega
  have hnext := nextInterval_pos hcn hn
  have hstep := within_exactStopping_next ha hcn hn
  have hbefore := (within_stoppingDistance ha hcn).symm (by norm_num) (by norm_num)
  have hafter := within_stoppingDistance ha hnext
  have hratio : ((4 * ((-m : ℤ) : ℚ) + 1) / (4 * ((-m : ℤ) : ℚ) - 1)) ^ 2 = brakingRatio m := by
    rw [brakingRatio, ← neg_div_neg_eq]
    push_cast
    ring
  rw [hratio] at hstep
  have hratio0 : 0 < brakingRatio m := brakingRatio_pos hm
  have hstop0 : 0 ≤ stoppingDistance (speedOf cn) a := le_trans (Nat.cast_nonneg m) hlow
  have hscaled := hbefore.mul (within_refl (e := 0) le_rfl hratio0.le) (by norm_num) (by norm_num)
    zero_le_one hstop0 hratio0.le
  have htotal := (hafter.trans (hstep.trans hscaled (by norm_num)) (by norm_num)).mono
    (f := 4769 / 10 ^ 10) (by norm_num) (mul_nonneg hstop0 hratio0.le)
  obtain ⟨h₁, h₂⟩ := htotal
  have hm' : (1 : ℚ) ≤ m := by exact_mod_cast hm
  have hlimit' : (m : ℚ) ≤ 1005 := by exact_mod_cast hlimit
  -- at both ends of the range, and so between them
  have hsquare : (m : ℚ) ^ 2 ≤ 1006 * m - 1005 := by nlinarith
  have hcube : (m : ℚ) ^ 3 ≤ 1006 * m ^ 2 - 1005 * m := by nlinarith
  have hgain : 4769 / 10 ^ 10 * (m : ℚ) ≤ (8 * m - 1) / (4 * m + 1) ^ 2 := by
    rw [le_div_iff₀ (by positivity)]
    linarith
  have hloss : (8 * (m : ℚ) - 1) / (4 * m + 1) ^ 2 ≤ (8 * m + 1) / (4 * m + 1) ^ 2 :=
    div_le_div_of_nonneg_right (by linarith) (by positivity)
  have hdown := mul_brakingRatio m
  have hup := succ_mul_brakingRatio m
  have hle : (m : ℚ) * brakingRatio m ≤ m := by nlinarith
  have hafter' : (1 - 4769 / 10 ^ 10) * (m * brakingRatio m) ≤
      stoppingDistance (speedOf (nextInterval cn (-m))) a :=
    (mul_le_mul_of_nonneg_left (mul_le_mul_of_nonneg_right hlow hratio0.le) (by norm_num)).trans h₁
  refine ⟨?_, ?_, ?_⟩
  · calc
      (m : ℚ) - 1 ≤ (1 - 4769 / 10 ^ 10) * (m * brakingRatio m) := by nlinarith
      _ ≤ _ := hafter'
  · calc
      _ ≤ (1 + 4769 / 10 ^ 10) * (stoppingDistance (speedOf cn) a * brakingRatio m) := h₂
      _ < (1 + 4769 / 10 ^ 10) * ((m + 1) * brakingRatio m) :=
        mul_lt_mul_of_pos_left (mul_lt_mul_of_pos_right hhigh hratio0) (by norm_num)
      _ ≤ m := by nlinarith
  · refine le_trans ?_ hafter'
    have hthird : 9 / 25 ≤ (m : ℚ) * brakingRatio m := by
      rcases hm.eq_or_lt with rfl | hm2
      · norm_num [brakingRatio]
      · have hm2' : (2 : ℚ) ≤ m := by exact_mod_cast hm2
        have hpos : 0 ≤ (8 * (m : ℚ) + 1) / (4 * m + 1) ^ 2 := by positivity
        linarith
    linarith

end Strand
