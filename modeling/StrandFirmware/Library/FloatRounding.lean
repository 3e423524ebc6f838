import StrandFirmware.Library.Rounding

/-!
# Binary floating-point arithmetic with rounding

`roundTo p` is the rounding of IEEE arithmetic to the nearest number with a significand of `p` bits,
ties to even, and `sqrtTo p` its square root.  Exponents have no bound, so a result is never
infinite, subnormal or lost; zeros have no sign.  `single` and `double` are the two formats of C.

A rounded result has a small relative error (`Within`), errors of products and quotients add up,
rounding keeps the order, and a number that fits into the significand is not changed.
-/

namespace Rounding

/-! ## Rounding to the nearest -/

/-- The nearest integer, of two equally near ones the even one. -/
def nearestEven (q : ℚ) : ℤ :=
  if q - ⌊q⌋ < 1 / 2 then ⌊q⌋
  else if 1 / 2 < q - ⌊q⌋ then ⌊q⌋ + 1
  else if ⌊q⌋ % 2 = 0 then ⌊q⌋ else ⌊q⌋ + 1

/-- The unit in the last place of a significand of `p` bits. -/
def ulp (p : ℕ) (x : ℚ) : ℚ := 2 ^ (Int.log 2 |x| + 1 - p)

/-- The nearest number with a significand of `p` bits. -/
def roundTo (p : ℕ) (x : ℚ) : ℚ := nearestEven (x / ulp p x) * ulp p x

/-- Conversion to `float`. -/
def single : ℚ → ℚ := roundTo 24

/-- Conversion to `double`. -/
def double : ℚ → ℚ := roundTo 53

/-- The nearest integer to the square root of a rational. -/
def nearestSqrt (q : ℚ) : ℕ :=
  let root := Nat.sqrt ⌊q⌋₊
  if q < (root + 1 / 2) ^ 2 then root
  else if (root + 1 / 2) ^ 2 < q then root + 1
  else if root % 2 = 0 then root else root + 1

/-- The square root with a significand of `p` bits. -/
def sqrtTo (p : ℕ) (x : ℚ) : ℚ :=
  let ulp : ℚ := 2 ^ (Int.log 2 x / 2 + 1 - p)
  nearestSqrt (x / ulp ^ 2) * ulp

/-! ## The nearest integer -/

/-- The nearest integer is one of the two neighbours. -/
lemma nearestEven_eq (q : ℚ) : nearestEven q = ⌊q⌋ ∨ nearestEven q = ⌊q⌋ + 1 := by
  unfold nearestEven
  split_ifs <;> simp

/-- It is at most half a unit away. -/
lemma abs_nearestEven_sub_le (q : ℚ) : |(nearestEven q : ℚ) - q| ≤ 1 / 2 := by
  have hfloor := Int.floor_le q
  have hceil := Int.lt_floor_add_one q
  rw [abs_le]
  unfold nearestEven
  split_ifs <;> push_cast <;> constructor <;> linarith

/-- An integer is its own nearest integer. -/
@[simp] lemma nearestEven_intCast (k : ℤ) : nearestEven (k : ℚ) = k := by
  simp [nearestEven]

/-- Rounding to integers keeps the order. -/
lemma nearestEven_mono : Monotone nearestEven := by
  intro x y hxy
  rcases (Int.floor_mono hxy).lt_or_eq with h | h
  · rcases nearestEven_eq x with hx | hx <;> rcases nearestEven_eq y with hy | hy <;> omega
  · unfold nearestEven
    rw [h]
    split_ifs <;> first | omega | (exfalso; linarith)

/-- What is below an integer is rounded to at most this integer. -/
lemma nearestEven_le {q : ℚ} {k : ℤ} (h : q ≤ k) : nearestEven q ≤ k := by
  simpa using nearestEven_mono h

/-- What is above an integer is rounded to at least this integer. -/
lemma le_nearestEven {q : ℚ} {k : ℤ} (h : (k : ℚ) ≤ q) : k ≤ nearestEven q := by
  simpa using nearestEven_mono h

/-- What is nearer to an integer than half a unit is rounded to at most this integer. -/
lemma nearestEven_le_of_lt {q : ℚ} {k : ℤ} (h : q < k + 1 / 2) : nearestEven q ≤ k := by
  have herror := (abs_le.mp (abs_nearestEven_sub_le q)).2
  have hlt : (nearestEven q : ℚ) < k + 1 := by linarith
  exact Int.lt_add_one_iff.mp (by exact_mod_cast hlt)

/-- And from below to at least this integer. -/
lemma le_nearestEven_of_lt {q : ℚ} {k : ℤ} (h : (k : ℚ) - 1 / 2 < q) : k ≤ nearestEven q := by
  have herror := (abs_le.mp (abs_nearestEven_sub_le q)).1
  have hlt : (k : ℚ) < nearestEven q + 1 := by linarith
  exact Int.lt_add_one_iff.mp (by exact_mod_cast hlt)

/-- Rounding does not depend on the sign. -/
lemma nearestEven_neg (q : ℚ) : nearestEven (-q) = -nearestEven q := by
  rcases eq_or_lt_of_le (Int.floor_le q) with h | h
  · rw [← h, ← Int.cast_neg, nearestEven_intCast, nearestEven_intCast]
  · -- the fractions of the two add up to one
    have hfloor : ⌊-q⌋ = -⌊q⌋ - 1 := by
      have hnext := Int.lt_floor_add_one q
      rw [Int.floor_eq_iff]
      push_cast
      constructor <;> linarith
    unfold nearestEven
    rw [hfloor]
    push_cast
    split_ifs <;> first | omega | (exfalso; linarith)

/-! ## The unit in the last place -/

/-- The unit in the last place is positive. -/
lemma ulp_pos (p : ℕ) (x : ℚ) : 0 < ulp p x := zpow_pos two_pos _

/-- A power of two in units in the last place. -/
lemma zpow_log_div_ulp (p : ℕ) (x : ℚ) (k : ℤ) :
    (2 : ℚ) ^ (Int.log 2 |x| + k) = 2 ^ (k - 1 + p) * ulp p x := by
  rw [ulp, ← zpow_add₀ two_ne_zero]
  congr 1
  ring

/-- The significand of a number is less than `2 ^ p`. -/
lemma abs_lt_ulp (p : ℕ) (x : ℚ) : |x| < 2 ^ p * ulp p x := by
  have h := Int.lt_zpow_succ_log_self (b := 2) one_lt_two |x|
  have hscale := zpow_log_div_ulp p x 1
  rw [sub_self, zero_add, zpow_natCast] at hscale
  rwa [← hscale]

/-- And at least `2 ^ (p - 1)`. -/
lemma ulp_le_abs {p : ℕ} (hp : 1 ≤ p) {x : ℚ} (hx : x ≠ 0) : 2 ^ (p - 1) * ulp p x ≤ |x| := by
  have h := Int.zpow_log_le_self (b := 2) one_lt_two (abs_pos.mpr hx)
  have hscale := zpow_log_div_ulp p x 0
  have hexponent : (0 : ℤ) - 1 + p = ((p - 1 : ℕ) : ℤ) := by omega
  rw [add_zero, hexponent, zpow_natCast] at hscale
  rwa [← hscale]

/-- Half a unit in the last place is at most `2 ^ -p` of the number. -/
lemma ulp_half_le {p : ℕ} (hp : 1 ≤ p) {x : ℚ} (hx : x ≠ 0) : ulp p x / 2 ≤ |x| / 2 ^ p := by
  have h := ulp_le_abs hp hx
  have hpow : (2 : ℚ) ^ p = 2 ^ (p - 1) * 2 := by rw [← pow_succ, Nat.sub_add_cancel hp]
  rw [le_div_iff₀ (by positivity), hpow]
  linarith

/-! ## Numbers of the format -/

/-- The number fits into a significand of `p` bits. -/
def Representable (p : ℕ) (x : ℚ) : Prop := ∃ k e : ℤ, |k| < 2 ^ p ∧ x = k * 2 ^ e

/-- More bits represent more numbers. -/
lemma Representable.mono {p q : ℕ} {x : ℚ} (hx : Representable p x) (hpq : p ≤ q) :
    Representable q x := by
  obtain ⟨k, e, hk, rfl⟩ := hx
  exact ⟨k, e, hk.trans_le (pow_le_pow_right₀ one_le_two hpq), rfl⟩

/-- A rounded number is a number of the format. -/
lemma representable_roundTo {p : ℕ} (hp : 1 ≤ p) (x : ℚ) : Representable p (roundTo p x) := by
  have hulp := ulp_pos p x
  have hlt : |x / ulp p x| < 2 ^ p := by
    rw [abs_div, abs_of_pos hulp, div_lt_iff₀ hulp]
    exact abs_lt_ulp p x
  obtain ⟨hlow, hhigh⟩ := abs_lt.mp hlt
  have hle : nearestEven (x / ulp p x) ≤ 2 ^ p :=
    nearestEven_le (by push_cast; exact hhigh.le)
  have hge : -2 ^ p ≤ nearestEven (x / ulp p x) :=
    le_nearestEven (by push_cast; exact hlow.le)
  rcases (abs_le.mpr ⟨hge, hle⟩).lt_or_eq with h | h
  · exact ⟨_, _, h, rfl⟩
  · -- a significand of `2 ^ p` is one bit at the next exponent
    have hpow : (1 : ℤ) < 2 ^ p := one_lt_pow₀ one_lt_two (by omega)
    rcases (abs_eq (by positivity)).mp h with h | h
    · refine ⟨1, Int.log 2 |x| + 1 - p + p, by simpa using hpow, ?_⟩
      rw [roundTo, h, ulp, zpow_add₀ two_ne_zero]
      push_cast
      rw [zpow_natCast]
      ring
    · refine ⟨-1, Int.log 2 |x| + 1 - p + p, by simpa using hpow, ?_⟩
      rw [roundTo, h, ulp, zpow_add₀ two_ne_zero]
      push_cast
      rw [zpow_natCast]
      ring

/-- A number of the format is an integer in units in its last place. -/
lemma Representable.exists_eq_mul_ulp {p : ℕ} {x : ℚ} (hx : Representable p x) :
    ∃ k : ℤ, x = k * ulp p x := by
  obtain ⟨k, e, hk, hxe⟩ := hx
  rcases eq_or_ne x 0 with rfl | hx
  · exact ⟨0, by simp⟩
  have hlog : Int.log 2 |x| + 1 - p ≤ e := by
    have hle := Int.zpow_log_le_self (b := 2) one_lt_two (abs_pos.mpr hx)
    have hlt : |x| < 2 ^ (p + e) := by
      have hunit : (0 : ℚ) < 2 ^ e := zpow_pos two_pos e
      have hk' : |(k : ℚ)| < 2 ^ p := by exact_mod_cast hk
      rw [hxe, abs_mul, abs_of_pos hunit, zpow_add₀ two_ne_zero, zpow_natCast]
      exact mul_lt_mul_of_pos_right hk' hunit
    have := (zpow_lt_zpow_iff_right₀ (one_lt_two (α := ℚ))).mp (hle.trans_lt hlt)
    omega
  obtain ⟨j, hj⟩ := Int.le.dest hlog
  refine ⟨k * 2 ^ j, ?_⟩
  rw [ulp]
  nth_rewrite 1 [hxe]
  rw [← hj, zpow_add₀ two_ne_zero, zpow_natCast]
  push_cast
  ring

/-- A number of the format is not changed. -/
lemma roundTo_of_representable {p : ℕ} {x : ℚ} (hx : Representable p x) : roundTo p x = x := by
  obtain ⟨k, hk⟩ := hx.exists_eq_mul_ulp
  have hint : x / ulp p x = k := (div_eq_iff (ulp_pos p x).ne').mpr hk
  rw [roundTo, hint, nearestEven_intCast, ← hk]

/-- An integer of at most `p` bits is a number of the format. -/
lemma representable_intCast {p : ℕ} (hp : 1 ≤ p) {k : ℤ} (hk : |k| ≤ 2 ^ p) :
    Representable p k := by
  rcases hk.lt_or_eq with hlt | heq
  · exact ⟨k, 0, hlt, by simp⟩
  · have hpow : (1 : ℤ) < 2 ^ p := one_lt_pow₀ one_lt_two (by omega)
    rcases (abs_eq (by positivity)).mp heq with rfl | rfl
    · exact ⟨1, p, by simpa using hpow, by push_cast; rw [zpow_natCast, one_mul]⟩
    · exact ⟨-1, p, by simpa using hpow, by push_cast; rw [zpow_natCast]; ring⟩

/-- The unit in the last place does not depend on the sign. -/
lemma ulp_neg (p : ℕ) (x : ℚ) : ulp p (-x) = ulp p x := by rw [ulp, ulp, abs_neg]

/-- Rounding does not depend on the sign. -/
lemma roundTo_neg (p : ℕ) (x : ℚ) : roundTo p (-x) = -roundTo p x := by
  rw [roundTo, roundTo, ulp_neg, neg_div, nearestEven_neg]
  push_cast
  ring

/-! ## Order -/

/-- A positive number is rounded inside its binade. -/
lemma zpow_log_le_roundTo {p : ℕ} (hp : 1 ≤ p) {x : ℚ} (hx : 0 < x) :
    (2 : ℚ) ^ Int.log 2 x ≤ roundTo p x ∧ roundTo p x ≤ 2 ^ (Int.log 2 x + 1) := by
  have hulp := ulp_pos p x
  have hlow := zpow_log_div_ulp p x 0
  have hhigh := zpow_log_div_ulp p x 1
  have hexponent : (0 : ℤ) - 1 + p = ((p - 1 : ℕ) : ℤ) := by omega
  rw [abs_of_pos hx, add_zero, hexponent, zpow_natCast] at hlow
  rw [abs_of_pos hx, sub_self, zero_add, zpow_natCast] at hhigh
  have hle := ulp_le_abs hp hx.ne'
  have hlt := abs_lt_ulp p x
  rw [abs_of_pos hx] at hle hlt
  constructor
  · rw [hlow, roundTo]
    have hbound : (2 ^ (p - 1) : ℤ) ≤ nearestEven (x / ulp p x) :=
      le_nearestEven (by push_cast; rwa [le_div_iff₀ hulp])
    exact mul_le_mul_of_nonneg_right (by exact_mod_cast hbound) hulp.le
  · rw [hhigh, roundTo]
    have hbound : nearestEven (x / ulp p x) ≤ (2 ^ p : ℤ) :=
      nearestEven_le (by push_cast; rw [div_le_iff₀ hulp]; exact hlt.le)
    exact mul_le_mul_of_nonneg_right (by exact_mod_cast hbound) hulp.le

/-- Rounding keeps the order of positive numbers. -/
lemma roundTo_le_roundTo {p : ℕ} (hp : 1 ≤ p) {x y : ℚ} (hx : 0 < x) (hxy : x ≤ y) :
    roundTo p x ≤ roundTo p y := by
  have hy := hx.trans_le hxy
  rcases (Int.log_mono_right hx hxy : Int.log 2 x ≤ Int.log 2 y).lt_or_eq with h | h
  · calc
      roundTo p x ≤ 2 ^ (Int.log 2 x + 1) := (zpow_log_le_roundTo hp hx).2
      _ ≤ 2 ^ Int.log 2 y := zpow_le_zpow_right₀ one_le_two (by omega)
      _ ≤ roundTo p y := (zpow_log_le_roundTo hp hy).1
  · have hulp : ulp p x = ulp p y := by rw [ulp, ulp, abs_of_pos hx, abs_of_pos hy, h]
    rw [roundTo, roundTo, hulp]
    have hdiv : x / ulp p y ≤ y / ulp p y := div_le_div_of_nonneg_right hxy (ulp_pos p y).le
    exact mul_le_mul_of_nonneg_right (by exact_mod_cast nearestEven_mono hdiv) (ulp_pos p y).le

/-- A positive number below one of the format is rounded to at most that one. -/
lemma roundTo_le {p : ℕ} (hp : 1 ≤ p) {x y : ℚ} (hx : 0 < x) (hxy : x ≤ y)
    (hy : Representable p y) : roundTo p x ≤ y := by
  simpa [roundTo_of_representable hy] using roundTo_le_roundTo hp hx hxy

/-- A number above a positive one of the format is rounded to at least that one. -/
lemma le_roundTo {p : ℕ} (hp : 1 ≤ p) {x y : ℚ} (hx : 0 < x) (hxy : x ≤ y)
    (hx' : Representable p x) : x ≤ roundTo p y := by
  simpa [roundTo_of_representable hx'] using roundTo_le_roundTo hp hx hxy

/-- What is not positive is not rounded to a positive number. -/
lemma roundTo_nonpos {p : ℕ} {x : ℚ} (hx : x ≤ 0) : roundTo p x ≤ 0 := by
  refine mul_nonpos_of_nonpos_of_nonneg ?_ (ulp_pos p x).le
  have hle : nearestEven (x / ulp p x) ≤ 0 :=
    nearestEven_le (by simpa using div_nonpos_of_nonpos_of_nonneg hx (ulp_pos p x).le)
  exact_mod_cast hle

/-- Rounding keeps the order. -/
lemma monotone_roundTo {p : ℕ} (hp : 1 ≤ p) : Monotone (roundTo p) := by
  intro x y hxy
  rcases lt_or_ge 0 x with hx | hx
  · exact roundTo_le_roundTo hp hx hxy
  rcases lt_or_ge y 0 with hy | hy
  · have h := roundTo_le_roundTo hp (neg_pos.mpr hy) (neg_le_neg hxy)
    rwa [roundTo_neg, roundTo_neg, neg_le_neg_iff] at h
  · -- the signs differ
    have h := roundTo_nonpos (p := p) (neg_nonpos.mpr hy)
    rw [roundTo_neg, neg_nonpos] at h
    exact (roundTo_nonpos hx).trans h

/-! ## Neighbours

Two neighbours of the format are `k * 2 ^ e` and `(k + 1) * 2 ^ e` with `k` of `p` bits.  A number
is rounded to one of them by the side of the middle on which it lies. -/

section Neighbours

variable {p : ℕ} {k e : ℤ} {x : ℚ}

/-- The unit of a number in the binade of `2 ^ e`. -/
lemma ulp_eq (hp : 1 ≤ p) (hlow : 2 ^ (p - 1) * 2 ^ e ≤ x) (hhigh : x < 2 ^ p * 2 ^ e) :
    ulp p x = 2 ^ e := by
  have hpos : 0 < x := lt_of_lt_of_le (by positivity) hlow
  have hexponent : ((p - 1 : ℕ) : ℤ) + e + 1 = p + e := by omega
  have hlog : Int.log 2 x = ((p - 1 : ℕ) : ℤ) + e := by
    refine le_antisymm (Int.lt_add_one_iff.mp ?_) ?_
    · rw [← Int.lt_zpow_iff_log_lt one_lt_two hpos, hexponent, zpow_add₀ (by norm_num),
        zpow_natCast]
      exact_mod_cast hhigh
    · rw [← Int.zpow_le_iff_le_log one_lt_two hpos, zpow_add₀ (by norm_num), zpow_natCast]
      exact_mod_cast hlow
  rw [ulp, abs_of_pos hpos, hlog]
  congr 1
  omega

/-- Below the middle the result is at most the lower neighbour. -/
lemma roundTo_le_of_lt_middle (hp : 1 ≤ p) (hlow : 2 ^ (p - 1) ≤ k) (hhigh : k < 2 ^ p)
    (hx : 0 < x) (h : x < (k + 1 / 2) * 2 ^ e) : roundTo p x ≤ k * 2 ^ e := by
  have hunit : (0 : ℚ) < 2 ^ e := zpow_pos two_pos e
  have hlow' : (2 : ℚ) ^ (p - 1) ≤ k := by exact_mod_cast hlow
  have hhigh' : (k : ℚ) + 1 ≤ 2 ^ p := by exact_mod_cast hhigh
  rcases lt_or_ge x (2 ^ (p - 1) * 2 ^ e) with hbelow | hbinade
  · have hpow : |(2 ^ (p - 1) : ℤ)| < 2 ^ p := by
      rw [abs_of_pos (by positivity)]
      exact pow_lt_pow_right₀ one_lt_two (by omega)
    have hfirst : Representable p (2 ^ (p - 1) * 2 ^ e) := ⟨2 ^ (p - 1), e, hpow, by push_cast; rfl⟩
    exact (roundTo_le hp hx hbelow.le hfirst).trans (mul_le_mul_of_nonneg_right hlow' hunit.le)
  · have hulp : ulp p x = 2 ^ e := ulp_eq hp hbinade (h.trans_le
      (mul_le_mul_of_nonneg_right (by linarith) hunit.le))
    rw [roundTo, hulp]
    have hnearest : nearestEven (x / 2 ^ e) ≤ k :=
      nearestEven_le_of_lt (by rwa [div_lt_iff₀ hunit])
    exact mul_le_mul_of_nonneg_right (by exact_mod_cast hnearest) hunit.le

/-- Above the middle it is at least the upper one. -/
lemma le_roundTo_of_middle_lt (hp : 1 ≤ p) (hlow : 2 ^ (p - 1) ≤ k) (hhigh : k < 2 ^ p)
    (h : (k + 1 / 2) * 2 ^ e < x) : (k + 1) * 2 ^ e ≤ roundTo p x := by
  have hunit : (0 : ℚ) < 2 ^ e := zpow_pos two_pos e
  have hlow' : (2 : ℚ) ^ (p - 1) ≤ k := by exact_mod_cast hlow
  have hhigh' : (k : ℚ) + 1 ≤ 2 ^ p := by exact_mod_cast hhigh
  rcases lt_or_ge x (2 ^ p * 2 ^ e) with hbinade | habove
  · have hulp : ulp p x = 2 ^ e := by
      refine ulp_eq hp (le_trans ?_ h.le) hbinade
      exact mul_le_mul_of_nonneg_right (by linarith) hunit.le
    rw [roundTo, hulp]
    have hnearest : k + 1 ≤ nearestEven (x / 2 ^ e) := by
      refine le_nearestEven_of_lt ?_
      rw [lt_div_iff₀ hunit]
      push_cast
      linarith
    exact mul_le_mul_of_nonneg_right (by exact_mod_cast hnearest) hunit.le
  · have hpow : (1 : ℤ) < 2 ^ p := one_lt_pow₀ one_lt_two (by omega)
    have hnext : Representable p (2 ^ p * 2 ^ e) := by
      refine ⟨1, p + e, by simpa using hpow, ?_⟩
      rw [zpow_add₀ two_ne_zero, zpow_natCast]
      push_cast
      ring
    refine le_trans (mul_le_mul_of_nonneg_right hhigh' hunit.le) ?_
    exact le_roundTo hp (by positivity) habove hnext

end Neighbours

/-! ## Relative errors -/

/-- The value `x` is `y` up to the relative error `e`. -/
def Within (e x y : ℚ) : Prop := (1 - e) * y ≤ x ∧ x ≤ (1 + e) * y

section Within

variable {e f x y z w : ℚ}

/-- A larger error. -/
lemma Within.mono (h : Within e x y) (hef : e ≤ f) (hy : 0 ≤ y) : Within f x y := by
  obtain ⟨h₁, h₂⟩ := h
  constructor <;> nlinarith

/-- No error. -/
lemma within_refl (he : 0 ≤ e) (hy : 0 ≤ y) : Within e y y := by
  constructor <;> nlinarith

/-- A value with an error below one is positive with what it stands for. -/
lemma Within.pos (h : Within e x y) (he : e < 1) (hy : 0 < y) : 0 < x :=
  (mul_pos (sub_pos.mpr he) hy).trans_le h.1

/-- One error after another. -/
lemma Within.trans (h : Within e x y) (h' : Within f y z) (he : 0 ≤ e) :
    Within (e + f + e * f) x z := by
  obtain ⟨h₁, h₂⟩ := h
  obtain ⟨h₃, h₄⟩ := h'
  constructor <;> nlinarith

/-- What `x` stands for, in terms of `x`. -/
lemma Within.symm (h : Within e x y) (he : 0 ≤ e) (he' : e < 1) :
    Within (e / (1 - e)) y x := by
  obtain ⟨h₁, h₂⟩ := h
  have hpos : 0 < 1 - e := sub_pos.mpr he'
  constructor
  · rw [one_sub_div hpos.ne', div_mul_eq_mul_div, div_le_iff₀ hpos]
    nlinarith
  · rw [one_add_div hpos.ne', div_mul_eq_mul_div, le_div_iff₀ hpos]
    nlinarith

/-- The error of a product. -/
lemma Within.mul (h : Within e x y) (h' : Within f z w) (he : 0 ≤ e) (he' : e ≤ 1) (hf' : f ≤ 1)
    (hy : 0 ≤ y) (hw : 0 ≤ w) : Within (e + f + e * f) (x * z) (y * w) := by
  obtain ⟨h₁, h₂⟩ := h
  obtain ⟨h₃, h₄⟩ := h'
  have hx : 0 ≤ x := (mul_nonneg (sub_nonneg.mpr he') hy).trans h₁
  have hz : 0 ≤ z := (mul_nonneg (sub_nonneg.mpr hf') hw).trans h₃
  have hyw := mul_nonneg hy hw
  constructor
  · calc
      (1 - (e + f + e * f)) * (y * w) ≤ ((1 - e) * y) * ((1 - f) * w) := by nlinarith
      _ ≤ x * z := mul_le_mul h₁ h₃ (mul_nonneg (sub_nonneg.mpr hf') hw) hx
  · calc
      x * z ≤ ((1 + e) * y) * ((1 + f) * w) := mul_le_mul h₂ h₄ hz (by positivity)
      _ = (1 + (e + f + e * f)) * (y * w) := by ring

/-- The error of an inverse. -/
lemma Within.inv (h : Within e x y) (he : 0 ≤ e) (he' : e < 1) (hy : 0 < y) :
    Within (e / (1 - e)) x⁻¹ y⁻¹ := by
  have hx := h.pos he' hy
  obtain ⟨h₁, h₂⟩ := h.symm he he'
  constructor
  · rw [← div_eq_mul_inv, div_le_iff₀ hy, ← div_eq_inv_mul, le_div_iff₀ hx]
    exact h₁
  · rw [← div_eq_mul_inv, le_div_iff₀ hy, ← div_eq_inv_mul, div_le_iff₀ hx]
    exact h₂

/-- The error of a quotient. -/
lemma Within.div (h : Within e x y) (h' : Within f z w) (he : 0 ≤ e) (hf : 0 ≤ f) (he' : e ≤ 1)
    (hf' : 2 * f ≤ 1) (hy : 0 ≤ y) (hw : 0 < w) :
    Within (e + f / (1 - f) + e * (f / (1 - f))) (x / z) (y / w) := by
  have hpos : 0 < 1 - f := by linarith
  rw [div_eq_mul_inv x, div_eq_mul_inv y]
  exact h.mul (h'.inv hf (by linarith) hw) he he' (by rw [div_le_one hpos]; linarith) hy
    (inv_nonneg.mpr hw.le)

/-- A factor close to one, at a place where it counts for less. -/
lemma Within.scaled {r c : ℚ} (h : Within e r 1) (hc : |c| * e ≤ f) :
    Within f (1 + c * (r - 1)) 1 := by
  obtain ⟨h₁, h₂⟩ := h
  have hr : |r - 1| ≤ e := abs_le.mpr ⟨by linarith, by linarith⟩
  have hproduct : |c * (r - 1)| ≤ f := by
    rw [abs_mul]
    exact (mul_le_mul_of_nonneg_left hr (abs_nonneg c)).trans hc
  obtain ⟨h₃, h₄⟩ := abs_le.mp hproduct
  constructor <;> linarith

/-- The error of rounding. -/
lemma abs_roundTo_sub_le {p : ℕ} (hp : 1 ≤ p) (hx : x ≠ 0) :
    |Rounding.roundTo p x - x| ≤ |x| / 2 ^ p := by
  have hulp := ulp_pos p x
  have hscale : Rounding.roundTo p x - x = (nearestEven (x / ulp p x) - x / ulp p x) * ulp p x := by
    rw [Rounding.roundTo, sub_mul, div_mul_cancel₀ _ hulp.ne']
  rw [hscale, abs_mul, abs_of_pos hulp]
  calc
    _ ≤ 1 / 2 * ulp p x := mul_le_mul_of_nonneg_right (abs_nearestEven_sub_le _) hulp.le
    _ ≤ |x| / 2 ^ p := by linarith [ulp_half_le hp hx]

/-- Rounding a number of either sign, as the factor that it makes. -/
lemma within_roundTo_div {p : ℕ} (hp : 1 ≤ p) (hx : x ≠ 0) :
    Within (1 / 2 ^ p) (Rounding.roundTo p x / x) 1 := by
  have herror : |Rounding.roundTo p x / x - 1| ≤ 1 / 2 ^ p := by
    rw [div_sub_one hx, abs_div, div_le_iff₀ (abs_pos.mpr hx), div_mul_eq_mul_div, one_mul]
    exact abs_roundTo_sub_le hp hx
  obtain ⟨h₁, h₂⟩ := abs_le.mp herror
  constructor <;> linarith

/-- Rounding a value that is off by a factor already. -/
lemma Within.roundTo_div {p : ℕ} (hp : 1 ≤ p) (h : Within e (x / y) 1) (he : e < 1) :
    Within (1 / 2 ^ p + e + 1 / 2 ^ p * e) (Rounding.roundTo p x / y) 1 := by
  have hx : x ≠ 0 := by
    rintro rfl
    have hle := h.1
    rw [zero_div, mul_one] at hle
    linarith
  have hproduct : Rounding.roundTo p x / y = Rounding.roundTo p x / x * (x / y) :=
    (div_mul_div_cancel₀ hx).symm
  obtain ⟨h₁, h₂⟩ := within_roundTo_div hp hx
  obtain ⟨h₃, h₄⟩ := h
  have hu : (0 : ℚ) ≤ 1 / 2 ^ p := by positivity
  have hu' : (1 : ℚ) / 2 ^ p ≤ 1 := by
    rw [div_le_one (by positivity)]
    exact one_le_pow₀ one_le_two
  rw [mul_one] at h₁ h₂ h₃ h₄
  rw [hproduct]
  constructor <;> nlinarith

/-- Rounding a positive number. -/
lemma within_roundTo {p : ℕ} (hp : 1 ≤ p) (hx : 0 < x) :
    Within (1 / 2 ^ p) (Rounding.roundTo p x) x := by
  obtain ⟨h₁, h₂⟩ := within_roundTo_div hp hx.ne'
  rw [mul_one, le_div_iff₀ hx] at h₁
  rw [mul_one, div_le_iff₀ hx] at h₂
  exact ⟨h₁, h₂⟩

/-- Rounding a value that has an error already. -/
lemma Within.roundTo {p : ℕ} (hp : 1 ≤ p) (h : Within e x y) (he : e < 1) (hy : 0 < y) :
    Within (1 / 2 ^ p + e + 1 / 2 ^ p * e) (roundTo p x) y :=
  (within_roundTo hp (h.pos he hy)).trans h (by positivity)

end Within

/-! ## The square root -/

/-- The nearest integer to a square root is one of the two neighbours. -/
lemma nearestSqrt_eq (q : ℚ) :
    nearestSqrt q = Nat.sqrt ⌊q⌋₊ ∨ nearestSqrt q = Nat.sqrt ⌊q⌋₊ + 1 := by
  unfold nearestSqrt
  dsimp only
  split_ifs <;> simp

/-- A square root is not negative. -/
lemma sqrtTo_nonneg (p : ℕ) (x : ℚ) : 0 ≤ sqrtTo p x :=
  mul_nonneg (Nat.cast_nonneg _) (zpow_pos two_pos _).le

/-- Its square is as near as that. -/
lemma abs_nearestSqrt_sq_sub_le {q : ℚ} (hq : 0 ≤ q) :
    |(nearestSqrt q : ℚ) ^ 2 - q| ≤ 2 * Nat.sqrt ⌊q⌋₊ + 1 := by
  have hlow : ((Nat.sqrt ⌊q⌋₊ : ℕ) : ℚ) ^ 2 ≤ q := by
    refine le_trans ?_ (Nat.floor_le hq)
    exact_mod_cast Nat.sqrt_le' ⌊q⌋₊
  have hhigh : q < ((Nat.sqrt ⌊q⌋₊ : ℕ) + 1 : ℚ) ^ 2 := by
    refine (Nat.lt_floor_add_one q).trans_le ?_
    exact_mod_cast Nat.succ_le_of_lt (Nat.lt_succ_sqrt' ⌊q⌋₊)
  rw [abs_le]
  rcases nearestSqrt_eq q with h | h <;> rw [h] <;> push_cast <;> constructor <;> nlinarith

/-- The square of a rounded root, as a relative error. -/
lemma within_sqrtTo {p : ℕ} (hp : 1 ≤ p) {x : ℚ} (hx : 0 < x) :
    Within (3 / 2 ^ (p - 1)) (sqrtTo p x ^ 2) x := by
  set u : ℚ := 2 ^ (Int.log 2 x / 2 + 1 - p) with hu
  have hupos : 0 < u := zpow_pos two_pos _
  -- scaled to an integer the root has at least `p` bits
  have hbits : (2 : ℚ) ^ (2 * (p - 1)) ≤ x / u ^ 2 := by
    rw [le_div_iff₀ (by positivity), hu, ← zpow_natCast, ← zpow_natCast, ← zpow_mul,
      ← zpow_add₀ two_ne_zero]
    refine le_trans (zpow_le_zpow_right₀ one_le_two ?_)
      (Int.zpow_log_le_self (b := 2) one_lt_two hx)
    push_cast
    omega
  set y := x / u ^ 2 with hy
  have hypos : 0 < y := by positivity
  have hroot : 2 ^ (p - 1) ≤ Nat.sqrt ⌊y⌋₊ := by
    rw [Nat.le_sqrt', ← pow_mul, mul_comm]
    exact Nat.le_floor (by push_cast; exact hbits)
  have hroot' : (2 : ℚ) ^ (p - 1) ≤ Nat.sqrt ⌊y⌋₊ := by exact_mod_cast hroot
  have hsquare : ((Nat.sqrt ⌊y⌋₊ : ℕ) : ℚ) ^ 2 ≤ y := by
    refine le_trans ?_ (Nat.floor_le hypos.le)
    exact_mod_cast Nat.sqrt_le' ⌊y⌋₊
  have hnear := abs_nearestSqrt_sq_sub_le hypos.le
  have herror : |(nearestSqrt y : ℚ) ^ 2 - y| ≤ 3 / 2 ^ (p - 1) * y := by
    refine hnear.trans ?_
    rw [div_mul_eq_mul_div, le_div_iff₀ (by positivity)]
    have hone : (1 : ℚ) ≤ 2 ^ (p - 1) := one_le_pow₀ one_le_two
    nlinarith
  have hresult : sqrtTo p x ^ 2 = (nearestSqrt y : ℚ) ^ 2 * u ^ 2 := by
    rw [sqrtTo, ← hu, ← hy, mul_pow]
  have hx' : x = y * u ^ 2 := by rw [hy, div_mul_cancel₀ _ (by positivity)]
  obtain ⟨h₁, h₂⟩ := abs_le.mp herror
  rw [hresult, hx']
  constructor
  · rw [← mul_assoc]
    exact mul_le_mul_of_nonneg_right (by linarith) (by positivity)
  · rw [← mul_assoc]
    exact mul_le_mul_of_nonneg_right (by linarith) (by positivity)

end Rounding
