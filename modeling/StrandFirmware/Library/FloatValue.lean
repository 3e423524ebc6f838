import StrandFirmware.Library.Rounding

/-!
# Floating-point values without rounding

`FloatValue` has the special values of floating-point arithmetic, but its finite values are exact
rationals: what is read over it depends on division by zero, on the infinities and on NaN, and not
on the precision of a format.  Zeros have no sign; a zero divisor counts as the positive one.

The conversion to `int` is defined by C only for a finite value whose truncation fits.  `toInt`
takes what the platform does elsewhere as a parameter.
-/

namespace Rounding

/-- A value of floating-point arithmetic. -/
inductive FloatValue where
  | finite (q : ℚ)
  /-- One of the infinities. -/
  | infinite (negative : Bool)
  | nan
deriving DecidableEq

namespace FloatValue

/-- The conversion of an integer. -/
def ofInt (n : ℤ) : FloatValue := finite n

/-- The quotient of two values. -/
def div : FloatValue → FloatValue → FloatValue
  | finite p, finite q =>
    if q ≠ 0 then finite (p / q) else if p = 0 then nan else infinite (decide (p < 0))
  | finite _, infinite _ => finite 0
  | infinite n, finite q => infinite (n != decide (q < 0))
  | _, _ => nan

/-- The product of two values. -/
def mul : FloatValue → FloatValue → FloatValue
  | finite p, finite q => finite (p * q)
  | finite p, infinite n | infinite n, finite p =>
    if p = 0 then nan else infinite (n != decide (p < 0))
  | infinite m, infinite n => infinite (m != n)
  | _, _ => nan

/-- The absolute value. -/
def abs : FloatValue → FloatValue
  | finite p => finite |p|
  | infinite _ => infinite false
  | nan => nan

/-- The comparison `x < y`, which is false for NaN. -/
def Less : FloatValue → FloatValue → Prop
  | finite p, finite q => p < q
  | finite _, infinite n => n = false
  | infinite n, finite _ => n = true
  | infinite m, infinite n => m = true ∧ n = false
  | _, _ => False

/-- The comparison `x <= y`, which is false for NaN. -/
def LessEq : FloatValue → FloatValue → Prop
  | finite p, finite q => p ≤ q
  | finite _, infinite n => n = false
  | infinite n, finite _ => n = true
  | infinite m, infinite n => m = true ∨ n = false
  | _, _ => False

instance : (x y : FloatValue) → Decidable (x.Less y)
  | finite p, finite q => inferInstanceAs (Decidable (p < q))
  | finite _, infinite n => inferInstanceAs (Decidable (n = false))
  | infinite n, finite _ => inferInstanceAs (Decidable (n = true))
  | infinite m, infinite n => inferInstanceAs (Decidable (m = true ∧ n = false))
  | nan, finite _ | nan, infinite _ | nan, nan | finite _, nan | infinite _, nan => .isFalse id

instance : (x y : FloatValue) → Decidable (x.LessEq y)
  | finite p, finite q => inferInstanceAs (Decidable (p ≤ q))
  | finite _, infinite n => inferInstanceAs (Decidable (n = false))
  | infinite n, finite _ => inferInstanceAs (Decidable (n = true))
  | infinite m, infinite n => inferInstanceAs (Decidable (m = true ∨ n = false))
  | nan, finite _ | nan, infinite _ | nan, nan | finite _, nan | infinite _, nan => .isFalse id

/-- The truncation of the value is a 32-bit `int`. -/
def FitsInt : FloatValue → Prop
  | finite q => -2 ^ 31 ≤ truncate q ∧ truncate q < 2 ^ 31
  | _ => False

instance : (x : FloatValue) → Decidable x.FitsInt
  | finite _ => inferInstanceAs (Decidable (_ ∧ _))
  | infinite _ | nan => .isFalse id

/-- The conversion to `int`: the truncation where that fits, and elsewhere what the platform makes
of the value. -/
def toInt (platform : FloatValue → ℤ) (x : FloatValue) : ℤ :=
  match x with
  | finite q => if (finite q).FitsInt then truncate q else platform (finite q)
  | _ => platform x

/-- A product with a quotient of integers whose divisor is not zero is a rational. -/
lemma mul_abs_div_ofInt (s a : ℤ) {b : ℤ} (hb : b ≠ 0) :
    (ofInt s).mul ((ofInt a).div (ofInt b)).abs = finite (s * |(a : ℚ) / b|) := by
  have hb' : (b : ℚ) ≠ 0 := Int.cast_ne_zero.mpr hb
  simp [ofInt, div, mul, abs, hb']

/-- Where the platform decides, its value is the result. -/
lemma toInt_of_not_fitsInt (platform : FloatValue → ℤ) {x : FloatValue} (h : ¬ x.FitsInt) :
    x.toInt platform = platform x := by
  cases x with
  | finite q => simp [toInt, h]
  | infinite n => rfl
  | nan => rfl

/-- Where the truncation fits, it is the result. -/
lemma toInt_finite (platform : FloatValue → ℤ) {q : ℚ} (h : (finite q).FitsInt) :
    (finite q).toInt platform = truncate q := by
  simp [toInt, h]

end FloatValue

/-- The truncation of a rational that is not negative is its floor. -/
lemma truncate_of_nonneg {q : ℚ} (h : 0 ≤ q) : truncate q = ⌊q⌋ := if_pos h

end Rounding
