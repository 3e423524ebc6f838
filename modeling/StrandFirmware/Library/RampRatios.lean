import Mathlib

/-!
# The ratios of a linear speed ramp

A stepper that shortens the interval before its step `k + 2` by the factor `(4 k + 3) / (4 k + 5)`
makes steps whose squared speed grows almost linearly.  `squaredRatio k` is the squared speed after
`k + 1` steps in units of the one after the first step.  Its increments grow towards a limit, and
times a factor that tends to one they fall (`increment_le_increment`, `slackened_le_slackened`), so
one value bounds all of them from either side, and the ratio from both (`le_squaredRatio`,
`squaredRatio_le`).

Braking by the inverse factors loses almost one unit with each step (`brakingRatio`).
-/

namespace Ramp

/-! ## Accelerating -/

/-- The squared speed after `k + 1` steps, relative to the first step. -/
def squaredRatio : ℕ → ℚ
  | 0 => 1
  | k + 1 => squaredRatio k * ((4 * k + 5) / (4 * k + 3)) ^ 2

/-- What the next step adds. -/
def increment (k : ℕ) : ℚ := squaredRatio k * (16 * (k + 1) / (4 * k + 3) ^ 2)

/-- An increment with the slack that the later increments stay below. -/
def slackened (k : ℕ) : ℚ := increment k * (1 + 1 / (2 * (4 * k + 3) ^ 2))

/-- The ratios are positive. -/
lemma squaredRatio_pos (k : ℕ) : 0 < squaredRatio k := by
  induction k with
  | zero => exact one_pos
  | succ k ih => exact mul_pos ih (by positivity)

/-- And so are the increments. -/
lemma increment_pos (k : ℕ) : 0 < increment k := mul_pos (squaredRatio_pos k) (by positivity)

/-- A ratio is the one before it and an increment. -/
lemma squaredRatio_succ (k : ℕ) : squaredRatio (k + 1) = squaredRatio k + increment k := by
  rw [squaredRatio, increment]
  field_simp
  ring

/-- Each increment in terms of the one before it. -/
lemma increment_succ (k : ℕ) :
    increment (k + 1) = increment k * (1 + 1 / ((k + 1) * (4 * k + 7) ^ 2)) := by
  rw [increment, increment, squaredRatio]
  push_cast
  field_simp
  ring

/-- The increments grow. -/
lemma increment_le_increment {j k : ℕ} (hjk : j ≤ k) : increment j ≤ increment k := by
  induction k, hjk using Nat.le_induction with
  | base => exact le_rfl
  | succ k _ ih =>
    rw [increment_succ]
    have hpos := increment_pos k
    have hmore : (0 : ℚ) ≤ 1 / ((k + 1) * (4 * k + 7) ^ 2) := by positivity
    nlinarith

/-- With the slack they fall. -/
lemma slackened_succ_le (k : ℕ) : slackened (k + 1) ≤ slackened k := by
  rw [slackened, slackened, increment_succ, mul_assoc]
  refine mul_le_mul_of_nonneg_left ?_ (increment_pos k).le
  push_cast
  have hk : (0 : ℚ) ≤ k := Nat.cast_nonneg k
  have hshift : (4 * ((k : ℚ) + 1) + 3) = 4 * k + 7 := by ring
  rw [hshift, ← sub_nonneg]
  have hdifference : 1 + 1 / (2 * (4 * (k : ℚ) + 3) ^ 2) -
      (1 + 1 / ((k + 1) * (4 * k + 7) ^ 2)) * (1 + 1 / (2 * (4 * k + 7) ^ 2)) =
        ((4 * k + 7) ^ 2 * (24 * k + 22) - (4 * k + 3) ^ 2) /
          (2 * (k + 1) * (4 * k + 3) ^ 2 * (4 * k + 7) ^ 4) := by
    field_simp
    ring
  rw [hdifference]
  apply div_nonneg _ (by positivity)
  nlinarith [mul_nonneg hk hk, pow_nonneg hk 3]

/-- Hence no increment is larger than a slackened one. -/
lemma slackened_le_slackened {j k : ℕ} (hjk : j ≤ k) : slackened k ≤ slackened j :=
  antitone_nat_of_succ_le slackened_succ_le hjk

/-- The slack only adds. -/
lemma increment_le_slackened (k : ℕ) : increment k ≤ slackened k := by
  rw [slackened]
  have hslack : (0 : ℚ) ≤ 1 / (2 * (4 * k + 3) ^ 2) := by positivity
  nlinarith [increment_pos k]

/-- No increment is larger than this. -/
lemma increment_le (k : ℕ) : increment k ≤ 18279 / 10000 := by
  have hbound : slackened 16 ≤ 18279 / 10000 := by decide +kernel
  calc
    increment k ≤ increment (max k 16) := increment_le_increment (le_max_left k 16)
    _ ≤ slackened (max k 16) := increment_le_slackened _
    _ ≤ slackened 16 := slackened_le_slackened (le_max_right k 16)
    _ ≤ 18279 / 10000 := hbound

/-- From the seventeenth on none is smaller than this. -/
lemma le_increment {k : ℕ} (hk : 16 ≤ k) : 18275 / 10000 ≤ increment k := by
  have hbound : 18275 / 10000 ≤ increment 16 := by decide +kernel
  exact hbound.trans (increment_le_increment hk)

/-- **The ratio grows at most linearly.** -/
theorem squaredRatio_le (k : ℕ) : squaredRatio k ≤ 18279 / 10000 * k + 1 := by
  induction k with
  | zero => simp [squaredRatio]
  | succ k ih =>
    rw [squaredRatio_succ]
    push_cast
    linarith [increment_le k]

/-- **And at least linearly**, with almost the same slope. -/
theorem le_squaredRatio (k : ℕ) : 18275 / 10000 * k + 9155 / 10000 ≤ squaredRatio k := by
  rcases le_total 16 k with hk | hk
  · induction k, hk using Nat.le_induction with
    | base => decide +kernel
    | succ k hk ih =>
      rw [squaredRatio_succ]
      push_cast
      linarith [le_increment hk]
  · -- below 16 from above: each step down loses at most the largest increment
    have hdown : ∀ j i : ℕ, i + j = 16 → squaredRatio 16 - 18279 / 10000 * j ≤ squaredRatio i := by
      intro j
      induction j with
      | zero =>
        rintro i rfl
        simp
      | succ j ih =>
        intro i hi
        have hprev := ih (i + 1) (by omega)
        rw [squaredRatio_succ i] at hprev
        push_cast
        linarith [increment_le i]
    have hvalue : (301619 : ℚ) / 10000 ≤ squaredRatio 16 := by decide +kernel
    have h := hdown (16 - k) k (by omega)
    rw [Nat.cast_sub hk] at h
    push_cast at h
    have hk' : (0 : ℚ) ≤ k := Nat.cast_nonneg k
    linarith

/-! ## Braking -/

/-- The factor by which the squared speed falls when a step is made with `m` steps to go. -/
def brakingRatio (m : ℕ) : ℚ := ((4 * m - 1) / (4 * m + 1)) ^ 2

/-- The factor is positive. -/
lemma brakingRatio_pos {m : ℕ} (hm : 1 ≤ m) : 0 < brakingRatio m := by
  have hm' : (1 : ℚ) ≤ m := by exact_mod_cast hm
  have hnumerator : (0 : ℚ) < 4 * m - 1 := by linarith
  unfold brakingRatio
  positivity

/-- From `m` units on, a braking step loses less than one unit. -/
lemma mul_brakingRatio (m : ℕ) :
    m * brakingRatio m = m - 1 + (8 * m + 1) / (4 * m + 1) ^ 2 := by
  rw [brakingRatio]
  field_simp
  ring

/-- From `m + 1` units on, it loses more than one. -/
lemma succ_mul_brakingRatio (m : ℕ) :
    (m + 1) * brakingRatio m = m - (8 * m - 1) / (4 * m + 1) ^ 2 := by
  rw [brakingRatio]
  field_simp
  ring

end Ramp
