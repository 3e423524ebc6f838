import StrandFirmware.SpeedRamp

/-!
# The speed profile without its floats

The float values of a `SpeedProfile` belong together: the intervals to the settings (`Tuned`), the
speed to the direction and the waiting time to the speed (`Valid`).  Every operation keeps this, and
seen without the floats it is the operation of `StepGenerator`, with the stopping distance that the
speed gives.  What is known of the step generator for any stopping distance thus holds of the
library with its floats.
-/

namespace Strand

open Rounding

namespace SpeedProfile

variable {m : SpeedProfile}

/-! ## The values that belong together -/

/-- The intervals are computed from the settings. -/
structure Tuned (m : SpeedProfile) : Prop where
  acceleration_pos : 0 < m.acceleration
  maxSpeed_pos : 0 < m.maxSpeed
  c0_eq : m.c0 = firstInterval m.acceleration
  cmin_eq : m.cmin = single (double (1000000 / m.maxSpeed))

/-- The values that do not change while the motor runs. -/
def settings (m : SpeedProfile) : ℚ × ℚ × ℚ × ℚ := (m.acceleration, m.maxSpeed, m.c0, m.cmin)

/-- Nothing else matters. -/
lemma Tuned.of_settings {m' : SpeedProfile} (hm : m.Tuned) (h : m'.settings = m.settings) :
    m'.Tuned := by
  simp only [settings, Prod.mk.injEq] at h
  obtain ⟨h₁, h₂, h₃, h₄⟩ := h
  exact ⟨h₁ ▸ hm.acceleration_pos, h₂ ▸ hm.maxSpeed_pos, by rw [h₁, h₃, hm.c0_eq],
    by rw [h₂, h₄, hm.cmin_eq]⟩

/-- The first interval is positive. -/
lemma Tuned.c0_pos (hm : m.Tuned) : 0 < m.c0 := hm.c0_eq ▸ firstInterval_pos hm.acceleration_pos

/-- The shortest interval is positive. -/
lemma Tuned.cmin_pos (hm : m.Tuned) : 0 < m.cmin := hm.cmin_eq ▸ speedOf_pos hm.maxSpeed_pos

/-- The speed has the sign of the direction, and without speed nothing is due. -/
structure Valid (m : SpeedProfile) : Prop extends Tuned m where
  stepInterval_eq : m.speed = 0 → m.stepInterval = 0
  speed_pos_iff : m.speed ≠ 0 → (0 < m.speed ↔ m.clockwise = true)

/-- The motor stands, and its next step is the first one. -/
structure Rests (m : SpeedProfile) : Prop where
  speed_eq : m.speed = 0
  n_eq : m.n = 0

/-! ## New speeds -/

/-- The interval that `advance` computes. -/
def nextCn (m : SpeedProfile) : ℚ := if m.n = 0 then m.c0 else max (nextInterval m.cn m.n) m.cmin

/-- It is positive. -/
lemma Tuned.nextCn_pos (hm : m.Tuned) : 0 < m.nextCn := by
  unfold nextCn
  split
  · exact hm.c0_pos
  · exact lt_max_of_lt_right hm.cmin_pos

/-- The fields after `advance` that a speed is made of. -/
lemma advance_eq (m : SpeedProfile) :
    m.advance.cn = m.nextCn ∧ m.advance.stepInterval = ⌊m.nextCn⌋₊ ∧ m.advance.n = m.n + 1 ∧
      m.advance.speed =
        if m.advance.clockwise then speedOf m.nextCn else -speedOf m.nextCn := by
  simp [advance, nextCn]

/-- With a new speed the motor moves. -/
lemma Tuned.speed_advance_ne_zero (hm : m.Tuned) : m.advance.speed ≠ 0 := by
  have hpos := speedOf_pos hm.nextCn_pos
  rw [(advance_eq m).2.2.2]
  split
  · exact hpos.ne'
  · exact neg_ne_zero.mpr hpos.ne'

/-- A new speed is valid. -/
lemma Tuned.valid_advance (hm : m.Tuned) : m.advance.Valid where
  toTuned := hm.of_settings rfl
  stepInterval_eq h := absurd h hm.speed_advance_ne_zero
  speed_pos_iff _ := by
    have hpos := speedOf_pos hm.nextCn_pos
    rw [(advance_eq m).2.2.2]
    split
    next h => simp [h, hpos]
    next h => simp [h, hpos.le]

/-- `advance` without the floats. -/
lemma toStepGenerator_advance (hm : m.Tuned) :
    m.advance.toStepGenerator =
      { m.toStepGenerator with
        n := m.n + 1
        clockwise := if m.n = 0 then decide (0 < m.distanceToGo) else m.clockwise
        moving := true } := by
  rw [toStepGenerator, decide_eq_true hm.speed_advance_ne_zero]
  rfl

/-- A new speed keeps the settings. -/
@[simp] lemma settings_computeNewSpeed (m : SpeedProfile) :
    m.computeNewSpeed.settings = m.settings := by
  unfold computeNewSpeed
  split <;> rfl

/-- `computeNewSpeed` makes the values valid. -/
lemma Tuned.valid_computeNewSpeed (hm : m.Tuned) : m.computeNewSpeed.Valid := by
  unfold computeNewSpeed
  split
  · exact ⟨hm.of_settings rfl, fun _ => rfl, fun h => absurd rfl h⟩
  · exact Tuned.valid_advance (hm.of_settings rfl)

/-- **`computeNewSpeed`** without the floats. -/
theorem toStepGenerator_computeNewSpeed (hm : m.Tuned) :
    m.computeNewSpeed.toStepGenerator = m.toStepGenerator.computeNewSpeed m.stepsToStop := by
  unfold computeNewSpeed StepGenerator.computeNewSpeed
  change (if m.distanceToGo = 0 ∧ m.stepsToStop ≤ 1 then _ else _ : SpeedProfile).toStepGenerator =
    if m.distanceToGo = 0 ∧ m.stepsToStop ≤ 1 then _ else _
  split
  · simp [toStepGenerator]
  · exact toStepGenerator_advance (hm.of_settings rfl)

/-! ## The other operations -/

/-- A new target is valid. -/
lemma Valid.moveTo (hm : m.Valid) (absolute : ℤ) : (m.moveTo absolute).Valid := by
  unfold SpeedProfile.moveTo
  split
  · exact hm
  · exact Tuned.valid_computeNewSpeed (hm.toTuned.of_settings rfl)

/-- **`moveTo`** without the floats. -/
theorem toStepGenerator_moveTo (hm : m.Tuned) (absolute : ℤ) :
    (m.moveTo absolute).toStepGenerator =
      m.toStepGenerator.moveTo absolute { m with targetPos := absolute }.stepsToStop := by
  unfold moveTo StepGenerator.moveTo
  change _ = if m.targetPos = absolute then _ else _
  split
  · rfl
  · exact toStepGenerator_computeNewSpeed (hm.of_settings rfl)

/-- **`move`** without the floats. -/
theorem toStepGenerator_move (hm : m.Tuned) (relative : ℤ) :
    (m.move relative).toStepGenerator = m.toStepGenerator.move relative m.stepsToStop :=
  toStepGenerator_moveTo hm _

/-- A new position is valid, and the motor rests at it. -/
lemma Valid.setCurrentPosition (hm : m.Valid) (position : ℤ) :
    (m.setCurrentPosition position).Valid ∧ (m.setCurrentPosition position).Rests :=
  ⟨⟨hm.toTuned.of_settings rfl, fun _ => rfl, fun h => absurd rfl h⟩, rfl, rfl⟩

/-- **`setCurrentPosition`** without the floats. -/
theorem toStepGenerator_setCurrentPosition (m : SpeedProfile) (position : ℤ) :
    (m.setCurrentPosition position).toStepGenerator =
      m.toStepGenerator.setCurrentPosition position := by
  simp [setCurrentPosition, StepGenerator.setCurrentPosition, toStepGenerator]

/-- `stop` is valid. -/
lemma Valid.stop (hm : m.Valid) : m.stop.Valid := by
  unfold SpeedProfile.stop
  split_ifs
  · exact hm.moveTo _
  · exact hm.moveTo _
  · exact hm

/-- **`stop`** without the floats. -/
theorem toStepGenerator_stop (hm : m.Valid) :
    m.stop.toStepGenerator = m.toStepGenerator.stop m.stepsToStop := by
  unfold stop StepGenerator.stop
  change (if m.speed ≠ 0 then _ else _ : SpeedProfile).toStepGenerator =
    if decide (m.speed ≠ 0) = true then if m.clockwise = true then _ else _ else _
  by_cases h : m.speed ≠ 0
  · have hsign := hm.speed_pos_iff h
    rw [if_pos h, if_pos (decide_eq_true h)]
    by_cases hc : m.clockwise = true
    · rw [if_pos (hsign.mpr hc), if_pos hc, toStepGenerator_move hm.toTuned]
    · rw [if_neg (mt hsign.mp hc), if_neg hc, toStepGenerator_move hm.toTuned]
  · rw [if_neg h, if_neg (by simpa using h)]

/-- A step that is due is made by a moving motor. -/
lemma Valid.speed_ne_zero_of_due (hm : m.Valid) {time : BitVec 32} (hdue : m.due time = true) :
    m.speed ≠ 0 := by
  intro h
  simp [due, hm.stepInterval_eq h] at hdue

/-- `run` keeps the values valid. -/
lemma Valid.run (hm : m.Valid) (time : BitVec 32) : (m.run time).Valid := by
  unfold SpeedProfile.run
  split
  · exact Tuned.valid_computeNewSpeed (hm.toTuned.of_settings rfl)
  · exact hm

/-- **`run`** without the floats. -/
theorem toStepGenerator_run (hm : m.Valid) (time : BitVec 32) :
    (m.run time).toStepGenerator =
      m.toStepGenerator.run (m.due time) (m.makeStep time).stepsToStop := by
  unfold run StepGenerator.run
  by_cases hdue : m.due time = true
  · have hspeed := hm.speed_ne_zero_of_due hdue
    have htuned : (m.makeStep time).Tuned := hm.toTuned.of_settings rfl
    rw [if_pos hdue, if_pos ⟨decide_eq_true hspeed, hdue⟩, toStepGenerator_computeNewSpeed htuned]
    congr 1
    simp [toStepGenerator, makeStep, StepGenerator.runSpeed, StepGenerator.steps, hspeed, hdue]
  · rw [if_neg hdue, if_neg fun h => hdue h.2]

/-! ## The settings -/

/-- A new maximum speed is valid. -/
lemma Valid.setMaxSpeed (hm : m.Valid) (speed : NonzeroSpeed) : (m.setMaxSpeed speed).Valid := by
  unfold SpeedProfile.setMaxSpeed
  dsimp only
  have hpos : 0 < |speed.1| := abs_pos.mpr speed.2
  split_ifs
  · exact hm
  · exact Tuned.valid_computeNewSpeed ⟨hm.acceleration_pos, hpos, hm.c0_eq, rfl⟩
  · exact ⟨⟨hm.acceleration_pos, hpos, hm.c0_eq, rfl⟩, hm.stepInterval_eq, hm.speed_pos_iff⟩

/-- What `setMaxSpeed` does to the step generator: nothing if the speed is the one that is set. -/
def maxSpeedChange (m : SpeedProfile) (speed : NonzeroSpeed) : Option ℕ :=
  if m.maxSpeed = |speed.1| then none else some m.stepsToStop

/-- **`setMaxSpeed`** without the floats. -/
theorem toStepGenerator_setMaxSpeed (hm : m.Valid) (speed : NonzeroSpeed) :
    (m.setMaxSpeed speed).toStepGenerator =
      m.toStepGenerator.setMaxSpeed (m.maxSpeedChange speed) := by
  unfold setMaxSpeed maxSpeedChange
  dsimp only
  have hpos : 0 < |speed.1| := abs_pos.mpr speed.2
  by_cases h : m.maxSpeed = |speed.1|
  · rw [if_pos h, if_pos h]
    rfl
  · rw [if_neg h, if_neg h]
    change _ = if 0 < m.n then _ else _
    by_cases hn : 0 < m.n
    · rw [if_pos hn, if_pos hn]
      exact toStepGenerator_computeNewSpeed ⟨hm.acceleration_pos, hpos, hm.c0_eq, rfl⟩
    · rw [if_neg hn, if_neg hn]
      rfl

/-- A new acceleration is valid. -/
lemma Valid.setAcceleration (hm : m.Valid) (acceleration : ℚ) :
    (m.setAcceleration acceleration).Valid := by
  unfold SpeedProfile.setAcceleration
  split
  · exact hm
  next h =>
    have hpos : 0 < |acceleration| := abs_pos.mpr fun hzero => h (.inl hzero)
    exact Tuned.valid_computeNewSpeed ⟨hpos, hm.maxSpeed_pos, rfl, hm.cmin_eq⟩

/-- What `setAcceleration` does to the step generator: nothing if the acceleration is zero or the
one that is set, else `_n` is scaled, and the stopping distance is the one with the new setting. -/
def accelerationChange (m : SpeedProfile) (acceleration : ℚ) : Option (ℤ × ℕ) :=
  if acceleration = 0 ∨ m.acceleration = |acceleration| then none
  else
    some (truncate (single (single m.n * single (m.acceleration / |acceleration|))),
      { m with acceleration := |acceleration| }.stepsToStop)

/-- **`setAcceleration`** without the floats. -/
theorem toStepGenerator_setAcceleration (hm : m.Valid) (acceleration : ℚ) :
    (m.setAcceleration acceleration).toStepGenerator =
      m.toStepGenerator.setAcceleration (m.accelerationChange acceleration) := by
  unfold setAcceleration accelerationChange
  split
  · rfl
  next h =>
    have hpos : 0 < |acceleration| := abs_pos.mpr fun hzero => h (.inl hzero)
    exact toStepGenerator_computeNewSpeed ⟨hpos, hm.maxSpeed_pos, rfl, hm.cmin_eq⟩

end SpeedProfile

end Strand
