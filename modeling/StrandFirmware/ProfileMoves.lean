import StrandFirmware.ProfileSteps

/-!
# Moves along the speed profile

A motor at rest that is given a target speeds up, runs at its maximum speed and brakes.
`SpeedingUp` and `Braking` relate the float values on the way to the steps to go: speeding up, the
stopping distance is less than one step longer than the way to the target; braking, it has the way
to the target as its integer part.  Every step keeps one of the two until the motor stands at its
target (`OnCourse.makeStep`), so that it makes exactly the steps that it was asked for and arrives
at rest.

This holds as long as the stopping distance stays below `rampLimit`: on short moves, and at any
length under settings that do not need more to stop.  On longer ramps the rounded values can be off
by a step.
-/

namespace Strand

open Rounding Ramp

/-! ## The index of the next step -/

/-- The index in a motor that runs towards its target. -/
lemma StepGenerator.Approaching.adjustedN {g : StepGenerator} (hg : g.Approaching)
    (hgo : g.distanceToGo ≠ 0) (k : ℕ) :
    g.adjustedN k =
      if 0 < g.n then if g.distance ≤ k then -(k : ℤ) else g.n
      else if g.n < 0 ∧ k < g.distance then -g.n else g.n := by
  have hdirection := hg hgo
  unfold StepGenerator.adjustedN StepGenerator.distance
  dsimp only
  rcases lt_or_gt_of_ne hgo with h | h
  · have hc : g.clockwise = false := by
      rw [← Bool.not_eq_true, hdirection]
      omega
    rw [if_neg (by omega), if_pos h]
    simp only [hc, Bool.false_eq_true, or_false, and_true]
    split_ifs <;> omega
  · have hc : g.clockwise = true := hdirection.mpr h
    rw [if_pos h]
    simp only [hc, Bool.true_eq_false, or_false, and_true]
    split_ifs <;> omega

namespace SpeedProfile

variable {m : SpeedProfile} {way : ℕ}

/-! ## The way to the target -/

/-- The steps to go. -/
def distance (m : SpeedProfile) : ℕ := m.toStepGenerator.distance

/-- The stopping distance before it is truncated. -/
def stopping (m : SpeedProfile) : ℚ := stoppingDistance (speedOf m.cn) m.acceleration

/-- The speed and the waiting time are those of the last interval. -/
structure Running (m : SpeedProfile) : Prop extends Valid m where
  cn_pos : 0 < m.cn
  speed_eq : m.speed = if m.clockwise then speedOf m.cn else -speedOf m.cn
  stepInterval_cn : m.stepInterval = ⌊m.cn⌋₊

/-- The maximum speed keeps the ramp short. -/
def SlowEnough (m : SpeedProfile) : Prop :=
  (1 + 17882 / 10 ^ 11) * exactStopping m.acceleration m.cmin < rampLimit + 1

/-- The motor speeds up or runs at its maximum speed.  The ramp is kept short by that speed or by a
way of at most `way` steps, those behind the motor included. -/
structure SpeedingUp (way : ℕ) (m : SpeedProfile) : Prop where
  one_le_n : 1 ≤ m.n
  stopping_lt : m.stopping < m.distance + 1
  cmin_le : m.n = 1 ∨ m.cmin ≤ m.cn
  ramp : (∃ k : ℕ, m.n = k + 1 ∧ k ≤ rampLimit ∧ OnRamp m.acceleration m.cn k) ∨
    m.cn = m.cmin ∧ m.stopping < rampLimit + 1
  short : m.SlowEnough ∨ m.n + m.distance ≤ way + 1

/-- The motor brakes, and needs `k` steps to stop. -/
structure Braking (m : SpeedProfile) (k : ℕ) : Prop where
  n_eq : m.n = -k
  le_rampLimit : k ≤ rampLimit
  le_stopping : k ≤ m.stopping
  stopping_lt : m.stopping < k + 1
  third_le_stopping : 1 / 3 ≤ m.stopping
  distance_eq : m.distance = k ∨ m.distance = k + 1
  cmin_le : m.cmin ≤ m.cn

/-- The motor is on its way to the target, or it stands there. -/
structure OnCourse (way : ℕ) (m : SpeedProfile) : Prop extends Valid m where
  approaching : m.toStepGenerator.Approaching
  phase : m.distance = 0 ∧ m.Rests ∨
    m.distance ≠ 0 ∧ m.Running ∧ (SpeedingUp way m ∨ ∃ k, m.Braking k)

/-- The truncated stopping distance. -/
lemma Running.stepsToStop_eq (hm : m.Running) : m.stepsToStop = ⌊m.stopping⌋₊ := by
  rw [stepsToStop, stopping, hm.speed_eq]
  split
  · rfl
  · rw [stoppingDistance_neg]

/-- The stopping distance of a running motor is positive. -/
lemma Running.stopping_pos (hm : m.Running) : 0 < m.stopping :=
  (within_stoppingDistance hm.acceleration_pos hm.cn_pos).pos (by norm_num)
    (exactStopping_pos hm.acceleration_pos hm.cn_pos)

/-- After `advance` the motor runs. -/
lemma Tuned.running_advance (hm : m.Tuned) : m.advance.Running where
  toValid := hm.valid_advance
  cn_pos := (advance_eq m).1 ▸ hm.nextCn_pos
  speed_eq := by
    rw [(advance_eq m).1]
    exact (advance_eq m).2.2.2
  stepInterval_cn := by
    rw [(advance_eq m).1]
    exact (advance_eq m).2.1

/-- A new speed short of the target. -/
lemma computeNewSpeed_of_distance (hgo : m.distance ≠ 0) :
    m.computeNewSpeed = advance { m with n := m.toStepGenerator.adjustedN m.stepsToStop } := by
  rw [computeNewSpeed, if_neg]
  rintro ⟨hzero, -⟩
  exact hgo (Int.natAbs_eq_zero.mpr hzero)

/-- A new speed changes nothing about the way. -/
lemma distance_computeNewSpeed (hm : m.Tuned) : m.computeNewSpeed.distance = m.distance := by
  rw [distance, toStepGenerator_computeNewSpeed hm, StepGenerator.distance,
    StepGenerator.toAccelStepper_computeNewSpeed]
  rfl

/-! ## The two phases -/

/-- The shortest interval is a `float`. -/
lemma Tuned.representable_cmin (hm : m.Tuned) : Representable 24 m.cmin :=
  hm.cmin_eq ▸ representable_roundTo (by norm_num) _

/-- The interval after a step that is not the first. -/
lemma nextCn_of_ne_zero (hn : m.n ≠ 0) : m.nextCn = max (nextInterval m.cn m.n) m.cmin := if_neg hn

/-- The stopping distance after `advance`. -/
lemma stopping_advance (m : SpeedProfile) :
    m.advance.stopping = stoppingDistance (speedOf m.nextCn) m.acceleration := rfl

/-- **Speeding up** goes on for another step while the stopping distance is less than the way. -/
lemma SpeedingUp.advance (hrun : m.Running) (hn : 1 ≤ m.n) (hlt : m.stopping < m.distance)
    (hramp : (∃ k : ℕ, m.n = k + 1 ∧ k ≤ rampLimit ∧ OnRamp m.acceleration m.cn k) ∨
      m.cn = m.cmin ∧ m.stopping < rampLimit + 1)
    (hshort : m.SlowEnough ∨ m.n + 1 + m.distance ≤ way + 1) (hway : way ≤ 2 * rampLimit) :
    SpeedingUp way m.advance := by
  have ha := hrun.acceleration_pos
  have hcmin := hrun.cmin_pos
  have hnext : m.nextCn = max (nextInterval m.cn m.n) m.cmin := nextCn_of_ne_zero (by omega)
  have hnextpos := nextInterval_pos hrun.cn_pos (show m.n ≠ 0 by omega)
  have hshort' : m.advance.SlowEnough ∨ m.advance.n + m.advance.distance ≤ way + 1 := hshort
  rcases hramp with ⟨k, hk, hlimit, honramp⟩ | ⟨hcruise, hstop⟩
  · -- one step further up the ramp, unless the maximum speed is reached
    have hstep : OnRamp m.acceleration (nextInterval m.cn m.n) (k + 1) := by
      rw [hk]
      exact honramp.next hlimit ha hrun.cn_pos
    obtain ⟨hlow, hhigh⟩ := ramp_bounds hstep (by omega) ha hnextpos
    have hkD : k < m.distance := by
      have hle := (ramp_bounds honramp (by omega) ha hrun.cn_pos).1
      exact_mod_cast hle.trans_lt hlt
    have hkD' : (k : ℚ) + 1 ≤ m.distance := by exact_mod_cast hkD
    push_cast at hlow hhigh
    rcases le_or_gt m.cmin (nextInterval m.cn m.n) with hle | hgt
    · have hcn : m.nextCn = nextInterval m.cn m.n := by rw [hnext, max_eq_left hle]
      have hstop := (within_stoppingDistance ha hnextpos).2
      refine ⟨?_, ?_, .inr ?_, .inl ⟨k + 1, ?_, ?_, ?_⟩, hshort'⟩
      · change 1 ≤ m.n + 1
        omega
      · change m.advance.stopping < (m.distance : ℚ) + 1
        rw [stopping_advance, hcn]
        linarith
      · change m.cmin ≤ m.nextCn
        rw [hcn]
        exact hle
      · change m.n + 1 = _
        rw [hk]
        push_cast
        ring
      · -- the ramp ends before its limit
        rcases hshort with hslow | hshort
        · have hmono := exactStopping_le_exactStopping ha hcmin hle
          have hlt' : (k : ℚ) + 1 < rampLimit + 1 :=
            (hlow.trans (hstop.trans (by linarith))).trans_lt hslow
          exact Nat.lt_succ_iff.mp (by exact_mod_cast hlt')
        · omega
      · change OnRamp m.acceleration m.nextCn (k + 1)
        rw [hcn]
        exact hstep
    · have hcn : m.nextCn = m.cmin := by rw [hnext, max_eq_right hgt.le]
      have hmono := exactStopping_le_exactStopping ha hnextpos hgt.le
      have hstop := (within_stoppingDistance ha hcmin).2
      refine ⟨?_, ?_, .inr ?_, .inr ⟨?_, ?_⟩, hshort'⟩
      · change 1 ≤ m.n + 1
        omega
      · change m.advance.stopping < (m.distance : ℚ) + 1
        rw [stopping_advance, hcn]
        linarith
      · change m.cmin ≤ m.nextCn
        rw [hcn]
      · change m.nextCn = m.cmin
        exact hcn
      · rw [stopping_advance, hcn]
        rcases hshort with hslow | hshort
        · exact hstop.trans_lt hslow
        · have hle : k + 1 ≤ rampLimit := by omega
          have hle' : (k : ℚ) + 1 ≤ rampLimit := by exact_mod_cast hle
          linarith
  · -- the maximum speed is kept
    have hle : nextInterval m.cn m.n ≤ m.cmin :=
      hcruise ▸ nextInterval_le hrun.cn_pos (hcruise ▸ hrun.representable_cmin) hn
    have hcn : m.nextCn = m.cmin := by rw [hnext, max_eq_right hle]
    have hsame : m.advance.stopping = m.stopping := by
      rw [stopping_advance, hcn, stopping, hcruise]
    refine ⟨?_, ?_, .inr ?_, .inr ⟨hcn, ?_⟩, hshort'⟩
    · change 1 ≤ m.n + 1
      omega
    · change m.advance.stopping < (m.distance : ℚ) + 1
      rw [hsame]
      linarith
    · exact hcn.ge
    · rw [hsame]
      exact hstop

/-- **Braking** takes one step off the stopping distance. -/
lemma Braking.advance {k : ℕ} (hrun : m.Running) (hn : m.n = -(k : ℤ)) (hk : 1 ≤ k)
    (hlimit : k ≤ rampLimit) (hlow : k ≤ m.stopping) (hhigh : m.stopping < k + 1)
    (hdistance : m.distance = k ∨ m.distance + 1 = k) (hcmin : m.cmin ≤ m.cn) :
    m.advance.Braking (k - 1) := by
  have hn0 : m.n ≠ 0 := by omega
  obtain ⟨h₁, h₂, h₃⟩ := braking_bounds hk hlimit hrun.acceleration_pos hrun.cn_pos hlow hhigh
  -- a braking step is longer than the one before it
  have hlonger : m.cn ≤ nextInterval m.cn m.n := by
    have hwithin := (within_nextInterval hrun.cn_pos hn0).1
    have hk' : (1 : ℚ) ≤ k := by exact_mod_cast hk
    have hlimit' : (k : ℚ) ≤ 1005 := by exact_mod_cast hlimit
    refine le_trans ?_ hwithin
    have hratio : (4 * (m.n : ℚ) - 1) / (4 * m.n + 1) = (4 * k + 1) / (4 * k - 1) := by
      rw [hn, ← neg_div_neg_eq]
      push_cast
      ring
    have hfactor : 1 ≤ (1 - 59605 / 10 ^ 12) * ((4 * (k : ℚ) + 1) / (4 * k - 1)) := by
      rw [← mul_div_assoc, le_div_iff₀ (by linarith)]
      linarith
    rw [hratio]
    nlinarith [hrun.cn_pos]
  have hcn : m.nextCn = nextInterval m.cn (-k) := by
    rw [nextCn_of_ne_zero hn0, max_eq_left (hcmin.trans hlonger), hn]
  have hcast : ((k - 1 : ℕ) : ℚ) = k - 1 := by
    rw [Nat.cast_sub hk, Nat.cast_one]
  constructor
  · change m.n + 1 = _
    omega
  · omega
  · rw [stopping_advance, hcn, hcast]
    exact h₁
  · rw [stopping_advance, hcn, hcast]
    linarith
  · rw [stopping_advance, hcn]
    exact h₃
  · change m.distance = k - 1 ∨ m.distance = k - 1 + 1
    omega
  · change m.cmin ≤ m.nextCn
    rw [nextCn_of_ne_zero hn0]
    exact le_max_right _ _

/-! ## One step on the way -/

/-- A step towards the target is one step less to go. -/
lemma approaching_makeStep (happroaching : m.toStepGenerator.Approaching) (hgo : m.distance ≠ 0)
    (time : BitVec 32) :
    (m.makeStep time).toStepGenerator.Approaching ∧
      (m.makeStep time).distance + 1 = m.distance := by
  have hgo' : m.targetPos - m.currentPos ≠ 0 := fun h => hgo (Int.natAbs_eq_zero.mpr h)
  have hdirection : m.clockwise = true ↔ 0 < m.targetPos - m.currentPos := happroaching hgo'
  simp only [StepGenerator.Approaching, distance, StepGenerator.distance,
    AccelStepper.distanceToGo, toStepGenerator, makeStep]
  split
  next h =>
    have hpos := hdirection.mp h
    exact ⟨fun _ => by rw [h]; simp; omega, by omega⟩
  next h =>
    have hneg := mt hdirection.mpr h
    rw [Bool.not_eq_true] at h
    exact ⟨fun _ => by rw [h]; simp; omega, by omega⟩

/-- The step itself leaves the speed and the interval alone. -/
lemma Running.makeStep (hm : m.Running) (time : BitVec 32) : (m.makeStep time).Running :=
  ⟨⟨hm.toTuned.of_settings rfl, hm.stepInterval_eq, hm.speed_pos_iff⟩, hm.cn_pos, hm.speed_eq,
    hm.stepInterval_cn⟩

/-- A new index leaves the speed and the interval alone. -/
lemma Running.withN (hm : m.Running) (n : ℤ) : ({ m with n } : SpeedProfile).Running :=
  ⟨⟨hm.toTuned.of_settings rfl, hm.stepInterval_eq, hm.speed_pos_iff⟩, hm.cn_pos, hm.speed_eq,
    hm.stepInterval_cn⟩

/-- A motor that speeds up on its way makes the right choice after a step: the way is now `D`, which
was `D + 1` when the stopping distance was fitted to it. -/
lemma SpeedingUp.computeNewSpeed (hrun : m.Running) (happroaching : m.toStepGenerator.Approaching)
    (hgo : m.distance ≠ 0) (hn : 1 ≤ m.n) (hlt : m.stopping < m.distance + 2)
    (hcmin : m.n = 1 ∨ m.cmin ≤ m.cn)
    (hramp : (∃ k : ℕ, m.n = k + 1 ∧ k ≤ rampLimit ∧ OnRamp m.acceleration m.cn k) ∨
      m.cn = m.cmin ∧ m.stopping < rampLimit + 1)
    (hshort : m.SlowEnough ∨ m.n + 1 + m.distance ≤ way + 1) (hway : way ≤ 2 * rampLimit) :
    SpeedingUp way m.computeNewSpeed ∨ ∃ k, m.computeNewSpeed.Braking k := by
  have hpos := hrun.stopping_pos
  have hfloor := Nat.floor_le hpos.le
  have hfloor' := Nat.lt_floor_add_one m.stopping
  rw [computeNewSpeed_of_distance hgo, happroaching.adjustedN
    (fun h => hgo (Int.natAbs_eq_zero.mpr h)), hrun.stepsToStop_eq]
  rw [if_pos (show 0 < m.toStepGenerator.n from hn)]
  split
  next hle =>
    right
    change m.distance ≤ _ at hle
    have hbound : ⌊m.stopping⌋₊ < m.distance + 2 :=
      (Nat.floor_lt hpos.le).mpr (by push_cast; exact hlt)
    have hbelow : m.stopping < rampLimit + 1 := by
      rcases hramp with ⟨k, -, hlimit, honramp⟩ | ⟨-, h⟩
      · have hhigh := (ramp_bounds honramp (by omega) hrun.acceleration_pos hrun.cn_pos).2
        have hstop := (within_stoppingDistance hrun.acceleration_pos hrun.cn_pos).2
        have hlimit' : (k : ℚ) ≤ rampLimit := by exact_mod_cast hlimit
        exact hstop.trans_lt (hhigh.trans_le (by linarith))
      · exact h
    refine ⟨⌊m.stopping⌋₊ - 1,
      Braking.advance (hrun.withN _) rfl (by omega) ?_ hfloor hfloor' ?_ ?_⟩
    · exact Nat.lt_succ_iff.mp ((Nat.floor_lt hpos.le).mpr (by push_cast; exact hbelow))
    · change m.distance = _ ∨ m.distance + 1 = _
      omega
    · -- a first step needs no step to stop
      rcases hcmin with h1 | h
      · rcases hramp with ⟨k, hk, hlimit, honramp⟩ | ⟨hcruise, -⟩
        · exfalso
          obtain rfl : k = 0 := by omega
          have hhigh := (ramp_bounds honramp (by omega) hrun.acceleration_pos hrun.cn_pos).2
          have hstop := (within_stoppingDistance hrun.acceleration_pos hrun.cn_pos).2
          have hone : m.stopping < 1 := hstop.trans_lt (by simpa using hhigh)
          have hzero := Nat.floor_eq_zero.mpr hone
          omega
        · exact hcruise.ge
      · exact h
  next hgt =>
    left
    change ¬ m.distance ≤ _ at hgt
    have hlt' : m.stopping < m.distance := (Nat.floor_lt hpos.le).mp (by omega)
    exact SpeedingUp.advance (hrun.withN _) hn hlt' hramp hshort hway

/-- A braking motor goes on braking. -/
lemma Braking.computeNewSpeed {k : ℕ} (hrun : m.Running)
    (happroaching : m.toStepGenerator.Approaching) (hgo : m.distance ≠ 0) (hn : m.n = -(k : ℤ))
    (hlimit : k ≤ rampLimit) (hlow : k ≤ m.stopping) (hhigh : m.stopping < k + 1)
    (hdistance : m.distance = k ∨ m.distance + 1 = k) (hcmin : m.cmin ≤ m.cn) :
    m.computeNewSpeed.Braking (k - 1) := by
  have hfloor : ⌊m.stopping⌋₊ = k :=
    (Nat.floor_eq_iff hrun.stopping_pos.le).mpr ⟨hlow, hhigh⟩
  have hindex : m.toStepGenerator.adjustedN m.stepsToStop = m.n := by
    rw [happroaching.adjustedN (fun h => hgo (Int.natAbs_eq_zero.mpr h)), hrun.stepsToStop_eq,
      hfloor]
    change (if 0 < m.n then _ else if m.n < 0 ∧ k < m.distance then -m.n else m.n) = m.n
    rw [if_neg (by omega), if_neg (by omega)]
  rw [computeNewSpeed_of_distance hgo, hindex]
  exact Braking.advance hrun hn (by omega) hlimit hlow hhigh hdistance hcmin

/-- At the target the motor comes to rest. -/
lemma rests_computeNewSpeed (hgo : m.distance = 0) (hstop : m.stepsToStop ≤ 1) :
    m.computeNewSpeed.Rests := by
  rw [computeNewSpeed, if_pos ⟨Int.natAbs_eq_zero.mp hgo, hstop⟩]
  exact ⟨rfl, rfl⟩

/-- A motor that arrives needs at most one step to stop. -/
lemma OnCourse.stepsToStop_le (hm : OnCourse way m) (hgo : m.distance = 1) :
    m.stepsToStop ≤ 1 := by
  obtain ⟨hzero, -⟩ | ⟨-, hrun, hphase⟩ := hm.phase
  · omega
  have hshort : m.stopping < 2 := by
    rcases hphase with hup | ⟨k, hdown⟩
    · have hlt := hup.stopping_lt
      rw [hgo] at hlt
      norm_num at hlt
      exact hlt
    · have hk : k ≤ 1 := by
        have := hdown.distance_eq
        omega
      have hk' : (k : ℚ) ≤ 1 := by exact_mod_cast hk
      linarith [hdown.stopping_lt]
  rw [hrun.stepsToStop_eq]
  exact Nat.lt_succ_iff.mp ((Nat.floor_lt hrun.stopping_pos.le).mpr hshort)

/-- **A step keeps the course**, and is one step less to go. -/
theorem OnCourse.makeStep (hm : OnCourse way m) (hway : way ≤ 2 * rampLimit)
    (hgo : m.distance ≠ 0) (time : BitVec 32) :
    OnCourse way (m.makeStep time).computeNewSpeed ∧
      (m.makeStep time).computeNewSpeed.distance + 1 = m.distance := by
  obtain ⟨hzero, -⟩ | ⟨-, hrun, hphase⟩ := hm.phase
  · exact absurd hzero hgo
  have hstep := hrun.makeStep time
  obtain ⟨happroaching, hdistance⟩ := approaching_makeStep hm.approaching hgo time
  have hsame := distance_computeNewSpeed hstep.toTuned
  have happroaching' : (m.makeStep time).computeNewSpeed.toStepGenerator.Approaching := by
    rw [toStepGenerator_computeNewSpeed hstep.toTuned]
    exact happroaching.computeNewSpeed _
  refine ⟨⟨hstep.toTuned.valid_computeNewSpeed, happroaching', ?_⟩, by rw [hsame]; exact hdistance⟩
  rw [hsame]
  by_cases hend : (m.makeStep time).distance = 0
  · exact .inl ⟨hend, rests_computeNewSpeed hend (hm.stepsToStop_le (by omega))⟩
  · right
    refine ⟨hend, ?_, ?_⟩
    · rw [computeNewSpeed_of_distance hend]
      exact (hstep.withN _).toTuned.running_advance
    · rcases hphase with hup | ⟨k, hdown⟩
      · refine SpeedingUp.computeNewSpeed hstep happroaching hend hup.one_le_n ?_ hup.cmin_le
          hup.ramp ?_ hway
        · have hcast : ((m.makeStep time).distance : ℚ) + 1 = m.distance := by
            exact_mod_cast hdistance
          have hlt := hup.stopping_lt
          change m.stopping < _
          linarith
        · refine hup.short.imp id fun h => ?_
          change m.n + 1 + ((m.makeStep time).distance : ℤ) ≤ _
          omega
      · have hd := hdown.distance_eq
        exact .inr ⟨_, Braking.computeNewSpeed hstep happroaching hend hdown.n_eq
          hdown.le_rampLimit hdown.le_stopping hdown.stopping_lt (by omega) hdown.cmin_le⟩

end SpeedProfile

end Strand
