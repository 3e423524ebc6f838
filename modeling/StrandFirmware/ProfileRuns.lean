import StrandFirmware.ProfileMoves

/-!
# Whole moves

`while (distanceToGo() != 0) run();` is a run of `poll`, whose labels are the values of `micros()`
at the calls.  A motor that stands at its target and is given another one makes its steps one after
the other in one direction, never passes the target and stands there at the end (`move_run`),
whatever the clock does between the calls and however the floats are rounded.  A `stop()` before the
motor brakes sets a target that is reached in the same way (`stop_run`).
-/

namespace Strand

open Rounding Ramp

namespace SpeedProfile

variable {m t : SpeedProfile} {way : ℕ}

/-! ## The loop -/

/-- One pass of the loop, entered only short of the target. -/
def poll (m : SpeedProfile) (time : BitVec 32) : Option SpeedProfile :=
  if m.distanceToGo = 0 then none else some (m.run time)

/-- The position that a pass steps to, if a step is due. -/
def steppedTo (m : SpeedProfile) (time : BitVec 32) : List ℤ :=
  if m.due time then [(m.makeStep time).currentPos] else []

/-- The positions that the motor steps through in a run of the loop. -/
def trace (m : SpeedProfile) (times : List (BitVec 32)) : List ℤ :=
  StepRuns.outputs poll steppedTo m times

/-- `steps` positions from `start` on, in the direction of `sign`. -/
def consecutive (start sign : ℤ) (steps : ℕ) : List ℤ :=
  (List.range steps).map fun i : ℕ => start + sign * ((i : ℤ) + 1)

/-- The next position and those after it. -/
lemma consecutive_succ (start sign : ℤ) (steps : ℕ) :
    consecutive start sign (steps + 1) =
      (start + sign) :: consecutive (start + sign) sign steps := by
  rw [consecutive, List.range_succ_eq_map, List.map_cons, List.map_map, consecutive]
  congr 1
  · simp
  · apply List.map_congr_left
    intro i _
    simp only [Function.comp_apply, Nat.cast_succ]
    ring

/-- A pass of the loop. -/
lemma poll_eq_some_iff {time : BitVec 32} :
    m.poll time = some t ↔ m.distance ≠ 0 ∧ m.run time = t := by
  have hzero : m.distance = 0 ↔ m.distanceToGo = 0 := Int.natAbs_eq_zero
  unfold poll
  split
  next h => simp [hzero.mpr h]
  next h => simp [mt hzero.mp h]

/-- A step is made towards the target. -/
lemma currentPos_makeStep (happroaching : m.toStepGenerator.Approaching) (hgo : m.distance ≠ 0)
    (time : BitVec 32) :
    (m.makeStep time).currentPos = m.currentPos + m.distanceToGo.sign := by
  have hgo' : m.distanceToGo ≠ 0 := fun h => hgo (Int.natAbs_eq_zero.mpr h)
  have hdirection : m.clockwise = true ↔ 0 < m.distanceToGo := happroaching hgo'
  rw [makeStep]
  rcases lt_or_gt_of_ne hgo' with h | h
  · rw [if_neg (mt hdirection.mp h.not_gt), Int.sign_eq_neg_one_of_neg h]
  · rw [if_pos (hdirection.mpr h), Int.sign_eq_one_of_pos h]

/-- The counter and the target after a step. -/
lemma toAccelStepper_computeNewSpeed (hm : m.Tuned) :
    m.computeNewSpeed.toAccelStepper = m.toAccelStepper := by
  have h := congrArg StepGenerator.toAccelStepper (toStepGenerator_computeNewSpeed hm)
  rwa [StepGenerator.toAccelStepper_computeNewSpeed] at h

/-- One step does not turn a longer way. -/
lemma sign_sub_sign {d : ℤ} (h : 2 ≤ d.natAbs) : (d - d.sign).sign = d.sign := by
  rcases lt_trichotomy d 0 with hd | rfl | hd
  · rw [Int.sign_eq_neg_one_of_neg hd]
    exact Int.sign_eq_neg_one_of_neg (by omega)
  · simp at h
  · rw [Int.sign_eq_one_of_pos hd]
    exact Int.sign_eq_one_of_pos (by omega)

/-- **A run on course** steps through consecutive positions, one for each step less to go. -/
theorem OnCourse.of_run {times : List (BitVec 32)} (hm : OnCourse way m)
    (hway : way ≤ 2 * rampLimit) (hrun : StepRuns.run poll m times = some t) :
    OnCourse way t ∧ t.settings = m.settings ∧ t.targetPos = m.targetPos ∧
      ∃ k : ℕ, m.trace times = consecutive m.currentPos m.distanceToGo.sign k ∧
        t.currentPos = m.currentPos + m.distanceToGo.sign * k ∧ k + t.distance = m.distance := by
  induction times generalizing m with
  | nil =>
    obtain rfl : m = t := by simpa using hrun
    exact ⟨hm, rfl, rfl, 0, rfl, by simp, Nat.zero_add _⟩
  | cons time times ih =>
    obtain ⟨u, hu, hrest⟩ := StepRuns.run_cons_eq_some_iff.mp hrun
    obtain ⟨hgo, hstep⟩ := poll_eq_some_iff.mp hu
    have htrace : m.trace (time :: times) = m.steppedTo time ++ u.trace times :=
      StepRuns.outputs_cons hu
    rw [htrace]
    by_cases hdue : m.due time = true
    · obtain rfl : (m.makeStep time).computeNewSpeed = u := by
        rw [← hstep, SpeedProfile.run, if_pos hdue]
      have htuned : (m.makeStep time).Tuned := hm.toTuned.of_settings rfl
      obtain ⟨hcourse, hdistance⟩ := hm.makeStep hway hgo time
      have hsame := toAccelStepper_computeNewSpeed htuned
      have hposition := currentPos_makeStep hm.approaching hgo time
      obtain ⟨ht, hsettings, htarget, k, hk, hend, hkd⟩ := ih hcourse hrest
      refine ⟨ht, ?_, ?_, k + 1, ?_⟩
      · rw [hsettings, settings_computeNewSpeed]
        rfl
      · rw [htarget, hsame]
        rfl
      · have hcurrent : (m.makeStep time).computeNewSpeed.currentPos =
            m.currentPos + m.distanceToGo.sign := by
          rw [← hposition, hsame]
        rw [hk, consecutive_succ, steppedTo, if_pos hdue, List.singleton_append, hposition]
        rw [hcurrent] at hend ⊢
        -- short of the target the way keeps its sign
        rcases Nat.eq_zero_or_pos k with rfl | hk0
        · exact ⟨rfl, by rw [hend]; push_cast; ring, by omega⟩
        · have htarget' : (m.makeStep time).computeNewSpeed.targetPos = m.targetPos := by
            rw [hsame]
            rfl
          have hgo' : (m.makeStep time).computeNewSpeed.distanceToGo =
              m.distanceToGo - m.distanceToGo.sign := by
            simp only [AccelStepper.distanceToGo, hcurrent, htarget']
            omega
          have hlarge : 2 ≤ m.distanceToGo.natAbs := by
            change 2 ≤ m.distance
            omega
          rw [hgo', sign_sub_sign hlarge] at hend ⊢
          exact ⟨rfl, by rw [hend]; push_cast; ring, by omega⟩
    · obtain rfl : m = u := by rw [← hstep, SpeedProfile.run, if_neg hdue]
      obtain ⟨ht, hsettings, htarget, k, hk, hend⟩ := ih hm hrest
      exact ⟨ht, hsettings, htarget, k, by rw [steppedTo, if_neg hdue, List.nil_append, hk], hend⟩

/-! ## Moves from rest -/

/-- The motor stands at its target. -/
structure Standing (m : SpeedProfile) : Prop extends Valid m, Rests m where
  distanceToGo_eq : m.distanceToGo = 0

/-- Without speed nothing is needed to stop. -/
lemma stepsToStop_of_speed_eq_zero (h : m.speed = 0) : m.stepsToStop = 0 := by
  have hzero : ∀ p, roundTo p 0 = 0 := by
    intro p
    have hnearest : nearestEven 0 = 0 := by simpa using nearestEven_intCast 0
    rw [roundTo, zero_div, hnearest, Int.cast_zero, zero_mul]
  rw [stepsToStop, stoppingDistance, h, mul_zero, single, double, hzero, zero_div, hzero,
    Nat.floor_zero]

/-- A new speed at the target, without speed, is none. -/
lemma computeNewSpeed_of_rest (hgo : m.distanceToGo = 0) (hspeed : m.speed = 0) :
    m.computeNewSpeed = { m with stepInterval := 0, speed := 0, n := 0 } := by
  rw [computeNewSpeed, if_pos ⟨hgo, by rw [stepsToStop_of_speed_eq_zero hspeed]; omega⟩]

/-- A motor that stands goes on standing under another maximum speed. -/
lemma Standing.setMaxSpeed (hm : m.Standing) (speed : NonzeroSpeed) :
    (m.setMaxSpeed speed).Standing ∧ (m.setMaxSpeed speed).maxSpeed = |speed.1| ∧
      (m.setMaxSpeed speed).acceleration = m.acceleration ∧
      (m.setMaxSpeed speed).toAccelStepper = m.toAccelStepper := by
  have hvalid := hm.toValid.setMaxSpeed speed
  have hn : ¬ 0 < m.n := by
    rw [hm.n_eq]
    omega
  unfold SpeedProfile.setMaxSpeed at hvalid ⊢
  dsimp only at hvalid ⊢
  split_ifs at hvalid ⊢ with h
  · exact ⟨hm, h, rfl, rfl⟩
  · exact ⟨⟨hvalid, ⟨hm.speed_eq, hm.n_eq⟩, hm.distanceToGo_eq⟩, rfl, rfl, rfl⟩

/-- A new acceleration for a motor that stands. -/
lemma Standing.setAcceleration_eq (hm : m.Standing) {acceleration : ℚ}
    (h : ¬ (acceleration = 0 ∨ m.acceleration = |acceleration|)) :
    m.setAcceleration acceleration =
      { m with
        stepInterval := 0, speed := 0, n := 0, c0 := firstInterval |acceleration|
        acceleration := |acceleration| } := by
  rw [SpeedProfile.setAcceleration, if_neg h]
  exact computeNewSpeed_of_rest hm.distanceToGo_eq hm.speed_eq

/-- And under another acceleration. -/
lemma Standing.setAcceleration (hm : m.Standing) (acceleration : ℚ) :
    (m.setAcceleration acceleration).Standing ∧
      (m.setAcceleration acceleration).acceleration =
        (if acceleration = 0 then m.acceleration else |acceleration|) ∧
      (m.setAcceleration acceleration).maxSpeed = m.maxSpeed ∧
      (m.setAcceleration acceleration).toAccelStepper = m.toAccelStepper := by
  have hvalid := hm.toValid.setAcceleration acceleration
  by_cases h : acceleration = 0 ∨ m.acceleration = |acceleration|
  · have hsame : m.setAcceleration acceleration = m := if_pos h
    rw [hsame]
    refine ⟨hm, ?_, rfl, rfl⟩
    split
    next => rfl
    next hzero => exact h.resolve_left hzero
  · have hzero : acceleration ≠ 0 := fun hzero => h (.inl hzero)
    rw [hm.setAcceleration_eq h] at hvalid ⊢
    exact ⟨⟨hvalid, ⟨rfl, rfl⟩, hm.distanceToGo_eq⟩, (if_neg hzero).symm, rfl, rfl⟩

/-- The state after `init_strand`: `setMaxSpeed(1400*MICROSTEPPING)` and
`setAcceleration(1000*MICROSTEPPING)`. -/
def boot : SpeedProfile :=
  (create.setMaxSpeed ⟨1400 * 8, by norm_num⟩).setAcceleration (1000 * 8)

/-- The constructor leaves the motor without speed, and `_cmin` at its initial value. -/
lemma create_eq :
    create =
      { currentPos := 0, targetPos := 0, speed := 0, maxSpeed := 1, acceleration := 1,
        stepInterval := 0, lastStepTime := 0, n := 0, c0 := firstInterval 1, cn := 0, cmin := 1,
        clockwise := false } := by
  rw [create, setAcceleration, if_neg (by norm_num), computeNewSpeed_of_rest rfl rfl, abs_one]

/-- **After the start** the motor stands at zero. -/
theorem standing_boot :
    boot.Standing ∧ boot.maxSpeed = 11200 ∧ boot.acceleration = 8000 ∧
      boot.toAccelStepper = ⟨0, 0⟩ ∧ boot.clockwise = false := by
  -- the first `setMaxSpeed` also computes `_cmin`
  have hfirst : (create.setMaxSpeed ⟨1400 * 8, by norm_num⟩) =
      { create with maxSpeed := 11200, cmin := single (double (1000000 / 11200)) } := by
    rw [create_eq, setMaxSpeed]
    norm_num
  have hstanding : (create.setMaxSpeed ⟨1400 * 8, by norm_num⟩).Standing := by
    rw [hfirst, create_eq]
    exact ⟨⟨⟨one_pos, by norm_num, rfl, rfl⟩, fun _ => rfl, fun h => absurd rfl h⟩, ⟨rfl, rfl⟩, rfl⟩
  obtain ⟨hboot, hacceleration, hmaxSpeed, hcounters⟩ := hstanding.setAcceleration (1000 * 8)
  refine ⟨hboot, ?_, ?_, ?_, ?_⟩
  · rw [boot, hmaxSpeed, hfirst]
  · rw [boot, hacceleration]
    norm_num
  · rw [boot, hcounters, hfirst, create_eq]
  · rw [boot, hstanding.setAcceleration_eq]
    · rw [hfirst, create_eq]
    · rw [hfirst, create_eq]
      norm_num

/-- The way is short, or the maximum speed is reached on a short ramp. -/
def Reaches (m : SpeedProfile) (relative : ℤ) : Prop :=
  |relative| ≤ 2000 ∨ m.maxSpeed ^ 2 ≤ 2000 * m.acceleration

instance (m : SpeedProfile) (relative : ℤ) : Decidable (m.Reaches relative) :=
  inferInstanceAs (Decidable (_ ∨ _))

/-- A setting that reaches its maximum speed on a short ramp is slow enough. -/
lemma Tuned.slowEnough (hm : m.Tuned) (h : m.maxSpeed ^ 2 ≤ 2000 * m.acceleration) :
    m.SlowEnough := by
  have ha := hm.acceleration_pos
  have hv := hm.maxSpeed_pos
  have hcmin : Within (59605 / 10 ^ 12) m.cmin (1000000 / m.maxSpeed) :=
    hm.cmin_eq ▸ within_speedOf hv
  have hexact := (within_exactStopping ha (by positivity) hcmin).2
  have hvalue : exactStopping m.acceleration (1000000 / m.maxSpeed) ≤ 1000 := by
    have hform : exactStopping m.acceleration (1000000 / m.maxSpeed) =
        m.maxSpeed ^ 2 / (2 * m.acceleration) := by
      rw [exactStopping]
      field_simp
      norm_num
    rw [hform, div_le_iff₀ (by positivity)]
    linarith
  unfold SlowEnough
  norm_num
  linarith

/-- The first step from rest. -/
lemma SpeedingUp.start (hm : m.Tuned) (hrest : m.Rests) (hgo : m.distance ≠ 0)
    (hreach : m.Reaches m.distanceToGo) :
    m.computeNewSpeed.Running ∧ SpeedingUp 2000 m.computeNewSpeed := by
  have hindex : ({ m with n := m.toStepGenerator.adjustedN m.stepsToStop } : SpeedProfile) = m := by
    have hzero : m.toStepGenerator.adjustedN m.stepsToStop = m.n := by
      simp [StepGenerator.adjustedN, toStepGenerator, hrest.n_eq]
    rw [hzero]
  rw [computeNewSpeed_of_distance hgo, hindex]
  have hcn : m.nextCn = m.c0 := if_pos hrest.n_eq
  have honramp : OnRamp m.acceleration m.c0 0 := hm.c0_eq ▸ onRamp_firstInterval hm.acceleration_pos
  refine ⟨hm.running_advance, ?_, ?_, .inl ?_, .inl ⟨0, ?_, Nat.zero_le _, ?_⟩, ?_⟩
  · change 1 ≤ m.n + 1
    rw [hrest.n_eq]
    rfl
  · have hhigh := (ramp_bounds honramp (by omega) hm.acceleration_pos hm.c0_pos).2
    have hstop := (within_stoppingDistance hm.acceleration_pos hm.c0_pos).2
    have hdistance : (0 : ℚ) ≤ m.distance := Nat.cast_nonneg _
    change m.advance.stopping < (m.distance : ℚ) + 1
    rw [stopping_advance, hcn]
    push_cast at hhigh
    linarith
  · change m.n + 1 = 1
    rw [hrest.n_eq]
    rfl
  · change m.n + 1 = _
    rw [hrest.n_eq]
    rfl
  · change OnRamp m.acceleration m.nextCn 0
    rw [hcn]
    exact honramp
  · rcases hreach with h | h
    · right
      change m.n + 1 + (m.distance : ℤ) ≤ _
      have hdistance : (m.distance : ℤ) = |m.distanceToGo| := Int.natCast_natAbs _
      rw [hrest.n_eq, hdistance]
      push_cast
      omega
    · exact .inl (hm.slowEnough h)

/-- **A new target** starts the motor on its way. -/
theorem Standing.moveTo (hm : m.Standing) {absolute : ℤ}
    (hreach : m.Reaches (absolute - m.currentPos)) :
    OnCourse 2000 (m.moveTo absolute) ∧ (m.moveTo absolute).settings = m.settings ∧
      (m.moveTo absolute).currentPos = m.currentPos ∧
      (m.moveTo absolute).distanceToGo = absolute - m.currentPos := by
  have hstand : m.targetPos = m.currentPos := sub_eq_zero.mp hm.distanceToGo_eq
  by_cases hsame : m.targetPos = absolute
  · -- nothing to do
    have hzero : m.distance = 0 := Int.natAbs_eq_zero.mpr hm.distanceToGo_eq
    rw [SpeedProfile.moveTo, if_pos hsame]
    refine ⟨⟨hm.toValid, fun h => absurd hm.distanceToGo_eq h, .inl ⟨hzero, hm.toRests⟩⟩, rfl, rfl,
      ?_⟩
    rw [← hsame]
    rfl
  have htuned : ({ m with targetPos := absolute } : SpeedProfile).Tuned :=
    hm.toTuned.of_settings rfl
  have hgo : ({ m with targetPos := absolute } : SpeedProfile).distance ≠ 0 := by
    intro h
    have := Int.natAbs_eq_zero.mp h
    simp only [toStepGenerator, AccelStepper.distanceToGo] at this
    omega
  have happroaching : (m.moveTo absolute).toStepGenerator.Approaching := by
    rw [toStepGenerator_moveTo hm.toTuned]
    exact StepGenerator.approaching_moveTo_of_rest hm.n_eq hsame _
  rw [SpeedProfile.moveTo, if_neg hsame] at happroaching ⊢
  have hcounters := toAccelStepper_computeNewSpeed htuned
  have hrest : ({ m with targetPos := absolute } : SpeedProfile).Rests := ⟨hm.speed_eq, hm.n_eq⟩
  obtain ⟨hrunning, hup⟩ := SpeedingUp.start htuned hrest hgo hreach
  refine ⟨⟨htuned.valid_computeNewSpeed, happroaching, .inr ⟨?_, hrunning, .inl hup⟩⟩,
    settings_computeNewSpeed _, ?_, ?_⟩
  · rw [distance_computeNewSpeed htuned]
    exact hgo
  · rw [hcounters]
  · simp only [AccelStepper.distanceToGo, hcounters]

/-- **A command** starts the motor on its way. -/
lemma Standing.move (hm : m.Standing) {relative : ℤ} (hreach : m.Reaches relative) :
    OnCourse 2000 (m.move relative) ∧ (m.move relative).settings = m.settings ∧
      (m.move relative).currentPos = m.currentPos ∧ (m.move relative).distanceToGo = relative := by
  have hrelative : m.currentPos + relative - m.currentPos = relative := by omega
  have hmove := hm.moveTo (hrelative.symm ▸ hreach)
  rwa [hrelative] at hmove

/-- At its target a motor on course stands. -/
lemma OnCourse.standing (hm : OnCourse way m) (hzero : m.distanceToGo = 0) : m.Standing := by
  obtain ⟨-, hrest⟩ | ⟨hgo, -⟩ := hm.phase
  · exact ⟨hm.toValid, hrest, hzero⟩
  · exact absurd (Int.natAbs_eq_zero.mpr hzero) hgo

/-- **A whole move.**  A motor that stands and is given a target steps through consecutive positions
towards it, one for each step less to go, and at the target it stands again. -/
theorem move_run {relative : ℤ} {times : List (BitVec 32)} (hm : m.Standing)
    (hreach : m.Reaches relative) (hrun : StepRuns.run poll (m.move relative) times = some t) :
    (∃ k, (m.move relative).trace times = consecutive m.currentPos relative.sign k ∧
      k + t.distanceToGo.natAbs = relative.natAbs) ∧ (t.distanceToGo = 0 → t.Standing) := by
  obtain ⟨hcourse, -, hcurrent, hgo⟩ := hm.move hreach
  obtain ⟨ht, -, -, k, hk, -, hkd⟩ := hcourse.of_run (by norm_num) hrun
  refine ⟨⟨k, ?_, ?_⟩, ht.standing⟩
  · rw [hcurrent, hgo] at hk
    exact hk
  · change k + t.distanceToGo.natAbs = (m.move relative).distanceToGo.natAbs at hkd
    rwa [hgo] at hkd

/-- Two steps from the start. -/
theorem move_run_two : ∃ t, StepRuns.run poll (boot.move 2) [20000#32, 40000#32] = some t ∧
    (boot.move 2).trace [20000#32, 40000#32] = [1, 2] ∧ t.Standing := by
  have heval : ((StepRuns.run poll (boot.move 2) [20000#32, 40000#32]).any fun t =>
      t.distanceToGo = 0 ∧ (boot.move 2).trace [20000#32, 40000#32] = [1, 2]) = true := by
    decide +kernel
  obtain ⟨t, hrun, hgo, htrace⟩ := StepRuns.exists_run_of_any heval
  exact ⟨t, hrun, htrace, (move_run standing_boot.1 (.inl (by decide)) hrun).2 hgo⟩

/-! ## Stopping -/

/-- A longer way. -/
lemma SpeedingUp.mono {way' : ℕ} (hm : SpeedingUp way m) (h : way ≤ way') : SpeedingUp way' m :=
  { hm with short := hm.short.imp id fun hle => by omega }

/-- **`stop()` before the motor brakes** sets a target that it can reach. -/
theorem OnCourse.stop (hm : OnCourse way m) (hn : 0 < m.n) (hgo : m.distance ≠ 0)
    (hway : way + 2 ≤ 2 * rampLimit) :
    OnCourse (way + 2) m.stop ∧ m.stop.currentPos = m.currentPos ∧
      m.stop.distanceToGo = m.distanceToGo.sign * (m.stepsToStop + 1) := by
  obtain ⟨hzero, -⟩ | ⟨-, hrun, hphase⟩ := hm.phase
  · exact absurd hzero hgo
  obtain hup | ⟨k, hdown⟩ := hphase
  swap
  · have := hdown.n_eq
    omega
  have hmoving : m.toStepGenerator.moving = true := by
    refine decide_eq_true ?_
    rw [hrun.speed_eq]
    have hpos := speedOf_pos hrun.cn_pos
    split
    · exact hpos.ne'
    · exact neg_ne_zero.mpr hpos.ne'
  have hgo' : m.distanceToGo ≠ 0 := fun h => hgo (Int.natAbs_eq_zero.mpr h)
  have hdirection : m.toStepGenerator.direction = m.distanceToGo.sign := by
    have h : m.clockwise = true ↔ 0 < m.distanceToGo := hm.approaching hgo'
    change (if m.clockwise = true then (1 : ℤ) else -1) = _
    rcases lt_or_gt_of_ne hgo' with hneg | hpos
    · rw [if_neg (mt h.mp hneg.not_gt), Int.sign_eq_neg_one_of_neg hneg]
    · rw [if_pos (h.mpr hpos), Int.sign_eq_one_of_pos hpos]
  have hview := toStepGenerator_stop hm.toValid
  have hdistanceToGo : m.stop.distanceToGo = m.distanceToGo.sign * (m.stepsToStop + 1) := by
    have h := StepGenerator.distanceToGo_stop hmoving m.stepsToStop
    rw [← hview, hdirection] at h
    exact h
  have hdistance : m.stop.distance = m.stepsToStop + 1 := by
    have h := StepGenerator.distance_stop hmoving m.stepsToStop
    rwa [← hview] at h
  have hcurrent : m.stop.currentPos = m.currentPos := by
    have h := congrArg (fun g : StepGenerator => g.toAccelStepper.currentPos) hview
    rw [StepGenerator.toAccelStepper_stop hmoving] at h
    simp only [AccelStepper.stop] at h
    split at h <;> exact h
  have happroaching : m.stop.toStepGenerator.Approaching := by
    rw [hview]
    exact StepGenerator.approaching_stop hmoving _
  refine ⟨⟨hm.toValid.stop, happroaching, .inr ⟨by omega, ?_⟩⟩, hcurrent, hdistanceToGo⟩
  -- the new target, whichever way the motor runs
  obtain ⟨absolute, habsolute⟩ : ∃ absolute, m.stop = m.moveTo absolute := by
    unfold SpeedProfile.stop
    rw [if_pos (of_decide_eq_true hmoving)]
    split <;> exact ⟨_, rfl⟩
  rw [habsolute] at hdistance hdistanceToGo ⊢
  by_cases hsame : m.targetPos = absolute
  · rw [SpeedProfile.moveTo, if_pos hsame]
    exact ⟨hrun, .inl (hup.mono (by omega))⟩
  rw [SpeedProfile.moveTo, if_neg hsame] at hdistance hdistanceToGo ⊢
  set m' : SpeedProfile := { m with targetPos := absolute } with hm'
  have hrun' : m'.Running :=
    ⟨⟨hrun.toTuned.of_settings rfl, hrun.stepInterval_eq, hrun.speed_pos_iff⟩, hrun.cn_pos,
      hrun.speed_eq, hrun.stepInterval_cn⟩
  rw [distance_computeNewSpeed hrun'.toTuned] at hdistance
  rw [toAccelStepper_computeNewSpeed hrun'.toTuned] at hdistanceToGo
  have happroaching' : m'.toStepGenerator.Approaching := by
    intro _
    have h : m.clockwise = true ↔ 0 < m.distanceToGo := hm.approaching hgo'
    change m.clockwise = true ↔ 0 < m'.distanceToGo
    rw [h, hdistanceToGo]
    rcases lt_or_gt_of_ne hgo' with hneg | hpos
    · rw [Int.sign_eq_neg_one_of_neg hneg]
      omega
    · rw [Int.sign_eq_one_of_pos hpos]
      omega
  have hgo'' : m'.distance ≠ 0 := by omega
  have hfloor : m.stopping < m.stepsToStop + 1 := by
    rw [hrun.stepsToStop_eq]
    exact Nat.lt_floor_add_one _
  have hfit : m.stepsToStop ≤ m.distance := by
    have hlt : m.stopping < ((m.distance + 1 : ℕ) : ℚ) := by
      push_cast
      exact hup.stopping_lt
    rw [hrun.stepsToStop_eq]
    exact Nat.lt_succ_iff.mp ((Nat.floor_lt hrun.stopping_pos.le).mpr hlt)
  refine ⟨?_, SpeedingUp.computeNewSpeed hrun' happroaching' hgo'' hup.one_le_n ?_ hup.cmin_le
    hup.ramp ?_ hway⟩
  · rw [computeNewSpeed_of_distance hgo'']
    exact (hrun'.withN _).toTuned.running_advance
  · rw [hdistance]
    push_cast
    change m.stopping < _
    linarith
  · refine hup.short.imp id fun hle => ?_
    change m.n + 1 + (m'.distance : ℤ) ≤ _
    rw [hdistance]
    push_cast
    omega

/-- **A stop.**  A move that is stopped before the motor brakes goes on for one step more than the
stopping distance, in the same direction, and there the motor stands. -/
theorem stop_run {s : SpeedProfile} {relative : ℤ} {times times' : List (BitVec 32)}
    (hm : m.Standing) (hreach : m.Reaches relative)
    (hrun : StepRuns.run poll (m.move relative) times = some s) (hgo : s.distanceToGo ≠ 0)
    (hn : 0 < s.n) (hrun' : StepRuns.run poll s.stop times' = some t) :
    (∃ k, s.stop.trace times' = consecutive s.currentPos relative.sign k ∧
      k + t.distanceToGo.natAbs = s.stepsToStop + 1) ∧ (t.distanceToGo = 0 → t.Standing) := by
  obtain ⟨hcourse, -, hcurrent, hway⟩ := hm.move hreach
  obtain ⟨hs, -, htarget, j, -, hposition, hj⟩ := hcourse.of_run (by norm_num) hrun
  have hdistance : s.distance ≠ 0 := fun h => hgo (Int.natAbs_eq_zero.mp h)
  -- the way that is left has the sign of the whole way
  have hsign : s.distanceToGo.sign = relative.sign := by
    have hleft : s.distanceToGo = relative - relative.sign * j := by
      rw [hway] at hposition
      have := hway
      simp only [AccelStepper.distanceToGo] at this ⊢
      rw [hposition, htarget]
      omega
    have hlt : j < relative.natAbs := by
      change j + s.distance = (m.move relative).distanceToGo.natAbs at hj
      rw [hway] at hj
      omega
    rw [hleft]
    rcases lt_trichotomy relative 0 with h | rfl | h
    · rw [Int.sign_eq_neg_one_of_neg h]
      exact Int.sign_eq_neg_one_of_neg (by omega)
    · simp at hlt
    · rw [Int.sign_eq_one_of_pos h]
      exact Int.sign_eq_one_of_pos (by omega)
  obtain ⟨hstop, hcurrent', hgo'⟩ := hs.stop hn hdistance (by norm_num)
  obtain ⟨ht, -, -, k, hk, -, hkd⟩ := hstop.of_run (by norm_num) hrun'
  have hahead : (s.distanceToGo.sign * ((s.stepsToStop : ℤ) + 1)).sign = relative.sign := by
    rw [Int.sign_mul, Int.sign_eq_one_of_pos (by omega : (0 : ℤ) < s.stepsToStop + 1), mul_one,
      Int.sign_sign, hsign]
  refine ⟨⟨k, ?_, ?_⟩, ht.standing⟩
  · rw [hk, hcurrent', hgo', hahead]
  · change k + t.distanceToGo.natAbs = s.stop.distanceToGo.natAbs at hkd
    rw [hkd, hgo', Int.natAbs_mul, Int.natAbs_sign_of_ne_zero hgo, one_mul]
    omega

/-- A move of a hundred steps, stopped after three. -/
theorem stop_run_three : ∃ s t,
    StepRuns.run poll (boot.move 100) [20000#32, 40000#32, 60000#32] = some s ∧
      StepRuns.run poll s.stop [80000#32, 100000#32, 120000#32, 140000#32] = some t ∧
        t.currentPos = 7 ∧ t.Standing := by
  have heval : ((StepRuns.run poll (boot.move 100) [20000#32, 40000#32, 60000#32]).any fun s =>
      (s.distanceToGo ≠ 0 ∧ 0 < s.n) ∧
        ((StepRuns.run poll s.stop [80000#32, 100000#32, 120000#32, 140000#32]).any fun t =>
          t.distanceToGo = 0 ∧ t.currentPos = 7) = true) = true := by
    decide +kernel
  obtain ⟨s, hrun, ⟨hgo, hn⟩, hany⟩ := StepRuns.exists_run_of_any heval
  obtain ⟨t, hrun', hgo', hposition⟩ := StepRuns.exists_run_of_any hany
  exact ⟨s, t, hrun, hrun', hposition,
    (stop_run standing_boot.1 (.inl (by decide)) hrun hgo hn hrun').2 hgo'⟩

/-! ## The clock -/

/-- Settings with which the intervals are whole numbers of microseconds that fit the clock. -/
structure Timed (m : SpeedProfile) : Prop where
  one_le_maxSpeed : 1 ≤ m.maxSpeed
  maxSpeed_le : m.maxSpeed ≤ 10 ^ 6
  one_le_acceleration : 1 ≤ m.acceleration
  acceleration_le : m.acceleration ≤ 2 ^ 31

/-- The shortest interval is between one microsecond and two seconds. -/
lemma Tuned.cmin_bounds (hm : m.Tuned) (htimed : m.Timed) : 1 ≤ m.cmin ∧ m.cmin ≤ 2 * 10 ^ 6 := by
  have hv := hm.maxSpeed_pos
  have hexact : 1 ≤ 1000000 / m.maxSpeed := by
    rw [le_div_iff₀ hv]
    linarith [htimed.maxSpeed_le]
  have hone : ∀ p, 1 ≤ p → Representable p 1 := fun p hp =>
    ⟨1, 0, by simpa using one_lt_pow₀ (one_lt_two (α := ℤ)) (by omega : p ≠ 0), by norm_num⟩
  rw [hm.cmin_eq]
  constructor
  · exact le_roundTo (by norm_num) one_pos
      (le_roundTo (by norm_num) one_pos hexact (hone 53 (by norm_num))) (hone 24 (by norm_num))
  · have hle := (within_speedOf hv).2
    have hexact' : 1000000 / m.maxSpeed ≤ 10 ^ 6 := by
      rw [div_le_iff₀ hv]
      linarith [htimed.one_le_maxSpeed]
    refine hle.trans ?_
    linarith

/-- The interval of a motor on its way. -/
lemma OnCourse.cn_bounds (hm : OnCourse way m) (htimed : m.Timed) (hgo : m.distance ≠ 0) :
    1 ≤ m.cn ∧ m.cn ≤ 2 * 10 ^ 6 ∧ (m.n = 1 ∨ m.cmin ≤ m.cn) := by
  obtain ⟨hzero, -⟩ | ⟨-, hrun, hphase⟩ := hm.phase
  · exact absurd hzero hgo
  have ha := hrun.acceleration_pos
  have hcn := hrun.cn_pos
  obtain ⟨hcmin, hcmin'⟩ := hrun.cmin_bounds htimed
  obtain ⟨hlow, hhigh⟩ := within_stoppingDistance ha hcn
  -- a stopping distance that is not too short is an interval that is not too long
  have hlong : 3 / 10 ≤ exactStopping m.acceleration m.cn → m.cn ≤ 2 * 10 ^ 6 := by
    intro h
    rw [exactStopping, le_div_iff₀ (by positivity)] at h
    by_contra hgt
    rw [not_le] at hgt
    have hsquare : (2 * 10 ^ 6) ^ 2 < m.cn ^ 2 := pow_lt_pow_left₀ hgt (by norm_num) two_ne_zero
    nlinarith [htimed.one_le_acceleration]
  obtain hup | ⟨k, hdown⟩ := hphase
  · rcases hup.ramp with ⟨k, hk, hlimit, honramp⟩ | ⟨hcruise, -⟩
    · obtain ⟨hramp, hramp'⟩ := ramp_bounds honramp (by omega) ha hcn
      have hpositive : 3 / 10 ≤ exactStopping m.acceleration m.cn := by
        obtain ⟨h, -⟩ := honramp
        have hratio := le_squaredRatio k
        have hk0 : (0 : ℚ) ≤ k := Nat.cast_nonneg k
        have hlimit' : (k : ℚ) ≤ 1005 := by exact_mod_cast hlimit
        have hhalf : 1 / 2 ≤ squaredRatio k / (4 * 0.676 ^ 2) := by
          rw [le_div_iff₀ (by norm_num)]
          linarith
        have herror : ((k : ℚ) + 1) * (11923 / 10 ^ 11) ≤ 1 / 10 := by linarith
        nlinarith
      refine ⟨?_, hlong hpositive, hup.cmin_le⟩
      rcases hup.cmin_le with h1 | h
      · obtain rfl : k = 0 := by omega
        rw [Nat.cast_zero, zero_add] at hramp'
        have hshort : exactStopping m.acceleration m.cn < 1 := by linarith
        rw [exactStopping, div_lt_one (by positivity)] at hshort
        by_contra hlt
        rw [not_le] at hlt
        have hsquare : m.cn ^ 2 < 1 := pow_lt_one₀ hcn.le hlt two_ne_zero
        nlinarith [htimed.acceleration_le]
      · exact hcmin.trans h
    · exact ⟨hcruise ▸ hcmin, hcruise ▸ hcmin', .inr hcruise.ge⟩
  · have hthird := hdown.third_le_stopping
    change _ ≤ stoppingDistance (speedOf m.cn) m.acceleration at hthird
    refine ⟨hcmin.trans hdown.cmin_le, hlong ?_, .inr hdown.cmin_le⟩
    linarith

/-- The waiting time of a motor on its way. -/
lemma OnCourse.stepInterval_bounds (hm : OnCourse way m) (htimed : m.Timed) (hgo : m.distance ≠ 0) :
    1 ≤ m.stepInterval ∧ m.stepInterval ≤ 2 * 10 ^ 6 := by
  obtain ⟨hlow, hhigh, -⟩ := hm.cn_bounds htimed hgo
  obtain ⟨hzero, -⟩ | ⟨-, hrun, -⟩ := hm.phase
  · exact absurd hzero hgo
  rw [hrun.stepInterval_cn]
  refine ⟨(Nat.one_le_floor_iff _).mpr hlow, ?_⟩
  have hfloor := Nat.floor_mono hhigh
  have hvalue : ⌊(2 * 10 ^ 6 : ℚ)⌋₊ = 2 * 10 ^ 6 := by
    rw [Nat.floor_eq_iff (by norm_num)]
    norm_num
  rwa [hvalue] at hfloor

/-- When the waiting time has passed, the step is due. -/
lemma OnCourse.due_of_passed (hm : OnCourse way m) (htimed : m.Timed) (hgo : m.distance ≠ 0)
    {time : BitVec 32} (h : m.stepInterval ≤ (time - m.lastStepTime).toNat) :
    m.due time = true := by
  have hpos := (hm.stepInterval_bounds htimed hgo).1
  rw [due, decide_eq_true (by omega), decide_eq_true h]
  rfl

/-- The speed of a motor on its way is the maximum speed at most, up to rounding; only the first
step may be made faster. -/
lemma OnCourse.abs_speed_le (hm : OnCourse way m) (htimed : m.Timed) (hgo : m.distance ≠ 0) :
    m.n = 1 ∨ |m.speed| ≤ (1 + 12 / 10 ^ 8) * m.maxSpeed := by
  obtain ⟨hone, -, hcmin⟩ := hm.cn_bounds htimed hgo
  obtain ⟨hzero, -⟩ | ⟨-, hrun, -⟩ := hm.phase
  · exact absurd hzero hgo
  refine hcmin.imp id fun hle => ?_
  have hv := hrun.maxSpeed_pos
  have habs : |m.speed| = speedOf m.cn := by
    have hpos := speedOf_pos hrun.cn_pos
    rw [hrun.speed_eq]
    split
    · exact abs_of_pos hpos
    · rw [abs_neg, abs_of_pos hpos]
  have hcmin' : Within (59605 / 10 ^ 12) m.cmin (1000000 / m.maxSpeed) :=
    hrun.cmin_eq ▸ within_speedOf hv
  have hexact : 1000000 / m.cn ≤ m.maxSpeed / (1 - 59605 / 10 ^ 12) := by
    rw [div_le_div_iff₀ hrun.cn_pos (by norm_num)]
    have h := hcmin'.1.trans hle
    rw [← mul_div_assoc, div_le_iff₀ hv] at h
    linarith
  rw [habs]
  calc
    speedOf m.cn ≤ (1 + 59605 / 10 ^ 12) * (1000000 / m.cn) := (within_speedOf hrun.cn_pos).2
    _ ≤ (1 + 59605 / 10 ^ 12) * (m.maxSpeed / (1 - 59605 / 10 ^ 12)) :=
      mul_le_mul_of_nonneg_left hexact (by norm_num)
    _ = (1 + 59605 / 10 ^ 12) / (1 - 59605 / 10 ^ 12) * m.maxSpeed := by ring
    _ ≤ (1 + 12 / 10 ^ 8) * m.maxSpeed := mul_le_mul_of_nonneg_right (by norm_num) hv.le

/-- The settings decide on the times. -/
lemma Timed.of_settings (hm : m.Timed) (h : t.settings = m.settings) : t.Timed := by
  simp only [settings, Prod.mk.injEq] at h
  obtain ⟨h₁, h₂, -⟩ := h
  exact ⟨h₂ ▸ hm.1, h₂ ▸ hm.2, h₁ ▸ hm.3, h₁ ▸ hm.4⟩

/-- A motor on course can finish, by one step for each call. -/
lemma OnCourse.exists_run (hm : OnCourse way m) (hway : way ≤ 2 * rampLimit) (htimed : m.Timed) :
    ∃ times t, times.length = m.distance ∧ StepRuns.run poll m times = some t ∧ t.Standing := by
  induction hk : m.distance generalizing m with
  | zero => exact ⟨[], m, rfl, rfl, hm.standing (Int.natAbs_eq_zero.mp hk)⟩
  | succ k ih =>
    have hgo : m.distance ≠ 0 := by omega
    obtain ⟨-, hhigh⟩ := hm.stepInterval_bounds htimed hgo
    set time := m.lastStepTime + BitVec.ofNat 32 m.stepInterval with htime
    have hdue : m.due time = true := by
      refine hm.due_of_passed htimed hgo ?_
      have hpassed : time - m.lastStepTime = BitVec.ofNat 32 m.stepInterval := by
        rw [htime, BitVec.add_comm, BitVec.add_sub_cancel]
      rw [hpassed, BitVec.toNat_ofNat, Nat.mod_eq_of_lt (by omega)]
    obtain ⟨hcourse, hdistance⟩ := hm.makeStep hway hgo time
    obtain ⟨times, t, hlength, hrun, ht⟩ := ih hcourse
      (htimed.of_settings (settings_computeNewSpeed _)) (by omega)
    refine ⟨time :: times, t, by simp [hlength], ?_, ht⟩
    refine StepRuns.run_cons_eq_some_iff.mpr ⟨_, poll_eq_some_iff.mpr ⟨hgo, ?_⟩, hrun⟩
    rw [SpeedProfile.run, if_pos hdue]

/-- **The timing of a move.**  In every state that a move comes through short of its target, the
next step is due after one microsecond at the earliest and two seconds at the latest; the speed is
the maximum speed at most, up to rounding, unless it is that of the first step; and the loop can
finish with exactly the steps that are left. -/
theorem move_timing {relative : ℤ} {times : List (BitVec 32)} (hm : m.Standing)
    (hreach : m.Reaches relative) (htimed : m.Timed)
    (hrun : StepRuns.run poll (m.move relative) times = some t) (hgo : t.distanceToGo ≠ 0) :
    (1 ≤ t.stepInterval ∧ t.stepInterval ≤ 2 * 10 ^ 6 ∧
      ∀ time, t.due time = true ↔ t.stepInterval ≤ (time - t.lastStepTime).toNat) ∧
    (t.n = 1 ∨ |t.speed| ≤ (1 + 12 / 10 ^ 8) * m.maxSpeed) ∧
    ∃ rest u, rest.length = t.distanceToGo.natAbs ∧ StepRuns.run poll t rest = some u ∧
      u.Standing := by
  obtain ⟨hcourse, hsettings, -⟩ := hm.move hreach
  obtain ⟨ht, hsettings', -⟩ := hcourse.of_run (by norm_num) hrun
  have htimed' := htimed.of_settings (hsettings'.trans hsettings)
  have hdistance : t.distance ≠ 0 := fun h => hgo (Int.natAbs_eq_zero.mp h)
  obtain ⟨hlow, hhigh⟩ := ht.stepInterval_bounds htimed' hdistance
  refine ⟨⟨hlow, hhigh, fun time => ⟨fun h => ?_, ht.due_of_passed htimed' hdistance⟩⟩, ?_,
    ht.exists_run (by norm_num) htimed'⟩
  · simp only [due, Bool.and_eq_true, decide_eq_true_eq] at h
    exact h.2
  · have hmax : t.maxSpeed = m.maxSpeed := by
      have h := hsettings'.trans hsettings
      simp only [settings, Prod.mk.injEq] at h
      exact h.2.1
    rw [← hmax]
    exact ht.abs_speed_le htimed' hdistance

/-- The settings of the start are in range. -/
theorem move_timing_three : ∃ t,
    StepRuns.run poll (boot.move 100) [20000#32, 40000#32, 60000#32] = some t ∧
      t.stepInterval ≤ 2 * 10 ^ 6 := by
  have heval : ((StepRuns.run poll (boot.move 100) [20000#32, 40000#32, 60000#32]).any fun t =>
      t.distanceToGo ≠ 0) = true := by
    decide +kernel
  obtain ⟨t, hrun, hgo⟩ := StepRuns.exists_run_of_any heval
  obtain ⟨hstanding, hmaxSpeed, hacceleration, -⟩ := standing_boot
  have htimed : boot.Timed := by
    constructor <;> simp only [hmaxSpeed, hacceleration] <;> norm_num
  exact ⟨t, hrun, (move_timing hstanding (.inl (by decide)) htimed hrun hgo).1.2.1⟩

end SpeedProfile

end Strand
