import StrandFirmware.StopRecord

/-!
# The step generator of the motor library

`AccelStepper` makes its steps along a speed profile.  The motion loop is modelled without it: there
`run()` moves the counter by an input.  Here the integer part of the profile is added, the step
index `_n`, the direction, and whether the motor moves at all.  The speed itself is a float; it is
only ever compared with the distance through the stopping distance `stepsToStop`, which is an input
of each call that computes it.

Each operation does to the counter and the target what the motion loop takes it to do
(`toAccelStepper_run`, `toAccelStepper_stop`).  From rest, and after `stop`, the motor runs towards
its target, and then every step is one step less to go (`Approaching.run`).
-/

namespace Strand

/-- The fields of `AccelStepper` that decide on its steps, without the floats. -/
structure StepGenerator extends AccelStepper where
  /-- `_n`: the index of the step in the speed profile, negative while braking. -/
  n : ℤ
  /-- `_direction` is `DIRECTION_CW`. -/
  clockwise : Bool
  /-- `_speed` is not zero.  Its sign is that of `_direction`, and without speed there is no
  `_stepInterval`. -/
  moving : Bool
deriving DecidableEq

namespace StepGenerator

/-! ## The operations -/

/-- `_n` after the first half of `computeNewSpeed`: an accelerating motor that is too close to its
target, or runs away from it, starts to brake; a braking one that has room again accelerates. -/
def adjustedN (m : StepGenerator) (stepsToStop : ℕ) : ℤ :=
  let distanceTo := m.distanceToGo
  if 0 < distanceTo then
    if 0 < m.n then
      if distanceTo ≤ stepsToStop ∨ m.clockwise = false then -stepsToStop else m.n
    else if m.n < 0 then
      if stepsToStop < distanceTo ∧ m.clockwise = true then -m.n else m.n
    else m.n
  else if distanceTo < 0 then
    if 0 < m.n then
      if -distanceTo ≤ stepsToStop ∨ m.clockwise = true then -stepsToStop else m.n
    else if m.n < 0 then
      if stepsToStop < -distanceTo ∧ m.clockwise = false then -m.n else m.n
    else m.n
  else m.n

/-- `AccelStepper::computeNewSpeed`.  The first step from stopped chooses the direction. -/
def computeNewSpeed (m : StepGenerator) (stepsToStop : ℕ) : StepGenerator :=
  if m.distanceToGo = 0 ∧ stepsToStop ≤ 1 then { m with n := 0, moving := false }
  else
    { m with
      n := m.adjustedN stepsToStop + 1
      clockwise :=
        if m.adjustedN stepsToStop = 0 then decide (0 < m.distanceToGo) else m.clockwise
      moving := true }

/-- `AccelStepper::moveTo`. -/
def moveTo (m : StepGenerator) (absolute : ℤ) (stepsToStop : ℕ) : StepGenerator :=
  if m.targetPos = absolute then m
  else computeNewSpeed { m with targetPos := absolute } stepsToStop

/-- `AccelStepper::move`. -/
def move (m : StepGenerator) (relative : ℤ) (stepsToStop : ℕ) : StepGenerator :=
  m.moveTo (m.currentPos + relative) stepsToStop

/-- `AccelStepper::setCurrentPosition`. -/
def setCurrentPosition (m : StepGenerator) (position : ℤ) : StepGenerator :=
  { m with currentPos := position, targetPos := position, n := 0, moving := false }

/-- `AccelStepper::stop`: the new target is one step more than the stopping distance away. -/
def stop (m : StepGenerator) (stepsToStop : ℕ) : StepGenerator :=
  if m.moving then
    if m.clockwise then m.move (stepsToStop + 1) stepsToStop
    else m.move (-(stepsToStop + 1)) stepsToStop
  else m

/-- The steps that a call of `runSpeed` makes: one, if the motor moves and the next step is due. -/
def steps (m : StepGenerator) (due : Bool) : ℕ := if m.moving ∧ due then 1 else 0

/-- How far a call of `runSpeed` moves the counter. -/
def runSpeed (m : StepGenerator) (due : Bool) : ℤ :=
  if m.clockwise then m.steps due else -(m.steps due)

/-- `AccelStepper::run`; `stepsToStop` is read after the step. -/
def run (m : StepGenerator) (due : Bool) (stepsToStop : ℕ) : StepGenerator :=
  if m.moving ∧ due then
    computeNewSpeed { m with currentPos := m.currentPos + m.runSpeed due } stepsToStop
  else m

/-- What `run()` returns: the motor has not come to rest at its target. -/
def isRunning (m : StepGenerator) : Bool := m.moving || decide (m.distanceToGo ≠ 0)

/-- `AccelStepper::setMaxSpeed`: nothing if the speed is the one that is set, else `_n` is set to
the stopping distance while the motor accelerates or cruises. -/
def setMaxSpeed (m : StepGenerator) : Option ℕ → StepGenerator
  | none => m
  | some stepsToStop =>
    if 0 < m.n then computeNewSpeed { m with n := stepsToStop } stepsToStop else m

/-- `AccelStepper::setAcceleration`: nothing if the acceleration is zero or the one that is set,
else `_n` is scaled. -/
def setAcceleration (m : StepGenerator) : Option (ℤ × ℕ) → StepGenerator
  | none => m
  | some (n, stepsToStop) => computeNewSpeed { m with n } stepsToStop

/-! ## The counter and the target -/

/-- A new speed changes neither the counter nor the target. -/
@[simp] lemma toAccelStepper_computeNewSpeed (m : StepGenerator) (k : ℕ) :
    (m.computeNewSpeed k).toAccelStepper = m.toAccelStepper := by
  unfold computeNewSpeed
  split <;> rfl

/-- A new target, for the counter and the target. -/
@[simp] lemma toAccelStepper_moveTo (m : StepGenerator) (absolute : ℤ) (k : ℕ) :
    (m.moveTo absolute k).toAccelStepper = m.toAccelStepper.moveTo absolute := by
  unfold moveTo AccelStepper.moveTo
  split
  next h => rw [← h]
  next => rw [toAccelStepper_computeNewSpeed]

/-- A relative move, for the counter and the target. -/
@[simp] lemma toAccelStepper_move (m : StepGenerator) (relative : ℤ) (k : ℕ) :
    (m.move relative k).toAccelStepper = m.toAccelStepper.move relative :=
  toAccelStepper_moveTo m _ k

/-- A new position, for the counter and the target. -/
@[simp] lemma toAccelStepper_setCurrentPosition (m : StepGenerator) (position : ℤ) :
    (m.setCurrentPosition position).toAccelStepper =
      m.toAccelStepper.setCurrentPosition position := rfl

/-- A change of the speed limit changes neither the counter nor the target. -/
@[simp] lemma toAccelStepper_setMaxSpeed (m : StepGenerator) (change : Option ℕ) :
    (m.setMaxSpeed change).toAccelStepper = m.toAccelStepper := by
  rcases change with _ | k
  · rfl
  · simp only [setMaxSpeed]
    split
    · rw [toAccelStepper_computeNewSpeed]
    · rfl

/-- A change of the acceleration changes neither the counter nor the target. -/
@[simp] lemma toAccelStepper_setAcceleration (m : StepGenerator) (change : Option (ℤ × ℕ)) :
    (m.setAcceleration change).toAccelStepper = m.toAccelStepper := by
  rcases change with _ | ⟨n, k⟩
  · rfl
  · exact toAccelStepper_computeNewSpeed _ k

/-- The sign of the direction. -/
def direction (m : StepGenerator) : ℤ := if m.clockwise then 1 else -1

/-- The direction is forward or backward. -/
lemma direction_eq (m : StepGenerator) : m.direction = 1 ∨ m.direction = -1 := by
  unfold direction
  split <;> simp

/-- **`stop` of a moving motor** is what the motion loop takes it to be. -/
theorem toAccelStepper_stop {m : StepGenerator} (hm : m.moving = true) (k : ℕ) :
    (m.stop k).toAccelStepper = m.toAccelStepper.stop m.direction (k + 1) := by
  unfold stop direction AccelStepper.stop
  rw [if_pos hm]
  split <;> simp

/-- **`run`** moves the counter by at most one step. -/
theorem toAccelStepper_run (m : StepGenerator) (due : Bool) (k : ℕ) :
    (m.run due k).toAccelStepper = m.toAccelStepper.run (m.runSpeed due) := by
  unfold run
  split
  next => rw [toAccelStepper_computeNewSpeed]; rfl
  next h =>
    have hzero : m.runSpeed due = 0 := by simp [runSpeed, steps, h]
    rw [hzero, AccelStepper.run, add_zero]

/-- A call of `runSpeed` makes at most one step. -/
lemma abs_runSpeed_le (m : StepGenerator) (due : Bool) : |m.runSpeed due| ≤ 1 := by
  unfold runSpeed steps
  split_ifs <;> simp

/-- Without speed no step is made. -/
lemma run_of_rest {m : StepGenerator} (hm : m.moving = false) (due : Bool) (k : ℕ) :
    m.run due k = m ∧ m.steps due = 0 ∧ m.runSpeed due = 0 := by
  simp [run, steps, runSpeed, hm]

/-- The motor has come to rest at its target when `run` returns false. -/
lemma isRunning_eq_false_iff {m : StepGenerator} :
    m.isRunning = false ↔ m.moving = false ∧ m.distanceToGo = 0 := by
  simp [isRunning]

/-- A motor that arrives with at most one step needed to stop has come to rest. -/
lemma moving_run_of_arrived {m : StepGenerator} (hm : m.distanceToGo = 0 → m.moving = false)
    {due : Bool} {k : ℕ} (harrive : (m.run due k).distanceToGo = 0) (hk : k ≤ 1) :
    (m.run due k).moving = false := by
  unfold run at harrive ⊢
  split at harrive
  next h =>
    rw [toAccelStepper_computeNewSpeed] at harrive
    rw [if_pos h, computeNewSpeed, if_pos ⟨harrive, hk⟩]
  next h =>
    rw [if_neg h]
    exact hm harrive

/-! ## Speed on the way to the target -/

/-- The motor has speed while it is not at its target. -/
def Sound (m : StepGenerator) : Prop := m.distanceToGo ≠ 0 → m.moving = true

/-- With a new speed it has. -/
lemma sound_computeNewSpeed (m : StepGenerator) (k : ℕ) : (m.computeNewSpeed k).Sound := by
  intro h
  rw [toAccelStepper_computeNewSpeed] at h
  unfold computeNewSpeed
  rw [if_neg fun hzero => h hzero.1]

/-- A new target computes a new speed. -/
lemma Sound.moveTo {m : StepGenerator} (hm : m.Sound) (absolute : ℤ) (k : ℕ) :
    (m.moveTo absolute k).Sound := by
  unfold StepGenerator.moveTo
  split
  · exact hm
  · exact sound_computeNewSpeed _ k

/-- So does `stop`, unless it does nothing. -/
lemma Sound.stop {m : StepGenerator} (hm : m.Sound) (k : ℕ) : (m.stop k).Sound := by
  unfold StepGenerator.stop
  split_ifs
  · exact hm.moveTo _ k
  · exact hm.moveTo _ k
  · exact hm

/-- Every step computes a new speed. -/
lemma Sound.run {m : StepGenerator} (hm : m.Sound) (due : Bool) (k : ℕ) : (m.run due k).Sound := by
  unfold StepGenerator.run
  split
  · exact sound_computeNewSpeed _ k
  · exact hm

/-- A change of the speed limit keeps the speed. -/
lemma Sound.setMaxSpeed {m : StepGenerator} (hm : m.Sound) (change : Option ℕ) :
    (m.setMaxSpeed change).Sound := by
  rcases change with _ | k
  · exact hm
  · simp only [StepGenerator.setMaxSpeed]
    split
    · exact sound_computeNewSpeed _ k
    · exact hm

/-- A change of the acceleration keeps the speed. -/
lemma Sound.setAcceleration {m : StepGenerator} (hm : m.Sound) (change : Option (ℤ × ℕ)) :
    (m.setAcceleration change).Sound := by
  rcases change with _ | ⟨n, k⟩
  · exact hm
  · exact sound_computeNewSpeed _ k

/-! ## The way to the target -/

/-- The steps to go. -/
def distance (m : StepGenerator) : ℕ := m.distanceToGo.natAbs

/-- A motor that is not at its target runs towards it. -/
def Approaching (m : StepGenerator) : Prop :=
  m.distanceToGo ≠ 0 → (m.clockwise = true ↔ 0 < m.distanceToGo)

/-- The direction is only ever changed towards the target. -/
lemma Approaching.computeNewSpeed {m : StepGenerator} (hm : m.Approaching) (k : ℕ) :
    (m.computeNewSpeed k).Approaching := by
  intro h
  rw [toAccelStepper_computeNewSpeed] at h ⊢
  unfold StepGenerator.computeNewSpeed
  rw [if_neg fun hzero => h hzero.1]
  dsimp only
  split
  · exact decide_eq_true_iff
  · exact hm h

/-- A motor at rest chooses the direction of its target. -/
lemma approaching_moveTo_of_rest {m : StepGenerator} (hn : m.n = 0) {absolute : ℤ}
    (hne : m.targetPos ≠ absolute) (k : ℕ) : (m.moveTo absolute k).Approaching := by
  intro h
  rw [toAccelStepper_moveTo] at h ⊢
  have hstopped : adjustedN { m with targetPos := absolute } k = 0 := by
    simp [adjustedN, hn]
  unfold moveTo computeNewSpeed
  rw [if_neg hne, if_neg fun hzero => h hzero.1, if_pos hstopped]
  exact decide_eq_true_iff

/-- The target that `stop` sets lies ahead, at the stopping distance. -/
lemma distanceToGo_stop {m : StepGenerator} (hm : m.moving = true) (k : ℕ) :
    (m.stop k).distanceToGo = m.direction * (k + 1) := by
  rw [toAccelStepper_stop hm]
  rcases m.direction_eq with h | h <;>
    simp [h, AccelStepper.stop, AccelStepper.move, AccelStepper.moveTo, AccelStepper.distanceToGo]

/-- The stopping distance is to go after `stop`. -/
lemma distance_stop {m : StepGenerator} (hm : m.moving = true) (k : ℕ) :
    (m.stop k).distance = k + 1 := by
  rw [distance, distanceToGo_stop hm]
  rcases m.direction_eq with h | h <;> rw [h] <;> omega

/-- **After `stop` the motor runs towards its target.** -/
theorem approaching_stop {m : StepGenerator} (hm : m.moving = true) (k : ℕ) :
    (m.stop k).Approaching := by
  have hahead : ∀ relative : ℤ, relative = m.direction * (k + 1) →
      (m.move relative k).Approaching := by
    intro relative hrelative
    have htoward : Approaching { m with targetPos := m.currentPos + relative } := by
      intro _
      have hgo : m.currentPos + relative - m.currentPos = m.direction * (k + 1) := by omega
      change m.clockwise = true ↔ 0 < m.currentPos + relative - m.currentPos
      rw [hgo, direction]
      split
      next h => simp [h]
      next h => simp [h]
    unfold move moveTo
    split
    next htarget =>
      have hsame : { m with targetPos := m.currentPos + relative } = m := by rw [← htarget]
      exact hsame ▸ htoward
    next => exact htoward.computeNewSpeed k
  unfold stop
  rw [if_pos hm]
  split
  next h => exact hahead _ (by simp [direction, h])
  next h => exact hahead _ (by simp [direction, h])

/-- **A step towards the target** is one step less to go. -/
theorem Approaching.run {m : StepGenerator} (hm : m.Approaching) (hgo : m.distanceToGo ≠ 0)
    (due : Bool) (k : ℕ) :
    (m.run due k).Approaching ∧ m.steps due + (m.run due k).distance = m.distance := by
  have hdirection := hm hgo
  unfold StepGenerator.run steps distance
  split
  next h =>
    rw [toAccelStepper_computeNewSpeed]
    have hmoved : m.runSpeed due = if m.clockwise then 1 else -1 := by simp [runSpeed, steps, h]
    constructor
    · refine Approaching.computeNewSpeed ?_ k
      intro hgo'
      simp only [AccelStepper.distanceToGo, hmoved] at hgo hgo' hdirection ⊢
      split at hgo' <;> simp_all <;> omega
    · simp only [AccelStepper.distanceToGo, hmoved] at hgo hdirection ⊢
      split <;> simp_all <;> omega
  next => exact ⟨hm, Nat.zero_add _⟩

end StepGenerator

end Strand
