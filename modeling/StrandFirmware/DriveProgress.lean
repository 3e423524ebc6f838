import StrandFirmware.DriveSettings

/-!
# The speed of the run loop

The library derives the interval between two steps from the maximum speed, so the run loop can
reach its target only if the maximum speed in force is positive.  Nothing on the way from a message
to `setMaxSpeed` checks it: the speeds of the types 0 and 1 are passed on as they come, and only the
branch for type 2 has bounds, 100 and 10000.

`SetsSpeed` says for one command, at a position, that the speed it sets is not zero if there is
anything to go; in a run of such commands the next command can finish exactly when it is such a
command too (`canFinish_iff`).  The bounds of the branch for type 2 are compared with two different
quantities; `timedSpeed_eq_clampedRate_iff` says where the speed is inside them nevertheless.
-/

namespace Strand

open Rounding Stepping

/-! ## Speeds that are not zero -/

namespace Drive

variable (platform : FloatValue → ℤ)

/-- If the run loop for the command `c` is entered, a positive maximum speed is in force. -/
def CanFinish (d : Drive) (c : StepperCommand) : Prop :=
  (d.beginCommand platform c).stepping.motor.distanceToGo ≠ 0 →
    0 < (d.beginCommand platform c).maxSpeed

/-- The speed of a timed command of `steps` steps does not fit into an `int` and is converted to one
all the same. -/
def Overflows (steps : ℤ) (c : StepperCommand) : Prop :=
  c.speed < 10000 ∧
    (c.time = 0 ∧ 0 < c.speed ∨ 2 ^ 31 ≤ (c.speed : ℚ) * |(steps : ℚ) / c.time|)

/-- The command, given at `position`, has nothing to go or a speed that is not zero.  A command of
type 2 fails only where its speed overflows and the platform makes zero of it. -/
def SetsSpeed (position : ℤ) (c : StepperCommand) : Prop :=
  c.Typed → displacement position c = 0 ∨
    if c.type = 2 then
      Overflows (displacement position c) c →
        platform (stepperSpeed (displacement position c) c) ≠ 0
    else c.speed ≠ 0

instance (steps : ℤ) (c : StepperCommand) : Decidable (Overflows steps c) :=
  inferInstanceAs (Decidable (_ ∧ _))

instance (position : ℤ) (c : StepperCommand) : Decidable (SetsSpeed platform position c) :=
  inferInstanceAs (Decidable (_ → _))

variable {platform}

/-- What is left of the speed of a timed command when its time is zero. -/
lemma stepperSpeed_of_time_zero {steps : ℤ} {c : StepperCommand} (hsteps : steps ≠ 0)
    (htime : c.time = 0) :
    stepperSpeed steps c =
      if c.speed = 0 then .nan else .infinite (decide (c.speed < 0)) := by
  have hsteps' : (steps : ℚ) ≠ 0 := Int.cast_ne_zero.mpr hsteps
  simp [stepperSpeed, htime, FloatValue.ofInt, FloatValue.div, FloatValue.abs, FloatValue.mul,
    hsteps']

/-- The speed of a timed command over exact rationals. -/
lemma stepperSpeed_of_time_ne_zero (steps : ℤ) {c : StepperCommand} (htime : c.time ≠ 0) :
    stepperSpeed steps c = .finite (c.speed * |(steps : ℚ) / c.time|) :=
  FloatValue.mul_abs_div_ofInt c.speed steps htime

/-- A rational from 100 on does not fit into an `int` exactly from `2 ^ 31` on. -/
lemma not_fitsInt_finite_iff {q : ℚ} (hq : 100 ≤ q) :
    ¬ (FloatValue.finite q).FitsInt ↔ 2 ^ 31 ≤ q := by
  have hfloor : (100 : ℤ) ≤ ⌊q⌋ := Int.le_floor.mpr (by exact_mod_cast hq)
  have hbound : (2 ^ 31 : ℤ) ≤ ⌊q⌋ ↔ (2 ^ 31 : ℚ) ≤ q := by
    rw [Int.le_floor]
    norm_cast
  rw [← hbound]
  simp only [FloatValue.FitsInt, truncate_of_nonneg (show (0 : ℚ) ≤ q by linarith)]
  omega

/-- The conversion is left to the platform exactly where the speed overflows. -/
lemma overflows_iff {steps : ℤ} {c : StepperCommand} (hsteps : steps ≠ 0) :
    Overflows steps c ↔ (c.speed < 10000 ∧ (FloatValue.finite 100).LessEq (stepperSpeed steps c)) ∧
      ¬ (stepperSpeed steps c).FitsInt := by
  unfold Overflows
  rw [and_assoc]
  apply and_congr_right
  intro _
  by_cases htime : c.time = 0
  · rw [stepperSpeed_of_time_zero hsteps htime]
    rcases lt_trichotomy c.speed 0 with h | h | h
    · simp [htime, h, h.ne, h.le, FloatValue.LessEq]
    · simp [htime, h, FloatValue.LessEq]
    · simp [htime, h, h.ne', h.le, FloatValue.LessEq, FloatValue.FitsInt]
  · rw [stepperSpeed_of_time_ne_zero steps htime]
    simp only [htime, false_and, false_or]
    generalize (c.speed : ℚ) * |(steps : ℚ) / c.time| = r
    constructor
    · intro hr
      have h100 : (100 : ℚ) ≤ r := le_trans (by norm_num) hr
      exact ⟨h100, (not_fitsInt_finite_iff h100).mpr hr⟩
    · rintro ⟨h100, hfit⟩
      exact (not_fitsInt_finite_iff h100).mp hfit

/-- A speed from 100 on that fits into an `int` is converted to a positive one. -/
lemma toInt_pos {x : FloatValue} (hx : (FloatValue.finite 100).LessEq x) (hfit : x.FitsInt) :
    0 < x.toInt platform := by
  cases x with
  | finite q =>
    have hq : (100 : ℚ) ≤ q := hx
    have hfloor : (100 : ℤ) ≤ ⌊q⌋ := Int.le_floor.mpr (by exact_mod_cast hq)
    rw [FloatValue.toInt_finite platform hfit, truncate_of_nonneg (by linarith)]
    omega
  | infinite n => exact absurd hfit id
  | nan => exact absurd hfit id

/-- The speed of a timed command is zero only where the platform makes it so. -/
lemma timedSpeed_ne_zero_iff {steps : ℤ} {c : StepperCommand} (hsteps : steps ≠ 0) :
    timedSpeed platform steps c ≠ 0 ↔
      (Overflows steps c → platform (stepperSpeed steps c) ≠ 0) := by
  rw [overflows_iff hsteps]
  unfold timedSpeed
  dsimp only
  split
  next h =>
    by_cases hfit : (stepperSpeed steps c).FitsInt
    · simp [(toInt_pos h.2 hfit).ne', hfit]
    · rw [FloatValue.toInt_of_not_fitsInt platform hfit]
      simp [h, hfit]
  next h =>
    simp only [h, false_and, false_implies, iff_true]
    split <;> decide

/-- A command that has something to go leads to a positive speed exactly when it sets a speed that
is not zero; a command of another type repeats a speed, which is positive by the hypothesis. -/
lemma canFinish_iff_of_primed {d : Drive} (hd : d.stepping.stepperMove = 0 ∨ 0 < d.maxSpeed)
    (c : StepperCommand) :
    d.CanFinish platform c ↔ SetsSpeed platform d.stepping.currentPosition c := by
  unfold CanFinish SetsSpeed
  rw [stepping_beginCommand, distanceToGo_beginCommand]
  by_cases hc : c.Typed
  · rw [stepperMove_beginCommand hc, maxSpeed_beginCommand hc, abs_pos]
    simp only [hc, forall_const, ne_eq]
    rw [← or_iff_not_imp_left]
    apply or_congr_right'
    intro hsteps
    unfold speedSetting
    split
    next => exact timedSpeed_ne_zero_iff hsteps
    next => rfl
  · rw [stepperMove_beginCommand_of_not hc, beginCommand_of_not_typed hc]
    simp only [hc, false_implies, iff_true]
    exact fun hne => hd.resolve_left hne

/-- The iterations of the run loop leave `stepper_move` alone. -/
lemma stepperMove_run {s t : Stepping} {ps : List Poll} (h : StepRuns.run loopStep s ps = some t) :
    t.stepperMove = s.stepperMove := by
  refine StepRuns.invariant_of_run (I := fun u => u.stepperMove = s.stepperMove) ?_ rfl h
  intro u p v hu hstep
  obtain ⟨-, rfl⟩ := loopStep_eq_some_iff.mp hstep
  rw [iterate_eq]
  split <;> [split_ifs; skip] <;> exact hu

/-- After a command that could finish, either there is no displacement to repeat or the maximum
speed is positive. -/
lemma primed_execute {d t : Drive} {e : StepperCommand × List Poll}
    (hfinish : d.CanFinish platform e.1) (h : d.execute platform e = some t) :
    t.stepping.stepperMove = 0 ∨ 0 < t.maxSpeed := by
  obtain ⟨hstepping, -, hmax⟩ := execute_eq_some_iff.mp h
  obtain ⟨hloop, -⟩ := executeCommand_eq_some_iff.mp hstepping
  rw [stepperMove_run hloop, hmax, or_iff_not_imp_left]
  intro hmove
  apply hfinish
  rwa [stepping_beginCommand, distanceToGo_beginCommand]

/-- **When the run loop can reach its target.**  After a history of commands that all have nothing
to go or a speed that is not zero, a positive maximum speed is in force for the next command exactly
when that command has nothing to go or a speed that is not zero as well. -/
theorem canFinish_iff {b : ℤ} {es : List (StepperCommand × List Poll)} {d : Drive}
    (hrun : StepRuns.run (execute platform) (boot b) es = some d)
    (hes : StepRuns.Along (execute platform)
      (fun d e => SetsSpeed platform d.stepping.currentPosition e.1) (boot b) es)
    (c : StepperCommand) :
    d.CanFinish platform c ↔ SetsSpeed platform d.stepping.currentPosition c := by
  have hprimed : d.stepping.stepperMove = 0 ∨ 0 < d.maxSpeed := by
    refine StepRuns.invariant_of_run_along (I := fun d => d.stepping.stepperMove = 0 ∨
      0 < d.maxSpeed) ?_ (.inl rfl) hes hrun
    intro d e t hd he hstep
    exact primed_execute ((canFinish_iff_of_primed hd e.1).mpr he) hstep
  exact canFinish_iff_of_primed hprimed c

/-- After a move of one step, a timed move of one millimetre in one second can finish. -/
theorem canFinish_after_oneStep :
    ∃ d, StepRuns.run (execute fun _ => 0) (boot 0) [oneStep] = some d ∧
      d.CanFinish (fun _ => 0) (commandMove 0 2 1 100 1 1 0 100) := by
  refine ⟨_, run_oneStep 0, (canFinish_iff (run_oneStep 0) ?_ _).mpr ?_⟩ <;> decide +kernel

/-- The message `stepperMove 100`, whose speed and acceleration are missing, starts the run loop
with 100 steps to go and the maximum speed 0. -/
theorem not_canFinish_stepperMove :
    ∃ c ∈ messageCommands "stepperMove 100", ∀ platform,
      ((boot 0).beginCommand platform c).stepping.motor.distanceToGo = 100 ∧
        ((boot 0).beginCommand platform c).maxSpeed = 0 ∧ ¬ (boot 0).CanFinish platform c := by
  refine ⟨stepBy 100 0 0, by decide +kernel, fun platform => ⟨rfl, rfl, ?_⟩⟩
  intro h
  have hgo : (100 : ℤ) ≠ 0 := by decide
  exact lt_irrefl (0 : ℤ) (h hgo)

end Drive

/-! ## Bounds of the timed speed -/

/-- The speed of a timed move from `position`, over exact rationals. -/
def requestedRate (position : ℤ) (c : StepperCommand) : ℚ :=
  c.speed * |(stepsBetween position c.move : ℚ) / c.time|

/-- A speed cut to an integer and limited to the interval from 100 to 10000. -/
def clampedRate (r : ℚ) : ℤ := if r < 100 then 100 else if 10000 < r then 10000 else truncate r

/-- Inside and above the interval the limited speed is the smaller of the floor and 10000. -/
lemma clampedRate_eq_min {r : ℚ} (h : 100 ≤ r) : clampedRate r = min ⌊r⌋ 10000 := by
  rw [clampedRate, if_neg (not_lt.mpr h), truncate_of_nonneg (by linarith)]
  split_ifs with hhigh
  · have hfloor : (10000 : ℤ) ≤ ⌊r⌋ := Int.le_floor.mpr (by exact_mod_cast hhigh.le)
    exact (min_eq_right hfloor).symm
  · have hfloor : ⌊r⌋ ≤ 10000 := by exact_mod_cast (Int.floor_le r).trans (not_lt.mp hhigh)
    exact (min_eq_left hfloor).symm

/-- The limited speed is inside the interval. -/
lemma clampedRate_mem (r : ℚ) : 100 ≤ clampedRate r ∧ clampedRate r ≤ 10000 := by
  rcases lt_or_ge r 100 with h | h
  · simp [clampedRate, h]
  · have hfloor : (100 : ℤ) ≤ ⌊r⌋ := Int.le_floor.mpr (by exact_mod_cast h)
    rw [clampedRate_eq_min h]
    omega

/-- A higher speed is not limited to a lower one. -/
lemma clampedRate_mono {r r' : ℚ} (h : r ≤ r') : clampedRate r ≤ clampedRate r' := by
  rcases lt_or_ge r 100 with hr | hr
  · rw [clampedRate, if_pos hr]
    exact (clampedRate_mem r').1
  · rw [clampedRate_eq_min hr, clampedRate_eq_min (hr.trans h)]
    exact min_le_min_right _ (Int.floor_le_floor h)

/-- What the branch for type 2 makes of a time that is not zero. -/
lemma timedSpeed_eq (platform : FloatValue → ℤ) (steps : ℤ) {c : StepperCommand}
    (htime : c.time ≠ 0) :
    timedSpeed platform steps c =
      if c.speed < 10000 ∧ 100 ≤ (c.speed : ℚ) * |(steps : ℚ) / c.time| then
        (FloatValue.finite (c.speed * |(steps : ℚ) / c.time|)).toInt platform
      else if (c.speed : ℚ) * |(steps : ℚ) / c.time| < 100 then 100
      else 10000 := by
  rw [timedSpeed, Drive.stepperSpeed_of_time_ne_zero steps htime]
  rfl

/-- The conversion to `int` respects the upper bound exactly below 10001. -/
lemma forall_toInt_eq_clampedRate_iff {r : ℚ} (hr : 100 ≤ r) :
    (∀ platform, (FloatValue.finite r).toInt platform = clampedRate r) ↔ r < 10001 := by
  have hbound : r < 10001 ↔ ⌊r⌋ ≤ 10000 := by
    rw [← Int.lt_add_one_iff, Int.floor_lt]
    norm_num
  have htrunc : truncate r = ⌊r⌋ := truncate_of_nonneg (by linarith)
  have hfloor : (100 : ℤ) ≤ ⌊r⌋ := Int.le_floor.mpr (by exact_mod_cast hr)
  rw [clampedRate_eq_min hr, hbound]
  by_cases hfit : (FloatValue.finite r).FitsInt
  · simp only [FloatValue.toInt_finite _ hfit, htrunc, forall_const]
    omega
  · have hlarge : ¬ ⌊r⌋ ≤ 10000 := by
      intro hle
      exact hfit (by simp only [FloatValue.FitsInt, htrunc]; omega)
    simp only [FloatValue.toInt_of_not_fitsInt _ hfit, hlarge, iff_false]
    -- nothing bounds what the platform makes of a speed that does not fit
    intro hall
    have h := hall fun _ => 0
    omega

/-- **When a timed move runs at the requested speed**, limited to the interval from 100 to 10000:
where the requested speed is below the interval; where it is below 10001 and the speed of the
command is below 10000; and where both are at least 10000. -/
theorem timedSpeed_eq_clampedRate_iff (d : Drive) {c : StepperCommand} (htype : c.type = 2)
    (htime : c.time ≠ 0) :
    (∀ platform, timedSpeed platform (d.stepping.beginCommand c).stepperMove c =
        clampedRate (requestedRate d.stepping.currentPosition c)) ↔
      requestedRate d.stepping.currentPosition c < 100 ∨
        (c.speed < 10000 ∧ requestedRate d.stepping.currentPosition c < 10001) ∨
          (10000 ≤ c.speed ∧ 10000 ≤ requestedRate d.stepping.currentPosition c) := by
  have hmove : (d.stepping.beginCommand c).stepperMove =
      stepsBetween d.stepping.currentPosition c.move := by
    rw [stepperMove_beginCommand (.inr (.inr htype))]
    simp [displacement, htype]
  have hrate : (c.speed : ℚ) * |((d.stepping.beginCommand c).stepperMove : ℚ) / c.time| =
      requestedRate d.stepping.currentPosition c := by rw [hmove, requestedRate]
  simp only [timedSpeed_eq _ _ htime, hrate]
  generalize requestedRate d.stepping.currentPosition c = r
  rcases lt_or_ge r 100 with hlow | hlow
  · simp [clampedRate, hlow, not_le.mpr hlow]
  simp only [hlow, and_true, not_lt.mpr hlow, if_false, false_or]
  rcases lt_or_ge c.speed 10000 with hspeed | hspeed
  · simp only [hspeed, if_true, forall_toInt_eq_clampedRate_iff hlow, true_and,
      not_le.mpr hspeed, false_and, or_false]
  · have hbound : 10000 ≤ r ↔ 10000 ≤ ⌊r⌋ := by
      rw [Int.le_floor]
      norm_num
    simp only [not_lt.mpr hspeed, if_false, clampedRate_eq_min hlow, forall_const, false_and,
      hspeed, true_and, false_or, hbound]
    omega

/-- `strandTranslate target speed accel time` as `stepper_task` receives it. -/
def strandTranslateTo (target speed accel time : ℤ) : StepperCommand :=
  commandMove 0 2 target speed accel time 0 100

/-- A move of 226 steps in 100 seconds at the speed 200 is requested at the rate 452, and made at
it. -/
theorem timedSpeed_eq_clampedRate_slow :
    clampedRate (requestedRate 0 (strandTranslateTo 10 200 1 100)) = 452 ∧
      ∀ platform, timedSpeed platform
          ((Drive.boot 0).stepping.beginCommand (strandTranslateTo 10 200 1 100)).stepperMove
            (strandTranslateTo 10 200 1 100) =
        clampedRate (requestedRate 0 (strandTranslateTo 10 200 1 100)) :=
  ⟨by decide +kernel, (timedSpeed_eq_clampedRate_iff (Drive.boot 0)
    (c := strandTranslateTo 10 200 1 100) rfl (by decide)).mpr (by decide +kernel)⟩

/-- A move of ten millimetres in 22 seconds: with the speed 5000 the rate is above 51363 and so is
the speed that is set, and with the higher speed 10000 the speed is limited to 10000. -/
theorem not_timedSpeed_eq_clampedRate :
    let c := strandTranslateTo 10 5000 1 22
    let c' := strandTranslateTo 10 10000 1 22
    c ∈ messageCommands "strandTranslate 10 5000 1 22" ∧
      c' ∈ messageCommands "strandTranslate 10 10000 1 22" ∧
      ((Drive.boot 0).stepping.beginCommand c).stepperMove = 226 ∧
      clampedRate (requestedRate 0 c) = 10000 ∧
      ∀ platform, timedSpeed platform 226 c = 51363 ∧ timedSpeed platform 226 c' = 10000 := by
  refine ⟨by decide +kernel, by decide +kernel, by decide +kernel, by decide +kernel,
    fun platform => ⟨?_, ?_⟩⟩
  · rw [timedSpeed_eq platform 226 (by decide), if_pos (by decide +kernel),
      FloatValue.toInt_finite platform (by decide +kernel)]
    decide +kernel
  · rw [timedSpeed_eq platform 226 (by decide), if_neg (by decide +kernel),
      if_neg (by decide +kernel)]

end Strand
