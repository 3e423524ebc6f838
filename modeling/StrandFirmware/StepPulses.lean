import StrandFirmware.ProfileTask

/-!
# The pins of the motor driver

`AccelStepper` makes a step by writing two pins: STEP goes high and low again, and DIR tells the
way.  A `StepperDriver` is what these pins are for: it moves one microstep at each rising edge of
STEP, in the direction that DIR has at this moment.  `stepper_task` itself writes the pin of a
solenoid.

In every run of `stepper_task` the pins move the driver exactly as the counter of the motor says,
STEP is low between the steps, and DIR never changes while STEP is high; and the solenoid is on at
every step and off whenever the task waits for a command (`observe_run`).
-/

namespace Strand

/-! ## What the library writes -/

/-- A pin that the firmware writes. -/
inductive Pin where
  /-- `_pin[0]`. -/
  | step
  /-- `_pin[1]`. -/
  | dir
  /-- `solenoidPin`. -/
  | solenoid
deriving DecidableEq

/-- A call of `digitalWrite`; `true` is `HIGH`. -/
abbrev PinWrite := Pin × Bool

/-- `AccelStepper::setOutputPins` for two pins; `pinInverted` is `_pinInverted`. -/
def setOutputPins (pinInverted : Pin → Bool) (mask : ℕ) : List PinWrite :=
  [(.step, mask.testBit 0 ^^ pinInverted .step), (.dir, mask.testBit 1 ^^ pinInverted .dir)]

/-- `AccelStepper::step1`. -/
def step1 (pinInverted : Pin → Bool) (clockwise : Bool) : List PinWrite :=
  setOutputPins pinInverted (if clockwise then 0b10 else 0b00) ++
    setOutputPins pinInverted (if clockwise then 0b11 else 0b01) ++
      setOutputPins pinInverted (if clockwise then 0b10 else 0b00)

/-! ## What the driver sees -/

/-- A motor driver at its two inputs, after inversion, and the solenoid beside it. -/
structure StepperDriver where
  step : Bool
  dir : Bool
  solenoid : Bool
  /-- The rising edges of STEP. -/
  pulses : ℕ
  /-- Where they have moved the motor. -/
  position : ℤ
  /-- DIR has not changed while STEP was high, and the solenoid was on at each pulse. -/
  safe : Bool
deriving DecidableEq

namespace StepperDriver

/-- The driver before the first step. -/
def idle : StepperDriver := ⟨false, false, false, 0, 0, true⟩

/-- One write to a pin. -/
def observe (pinInverted : Pin → Bool) (d : StepperDriver) : PinWrite → StepperDriver
  | (.step, level) =>
    let level := level ^^ pinInverted .step
    if level ∧ ¬ d.step then
      { d with
        step := true
        pulses := d.pulses + 1
        position := d.position + if d.dir then 1 else -1
        safe := d.safe && d.solenoid }
    else { d with step := level }
  | (.dir, level) =>
    let level := level ^^ pinInverted .dir
    { d with dir := level, safe := d.safe && (!d.step || level == d.dir) }
  | (.solenoid, level) => { d with solenoid := level }

/-- Some writes in order. -/
def observeAll (pinInverted : Pin → Bool) (d : StepperDriver) (writes : List PinWrite) :
    StepperDriver :=
  writes.foldl (observe pinInverted) d

variable {pinInverted : Pin → Bool} {d : StepperDriver}

/-- Writes in two parts. -/
lemma observeAll_append (writes writes' : List PinWrite) :
    d.observeAll pinInverted (writes ++ writes') =
      (d.observeAll pinInverted writes).observeAll pinInverted writes' :=
  List.foldl_append

/-- **One step at the pins**: one pulse in the direction of the step, whatever the inversion. -/
lemma observeAll_step1 (hlow : d.step = false) (hon : d.solenoid = true) (clockwise : Bool) :
    d.observeAll pinInverted (step1 pinInverted clockwise) =
      { d with
        dir := clockwise
        pulses := d.pulses + 1
        position := d.position + if clockwise then 1 else -1 } := by
  obtain ⟨step, dir, solenoid, pulses, position, safe⟩ := d
  obtain rfl : step = false := hlow
  obtain rfl : solenoid = true := hon
  cases clockwise <;> cases hstep : pinInverted .step <;> cases hdir : pinInverted .dir <;>
    simp [observeAll, step1, setOutputPins, observe, hstep, hdir, Nat.testBit]

end StepperDriver

/-! ## The pins in a run -/

namespace ProfileTask

open Rounding Stepping

/-- What a call of `run()` writes. -/
def runWrites (pinInverted : Pin → Bool) (m : SpeedProfile) (time : BitVec 32) : List PinWrite :=
  if m.due time then step1 pinInverted m.clockwise else []

/-- What a step of the task writes.  The solenoid is on from before the loop until after it. -/
def writes (pinInverted : Pin → Bool) (s : ProfileTask) : Label → List PinWrite
  | .receive _ => [(.solenoid, true)]
  | .poll notify time =>
    if notify.any (fun n => n.home) then []
    else runWrites pinInverted (braked s.profile notify) time
  | .homingRun time | .saved time => runWrites pinInverted s.profile time
  | .finish => [(.solenoid, false)]
  | .isr | .stop | .homed | .proceed _ | .parameter _ _ => []

/-- The driver has made the steps of the task and waits for the next one, and the solenoid is on
while a command is executed. -/
structure Observed (d : StepperDriver) (s : ProfileTask) : Prop where
  step_eq : d.step = false
  solenoid_eq : d.solenoid = decide (s.stage ≠ .waiting)
  pulses_eq : d.pulses = s.made
  position_eq : d.position = s.travelled
  safe_eq : d.safe = true

variable {platform : FloatValue → ℤ} {pinInverted : Pin → Bool} {s t : ProfileTask}
  {d : StepperDriver}

/-- Changes that neither the driver nor the solenoid sees. -/
lemma Observed.congr (hd : Observed d s) (hmade : t.made = s.made)
    (htravelled : t.travelled = s.travelled)
    (hstage : (t.stage ≠ .waiting) = (s.stage ≠ .waiting)) : Observed d t where
  step_eq := hd.step_eq
  solenoid_eq := by simp only [hd.solenoid_eq, hstage]
  pulses_eq := hd.pulses_eq.trans hmade.symm
  position_eq := hd.position_eq.trans htravelled.symm
  safe_eq := hd.safe_eq

/-- A call of `run()` at the pins, while a command is executed. -/
lemma Observed.runMotor (hd : Observed d s) (hstage : s.stage ≠ .waiting) {m : SpeedProfile}
    (hm : m.Valid) (time : BitVec 32) :
    Observed (d.observeAll pinInverted (runWrites pinInverted m time)) (s.runMotor m time) := by
  have hon : d.solenoid = true := hd.solenoid_eq.trans (decide_eq_true hstage)
  unfold runWrites
  by_cases hdue : m.due time = true
  · have hmoving : m.toStepGenerator.moving = true :=
      decide_eq_true (hm.speed_ne_zero_of_due hdue)
    have hsteps : m.toStepGenerator.steps (m.due time) = 1 := if_pos ⟨hmoving, hdue⟩
    rw [if_pos hdue, StepperDriver.observeAll_step1 hd.step_eq hon]
    refine ⟨hd.step_eq, hd.solenoid_eq, ?_, ?_, hd.safe_eq⟩
    · change d.pulses + 1 = s.made + _
      rw [hsteps, hd.pulses_eq]
    · change d.position + _ = s.travelled + _
      rw [StepGenerator.runSpeed, hsteps, hd.position_eq]
      rfl
  · have hsteps : m.toStepGenerator.steps (m.due time) = 0 := if_neg fun h => hdue h.2
    rw [if_neg hdue]
    refine ⟨hd.step_eq, hd.solenoid_eq, ?_, ?_, hd.safe_eq⟩
    · change d.pulses = s.made + _
      rw [hsteps, hd.pulses_eq, add_zero]
    · change d.position = s.travelled + _
      rw [StepGenerator.runSpeed, hsteps, hd.position_eq]
      simp

/-- One step of the task at the pins. -/
lemma observed_step {l : Label} (hs : s.profile.Valid) (hd : Observed d s)
    (h : s.step platform l = some t) :
    Observed (d.observeAll pinInverted (s.writes pinInverted l)) t := by
  cases l with
  | isr | stop =>
    obtain rfl := Option.some.inj h
    exact hd.congr rfl rfl rfl
  | receive c =>
    obtain ⟨-, m, -, rfl⟩ := step_receive h
    exact ⟨hd.step_eq, rfl, hd.pulses_eq, hd.position_eq, hd.safe_eq⟩
  | poll notify time =>
    obtain ⟨c, hstage, -, -, rfl⟩ := step_poll h
    rw [writes]
    split
    · exact hd.congr rfl rfl (by simp [hstage])
    · refine Observed.runMotor ?_ (by simp [hstage]) (valid_braked hs notify) time
      exact hd.congr rfl rfl rfl
  | homingRun time =>
    obtain ⟨⟨c, notify, hstage⟩, -, rfl⟩ := step_homingRun h
    exact hd.runMotor (by simp [hstage]) hs time
  | homed =>
    obtain ⟨c, notify, hstage, -, rfl⟩ := step_homed h
    exact hd.congr rfl rfl (by simp [hstage])
  | proceed a =>
    obtain ⟨record, -, rfl⟩ := Option.map_eq_some_iff.mp h
    exact hd.congr rfl rfl rfl
  | saved time =>
    obtain ⟨c, notify, hstage, -, rfl⟩ := step_saved h
    exact (hd.runMotor (by simp [hstage]) hs time).congr rfl rfl
      (by simp [ProfileTask.runMotor, hstage])
  | finish =>
    obtain ⟨c, -, -, rfl⟩ := step_finish h
    exact ⟨hd.step_eq, rfl, hd.pulses_eq, hd.position_eq, hd.safe_eq⟩
  | parameter type value =>
    obtain ⟨-, rfl⟩ := StepRuns.of_guarded h
    exact hd.congr rfl rfl rfl

/-- **The pins move the driver as the counter says.**  In every run, the driver has seen one pulse
for each step that the motor made, in its direction, each with the solenoid on; STEP is low, DIR
never changed while it was high, and the solenoid is off when the task waits for a command. -/
theorem observe_run {record : Stepper} {nvs : String → ℤ} {ls : List Label}
    (hrun : StepRuns.run (step platform) (boot record nvs) ls = some t) :
    Observed (StepperDriver.idle.observeAll pinInverted
      (StepRuns.outputs (step platform) (writes pinInverted) (boot record nvs) ls)) t := by
  have hsteps : ∀ (s : ProfileTask) l t ws, s.profile.Valid ∧
      Observed (StepperDriver.idle.observeAll pinInverted ws) s → s.step platform l = some t →
      t.profile.Valid ∧ Observed (StepperDriver.idle.observeAll pinInverted
        (ws ++ s.writes pinInverted l)) t := by
    rintro s l t ws ⟨hs, hd⟩ h
    rw [StepperDriver.observeAll_append]
    exact ⟨valid_step hs h, observed_step hs hd h⟩
  have hboot : Observed (StepperDriver.idle.observeAll pinInverted []) (boot record nvs) :=
    ⟨rfl, rfl, rfl, rfl, rfl⟩
  exact (StepRuns.invariant_outputs_of_run hsteps
    ⟨SpeedProfile.standing_boot.1.toValid, hboot⟩ hrun).2

/-- A command of two steps at the pins. -/
theorem observe_run_two : ∃ t, StepRuns.run (step fun _ => 0)
      (boot ⟨50, 0, 2000, 0, 0⟩ fun _ => 0)
      [.receive ⟨0, 2000, 1000, 1000, 2, 0, 0⟩, .poll none 60000#32, .poll none 120000#32] =
        some t ∧
    t.made = 2 ∧
    Observed (StepperDriver.idle.observeAll (fun _ => false)
      (StepRuns.outputs (step fun _ => 0) (writes fun _ => false)
        (boot ⟨50, 0, 2000, 0, 0⟩ fun _ => 0)
        [.receive ⟨0, 2000, 1000, 1000, 2, 0, 0⟩, .poll none 60000#32,
          .poll none 120000#32])) t := by
  have heval : ((StepRuns.run (step fun _ => 0) (boot ⟨50, 0, 2000, 0, 0⟩ fun _ => 0)
      [.receive ⟨0, 2000, 1000, 1000, 2, 0, 0⟩, .poll none 60000#32, .poll none 120000#32]).any
      fun t => t.made = 2) = true := by
    decide +kernel
  obtain ⟨t, hrun, hmade⟩ := StepRuns.exists_run_of_any heval
  exact ⟨t, hrun, hmade, observe_run hrun⟩

end ProfileTask

end Strand
