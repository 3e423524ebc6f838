import StrandFirmware.Origin

/-!
# A STOP that meets homing

The `STOP_BIT` branch takes the motor to rest within its stopping distance.  The `HOME_BIT` branch
comes before it in the same iteration, runs the motor for 4000 steps without looking at the
notification value, and then clears the local copy of the bits, a STOP among them.  After it there
is nothing to go, so the loop ends, and a bit that was set in the meantime waits for the next
command.

How far the motor goes after a STOP is decided by the last notification that the loop takes
(`made_add_distance_of_last_taken`), or by what is left of the homing run (`homebound_run`).
-/

namespace Strand

open Stepping

namespace HomingSystem

variable {s t u : HomingSystem}

/-- The iteration takes a notification. -/
def Label.takes : Label → Bool
  | .poll notify _ => notify.isSome
  | _ => false

/-- The step that an iteration without `HOME_BIT` makes. -/
def Label.steps : Label → ℕ
  | .poll _ r => if r.due then 1 else 0
  | _ => 0

/-- The steps that a notification asks for: the homing run if `HOME_BIT` is in it, else what `stop`
sets as the new target. -/
def asks (n : Notification) (r : Reading) : ℕ := if n.home then 4000 else r.stepsToStop + 1

/-- In the run loop everything but an iteration leaves the motor alone. -/
lemma running_cases {c : StepperCommand} {l : Label} (hstage : s.stage = .running c)
    (hl : l ≠ .finish) (h : s.step l = some t) :
    (∃ notify r, l = .poll notify r) ∨
      (t.stage = .running c ∧ t.generator = s.generator ∧ t.made = s.made ∧ l.steps = 0) := by
  cases l with
  | isr | stop =>
    obtain rfl := Option.some.inj h
    exact .inr ⟨hstage, rfl, rfl, rfl⟩
  | poll notify r => exact .inl ⟨notify, r, rfl⟩
  | receive c' x =>
    obtain ⟨hstage', -⟩ := step_receive h
    simp [hstage] at hstage'
  | homingRun due k =>
    obtain ⟨⟨_, _, hstage'⟩, -⟩ := step_homingRun h
    simp [hstage] at hstage'
  | homed =>
    obtain ⟨_, _, hstage', -⟩ := step_homed h
    simp [hstage] at hstage'
  | proceed a =>
    obtain ⟨record, -, rfl⟩ := Option.map_eq_some_iff.mp h
    exact .inr ⟨hstage, rfl, rfl, rfl⟩
  | saved r =>
    obtain ⟨_, _, hstage', -⟩ := step_saved h
    simp [hstage] at hstage'
  | finish => exact absurd rfl hl
  | parameter type value =>
    obtain ⟨-, rfl⟩ := StepRuns.of_guarded h
    exact .inr ⟨hstage, rfl, rfl, rfl⟩

/-- Without a notification the loop brings the motor closer to its target step by step. -/
lemma quiet_step {c : StepperCommand} {l : Label} (hstage : s.stage = .running c)
    (happroaching : s.generator.Approaching) (hl : l ≠ .finish) (hquiet : l.takes = false)
    (h : s.step l = some t) :
    (t.stage = .running c ∧ t.generator.Approaching) ∧
      t.made + t.generator.distance = s.made + s.generator.distance := by
  rcases running_cases hstage hl h with ⟨notify, r, rfl⟩ | ⟨htstage, hgenerator, hmade, -⟩
  · obtain ⟨-, -, hgo, -, rfl⟩ := step_poll h
    obtain rfl : notify = none := by simpa [Label.takes] using hquiet
    obtain ⟨hnext, hdistance⟩ := happroaching.run hgo r.due r.stepsToStopAfter
    refine ⟨⟨hstage, hnext⟩, ?_⟩
    simp only [Option.any_none, Bool.false_eq_true, if_false, braked]
    omega
  · rw [hgenerator, hmade]
    exact ⟨⟨htstage, happroaching⟩, rfl⟩

end HomingSystem

end Strand
