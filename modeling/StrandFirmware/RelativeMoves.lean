import StrandFirmware.DriveSettings
import StrandFirmware.OnePosition

/-!
# Relative moves

A command of type 0 moves the motor by steps and is not meant to be recorded: it does not change
`currentPosition` at its start and does not copy it to `device_stepper.current` at its end.  The
run loop in between is shared with the absolute commands, and its STOP branch corrects
`currentPosition` without looking at the type.

The runs here are those of `stepper_task` alone, with commands of type 0 and without `HOME_BIT`.
-/

namespace Strand

open Rounding Stepping
open Arithmetic (float32)

namespace PositionSystem

/-- A step of `stepper_task` in commands of type 0 without `HOME_BIT`. -/
def RelativeLabel : Label → Prop
  | .receive c => c.type = 0
  | .poll p => p.takesHome = false
  | .finish => True
  | .homed | .parameter .. | .proceed _ => False

instance : (l : Label) → Decidable (RelativeLabel l)
  | .receive _ | .poll _ => inferInstanceAs (Decidable (_ = _))
  | .finish => .isTrue trivial
  | .homed | .parameter .. | .proceed _ => .isFalse id

/-- Every command that is being executed is relative. -/
def RelativeStage (s : PositionSystem) : Prop := ∀ c ∈ s.stage.command, c.type = 0

/-- Neither copy of the position, nor anything else of the record, is other than in `s`. -/
def Untouched (s t : PositionSystem) : Prop :=
  t.stepping.currentPosition = s.stepping.currentPosition ∧ t.record = s.record

/-- A STOP taken in the step is negligible. -/
def OnlyNegligible (s : PositionSystem) : Label → Prop
  | .poll p => p.takesStop → NegligibleStop s.stepping
  | _ => True

instance (s : PositionSystem) : (l : Label) → Decidable (s.OnlyNegligible l)
  | .poll _ => inferInstanceAs (Decidable (_ → _))
  | .receive _ | .finish | .homed | .parameter .. | .proceed _ => .isTrue trivial

/-- What a step of `stepper_task` in a relative command does to the record and the position. -/
lemma relative_step {s t : PositionSystem} {l : Label} (hl : RelativeLabel l)
    (hs : s.RelativeStage) (h : s.step l = some t) :
    t.RelativeStage ∧ t.record = s.record ∧
      (t.stepping.currentPosition = s.stepping.currentPosition ↔ s.OnlyNegligible l) := by
  cases stepped_of_step h with
  | @receive c =>
    have hc : c.type = 0 := hl
    refine ⟨fun c' hc' => ?_, rfl, iff_of_true ?_ trivial⟩
    · obtain rfl : c = c' := Option.some.inj hc'
      exact hc
    · exact beginCommand_currentPosition (by omega)
  | home _ hhome => exact absurd (hhome.symm.trans hl) (by decide)
  | @poll c p hstage hhome =>
    refine ⟨fun c' hc' => hs c' (by simpa [hstage] using hc'), rfl, ?_⟩
    simp only [OnlyNegligible]
    by_cases hstop : p.takesStop = true
    · rw [float32.iterate_of_takesStop hstop]
      simp [hstop, serveStop_currentPosition_eq_iff]
    · rw [float32.iterate_of_quiet hhome (by simpa using hstop)]
      simp [hstop]
  | @finish c hstage =>
    have hc : c.type = 0 := hs c (by simp [hstage, StepperStage.command])
    refine ⟨by simp [RelativeStage, StepperStage.command], ?_, iff_of_true rfl trivial⟩
    simp [hc]
  | homed | parameter | proceed => exact absurd hl id

/-- **Relative moves leave the recorded position alone** exactly as long as every STOP they take is
negligible: the distance left to go is too short for the `float` sum to be another position once it
is cut to an `int`. -/
theorem untouched_iff {s t : PositionSystem} {ls : List Label} (hls : ∀ l ∈ ls, RelativeLabel l)
    (hs : s.stage = .waiting) (hrun : StepRuns.run step s ls = some t) :
    (∀ pre u, pre <+: ls → StepRuns.run step s pre = some u → s.Untouched u) ↔
      StepRuns.Along step OnlyNegligible s ls := by
  have hstart : s.RelativeStage := by simp [RelativeStage, hs, StepperStage.command]
  refine StepRuns.forall_prefix_iff_along (I := RelativeStage) ?_ ?_ hls hstart ⟨rfl, rfl⟩ hrun
  · intro u l v hl hu hstep
    exact (relative_step hl hu hstep).1
  · rintro u l v hl hu ⟨hposition, hrecord⟩ hstep
    obtain ⟨-, hrecord', hiff⟩ := relative_step hl hu hstep
    rw [← hiff, Untouched, hrecord', hrecord, hposition]
    simp

/-- A device that stands at `position`, with the limits 0 and 100. -/
def standing (position : ℤ) : PositionSystem := boot ⟨position, 0, 100, 0, 0⟩ (fun _ => 0) ⟨0, 0⟩

/-- A relative move with a STOP in the first iteration, while the library can still stop within one
step. -/
def moveAndStop (steps : ℤ) : List Label :=
  [.receive (Drive.stepBy steps 1 1), .poll (stopPoll 1 direction_one), .finish]

/-- A move of 22 steps and one of 20 steps back, each with a STOP. -/
def twoStops : List Label :=
  [.receive (Drive.stepBy 22 1 1), .poll (quietPoll 1 abs_delta_one),
    .poll (stopPoll 1 direction_one), .finish, .receive (Drive.stepBy (-20) 1 1),
    .poll (stopPoll (-1) (.inr rfl)), .finish]

/-- At the position -100 both corrections point away from zero and are less than a millimetre, so
the position stays. -/
theorem untouched_after_negligible_stops :
    ∃ t, StepRuns.run step (standing (-100)) twoStops = some t ∧ t.stage = .waiting ∧
      (standing (-100)).Untouched t := by
  have hrun : (StepRuns.run step (standing (-100)) twoStops).any (fun t =>
      t.stage = .waiting) = true := by
    decide +kernel
  obtain ⟨t, ht, hwaiting⟩ := StepRuns.exists_run_of_any hrun
  refine ⟨t, ht, hwaiting, ?_⟩
  exact (untouched_iff (by decide +kernel) rfl ht).mpr (by decide +kernel) _ t List.prefix_rfl ht

/-- A relative move of so many steps is stopped at one position and leaves another one behind. -/
def StopsAt (position steps left : ℤ) : Prop :=
  ∃ t, StepRuns.run step (standing position) (moveAndStop steps) = some t ∧ t.stage = .waiting ∧
    t.stepping.motor.currentPos = 1 ∧ t.stepping.currentPosition = left ∧
    ¬ (standing position).Untouched t

/-- How such a move is found by running the task. -/
lemma stopsAt_of_run {position steps left : ℤ} (hleft : left ≠ position)
    (hrun : (StepRuns.run step (standing position) (moveAndStop steps)).any (fun t =>
      t.stage = .waiting ∧ t.stepping.motor.currentPos = 1 ∧
        t.stepping.currentPosition = left) = true) : StopsAt position steps left := by
  obtain ⟨t, ht, hwaiting, hmotor, hposition⟩ := StepRuns.exists_run_of_any hrun
  refine ⟨t, ht, hwaiting, hmotor, hposition, fun huntouched => ?_⟩
  exact hleft (hposition.symm.trans huntouched.1)

/-- A move of ten millimetres, 226 steps, is stopped at the position 50.  The motor has made one
step, and the position becomes 40.  Far from zero less than a millimetre is enough: the sum of
-524289 and the 22 steps of a move is rounded to -524290. -/
theorem not_untouched_after_stop :
    Drive.stepBy 226 1 1 ∈ messageCommands "stepperMove 226 1 1" ∧ StopsAt 50 226 40 ∧
      StopsAt (-524289) 22 (-524290) := by
  refine ⟨by decide +kernel, stopsAt_of_run (by decide) ?_, stopsAt_of_run (by decide) ?_⟩ <;>
    decide +kernel

end PositionSystem

end Strand
