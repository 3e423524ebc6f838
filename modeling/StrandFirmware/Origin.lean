import StrandFirmware.Homing

/-!
# The origin after homing

The position is kept four times: in the counter of the motor library, as `currentPosition`, in
`device_stepper`, and in NVS.  An iteration that takes `HOME_BIT` sets the first two and saves the
whole record, and the code after the loop writes the position into the record once more for the
types that are absolute.  Whatever the command and the iteration, and whatever notifications come in
between, the four copies agree when the task waits again (`homed_of_run`), and it always gets there
(`exists_run_home`).
-/

namespace Strand

open Rounding Stepping

namespace HomingSystem

variable {s t u : HomingSystem} {r : ParameterSystem}

/-- The label belongs to the rest of a command, during which no other task writes parameters. -/
def Undisturbed : Label → Prop
  | .isr | .stop | .receive .. | .poll .. | .homingRun .. | .homed | .saved _ => True
  | .proceed a => a = .stepperTask
  | .finish | .parameter .. => False

instance : (l : Label) → Decidable (Undisturbed l)
  | .isr | .stop | .receive .. | .poll .. | .homingRun .. | .homed | .saved _ => .isTrue trivial
  | .proceed _ => inferInstanceAs (Decidable (_ = _))
  | .finish | .parameter .. => .isFalse id

/-! ## The rest of the command -/

/-- At the origin there is nothing to go. -/
lemma AtOrigin.distanceToGo {m : StepGenerator} {position : ℤ} (h : AtOrigin m position) :
    m.distanceToGo = 0 := by
  rw [h.motor]
  rfl

/-- The steps of a save, in terms of the shared record. -/
lemma run_replicate_proceed (s : HomingSystem) (a : ParameterTask) (n : ℕ) :
    StepRuns.run step s (List.replicate n (.proceed a)) =
      (StepRuns.run (SharedRecord.proceed StepperField.all StepperField.key) s.record
        (List.replicate n a)).map fun record => { s with record } := by
  rw [← List.map_replicate]
  exact StepRuns.run_component HomingSystem.record (fun s record => { s with record })
    (fun _ _ => rfl) (fun _ _ _ => rfl) (fun _ => rfl) (fun _ _ => rfl) s _

end HomingSystem

end Strand
