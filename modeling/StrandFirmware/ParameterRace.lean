import StrandFirmware.Library.SharedRecord
import StrandFirmware.Parameters

/-!
# Two tasks that save the parameters

`stepper_task` and `command_handler` both write `device_stepper` with `setPramamter` and save it
with `saveParamters`, and nothing keeps one out of the other's way.  Here each field copy, each
`nvs_set_value`, each `nvs_get_value` and the final assignment is a step of its own, and the steps
of the two tasks are interleaved in any order.

`device_stepper` is a shared record in the sense of `SharedRecord`, with the five NVS keys as its
store; every NVS operation succeeds.
-/

namespace Strand

/-- The tasks that write `device_stepper`. -/
inductive ParameterTask where
  | stepperTask
  | commandHandler
deriving DecidableEq

instance : Fintype ParameterTask where
  elems := {.stepperTask, .commandHandler}
  complete a := by cases a <;> decide

/-- `device_stepper`, NVS, and the saves in progress. -/
abbrev ParameterSystem := SharedRecord ParameterTask StepperField String ℤ

namespace ParameterSystem

/-- One step of one of the tasks. -/
inductive Label where
  /-- `setPramamter(type, value)`. -/
  | set (a : ParameterTask) (type value : ℤ)
  /-- The call of `saveParamters`. -/
  | save (a : ParameterTask)
  /-- The next step of `saveParamters`. -/
  | proceed (a : ParameterTask)

/-- The start with a record and the contents of NVS. -/
def boot (record : Stepper) (nvs : String → ℤ) : ParameterSystem :=
  SharedRecord.boot record.get nvs

/-- The live record. -/
def deviceStepper (s : ParameterSystem) : Stepper := .ofFields s.live

/-- No save is in progress in the task. -/
def Idle (s : ParameterSystem) (a : ParameterTask) : Prop := (s.task a).phase = .idle

instance (s : ParameterSystem) (a : ParameterTask) : Decidable (s.Idle a) :=
  inferInstanceAs (Decidable (_ = _))

/-- `setPramamter(type, value)`; other types than 1 to 5 write nothing. -/
def setPramamter (s : ParameterSystem) (type value : ℤ) : ParameterSystem :=
  match StepperField.ofType type with
  | some f => s.set f value
  | none => s

/-- One step.  `stepper_task` writes `current` only. -/
def step (s : ParameterSystem) : Label → Option ParameterSystem
  | .set a type value =>
    if s.Idle a ∧ (a = .stepperTask → type = 1) then some (s.setPramamter type value) else none
  | .save a => if s.Idle a then some (s.save StepperField.all a) else none
  | .proceed a => s.proceed StepperField.all StepperField.key a

/-- A write of `setPramamter` changes no field that a save in progress has copied already. -/
def Undisturbed (s : ParameterSystem) : Label → Prop
  | .set _ type value => ∀ f ∈ StepperField.ofType type, s.Unobserved f value
  | .save _ => True
  | .proceed _ => True

instance (s : ParameterSystem) : (l : Label) → Decidable (s.Undisturbed l)
  | .set _ type _ => inferInstanceAs (Decidable (∀ f ∈ StepperField.ofType type, _))
  | .save _ => .isTrue trivial
  | .proceed _ => .isTrue trivial

/-- The steps of one call of `saveParamters`: five copies, five writes and five reads, the two calls
between them and the assignment. -/
def saveSteps (a : ParameterTask) : List Label := .save a :: List.replicate 18 (.proceed a)

/-- The steps of a save, in terms of the shared record. -/
lemma run_replicate_proceed (s : ParameterSystem) (a : ParameterTask) (n : ℕ) :
    StepRuns.run step s (List.replicate n (.proceed a)) =
      StepRuns.run (SharedRecord.proceed StepperField.all StepperField.key) s
        (List.replicate n a) := by
  induction n generalizing s with
  | zero => rfl
  | succ n ih => simp only [List.replicate_succ, StepRuns.run, step, ih]

/-- **`saveParamters` without interference** writes the record to NVS and leaves it as it was. -/
theorem run_saveSteps {s : ParameterSystem} {a : ParameterTask} (ha : s.Idle a) :
    ∃ t, StepRuns.run step s (saveSteps a) = some t ∧ t.deviceStepper = s.deviceStepper ∧
      ∀ f, t.store f.key = s.live f := by
  have hsave : step s (.save a) = some (s.save StepperField.all a) := if_pos ha
  have hrun := SharedRecord.run_save StepperField.mem_all StepperField.key_injective s a
  rw [← run_replicate_proceed] at hrun
  refine ⟨_, StepRuns.run_cons_eq_some_iff.mpr ⟨_, hsave, hrun⟩, rfl, ?_⟩
  exact SharedRecord.saved_key StepperField.mem_all StepperField.key_injective s.live s.store

/-- Every field is as it was last set, in `device_stepper` and in every copy on its way back. -/
def Synced (s : ParameterSystem) : Prop := ∀ f, s.SyncedAt StepperField.key f

/-- A write that no save in progress can undo. -/
lemma syncedAt_setPramamter {s : ParameterSystem} {f : StepperField}
    (hs : s.SyncedAt StepperField.key f) {type value : ℤ}
    (h : f ∈ StepperField.ofType type → s.Unobserved f value) :
    (s.setPramamter type value).SyncedAt StepperField.key f := by
  unfold setPramamter
  cases hg : StepperField.ofType type with
  | none => exact hs
  | some g =>
    by_cases hf : f = g
    · subst hf
      exact hs.set (h hg)
    · exact hs.set_of_ne hf value

/-- What a field was last set to. -/
lemma last_setPramamter (s : ParameterSystem) (type value : ℤ) (f : StepperField) :
    (s.setPramamter type value).last f =
      if f ∈ StepperField.ofType type then value else s.last f := by
  unfold setPramamter
  cases StepperField.ofType type with
  | none => simp
  | some g => simp [SharedRecord.set, Function.update_apply, eq_comm]

/-- An undisturbed step keeps every field as it was last set. -/
lemma synced_step (s : ParameterSystem) (l : Label) (t : ParameterSystem) (hs : s.Synced)
    (hl : s.Undisturbed l) (h : s.step l = some t) : t.Synced := by
  cases l with
  | set a type value =>
    obtain ⟨-, rfl⟩ := StepRuns.of_guarded h
    exact fun f => syncedAt_setPramamter (hs f) (hl f)
  | save a =>
    obtain ⟨-, rfl⟩ := StepRuns.of_guarded h
    exact fun f => (hs f).save StepperField.mem_all a
  | proceed a => exact fun f => (hs f).proceed StepperField.mem_all StepperField.key_injective h

/-- **No parameter update is lost** in the runs in which no field is set to a new value after a save
in progress has copied it: each field of `device_stepper` has the value of the last `setPramamter`
that wrote it, also while saves are in progress. -/
theorem live_eq_last_of_along_undisturbed {record : Stepper} {nvs : String → ℤ} {ls : List Label}
    {s : ParameterSystem} (h : StepRuns.run step (boot record nvs) ls = some s)
    (hundisturbed : StepRuns.Along step Undisturbed (boot record nvs) ls) :
    ∀ f, s.live f = s.last f := by
  have hboot : (boot record nvs).Synced := SharedRecord.syncedAt_boot _ _ _
  exact fun f => (StepRuns.invariant_of_run_along synced_step hboot hundisturbed h f).live

/-- A device with the limits 0 and 100. -/
def start : ParameterSystem := boot ⟨0, 0, 100, 0, 0⟩ fun _ => 0

/-- `setMin 50` is handled while `stepper_task` serves the home switch and has copied the position
alone, so that its save takes the new limit along.  The two saves go on by turns. -/
def setMinBeforeCopy : List Label :=
  [.set .stepperTask 1 0] ++ (saveSteps .stepperTask).take 2 ++
    [.set .commandHandler 2 50, .save .commandHandler] ++
    (List.replicate 17 [.proceed .commandHandler, .proceed .stepperTask]).flatten ++
    [.proceed .commandHandler]

/-- Both saves are done, and the limit is the new one. -/
theorem live_eq_last_before_copy : ∃ s, StepRuns.run step start setMinBeforeCopy = some s ∧
    (∀ a, s.Idle a) ∧ s.live .min = 50 ∧ ∀ f, s.live f = s.last f := by
  have hrun : (StepRuns.run step start setMinBeforeCopy).any (fun s =>
      (∀ a, s.Idle a) ∧ s.live .min = 50) = true := by
    decide +kernel
  obtain ⟨s, hs, hidle, hmin⟩ := StepRuns.exists_run_of_any hrun
  exact ⟨s, hs, hidle, hmin, live_eq_last_of_along_undisturbed hs (by decide +kernel)⟩

/-- `setMin 50` is handled while `stepper_task` serves the home switch and has copied the record. -/
def setMinDuringSave : List Label :=
  [.set .stepperTask 1 0] ++ (saveSteps .stepperTask).take 6 ++ [.set .commandHandler 2 50] ++
    saveSteps .commandHandler ++ (saveSteps .stepperTask).drop 6

/-- The lower limit set during a save of the other task is lost. -/
theorem not_live_eq_last_during_save : ¬ ∀ (record : Stepper) (nvs : String → ℤ) (ls : List Label)
    (s : ParameterSystem), StepRuns.run step (boot record nvs) ls = some s → (∀ a, s.Idle a) →
      ∀ f, s.live f = s.last f := by
  intro hall
  have hrun : (StepRuns.run step start setMinDuringSave).any (fun s =>
      (∀ a, s.Idle a) ∧ s.live .min = 0 ∧ s.last .min = 50) = true := by
    decide +kernel
  obtain ⟨s, hs, hidle, hlive, hlast⟩ := StepRuns.exists_run_of_any hrun
  have h := hall _ _ _ s hs hidle .min
  rw [hlive, hlast] at h
  exact absurd h (by decide)

end ParameterSystem

end Strand
