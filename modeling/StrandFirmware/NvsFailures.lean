import StrandFirmware.Persistence

/-!
# Saving a record when NVS fails

`saveParamters` and `command_set_location` write the fields of a record one by one and then replace
the live record by what they read back.  Every call of NVS may fail, and no result is looked at: a
field whose reading fails becomes 0, and one whose writing fails goes back to what NVS held before.

A write is an open, a set and a commit.  When the open fails nothing is written; after a failed set
or commit NVS may hold the old value or the new one.  A failed read leaves the variable at 0.
-/

namespace Strand

/-- What the calls of one `nvs_set_value` return. -/
structure WriteOutcome where
  /-- `nvs_open` fails. -/
  openFails : Bool
  /-- `nvs_set_i32` fails. -/
  setFails : Bool
  /-- `nvs_commit` fails. -/
  commitFails : Bool
  /-- The value reaches NVS although the set or the commit failed. -/
  reaches : Bool
deriving DecidableEq

/-- The value is in NVS afterwards. -/
def WriteOutcome.stores (o : WriteOutcome) : Bool :=
  !o.openFails && (!o.setFails && !o.commitFails || o.reaches)

/-- What the calls of one `nvs_get_value` return. -/
structure ReadOutcome where
  /-- `nvs_open` fails. -/
  openFails : Bool
  /-- `nvs_get_i32` fails, other than for a missing key. -/
  getFails : Bool
deriving DecidableEq

/-- No value is read. -/
def ReadOutcome.fails (o : ReadOutcome) : Bool := o.openFails || o.getFails

/-- The results of the calls that save a record with the fields `K`. -/
structure SaveOutcome (K : Type) where
  write : K → WriteOutcome
  read : K → ReadOutcome

/-- Every call succeeds. -/
def SaveOutcome.success {K : Type} : SaveOutcome K where
  write _ := ⟨false, false, false, false⟩
  read _ := ⟨false, false⟩

namespace Failing

/-! ## The functions of `net.c` -/

/-- `nvs_set_value(name, value)`. -/
def nvsSetValue (o : WriteOutcome) (nvs : Nvs) (name : String) (value : ℤ) : Nvs :=
  if o.openFails then nvs
  else if (o.setFails || o.commitFails) && !o.reaches then nvs
  else Strand.nvsSetValue nvs name value

/-- `nvs_get_value(name)`. -/
def nvsGetValue (o : ReadOutcome) (nvs : Nvs) (name : String) : ℤ :=
  if o.openFails then 0
  else if o.getFails then 0
  else Strand.nvsGetValue nvs name

/-- `command_init_location()`. -/
def commandInitLocation (read : LocationField → ReadOutcome) (nvs : Nvs) : Location where
  x := nvsGetValue (read .x) nvs "location_x"
  y := nvsGetValue (read .y) nvs "location_y"
  z := nvsGetValue (read .z) nvs "location_z"

/-- `command_set_location(location)`. -/
def commandSetLocation (o : SaveOutcome LocationField) (s : Storage) (location : Location) :
    Storage :=
  let nvs := nvsSetValue (o.write .x) s.nvs "location_x" location.x
  let nvs := nvsSetValue (o.write .y) nvs "location_y" location.y
  let nvs := nvsSetValue (o.write .z) nvs "location_z" location.z
  { s with nvs, deviceLocation := commandInitLocation o.read nvs }

/-- `command_init_stepper()`. -/
def commandInitStepper (read : StepperField → ReadOutcome) (nvs : Nvs) : Stepper where
  current := nvsGetValue (read .current) nvs "stepper_current"
  min := nvsGetValue (read .min) nvs "stepper_min"
  max := nvsGetValue (read .max) nvs "stepper_max"
  target := nvsGetValue (read .target) nvs "stepper_target"
  number := nvsGetValue (read .number) nvs "stepper_number"

/-- `command_set_stepper(stepper)`. -/
def commandSetStepper (o : SaveOutcome StepperField) (s : Storage) (stepper : Stepper) : Storage :=
  let nvs := nvsSetValue (o.write .current) s.nvs "stepper_current" stepper.current
  let nvs := nvsSetValue (o.write .min) nvs "stepper_min" stepper.min
  let nvs := nvsSetValue (o.write .max) nvs "stepper_max" stepper.max
  let nvs := nvsSetValue (o.write .target) nvs "stepper_target" stepper.target
  let nvs := nvsSetValue (o.write .number) nvs "stepper_number" stepper.number
  { s with nvs, deviceStepper := commandInitStepper o.read nvs }

/-- `saveParamters()`. -/
def saveParamters (o : SaveOutcome StepperField) (s : Storage) : Storage :=
  let step : Stepper := {
    current := s.deviceStepper.current
    min := s.deviceStepper.min
    max := s.deviceStepper.max
    target := s.deviceStepper.target
    number := s.deviceStepper.number }
  commandSetStepper o s step

/-! ## What a save leaves -/

/-- A write changes NVS or leaves it alone. -/
lemma nvsSetValue_eq (o : WriteOutcome) (nvs : Nvs) (name : String) (value : ℤ) :
    nvsSetValue o nvs name value =
      if o.stores then Strand.nvsSetValue nvs name value else nvs := by
  rcases o with ⟨a, b, c, d⟩
  rcases a <;> rcases b <;> rcases c <;> rcases d <;> rfl

/-- A read has a value or 0. -/
lemma nvsGetValue_eq (o : ReadOutcome) (nvs : Nvs) (name : String) :
    nvsGetValue o nvs name = if o.fails then 0 else Strand.nvsGetValue nvs name := by
  rcases o with ⟨a, b⟩
  rcases a <;> rcases b <;> rfl

/-- `command_set_stepper` writes the fields whose calls store them. -/
lemma nvs_commandSetStepper (o : SaveOutcome StepperField) (s : Storage) (stepper : Stepper) :
    (commandSetStepper o s stepper).nvs = KeyValue.writeAll StepperField.key stepper.get s.nvs
      (StepperField.all.filter fun f => (o.write f).stores) := by
  simp only [commandSetStepper, nvsSetValue_eq, StepperField.all, KeyValue.writeAll_filter_cons]
  rfl

/-- `command_set_location` writes the fields whose calls store them. -/
lemma nvs_commandSetLocation (o : SaveOutcome LocationField) (s : Storage) (location : Location) :
    (commandSetLocation o s location).nvs =
      KeyValue.writeAll LocationField.key (LocationField.get location) s.nvs
        (LocationField.all.filter fun f => (o.write f).stores) := by
  simp only [commandSetLocation, nvsSetValue_eq, LocationField.all, KeyValue.writeAll_filter_cons]
  rfl

/-- A field of the record that is read back: 0 when the reading fails, what was written when it was
stored, and else what NVS held before. -/
def readBack (w : WriteOutcome) (r : ReadOutcome) (stored written : ℤ) : ℤ :=
  if r.fails then 0 else if w.stores then written else stored

/-- The fields of `device_stepper` after `command_set_stepper`. -/
lemma get_commandSetStepper (o : SaveOutcome StepperField) (s : Storage) (stepper : Stepper)
    (f : StepperField) : (commandSetStepper o s stepper).deviceStepper.get f =
      readBack (o.write f) (o.read f) (Strand.nvsGetValue s.nvs f.key) (stepper.get f) := by
  have hread : (commandSetStepper o s stepper).deviceStepper.get f =
      nvsGetValue (o.read f) (commandSetStepper o s stepper).nvs f.key := by
    rcases f <;> rfl
  rw [hread, nvsGetValue_eq, Strand.nvsGetValue_eq, nvs_commandSetStepper,
    KeyValue.writeAll_filter_key StepperField.key_injective _ _ _ f.mem_all, Strand.nvsGetValue_eq,
    readBack]
  split
  · rfl
  · split
    · rfl
    · rfl

/-- The fields of `device_location` after `command_set_location`. -/
lemma get_commandSetLocation (o : SaveOutcome LocationField) (s : Storage) (location : Location)
    (f : LocationField) : LocationField.get (commandSetLocation o s location).deviceLocation f =
      readBack (o.write f) (o.read f) (Strand.nvsGetValue s.nvs f.key)
        (LocationField.get location f) := by
  have hread : LocationField.get (commandSetLocation o s location).deviceLocation f =
      nvsGetValue (o.read f) (commandSetLocation o s location).nvs f.key := by
    rcases f <;> rfl
  rw [hread, nvsGetValue_eq, Strand.nvsGetValue_eq, nvs_commandSetLocation,
    KeyValue.writeAll_filter_key LocationField.key_injective _ _ _ f.mem_all,
    Strand.nvsGetValue_eq, readBack]
  split
  · rfl
  · split
    · rfl
    · rfl

/-- Without failures these are the functions of reliable storage. -/
theorem saves_success (s : Storage) (location : Location) :
    saveParamters .success s = s.saveParamters ∧
      commandSetLocation .success s location = s.commandSetLocation location :=
  ⟨rfl, rfl⟩

/-! ## When the live records stay intact -/

/-- A failing save leaves every field of `device_stepper`, and puts nothing into `device_location`
but its old and its new fields. -/
def Intact (o : SaveOutcome StepperField) (q : SaveOutcome LocationField) (s : Storage)
    (location : Location) : Prop :=
  (∀ f, (saveParamters o s).deviceStepper.get f = s.deviceStepper.get f) ∧
  ∀ f, LocationField.get (commandSetLocation q s location).deviceLocation f =
      LocationField.get s.deviceLocation f ∨
    LocationField.get (commandSetLocation q s location).deviceLocation f =
      LocationField.get location f

/-- A field comes back as it is: it is 0 when its reading fails; else its writing stores it, or NVS
held the same value already. -/
def FieldKept (w : WriteOutcome) (r : ReadOutcome) (stored live : ℤ) : Prop :=
  if r.fails then live = 0 else w.stores = true ∨ stored = live

/-- A field comes back as one of two values: one of them is 0 when its reading fails; else its
writing stores the new one, or NVS held one of them already. -/
def FieldOldOrNew (w : WriteOutcome) (r : ReadOutcome) (stored old new : ℤ) : Prop :=
  if r.fails then old = 0 ∨ new = 0 else w.stores = true ∨ stored = old ∨ stored = new

/-- A field that is read back as it was. -/
lemma readBack_eq_iff {w : WriteOutcome} {r : ReadOutcome} {stored live : ℤ} :
    readBack w r stored live = live ↔ FieldKept w r stored live := by
  unfold readBack FieldKept
  split
  · exact eq_comm
  · split
    next hstores => simp [hstores]
    next hstores => simp [hstores]

/-- A field that is read back as its old or its new value. -/
lemma readBack_old_or_new_iff {w : WriteOutcome} {r : ReadOutcome} {stored old new : ℤ} :
    readBack w r stored new = old ∨ readBack w r stored new = new ↔
      FieldOldOrNew w r stored old new := by
  unfold readBack FieldOldOrNew
  split
  · rw [eq_comm, @eq_comm _ 0 new]
  · split
    next hstores => simp [hstores]
    next hstores => simp [hstores]

/-- **When a save leaves the live records intact**, for any results of its calls. -/
theorem intact_iff (o : SaveOutcome StepperField) (q : SaveOutcome LocationField) (s : Storage)
    (location : Location) :
    Intact o q s location ↔
      (∀ f, FieldKept (o.write f) (o.read f) (Strand.nvsGetValue s.nvs f.key)
        (s.deviceStepper.get f)) ∧
      ∀ f, FieldOldOrNew (q.write f) (q.read f) (Strand.nvsGetValue s.nvs f.key)
        (LocationField.get s.deviceLocation f) (LocationField.get location f) := by
  refine and_congr (forall_congr' fun f => ?_) (forall_congr' fun f => ?_)
  · rw [← readBack_eq_iff, saveParamters, get_commandSetStepper]
  · rw [← readBack_old_or_new_iff, get_commandSetLocation]

/-- One read fails: the open before the third field of the stepper record. -/
def maxUnread : SaveOutcome StepperField :=
  { SaveOutcome.success with read := fun f => ⟨f = .max, false⟩ }

/-- The first field of the location is not read. -/
def xUnread : SaveOutcome LocationField :=
  { SaveOutcome.success with read := fun f => ⟨false, f = .x⟩ }

/-- A device with the limits 0 and 100 at the place 1, 2, 3. -/
def savedDevice : Storage := ⟨fun _ => none, ⟨1, 2, 3⟩, ⟨0, 0, 100, 0, 0⟩⟩

/-- **One failing read sets the upper limit to 0**, and another one moves the device to a place that
is neither the old nor the new one. -/
theorem not_intact_unread :
    (saveParamters maxUnread savedDevice).deviceStepper = ⟨0, 0, 0, 0, 0⟩ ∧
      (commandSetLocation xUnread savedDevice ⟨4, 5, 6⟩).deviceLocation = ⟨0, 5, 6⟩ ∧
      ¬ Intact maxUnread .success savedDevice ⟨4, 5, 6⟩ ∧
      ¬ Intact .success xUnread savedDevice ⟨4, 5, 6⟩ := by
  have hmax : (saveParamters maxUnread savedDevice).deviceStepper = ⟨0, 0, 0, 0, 0⟩ := by
    decide +kernel
  have hx : (commandSetLocation xUnread savedDevice ⟨4, 5, 6⟩).deviceLocation = ⟨0, 5, 6⟩ := by
    decide +kernel
  refine ⟨hmax, hx, ?_, ?_⟩
  · rintro ⟨hstepper, -⟩
    have h := hstepper .max
    rw [hmax] at h
    exact absurd h (by decide)
  · rintro ⟨-, hlocation⟩
    have h := hlocation .x
    rw [hx] at h
    exact absurd h (by decide)

end Failing

end Strand
