import StrandFirmware.Handler
import StrandFirmware.Library.RecordStore

/-!
# The records in NVS

`device_stepper` and `device_location` are kept in NVS under eight keys.  NVS is a map from keys to
numbers whose operations all succeed and which survives a restart.  The functions here follow
`net.c` line by line; as one task runs them, each call is one operation of `StorageOp`.

Both records are plain record stores (`stepperView_applyAll`, `locationView_applyAll`): each key is
read back by the function that matches the one that wrote it, and no key of one record is a key of
the other.
-/

namespace Strand

/-! ## The functions of `net.c` -/

/-- The contents of the NVS partition. -/
abbrev Nvs := String → Option ℤ

/-- `nvs_get_value(name)`: 0 for a key that was never written. -/
def nvsGetValue (nvs : Nvs) (name : String) : ℤ :=
  match nvs name with
  | some value => value
  | none => 0

/-- `nvs_set_value(name, value)`. -/
def nvsSetValue (nvs : Nvs) (name : String) (value : ℤ) : Nvs := KeyValue.write nvs name value

/-- `command_init_location()`. -/
def commandInitLocation (nvs : Nvs) : Location where
  x := nvsGetValue nvs "location_x"
  y := nvsGetValue nvs "location_y"
  z := nvsGetValue nvs "location_z"

/-- `command_init_stepper()`. -/
def commandInitStepper (nvs : Nvs) : Stepper where
  current := nvsGetValue nvs "stepper_current"
  min := nvsGetValue nvs "stepper_min"
  max := nvsGetValue nvs "stepper_max"
  target := nvsGetValue nvs "stepper_target"
  number := nvsGetValue nvs "stepper_number"

/-- NVS and the two live records. -/
structure Storage where
  nvs : Nvs
  /-- `device_location`. -/
  deviceLocation : Location
  /-- `device_stepper`. -/
  deviceStepper : Stepper

namespace Storage

/-- `command_set_location(location)`. -/
def commandSetLocation (s : Storage) (location : Location) : Storage :=
  let nvs := nvsSetValue s.nvs "location_x" location.x
  let nvs := nvsSetValue nvs "location_y" location.y
  let nvs := nvsSetValue nvs "location_z" location.z
  { s with nvs, deviceLocation := commandInitLocation nvs }

/-- `command_set_stepper(stepper)`. -/
def commandSetStepper (s : Storage) (stepper : Stepper) : Storage :=
  let nvs := nvsSetValue s.nvs "stepper_current" stepper.current
  let nvs := nvsSetValue nvs "stepper_min" stepper.min
  let nvs := nvsSetValue nvs "stepper_max" stepper.max
  let nvs := nvsSetValue nvs "stepper_target" stepper.target
  let nvs := nvsSetValue nvs "stepper_number" stepper.number
  { s with nvs, deviceStepper := commandInitStepper nvs }

/-- `setPramamter(type, value)`. -/
def setPramamter (s : Storage) (type value : ℤ) : Storage :=
  { s with deviceStepper := Strand.setPramamter s.deviceStepper type value }

/-- `saveParamters()`. -/
def saveParamters (s : Storage) : Storage :=
  let step : Stepper := {
    current := s.deviceStepper.current
    min := s.deviceStepper.min
    max := s.deviceStepper.max
    target := s.deviceStepper.target
    number := s.deviceStepper.number }
  s.commandSetStepper step

/-- A start with these contents of NVS: `app_main` loads both records. -/
def boot (nvs : Nvs) : Storage := ⟨nvs, commandInitLocation nvs, commandInitStepper nvs⟩

end Storage

/-- What one task does to the records. -/
inductive StorageOp where
  | setPramamter (type value : ℤ)
  | saveParamters
  | commandSetLocation (location : Location)
  | restart
deriving DecidableEq

/-- One operation. -/
def Storage.apply (s : Storage) : StorageOp → Storage
  | .setPramamter type value => s.setPramamter type value
  | .saveParamters => s.saveParamters
  | .commandSetLocation location => s.commandSetLocation location
  | .restart => .boot s.nvs

/-- A sequence of operations. -/
def Storage.applyAll (s : Storage) (ops : List StorageOp) : Storage := ops.foldl Storage.apply s

/-! ## Fields and keys -/

/-- The fields of `location_t`. -/
inductive LocationField where
  | x
  | y
  | z
deriving DecidableEq

namespace LocationField

/-- The fields in the order in which `command_set_location` writes them. -/
def all : List LocationField := [x, y, z]

/-- The NVS key of a field. -/
def key : LocationField → String
  | x => "location_x"
  | y => "location_y"
  | z => "location_z"

/-- The value of a field. -/
def get (l : Location) : LocationField → ℤ
  | x => l.x
  | y => l.y
  | z => l.z

/-- Every field is saved. -/
lemma mem_all (f : LocationField) : f ∈ all := by cases f <;> decide

/-- Different fields have different keys. -/
lemma key_injective : Function.Injective key := by
  intro f g h
  cases f <;> cases g <;> first | rfl | exact absurd h (by decide)

/-- No key of the stepper record is a key of the location. -/
lemma stepper_key_ne (f : StepperField) (g : LocationField) : f.key ≠ g.key := by
  cases f <;> cases g <;> decide

end LocationField

/-- `nvs_get_value` reads 0 for a missing key. -/
lemma nvsGetValue_eq (nvs : Nvs) (name : String) : nvsGetValue nvs name = (nvs name).getD 0 := by
  unfold nvsGetValue
  cases nvs name <;> rfl

/-- `command_init_stepper` reads each field under its key. -/
lemma get_commandInitStepper (nvs : Nvs) :
    (commandInitStepper nvs).get = KeyValue.loadAll 0 StepperField.key nvs := by
  funext f
  cases f <;> exact nvsGetValue_eq nvs _

/-- `command_init_location` reads each field under its key. -/
lemma get_commandInitLocation (nvs : Nvs) :
    LocationField.get (commandInitLocation nvs) = KeyValue.loadAll 0 LocationField.key nvs := by
  funext f
  cases f <;> exact nvsGetValue_eq nvs _

/-- Locations with equal fields are equal. -/
lemma Location.ext_get {l m : Location} (h : LocationField.get l = LocationField.get m) :
    l = m := by
  cases l
  cases m
  simp only [Location.mk.injEq]
  exact ⟨congrFun h .x, congrFun h .y, congrFun h .z⟩

namespace Storage

/-- `command_set_stepper` writes every field of the record under its key. -/
lemma nvs_commandSetStepper (s : Storage) (stepper : Stepper) :
    (s.commandSetStepper stepper).nvs =
      KeyValue.writeAll StepperField.key stepper.get s.nvs StepperField.all := rfl

/-- `command_set_location` writes every field of the location under its key. -/
lemma nvs_commandSetLocation (s : Storage) (location : Location) :
    (s.commandSetLocation location).nvs =
      KeyValue.writeAll LocationField.key (LocationField.get location) s.nvs LocationField.all :=
  rfl

/-- What `command_set_stepper` wrote is what it reads back. -/
lemma commandInitStepper_commandSetStepper (s : Storage) (stepper : Stepper) :
    commandInitStepper (s.commandSetStepper stepper).nvs = stepper := by
  refine Stepper.ext_get (congrFun ?_)
  rw [get_commandInitStepper, nvs_commandSetStepper]
  exact KeyValue.loadAll_writeAll StepperField.key_injective 0 _ _ StepperField.mem_all

/-- What `command_set_location` wrote is what it reads back. -/
lemma commandInitLocation_commandSetLocation (s : Storage) (location : Location) :
    commandInitLocation (s.commandSetLocation location).nvs = location := by
  refine Location.ext_get ?_
  rw [get_commandInitLocation, nvs_commandSetLocation]
  exact KeyValue.loadAll_writeAll LocationField.key_injective 0 _ _ LocationField.mem_all

/-- `command_set_stepper` leaves the saved location alone. -/
lemma commandInitLocation_commandSetStepper (s : Storage) (stepper : Stepper) :
    commandInitLocation (s.commandSetStepper stepper).nvs = commandInitLocation s.nvs := by
  refine Location.ext_get ?_
  rw [get_commandInitLocation, get_commandInitLocation, nvs_commandSetStepper]
  exact KeyValue.loadAll_writeAll_of_disjoint LocationField.stepper_key_ne 0 _ _ _

/-- `command_set_location` leaves the saved stepper record alone. -/
lemma commandInitStepper_commandSetLocation (s : Storage) (location : Location) :
    commandInitStepper (s.commandSetLocation location).nvs = commandInitStepper s.nvs := by
  refine Stepper.ext_get (congrFun ?_)
  rw [get_commandInitStepper, get_commandInitStepper, nvs_commandSetLocation]
  exact KeyValue.loadAll_writeAll_of_disjoint (fun g f => (LocationField.stepper_key_ne f g).symm)
    0 _ _ _

/-- The handler may take it that NVS returns what was written: the records it reads back are those
of the faithful environment. -/
theorem reload_faithful (s : Storage) (stepper : Stepper) (location : Location) :
    (s.commandSetStepper stepper).deviceStepper = Environment.faithful.reloadStepper stepper ∧
      (s.commandSetLocation location).deviceLocation =
        Environment.faithful.reloadLocation location :=
  ⟨s.commandInitStepper_commandSetStepper stepper,
    s.commandInitLocation_commandSetLocation location⟩

/-! ## The plain stores -/

/-- The stepper record as a plain store: the live record and what NVS holds of it. -/
def stepperView (s : Storage) : RecordStore Stepper := ⟨s.deviceStepper, commandInitStepper s.nvs⟩

/-- The location as a plain store. -/
def locationView (s : Storage) : RecordStore Location :=
  ⟨s.deviceLocation, commandInitLocation s.nvs⟩

end Storage

/-- What an operation means for the stepper record. -/
def StorageOp.onStepper : StorageOp → List (RecordStore.Op Stepper)
  | setPramamter type value => [.modify fun s => Strand.setPramamter s type value]
  | saveParamters => [.save]
  | commandSetLocation _ => []
  | restart => [.restart]

/-- What an operation means for the location. -/
def StorageOp.onLocation : StorageOp → List (RecordStore.Op Location)
  | commandSetLocation location => [.replace location]
  | restart => [.restart]
  | setPramamter .. | saveParamters => []

namespace Storage

/-- One operation on the stepper record is what it means. -/
lemma stepperView_apply (s : Storage) (op : StorageOp) :
    (s.apply op).stepperView = s.stepperView.applyAll op.onStepper := by
  cases op with
  | setPramamter type value => rfl
  | saveParamters =>
    have h := s.commandInitStepper_commandSetStepper s.deviceStepper
    exact congrArg₂ RecordStore.mk h h
  | commandSetLocation location =>
    exact congrArg (RecordStore.mk s.deviceStepper)
      (s.commandInitStepper_commandSetLocation location)
  | restart => rfl

/-- One operation on the location is what it means. -/
lemma locationView_apply (s : Storage) (op : StorageOp) :
    (s.apply op).locationView = s.locationView.applyAll op.onLocation := by
  cases op with
  | setPramamter type value => rfl
  | saveParamters =>
    exact congrArg (RecordStore.mk s.deviceLocation)
      (s.commandInitLocation_commandSetStepper s.deviceStepper)
  | commandSetLocation location =>
    have h := s.commandInitLocation_commandSetLocation location
    exact congrArg₂ RecordStore.mk h h
  | restart => rfl

/-- **The stepper record is a plain store**, over any sequence of operations. -/
theorem stepperView_applyAll (s : Storage) (ops : List StorageOp) :
    (s.applyAll ops).stepperView = s.stepperView.applyAll (ops.flatMap StorageOp.onStepper) := by
  induction ops generalizing s with
  | nil => rfl
  | cons op ops ih =>
    rw [List.flatMap_cons, RecordStore.applyAll_append, ← stepperView_apply]
    exact ih (s.apply op)

/-- **The location is a plain store**, over any sequence of operations. -/
theorem locationView_applyAll (s : Storage) (ops : List StorageOp) :
    (s.applyAll ops).locationView = s.locationView.applyAll (ops.flatMap StorageOp.onLocation) := by
  induction ops generalizing s with
  | nil => rfl
  | cons op ops ih =>
    rw [List.flatMap_cons, RecordStore.applyAll_append, ← locationView_apply]
    exact ih (s.apply op)

/-! ## The life of a device -/

/-- The records after these operations, on a device whose NVS was empty at its first start. -/
def afterAll (ops : List StorageOp) : Storage := (boot fun _ => none).applyAll ops

/-- The operations that follow a sequence. -/
lemma afterAll_append (ops ops' : List StorageOp) :
    afterAll (ops ++ ops') = (afterAll ops).applyAll ops' := List.foldl_append

/-- Without `saveParamters` a sequence does not save the stepper record. -/
lemma not_saves_onStepper {ops : List StorageOp} (h : .saveParamters ∉ ops) :
    ∀ op ∈ ops.flatMap StorageOp.onStepper, ¬ op.Saves := by
  intro op hop
  obtain ⟨o, ho, hop⟩ := List.mem_flatMap.mp hop
  cases o with
  | setPramamter type value =>
    obtain rfl := List.mem_singleton.mp hop
    exact id
  | saveParamters => exact absurd ho h
  | commandSetLocation location => exact absurd hop List.not_mem_nil
  | restart =>
    obtain rfl := List.mem_singleton.mp hop
    exact id

/-- Without `command_set_location` a sequence does not save the location. -/
lemma not_saves_onLocation {ops : List StorageOp} (h : ∀ l, .commandSetLocation l ∉ ops) :
    ∀ op ∈ ops.flatMap StorageOp.onLocation, ¬ op.Saves := by
  intro op hop
  obtain ⟨o, ho, hop⟩ := List.mem_flatMap.mp hop
  cases o with
  | commandSetLocation location => exact absurd ho (h location)
  | setPramamter type value | saveParamters => exact absurd hop List.not_mem_nil
  | restart =>
    obtain rfl := List.mem_singleton.mp hop
    exact id

/-- A restart after a sequence without `saveParamters` brings back the saved stepper record. -/
lemma deviceStepper_restart (s : Storage) {ops : List StorageOp} (h : .saveParamters ∉ ops) :
    (s.applyAll (ops ++ [.restart])).deviceStepper = commandInitStepper s.nvs := by
  have hview := congrArg RecordStore.live (s.stepperView_applyAll (ops ++ [.restart]))
  rw [List.flatMap_append] at hview
  exact hview.trans (RecordStore.live_restart (not_saves_onStepper h))

/-- A restart after a sequence without `command_set_location` brings back the saved location. -/
lemma deviceLocation_restart (s : Storage) {ops : List StorageOp}
    (h : ∀ l, .commandSetLocation l ∉ ops) :
    (s.applyAll (ops ++ [.restart])).deviceLocation = commandInitLocation s.nvs := by
  have hview := congrArg RecordStore.live (s.locationView_applyAll (ops ++ [.restart]))
  rw [List.flatMap_append] at hview
  exact hview.trans (RecordStore.live_restart (not_saves_onLocation h))

/-- What is asked of the records of a device. -/
structure KeepsRecords (afterAll : List StorageOp → Storage) : Prop where
  /-- The stepper record is a plain store. -/
  stepper_refines : ∀ ops : List StorageOp, (afterAll ops).stepperView =
    RecordStore.applyAll ⟨⟨0, 0, 0, 0, 0⟩, ⟨0, 0, 0, 0, 0⟩⟩ (ops.flatMap StorageOp.onStepper)
  /-- The location is a plain store. -/
  location_refines : ∀ ops : List StorageOp, (afterAll ops).locationView =
    RecordStore.applyAll ⟨⟨0, 0, 0⟩, ⟨0, 0, 0⟩⟩ (ops.flatMap StorageOp.onLocation)
  /-- `saveParamters` leaves both live records unchanged. -/
  save_live : ∀ ops : List StorageOp, (afterAll (ops ++ [.saveParamters])).deviceStepper =
      (afterAll ops).deviceStepper ∧
    (afterAll (ops ++ [.saveParamters])).deviceLocation = (afterAll ops).deviceLocation
  /-- `command_set_location` sets the location and leaves the stepper record unchanged. -/
  set_location_live : ∀ (ops : List StorageOp) (location : Location),
    (afterAll (ops ++ [.commandSetLocation location])).deviceLocation = location ∧
      (afterAll (ops ++ [.commandSetLocation location])).deviceStepper =
        (afterAll ops).deviceStepper
  /-- A restart brings the stepper record back as it was at the last `saveParamters`. -/
  stepper_restart : ∀ ops since : List StorageOp, .saveParamters ∉ since →
    (afterAll (ops ++ [.saveParamters] ++ (since ++ [.restart]))).deviceStepper =
      (afterAll ops).deviceStepper
  /-- A stepper record that was never saved is zero after a restart. -/
  stepper_restart_unsaved : ∀ ops : List StorageOp, .saveParamters ∉ ops →
    (afterAll (ops ++ [.restart])).deviceStepper = ⟨0, 0, 0, 0, 0⟩
  /-- A restart brings back the location of the last `command_set_location`. -/
  location_restart : ∀ (ops : List StorageOp) (location : Location) (since : List StorageOp),
    (∀ l, .commandSetLocation l ∉ since) →
    (afterAll (ops ++ [.commandSetLocation location] ++ (since ++ [.restart]))).deviceLocation =
      location
  /-- A location that was never set is zero after a restart. -/
  location_restart_unsaved : ∀ ops : List StorageOp,
    (∀ l, .commandSetLocation l ∉ ops) →
    (afterAll (ops ++ [.restart])).deviceLocation = ⟨0, 0, 0⟩

/-- **The records of a device are plain stores**: saving leaves them as they are, and a restart
brings each back as it was last saved. -/
theorem keepsRecords_afterAll : KeepsRecords afterAll where
  stepper_refines ops := stepperView_applyAll _ ops
  location_refines ops := locationView_applyAll _ ops
  save_live ops := by
    rw [afterAll_append]
    exact ⟨commandInitStepper_commandSetStepper _ _, rfl⟩
  set_location_live ops location := by
    rw [afterAll_append]
    exact ⟨commandInitLocation_commandSetLocation _ _, rfl⟩
  stepper_restart ops since h := by
    rw [afterAll_append, deviceStepper_restart _ h, afterAll_append]
    exact commandInitStepper_commandSetStepper _ _
  stepper_restart_unsaved ops h := deviceStepper_restart _ h
  location_restart ops location since h := by
    rw [afterAll_append, deviceLocation_restart _ h, afterAll_append]
    exact commandInitLocation_commandSetLocation _ _
  location_restart_unsaved ops h := deviceLocation_restart _ h

/-- Two parameters are set and the first alone is saved before a restart. -/
example : (afterAll [.setPramamter 2 10, .saveParamters, .setPramamter 3 90,
    .commandSetLocation ⟨1, 2, 3⟩, .restart]).deviceStepper = ⟨0, 10, 0, 0, 0⟩ := by
  decide +kernel

end Storage

end Strand
