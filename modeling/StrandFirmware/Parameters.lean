import StrandFirmware.Device

/-!
# The stored parameters

`device_stepper` is written field by field with `setPramamter` and saved as a whole with
`saveParamters`: the record is copied, the five keys are written to NVS, they are read back, and
the result replaces the record.  Here every NVS operation succeeds, so NVS is a map from keys to
numbers that reads 0 where nothing was stored.
-/

namespace Strand

/-- The fields of `stepper_t`. -/
inductive StepperField where
  | current
  | min
  | max
  | target
  | number
deriving DecidableEq

namespace StepperField

/-- The fields in the order in which `saveParamters` copies, writes and reads them. -/
def all : List StepperField := [current, min, max, target, number]

/-- The NVS key of a field. -/
def key : StepperField → String
  | current => "stepper_current"
  | min => "stepper_min"
  | max => "stepper_max"
  | target => "stepper_target"
  | number => "stepper_number"

/-- The field that `setPramamter` writes for a `type`, if any. -/
def ofType (type : ℤ) : Option StepperField :=
  if type = 1 then some current
  else if type = 2 then some min
  else if type = 3 then some max
  else if type = 4 then some target
  else if type = 5 then some number
  else none

/-- Every field is saved. -/
@[simp] lemma mem_all (f : StepperField) : f ∈ all := by cases f <;> decide

/-- Different fields have different keys. -/
lemma key_injective : Function.Injective key := by
  intro f g h
  cases f <;> cases g <;> first | rfl | exact absurd h (by decide)

end StepperField

namespace Stepper

/-- The value of a field. -/
def get (s : Stepper) : StepperField → ℤ
  | .current => s.current
  | .min => s.min
  | .max => s.max
  | .target => s.target
  | .number => s.number

/-- Write a field. -/
def set (s : Stepper) (f : StepperField) (v : ℤ) : Stepper :=
  match f with
  | .current => { s with current := v }
  | .min => { s with min := v }
  | .max => { s with max := v }
  | .target => { s with target := v }
  | .number => { s with number := v }

/-- A record with the given fields. -/
def ofFields (v : StepperField → ℤ) : Stepper :=
  ⟨v .current, v .min, v .max, v .target, v .number⟩

@[simp] lemma get_ofFields (v : StepperField → ℤ) (f : StepperField) :
    (ofFields v).get f = v f := by
  cases f <;> rfl

@[simp] lemma get_set (s : Stepper) (f g : StepperField) (v : ℤ) :
    (s.set f v).get g = if g = f then v else s.get g := by
  cases f <;> cases g <;> rfl

/-- Records with equal fields are equal. -/
lemma ext_get {s t : Stepper} (h : ∀ f, s.get f = t.get f) : s = t := by
  cases s
  cases t
  simp only [Stepper.mk.injEq]
  exact ⟨h .current, h .min, h .max, h .target, h .number⟩

end Stepper

/-- `setPramamter(type, value)` on the record. -/
def setPramamter (s : Stepper) (type value : ℤ) : Stepper :=
  match StepperField.ofType type with
  | some f => s.set f value
  | none => s

end Strand
