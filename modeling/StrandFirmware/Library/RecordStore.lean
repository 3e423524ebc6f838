import Mathlib

/-!
# A record with a saved copy

`RecordStore` is the plain meaning of a record that survives a restart: a live value and the value
it was last saved with.  A restart replaces the first by the second.

Such a record is kept in a key-value store by writing each field under a key of its own.  `loadAll`
and `writeAll` do this for any family of fields; the two laws needed of them are that what was
written is what is loaded (`loadAll_writeAll`), for injective keys, and that another family of
fields is not affected (`loadAll_writeAll_of_disjoint`), for disjoint keys.
-/

/-- A record with its saved copy. -/
structure RecordStore (R : Type*) where
  live : R
  saved : R

namespace RecordStore

variable {R : Type*}

/-- What happens to a record. -/
inductive Op (R : Type*) where
  /-- The live record is changed. -/
  | modify (f : R → R)
  /-- The live record is saved. -/
  | save
  /-- The live record is replaced and saved. -/
  | replace (r : R)
  /-- The live record is lost and the saved copy takes its place. -/
  | restart

/-- The operation changes the saved copy. -/
def Op.Saves : Op R → Prop
  | save | replace _ => True
  | modify _ | restart => False

/-- One operation. -/
def apply (s : RecordStore R) : Op R → RecordStore R
  | .modify f => { s with live := f s.live }
  | .save => { s with saved := s.live }
  | .replace r => ⟨r, r⟩
  | .restart => { s with live := s.saved }

/-- A sequence of operations. -/
def applyAll (s : RecordStore R) (ops : List (Op R)) : RecordStore R := ops.foldl apply s

/-- A sequence followed by another. -/
lemma applyAll_append (s : RecordStore R) (ops ops' : List (Op R)) :
    s.applyAll (ops ++ ops') = (s.applyAll ops).applyAll ops' := List.foldl_append

/-- A sequence without saves keeps the saved copy. -/
lemma saved_applyAll {s : RecordStore R} {ops : List (Op R)} (h : ∀ op ∈ ops, ¬ op.Saves) :
    (s.applyAll ops).saved = s.saved := by
  induction ops generalizing s with
  | nil => rfl
  | cons op ops ih =>
    obtain ⟨hop, hops⟩ := List.forall_mem_cons.mp h
    have hstep : (s.apply op).saved = s.saved := by
      cases op with
      | modify f | restart => rfl
      | save | replace r => exact absurd trivial hop
    exact (ih hops).trans hstep

/-- After a sequence without saves, a restart brings back what was saved before it. -/
lemma live_restart {s : RecordStore R} {ops : List (Op R)} (h : ∀ op ∈ ops, ¬ op.Saves) :
    (s.applyAll (ops ++ [.restart])).live = s.saved := by
  rw [applyAll_append]
  exact saved_applyAll h

end RecordStore

/-! ## Records in a key-value store -/

namespace KeyValue

variable {A K K' V : Type*} [DecidableEq A]

/-- Write a value under a key. -/
def write (store : A → Option V) (a : A) (v : V) : A → Option V :=
  Function.update store a (some v)

/-- The fields found under their keys, with a default for a key that was never written. -/
def loadAll (default : V) (key : K → A) (store : A → Option V) (k : K) : V :=
  (store (key k)).getD default

/-- Write the fields `ks` of a record, each under its key. -/
def writeAll (key : K → A) (record : K → V) (store : A → Option V) (ks : List K) :
    A → Option V :=
  ks.foldl (fun store k => write store (key k) (record k)) store

/-- A key that belongs to none of the fields keeps its value. -/
lemma writeAll_of_forall_ne {key : K → A} {a : A} {ks : List K} (h : ∀ k ∈ ks, key k ≠ a)
    (record : K → V) (store : A → Option V) : writeAll key record store ks a = store a := by
  induction ks generalizing store with
  | nil => rfl
  | cons k ks ih =>
    obtain ⟨hk, hks⟩ := List.forall_mem_cons.mp h
    exact (ih hks _).trans (Function.update_of_ne hk.symm _ _)

/-- The key of a field that was written has the value of the field. -/
lemma writeAll_key {key : K → A} (hkey : Function.Injective key) (record : K → V)
    (store : A → Option V) {k : K} {ks : List K} (hk : k ∈ ks) :
    writeAll key record store ks (key k) = some (record k) := by
  induction ks generalizing store with
  | nil => exact absurd hk List.not_mem_nil
  | cons k' ks ih =>
    by_cases hmem : k ∈ ks
    · exact ih _ hmem
    · obtain rfl : k = k' := (List.mem_cons.mp hk).resolve_right hmem
      have hne : ∀ k' ∈ ks, key k' ≠ key k := fun k' hk' h => hmem (hkey h ▸ hk')
      exact (writeAll_of_forall_ne hne record _).trans (Function.update_self _ _ _)

/-- The first of some fields is written or left out. -/
lemma writeAll_filter_cons (key : K → A) (record : K → V) (store : A → Option V) (p : K → Bool)
    (k : K) (ks : List K) : writeAll key record store ((k :: ks).filter p) =
      writeAll key record (if p k then write store (key k) (record k) else store)
        (ks.filter p) := by
  by_cases hp : p k = true
  · rw [List.filter_cons_of_pos hp, if_pos hp]
    rfl
  · rw [List.filter_cons_of_neg hp, if_neg hp]

/-- The key of a field after some of the fields were written. -/
lemma writeAll_filter_key {key : K → A} (hkey : Function.Injective key) (record : K → V)
    (store : A → Option V) {ks : List K} (p : K → Bool) {k : K} (hk : k ∈ ks) :
    writeAll key record store (ks.filter p) (key k) = if p k then some (record k)
      else store (key k) := by
  by_cases hp : p k = true
  · rw [if_pos hp, writeAll_key hkey record store (List.mem_filter.mpr ⟨hk, hp⟩)]
  · have hne : ∀ k' ∈ ks.filter p, key k' ≠ key k := by
      intro k' hk' h
      obtain rfl := hkey h
      exact hp (List.mem_filter.mp hk').2
    rw [if_neg hp, writeAll_of_forall_ne hne]

/-- What was written is what is loaded. -/
theorem loadAll_writeAll {key : K → A} (hkey : Function.Injective key) (default : V)
    (record : K → V) (store : A → Option V) {ks : List K} (hks : ∀ k, k ∈ ks) :
    loadAll default key (writeAll key record store ks) = record := by
  funext k
  rw [loadAll, writeAll_key hkey record store (hks k), Option.getD_some]

/-- After some of the fields were written, these are loaded as written and the others as before. -/
theorem loadAll_writeAll_apply [DecidableEq K] {key : K → A} (hkey : Function.Injective key)
    (default : V) (record : K → V) (store : A → Option V) (ks : List K) (k : K) :
    loadAll default key (writeAll key record store ks) k =
      if k ∈ ks then record k else loadAll default key store k := by
  by_cases hk : k ∈ ks
  · rw [if_pos hk, loadAll, writeAll_key hkey record store hk, Option.getD_some]
  · have hne : ∀ k' ∈ ks, key k' ≠ key k := fun k' hk' h => hk (hkey h ▸ hk')
    rw [if_neg hk, loadAll, writeAll_of_forall_ne hne, loadAll]

/-- Writing one family of fields does not affect another with other keys. -/
theorem loadAll_writeAll_of_disjoint {key : K → A} {key' : K' → A} (h : ∀ k k', key k ≠ key' k')
    (default : V) (record : K → V) (store : A → Option V) (ks : List K) :
    loadAll default key' (writeAll key record store ks) = loadAll default key' store := by
  funext k'
  rw [loadAll, writeAll_of_forall_ne (fun k _ => h k k'), loadAll]

end KeyValue
