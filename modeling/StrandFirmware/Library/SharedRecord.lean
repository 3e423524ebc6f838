import StrandFirmware.Library.Runs

/-!
# A shared record that is saved by copying it through a store

Several tasks share a record with fields `K`.  A task sets a field with one write.  A save takes
many: the task copies the record field by field, writes each field of the copy to the store, reads
each of them back from the store, and finally overwrites the whole record with what it read.

While a save is under way the record it will write back is fixed field by field, so a field that
another task sets after the save copied it is set back at the end.  `SyncedAt` is the invariant of
one field in the absence of such sets: it is kept by every step of a save, and by a set that no
save in progress can undo (`Unobserved`).
-/

/-- Where a task stands in a save, with the fields it has still to go through. -/
inductive SavePhase (K : Type*) where
  /-- No save is in progress. -/
  | idle
  /-- The record is being copied. -/
  | copying (rest : List K)
  /-- The copy is being written to the store. -/
  | writing (rest : List K)
  /-- The fields are being read back. -/
  | reading (rest : List K)
deriving DecidableEq

namespace SavePhase

variable {K : Type*}

/-- The save has copied the field. -/
def Copied (k : K) : SavePhase K → Prop
  | idle => False
  | copying rest => k ∉ rest
  | writing _ => True
  | reading _ => True

/-- The save has written the field to the store. -/
def Written (k : K) : SavePhase K → Prop
  | idle => False
  | copying _ => False
  | writing rest => k ∉ rest
  | reading _ => True

/-- The save has read the field back. -/
def Reread (k : K) : SavePhase K → Prop
  | idle => False
  | copying _ => False
  | writing _ => False
  | reading rest => k ∉ rest

instance [DecidableEq K] (k : K) : (p : SavePhase K) → Decidable (p.Copied k)
  | idle => .isFalse id
  | copying rest => inferInstanceAs (Decidable (k ∉ rest))
  | writing _ => .isTrue trivial
  | reading _ => .isTrue trivial

/-- What was written was copied before. -/
lemma Written.copied {k : K} {p : SavePhase K} (h : p.Written k) : p.Copied k := by
  cases p <;> first | exact h | exact h.elim | trivial

/-- What was read back was written before. -/
lemma Reread.written {k : K} {p : SavePhase K} (h : p.Reread k) : p.Written k := by
  cases p <;> first | exact h.elim | trivial

end SavePhase

/-- The local variables of a task. -/
structure SaveTask (K V : Type*) where
  phase : SavePhase K
  /-- The copy of the record that is written to the store. -/
  copied : K → V
  /-- The record that was read back from the store. -/
  reread : K → V

/-- The shared record, the store, and the tasks. -/
structure SharedRecord (θ K A V : Type*) where
  live : K → V
  store : A → V
  task : θ → SaveTask K V
  /-- The value that each field was last set to. -/
  last : K → V

namespace SharedRecord

variable {θ K A V : Type*} [DecidableEq θ] [DecidableEq K] [DecidableEq A]

/-- Nothing is being saved. -/
def boot (live : K → V) (store : A → V) : SharedRecord θ K A V where
  live := live
  store := store
  task _ := ⟨.idle, live, live⟩
  last := live

/-- Set a field. -/
def set (s : SharedRecord θ K A V) (k : K) (v : V) : SharedRecord θ K A V :=
  { s with live := Function.update s.live k v, last := Function.update s.last k v }

/-- Begin a save of the fields `all`. -/
def save (all : List K) (s : SharedRecord θ K A V) (a : θ) : SharedRecord θ K A V :=
  { s with task := Function.update s.task a { s.task a with phase := .copying all } }

/-- The next step of a save: copy, write or read back one field, go on to the next phase, or
overwrite the record. -/
def proceed (all : List K) (key : K → A) (s : SharedRecord θ K A V) (a : θ) :
    Option (SharedRecord θ K A V) :=
  let x := s.task a
  match x.phase with
  | .idle => none
  | .copying (k :: ks) =>
    let x := { x with phase := .copying ks, copied := Function.update x.copied k (s.live k) }
    some { s with task := Function.update s.task a x }
  | .copying [] => some { s with task := Function.update s.task a { x with phase := .writing all } }
  | .writing (k :: ks) =>
    some { s with
      store := Function.update s.store (key k) (x.copied k)
      task := Function.update s.task a { x with phase := .writing ks } }
  | .writing [] => some { s with task := Function.update s.task a { x with phase := .reading all } }
  | .reading (k :: ks) =>
    let x := { x with
      phase := .reading ks
      reread := Function.update x.reread k (s.store (key k)) }
    some { s with task := Function.update s.task a x }
  | .reading [] =>
    some { s with
      live := x.reread
      task := Function.update s.task a { x with phase := .idle } }

/-- No save in progress can undo setting the field to this value: it is the value the field has, or
no save has copied the field yet. -/
def Unobserved (s : SharedRecord θ K A V) (k : K) (v : V) : Prop :=
  v = s.live k ∨ ∀ a, ¬ (s.task a).phase.Copied k

instance [Fintype θ] [DecidableEq V] (s : SharedRecord θ K A V) (k : K) (v : V) :
    Decidable (s.Unobserved k v) :=
  inferInstanceAs (Decidable (_ ∨ _))

/-- The field has the value it was last set to, in the record and in every copy on its way back to
the record. -/
structure SyncedAt (key : K → A) (s : SharedRecord θ K A V) (k : K) : Prop where
  live : s.live k = s.last k
  copied : ∀ a, (s.task a).phase.Copied k → (s.task a).copied k = s.last k
  stored : ∀ a, (s.task a).phase.Written k → s.store (key k) = s.last k
  reread : ∀ a, (s.task a).phase.Reread k → (s.task a).reread k = s.last k

omit [DecidableEq θ] [DecidableEq K] [DecidableEq A] in
/-- Without a save in progress there is nothing to keep in step. -/
lemma syncedAt_boot (key : K → A) (live : K → V) (store : A → V) (k : K) :
    (boot live store : SharedRecord θ K A V).SyncedAt key k where
  live := rfl
  copied _ h := h.elim
  stored _ h := h.elim
  reread _ h := h.elim

variable {all : List K} {key : K → A} {s t : SharedRecord θ K A V} {k : K}

omit [DecidableEq θ] [DecidableEq A] in
/-- Setting another field changes nothing for this one. -/
lemma SyncedAt.set_of_ne (hs : s.SyncedAt key k) {j : K} (hj : k ≠ j) (v : V) :
    (s.set j v).SyncedAt key k where
  live := by simpa [set, Function.update_of_ne hj] using hs.live
  copied := by simpa [set, Function.update_of_ne hj] using hs.copied
  stored := by simpa [set, Function.update_of_ne hj] using hs.stored
  reread := by simpa [set, Function.update_of_ne hj] using hs.reread

omit [DecidableEq θ] [DecidableEq A] in
/-- A set that no save in progress can undo. -/
lemma SyncedAt.set (hs : s.SyncedAt key k) {v : V} (hv : s.Unobserved k v) :
    (s.set k v).SyncedAt key k := by
  rcases hv with rfl | hnone
  · -- the field already has this value, and it is the one it was last set to
    have hlast : (s.set k (s.live k)).last = s.last := by
      simp [SharedRecord.set, hs.live]
    have hlive : (s.set k (s.live k)).live = s.live := by simp [SharedRecord.set]
    exact ⟨by rw [hlast, hlive, hs.live], by rw [hlast]; exact hs.copied,
      by rw [hlast]; exact hs.stored, by rw [hlast]; exact hs.reread⟩
  · exact ⟨by simp [SharedRecord.set], fun a h => absurd h (hnone a),
      fun a h => absurd h.copied (hnone a), fun a h => absurd h.written.copied (hnone a)⟩

omit [DecidableEq K] [DecidableEq A] in
/-- A step of one task, which may also write the field to the store or to the record: the values it
puts there, and what its new phase says of its copies, have to be right. -/
lemma SyncedAt.of_task (hs : s.SyncedAt key k) {a : θ} {x : SaveTask K V}
    (htask : t.task = Function.update s.task a x) (hlast : t.last = s.last)
    (hlive : t.live k = s.last k)
    (hstore : t.store (key k) = s.store (key k) ∨ t.store (key k) = s.last k)
    (hcopied : x.phase.Copied k → x.copied k = s.last k)
    (hwritten : x.phase.Written k → t.store (key k) = s.last k)
    (hreread : x.phase.Reread k → x.reread k = s.last k) : t.SyncedAt key k := by
  have hcases : ∀ b, t.task b = x ∨ t.task b = s.task b := by
    intro b
    by_cases hb : b = a
    · exact .inl (by simp [htask, hb])
    · exact .inr (by simp [htask, Function.update_of_ne hb])
  refine ⟨by rw [hlive, hlast], fun b h => ?_, fun b h => ?_, fun b h => ?_⟩ <;> rw [hlast] <;>
    rcases hcases b with heq | heq <;> rw [heq] at h
  · rw [heq]
    exact hcopied h
  · rw [heq]
    exact hs.copied b h
  · exact hwritten h
  · rcases hstore with hstore | hstore
    · rw [hstore]
      exact hs.stored b h
    · exact hstore
  · rw [heq]
    exact hreread h
  · rw [heq]
    exact hs.reread b h

omit [DecidableEq K] [DecidableEq A] in
/-- Beginning a save: nothing has been copied yet. -/
lemma SyncedAt.save (hall : ∀ k, k ∈ all) (hs : s.SyncedAt key k) (a : θ) :
    (s.save all a).SyncedAt key k :=
  hs.of_task rfl rfl hs.live (.inl rfl) (fun h => absurd (hall k) h) False.elim False.elim

/-- **One step of a save** keeps the field in step: what is copied, written to the store, read back
and finally assigned is the value the field was last set to. -/
theorem SyncedAt.proceed (hall : ∀ k, k ∈ all) (hkey : Function.Injective key)
    (hs : s.SyncedAt key k) {a : θ} (h : s.proceed all key a = some t) : t.SyncedAt key k := by
  have hcopied := hs.copied a
  have hwritten := hs.stored a
  have hreread := hs.reread a
  unfold SharedRecord.proceed at h
  cases hphase : (s.task a).phase with
  | idle => simp [hphase] at h
  | copying rest =>
    rw [hphase] at hcopied
    cases rest with
    | nil =>
      simp only [hphase, Option.some.injEq] at h
      subst h
      exact hs.of_task rfl rfl hs.live (.inl rfl) (fun _ => hcopied List.not_mem_nil)
        (fun h => absurd (hall k) h) False.elim
    | cons j ks =>
      simp only [hphase, Option.some.injEq] at h
      subst h
      refine hs.of_task rfl rfl hs.live (.inl rfl) (fun hk => ?_) False.elim False.elim
      by_cases hj : k = j
      · subst hj
        simpa using hs.live
      · refine (Function.update_of_ne hj _ _).trans ?_
        exact hcopied (List.not_mem_cons_of_ne_of_not_mem hj hk)
  | writing rest =>
    rw [hphase] at hcopied hwritten
    cases rest with
    | nil =>
      simp only [hphase, Option.some.injEq] at h
      subst h
      exact hs.of_task rfl rfl hs.live (.inl rfl) (fun _ => hcopied trivial)
        (fun _ => hwritten List.not_mem_nil) (fun h => absurd (hall k) h)
    | cons j ks =>
      simp only [hphase, Option.some.injEq] at h
      subst h
      by_cases hj : k = j
      · subst hj
        have hstore : Function.update s.store (key k) ((s.task a).copied k) (key k) = s.last k := by
          rw [Function.update_self, hcopied trivial]
        exact hs.of_task rfl rfl hs.live (.inr hstore) hcopied (fun _ => hstore) False.elim
      · have hstore : Function.update s.store (key j) ((s.task a).copied j) (key k) =
            s.store (key k) := Function.update_of_ne (hkey.ne hj) _ _
        refine hs.of_task rfl rfl hs.live (.inl hstore) hcopied (fun hk => ?_) False.elim
        exact hstore.trans (hwritten (List.not_mem_cons_of_ne_of_not_mem hj hk))
  | reading rest =>
    rw [hphase] at hcopied hwritten hreread
    cases rest with
    | nil =>
      simp only [hphase, Option.some.injEq] at h
      subst h
      have hlive := hreread List.not_mem_nil
      exact hs.of_task rfl rfl hlive (.inl rfl) False.elim False.elim False.elim
    | cons j ks =>
      simp only [hphase, Option.some.injEq] at h
      subst h
      refine hs.of_task rfl rfl hs.live (.inl rfl) hcopied hwritten ?_
      intro hk
      by_cases hj : k = j
      · subst hj
        simpa using hwritten trivial
      · refine (Function.update_of_ne hj _ _).trans ?_
        exact hreread (List.not_mem_cons_of_ne_of_not_mem hj hk)

/-- A step of a save sets nothing. -/
lemma last_proceed {a : θ} (h : s.proceed all key a = some t) : t.last = s.last := by
  unfold SharedRecord.proceed at h
  dsimp only at h
  split at h <;> cases h <;> rfl

/-- A step of a save is no step of another task. -/
lemma task_proceed_of_ne {a b : θ} (hb : b ≠ a) (h : s.proceed all key a = some t) :
    t.task b = s.task b := by
  unfold SharedRecord.proceed at h
  dsimp only at h
  split at h <;> cases h <;> simp [Function.update_of_ne hb]

/-- A task without a save has no next step. -/
lemma proceed_of_idle {a : θ} (h : (s.task a).phase = .idle) : s.proceed all key a = none := by
  simp [SharedRecord.proceed, h]

omit [DecidableEq A] in
/-- Updates for some fields, in any order. -/
lemma foldl_update_apply (f g : K → V) (ks : List K) (k : K) :
    ks.foldl (fun h j => Function.update h j (g j)) f k = if k ∈ ks then g k else f k := by
  induction ks generalizing f with
  | nil => simp
  | cons j ks ih =>
    rw [List.foldl_cons, ih]
    by_cases hk : k ∈ ks
    · simp [hk]
    · by_cases hj : k = j
      · subst hj
        simp
      · simp [hk, hj]

/-- Updates under the keys of some fields. -/
lemma foldl_update_key_apply (hkey : Function.Injective key) (m : A → V) (g : K → V) (ks : List K)
    (k : K) :
    ks.foldl (fun h j => Function.update h (key j) (g j)) m (key k) =
      if k ∈ ks then g k else m (key k) := by
  induction ks generalizing m with
  | nil => simp
  | cons j ks ih =>
    rw [List.foldl_cons, ih]
    by_cases hk : k ∈ ks
    · simp [hk]
    · by_cases hj : k = j
      · subst hj
        simp
      · simp [hk, hj, Function.update_of_ne (hkey.ne hj)]

/-- The copies of a save. -/
lemma run_copying {a : θ} {ks : List K} {f g : K → V} (s : SharedRecord θ K A V) :
    StepRuns.run (proceed all key)
        { s with task := Function.update s.task a ⟨.copying ks, f, g⟩ }
        (List.replicate ks.length a) =
      some { s with
        task := Function.update s.task a
          ⟨.copying [], ks.foldl (fun h j => Function.update h j (s.live j)) f, g⟩ } := by
  induction ks generalizing f with
  | nil => rfl
  | cons k ks ih =>
    rw [List.length_cons, List.replicate_succ, StepRuns.run]
    simpa [proceed] using ih

/-- The writes of a save. -/
lemma run_writing {a : θ} {ks : List K} {f g : K → V} {m : A → V} (s : SharedRecord θ K A V) :
    StepRuns.run (proceed all key)
        { s with store := m, task := Function.update s.task a ⟨.writing ks, f, g⟩ }
        (List.replicate ks.length a) =
      some { s with
        store := ks.foldl (fun h j => Function.update h (key j) (f j)) m
        task := Function.update s.task a ⟨.writing [], f, g⟩ } := by
  induction ks generalizing m with
  | nil => rfl
  | cons k ks ih =>
    rw [List.length_cons, List.replicate_succ, StepRuns.run]
    simpa [proceed] using ih

/-- The reads of a save. -/
lemma run_reading {a : θ} {ks : List K} {f g : K → V} (s : SharedRecord θ K A V) :
    StepRuns.run (proceed all key)
        { s with task := Function.update s.task a ⟨.reading ks, f, g⟩ }
        (List.replicate ks.length a) =
      some { s with
        task := Function.update s.task a
          ⟨.reading [], f, ks.foldl (fun h j => Function.update h j (s.store (key j))) g⟩ } := by
  induction ks generalizing g with
  | nil => rfl
  | cons k ks ih =>
    rw [List.length_cons, List.replicate_succ, StepRuns.run]
    simpa [proceed] using ih

/-- The copy is complete: it is handed over to be written. -/
lemma proceed_copying_nil {a : θ} {f g : K → V} (s : SharedRecord θ K A V) :
    proceed all key { s with task := Function.update s.task a ⟨.copying [], f, g⟩ } a =
      some { s with task := Function.update s.task a ⟨.writing all, f, g⟩ } := by
  simp [proceed]

/-- Everything is written: it is read back. -/
lemma proceed_writing_nil {a : θ} {f g : K → V} {m : A → V} (s : SharedRecord θ K A V) :
    proceed all key
        { s with store := m, task := Function.update s.task a ⟨.writing [], f, g⟩ } a =
      some { s with store := m, task := Function.update s.task a ⟨.reading all, f, g⟩ } := by
  simp [proceed]

/-- The store after a save of the record. -/
def saved (all : List K) (key : K → A) (live : K → V) (store : A → V) : A → V :=
  all.foldl (fun h j => Function.update h (key j) (live j)) store

/-- The store holds every field that was saved. -/
lemma saved_key (hall : ∀ k, k ∈ all) (hkey : Function.Injective key) (live : K → V) (store : A → V)
    (k : K) : saved all key live store (key k) = live k := by
  rw [saved, foldl_update_key_apply hkey, if_pos (hall k)]

/-- **A save without interference** leaves the record as it was, with its fields in the store. -/
theorem run_save (hall : ∀ k, k ∈ all) (hkey : Function.Injective key) (s : SharedRecord θ K A V)
    (a : θ) :
    StepRuns.run (proceed all key) (s.save all a) (List.replicate (3 * all.length + 3) a) =
      some { s with
        store := saved all key s.live s.store
        task := Function.update s.task a ⟨.idle, s.live, s.live⟩ } := by
  have hcopied : ∀ f, all.foldl (fun h j => Function.update h j (s.live j)) f = s.live := by
    intro f
    funext k
    rw [foldl_update_apply, if_pos (hall k)]
  have hreread : ∀ g, all.foldl (fun h j =>
      Function.update h j (saved all key s.live s.store (key j))) g = s.live := by
    intro g
    funext k
    rw [foldl_update_apply, if_pos (hall k), saved_key hall hkey]
  have hsteps : List.replicate (3 * all.length + 3) a =
      List.replicate all.length a ++ a :: (List.replicate all.length a ++
        a :: (List.replicate all.length a ++ [a])) := by
    simp only [← List.replicate_succ, ← List.replicate_succ', ← List.replicate_add]
    congr 1
    omega
  rw [hsteps, StepRuns.run_append_eq_some_iff]
  refine ⟨_, run_copying s, StepRuns.run_cons_eq_some_iff.mpr ⟨_, proceed_copying_nil s, ?_⟩⟩
  rw [hcopied, StepRuns.run_append_eq_some_iff]
  refine ⟨_, run_writing s, StepRuns.run_cons_eq_some_iff.mpr ⟨_, proceed_writing_nil s, ?_⟩⟩
  rw [StepRuns.run_append_eq_some_iff]
  refine ⟨_, run_reading { s with store := saved all key s.live s.store }, ?_⟩
  simp [StepRuns.run, proceed, hreread]

end SharedRecord
