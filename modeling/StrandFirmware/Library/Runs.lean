import Mathlib

/-!
# Runs of a labelled step function

A system is given by a step function `step : σ → ι → Option σ`: the label carries every choice
(which component moves, what it receives, how long it waits), and `none` says that the label is
not enabled in the state.  A run is then a list of labels, and `run step s ls` computes the state
it ends in.

Seven rules are proved once here and used for every system: `invariant_of_run` (a property kept by
each step is kept by each run, with a variant for runs whose steps all meet a condition, and one for
a property that also speaks of what the run has put out),
`iff_along_of_run` (a property that a step gives up exactly when the step misses a condition holds
at the end of a run exactly when every step of the run met the condition),
`forall_prefix_iff_along` (the same for a property that a later step may restore, asked of every
state of the run), `forall_mem_outputs_iff` (a property of everything that the steps of a run put
out), `exists_run_of_progress` (a measure that can always be made smaller) and
`exists_run_of_simulation` (a view under which each step of a system is a step of another
one turns runs of the one into runs of the other; `run_outputs_of_simulation` also says which, and
`exists_run_of_related` is the same for a relation, with what both runs put out).
-/

namespace StepRuns

variable {σ ι : Type*}

/-- The state after a list of labelled steps, if every one of them is enabled. -/
def run (step : σ → ι → Option σ) : σ → List ι → Option σ
  | s, [] => some s
  | s, l :: ls => (step s l).bind fun t => run step t ls

/-- Every step of the run is taken in a state that meets the condition `C`. -/
def Along (step : σ → ι → Option σ) (C : σ → ι → Prop) : σ → List ι → Prop
  | _, [] => True
  | s, l :: ls => C s l ∧ ∀ t, step s l = some t → Along step C t ls

/-- What the steps of a run put out, in order: the step `l` in the state `s` puts out `out s l`. -/
def outputs {β : Type*} (step : σ → ι → Option σ) (out : σ → ι → List β) : σ → List ι → List β
  | _, [] => []
  | s, l :: ls =>
    out s l ++
      match step s l with
      | none => []
      | some t => outputs step out t ls

/-- `t` is the end of some run that starts in an initial state. -/
def Reachable (step : σ → ι → Option σ) (init : σ → Prop) (t : σ) : Prop :=
  ∃ s ls, init s ∧ run step s ls = some t

variable {step : σ → ι → Option σ}

/-- An enabled step behind a guard: the guard holds, and the step leads to the state behind it. -/
lemma of_guarded {p : Prop} [Decidable p] {s t : σ} (h : (if p then some s else none) = some t) :
    p ∧ s = t := by
  simpa using h

/-- The empty run ends where it starts. -/
@[simp] lemma run_nil (s : σ) : run step s [] = some s := rfl

/-- A run is its first step followed by the rest of it. -/
lemma run_cons_eq_some_iff {s u : σ} {l : ι} {ls : List ι} :
    run step s (l :: ls) = some u ↔ ∃ t, step s l = some t ∧ run step t ls = some u := by
  simp [run, Option.bind_eq_some_iff]

/-- A run over two lists of labels is a run over the first, then over the second. -/
lemma run_append_eq_some_iff {s u : σ} {ls ms : List ι} :
    run step s (ls ++ ms) = some u ↔ ∃ t, run step s ls = some t ∧ run step t ms = some u := by
  induction ls generalizing s with
  | nil => simp
  | cons l ls ih =>
    simp only [List.cons_append, run_cons_eq_some_iff, ih]
    constructor
    · rintro ⟨t, ht, t', ht', hu⟩
      exact ⟨t', ⟨t, ht, ht'⟩, hu⟩
    · rintro ⟨t', ⟨t, ht, ht'⟩, hu⟩
      exact ⟨t, ht, t', ht', hu⟩

/-- The empty run meets every condition. -/
@[simp] lemma along_nil (C : σ → ι → Prop) (s : σ) : Along step C s [] := trivial

/-- The condition along a run whose first step is enabled. -/
lemma along_cons_iff {C : σ → ι → Prop} {s t : σ} {l : ι} {ls : List ι}
    (h : step s l = some t) : Along step C s (l :: ls) ↔ C s l ∧ Along step C t ls := by
  simp [Along, h]

/-- A condition on the labels alone. -/
lemma along_of_forall {L : ι → Prop} {s : σ} {ls : List ι} (h : ∀ l ∈ ls, L l) :
    Along step (fun _ l => L l) s ls := by
  induction ls generalizing s with
  | nil => trivial
  | cons l ls ih =>
    obtain ⟨hl, hls⟩ := List.forall_mem_cons.mp h
    exact ⟨hl, fun t _ => ih hls⟩

/-- Evaluating a run shows where it ends. -/
lemma exists_run_of_any {P : σ → Prop} [DecidablePred P] {s : σ} {ls : List ι}
    (h : (run step s ls).any (fun t => P t) = true) : ∃ t, run step s ls = some t ∧ P t := by
  obtain ⟨t, ht, hP⟩ := (Option.any_eq_true _ _).mp h
  exact ⟨t, ht, of_decide_eq_true hP⟩

/-- A decidable condition can be decided along a run. -/
instance decidableAlong {C : σ → ι → Prop} [∀ s l, Decidable (C s l)] :
    (s : σ) → (ls : List ι) → Decidable (Along step C s ls)
  | _, [] => .isTrue trivial
  | s, l :: ls =>
    match h : step s l with
    | none => decidable_of_iff (C s l) (by simp [Along, h])
    | some t =>
      have : Decidable (Along step C t ls) := decidableAlong t ls
      decidable_of_iff (C s l ∧ Along step C t ls) (along_cons_iff h).symm

/-- Steps that concern one component of the state only are a run of that component. -/
lemma run_component {τ κ : Type*} {step' : τ → κ → Option τ} {label : κ → ι} (get : σ → τ)
    (put : σ → τ → σ) (hget : ∀ s x, get (put s x) = x) (hput : ∀ s x y, put (put s x) y = put s y)
    (hself : ∀ s, put s (get s) = s)
    (hstep : ∀ s k, step s (label k) = (step' (get s) k).map (put s)) (s : σ) (ks : List κ) :
    run step s (ks.map label) = (run step' (get s) ks).map (put s) := by
  induction ks generalizing s with
  | nil => simp [hself]
  | cons k ks ih =>
    simp only [List.map_cons, run, hstep]
    cases step' (get s) k with
    | none => rfl
    | some x =>
      have hput' : put (put s x) = put s := funext (hput s x)
      simp only [Option.map_some, Option.bind_some, ih, hget, hput']

/-- A property that each step meeting `C` keeps holds at the end of every run whose steps all
meet `C`. -/
theorem invariant_of_run_along {C : σ → ι → Prop} {I : σ → Prop}
    (hstep : ∀ s l t, I s → C s l → step s l = some t → I t) {s t : σ} {ls : List ι}
    (hs : I s) (hC : Along step C s ls) (hrun : run step s ls = some t) : I t := by
  induction ls generalizing s with
  | nil =>
    obtain rfl : s = t := by simpa using hrun
    exact hs
  | cons l ls ih =>
    obtain ⟨u, hu, hrest⟩ := run_cons_eq_some_iff.mp hrun
    obtain ⟨hCl, hCls⟩ := (along_cons_iff hu).mp hC
    exact ih (hstep s l u hs hCl hu) hCls hrest

/-- A property that each step keeps holds at the end of every run. -/
theorem invariant_of_run {I : σ → Prop} (hstep : ∀ s l t, I s → step s l = some t → I t)
    {s t : σ} {ls : List ι} (hs : I s) (hrun : run step s ls = some t) : I t := by
  induction ls generalizing s with
  | nil =>
    obtain rfl : s = t := by simpa using hrun
    exact hs
  | cons l ls ih =>
    obtain ⟨u, hu, hrest⟩ := run_cons_eq_some_iff.mp hrun
    exact ih (hstep s l u hs hu) hrest

/-- A run whose steps all meet a condition meets, under an invariant that such steps keep, every
condition that follows from both. -/
theorem along_of_invariant {C D : σ → ι → Prop} {I : σ → Prop}
    (hstep : ∀ s l t, I s → C s l → step s l = some t → I t) (hD : ∀ s l, I s → C s l → D s l)
    {s : σ} {ls : List ι} (hs : I s) (hC : Along step C s ls) : Along step D s ls := by
  induction ls generalizing s with
  | nil => trivial
  | cons l ls ih =>
    obtain ⟨hl, hls⟩ := hC
    exact ⟨hD s l hs hl, fun t ht => ih (hstep s l t hs hl ht) (hls t ht)⟩

/-- What a run puts out starts with what its first step puts out. -/
lemma outputs_cons {β : Type*} {out : σ → ι → List β} {s t : σ} {l : ι} {ls : List ι}
    (h : step s l = some t) :
    outputs step out s (l :: ls) = out s l ++ outputs step out t ls := by
  simp [outputs, h]

/-- A run whose steps put out what their labels say. -/
lemma outputs_eq_flatMap {β : Type*} {f : ι → List β} {s t : σ} {ls : List ι}
    (h : run step s ls = some t) : outputs step (fun _ => f) s ls = ls.flatMap f := by
  induction ls generalizing s with
  | nil => rfl
  | cons l ls ih =>
    obtain ⟨u, hu, hrest⟩ := run_cons_eq_some_iff.mp h
    rw [outputs_cons hu, ih hrest, List.flatMap_cons]

/-- A property of the state and of everything put out so far that each step meeting `C` keeps holds
at the end of every run whose steps all meet `C`. -/
theorem invariant_outputs_of_run_along {β : Type*} {out : σ → ι → List β} {C : σ → ι → Prop}
    {I : σ → List β → Prop}
    (hstep : ∀ s l t bs, I s bs → C s l → step s l = some t → I t (bs ++ out s l)) {s t : σ}
    {ls : List ι} {bs : List β} (hs : I s bs) (hC : Along step C s ls)
    (hrun : run step s ls = some t) : I t (bs ++ outputs step out s ls) := by
  induction ls generalizing s bs with
  | nil =>
    obtain rfl : s = t := by simpa using hrun
    simpa [outputs] using hs
  | cons l ls ih =>
    obtain ⟨u, hu, hrest⟩ := run_cons_eq_some_iff.mp hrun
    obtain ⟨hl, hls⟩ := (along_cons_iff hu).mp hC
    rw [outputs_cons hu, ← List.append_assoc]
    exact ih (hstep s l u bs hs hl hu) hls hrest

/-- A property of the state and of everything put out so far that each step keeps holds at the end
of every run. -/
theorem invariant_outputs_of_run {β : Type*} {out : σ → ι → List β} {I : σ → List β → Prop}
    (hstep : ∀ s l t bs, I s bs → step s l = some t → I t (bs ++ out s l)) {s t : σ} {ls : List ι}
    {bs : List β} (hs : I s bs) (hrun : run step s ls = some t) :
    I t (bs ++ outputs step out s ls) :=
  invariant_outputs_of_run_along (C := fun _ _ => True) (fun s l t bs hI _ => hstep s l t bs hI) hs
    (along_of_forall fun _ _ => trivial) hrun

/-- Everything that a run puts out has a property exactly when every step puts out only what has
it. -/
theorem forall_mem_outputs_iff {β : Type*} {out : σ → ι → List β} {P : β → Prop} {s : σ}
    {ls : List ι} :
    (∀ b ∈ outputs step out s ls, P b) ↔ Along step (fun s l => ∀ b ∈ out s l, P b) s ls := by
  induction ls generalizing s with
  | nil => simp [outputs, Along]
  | cons l ls ih =>
    simp only [outputs, Along, List.forall_mem_append]
    refine and_congr_right fun _ => ?_
    cases hstep : step s l with
    | none => simp
    | some t => simp [ih]

/-- If, under the invariant `I`, a step preserves `P` exactly when it meets `C` (and never
restores `P`), then `P` holds at the end of a run exactly when it held at the start and every step
of the run met `C`. -/
theorem iff_along_of_run {I P : σ → Prop} {C : σ → ι → Prop}
    (hI : ∀ s l t, I s → step s l = some t → I t)
    (hP : ∀ s l t, I s → step s l = some t → (P t ↔ P s ∧ C s l)) {s t : σ} {ls : List ι}
    (hs : I s) (hrun : run step s ls = some t) : P t ↔ P s ∧ Along step C s ls := by
  induction ls generalizing s with
  | nil =>
    obtain rfl : s = t := by simpa using hrun
    simp
  | cons l ls ih =>
    obtain ⟨u, hu, hrest⟩ := run_cons_eq_some_iff.mp hrun
    rw [ih (hI s l u hs hu) hrest, hP s l u hs hu, along_cons_iff hu, and_assoc]

/-- If, under the invariant `I` and for the labels in `L`, a step from a state with `P` leads to a
state with `P` exactly when it meets `C`, then `P` holds after every prefix of a run exactly when
every step of the run met `C`. -/
theorem forall_prefix_iff_along {L : ι → Prop} {I P : σ → Prop} {C : σ → ι → Prop}
    (hI : ∀ s l t, L l → I s → step s l = some t → I t)
    (hP : ∀ s l t, L l → I s → P s → step s l = some t → (P t ↔ C s l)) {s u : σ} {ls : List ι}
    (hls : ∀ l ∈ ls, L l) (hs : I s) (hPs : P s) (hrun : run step s ls = some u) :
    (∀ pre t, pre <+: ls → run step s pre = some t → P t) ↔ Along step C s ls := by
  induction ls generalizing s with
  | nil =>
    refine ⟨fun _ => trivial, ?_⟩
    intro _ pre t hpre ht
    obtain rfl := List.prefix_nil.mp hpre
    obtain rfl : s = t := by simpa using ht
    exact hPs
  | cons l ls ih =>
    obtain ⟨v, hv, hrest⟩ := run_cons_eq_some_iff.mp hrun
    obtain ⟨hl, hls⟩ := List.forall_mem_cons.mp hls
    have hstep := hP s l v hl hs hPs hv
    rw [along_cons_iff hv, ← hstep]
    constructor
    · intro hall
      have hPv : P v := hall [l] v (List.prefix_append [l] ls) (by simp [run, hv])
      refine ⟨hPv, (ih hls (hI s l v hl hs hv) hPv hrest).mp ?_⟩
      intro pre t hpre ht
      exact hall (l :: pre) t ((List.prefix_cons_inj l).mpr hpre)
        (run_cons_eq_some_iff.mpr ⟨v, hv, ht⟩)
    · rintro ⟨hPv, halong⟩ pre t hpre ht
      rcases List.prefix_cons_iff.mp hpre with rfl | ⟨pre', rfl, hpre'⟩
      · obtain rfl : s = t := by simpa using ht
        exact hPs
      · obtain ⟨w, hw, ht⟩ := run_cons_eq_some_iff.mp ht
        obtain rfl : v = w := Option.some.inj (hv.symm.trans hw)
        exact (ih hls (hI s l v hl hs hv) hPv hrest).mpr halong pre' t hpre' ht

/-- Where every state that is not done leads, by enabled labels, to one with a smaller measure,
every state leads to one that is done. -/
theorem exists_run_of_progress {L : ι → Prop} {I D : σ → Prop} (measure : σ → ℕ)
    (hprogress : ∀ s, I s → ¬ D s → ∃ ls t, (∀ l ∈ ls, L l) ∧ run step s ls = some t ∧ I t ∧
      measure t < measure s) {s : σ} (hs : I s) :
    ∃ ls t, (∀ l ∈ ls, L l) ∧ run step s ls = some t ∧ I t ∧ D t := by
  induction hk : measure s using Nat.strong_induction_on generalizing s with
  | _ k ih =>
    by_cases hdone : D s
    · exact ⟨[], s, by simp, rfl, hs, hdone⟩
    · obtain ⟨ls, t, hls, hrun, ht, hlt⟩ := hprogress s hs hdone
      obtain ⟨ls', u, hls', hrun', hu, hdone'⟩ := ih (measure t) (hk ▸ hlt) ht rfl
      refine ⟨ls ++ ls', u, ?_, run_append_eq_some_iff.mpr ⟨t, hrun, hrun'⟩, hu, hdone'⟩
      exact List.forall_mem_append.mpr ⟨hls, hls'⟩

/-- A view `f` of the states under which each step is a step of another system, or changes nothing,
turns each run into a run of the other system. -/
theorem exists_run_of_simulation {σ' ι' : Type*} {step' : σ' → ι' → Option σ'} {I : σ → Prop}
    {f : σ → σ'} (hI : ∀ s l t, I s → step s l = some t → I t)
    (hsim : ∀ s l t, I s → step s l = some t → f t = f s ∨ ∃ l', step' (f s) l' = some (f t))
    {s t : σ} {ls : List ι} (hs : I s) (hrun : run step s ls = some t) :
    ∃ ls', run step' (f s) ls' = some (f t) := by
  induction ls generalizing s with
  | nil =>
    obtain rfl : s = t := by simpa using hrun
    exact ⟨[], rfl⟩
  | cons l ls ih =>
    obtain ⟨u, hu, hrest⟩ := run_cons_eq_some_iff.mp hrun
    obtain ⟨ls', hrun'⟩ := ih (hI s l u hs hu) hrest
    rcases hsim s l u hs hu with heq | ⟨l', hl'⟩
    · exact ⟨ls', heq ▸ hrun'⟩
    · exact ⟨l' :: ls', run_cons_eq_some_iff.mpr ⟨f u, hl', hrun'⟩⟩

/-- A system whose steps, under an invariant and a condition, are steps of another one with labels
that can be read off: its runs are runs of the other system with these labels. -/
theorem run_outputs_of_simulation {σ' ι' : Type*} {step' : σ' → ι' → Option σ'} {I : σ → Prop}
    {C : σ → ι → Prop} {f : σ → σ'} {label : σ → ι → ι'}
    (hI : ∀ s l t, I s → C s l → step s l = some t → I t)
    (hsim : ∀ s l t, I s → C s l → step s l = some t → step' (f s) (label s l) = some (f t))
    {s t : σ} {ls : List ι} (hs : I s) (hC : Along step C s ls) (hrun : run step s ls = some t) :
    run step' (f s) (outputs step (fun s l => [label s l]) s ls) = some (f t) := by
  induction ls generalizing s with
  | nil =>
    obtain rfl : s = t := by simpa using hrun
    rfl
  | cons l ls ih =>
    obtain ⟨u, hu, hrest⟩ := run_cons_eq_some_iff.mp hrun
    obtain ⟨hl, hls⟩ := (along_cons_iff hu).mp hC
    rw [outputs_cons hu, List.singleton_append]
    exact run_cons_eq_some_iff.mpr ⟨f u, hsim s l u hs hl hu, ih (hI s l u hs hl hu) hls hrest⟩

/-- A relation under which each step of a system is matched by a step of another one that puts out
the same: the runs put out the same. -/
theorem exists_run_of_related {σ' ι' β : Type*} {step' : σ' → ι' → Option σ'} {R : σ → σ' → Prop}
    {L : ι → Prop} {label : ι → ι'} {out : σ → ι → List β} {out' : σ' → ι' → List β}
    (hstep : ∀ s s' l t, R s s' → L l → step s l = some t →
      ∃ t', step' s' (label l) = some t' ∧ R t t' ∧ out' s' (label l) = out s l)
    {s t : σ} {s' : σ'} {ls : List ι} (hs : R s s') (hls : ∀ l ∈ ls, L l)
    (hrun : run step s ls = some t) :
    ∃ t', run step' s' (ls.map label) = some t' ∧ R t t' ∧
      outputs step' out' s' (ls.map label) = outputs step out s ls := by
  induction ls generalizing s s' with
  | nil =>
    obtain rfl : s = t := by simpa using hrun
    exact ⟨s', rfl, hs, rfl⟩
  | cons l ls ih =>
    obtain ⟨u, hu, hrest⟩ := run_cons_eq_some_iff.mp hrun
    obtain ⟨hl, hls⟩ := List.forall_mem_cons.mp hls
    obtain ⟨u', hu', hR, hout⟩ := hstep s s' l u hs hl hu
    obtain ⟨t', hrun', ht, houts⟩ := ih hR hls hrest
    refine ⟨t', run_cons_eq_some_iff.mpr ⟨u', hu', hrun'⟩, ht, ?_⟩
    rw [List.map_cons, outputs_cons hu', outputs_cons hu, hout, houts]

end StepRuns
