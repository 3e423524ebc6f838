import Mathlib

/-!
# Dropping repeats of the last item

A filter that remembers only the last item drops an item that repeats it.  On a list this is
`List.destutter (· ≠ ·)`.  It lets an item through once exactly when the copies of the item stand
together, with no other item between them (`count_destutter_le_one_iff`).
-/

namespace RepeatFilter

variable {α : Type*} {x a : α} {l : List α}

/-- All copies of `x` in the list stand at its front. -/
def Leading (x : α) (l : List α) : Prop :=
  ∃ k behind, l = List.replicate k x ++ behind ∧ x ∉ behind

/-- All copies of `x` in the list stand next to each other. -/
def Together (x : α) (l : List α) : Prop :=
  ∃ before behind, l = before ++ behind ∧ x ∉ before ∧ Leading x behind

/-- A list without `x`. -/
lemma leading_of_not_mem (h : x ∉ l) : Leading x l := ⟨0, l, rfl, h⟩

/-- One more copy in front changes nothing. -/
lemma leading_cons_self_iff : Leading x (x :: l) ↔ Leading x l := by
  constructor
  · rintro ⟨k, behind, hl, hbehind⟩
    cases k with
    | zero =>
      obtain rfl : x :: l = behind := by simpa using hl
      exact absurd List.mem_cons_self hbehind
    | succ k =>
      rw [List.replicate_succ, List.cons_append, List.cons.injEq] at hl
      exact ⟨k, behind, hl.2, hbehind⟩
  · rintro ⟨k, behind, rfl, hbehind⟩
    exact ⟨k + 1, behind, rfl, hbehind⟩

/-- Behind another item there may be no copy. -/
lemma leading_cons_iff (ha : a ≠ x) : Leading x (a :: l) ↔ x ∉ l := by
  constructor
  · rintro ⟨k, behind, hl, hbehind⟩
    cases k with
    | zero =>
      obtain rfl : a :: l = behind := by simpa using hl
      exact fun h => hbehind (List.mem_cons_of_mem a h)
    | succ k =>
      rw [List.replicate_succ, List.cons_append, List.cons.injEq] at hl
      exact absurd hl.1 ha
  · intro h
    exact leading_of_not_mem fun hmem => (List.mem_cons.mp hmem).elim (fun h => ha h.symm) h

/-- A copy in front must have all others behind it. -/
lemma together_cons_self_iff : Together x (x :: l) ↔ Leading x l := by
  constructor
  · rintro ⟨before, behind, hl, hbefore, hbehind⟩
    cases before with
    | nil =>
      rw [← leading_cons_self_iff, hl]
      exact hbehind
    | cons b before =>
      rw [List.cons_append, List.cons.injEq] at hl
      exact absurd (hl.1 ▸ List.mem_cons_self) hbefore
  · exact fun h => ⟨[], x :: l, rfl, List.not_mem_nil, leading_cons_self_iff.mpr h⟩

/-- Another item in front changes nothing. -/
lemma together_cons_iff (ha : a ≠ x) : Together x (a :: l) ↔ Together x l := by
  constructor
  · rintro ⟨before, behind, hl, hbefore, hbehind⟩
    cases before with
    | nil =>
      obtain rfl : a :: l = behind := hl
      refine ⟨l, [], (List.append_nil l).symm, (leading_cons_iff ha).mp hbehind, ?_⟩
      exact leading_of_not_mem List.not_mem_nil
    | cons b before =>
      rw [List.cons_append, List.cons.injEq] at hl
      exact ⟨before, behind, hl.2, fun h => hbefore (List.mem_cons_of_mem b h), hbehind⟩
  · rintro ⟨before, behind, rfl, hbefore, hbehind⟩
    refine ⟨a :: before, behind, rfl, fun h => ?_, hbehind⟩
    exact (List.mem_cons.mp h).elim (fun h => ha h.symm) hbefore

section Count

variable [DecidableEq α]

/-- After another item, `x` is let through unless it does not occur. -/
lemma count_destutter'_eq_zero_iff (ha : a ≠ x) :
    (l.destutter' (· ≠ ·) a).count x = 0 ↔ x ∉ l := by
  rw [List.count_eq_zero]
  refine not_congr ⟨fun h => ?_, fun h => ?_⟩
  · have hsub := (List.destutter'_sublist (R := (· ≠ ·)) l a).subset h
    exact (List.mem_cons.mp hsub).resolve_left ha.symm
  · induction l generalizing a with
    | nil => exact absurd h List.not_mem_nil
    | cons b l ih =>
      by_cases hab : a = b
      · subst hab
        rw [List.destutter'_cons_neg _ (not_not.mpr rfl)]
        exact ih ha ((List.mem_cons.mp h).resolve_left ha.symm)
      · rw [List.destutter'_cons_pos _ hab]
        by_cases hb : b = x
        · exact List.mem_cons_of_mem a (hb ▸ List.mem_destutter' (R := (· ≠ ·)) l b)
        · exact List.mem_cons_of_mem a (ih hb ((List.mem_cons.mp h).resolve_left (Ne.symm hb)))

/-- After `x` itself, further copies are let through unless they all come at once. -/
lemma count_destutter'_self_le_one_iff :
    (l.destutter' (· ≠ ·) x).count x ≤ 1 ↔ Leading x l := by
  induction l with
  | nil => simp [leading_of_not_mem]
  | cons b l ih =>
    by_cases hb : b = x
    · subst hb
      rw [List.destutter'_cons_neg _ (not_not.mpr rfl), ih, leading_cons_self_iff]
    · rw [List.destutter'_cons_pos _ (Ne.symm hb), List.count_cons_self, leading_cons_iff hb,
        ← count_destutter'_eq_zero_iff hb, Nat.succ_le_succ_iff, Nat.le_zero]

/-- After another item, `x` is let through at most once when its copies stand together. -/
lemma count_destutter'_le_one_iff (ha : a ≠ x) :
    (l.destutter' (· ≠ ·) a).count x ≤ 1 ↔ Together x l := by
  induction l generalizing a with
  | nil => simp [ha, Together, leading_of_not_mem]
  | cons b l ih =>
    by_cases hab : a = b
    · subst hab
      rw [List.destutter'_cons_neg _ (not_not.mpr rfl), ih ha, together_cons_iff ha]
    · rw [List.destutter'_cons_pos _ hab, List.count_cons_of_ne ha]
      by_cases hb : b = x
      · subst hb
        rw [count_destutter'_self_le_one_iff, together_cons_self_iff]
      · rw [ih hb, together_cons_iff hb]

/-- **The filter lets `x` through at most once** exactly when all copies of `x` stand together. -/
theorem count_destutter_le_one_iff :
    (l.destutter (· ≠ ·)).count x ≤ 1 ↔ Together x l := by
  cases l with
  | nil => simp [Together, leading_of_not_mem]
  | cons a l =>
    rw [List.destutter_cons']
    by_cases ha : a = x
    · subst ha
      rw [count_destutter'_self_le_one_iff, together_cons_self_iff]
    · rw [count_destutter'_le_one_iff ha, together_cons_iff ha]

end Count

end RepeatFilter
