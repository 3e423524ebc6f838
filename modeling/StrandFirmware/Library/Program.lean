import Mathlib

/-!
# Programs with endless loops

A program is a list of statements over a type of actions: single actions and loops without an
exit.  What is left of a program after some of its actions is again a program, and `next` takes
its first action off.

A program that has come to an endless loop stays in it.  `Confined` describes what can be left of
`pre`, a loop over `body` and any statements after it; `confined_next` says that its next action is
one of `pre` or of `body`, whatever stands behind the loop, and `confined_of_suffix` that what is
left after it is confined again.
-/

namespace Program

variable {α : Type*}

/-- A statement. -/
inductive Statement (α : Type*) where
  /-- A single action. -/
  | act (a : α)
  /-- The actions of the body in order, again and again. -/
  | forever (body : List α)
deriving DecidableEq

/-- The first action of a program and what is left of the program after it. -/
def next : List (Statement α) → Option (α × List (Statement α))
  | [] => none
  | .act a :: rest => some (a, rest)
  | .forever [] :: _ => none
  | .forever (a :: as) :: rest => some (a, as.map .act ++ .forever (a :: as) :: rest)

/-- What can be left of `pre`, an endless loop over `body`, and the statements `rest`. -/
def Confined (pre body : List α) (rest k : List (Statement α)) : Prop :=
  ∃ as, (as <:+ pre ∨ as <:+ body) ∧ k = as.map .act ++ .forever body :: rest

variable {pre body : List α} {rest k k' : List (Statement α)} {a : α}

/-- Nothing was executed yet. -/
lemma confined_start : Confined pre body rest (pre.map .act ++ .forever body :: rest) :=
  ⟨pre, .inl List.suffix_rfl, rfl⟩

/-- The next action is the first statement, or the first one of the body of a loop. -/
lemma next_eq_some_iff :
    next k = some (a, k') ↔ k = .act a :: k' ∨
      ∃ as rest, k = .forever (a :: as) :: rest ∧ k' = as.map .act ++ k := by
  rcases k with - | ⟨⟨b⟩ | ⟨- | ⟨b, bs⟩⟩, rest⟩
  · simp [next]
  · simp [next]
  · simp [next]
  · simp only [next, Option.some.injEq, Prod.mk.injEq, reduceCtorEq, List.cons.injEq,
      Statement.forever.injEq, false_and, false_or]
    constructor
    · rintro ⟨rfl, rfl⟩
      exact ⟨bs, rest, ⟨⟨rfl, rfl⟩, rfl⟩, rfl⟩
    · rintro ⟨as, rest', ⟨⟨rfl, rfl⟩, rfl⟩, rfl⟩
      exact ⟨rfl, rfl⟩

/-- A confined program that starts with a loop has come to the loop over `body`, and one that
starts with an action has the rest of `pre` or of `body` in front of the loop. -/
lemma confined_cons_iff {x : Statement α} : Confined pre body rest (x :: k) ↔
    (x = .forever body ∧ k = rest) ∨
      ∃ b bs, x = .act b ∧ (b :: bs <:+ pre ∨ b :: bs <:+ body) ∧
        k = bs.map .act ++ .forever body :: rest := by
  constructor
  · rintro ⟨- | ⟨b, bs⟩, has, hk⟩
    · exact .inl (List.cons.inj hk)
    · obtain ⟨hx, hk⟩ := List.cons.inj hk
      exact .inr ⟨b, bs, hx, has, hk⟩
  · rintro (⟨rfl, rfl⟩ | ⟨b, bs, rfl, has, rfl⟩)
    · exact ⟨[], .inl List.nil_suffix, rfl⟩
    · exact ⟨b :: bs, has, rfl⟩

/-- The next action of a confined program is the first of what is left of `pre` or of `body`, and
the rest of these is left after it. -/
lemma confined_next (hk : Confined pre body rest k) (h : next k = some (a, k')) :
    ∃ as, (a :: as <:+ pre ∨ a :: as <:+ body) ∧ k' = as.map .act ++ .forever body :: rest ∧
      (k = .act a :: k' ∨ a :: as = body ∧ k = .forever body :: rest) := by
  rcases next_eq_some_iff.mp h with rfl | ⟨as, rest', rfl, rfl⟩
  · rcases confined_cons_iff.mp hk with ⟨hact, -⟩ | ⟨b, bs, hact, has, rfl⟩
    · exact absurd hact (by simp)
    · obtain rfl : a = b := by simpa using hact
      exact ⟨bs, has, rfl, .inl rfl⟩
  · rcases confined_cons_iff.mp hk with ⟨hbody, rfl⟩ | ⟨b, bs, hact, -, -⟩
    · obtain rfl : a :: as = body := by simpa using hbody
      exact ⟨as, .inr List.suffix_rfl, rfl, .inr ⟨rfl, rfl⟩⟩
    · exact absurd hact (by simp)

/-- The rest of `pre` or of `body` in front of the loop is confined. -/
lemma confined_of_suffix {as : List α} (h : a :: as <:+ pre ∨ a :: as <:+ body) :
    Confined pre body rest (as.map .act ++ .forever body :: rest) := by
  have htail : as <:+ a :: as := List.suffix_cons a as
  exact ⟨as, h.imp htail.trans htail.trans, rfl⟩

end Program
