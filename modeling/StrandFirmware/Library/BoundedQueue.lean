import Mathlib

/-!
# Bounded first-in first-out queues

A queue of capacity `cap` whose bound on the number of waiting items is a field, so that an
overfull queue cannot be built.  `sendToBack` refuses an item when the queue is full and
`receive` takes the oldest one.
-/

/-- A first-in first-out queue that holds at most `cap` items. -/
structure BoundedQueue (α : Type*) (cap : ℕ) where
  /-- The waiting items, oldest first. -/
  items : List α
  /-- There are never more items than slots. -/
  length_le : items.length ≤ cap
deriving DecidableEq

namespace BoundedQueue

variable {α : Type*} {cap : ℕ}

/-- The queue with nothing in it. -/
def empty (α : Type*) (cap : ℕ) : BoundedQueue α cap := ⟨[], Nat.zero_le _⟩

/-- No slot is free. -/
def Full (q : BoundedQueue α cap) : Prop := q.items.length = cap

instance (q : BoundedQueue α cap) : Decidable q.Full := inferInstanceAs (Decidable (_ = _))

/-- Append an item, or refuse it when the queue is full. -/
def sendToBack (q : BoundedQueue α cap) (a : α) : Option (BoundedQueue α cap) :=
  if h : q.items.length < cap then some ⟨q.items ++ [a], by simpa using h⟩ else none

/-- Take the oldest item, if there is one. -/
def receive : BoundedQueue α cap → Option (α × BoundedQueue α cap)
  | ⟨[], _⟩ => none
  | ⟨a :: as, h⟩ => some (a, ⟨as, Nat.le_of_succ_le h⟩)

@[simp] lemma items_empty : (empty α cap).items = [] := rfl

/-- Two queues with the same items are equal. -/
@[ext] lemma ext {q r : BoundedQueue α cap} (h : q.items = r.items) : q = r := by
  cases q
  cases r
  congr

/-- An accepted item goes to the back, and only into a free slot. -/
lemma sendToBack_eq_some_iff {q r : BoundedQueue α cap} {a : α} :
    q.sendToBack a = some r ↔ ¬ q.Full ∧ r.items = q.items ++ [a] := by
  have hle := q.length_le
  unfold sendToBack Full
  split
  next h =>
    rw [Option.some.injEq, BoundedQueue.ext_iff, eq_comm (a := q.items ++ [a])]
    exact ⟨fun hr => ⟨h.ne, hr⟩, fun hr => hr.2⟩
  next h =>
    have : q.items.length = cap := by omega
    simp [this]

/-- An item is refused exactly when the queue is full. -/
lemma sendToBack_eq_none_iff {q : BoundedQueue α cap} {a : α} :
    q.sendToBack a = none ↔ q.Full := by
  have hle := q.length_le
  unfold sendToBack Full
  split
  next h => simp [h.ne]
  next h =>
    have : q.items.length = cap := by omega
    simp [this]

/-- Receiving takes the head of the list of items. -/
lemma receive_eq_some_iff {q r : BoundedQueue α cap} {a : α} :
    q.receive = some (a, r) ↔ q.items = a :: r.items := by
  obtain ⟨items, h⟩ := q
  cases items with
  | nil => simp [receive]
  | cons b bs => simp [receive, BoundedQueue.ext_iff]

/-- Receiving fails exactly on the empty queue. -/
lemma receive_eq_none_iff {q : BoundedQueue α cap} : q.receive = none ↔ q.items = [] := by
  obtain ⟨items, h⟩ := q
  cases items <;> simp [receive]

end BoundedQueue
