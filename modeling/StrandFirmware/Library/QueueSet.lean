import StrandFirmware.Library.BoundedQueue

/-!
# Queue sets

A queue set lets one task wait for several queues at once: besides the member queues it keeps a
queue of its own that holds one handle for each message that was put into a member.  The task
takes a handle from the set and then receives from the queue it names.

A message is accepted when its own queue has room.  Its handle needs a free slot in the set as
well, and is dropped without one.  `Covered` says that no handle was dropped: the handles of each
member, in the set and in the hand of the task, are as many as its messages.
-/

/-- Member queues with capacities `cap`, and a set of length `len`. -/
structure QueueSet (κ α : Type*) (cap : κ → ℕ) (len : ℕ) where
  /-- The messages in each member queue. -/
  waiting : (k : κ) → BoundedQueue α (cap k)
  /-- The handles in the set. -/
  handles : BoundedQueue κ len

namespace QueueSet

variable {κ α : Type*} [DecidableEq κ] {cap : κ → ℕ} {len : ℕ}

/-- Nothing was posted yet. -/
def empty (κ α : Type*) (cap : κ → ℕ) (len : ℕ) : QueueSet κ α cap len where
  waiting k := .empty α (cap k)
  handles := .empty κ len

/-- Send a message to a member: refused when the member is full; otherwise the handle follows if
the set has a free slot. -/
def post (s : QueueSet κ α cap len) (k : κ) (a : α) : Option (QueueSet κ α cap len) :=
  ((s.waiting k).sendToBack a).map fun q =>
    { waiting := Function.update s.waiting k q
      handles := (s.handles.sendToBack k).getD s.handles }

/-- Take the oldest handle. -/
def select (s : QueueSet κ α cap len) : Option (κ × QueueSet κ α cap len) :=
  s.handles.receive.map fun (k, handles) => (k, { s with handles })

/-- Receive a message from a member. -/
def receive (s : QueueSet κ α cap len) (k : κ) : Option (α × QueueSet κ α cap len) :=
  (s.waiting k).receive.map fun (a, q) => (a, { s with waiting := Function.update s.waiting k q })

/-- The number of messages in a member. -/
def backlog (s : QueueSet κ α cap len) (k : κ) : ℕ := (s.waiting k).items.length

/-- The number of handles of a member, `selected` being the handle in the hand of the task. -/
def pending (s : QueueSet κ α cap len) (selected : Option κ) (k : κ) : ℕ :=
  s.handles.items.count k + selected.toList.count k

/-- Every message has a handle. -/
def Covered (s : QueueSet κ α cap len) (selected : Option κ) : Prop :=
  ∀ k, s.pending selected k = s.backlog k

/-- No handle is without a message. -/
def Sound (s : QueueSet κ α cap len) (selected : Option κ) : Prop :=
  ∀ k, s.pending selected k ≤ s.backlog k

/-- At the start there are neither messages nor handles. -/
lemma covered_empty : (empty κ α cap len).Covered none := fun _ => rfl

/-- A set that covers its messages has no handle too many. -/
lemma Covered.sound {s : QueueSet κ α cap len} {selected : Option κ} (h : s.Covered selected) :
    s.Sound selected := fun k => (h k).le

variable {s t : QueueSet κ α cap len} {selected : Option κ} {k : κ} {a : α}

/-- A message is refused exactly when its queue is full. -/
lemma post_eq_none_iff : s.post k a = none ↔ (s.waiting k).Full := by
  rw [post, Option.map_eq_none_iff, BoundedQueue.sendToBack_eq_none_iff]

/-- An accepted message adds one to the backlog of its queue. -/
lemma backlog_post (h : s.post k a = some t) (j : κ) :
    t.backlog j = s.backlog j + if j = k then 1 else 0 := by
  obtain ⟨q, hq, rfl⟩ := Option.map_eq_some_iff.mp h
  obtain ⟨-, hitems⟩ := BoundedQueue.sendToBack_eq_some_iff.mp hq
  by_cases hj : j = k
  · subst hj
    simp [backlog, hitems]
  · simp [backlog, hj]

/-- An accepted message adds one to the handles of its queue, if the set has a free slot. -/
lemma pending_post (h : s.post k a = some t) (j : κ) :
    t.pending selected j =
      s.pending selected j + if j = k ∧ ¬ s.handles.Full then 1 else 0 := by
  obtain ⟨q, -, rfl⟩ := Option.map_eq_some_iff.mp h
  cases hsend : s.handles.sendToBack k with
  | none =>
    have hfull := BoundedQueue.sendToBack_eq_none_iff.mp hsend
    simp [pending, hfull]
  | some handles =>
    obtain ⟨hfree, hitems⟩ := BoundedQueue.sendToBack_eq_some_iff.mp hsend
    by_cases hj : j = k
    · subst hj
      simp [pending, hitems, hfree]
      omega
    · have hne : ¬ k = j := fun h => hj h.symm
      simp [pending, hitems, hj, hne]

/-- **A post keeps every message covered** exactly when the set has a free slot for its handle. -/
theorem covered_post_iff (hs : s.Sound selected) (h : s.post k a = some t) :
    t.Covered selected ↔ s.Covered selected ∧ ¬ s.handles.Full := by
  constructor
  · intro ht
    have hk := ht k
    rw [pending_post h, backlog_post h] at hk
    have hle := hs k
    have hfree : ¬ s.handles.Full := by
      intro hfull
      simp only [hfull, not_true_eq_false, and_false, if_false, if_true] at hk
      omega
    refine ⟨fun j => ?_, hfree⟩
    have hj := ht j
    rw [pending_post h, backlog_post h] at hj
    simp only [hfree, not_false_eq_true, and_true] at hj
    omega
  · rintro ⟨hs, hfree⟩ j
    rw [pending_post h, backlog_post h, hs j]
    simp [hfree]

/-- A post leaves no handle without a message. -/
lemma Sound.post (hs : s.Sound selected) (h : s.post k a = some t) : t.Sound selected := by
  intro j
  have hj := hs j
  rw [pending_post h, backlog_post h]
  split_ifs <;> first | omega | simp_all

/-- Selecting moves a handle from the set into the hand of the task. -/
lemma pending_select (h : s.select = some (k, t)) (j : κ) :
    t.pending (some k) j = s.pending none j := by
  obtain ⟨⟨k', handles⟩, hr, heq⟩ := Option.map_eq_some_iff.mp h
  obtain ⟨rfl, rfl⟩ := Prod.mk.injEq .. ▸ heq
  have hitems := BoundedQueue.receive_eq_some_iff.mp hr
  simp [pending, hitems, List.count_cons]

omit [DecidableEq κ] in
/-- Selecting receives nothing. -/
lemma backlog_select (h : s.select = some (k, t)) (j : κ) : t.backlog j = s.backlog j := by
  obtain ⟨⟨k', handles⟩, -, heq⟩ := Option.map_eq_some_iff.mp h
  obtain ⟨rfl, rfl⟩ := Prod.mk.injEq .. ▸ heq
  rfl

/-- Selecting changes no account. -/
lemma covered_select_iff (h : s.select = some (k, t)) : t.Covered (some k) ↔ s.Covered none := by
  simp only [Covered, pending_select h, backlog_select h]

/-- Selecting leaves no handle without a message. -/
lemma Sound.select (hs : s.Sound none) (h : s.select = some (k, t)) : t.Sound (some k) := by
  intro j
  rw [pending_select h, backlog_select h]
  exact hs j

/-- Receiving takes one message from the backlog. -/
lemma backlog_receive (h : s.receive k = some (a, t)) (j : κ) :
    s.backlog j = t.backlog j + if j = k then 1 else 0 := by
  obtain ⟨⟨a', q⟩, hr, heq⟩ := Option.map_eq_some_iff.mp h
  obtain ⟨rfl, rfl⟩ := Prod.mk.injEq .. ▸ heq
  have hitems := BoundedQueue.receive_eq_some_iff.mp hr
  by_cases hj : j = k
  · subst hj
    simp [backlog, hitems]
  · simp [backlog, hj]

/-- Receiving uses up the handle in the hand of the task. -/
lemma pending_receive (h : s.receive k = some (a, t)) (j : κ) :
    s.pending (some k) j = t.pending none j + if j = k then 1 else 0 := by
  obtain ⟨⟨a', q⟩, -, heq⟩ := Option.map_eq_some_iff.mp h
  obtain ⟨rfl, rfl⟩ := Prod.mk.injEq .. ▸ heq
  by_cases hj : j = k
  · simp [pending, hj]
  · have hne : ¬ k = j := fun h => hj h.symm
    simp [pending, hj, hne]

/-- Receiving takes a message together with its handle. -/
lemma covered_receive_iff (h : s.receive k = some (a, t)) :
    t.Covered none ↔ s.Covered (some k) := by
  simp only [Covered, pending_receive h, backlog_receive h, Nat.add_right_cancel_iff]

/-- Receiving leaves no handle without a message. -/
lemma Sound.receive (hs : s.Sound (some k)) (h : s.receive k = some (a, t)) : t.Sound none := by
  intro j
  have hj := hs j
  rw [pending_receive h, backlog_receive h] at hj
  exact Nat.le_of_add_le_add_right hj

/-- A handle in the hand of the task stands for a message. -/
lemma Sound.exists_receive (hs : s.Sound (some k)) : ∃ a t, s.receive k = some (a, t) := by
  have hk := hs k
  have hpos : 0 < s.backlog k := by
    simp only [pending, Option.toList_some, List.count_singleton_self] at hk
    omega
  cases hr : (s.waiting k).receive with
  | none =>
    simp only [backlog, BoundedQueue.receive_eq_none_iff.mp hr, List.length_nil] at hpos
    exact absurd hpos (lt_irrefl 0)
  | some r => exact ⟨r.1, _, Option.map_eq_some_iff.mpr ⟨r, hr, rfl⟩⟩

end QueueSet
