import Mathlib.Tactic

/-!
# Bounded queues

A first-in first-out queue with a fixed capacity.  The bound is a field, so a queue that holds
too much cannot be built.  `tryPush` fails exactly on a full queue and changes nothing then.
-/

/-- A queue of at most `capacity` elements, oldest first. -/
structure BoundedFifo (α : Type*) where
  capacity : ℕ
  items : List α := []
  capacity_pos : 0 < capacity
  length_le : items.length ≤ capacity

namespace BoundedFifo

variable {α : Type*} (q : BoundedFifo α)

/-- There is no room left. -/
def isFull : Bool := q.capacity ≤ q.items.length

def isEmpty : Bool := q.items.isEmpty

/-- The oldest element. -/
def front : Option α := q.items.head?

/-- Without its oldest element. -/
def pop : BoundedFifo α :=
  { q with
    items := q.items.tail
    length_le := q.items.length_tail ▸ (Nat.sub_le _ 1).trans q.length_le }

/-- Add an element at the end, if there is room. -/
def tryPush (x : α) : Bool × BoundedFifo α :=
  if h : q.items.length < q.capacity then
    (true, { q with items := q.items ++ [x], length_le := by simpa using h })
  else (false, q)

/-- A queue is its capacity and its elements. -/
theorem ext {p q : BoundedFifo α} (hcapacity : p.capacity = q.capacity)
    (hitems : p.items = q.items) : p = q := by
  cases p
  cases q
  cases hcapacity
  cases hitems
  rfl

@[simp] theorem pop_items : q.pop.items = q.items.tail := rfl

@[simp] theorem isEmpty_iff : q.isEmpty = true ↔ q.items = [] := List.isEmpty_iff

theorem isFull_iff : q.isFull = true ↔ q.items.length = q.capacity := by
  rw [isFull, decide_eq_true_eq]
  exact ⟨fun h => le_antisymm q.length_le h, fun h => h.ge⟩

@[simp] theorem tryPush_capacity (x : α) : (q.tryPush x).2.capacity = q.capacity := by
  unfold tryPush
  split_ifs <;> rfl

theorem tryPush_fst (x : α) : (q.tryPush x).1 = !q.isFull := by
  unfold tryPush isFull
  split_ifs with h
  · simp [h]
  · simp [not_lt.1 h]

theorem tryPush_snd_of_full {x : α} (h : q.isFull = true) : (q.tryPush x).2 = q := by
  unfold tryPush
  rw [isFull, decide_eq_true_eq] at h
  rw [dif_neg (not_lt.2 h)]

theorem tryPush_items (x : α) :
    (q.tryPush x).2.items = if q.isFull then q.items else q.items ++ [x] := by
  cases hfull : q.isFull with
  | true =>
    rw [tryPush_snd_of_full q hfull]
    rfl
  | false =>
    rw [isFull, decide_eq_false_iff_not, not_le] at hfull
    unfold tryPush
    rw [dif_pos hfull]
    rfl

/-- A push adds an element until the queue is full. -/
theorem length_tryPush (x : α) :
    (q.tryPush x).2.items.length = min (q.items.length + 1) q.capacity := by
  have hle := q.length_le
  rw [tryPush_items]
  split_ifs with hfull
  · have := (isFull_iff q).1 hfull
    omega
  · have := mt (isFull_iff q).2 hfull
    rw [List.length_append, List.length_singleton]
    omega

end BoundedFifo
