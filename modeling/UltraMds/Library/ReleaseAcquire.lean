import Mathlib.Tactic

/-!
# Release and acquire

An atomic variable that one thread stores to with release order and one other thread loads with
acquire order.  The stores are numbered, the initial value being store 0.

A load may return an old store, but none before the last one that the loading thread has seen.
How far behind the newest store it stays is the argument `lag`; a lag of 0 gives the loads of a
sequentially consistent execution.

What the storing thread does after `c` stores is published by the next one.  It happens before
what the loading thread does now if that thread has seen a later store (`synced c`).
-/

/-- A variable with all the stores to it, and the number of the store that was loaded last. -/
structure Published (α : Type*) where
  stores : List α
  seen : ℕ
  seen_lt : seen < stores.length

namespace Published

variable {α : Type*}

def init (x : α) : Published α := ⟨[x], 0, Nat.zero_lt_one⟩

variable (p : Published α)

/-- The number of the newest store. -/
def stamp : ℕ := p.stores.length - 1

theorem stamp_lt : p.stamp < p.stores.length :=
  Nat.sub_lt (Nat.zero_lt_of_lt p.seen_lt) Nat.one_pos

/-- What the storing thread itself loads. -/
def newest : α := p.stores.get ⟨p.stamp, p.stamp_lt⟩

/-- A store with release order. -/
def store (x : α) : Published α :=
  ⟨p.stores ++ [x], p.seen, by rw [List.length_append]; exact Nat.lt_add_right _ p.seen_lt⟩

/-- The number of the store that a load returns. -/
def pick (lag : ℕ) : ℕ := max p.seen (p.stamp - lag)

theorem pick_lt (lag : ℕ) : p.pick lag < p.stores.length :=
  max_lt p.seen_lt ((Nat.sub_le _ _).trans_lt p.stamp_lt)

/-- A load with acquire order. -/
def acquire (lag : ℕ) : α × Published α :=
  (p.stores.get ⟨p.pick lag, p.pick_lt lag⟩, ⟨p.stores, p.pick lag, p.pick_lt lag⟩)

/-- What the storing thread did after `c` stores happens before what the loading thread does. -/
def synced (c : ℕ) : Bool := c < p.seen

/-! ### Numbers -/

@[simp] theorem init_stamp (x : α) : (init x).stamp = 0 := rfl
@[simp] theorem init_seen (x : α) : (init x).seen = 0 := rfl
@[simp] theorem store_seen (x : α) : (p.store x).seen = p.seen := rfl
@[simp] theorem acquire_stamp (lag : ℕ) : (p.acquire lag).2.stamp = p.stamp := rfl
@[simp] theorem acquire_seen (lag : ℕ) : (p.acquire lag).2.seen = p.pick lag := rfl

@[simp] theorem store_stamp (x : α) : (p.store x).stamp = p.stamp + 1 := by
  have hpos := p.stamp_lt
  unfold stamp store
  rw [List.length_append, List.length_singleton]
  unfold stamp at hpos
  omega

theorem seen_le_stamp : p.seen ≤ p.stamp := Nat.le_sub_one_of_lt p.seen_lt

theorem seen_le_pick (lag : ℕ) : p.seen ≤ p.pick lag := le_max_left _ _

theorem pick_le_stamp (lag : ℕ) : p.pick lag ≤ p.stamp := Nat.le_sub_one_of_lt (p.pick_lt lag)

/-- Without a lag the newest store is loaded. -/
@[simp] theorem pick_zero : p.pick 0 = p.stamp := max_eq_right p.seen_le_stamp

/-! ### Values -/

/-- Store number `i` has the value `f i`. -/
def Numbered (f : ℕ → α) : Prop := ∀ i (h : i < p.stores.length), p.stores[i] = f i

variable {p} {f : ℕ → α}

theorem Numbered.init {x : α} (hx : x = f 0) : (Published.init x).Numbered f := by
  intro i h
  have hi : i = 0 := Nat.lt_one_iff.1 h
  subst hi
  exact hx

theorem Numbered.newest (h : p.Numbered f) : p.newest = f p.stamp := h _ _

theorem Numbered.acquire_fst (h : p.Numbered f) (lag : ℕ) : (p.acquire lag).1 = f (p.pick lag) :=
  h _ _

theorem Numbered.acquire (h : p.Numbered f) (lag : ℕ) : (p.acquire lag).2.Numbered f := h

theorem Numbered.store (h : p.Numbered f) {x : α} (hx : x = f (p.stamp + 1)) :
    (p.store x).Numbered f := by
  intro i hi
  have hi' : i < (p.stores ++ [x]).length := hi
  have hget : (p.stores ++ [x])[i] = f i := by
    by_cases hlt : i < p.stores.length
    · rw [List.getElem_append_left hlt]
      exact h i hlt
    · have hstamp := p.stamp_lt
      have heq : i = p.stamp + 1 := by
        rw [List.length_append, List.length_singleton] at hi'
        unfold stamp at hstamp ⊢
        omega
      rw [List.getElem_append_right (not_lt.1 hlt), List.getElem_singleton, hx, heq]
  exact hget

end Published
