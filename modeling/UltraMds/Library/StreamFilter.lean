import Mathlib.Data.List.Forall2
import Mathlib.Tactic

/-!
# Stream filters

A stream filter is a machine that reads one input at a time, answers accept or reject, and moves
to a new state.  `history` records, for each input of a stream, the state before it, the verdict
and the state after it; `accepted` keeps the accepted inputs and `final` the last state.

* `history_prune`: inputs that left the state as it was can be deleted from a stream without any
  effect on the other entries;
* `forall₂_history`: a relation between the states of two filters that every step keeps relates
  the two histories entry by entry.
-/

namespace StreamFilter

variable {σ τ α : Type*}

/-- What happened at one input. -/
structure Entry (σ α : Type*) where
  before : σ
  input : α
  verdict : Bool
  after : σ

variable (step : σ → α → Bool × σ)

/-- The entry for the input `x` read in the state `s`. -/
def entry (s : σ) (x : α) : Entry σ α := ⟨s, x, (step s x).1, (step s x).2⟩

/-- The entries of a run. -/
def history : σ → List α → List (Entry σ α)
  | _, [] => []
  | s, x :: xs => entry step s x :: history (step s x).2 xs

/-- The state after a run. -/
def final : σ → List α → σ
  | s, [] => s
  | s, x :: xs => final (step s x).2 xs

/-- The accepted inputs of a run, in order. -/
def accepted : σ → List α → List α
  | _, [] => []
  | s, x :: xs => if (step s x).1 then x :: accepted (step s x).2 xs else accepted (step s x).2 xs

@[simp] theorem history_nil (s : σ) : history step s [] = [] := rfl
@[simp] theorem history_cons (s : σ) (x : α) (xs : List α) :
    history step s (x :: xs) = entry step s x :: history step (step s x).2 xs := rfl
@[simp] theorem final_nil (s : σ) : final step s [] = s := rfl
@[simp] theorem final_cons (s : σ) (x : α) (xs : List α) :
    final step s (x :: xs) = final step (step s x).2 xs := rfl
@[simp] theorem accepted_nil (s : σ) : accepted step s [] = [] := rfl

theorem final_append (s : σ) (xs ys : List α) :
    final step s (xs ++ ys) = final step (final step s xs) ys := by
  induction xs generalizing s with
  | nil => rfl
  | cons x xs ih => exact ih _

theorem accepted_append (s : σ) (xs ys : List α) :
    accepted step s (xs ++ ys) = accepted step s xs ++ accepted step (final step s xs) ys := by
  induction xs generalizing s with
  | nil => rfl
  | cons x xs ih =>
    simp only [List.cons_append, accepted, final_cons, ih]
    split <;> rfl

theorem accepted_singleton (s : σ) (x : α) :
    accepted step s [x] = if (step s x).1 then [x] else [] := by
  simp [accepted]

/-- A filter that cannot tell an input from its image accepts the images alike. -/
theorem accepted_map {f : α → α} (h : ∀ s x, step s (f x) = step s x) (s : σ) (xs : List α) :
    accepted step s (xs.map f) = (accepted step s xs).map f := by
  induction xs generalizing s with
  | nil => rfl
  | cons x xs ih =>
    rw [List.map_cons, accepted, accepted, h, ih]
    split <;> rfl

@[simp] theorem map_input_history (s : σ) (xs : List α) :
    (history step s xs).map Entry.input = xs := by
  induction xs generalizing s with
  | nil => rfl
  | cons x xs ih => simp [ih, entry]

/-- Every entry is the step of the filter at a state that the stream before it leads to. -/
theorem exists_of_mem_history {s : σ} {xs : List α} {e : Entry σ α} (h : e ∈ history step s xs) :
    ∃ pre x post, xs = pre ++ x :: post ∧ e = entry step (final step s pre) x := by
  induction xs generalizing s with
  | nil => simp at h
  | cons x xs ih =>
    rcases List.mem_cons.1 h with rfl | h
    · exact ⟨[], x, xs, rfl, rfl⟩
    · obtain ⟨pre, y, post, rfl, rfl⟩ := ih h
      exact ⟨x :: pre, y, post, rfl, rfl⟩

/-- **Inputs that leave no trace can be deleted**: running the remaining inputs gives the
remaining entries. -/
theorem history_prune (keep : Entry σ α → Bool)
    (hkeep : ∀ s x, keep (entry step s x) = false → (step s x).2 = s) (s : σ) (xs : List α) :
    history step s (((history step s xs).filter keep).map Entry.input) =
      (history step s xs).filter keep := by
  induction xs generalizing s with
  | nil => rfl
  | cons x xs ih =>
    cases hx : keep (entry step s x) with
    | true =>
      rw [history_cons, List.filter_cons_of_pos hx, List.map_cons]
      change entry step s x :: history step (step s x).2 _ = _
      rw [ih]
    | false =>
      have hs := hkeep s x hx
      rw [history_cons, List.filter_cons_of_neg (by simp [hx]), hs]
      exact ih s

/-- **Two filters in step**: a relation kept by every step relates the histories. -/
theorem forall₂_history {step' : τ → α → Bool × τ} {R : σ → τ → Prop}
    {E : Entry σ α → Entry τ α → Prop}
    (hstep : ∀ s t x, R s t → R (step s x).2 (step' t x).2 ∧ E (entry step s x) (entry step' t x))
    {s : σ} {t : τ} (h : R s t) (xs : List α) :
    List.Forall₂ E (history step s xs) (history step' t xs) := by
  induction xs generalizing s t with
  | nil => exact .nil
  | cons x xs ih => exact .cons (hstep s t x h).2 (ih (hstep s t x h).1)

end StreamFilter
