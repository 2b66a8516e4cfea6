import UltraMds.Library.StreamFilter

/-!
# Filters that grow stricter

A filter whose states are ordered by strictness: a stricter state accepts less, every step keeps
the order of two states, and a step never makes a state less strict (`Strict`).

* `survivors_accepted`: when inputs are lost before the filter, the ones that would have been
  accepted and are not lost are still accepted;
* `accepted_of_le`: a filter in a less strict state accepts whatever the other accepts;
* `accepted_accepted`: a second filter after the first one has nothing left to reject.
-/

namespace StreamFilter

variable {σ α : Type*}

/-- The states are ordered by strictness, `le s s'` when `s'` is the stricter one. -/
structure Strict (step : σ → α → Bool × σ) (le : σ → σ → Prop) : Prop where
  refl : ∀ s, le s s
  trans : ∀ {s s' s''}, le s s' → le s' s'' → le s s''
  grows : ∀ s x, le s (step s x).2
  mono : ∀ {s s'} x, le s s' → le (step s x).2 (step s' x).2
  verdict : ∀ {s s'} x, le s s' → (step s' x).1 = true → (step s x).1 = true

/-- The accepted inputs are some of the inputs. -/
theorem accepted_sublist (step : σ → α → Bool × σ) (s : σ) (xs : List α) :
    (accepted step s xs).Sublist xs := by
  induction xs generalizing s with
  | nil => exact List.Sublist.slnil
  | cons x xs ih =>
    rw [accepted]
    split_ifs
    · exact (ih _).cons_cons x
    · exact (ih _).cons x

/-- The inputs that are not lost, of a stream in which each input tells whether it is kept. -/
def survivors (ps : List (α × Bool)) : List α := (ps.filter Prod.snd).map Prod.fst

@[simp] theorem survivors_nil : survivors ([] : List (α × Bool)) = [] := rfl

@[simp] theorem survivors_lost (x : α) (ps : List (α × Bool)) :
    survivors ((x, false) :: ps) = survivors ps := by
  simp [survivors]

@[simp] theorem survivors_kept (x : α) (ps : List (α × Bool)) :
    survivors ((x, true) :: ps) = x :: survivors ps := by
  simp [survivors]

/-- The filter on inputs with such a mark, which it does not look at. -/
def marked (step : σ → α → Bool × σ) (s : σ) (p : α × Bool) : Bool × σ := step s p.1

namespace Strict

variable {step : σ → α → Bool × σ} {le : σ → σ → Prop} {s s' : σ}

/-- **A loss costs nothing but the lost inputs.** -/
theorem survivors_accepted (h : Strict step le) (hle : le s s') (ps : List (α × Bool)) :
    (survivors (accepted (marked step) s' ps)).Sublist (accepted step s (survivors ps)) := by
  induction ps generalizing s s' with
  | nil => simp
  | cons p ps ih =>
    obtain ⟨x, kept⟩ := p
    have hverdict := h.verdict x hle
    have hnext : le s (step s' x).2 := h.trans hle (h.grows s' x)
    cases kept with
    | false =>
      -- the lost input is not among the survivors, accepted or not
      rw [survivors_lost, accepted]
      split_ifs with hx
      · rw [survivors_lost]
        exact ih hnext
      · exact ih hnext
    | true =>
      have hkept := ih (h.mono x hle)
      rw [survivors_kept, accepted, accepted]
      split_ifs with hx' hx hx
      · rw [survivors_kept]
        exact hkept.cons_cons x
      · exact absurd (hverdict hx') hx
      · exact hkept.cons x
      · exact hkept

/-- A less strict filter accepts at least as much. -/
theorem accepted_of_le (h : Strict step le) (hle : le s s') (xs : List α) :
    (accepted step s' xs).Sublist (accepted step s xs) := by
  induction xs generalizing s s' with
  | nil => simp
  | cons x xs ih =>
    have hverdict := h.verdict x hle
    have hrest := ih (h.mono x hle)
    rw [accepted, accepted]
    split_ifs with hx' hx hx
    · exact hrest.cons_cons x
    · exact absurd (hverdict hx') hx
    · exact hrest.cons x
    · exact hrest

/-- **Nothing is left to reject** after the filter. -/
theorem accepted_accepted (h : Strict step le) (hle : le s s') (xs : List α) :
    accepted step s (accepted step s' xs) = accepted step s' xs := by
  induction xs generalizing s s' with
  | nil => rfl
  | cons x xs ih =>
    rw [accepted]
    split_ifs with hx
    · rw [accepted, if_pos (h.verdict x hle hx), ih (h.mono x hle)]
    · exact ih (h.trans hle (h.grows s' x))

end Strict

end StreamFilter
