import Mathlib.Tactic

/-!
# Runs of a total step function

A system is a step function that takes a state and an action to the next state; a run is the
state after a list of actions, which is also an arbitrary interleaving when the actions belong to
several parties.

* `invariant`: what every step keeps holds along every run;
* `countdown`: bounded progress of one party, whatever the others do;
* `Along step C s as`: every step of the run is taken in a state where `C` allows it;
  `Along.imp` is the induction for runs of this kind.
-/

namespace Run

variable {σ α : Type*} (step : σ → α → σ)

/-- The state after the actions `as`. -/
def run (s : σ) (as : List α) : σ := as.foldl step s

@[simp] theorem run_nil (s : σ) : run step s [] = s := rfl

@[simp] theorem run_cons (s : σ) (a : α) (as : List α) :
    run step s (a :: as) = run step (step s a) as := rfl

theorem run_append (s : σ) (as bs : List α) :
    run step s (as ++ bs) = run step (run step s as) bs := List.foldl_append

theorem run_concat (s : σ) (as : List α) (a : α) :
    run step s (as ++ [a]) = step (run step s as) a := run_append step s as [a]

variable {step}

/-- What every step keeps holds after every run. -/
theorem invariant {I : σ → Prop} (hstep : ∀ s a, I s → I (step s a)) {s : σ} (h : I s)
    (as : List α) : I (run step s as) := by
  induction as generalizing s with
  | nil => exact h
  | cons a as ih => exact ih (hstep s a h)

/-- A measure that the steps of one party lower, and that no step raises, goes down with the number
of the steps of that party. -/
theorem countdown {I : σ → Prop} {μ : σ → ℕ} (mine : α → Bool)
    (hinv : ∀ s a, I s → I (step s a))
    (hmine : ∀ s a, I s → mine a = true → μ (step s a) ≤ μ s - 1)
    (hother : ∀ s a, I s → mine a = false → μ (step s a) ≤ μ s) {s : σ} (h : I s)
    (as : List α) : μ (run step s as) ≤ μ s - as.countP mine := by
  induction as generalizing s with
  | nil => simp
  | cons a as ih =>
    have hrest := ih (hinv s a h)
    rw [run_cons, List.countP_cons]
    cases ha : mine a with
    | true =>
      have hstep := hmine s a h ha
      simp only [if_true]
      omega
    | false =>
      have hstep := hother s a h ha
      simp only [Bool.false_eq_true, if_false]
      omega

variable (step)

/-- Every step of the run is allowed by `C` in the state it is taken in. -/
def Along (C : σ → α → Prop) : σ → List α → Prop
  | _, [] => True
  | s, a :: as => C s a ∧ Along C (step s a) as

instance decidableAlong (C : σ → α → Prop) [∀ s a, Decidable (C s a)] :
    ∀ s as, Decidable (Along step C s as)
  | _, [] => .isTrue trivial
  | s, a :: as =>
    have := decidableAlong C (step s a) as
    inferInstanceAs (Decidable (C s a ∧ Along step C (step s a) as))

@[simp] theorem along_nil (C : σ → α → Prop) (s : σ) : Along step C s [] := trivial

variable {step}

/-- Under an invariant, a stronger condition on the steps implies a weaker one. -/
theorem Along.imp {C D : σ → α → Prop} {I : σ → Prop}
    (hstep : ∀ s a, I s → C s a → I (step s a)) (himp : ∀ s a, I s → C s a → D s a) {s : σ}
    (h : I s) {as : List α} (has : Along step C s as) : Along step D s as := by
  induction as generalizing s with
  | nil => trivial
  | cons a as ih => exact ⟨himp s a h has.1, ih (hstep s a h has.1) has.2⟩

end Run
