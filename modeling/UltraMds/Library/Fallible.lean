import Mathlib.Tactic
import UltraMds.Library.Run

/-!
# Computations that can fail

Facts about `Except` as the monad of exceptions: a sequence of steps succeeds exactly when every
step does, and fails with the first one that does not.

`steps` is the run of a step function that can fail.  `steps_ok` shows that a run does not fail,
by an invariant, and `steps_simulated` in addition that another system keeps up with it.
-/

namespace Fallible

variable {ε α β : Type}

theorem ok_bind (a : α) (f : α → Except ε β) : (Except.ok a >>= f) = f a := rfl

theorem error_bind (e : ε) (f : α → Except ε β) : (Except.error e >>= f) = .error e := rfl

theorem mapError_ok {ε' : Type} (g : ε → ε') (a : α) :
    Except.mapError g (Except.ok a) = .ok a := rfl

theorem mapError_error {ε' : Type} (g : ε → ε') (e : ε) :
    Except.mapError g (Except.error e : Except ε α) = .error (g e) := rfl

/-- A computation that succeeds has all its steps succeed. -/
theorem exists_of_bind_eq_ok {x : Except ε α} {f : α → Except ε β} {b : β}
    (h : (x >>= f) = .ok b) : ∃ a, x = .ok a ∧ f a = .ok b := by
  cases x with
  | error e => cases h
  | ok a => exact ⟨a, rfl, h⟩

/-- A loop succeeds when every iteration does. -/
theorem mapM_eq_ok {f : α → Except ε β} {g : α → β} {l : List α} (h : ∀ a ∈ l, f a = .ok (g a)) :
    l.mapM f = .ok (l.map g) := by
  induction l with
  | nil => rfl
  | cons a l ih =>
    obtain ⟨ha, hl⟩ := List.forall_mem_cons.1 h
    rw [List.mapM_cons, ha, ih hl]
    rfl

/-- A loop that succeeds has every iteration succeed. -/
theorem exists_of_mapM_eq_ok {f : α → Except ε β} {l : List α} {bs : List β}
    (h : l.mapM f = .ok bs) : ∀ a ∈ l, ∃ b, f a = .ok b := by
  induction l generalizing bs with
  | nil => simp
  | cons a l ih =>
    rw [List.mapM_cons] at h
    obtain ⟨b, hb, h⟩ := exists_of_bind_eq_ok h
    obtain ⟨bs', hbs', -⟩ := exists_of_bind_eq_ok h
    exact List.forall_mem_cons.2 ⟨⟨b, hb⟩, ih hbs'⟩

/-- A loop fails with the first iteration that does. -/
theorem mapM_eq_error_iff {f : α → Except ε β} {l : List α} {e : ε} :
    l.mapM f = .error e ↔
      ∃ done a rest, l = done ++ a :: rest ∧ (∀ b ∈ done, ∃ c, f b = .ok c) ∧ f a = .error e := by
  constructor
  · intro h
    induction l with
    | nil => cases h
    | cons a l ih =>
      rw [List.mapM_cons] at h
      cases ha : f a with
      | error e' =>
        rw [ha] at h
        cases h
        exact ⟨[], a, l, rfl, by simp, ha⟩
      | ok b =>
        cases hl : l.mapM f with
        | ok bs =>
          rw [ha, hl] at h
          cases h
        | error e' =>
          rw [ha, hl] at h
          cases h
          obtain ⟨done, a', rest, rfl, hdone, ha'⟩ := ih hl
          exact ⟨a :: done, a', rest, rfl, List.forall_mem_cons.2 ⟨⟨b, ha⟩, hdone⟩, ha'⟩
  · rintro ⟨done, a, rest, rfl, hdone, ha⟩
    induction done with
    | nil =>
      rw [List.nil_append, List.mapM_cons, ha]
      rfl
    | cons b done ih =>
      obtain ⟨⟨c, hb⟩, hdone⟩ := List.forall_mem_cons.1 hdone
      rw [List.cons_append, List.mapM_cons, hb, ih hdone]
      rfl

/-- A counting loop fails with the first index that does. -/
theorem mapM_range_eq_error {f : ℕ → Except ε β} {n i : ℕ} {e : ε} (hi : i < n)
    (hbefore : ∀ j < i, ∃ b, f j = .ok b) (h : f i = .error e) :
    (List.range n).mapM f = .error e := by
  obtain ⟨k, rfl⟩ := Nat.exists_eq_add_of_lt hi
  rw [Nat.add_assoc, List.range_add, List.range_succ_eq_map, List.map_cons]
  exact mapM_eq_error_iff.2 ⟨_, _, _, rfl, fun j hj => hbefore j (List.mem_range.1 hj), h⟩

section Steps

variable {σ τ γ : Type}

/-- The state after the actions `as`, if none of them fails. -/
def steps (step : σ → α → Except ε σ) (s : σ) (as : List α) : Except ε σ := as.foldlM step s

@[simp] theorem steps_nil (step : σ → α → Except ε σ) (s : σ) : steps step s [] = .ok s := rfl

theorem steps_cons (step : σ → α → Except ε σ) (s : σ) (a : α) (as : List α) :
    steps step s (a :: as) = step s a >>= fun s' => steps step s' as := rfl

/-- A run goes on where its first part has come to. -/
theorem steps_append {step : σ → α → Except ε σ} {s s' : σ} {as : List α}
    (h : steps step s as = .ok s') (bs : List α) :
    steps step s (as ++ bs) = steps step s' bs := by
  unfold steps at h ⊢
  rw [List.foldlM_append, h]
  rfl

/-- A run does not fail when no step from a state of the invariant does. -/
theorem steps_ok {step : σ → α → Except ε σ} {I : σ → Prop}
    (hstep : ∀ s a, I s → ∃ s', step s a = .ok s' ∧ I s') {s : σ} (h : I s) (as : List α) :
    ∃ s', steps step s as = .ok s' ∧ I s' := by
  induction as generalizing s with
  | nil => exact ⟨s, rfl, h⟩
  | cons a as ih =>
    obtain ⟨s₁, hs₁, h₁⟩ := hstep s a h
    rw [steps_cons, hs₁]
    exact ih h₁

/-- A system that cannot fail simulates one that can, each step being matched by some actions. -/
theorem steps_simulated {step : σ → α → Except ε σ} {step' : τ → γ → τ} {R : σ → τ → Prop}
    (hstep : ∀ s t a, R s t → ∃ s' bs, step s a = .ok s' ∧ R s' (Run.run step' t bs))
    {s : σ} {t : τ} (h : R s t) (as : List α) :
    ∃ s' bs, steps step s as = .ok s' ∧ R s' (Run.run step' t bs) := by
  induction as generalizing s t with
  | nil => exact ⟨s, [], rfl, h⟩
  | cons a as ih =>
    obtain ⟨s₁, bs₁, hs₁, h₁⟩ := hstep s t a h
    obtain ⟨s', bs, hs', h'⟩ := ih h₁
    refine ⟨s', bs₁ ++ bs, ?_, ?_⟩
    · rw [steps_cons, hs₁]
      exact hs'
    · rw [Run.run_append]
      exact h'

end Steps

end Fallible
