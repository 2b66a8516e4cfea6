import Mathlib.Tactic

/-!
# Comparing neighbours

A sequence in which some positions are absent is tested for order by comparing neighbours, and a
comparison with an absent neighbour is skipped.  What such a test ensures is the order along runs
of present positions (`neighbours_iff_runs`): a relation that is transitive is passed on from
neighbour to neighbour, and an absent position breaks the chain.
-/

namespace Adjacent

variable {α : Type*} {n : ℕ} (R : α → α → Prop) (P : Fin n → Prop) (f : Fin n → α)

/-- Neighbours that are both present are related. -/
def Neighbours : Prop := ∀ i j : Fin n, i.val + 1 = j.val → P i → P j → R (f i) (f j)

/-- The two ends of a run of present positions are related. -/
def Runs : Prop := ∀ i j : Fin n, i < j → (∀ m, i ≤ m → m ≤ j → P m) → R (f i) (f j)

variable {R P f}

/-- The order is passed on along a run, by induction on its length. -/
theorem Neighbours.runs [IsTrans α R] (h : Neighbours R P f) : Runs R P f := by
  have key : ∀ (d : ℕ) (i j : Fin n), i.val + d + 1 = j.val → (∀ m, i ≤ m → m ≤ j → P m) →
      R (f i) (f j) := by
    intro d
    induction d with
    | zero =>
      intro i j hij hrun
      have hle : i ≤ j := Fin.le_def.2 (by omega)
      exact h i j hij (hrun i le_rfl hle) (hrun j hle le_rfl)
    | succ d ih =>
      intro i j hij hrun
      -- the last position but one of the run
      let k : Fin n := ⟨i.val + d + 1, by omega⟩
      have hik : i ≤ k := Fin.le_def.2 (by show i.val ≤ i.val + d + 1; omega)
      have hkj : k ≤ j := Fin.le_def.2 (by show i.val + d + 1 ≤ j.val; omega)
      have hfirst : R (f i) (f k) := ih i k rfl fun m him hmk => hrun m him (hmk.trans hkj)
      have hlast : R (f k) (f j) := h k j hij (hrun k hik hkj) (hrun j (hik.trans hkj) le_rfl)
      exact Trans.trans hfirst hlast
  intro i j hij hrun
  have hlt : i.val < j.val := hij
  exact key (j.val - i.val - 1) i j (by omega) hrun

theorem Runs.neighbours (h : Runs R P f) : Neighbours R P f := by
  intro i j hij hi hj
  refine h i j (Fin.lt_def.2 (by omega)) fun m him hmj => ?_
  have him' : i.val ≤ m.val := him
  have hmj' : m.val ≤ j.val := hmj
  rcases (by omega : m.val = i.val ∨ m.val = j.val) with hm | hm
  · exact Fin.ext hm ▸ hi
  · exact Fin.ext hm ▸ hj

/-- **What comparing neighbours ensures.** -/
theorem neighbours_iff_runs [IsTrans α R] : Neighbours R P f ↔ Runs R P f :=
  ⟨Neighbours.runs, Runs.neighbours⟩

end Adjacent
