import Mathlib.Tactic

/-!
# Positions on a ring

Elements numbered 0, 1, 2, ... are kept at the positions `i % n` of a ring with `n` places.  Going
on from place to place with a comparison instead of a division is `advance`.  Elements less than
`n` apart are at different places (`eq_of_mod_eq`).
-/

namespace RingIndex

/-- The place after `i` on a ring with `n` places. -/
def advance (n i : ℕ) : ℕ := if i + 1 = n then 0 else i + 1

theorem advance_mod {n : ℕ} (hn : 0 < n) (k : ℕ) : advance n (k % n) = (k + 1) % n := by
  have hlt := Nat.mod_lt k hn
  rw [← Nat.mod_add_mod k n 1]
  unfold advance
  split_ifs with h
  · rw [h, Nat.mod_self]
  · have hlt' : k % n + 1 < n := by omega
    exact (Nat.mod_eq_of_lt hlt').symm

/-- Elements at the same place that are less than one round apart are the same. -/
theorem eq_of_mod_eq {n a b : ℕ} (h : a % n = b % n) (hab : a ≤ b) (hb : b < a + n) : a = b := by
  have hdvd : n ∣ b - a := (Nat.modEq_iff_dvd' hab).1 h
  have hzero : b - a = 0 := Nat.eq_zero_of_dvd_of_lt hdvd (by omega)
  omega

/-- An earlier element at the same place is at least one round behind. -/
theorem add_le_of_mod_eq {n a b : ℕ} (h : a % n = b % n) (hab : a < b) : a + n ≤ b := by
  by_contra hlt
  exact absurd (eq_of_mod_eq h hab.le (not_le.1 hlt)) hab.ne

/-- In every round, each place has an element. -/
theorem exists_mod_eq {n j : ℕ} (hj : j < n) (a : ℕ) : ∃ i, a ≤ i ∧ i < a + n ∧ i % n = j := by
  have ha := Nat.mod_lt a (Nat.zero_lt_of_lt hj)
  have hdiv := Nat.div_add_mod a n
  have hmod : ∀ q, (n * q + j) % n = j := fun q => by
    rw [Nat.mul_add_mod, Nat.mod_eq_of_lt hj]
  rcases Nat.lt_or_ge j (a % n) with hlt | hge
  · refine ⟨n * (a / n + 1) + j, ?_, ?_, hmod _⟩ <;> rw [Nat.mul_succ] <;> omega
  · exact ⟨n * (a / n) + j, by omega, by omega, hmod _⟩

end RingIndex
