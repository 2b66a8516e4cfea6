import Mathlib.Data.Int.CardIntervalMod
import Mathlib.Tactic

/-!
# Round robin assignment

Things are given to `n` slots in turn, thing `i` to the slot `i % n`.  `load n m k` is the number
of things that the slot `k` gets out of `m`; the loads of two slots differ by at most one
(`load_le_succ`), and no slot is empty when there are at least as many things as slots
(`load_pos`).
-/

namespace RoundRobin

/-- The slot after the slot `k`. -/
def next (n k : ℕ) : ℕ := (k + 1) % n

theorem next_mod (n i : ℕ) : next n (i % n) = (i + 1) % n := by
  unfold next
  rw [Nat.mod_add_mod]

/-- The number of things with an index below `m` in the slot `k`. -/
def load (n m k : ℕ) : ℕ := m.count fun i => i % n = k

theorem load_eq {n k : ℕ} (hk : k < n) (m : ℕ) :
    load n m k = m / n + if k < m % n then 1 else 0 := by
  have hcount := Nat.count_modEq_card (b := m) (pos_of_gt hk) k
  rw [Nat.mod_eq_of_lt hk] at hcount
  rw [← hcount, load]
  congr 1
  funext i
  unfold Nat.ModEq
  rw [Nat.mod_eq_of_lt hk]

/-- **The loads are balanced.** -/
theorem load_le_succ {n k k' : ℕ} (hk : k < n) (hk' : k' < n) (m : ℕ) :
    load n m k ≤ load n m k' + 1 := by
  rw [load_eq hk, load_eq hk']
  split_ifs <;> omega

theorem load_pos {n k : ℕ} (hk : k < n) {m : ℕ} (hm : n ≤ m) : 1 ≤ load n m k := by
  have hdiv : 1 ≤ m / n := (Nat.one_le_div_iff (pos_of_gt hk)).2 hm
  rw [load_eq hk]
  omega

/-- There is nothing in a slot that does not exist. -/
theorem load_of_le {n k : ℕ} (hn : 0 < n) (hk : n ≤ k) (m : ℕ) : load n m k = 0 := by
  rw [load, Nat.count_eq_card_filter_range, Finset.card_eq_zero, Finset.filter_eq_empty_iff]
  intro i _ hi
  have hlt := Nat.mod_lt i hn
  omega

/-- The quotient bounds every load exactly when nothing is left over. -/
theorem load_le_div_iff {n : ℕ} (hn : 0 < n) (m : ℕ) :
    (∀ k < n, load n m k ≤ m / n) ↔ n ∣ m := by
  constructor
  · intro h
    have hfirst := h 0 hn
    rw [load_eq hn] at hfirst
    refine Nat.dvd_of_mod_eq_zero ?_
    split_ifs at hfirst <;> omega
  · intro h k hk
    rw [load_eq hk, Nat.mod_eq_zero_of_dvd h, if_neg (Nat.not_lt_zero k), Nat.add_zero]

/-- Counting the entries of a list without duplicates by their positions. -/
theorem countP_idxOf {α : Type*} [BEq α] [LawfulBEq α] {l : List α} (hl : l.Nodup) (n k : ℕ) :
    l.countP (fun a => l.idxOf a % n = k) = load n l.length k := by
  have hpos : l.map (l.idxOf ·) = List.range l.length := by
    apply List.ext_getElem
    · simp
    · intro i h1 h2
      simp [hl.idxOf_getElem]
  have hmap : l.countP (fun a => l.idxOf a % n = k) =
      (l.map (l.idxOf ·)).countP fun i => i % n = k := by
    rw [List.countP_map]
    rfl
  rw [hmap, hpos]
  rfl

end RoundRobin
