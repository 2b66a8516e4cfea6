import Mathlib.Data.List.Count
import Mathlib.Tactic

/-!
# Counting by kinds

Entries of a list are counted by kinds.  If there are at most `b` of each kind then there are at
most `b` for each kind altogether (`countP_any_le`); the list with `b` of each kind has as many
(`countP_copies_le`, `length_copies`).
-/

namespace Tally

variable {α β : Type*}

theorem countP_or_le (p q : β → Bool) (l : List β) :
    l.countP (fun x => p x || q x) ≤ l.countP p + l.countP q := by
  induction l with
  | nil => simp
  | cons x l ih =>
    simp only [List.countP_cons]
    cases p x <;> cases q x <;> simp <;> omega

/-- What is of one of several kinds is counted by the kinds. -/
theorem countP_any_le (p : α → β → Bool) {kinds : List α} {l : List β} {b : ℕ}
    (h : ∀ k ∈ kinds, l.countP (p k) ≤ b) :
    l.countP (fun x => kinds.any fun k => p k x) ≤ kinds.length * b := by
  induction kinds with
  | nil => simp
  | cons k kinds ih =>
    obtain ⟨hk, hkinds⟩ := List.forall_mem_cons.1 h
    have htail := ih hkinds
    calc l.countP (fun x => (k :: kinds).any fun k => p k x)
        ≤ l.countP (p k) + l.countP (fun x => kinds.any fun k => p k x) := countP_or_le _ _ l
      _ ≤ b + kinds.length * b := Nat.add_le_add hk htail
      _ = (k :: kinds).length * b := by rw [List.length_cons, Nat.succ_mul, Nat.add_comm]

/-- The list with `b` copies of an entry for each kind. -/
def copies (b : ℕ) (f : α → β) (kinds : List α) : List β :=
  kinds.flatMap fun k => List.replicate b (f k)

variable {b : ℕ} {f : α → β}

theorem length_copies (kinds : List α) : (copies b f kinds).length = kinds.length * b := by
  simp [copies, List.length_flatMap]

theorem exists_of_mem_copies {kinds : List α} {x : β} (h : x ∈ copies b f kinds) :
    ∃ k ∈ kinds, x = f k := by
  obtain ⟨k, hk, hx⟩ := List.mem_flatMap.1 h
  exact ⟨k, hk, List.eq_of_mem_replicate hx⟩

/-- A property that tells the kinds apart holds of the copies of one kind at most. -/
theorem countP_copies_le {p : β → Bool} {kinds : List α} (hnodup : kinds.Nodup)
    (hp : ∀ k ∈ kinds, ∀ k' ∈ kinds, p (f k) = true → p (f k') = true → k = k') :
    (copies b f kinds).countP p ≤ b := by
  induction kinds with
  | nil => simp [copies]
  | cons k kinds ih =>
    obtain ⟨hk, hnodup⟩ := List.nodup_cons.1 hnodup
    have hsplit : copies b f (k :: kinds) = List.replicate b (f k) ++ copies b f kinds := rfl
    rw [hsplit, List.countP_append]
    by_cases hpk : p (f k) = true
    · -- no other entry has the property
      have hrest : (copies b f kinds).countP p = 0 := by
        rw [List.countP_eq_zero]
        intro x hx hpx
        obtain ⟨k', hk', rfl⟩ := exists_of_mem_copies hx
        have heq := hp k List.mem_cons_self k' (List.mem_cons_of_mem k hk') hpk hpx
        exact hk (heq ▸ hk')
      rw [hrest, add_zero]
      exact (List.countP_le_length).trans_eq List.length_replicate
    · have hfirst : (List.replicate b (f k)).countP p = 0 := by
        rw [List.countP_eq_zero]
        intro x hx
        rw [List.eq_of_mem_replicate hx]
        exact hpk
      rw [hfirst, zero_add]
      exact ih hnodup fun j hj j' hj' =>
        hp j (List.mem_cons_of_mem k hj) j' (List.mem_cons_of_mem k hj')

end Tally
