import Mathlib.Tactic

/-!
# Maps that keep the first entry

A map as an association list in which `emplace` adds an entry only under a new key, as the
containers of the C++ standard library do.  Filling a map from a list of entries therefore gives
each key its first entry (`lookup_emplaceAll`), and filling it from a list of keys with values
computed from the positions gives each key the value of its first position
(`lookup_zipIdx_map`).
-/

namespace Emplace

variable {κ β : Type*} [BEq κ] [LawfulBEq κ]

/-- Add the entry, unless the key has one. -/
def emplace (m : List (κ × β)) (k : κ) (v : β) : List (κ × β) :=
  if (m.lookup k).isSome then m else m ++ [(k, v)]

/-- Add the entries in order. -/
def emplaceAll (m : List (κ × β)) (kvs : List (κ × β)) : List (κ × β) :=
  kvs.foldl (fun m kv => emplace m kv.1 kv.2) m

theorem lookup_emplace (m : List (κ × β)) (k k' : κ) (v : β) :
    (emplace m k v).lookup k' = (m.lookup k').or ([(k, v)].lookup k') := by
  unfold emplace
  split_ifs with h
  · by_cases hk : k' = k
    · -- the old entry stays
      obtain ⟨w, hw⟩ := Option.isSome_iff_exists.1 h
      rw [hk, hw]
      rfl
    · simp [List.lookup_cons, beq_false_of_ne hk]
  · exact List.lookup_append

/-- **The first entry counts.** -/
theorem lookup_emplaceAll (m : List (κ × β)) (kvs : List (κ × β)) (k : κ) :
    (emplaceAll m kvs).lookup k = (m.lookup k).or (kvs.lookup k) := by
  induction kvs generalizing m with
  | nil => simp [emplaceAll]
  | cons kv kvs ih =>
    have hcons : ([kv] ++ kvs).lookup k = ([kv].lookup k).or (kvs.lookup k) := List.lookup_append
    rw [← List.singleton_append, hcons, ← Option.or_assoc, ← lookup_emplace m kv.1 k kv.2]
    exact ih (emplace m kv.1 kv.2)

theorem lookup_zipIdx_map_from (ks : List κ) (g : ℕ → β) (n : ℕ) (k : κ) :
    ((ks.zipIdx n).map fun ki => (ki.1, g ki.2)).lookup k =
      if k ∈ ks then some (g (n + ks.idxOf k)) else none := by
  induction ks generalizing n with
  | nil => rfl
  | cons k₀ ks ih =>
    rw [List.zipIdx_cons, List.map_cons, List.lookup_cons]
    by_cases hk : k = k₀
    · simp [hk]
    · rw [beq_false_of_ne hk, ih (n + 1), List.idxOf_cons_ne ks (Ne.symm hk)]
      simp [hk, Nat.add_comm, Nat.add_left_comm]

/-- Of the values given to the positions, a key has the one of its first position. -/
theorem lookup_zipIdx_map (ks : List κ) (g : ℕ → β) (k : κ) :
    (ks.zipIdx.map fun ki => (ki.1, g ki.2)).lookup k =
      if k ∈ ks then some (g (ks.idxOf k)) else none := by
  rw [lookup_zipIdx_map_from, Nat.zero_add]

end Emplace
