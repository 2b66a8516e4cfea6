import Mathlib.Data.List.Basic
import Mathlib.Tactic

/-!
# Partial automata

A partial automaton takes a state and a letter to the next state or rejects the letter; `feed` is
its run over a word.  A word is viable when it begins some accepted word.

* `feed_invariant`: what the letters keep holds after every word that can be fed;
* `viable_iff`: when every state that can be reached can be brought to an end, the viable words
  are the ones that can be fed, so a letter is rejected exactly when no accepted word goes on
  with it.
-/

namespace Acceptor

variable {σ τ : Type*} (next : σ → τ → Option σ)

/-- The state after a word, if none of its letters is rejected. -/
def feed (q : σ) (ts : List τ) : Option σ := ts.foldlM next q

@[simp] theorem feed_nil (q : σ) : feed next q [] = some q := rfl

@[simp] theorem feed_cons (q : σ) (t : τ) (ts : List τ) :
    feed next q (t :: ts) = (next q t).bind fun q' => feed next q' ts := rfl

theorem feed_append (q : σ) (ts us : List τ) :
    feed next q (ts ++ us) = (feed next q ts).bind fun q' => feed next q' us :=
  List.foldlM_append

variable {next}

theorem feed_append_of_eq {q q' : σ} {ts : List τ} (h : feed next q ts = some q') (us : List τ) :
    feed next q (ts ++ us) = feed next q' us := by
  rw [feed_append, h]
  rfl

theorem feed_concat {q q' q'' : σ} {ts : List τ} {t : τ} (h : feed next q ts = some q')
    (ht : next q' t = some q'') : feed next q (ts ++ [t]) = some q'' := by
  rw [feed_append_of_eq h, feed_cons, ht]
  rfl

/-- The beginning of a word that can be fed can be fed. -/
theorem exists_of_feed_append {q q' : σ} {ts us : List τ} (h : feed next q (ts ++ us) = some q') :
    ∃ m, feed next q ts = some m ∧ feed next m us = some q' := by
  rw [feed_append] at h
  exact Option.bind_eq_some_iff.1 h

/-- What every letter keeps holds after every word. -/
theorem feed_invariant {I : List τ → σ → Prop}
    (hstep : ∀ ts q t q', I ts q → next q t = some q' → I (ts ++ [t]) q') {start q : σ}
    (hstart : I [] start) {ts : List τ} (h : feed next start ts = some q) : I ts q := by
  induction ts using List.reverseRecOn generalizing q with
  | nil =>
    cases h
    exact hstart
  | append_singleton ts t ih =>
    obtain ⟨m, hm, hlast⟩ := exists_of_feed_append h
    obtain ⟨q', hq', hnil⟩ := Option.bind_eq_some_iff.1 hlast
    cases hnil
    exact hstep ts m t q (ih hm) hq'

/-- A letter that every state rejects is in no word that can be fed. -/
theorem not_mem_of_feed {q q' : σ} {t : τ} {ts : List τ} (ht : ∀ q, next q t = none)
    (h : feed next q ts = some q') : t ∉ ts := by
  induction ts generalizing q with
  | nil => exact List.not_mem_nil
  | cons u ts ih =>
    obtain ⟨m, hm, hfeed⟩ := Option.bind_eq_some_iff.1 h
    rintro (_ | ⟨_, hmem⟩)
    · rw [ht] at hm
      cases hm
    · exact ih hfeed hmem

section Viable

variable (next) (final : σ → Prop) (start : σ)

/-- The automaton ends in a final state. -/
def Accepts (ts : List τ) : Prop := ∃ q, feed next start ts = some q ∧ final q

/-- The word begins an accepted one. -/
def Viable (ts : List τ) : Prop := ∃ more, Accepts next final start (ts ++ more)

variable {next final start}

/-- The words that begin an accepted one are those that can be fed. -/
theorem viable_iff (hend : ∀ q, ∃ more q', feed next q more = some q' ∧ final q') (ts : List τ) :
    Viable next final start ts ↔ ∃ q, feed next start ts = some q := by
  constructor
  · rintro ⟨more, q, hq, -⟩
    obtain ⟨m, hm, -⟩ := exists_of_feed_append hq
    exact ⟨m, hm⟩
  · rintro ⟨q, hq⟩
    obtain ⟨more, q', hmore, hfinal⟩ := hend q
    exact ⟨more, q', (feed_append_of_eq hq more).trans hmore, hfinal⟩

/-- No accepted word goes on with a letter that is rejected. -/
theorem not_viable_concat {q : σ} {ts : List τ} {t : τ} (h : feed next start ts = some q)
    (ht : next q t = none) : ¬ Viable next final start (ts ++ [t]) := by
  rintro ⟨more, q', hq', -⟩
  rw [List.append_assoc, feed_append_of_eq h] at hq'
  obtain ⟨m, hm, -⟩ := Option.bind_eq_some_iff.1 hq'
  rw [ht] at hm
  cases hm

end Viable

end Acceptor
