import UltraMds.Library.Run
import UltraMds.Library.StreamFilter

/-!
# A filter behind a waiting line

The inputs of a stream filter arrive one by one, wait, are decided in the order of their arrival,
and the accepted ones are delivered.  Arrival, decision and delivery are separate actions that
may come in any order; an action that has nothing to work on does nothing.

`Line.ok_run`: at every moment the delivered inputs are the accepted ones of a run of the filter
over the inputs that have been dealt with, and these together with the ones in hand and waiting
are all that arrived, in order.
-/

namespace FilterLine

open StreamFilter

variable {σ α : Type*}

/-- A filter at work: what arrived, what waits for a decision, the accepted input that is not yet
delivered, the state of the filter, and what was delivered. -/
structure Line (σ α : Type*) where
  arrived : List α
  waiting : List α
  inHand : Option α
  state : σ
  delivered : List α

inductive Action (α : Type*)
  | arrive (x : α)
  | decide
  | deliver

namespace Line

/-- The line before anything arrives. -/
def init (s₀ : σ) : Line σ α :=
  { arrived := [], waiting := [], inHand := none, state := s₀, delivered := [] }

variable (step : σ → α → Bool × σ)

/-- One action. -/
def act (l : Line σ α) : Action α → Line σ α
  | .arrive x => { l with arrived := l.arrived ++ [x], waiting := l.waiting ++ [x] }
  | .decide =>
    match l.inHand, l.waiting with
    | none, x :: rest =>
      { l with
        waiting := rest
        inHand := if (step l.state x).1 then some x else none
        state := (step l.state x).2 }
    | _, _ => l
  | .deliver => { l with inHand := none, delivered := l.delivered ++ l.inHand.toList }

/-- What is not dealt with, in the order of arrival. -/
def pending (l : Line σ α) : List α := l.inHand.toList ++ l.waiting

/-- The inputs `done` are dealt with, and everything else is as a run of the filter from `s₀`
over them says. -/
structure Ok (s₀ : σ) (l : Line σ α) (done : List α) : Prop where
  arrived : l.arrived = done ++ l.pending
  delivered : l.delivered = accepted step s₀ done
  state : l.state = final step s₀ (done ++ l.inHand.toList)
  inHand : ∀ x ∈ l.inHand, (step (final step s₀ done) x).1 = true

variable {step} {s₀ : σ} {l : Line σ α} {done : List α}

theorem Ok.init : Ok step s₀ (Line.init s₀) [] :=
  ⟨rfl, rfl, rfl, by simp [Line.init]⟩

/-- Every action keeps the line in order. -/
theorem Ok.act (h : Ok step s₀ l done) (a : Action α) :
    ∃ done', Ok step s₀ (l.act step a) done' := by
  obtain ⟨harr, hdel, hstate, hhand⟩ := h
  cases a with
  | arrive x =>
    refine ⟨done, ?_, hdel, hstate, hhand⟩
    show l.arrived ++ [x] = done ++ (l.inHand.toList ++ (l.waiting ++ [x]))
    rw [harr, pending, List.append_assoc, List.append_assoc]
  | decide =>
    obtain ⟨arrived, waiting, inHand, state, delivered⟩ := l
    cases inHand with
    | some y => exact ⟨done, harr, hdel, hstate, hhand⟩
    | none =>
      cases waiting with
      | nil => exact ⟨done, harr, hdel, hstate, hhand⟩
      | cons x rest =>
        replace hstate : state = final step s₀ done := by simpa using hstate
        subst hstate
        cases hx : (step (final step s₀ done) x).1 with
        | true =>
          -- the accepted input stays in hand
          refine ⟨done, ?_, hdel, ?_, ?_⟩
          · simpa [Line.act, pending, hx] using harr
          · simp [Line.act, hx, final_append]
          · simp [Line.act, hx]
        | false =>
          -- the rejected input is dealt with
          refine ⟨done ++ [x], ?_, ?_, ?_, ?_⟩
          · simpa [Line.act, pending, hx] using harr
          · simpa [Line.act, accepted_append, accepted_singleton, hx] using hdel
          · simp [Line.act, hx, final_append]
          · simp [Line.act, hx]
  | deliver =>
    obtain ⟨arrived, waiting, inHand, state, delivered⟩ := l
    cases inHand with
    | none => exact ⟨done, harr, by simpa [Line.act] using hdel, hstate, by simp [Line.act]⟩
    | some x =>
      have hx := hhand x rfl
      refine ⟨done ++ [x], ?_, ?_, ?_, ?_⟩
      · simpa [Line.act, pending] using harr
      · simpa [Line.act, accepted_append, accepted_singleton, hx] using hdel
      · simpa [Line.act] using hstate
      · simp [Line.act]

/-- **The line delivers what the filter accepts**, after every sequence of actions. -/
theorem ok_run (as : List (Action α)) :
    ∃ done, Ok step s₀ (Run.run (Line.act step) (Line.init s₀) as) done :=
  Run.invariant (I := fun l => ∃ done, Ok step s₀ l done)
    (fun _ a ⟨_, h⟩ => h.act a) ⟨[], Ok.init⟩ as

end Line

end FilterLine
