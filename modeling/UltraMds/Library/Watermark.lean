import Mathlib.Algebra.Order.Group.Lattice
import Mathlib.Tactic

/-!
# Watermarks

A watermark filter reads keys from a stream, remembers the largest key seen and accepts a key
that is behind this watermark by at most a fixed slack.  The watermark never depends on the
slack, only on the keys (`level`), so two filters with different slacks stay in step.

* `level w ts`: the watermark after the keys `ts`, starting from `w`;
* `Accepts slack w t`: the key `t` is accepted at the watermark `w`;
* `AllAccepted slack w ts`: no key of the stream is rejected.

`allAccepted_iff` describes the streams that pass: no key may be behind an *earlier key* by more
than the slack, however the keys in between are arranged.
-/

namespace Watermark

variable {T : Type*} [LinearOrder T]

/-- The watermark after the keys `ts`. -/
def level (w : T) (ts : List T) : T := ts.foldl max w

@[simp] theorem level_nil (w : T) : level w [] = w := rfl

@[simp] theorem level_cons (w t : T) (ts : List T) : level w (t :: ts) = level (max w t) ts := rfl

section Slack

variable [AddCommGroup T] [IsOrderedAddMonoid T]

/-- The key `t` is behind the watermark `w` by at most `slack`. -/
def Accepts (slack w t : T) : Prop := w - t ≤ slack

/-- Every key of the stream is accepted at the watermark of its moment. -/
def AllAccepted (slack : T) : T → List T → Prop
  | _, [] => True
  | w, t :: ts => Accepts slack w t ∧ AllAccepted slack (max w t) ts

omit [IsOrderedAddMonoid T] in
theorem Accepts.mono {slack slack' w t : T} (h : Accepts slack w t) (hs : slack ≤ slack') :
    Accepts slack' w t :=
  le_trans h hs

/-- An accepted key is not far behind any key that was seen before. -/
theorem Accepts.sub_le {slack w t u : T} (h : Accepts slack w t) (hu : u ≤ w) : u - t ≤ slack :=
  (sub_le_sub_right hu t).trans h

/-- **The accepted streams**: the first watermark and every earlier key bound the lateness. -/
theorem allAccepted_iff (slack w : T) (ts : List T) :
    AllAccepted slack w ts ↔
      (∀ t ∈ ts, w - t ≤ slack) ∧ ts.Pairwise fun a b => a - b ≤ slack := by
  induction ts generalizing w with
  | nil => simp [AllAccepted]
  | cons t ts ih =>
    have hmax : ∀ u, max w t - u ≤ slack ↔ w - u ≤ slack ∧ t - u ≤ slack := fun u => by
      rw [sub_le_iff_le_add, max_le_iff, ← sub_le_iff_le_add, ← sub_le_iff_le_add]
    simp only [AllAccepted, Accepts, ih, hmax, List.forall_mem_cons, List.pairwise_cons]
    constructor
    · rintro ⟨ht, hall, hp⟩
      exact ⟨⟨ht, fun u hu => (hall u hu).1⟩, fun u hu => (hall u hu).2, hp⟩
    · rintro ⟨⟨ht, hw⟩, htu, hp⟩
      exact ⟨ht, fun u hu => ⟨hw u hu, htu u hu⟩, hp⟩

end Slack

end Watermark
