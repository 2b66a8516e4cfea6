import Mathlib.Data.List.Forall2
import Mathlib.Tactic

/-!
# Mixed radix numbers

A list of digits, most significant first, is evaluated by Horner's rule with one radix for each
position.  When every digit is below its radix the value orders the digit lists
lexicographically (`value_lt_iff`), so distinct digit lists have distinct values
(`value_inj`).

The same digits may be evaluated with wider radices than the ones that bound them, as when a
time of day `HH:MM:SS` is packed in decimal.  The wide value orders the lists in the same way,
and a difference of wide values never understates the narrow one (`value_sub_le_value_sub`).
-/

namespace MixedRadix

/-- Horner evaluation of `xs` on top of the leading part `acc`. -/
def valueFrom : List ℕ → ℕ → List ℕ → ℕ
  | r :: rs, acc, x :: xs => valueFrom rs (acc * r + x) xs
  | _, acc, _ => acc

/-- The value of the digits `xs`, most significant first, for the radices `rs`. -/
def value (rs xs : List ℕ) : ℕ := valueFrom rs 0 xs

/-- The digits `xs` are below the radices `rs`, position by position. -/
abbrev Below (xs rs : List ℕ) : Prop := List.Forall₂ (· < ·) xs rs

@[simp] theorem valueFrom_nil (acc : ℕ) (xs : List ℕ) : valueFrom [] acc xs = acc := by
  cases xs <;> rfl

@[simp] theorem valueFrom_cons (r acc x : ℕ) (rs xs : List ℕ) :
    valueFrom (r :: rs) acc (x :: xs) = valueFrom rs (acc * r + x) xs := rfl

/-- One position: leading parts decide first, the digits decide a tie. -/
theorem mul_add_lt_iff {a b r x y : ℕ} (hx : x < r) (hy : y < r) :
    a * r + x < b * r + y ↔ a < b ∨ a = b ∧ x < y := by
  rcases lt_trichotomy a b with hab | rfl | hab
  · have : (a + 1) * r ≤ b * r := Nat.mul_le_mul_right r hab
    simp only [hab, hab.ne, false_and, or_false, iff_true]
    rw [add_mul] at this
    omega
  · simp
  · have : (b + 1) * r ≤ a * r := Nat.mul_le_mul_right r hab
    rw [add_mul] at this
    simp only [hab.not_gt, hab.ne', false_and, or_false, iff_false]
    omega

theorem mul_add_inj {a b r x y : ℕ} (hx : x < r) (hy : y < r) :
    a * r + x = b * r + y ↔ a = b ∧ x = y := by
  have h1 : a * r + x < b * r + y ↔ a < b ∨ a = b ∧ x < y := mul_add_lt_iff hx hy
  have h2 : b * r + y < a * r + x ↔ b < a ∨ b = a ∧ y < x := mul_add_lt_iff hy hx
  constructor
  · intro h
    have n1 := mt h1.2 (by omega)
    have n2 := mt h2.2 (by omega)
    omega
  · rintro ⟨rfl, rfl⟩
    rfl

/-- The leading part decides, and the digits decide lexicographically when it does not. -/
theorem valueFrom_lt_iff {rs xs ys : List ℕ} (hx : Below xs rs) (hy : Below ys rs) (a b : ℕ) :
    valueFrom rs a xs < valueFrom rs b ys ↔ a < b ∨ a = b ∧ xs < ys := by
  induction hx generalizing ys a b with
  | nil => cases hy; simp
  | @cons x r xs rs hxr _ ih =>
    cases hy with
    | @cons y _ ys _ hyr hys =>
      rw [valueFrom_cons, valueFrom_cons, ih hys, mul_add_lt_iff hxr hyr, mul_add_inj hxr hyr,
        List.cons_lt_cons_iff]
      tauto

/-- **The value is an order embedding** of bounded digit lists ordered lexicographically. -/
theorem value_lt_iff {rs xs ys : List ℕ} (hx : Below xs rs) (hy : Below ys rs) :
    value rs xs < value rs ys ↔ xs < ys := by
  simpa [value] using valueFrom_lt_iff hx hy 0 0

theorem valueFrom_inj {rs xs ys : List ℕ} (hx : Below xs rs) (hy : Below ys rs) (a b : ℕ) :
    valueFrom rs a xs = valueFrom rs b ys ↔ a = b ∧ xs = ys := by
  induction hx generalizing ys a b with
  | nil => cases hy; simp
  | @cons x r xs rs hxr _ ih =>
    cases hy with
    | @cons y _ ys _ hyr hys =>
      rw [valueFrom_cons, valueFrom_cons, ih hys, mul_add_inj hxr hyr, List.cons.injEq, and_assoc]

/-- Distinct bounded digit lists have distinct values. -/
theorem value_inj {rs xs ys : List ℕ} (hx : Below xs rs) (hy : Below ys rs) :
    value rs xs = value rs ys ↔ xs = ys := by
  simpa [value] using valueFrom_inj hx hy 0 0

/-! ### Wider radices -/

/-- Digits below the narrow radices are below wider ones. -/
theorem Below.mono {xs rs ps : List ℕ} (hx : Below xs rs) (hp : List.Forall₂ (· ≤ ·) rs ps) :
    Below xs ps := by
  induction hx generalizing ps with
  | nil => cases hp; exact .nil
  | cons hxr _ ih =>
    cases hp with
    | cons hrp hps => exact .cons (hxr.trans_le hrp) (ih hps)

/-- Widening the radices widens the differences, as long as the leading parts agree with it. -/
theorem valueFrom_sub_le {rs ps xs ys : List ℕ} (hx : Below xs rs) (hy : Below ys rs)
    (hp : List.Forall₂ (· ≤ ·) rs ps) {a b A B : ℕ} (hab : (a : ℤ) - b ≤ A - B)
    (hle : valueFrom rs b ys ≤ valueFrom rs a xs) :
    (valueFrom rs a xs : ℤ) - valueFrom rs b ys ≤ valueFrom ps A xs - valueFrom ps B ys := by
  induction hx generalizing ys ps a b A B with
  | nil => cases hy; cases hp; simpa using hab
  | @cons x r xs rs hxr hxs ih =>
    cases hy with
    | @cons y _ ys _ hyr hys =>
      cases hp with
      | @cons _ p _ ps hrp hps =>
        simp only [valueFrom_cons] at hle ⊢
        -- the leading part of the larger number is at least the other's
        have hba : b ≤ a := by
          by_contra hlt
          have hlt' : a * r + x < b * r + y := (mul_add_lt_iff hxr hyr).2 (Or.inl (by omega))
          have := (valueFrom_lt_iff hxs hys (a * r + x) (b * r + y)).2 (Or.inl hlt')
          omega
        refine ih hys hps ?_ hle
        have h1 : ((a : ℤ) - b) * r ≤ (A - B) * p :=
          mul_le_mul hab (by exact_mod_cast hrp) (by positivity) (by omega)
        push_cast
        linarith

/-- **A difference of wide values never understates the narrow one.** -/
theorem value_sub_le_value_sub {rs ps xs ys : List ℕ} (hx : Below xs rs) (hy : Below ys rs)
    (hp : List.Forall₂ (· ≤ ·) rs ps) (hle : value rs ys ≤ value rs xs) :
    (value rs xs : ℤ) - value rs ys ≤ value ps xs - value ps ys :=
  valueFrom_sub_le hx hy hp (by simp) hle

end MixedRadix
