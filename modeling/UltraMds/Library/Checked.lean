import Mathlib.Tactic

/-!
# Checked machine arithmetic

Sums, differences and products in a signed type of `w` bits, with `none` for an overflow.  A
computation that is written with the checked operations and gives `some` value has no overflow on
the way, and the value is the one of exact arithmetic.
-/

namespace Checked

/-- The values of a signed type of `w` bits. -/
def Fits (w : ℕ) (n : ℤ) : Prop := -2 ^ (w - 1) ≤ n ∧ n < 2 ^ (w - 1)

instance (w : ℕ) (n : ℤ) : Decidable (Fits w n) :=
  inferInstanceAs (Decidable (-2 ^ (w - 1) ≤ n ∧ n < 2 ^ (w - 1)))

/-- The result of an operation, if the type has it. -/
def fit (w : ℕ) (n : ℤ) : Option ℤ := if Fits w n then some n else none

def add (w : ℕ) (x y : ℤ) : Option ℤ := fit w (x + y)
def sub (w : ℕ) (x y : ℤ) : Option ℤ := fit w (x - y)
def mul (w : ℕ) (x y : ℤ) : Option ℤ := fit w (x * y)

variable {w : ℕ} {x y : ℤ}

theorem fit_eq_some {n : ℤ} (h : Fits w n) : fit w n = some n := if_pos h

theorem fit_eq_none {n : ℤ} (h : ¬ Fits w n) : fit w n = none := if_neg h

theorem add_eq_some (h : Fits w (x + y)) : add w x y = some (x + y) := fit_eq_some h

theorem mul_eq_some (h : Fits w (x * y)) : mul w x y = some (x * y) := fit_eq_some h

theorem mul_eq_none (h : ¬ Fits w (x * y)) : mul w x y = none := fit_eq_none h

/-- A checked step that fits hands its exact result on. -/
theorem fit_bind {α : Type*} {n : ℤ} (h : Fits w n) (f : ℤ → Option α) :
    (fit w n).bind f = f n := by
  rw [fit_eq_some h, Option.bind_some]

theorem add_bind {α : Type*} (h : Fits w (x + y)) (f : ℤ → Option α) :
    (add w x y).bind f = f (x + y) := fit_bind h f
theorem sub_bind {α : Type*} (h : Fits w (x - y)) (f : ℤ → Option α) :
    (sub w x y).bind f = f (x - y) := fit_bind h f
theorem mul_bind {α : Type*} (h : Fits w (x * y)) (f : ℤ → Option α) :
    (mul w x y).bind f = f (x * y) := fit_bind h f

theorem fits_32_iff {n : ℤ} : Fits 32 n ↔ -2147483648 ≤ n ∧ n < 2147483648 := by
  norm_num [Fits]

theorem fits_64_iff {n : ℤ} :
    Fits 64 n ↔ -9223372036854775808 ≤ n ∧ n < 9223372036854775808 := by
  norm_num [Fits]

end Checked
