import Mathlib.Data.Rat.Lemmas
import Mathlib.Algebra.Order.Ring.Rat
import Mathlib.Tactic

/-!
# Doubles with exact arithmetic

IEEE 754 binary64 values with the special values kept and the rounding of arithmetic left out: a
value is `NaN`, an infinity, or a finite number carried as the rational it denotes.  Comparisons
follow the standard (every comparison with `NaN` is false), sums and products follow it on the
special values and are exact on the finite ones.  The conversion of an integer does round.

* `Double.lt`, `Double.eq`: the operators `<` and `==`;
* `Double.add`, `Double.sub`, `Double.mul`;
* `Double.dblMax`: the largest finite value, which market data feeds use for "no price";
* `Double.roundInt`: the double that an integer is converted to.
-/

/-- A binary64 value, its finite part exact. -/
inductive Double
  | nan
  | negInf
  | posInf
  | fin (q : ℚ)
  deriving DecidableEq

namespace Double

instance : Inhabited Double := ⟨.fin 0⟩

/-- The largest finite binary64 value, `(2 ^ 53 - 1) * 2 ^ 971`. -/
def dblMax : Double := .fin (((2 ^ 53 - 1) * 2 ^ 971 : ℕ) : ℚ)

/-- `std::isnan`. -/
def isnan : Double → Bool
  | .nan => true
  | _ => false

/-- `std::isinf`. -/
def isinf : Double → Bool
  | .negInf => true
  | .posInf => true
  | _ => false

/-- The number that a finite value denotes. -/
def toRat : Double → ℚ
  | .fin q => q
  | _ => 0

/-- The operator `<`. -/
def lt : Double → Double → Bool
  | .fin a, .fin b => decide (a < b)
  | .negInf, .fin _ => true
  | .negInf, .posInf => true
  | .fin _, .posInf => true
  | _, _ => false

/-- The operator `==`: `NaN` differs from everything, itself included. -/
def eq : Double → Double → Bool
  | .fin a, .fin b => decide (a = b)
  | .negInf, .negInf => true
  | .posInf, .posInf => true
  | _, _ => false

/-- The sign change. -/
def neg : Double → Double
  | .nan => .nan
  | .negInf => .posInf
  | .posInf => .negInf
  | .fin a => .fin (-a)

/-- The operator `+`: opposite infinities have no sum. -/
def add : Double → Double → Double
  | .fin a, .fin b => .fin (a + b)
  | .fin _, .posInf => .posInf
  | .fin _, .negInf => .negInf
  | .posInf, .fin _ => .posInf
  | .negInf, .fin _ => .negInf
  | .posInf, .posInf => .posInf
  | .negInf, .negInf => .negInf
  | _, _ => .nan

/-- The operator `-`. -/
def sub (x y : Double) : Double := add x (neg y)

/-- A finite number times the positive infinity. -/
def scaleInf (a : ℚ) : Double :=
  if a = 0 then .nan else if 0 < a then .posInf else .negInf

/-- The operator `*`. -/
def mul : Double → Double → Double
  | .fin a, .fin b => .fin (a * b)
  | .fin a, .posInf => scaleInf a
  | .posInf, .fin a => scaleInf a
  | .fin a, .negInf => scaleInf (-a)
  | .negInf, .fin a => scaleInf (-a)
  | .posInf, .posInf => .posInf
  | .negInf, .negInf => .posInf
  | .posInf, .negInf => .negInf
  | .negInf, .posInf => .negInf
  | _, _ => .nan

/-! ### Integers -/

/-- The distance of neighbours among the doubles from `2 ^ m.log2` to `2 ^ (m.log2 + 1)`, but not
less than `1`. -/
def spacing (m : ℕ) : ℕ := 2 ^ (m.log2 - 52)

/-- The nearest double, of two the one with the even significand. -/
def roundNat (m : ℕ) : ℕ :=
  let k := m / spacing m
  let r := m % spacing m
  if 2 * r < spacing m ∨ 2 * r = spacing m ∧ k % 2 = 0 then k * spacing m
  else (k + 1) * spacing m

/-- Conversion of an integer of at most 64 bits, rounding to the nearest double. -/
def roundInt (n : ℤ) : ℤ := n.sign * roundNat n.natAbs

/-- The integer has at most 53 significant bits, so that there is a double of its value. -/
def ExactInt (n : ℤ) : Prop := spacing n.natAbs ∣ n.natAbs

instance (n : ℤ) : Decidable (ExactInt n) :=
  inferInstanceAs (Decidable (spacing n.natAbs ∣ n.natAbs))

theorem spacing_pos (m : ℕ) : 0 < spacing m := Nat.two_pow_pos _

theorem roundNat_eq_self_iff (m : ℕ) : roundNat m = m ↔ spacing m ∣ m := by
  have hpos := spacing_pos m
  have hdiv := Nat.div_add_mod m (spacing m)
  have hlt := Nat.mod_lt m hpos
  rw [Nat.mul_comm] at hdiv
  rw [Nat.dvd_iff_mod_eq_zero]
  unfold roundNat
  simp only
  constructor
  · intro h
    split_ifs at h
    · omega
    · rw [Nat.succ_mul] at h
      omega
  · intro h
    rw [if_pos (.inl (by omega))]
    omega

theorem roundInt_eq_self_iff (n : ℤ) : roundInt n = n ↔ ExactInt n := by
  unfold ExactInt
  rw [← roundNat_eq_self_iff]
  rcases eq_or_ne n 0 with rfl | hn
  · exact ⟨fun _ => by decide, fun _ => by decide⟩
  · have hsign : n.sign ≠ 0 := by rwa [Ne, Int.sign_eq_zero_iff_zero]
    unfold roundInt
    constructor
    · intro h
      have habs : n.sign * (roundNat n.natAbs : ℤ) = n.sign * n.natAbs := by
        rw [h, Int.sign_mul_natAbs]
      exact_mod_cast mul_left_cancel₀ hsign habs
    · intro h
      rw [h, Int.sign_mul_natAbs]

@[simp] theorem toRat_fin (q : ℚ) : toRat (.fin q) = q := rfl
@[simp] theorem lt_fin (a b : ℚ) : lt (.fin a) (.fin b) = decide (a < b) := rfl
@[simp] theorem eq_fin (a b : ℚ) : eq (.fin a) (.fin b) = decide (a = b) := rfl
@[simp] theorem neg_fin (a : ℚ) : neg (.fin a) = .fin (-a) := rfl
@[simp] theorem add_fin (a b : ℚ) : add (.fin a) (.fin b) = .fin (a + b) := rfl
@[simp] theorem sub_fin (a b : ℚ) : sub (.fin a) (.fin b) = .fin (a - b) := by
  simp [sub, sub_eq_add_neg]
@[simp] theorem mul_fin (a b : ℚ) : mul (.fin a) (.fin b) = .fin (a * b) := rfl

end Double
