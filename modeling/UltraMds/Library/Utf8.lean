import Mathlib.Tactic

/-!
# The bytes of a character

The encoding of a character in UTF-8 by its number: one byte below `0x80`, then a leading byte and
one to three bytes `10xxxxxx`.  `encode_two`, `encode_three` and `encode_four` say it by quotients
and remainders, `exists_two`, `exists_three` and `exists_four` go back from the bytes, and
`codePointBytes_eq` is the form with shifts and masks.
-/

namespace Utf8

open String (utf8EncodeChar)

variable {c : Char} {n : ℕ}

theorem toNat_ofNat (h : n.isValidChar) : (Char.ofNat n).toNat = n := by
  unfold Char.ofNat
  rw [dif_pos h]
  rfl

theorem exists_char (h : n < 0xD800 ∨ 0xDFFF < n ∧ n < 0x110000) : ∃ c : Char, c.toNat = n :=
  ⟨_, toNat_ofNat h⟩

theorem valid (c : Char) : c.toNat < 0xD800 ∨ 0xDFFF < c.toNat ∧ c.toNat < 0x110000 := c.valid

theorem ofNat_eq {b : UInt8} (h : n = b.toNat) : UInt8.ofNat n = b := by
  rw [h, UInt8.ofNat_toNat]

/-! ### From the character to its bytes -/

theorem encode_one (h : c.toNat < 0x80) : utf8EncodeChar c = [UInt8.ofNat c.toNat] :=
  if_pos (Nat.le_of_lt_succ h)

theorem encode_two (h : 0x80 ≤ c.toNat) (h' : c.toNat < 0x800) :
    utf8EncodeChar c = [UInt8.ofNat (c.toNat / 64 + 0xC0), UInt8.ofNat (c.toNat % 64 + 0x80)] := by
  have hlead : c.toNat / 64 % 32 = c.toNat / 64 := Nat.mod_eq_of_lt (by omega)
  unfold utf8EncodeChar
  change ite (c.toNat ≤ 0x7F) _ (ite (c.toNat ≤ 0x7FF)
    [UInt8.ofNat (c.toNat / 64 % 32 + 0xC0), UInt8.ofNat (c.toNat % 64 + 0x80)] _) = _
  rw [if_neg (by omega), if_pos (by omega), hlead]

theorem encode_three (h : 0x800 ≤ c.toNat) (h' : c.toNat < 0x10000) :
    utf8EncodeChar c = [UInt8.ofNat (c.toNat / 4096 + 0xE0),
      UInt8.ofNat (c.toNat / 64 % 64 + 0x80), UInt8.ofNat (c.toNat % 64 + 0x80)] := by
  have hlead : c.toNat / 4096 % 16 = c.toNat / 4096 := Nat.mod_eq_of_lt (by omega)
  unfold utf8EncodeChar
  change ite (c.toNat ≤ 0x7F) _ (ite (c.toNat ≤ 0x7FF) _ (ite (c.toNat ≤ 0xFFFF)
    [UInt8.ofNat (c.toNat / 4096 % 16 + 0xE0), UInt8.ofNat (c.toNat / 64 % 64 + 0x80),
      UInt8.ofNat (c.toNat % 64 + 0x80)] _)) = _
  rw [if_neg (by omega), if_neg (by omega), if_pos (by omega), hlead]

theorem encode_four (h : 0x10000 ≤ c.toNat) :
    utf8EncodeChar c = [UInt8.ofNat (c.toNat / 262144 + 0xF0),
      UInt8.ofNat (c.toNat / 4096 % 64 + 0x80), UInt8.ofNat (c.toNat / 64 % 64 + 0x80),
      UInt8.ofNat (c.toNat % 64 + 0x80)] := by
  have hvalid := valid c
  have hlead : c.toNat / 262144 % 8 = c.toNat / 262144 := Nat.mod_eq_of_lt (by omega)
  unfold utf8EncodeChar
  change ite (c.toNat ≤ 0x7F) _ (ite (c.toNat ≤ 0x7FF) _ (ite (c.toNat ≤ 0xFFFF) _
    [UInt8.ofNat (c.toNat / 262144 % 8 + 0xF0), UInt8.ofNat (c.toNat / 4096 % 64 + 0x80),
      UInt8.ofNat (c.toNat / 64 % 64 + 0x80), UInt8.ofNat (c.toNat % 64 + 0x80)])) = _
  rw [if_neg (by omega), if_neg (by omega), if_neg (by omega), hlead]

/-! ### From the bytes to the character -/

/-- A byte after the leading one. -/
def Tail (b : UInt8) : Prop := 0x80 ≤ b.toNat ∧ b.toNat ≤ 0xBF

theorem exists_two {x y : UInt8} (hx : 0xC2 ≤ x.toNat ∧ x.toNat ≤ 0xDF) (hy : Tail y) :
    ∃ c, 0x80 ≤ c.toNat ∧ utf8EncodeChar c = [x, y] := by
  unfold Tail at hy
  obtain ⟨c, hc⟩ := exists_char (n := (x.toNat - 0xC0) * 64 + (y.toNat - 0x80)) (.inl (by omega))
  refine ⟨c, by omega, ?_⟩
  rw [encode_two (by omega) (by omega), ofNat_eq (b := x) (by omega), ofNat_eq (b := y) (by omega)]

/-- A value below `0x800` would have been shorter, and the surrogates are left out. -/
theorem exists_three {x y z : UInt8} (hx : 0xE0 ≤ x.toNat ∧ x.toNat ≤ 0xEF) (hy : Tail y)
    (hz : Tail z) (hlow : x.toNat = 0xE0 → 0xA0 ≤ y.toNat)
    (hhigh : x.toNat = 0xED → y.toNat ≤ 0x9F) :
    ∃ c, 0x80 ≤ c.toNat ∧ utf8EncodeChar c = [x, y, z] := by
  unfold Tail at hy hz
  obtain ⟨c, hc⟩ := exists_char
    (n := (x.toNat - 0xE0) * 4096 + (y.toNat - 0x80) * 64 + (z.toNat - 0x80)) (by omega)
  refine ⟨c, by omega, ?_⟩
  rw [encode_three (by omega) (by omega), ofNat_eq (b := x) (by omega),
    ofNat_eq (b := y) (by omega), ofNat_eq (b := z) (by omega)]

/-- A value below `0x10000` would have been shorter, and there is none from `0x110000` on. -/
theorem exists_four {w x y z : UInt8} (hw : 0xF0 ≤ w.toNat ∧ w.toNat ≤ 0xF4) (hx : Tail x)
    (hy : Tail y) (hz : Tail z) (hlow : w.toNat = 0xF0 → 0x90 ≤ x.toNat)
    (hhigh : w.toNat = 0xF4 → x.toNat ≤ 0x8F) :
    ∃ c, 0x80 ≤ c.toNat ∧ utf8EncodeChar c = [w, x, y, z] := by
  unfold Tail at hx hy hz
  obtain ⟨c, hc⟩ := exists_char (n := (w.toNat - 0xF0) * 262144 + (x.toNat - 0x80) * 4096 +
    (y.toNat - 0x80) * 64 + (z.toNat - 0x80)) (by omega)
  refine ⟨c, by omega, ?_⟩
  rw [encode_four (by omega), ofNat_eq (b := w) (by omega), ofNat_eq (b := x) (by omega),
    ofNat_eq (b := y) (by omega), ofNat_eq (b := z) (by omega)]

/-! ### Shifts and masks -/

/-- The bytes of a code point, put together bit by bit. -/
def codePointBytes (n : ℕ) : List UInt8 :=
  if n < 0x80 then [UInt8.ofNat n]
  else if n ≤ 0x7FF then [UInt8.ofNat (0xC0 ||| n >>> 6), UInt8.ofNat (0x80 ||| n &&& 0x3F)]
  else if n ≤ 0xFFFF then
    [UInt8.ofNat (0xE0 ||| n >>> 12), UInt8.ofNat (0x80 ||| n >>> 6 &&& 0x3F),
      UInt8.ofNat (0x80 ||| n &&& 0x3F)]
  else
    [UInt8.ofNat (0xF0 ||| n >>> 18), UInt8.ofNat (0x80 ||| n >>> 12 &&& 0x3F),
      UInt8.ofNat (0x80 ||| n >>> 6 &&& 0x3F), UInt8.ofNat (0x80 ||| n &&& 0x3F)]

theorem or_eq_add (a k m : ℕ) (h : m < 2 ^ k) : 2 ^ k * a ||| m = m + 2 ^ k * a := by
  rw [← Nat.two_pow_add_eq_or_of_lt h, Nat.add_comm]

theorem tail_bits (n : ℕ) : 0x80 ||| n &&& 0x3F = n % 64 + 0x80 := by
  rw [Nat.and_two_pow_sub_one_eq_mod n 6]
  exact or_eq_add 2 6 _ (Nat.mod_lt _ (by norm_num))

theorem codePointBytes_eq (c : Char) : codePointBytes c.toNat = utf8EncodeChar c := by
  have hvalid := valid c
  unfold codePointBytes
  simp only [tail_bits, Nat.shiftRight_eq_div_pow]
  by_cases h₁ : c.toNat < 0x80
  · rw [if_pos h₁, encode_one h₁]
  by_cases h₂ : c.toNat ≤ 0x7FF
  · rw [if_neg h₁, if_pos h₂, encode_two (by omega) (by omega)]
    rw [show (0xC0 : ℕ) = 2 ^ 6 * 3 from rfl, or_eq_add 3 6 _ (by omega)]
  by_cases h₃ : c.toNat ≤ 0xFFFF
  · rw [if_neg h₁, if_neg h₂, if_pos h₃, encode_three (by omega) (by omega)]
    rw [show (0xE0 : ℕ) = 2 ^ 5 * 7 from rfl, or_eq_add 7 5 _ (by omega)]
  · rw [if_neg h₁, if_neg h₂, if_neg h₃, encode_four (by omega)]
    rw [show (0xF0 : ℕ) = 2 ^ 4 * 15 from rfl, or_eq_add 15 4 _ (by omega)]

end Utf8
