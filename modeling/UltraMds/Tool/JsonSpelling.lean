import UltraMds.Tool.JsonText

/-!
# The spelling of JSON texts

The grammar of JSON below the tokens, in bytes: white space, strings, numbers and literals.
`Spelled` puts tokens together with white space between them, and `Document` is a whole file with
its value.  A file may begin with a byte order mark, and a NUL ends it.
-/

namespace UltraMds

namespace JsonText

/-! ### Strings -/

/-- A hexadecimal digit and its value. -/
def HexDigit (b : UInt8) (n : ℕ) : Prop :=
  (0x30 ≤ b.toNat ∧ b.toNat ≤ 0x39 ∧ n = b.toNat - 0x30) ∨
    (0x41 ≤ b.toNat ∧ b.toNat ≤ 0x46 ∧ n = b.toNat - 0x41 + 10) ∨
    (0x61 ≤ b.toNat ∧ b.toNat ≤ 0x66 ∧ n = b.toNat - 0x61 + 10)

/-- Four hexadecimal digits and their value. -/
inductive Hex4 : List UInt8 → ℕ → Prop
  | mk {b₁ b₂ b₃ b₄ : UInt8} {n₁ n₂ n₃ n₄ : ℕ} (h₁ : HexDigit b₁ n₁) (h₂ : HexDigit b₂ n₂)
      (h₃ : HexDigit b₃ n₃) (h₄ : HexDigit b₄ n₄) :
      Hex4 [b₁, b₂, b₃, b₄] (n₁ * 4096 + n₂ * 256 + n₃ * 16 + n₄)

/-- The two-character escapes: what follows the backslash, and what it stands for. -/
def shortForms : List (UInt8 × Char) :=
  [(0x22, '"'), (0x5C, '\\'), (0x2F, '/'), (0x62, '\x08'), (0x66, '\x0c'), (0x6E, '\n'),
    (0x72, '\r'), (0x74, '\t')]

/-- The spellings of a character: itself in UTF-8, a short escape, its number, or the numbers of
its two surrogates. -/
inductive CharText : List UInt8 → Char → Prop
  | plain {c : Char} (h : 0x20 ≤ c.toNat) (hquote : c ≠ '"') (hbackslash : c ≠ '\\') :
      CharText (String.utf8EncodeChar c) c
  | short {b : UInt8} {c : Char} (h : (b, c) ∈ shortForms) : CharText [0x5C, b] c
  | number {ds : List UInt8} {c : Char} (h : Hex4 ds c.toNat) : CharText (0x5C :: 0x75 :: ds) c
  | surrogates {ds₁ ds₂ : List UInt8} {n₁ n₂ : ℕ} {c : Char} (h₁ : Hex4 ds₁ n₁) (h₂ : Hex4 ds₂ n₂)
      (hhigh : 0xD800 ≤ n₁ ∧ n₁ ≤ 0xDBFF) (hlow : 0xDC00 ≤ n₂ ∧ n₂ ≤ 0xDFFF)
      (h : c.toNat = 0x10000 + (n₁ - 0xD800) * 0x400 + (n₂ - 0xDC00)) :
      CharText (0x5C :: 0x75 :: ds₁ ++ 0x5C :: 0x75 :: ds₂) c

/-- The spellings of characters one after the other. -/
inductive CharsText : List UInt8 → List Char → Prop
  | nil : CharsText [] []
  | cons {bs bs' : List UInt8} {c : Char} {cs : List Char} (h : CharText bs c)
      (hs : CharsText bs' cs) : CharsText (bs ++ bs') (c :: cs)

/-! ### Numbers -/

/-- Decimal digits. -/
def Digits (ds : List UInt8) : Prop := ∀ d ∈ ds, 0x30 ≤ d.toNat ∧ d.toNat ≤ 0x39

/-- The value of decimal digits. -/
def digitsValue (ds : List UInt8) : ℕ :=
  Nat.ofDigits 10 (ds.reverse.map fun d => d.toNat - 0x30)

/-- A number has no leading zeros. -/
inductive IntPart : List UInt8 → Prop
  | zero : IntPart [0x30]
  | digits {d : UInt8} {ds : List UInt8} (hd : 0x31 ≤ d.toNat ∧ d.toNat ≤ 0x39) (hds : Digits ds) :
      IntPart (d :: ds)

inductive FracPart : List UInt8 → Prop
  | none : FracPart []
  | point {d : UInt8} {ds : List UInt8} (hds : Digits (d :: ds)) : FracPart (0x2E :: d :: ds)

inductive ExpPart : List UInt8 → Prop
  | none : ExpPart []
  | exponent {e : UInt8} {sign : List UInt8} {d : UInt8} {ds : List UInt8}
      (he : e = 0x65 ∨ e = 0x45) (hsign : sign = [] ∨ sign = [0x2B] ∨ sign = [0x2D])
      (hds : Digits (d :: ds)) : ExpPart (e :: (sign ++ d :: ds))

/-- The token of a number: an integer if it has neither a fraction nor an exponent and fits into 64
bits. -/
def numberToken (strtod : List UInt8 → Double) (negative : Bool) (int frac exp : List UInt8) :
    Token :=
  let bytes := (if negative then [0x2D] else []) ++ int ++ frac ++ exp
  if frac = [] ∧ exp = [] then
    if negative then
      if digitsValue int ≤ 2 ^ 63 then .valueInteger (-digitsValue int)
      else .valueFloat (strtod bytes)
    else if digitsValue int < 2 ^ 64 then .valueUnsigned (digitsValue int)
    else .valueFloat (strtod bytes)
  else .valueFloat (strtod bytes)

/-! ### Texts -/

/-- White space. -/
def Space (bs : List UInt8) : Prop := ∀ b ∈ bs, b ∈ [0x20, 0x09, 0x0A, 0x0D]

/-- The spelling of a token. -/
inductive Spells (strtod : List UInt8 → Double) : List UInt8 → Token → Prop
  | beginArray : Spells strtod [0x5B] .beginArray
  | endArray : Spells strtod [0x5D] .endArray
  | beginObject : Spells strtod [0x7B] .beginObject
  | endObject : Spells strtod [0x7D] .endObject
  | nameSeparator : Spells strtod [0x3A] .nameSeparator
  | valueSeparator : Spells strtod [0x2C] .valueSeparator
  | literalTrue : Spells strtod [0x74, 0x72, 0x75, 0x65] .literalTrue
  | literalFalse : Spells strtod [0x66, 0x61, 0x6C, 0x73, 0x65] .literalFalse
  | literalNull : Spells strtod [0x6E, 0x75, 0x6C, 0x6C] .literalNull
  | string {bs : List UInt8} {cs : List Char} (h : CharsText bs cs) :
      Spells strtod (0x22 :: bs ++ [0x22]) (.valueString (.ofList cs))
  | number {int frac exp : List UInt8} (negative : Bool) (hint : IntPart int)
      (hfrac : FracPart frac) (hexp : ExpPart exp) :
      Spells strtod ((if negative then [0x2D] else []) ++ int ++ frac ++ exp)
        (numberToken strtod negative int frac exp)

/-- Tokens one after the other, with white space before, between and after them. -/
inductive Spelled (strtod : List UInt8 → Double) : List UInt8 → List Token → Prop
  | nil {ws : List UInt8} (h : Space ws) : Spelled strtod ws []
  | cons {ws bs rest : List UInt8} {t : Token} {ts : List Token} (hspace : Space ws)
      (h : Spells strtod bs t) (hs : Spelled strtod rest ts) :
      Spelled strtod (ws ++ bs ++ rest) (t :: ts)

/-- A byte order mark, or none. -/
def ByteOrderMark (bs : List UInt8) : Prop := bs = [] ∨ bs = [0xEF, 0xBB, 0xBF]

/-- The end of the file, or a NUL and whatever follows it. -/
def AfterText (bs : List UInt8) : Prop := bs = [] ∨ ∃ junk, bs = 0x00 :: junk

/-- A file with a JSON text in it, and its value. -/
def Document (strtod : List UInt8 → Double) (trailing : Bool) (file : List UInt8) (v : Json) :
    Prop :=
  ∃ mark bs after ts, file = mark ++ bs ++ after ∧ ByteOrderMark mark ∧ Spelled strtod bs ts ∧
    AfterText after ∧ Derives trailing ts (.value v)

end JsonText

end UltraMds
