import UltraMds.Tool.JsonLexer
import UltraMds.Tool.JsonSpelling

/-!
# The scanner of strings

What a scanner does to the bytes before the lexer and to its buffer is said with `At`.
`scanString_sound` says that what `scan_string` accepts is the spelling of a string, and
`scanString_complete` that every spelling is accepted, with the characters that are spelled.
-/

namespace UltraMds

namespace JsonLexer

open JsonText
open String (utf8EncodeChar)

variable {l l' : JsonLexer} {r r' buf bs : List UInt8} {b : UInt8}

/-! ### The bytes before the lexer -/

/-- The lexer has the bytes `r` before it and `buf` in its buffer. -/
structure At (l : JsonLexer) (r buf : List UInt8) : Prop where
  rest : (if l.nextUnget then l.current.toList ++ l.ia else l.ia) = r
  eof : l.nextUnget = true → l.current = none → l.ia = []
  buffer : l.tokenBuffer = buf

theorem At.current (h : At l r buf) : l.get.current = r.head? := by
  have hrest := h.rest
  unfold get
  cases hunget : l.nextUnget with
  | false => simpa [hunget] using congrArg List.head? hrest
  | true =>
    cases hcurrent : l.current with
    | none => simpa [hunget, hcurrent, h.eof hunget hcurrent] using congrArg List.head? hrest
    | some b => simpa [hunget, hcurrent] using congrArg List.head? hrest

theorem At.get (h : At l r buf) : At l.get r.tail buf := by
  refine ⟨?_, nofun, h.buffer⟩
  have hrest := h.rest
  show l.get.ia = r.tail
  unfold JsonLexer.get
  cases hunget : l.nextUnget with
  | false => simpa [hunget] using congrArg List.tail hrest
  | true =>
    cases hcurrent : l.current with
    | none => simpa [hunget, hcurrent, h.eof hunget hcurrent] using congrArg List.tail hrest
    | some b => simpa [hunget, hcurrent] using congrArg List.tail hrest

theorem At.get_cons (h : At l (b :: r) buf) : l.get.current = some b ∧ At l.get r buf :=
  ⟨h.current, h.get⟩

theorem At.of_current (h : At l r buf) (hb : l.get.current = some b) :
    ∃ r', r = b :: r' ∧ At l.get r' buf := by
  rw [h.current] at hb
  obtain ⟨r', rfl⟩ := List.head?_eq_some_iff.1 hb
  exact ⟨r', rfl, h.get⟩

/-- To read a byte and to unget it changes nothing. -/
theorem At.unget (h : At l r buf) : At l.get.unget r buf := by
  have hcurrent := h.current
  have hia : l.get.ia = r.tail := h.get.rest
  constructor
  case rest =>
    show l.get.current.toList ++ l.get.ia = r
    rw [hcurrent, hia]
    cases r <;> rfl
  case eof =>
    intro _ hnone
    rw [show l.get.unget.current = r.head? from hcurrent, List.head?_eq_none_iff] at hnone
    show l.get.ia = []
    rw [hia, hnone]
    rfl
  case buffer => exact h.buffer

theorem At.add (h : At l r buf) (bs : List UInt8) : At (l.add bs) r (buf ++ bs) :=
  ⟨h.rest, h.eof, congrArg (· ++ bs) h.buffer⟩

theorem At.fail (h : At l r buf) (text : String) : At (l.fail text) r buf :=
  ⟨h.rest, h.eof, h.buffer⟩

theorem At.reset (h : At l r buf) : At l.reset r [] := ⟨h.rest, h.eof, rfl⟩

/-- There is a round for each byte and one more. -/
theorem At.lt_rounds (h : At l r buf) : r.length < l.rounds := by
  rw [← h.rest]
  unfold rounds
  split_ifs
  · cases l.current <;> simp
  · omega

/-! ### Escapes -/

theorem hexDigit?_eq_some_iff {n : ℕ} : hexDigit? b = some n ↔ HexDigit b n := by
  unfold hexDigit? HexDigit
  simp only [UInt8.le_iff_toNat_le]
  change (if 0x30 ≤ b.toNat ∧ b.toNat ≤ 0x39 then _ else
    if 0x41 ≤ b.toNat ∧ b.toNat ≤ 0x46 then _ else
    if 0x61 ≤ b.toNat ∧ b.toNat ≤ 0x66 then _ else _) = _ ↔ _
  split_ifs <;> simp only [Option.some.injEq, false_iff] <;> omega

theorem codepointLoop_sound {factor codepoint n : ℕ} {factors : List ℕ} (h : At l r buf)
    (hloop : codepointLoop (factor :: factors) codepoint l = (some n, l')) :
    ∃ b d r', r = b :: r' ∧ HexDigit b d ∧ At l.get r' buf ∧
      codepointLoop factors (codepoint + d <<< factor) l.get = (some n, l') := by
  rw [codepointLoop] at hloop
  split at hloop
  · rename_i d hd
    obtain ⟨b, hb, hdigit⟩ := Option.bind_eq_some_iff.1 hd
    obtain ⟨r', hr, hget⟩ := h.of_current hb
    exact ⟨b, d, r', hr, hexDigit?_eq_some_iff.1 hdigit, hget, hloop⟩
  · cases hloop

theorem codepointLoop_cons {factor codepoint d : ℕ} {factors : List ℕ} (h : At l (b :: r) buf)
    (hb : HexDigit b d) :
    codepointLoop (factor :: factors) codepoint l =
      codepointLoop factors (codepoint + d <<< factor) l.get := by
  rw [codepointLoop, h.get_cons.1, Option.bind_some, hexDigit?_eq_some_iff.2 hb]

theorem getCodepoint_sound {n : ℕ} (h : At l r buf) (hcode : l.getCodepoint = (some n, l')) :
    ∃ ds r', r = ds ++ r' ∧ Hex4 ds n ∧ At l' r' buf := by
  obtain ⟨b₁, n₁, r₁, rfl, hd₁, h₁, hcode⟩ := codepointLoop_sound h hcode
  obtain ⟨b₂, n₂, r₂, rfl, hd₂, h₂, hcode⟩ := codepointLoop_sound h₁ hcode
  obtain ⟨b₃, n₃, r₃, rfl, hd₃, h₃, hcode⟩ := codepointLoop_sound h₂ hcode
  obtain ⟨b₄, n₄, r₄, rfl, hd₄, h₄, hcode⟩ := codepointLoop_sound h₃ hcode
  cases hcode
  refine ⟨[b₁, b₂, b₃, b₄], r₄, rfl, ?_, h₄⟩
  have hvalue : 0 + n₁ <<< 12 + n₂ <<< 8 + n₃ <<< 4 + n₄ <<< 0 =
      n₁ * 4096 + n₂ * 256 + n₃ * 16 + n₄ := by
    simp only [Nat.shiftLeft_eq]
    omega
  rw [hvalue]
  exact .mk hd₁ hd₂ hd₃ hd₄

theorem getCodepoint_complete {n : ℕ} {ds : List UInt8} (hds : Hex4 ds n)
    (h : At l (ds ++ r) buf) : ∃ l', l.getCodepoint = (some n, l') ∧ At l' r buf := by
  obtain ⟨hd₁, hd₂, hd₃, hd₄⟩ := hds
  have h₁ := h.get_cons.2
  have h₂ := h₁.get_cons.2
  have h₃ := h₂.get_cons.2
  refine ⟨l.get.get.get.get, ?_, h₃.get_cons.2⟩
  rw [getCodepoint, codepointLoop_cons h hd₁, codepointLoop_cons h₁ hd₂,
    codepointLoop_cons h₂ hd₃, codepointLoop_cons h₃ hd₄, codepointLoop]
  simp only [Nat.shiftLeft_eq]
  congr 2
  omega

/-! ### UTF-8 -/

/-- Each byte is in its range. -/
def InRanges (ranges : List (UInt8 × UInt8)) (bs : List UInt8) : Prop :=
  List.Forall₂ (fun range b => range.1.toNat ≤ b.toNat ∧ b.toNat ≤ range.2.toNat) ranges bs

theorem rangeLoop_sound {ranges : List (UInt8 × UInt8)} (h : At l r buf)
    (hloop : rangeLoop ranges l = (true, l')) :
    ∃ bs r', InRanges ranges bs ∧ r = bs ++ r' ∧ At l' r' (buf ++ bs) := by
  induction ranges generalizing l r buf with
  | nil =>
    cases hloop
    exact ⟨[], r, .nil, rfl, (List.append_nil buf).symm ▸ h⟩
  | cons range ranges ih =>
    rw [rangeLoop] at hloop
    split at hloop
    · rename_i b hb
      obtain ⟨r', rfl, hget⟩ := h.of_current hb
      split_ifs at hloop with hrange
      · obtain ⟨bs, r'', hbs, rfl, hat⟩ := ih (hget.add [b]) hloop
        rw [List.append_assoc] at hat
        exact ⟨b :: bs, r'', .cons hrange hbs, rfl, hat⟩
      · cases hloop
    · cases hloop

theorem rangeLoop_complete {ranges : List (UInt8 × UInt8)} (hbs : InRanges ranges bs)
    (h : At l (bs ++ r) buf) :
    ∃ l', rangeLoop ranges l = (true, l') ∧ At l' r (buf ++ bs) := by
  induction hbs generalizing l buf with
  | nil => exact ⟨l, rfl, (List.append_nil buf).symm ▸ h⟩
  | @cons range b ranges bs hrange hbs ih =>
    obtain ⟨hb, hget⟩ := h.get_cons
    obtain ⟨l', hloop, hat⟩ := ih (hget.add [b])
    refine ⟨l', ?_, List.append_assoc buf [b] bs ▸ hat⟩
    rw [rangeLoop, hb]
    simp only
    rw [if_pos (show range.1 ≤ b ∧ b ≤ range.2 from hrange), hloop]

/-- The table of the ranges, by the number of the byte. -/
theorem tailRanges_eq (b : UInt8) : tailRanges b =
    if 0xC2 ≤ b.toNat ∧ b.toNat ≤ 0xDF then some [(0x80, 0xBF)]
    else if b.toNat = 0xE0 then some [(0xA0, 0xBF), (0x80, 0xBF)]
    else if 0xE1 ≤ b.toNat ∧ b.toNat ≤ 0xEC ∨ b.toNat = 0xEE ∨ b.toNat = 0xEF then
      some [(0x80, 0xBF), (0x80, 0xBF)]
    else if b.toNat = 0xED then some [(0x80, 0x9F), (0x80, 0xBF)]
    else if b.toNat = 0xF0 then some [(0x90, 0xBF), (0x80, 0xBF), (0x80, 0xBF)]
    else if 0xF1 ≤ b.toNat ∧ b.toNat ≤ 0xF3 then some [(0x80, 0xBF), (0x80, 0xBF), (0x80, 0xBF)]
    else if b.toNat = 0xF4 then some [(0x80, 0x8F), (0x80, 0xBF), (0x80, 0xBF)]
    else none := by
  unfold tailRanges
  simp only [UInt8.le_iff_toNat_le, ← UInt8.toNat_inj]
  rfl

/-- What the table lets through is the encoding of a character. -/
theorem tailRanges_sound {ranges : List (UInt8 × UInt8)} (hb : tailRanges b = some ranges)
    (h : InRanges ranges bs) : ∃ c, 0x80 ≤ c.toNat ∧ utf8EncodeChar c = b :: bs := by
  rw [tailRanges_eq] at hb
  split_ifs at hb with h₁ h₂ h₃ h₄ h₅ h₆ h₇
  · cases hb
    obtain _ | ⟨⟨hy, hy'⟩, _ | _⟩ := h
    exact Utf8.exists_two h₁ ⟨hy, hy'⟩
  all_goals
    cases hb
  · obtain _ | ⟨⟨hy, hy'⟩, _ | ⟨hz, _ | _⟩⟩ := h
    change 0xA0 ≤ _ at hy
    change _ ≤ 0xBF at hy'
    exact Utf8.exists_three (by omega) ⟨by omega, by omega⟩ hz (by omega) (by omega)
  · obtain _ | ⟨⟨hy, hy'⟩, _ | ⟨hz, _ | _⟩⟩ := h
    exact Utf8.exists_three (by omega) ⟨hy, hy'⟩ hz (by omega) (by omega)
  · obtain _ | ⟨⟨hy, hy'⟩, _ | ⟨hz, _ | _⟩⟩ := h
    change 0x80 ≤ _ at hy
    change _ ≤ 0x9F at hy'
    exact Utf8.exists_three (by omega) ⟨by omega, by omega⟩ hz (by omega) (by omega)
  · obtain _ | ⟨⟨hx, hx'⟩, _ | ⟨hy, _ | ⟨hz, _ | _⟩⟩⟩ := h
    change 0x90 ≤ _ at hx
    change _ ≤ 0xBF at hx'
    exact Utf8.exists_four (by omega) ⟨by omega, by omega⟩ hy hz (by omega) (by omega)
  · obtain _ | ⟨⟨hx, hx'⟩, _ | ⟨hy, _ | ⟨hz, _ | _⟩⟩⟩ := h
    exact Utf8.exists_four (by omega) ⟨hx, hx'⟩ hy hz (by omega) (by omega)
  · obtain _ | ⟨⟨hx, hx'⟩, _ | ⟨hy, _ | ⟨hz, _ | _⟩⟩⟩ := h
    change 0x80 ≤ _ at hx
    change _ ≤ 0x8F at hx'
    exact Utf8.exists_four (by omega) ⟨by omega, by omega⟩ hy hz (by omega) (by omega)

theorem toNat_tail (n : ℕ) : (UInt8.ofNat (n % 64 + 0x80)).toNat = n % 64 + 0x80 :=
  UInt8.toNat_ofNat_of_lt' (show _ < 256 by omega)

/-- The encoding of a character is let through. -/
theorem tailRanges_complete {c : Char} (h : 0x80 ≤ c.toNat) :
    ∃ b bs, utf8EncodeChar c = b :: bs ∧ 0x80 ≤ b.toNat ∧
      ∃ ranges, tailRanges b = some ranges ∧ InRanges ranges bs := by
  have hvalid := Utf8.valid c
  have hz := toNat_tail c.toNat
  have hy := toNat_tail (c.toNat / 64)
  have hx := toNat_tail (c.toNat / 4096)
  by_cases h₂ : c.toNat < 0x800
  · have hb : (UInt8.ofNat (c.toNat / 64 + 0xC0)).toNat = c.toNat / 64 + 0xC0 :=
      UInt8.toNat_ofNat_of_lt' (show _ < 256 by omega)
    refine ⟨_, _, Utf8.encode_two h h₂, by omega, [(0x80, 0xBF)], ?_, .cons ⟨?_, ?_⟩ .nil⟩
    · rw [tailRanges_eq, hb, if_pos (by omega)]
    · change 0x80 ≤ _
      omega
    · change _ ≤ 0xBF
      omega
  by_cases h₃ : c.toNat < 0x10000
  · have hb : (UInt8.ofNat (c.toNat / 4096 + 0xE0)).toNat = c.toNat / 4096 + 0xE0 :=
      UInt8.toNat_ofNat_of_lt' (show _ < 256 by omega)
    refine ⟨_, _, Utf8.encode_three (by omega) h₃, by omega, ?_⟩
    have hz' : 0x80 ≤ (UInt8.ofNat (c.toNat % 64 + 0x80)).toNat ∧
        (UInt8.ofNat (c.toNat % 64 + 0x80)).toNat ≤ 0xBF := by omega
    rw [tailRanges_eq, hb]
    split_ifs with c₁ c₂ c₃ c₄ c₅ c₆ c₇
    · omega
    · exact ⟨_, rfl, .cons ⟨show 0xA0 ≤ _ by omega, show _ ≤ 0xBF by omega⟩ (.cons hz' .nil)⟩
    · exact ⟨_, rfl, .cons ⟨show 0x80 ≤ _ by omega, show _ ≤ 0xBF by omega⟩ (.cons hz' .nil)⟩
    · exact ⟨_, rfl, .cons ⟨show 0x80 ≤ _ by omega, show _ ≤ 0x9F by omega⟩ (.cons hz' .nil)⟩
    all_goals omega
  · have hb : (UInt8.ofNat (c.toNat / 262144 + 0xF0)).toNat = c.toNat / 262144 + 0xF0 :=
      UInt8.toNat_ofNat_of_lt' (show _ < 256 by omega)
    refine ⟨_, _, Utf8.encode_four (by omega), by omega, ?_⟩
    have hz' : 0x80 ≤ (UInt8.ofNat (c.toNat % 64 + 0x80)).toNat ∧
        (UInt8.ofNat (c.toNat % 64 + 0x80)).toNat ≤ 0xBF := by omega
    have hy' : 0x80 ≤ (UInt8.ofNat (c.toNat / 64 % 64 + 0x80)).toNat ∧
        (UInt8.ofNat (c.toNat / 64 % 64 + 0x80)).toNat ≤ 0xBF := by omega
    rw [tailRanges_eq, hb]
    split_ifs with c₁ c₂ c₃ c₄ c₅ c₆ c₇
    · omega
    · omega
    · omega
    · omega
    · exact ⟨_, rfl, .cons ⟨show 0x90 ≤ _ by omega, show _ ≤ 0xBF by omega⟩
        (.cons hy' (.cons hz' .nil))⟩
    · exact ⟨_, rfl, .cons ⟨show 0x80 ≤ _ by omega, show _ ≤ 0xBF by omega⟩
        (.cons hy' (.cons hz' .nil))⟩
    · exact ⟨_, rfl, .cons ⟨show 0x80 ≤ _ by omega, show _ ≤ 0x8F by omega⟩
        (.cons hy' (.cons hz' .nil))⟩
    · omega

/-! ### The characters of a string -/

theorem lookup_escapes_iff {v : UInt8} : escapes.lookup b = some v ↔
    ∃ c, (b, c) ∈ shortForms ∧ utf8EncodeChar c = [v] := by
  constructor
  · intro h
    obtain ⟨before, after, heq, -⟩ := List.lookup_eq_some_iff.1 h
    have hmem : (b, v) ∈ escapes := heq ▸ List.mem_append_right _ List.mem_cons_self
    have htable : escapes = shortForms.map fun p => (p.1, UInt8.ofNat p.2.toNat) := rfl
    rw [htable] at hmem
    obtain ⟨p, hp, hpair⟩ := List.mem_map.1 hmem
    cases hpair
    have hascii : ∀ p ∈ shortForms, p.2.toNat < 0x80 := by decide
    exact ⟨p.2, hp, Utf8.encode_one (hascii p hp)⟩
  · rintro ⟨c, hc, hv⟩
    have htable : ∀ p ∈ shortForms, p.2.toNat < 0x80 ∧
        escapes.lookup p.1 = some (UInt8.ofNat p.2.toNat) := by decide
    obtain ⟨hascii, hlookup⟩ := htable _ hc
    rw [Utf8.encode_one hascii] at hv
    cases hv
    exact hlookup

theorem hex4_le {ds : List UInt8} {n : ℕ} (h : Hex4 ds n) : n ≤ 0xFFFF := by
  obtain ⟨h₁, h₂, h₃, h₄⟩ := h
  unfold HexDigit at h₁ h₂ h₃ h₄
  omega

/-- The code point of two surrogates. -/
theorem surrogates_eq {n₁ n₂ : ℕ} (hhigh : 0xD800 ≤ n₁) (hlow : 0xDC00 ≤ n₂) :
    n₁ <<< 10 + n₂ - 0x35FDC00 = 0x10000 + (n₁ - 0xD800) * 0x400 + (n₂ - 0xDC00) := by
  rw [Nat.shiftLeft_eq]
  omega

theorem lowSurrogate_sound {n₁ : ℕ} (h : At l r buf) (hround : l.lowSurrogate n₁ = .more l') :
    ∃ ds₂ n₂ r', Hex4 ds₂ n₂ ∧ (0xDC00 ≤ n₂ ∧ n₂ ≤ 0xDFFF) ∧ r = 0x5C :: 0x75 :: ds₂ ++ r' ∧
      At l' r' (buf ++ Utf8.codePointBytes (n₁ <<< 10 + n₂ - 0x35FDC00)) := by
  unfold lowSurrogate at hround
  split_ifs at hround with hbackslash hu
  · obtain ⟨r₁, rfl, h₁⟩ := h.of_current hbackslash
    obtain ⟨r₂, rfl, h₂⟩ := h₁.of_current hu
    split at hround
    · cases hround
    · rename_i n₂ l₂ hcode
      obtain ⟨ds₂, r₃, rfl, hds₂, h₃⟩ := getCodepoint_sound h₂ hcode
      split_ifs at hround with hlow
      · cases hround
        exact ⟨ds₂, n₂, r₃, hds₂, hlow, rfl, h₃.add _⟩
      · cases hround
  · cases hround
  · cases hround

theorem unicodeEscape_sound (h : At l r buf) (hround : l.unicodeEscape = .more l') :
    ∃ ds c r', CharText (0x5C :: 0x75 :: ds) c ∧ r = ds ++ r' ∧
      At l' r' (buf ++ utf8EncodeChar c) := by
  unfold unicodeEscape at hround
  split at hround
  · cases hround
  · rename_i n₁ l₁ hcode
    obtain ⟨ds₁, r₁, rfl, hds₁, h₁⟩ := getCodepoint_sound h hcode
    split_ifs at hround with hhigh hlow
    · obtain ⟨ds₂, n₂, r₂, hds₂, hlow, rfl, hat⟩ := lowSurrogate_sound h₁ hround
      obtain ⟨c, hc⟩ := Utf8.exists_char
        (n := 0x10000 + (n₁ - 0xD800) * 0x400 + (n₂ - 0xDC00)) (by omega)
      rw [surrogates_eq hhigh.1 hlow.1, ← hc, Utf8.codePointBytes_eq] at hat
      exact ⟨_, c, r₂, .surrogates hds₁ hds₂ hhigh hlow hc, (List.append_assoc _ _ _).symm, hat⟩
    · cases hround
      have hle := hex4_le hds₁
      obtain ⟨c, rfl⟩ := Utf8.exists_char (n := n₁) (by omega)
      rw [Utf8.codePointBytes_eq]
      exact ⟨ds₁, c, r₁, .number hds₁, rfl, h₁.add _⟩

theorem escape_sound (h : At l r buf) (hround : l.escape = .more l') :
    ∃ bs c r', CharText (0x5C :: bs) c ∧ r = bs ++ r' ∧ At l' r' (buf ++ utf8EncodeChar c) := by
  unfold escape at hround
  split at hround
  · rename_i v hv
    obtain ⟨b, hb, hlookup⟩ := Option.bind_eq_some_iff.1 hv
    obtain ⟨r', rfl, hget⟩ := h.of_current hb
    obtain ⟨c, hc, hbytes⟩ := lookup_escapes_iff.1 hlookup
    cases hround
    exact ⟨[b], c, r', .short hc, rfl, hbytes ▸ hget.add _⟩
  · split_ifs at hround with hu
    · obtain ⟨r₁, rfl, h₁⟩ := h.of_current hu
      obtain ⟨ds, c, r', hc, rfl, hat⟩ := unicodeEscape_sound h₁ hround
      exact ⟨0x75 :: ds, c, r', hc, rfl, hat⟩

/-- A round that goes on has read the spelling of a character. -/
theorem stringRound_sound (h : At l r buf) (hround : l.stringRound = .more l') :
    ∃ bs c r', CharText bs c ∧ r = bs ++ r' ∧ At l' r' (buf ++ utf8EncodeChar c) := by
  unfold stringRound at hround
  split at hround
  · cases hround
  rename_i b hb
  obtain ⟨r₁, rfl, h₁⟩ := h.of_current hb
  split_ifs at hround with hquote hbackslash hcontrol hascii
  · obtain ⟨bs, c, r', hc, rfl, hat⟩ := escape_sound h₁ hround
    exact ⟨b :: bs, c, r', hbackslash ▸ hc, rfl, hat⟩
  · cases hround
    have hlow : ¬ b.toNat ≤ 0x1F := hcontrol
    have hhigh : b.toNat ≤ 0x7F := hascii
    obtain ⟨c, hc⟩ := Utf8.exists_char (n := b.toNat) (by omega)
    have hbytes : utf8EncodeChar c = [b] := by
      rw [Utf8.encode_one (by omega), Utf8.ofNat_eq hc]
    refine ⟨[b], c, r₁, hbytes ▸ .plain (by omega) ?_ ?_, rfl, hbytes ▸ h₁.add _⟩
    · rintro rfl
      exact hquote (UInt8.toNat_inj.1 hc.symm)
    · rintro rfl
      exact hbackslash (UInt8.toNat_inj.1 hc.symm)
  · split at hround
    · cases hround
    · rename_i ranges hranges
      split at hround
      · rename_i l₂ hloop
        cases hround
        have hadd := h₁.add l.get.current.toList
        rw [hb] at hadd
        unfold nextByteInRange at hloop
        rw [hb] at hloop
        obtain ⟨bs, r', hbs, rfl, hat⟩ := rangeLoop_sound hadd hloop
        obtain ⟨c, hc, hbytes⟩ := tailRanges_sound hranges hbs
        refine ⟨b :: bs, c, r', hbytes ▸ .plain (by omega) ?_ ?_, rfl, ?_⟩
        · rintro rfl
          exact absurd hc (by decide)
        · rintro rfl
          exact absurd hc (by decide)
        · rw [hbytes, ← List.singleton_append, ← List.append_assoc]
          exact hat
      · cases hround

theorem stringRound_backslash (h : At l (0x5C :: r) buf) : l.stringRound = l.get.escape := by
  rw [stringRound, h.get_cons.1]
  rfl

theorem escape_u (h : At l (0x75 :: r) buf) : l.escape = l.get.unicodeEscape := by
  rw [escape, h.get_cons.1]
  rfl

theorem stringRound_ascii {c : Char} (hlow : 0x20 ≤ c.toNat) (hhigh : c.toNat < 0x80)
    (hquote : c ≠ '"') (hbackslash : c ≠ '\\') (h : At l (UInt8.ofNat c.toNat :: r) buf) :
    l.stringRound = .more (l.get.add [UInt8.ofNat c.toNat]) := by
  have hb : (UInt8.ofNat c.toNat).toNat = c.toNat :=
    UInt8.toNat_ofNat_of_lt' (show _ < 256 by omega)
  have hne {d : Char} (hd : c ≠ d) (hd' : d.toNat < 0x80) :
      ¬ UInt8.ofNat c.toNat = UInt8.ofNat d.toNat := fun heq => by
    have hd'' : (UInt8.ofNat d.toNat).toNat = d.toNat :=
      UInt8.toNat_ofNat_of_lt' (show _ < 256 by omega)
    exact hd (Char.toNat_inj.1 (hb.symm.trans ((congrArg UInt8.toNat heq).trans hd'')))
  have hcontrol : ¬ UInt8.ofNat c.toNat ≤ 0x1F := by
    show ¬ (UInt8.ofNat c.toNat).toNat ≤ 0x1F
    omega
  have hascii : UInt8.ofNat c.toNat ≤ 0x7F := by
    show (UInt8.ofNat c.toNat).toNat ≤ 0x7F
    omega
  have hquote' : ¬ UInt8.ofNat c.toNat = 0x22 := hne hquote (by decide)
  have hbackslash' : ¬ UInt8.ofNat c.toNat = 0x5C := hne hbackslash (by decide)
  rw [stringRound, h.get_cons.1]
  simp only
  rw [if_neg hquote', if_neg hbackslash', if_neg hcontrol, if_pos hascii]

theorem stringRound_tails {ranges : List (UInt8 × UInt8)} (hb : 0x80 ≤ b.toNat)
    (hranges : tailRanges b = some ranges) (hbs : InRanges ranges bs)
    (h : At l (b :: (bs ++ r)) buf) :
    ∃ l', l.stringRound = .more l' ∧ At l' r (buf ++ b :: bs) := by
  obtain ⟨hcurrent, hget⟩ := h.get_cons
  obtain ⟨l', hloop, hat⟩ := rangeLoop_complete hbs (hget.add [b])
  have hle {d : UInt8} (hd : d.toNat < 0x80) : ¬ b ≤ d := fun hle => by
    rw [UInt8.le_iff_toNat_le] at hle
    omega
  have hne {d : UInt8} (hd : d.toNat < 0x80) : ¬ b = d := fun heq =>
    hle hd (heq ▸ UInt8.le_refl _)
  rw [stringRound, hcurrent]
  simp only
  rw [if_neg (hne (by decide)), if_neg (hne (by decide)), if_neg (hle (by decide)),
    if_neg (hle (by decide)), hranges]
  simp only
  rw [nextByteInRange, hcurrent, Option.toList_some, hloop]
  rw [List.append_assoc] at hat
  exact ⟨l', rfl, hat⟩

theorem lowSurrogate_complete {n₁ n₂ : ℕ} {ds₂ : List UInt8} (h₂ : Hex4 ds₂ n₂)
    (hlow : 0xDC00 ≤ n₂ ∧ n₂ ≤ 0xDFFF) (h : At l (0x5C :: 0x75 :: (ds₂ ++ r)) buf) :
    ∃ l', l.lowSurrogate n₁ = .more l' ∧
      At l' r (buf ++ Utf8.codePointBytes (n₁ <<< 10 + n₂ - 0x35FDC00)) := by
  obtain ⟨hbackslash, hget⟩ := h.get_cons
  obtain ⟨hu, hget'⟩ := hget.get_cons
  obtain ⟨l', hcode, hat⟩ := getCodepoint_complete h₂ hget'
  refine ⟨_, ?_, hat.add _⟩
  rw [lowSurrogate, if_pos hbackslash, if_pos hu, hcode]
  simp only
  rw [if_pos hlow]

/-- The spelling of a character is read in one round. -/
theorem stringRound_complete {c : Char} (hc : CharText bs c) (h : At l (bs ++ r) buf) :
    ∃ l', l.stringRound = .more l' ∧ At l' r (buf ++ utf8EncodeChar c) := by
  cases hc with
  | plain hspace hquote hbackslash =>
    by_cases hascii : c.toNat < 0x80
    · rw [Utf8.encode_one hascii] at h ⊢
      exact ⟨_, stringRound_ascii hspace hascii hquote hbackslash h, h.get_cons.2.add _⟩
    · obtain ⟨b, bs, hbytes, hb, ranges, hranges, hbs⟩ := tailRanges_complete (c := c) (by omega)
      rw [hbytes] at h ⊢
      exact stringRound_tails hb hranges hbs h
  | @short b _ hmem =>
    have hascii : ∀ p ∈ shortForms, p.2.toNat < 0x80 := by decide
    have hbytes := Utf8.encode_one (hascii _ hmem)
    obtain ⟨hcurrent, hget⟩ := h.get_cons.2.get_cons
    rw [stringRound_backslash h, escape, hcurrent, Option.bind_some,
      lookup_escapes_iff.2 ⟨c, hmem, hbytes⟩, hbytes]
    exact ⟨_, rfl, hget.add _⟩
  | number hds =>
    have hvalid := Utf8.valid c
    obtain ⟨l', hcode, hat⟩ := getCodepoint_complete hds h.get_cons.2.get_cons.2
    rw [stringRound_backslash h, escape_u h.get_cons.2, unicodeEscape, hcode]
    simp only
    rw [if_neg (by omega), if_neg (by omega), Utf8.codePointBytes_eq]
    exact ⟨_, rfl, hat.add _⟩
  | surrogates h₁ h₂ hhigh hlow hc =>
    simp only [List.cons_append, List.append_assoc] at h
    obtain ⟨l₁, hcode, hat₁⟩ := getCodepoint_complete h₁ h.get_cons.2.get_cons.2
    obtain ⟨l', hround, hat⟩ := lowSurrogate_complete h₂ hlow hat₁
    rw [stringRound_backslash h, escape_u h.get_cons.2, unicodeEscape, hcode]
    simp only
    rw [if_pos hhigh]
    rw [surrogates_eq hhigh.1 hlow.1, ← hc, Utf8.codePointBytes_eq] at hat
    exact ⟨l', hround, hat⟩

theorem lowSurrogate_ne_closed {n₁ : ℕ} : l.lowSurrogate n₁ ≠ .stop true l' := by
  intro hround
  unfold lowSurrogate noHexDigits noLowSurrogate at hround
  split_ifs at hround
  · split at hround
    · cases hround
    · split_ifs at hround
      cases hround
  · cases hround
  · cases hround

theorem escape_ne_closed : l.escape ≠ .stop true l' := by
  intro hround
  unfold escape unicodeEscape noHexDigits at hround
  split at hround
  · cases hround
  split_ifs at hround
  · split at hround
    · cases hround
    · split_ifs at hround
      · exact lowSurrogate_ne_closed hround
      · cases hround
  · cases hround

/-- The loop ends without an error at a closing quote. -/
theorem stringRound_closed_iff (h : At l r buf) :
    l.stringRound = .stop true l' ↔ ∃ r', r = 0x22 :: r' ∧ l' = l.get := by
  constructor
  · intro hround
    unfold stringRound at hround
    split at hround
    · cases hround
    rename_i b hb
    obtain ⟨r', rfl, -⟩ := h.of_current hb
    split_ifs at hround with hquote
    · cases hround
      exact ⟨r', hquote ▸ rfl, rfl⟩
    · exact absurd hround escape_ne_closed
    · cases hround
    · split at hround
      · cases hround
      · split at hround <;> cases hround
  · rintro ⟨r', rfl, rfl⟩
    rw [stringRound, h.get_cons.1]
    rfl

/-! ### Strings -/

theorem charText_ne_nil {c : Char} (h : CharText bs c) : bs ≠ [] := by
  cases h with
  | plain => exact fun hnil => absurd (String.length_utf8EncodeChar c) (by
      rw [hnil]
      exact (Char.utf8Size_pos c).ne)
  | short => exact List.cons_ne_nil _ _
  | number => exact List.cons_ne_nil _ _
  | surrogates => exact List.cons_ne_nil _ _

/-- What the loop accepts is the spelling of the characters that it puts into the buffer. -/
theorem stringLoop_sound {rounds : ℕ} (h : At l r buf)
    (hloop : stringLoop rounds l = some (true, l')) :
    ∃ bs cs r', CharsText bs cs ∧ r = bs ++ 0x22 :: r' ∧
      At l' r' (buf ++ cs.flatMap utf8EncodeChar) := by
  induction rounds generalizing l r buf with
  | zero => cases hloop
  | succ rounds ih =>
    rw [stringLoop] at hloop
    split at hloop
    · rename_i l₁ hround
      obtain ⟨bs₁, c, r₁, hc, rfl, hat⟩ := stringRound_sound h hround
      obtain ⟨bs, cs, r', hcs, rfl, hat'⟩ := ih hat hloop
      refine ⟨bs₁ ++ bs, c :: cs, r', .cons hc hcs, (List.append_assoc _ _ _).symm, ?_⟩
      rw [List.flatMap_cons, ← List.append_assoc]
      exact hat'
    · rename_i closed l₁ hround
      cases hloop
      obtain ⟨r', rfl, rfl⟩ := (stringRound_closed_iff h).1 hround
      refine ⟨[], [], r', .nil, rfl, ?_⟩
      rw [List.flatMap_nil, List.append_nil]
      exact h.get_cons.2

theorem stringLoop_complete {rounds : ℕ} {cs : List Char} (hcs : CharsText bs cs)
    (h : At l (bs ++ 0x22 :: r) buf) (hrounds : bs.length < rounds) :
    ∃ l', stringLoop rounds l = some (true, l') ∧ At l' r (buf ++ cs.flatMap utf8EncodeChar) := by
  induction hcs generalizing l buf rounds with
  | nil =>
    obtain ⟨rounds, rfl⟩ := Nat.exists_eq_succ_of_ne_zero (Nat.ne_zero_of_lt hrounds)
    rw [stringLoop, (stringRound_closed_iff h).2 ⟨r, rfl, rfl⟩, List.flatMap_nil, List.append_nil]
    exact ⟨_, rfl, h.get_cons.2⟩
  | @cons bs bs' c cs hc hcs ih =>
    obtain ⟨rounds, rfl⟩ := Nat.exists_eq_succ_of_ne_zero (Nat.ne_zero_of_lt hrounds)
    have hpos := List.length_pos_of_ne_nil (charText_ne_nil hc)
    rw [List.length_append] at hrounds
    rw [List.append_assoc] at h
    obtain ⟨l₁, hround, hat⟩ := stringRound_complete hc h
    rw [stringLoop, hround, List.flatMap_cons, ← List.append_assoc]
    exact ih hat (by omega)

/-- With a round for each byte and one more the loop ends. -/
theorem stringLoop_ends {rounds : ℕ} (h : At l r buf) (hrounds : r.length < rounds) :
    ∃ closed l', stringLoop rounds l = some (closed, l') := by
  induction rounds generalizing l r buf with
  | zero => exact absurd hrounds (Nat.not_lt_zero _)
  | succ rounds ih =>
    rw [stringLoop]
    cases hround : l.stringRound with
    | stop closed l₁ => exact ⟨closed, l₁, rfl⟩
    | more l₁ =>
      obtain ⟨bs, c, r', hc, rfl, hat⟩ := stringRound_sound h hround
      have hpos := List.length_pos_of_ne_nil (charText_ne_nil hc)
      rw [List.length_append] at hrounds
      exact ih hat (by omega)

theorem text?_utf8 (cs : List Char) : text? (cs.flatMap utf8EncodeChar) = some (.ofList cs) :=
  dif_pos (⟨cs, rfl⟩ : ByteArray.IsValidUTF8 (cs.flatMap utf8EncodeChar).toByteArray)

theorem scanString_complete {cs : List Char} (hcs : CharsText bs cs)
    (h : At l (bs ++ 0x22 :: r) buf) :
    ∃ l' buf', l.scanString = some (.valueString (.ofList cs), l') ∧ At l' r buf' := by
  have hlen : bs.length ≤ (bs ++ 0x22 :: r).length := by simp
  obtain ⟨l', hloop, hat⟩ := stringLoop_complete hcs h.reset (hlen.trans_lt h.reset.lt_rounds)
  refine ⟨l', _, ?_, hat⟩
  rw [scanString, hloop]
  simp only
  rw [hat.buffer, List.nil_append, text?_utf8]
  rfl

/-- What `scan_string` makes of the end of the loop. -/
theorem scanString_cases {t : Token} (h : l.scanString = some (t, l')) :
    ∃ closed, stringLoop l.reset.rounds l.reset = some (closed, l') ∧
      (if closed then (text? l'.tokenBuffer).map Token.valueString else some .parseError) =
        some t := by
  unfold scanString at h
  split at h
  · cases h
  · rename_i hloop
    cases h
    exact ⟨false, hloop, rfl⟩
  · rename_i l₁ hloop
    obtain ⟨s, hs, heq⟩ := Option.map_eq_some_iff.1 h
    cases heq
    exact ⟨true, hloop, by rw [if_pos rfl, hs, Option.map_some]⟩

theorem scanString_sound {t : Token} (h : At l r buf) (hscan : l.scanString = some (t, l'))
    (ht : t ≠ .parseError) :
    ∃ bs cs r' buf', CharsText bs cs ∧ r = bs ++ 0x22 :: r' ∧ t = .valueString (.ofList cs) ∧
      At l' r' buf' := by
  obtain ⟨closed, hloop, htoken⟩ := scanString_cases hscan
  cases closed with
  | false => exact absurd (Option.some.inj htoken).symm ht
  | true =>
    obtain ⟨bs, cs, r', hcs, rfl, hat⟩ := stringLoop_sound h.reset hloop
    rw [if_pos rfl, hat.buffer, List.nil_append, text?_utf8] at htoken
    exact ⟨bs, cs, r', _, hcs, rfl, (Option.some.inj htoken).symm, hat⟩

end JsonLexer

end UltraMds
