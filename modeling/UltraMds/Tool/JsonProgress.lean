import UltraMds.Tool.JsonStrings

/-!
# The lexer goes forward

No scanner goes back behind where it began: it leaves no more bytes than there were, and the
position does not go down.
-/

namespace UltraMds

namespace JsonLexer

variable {strtod : List UInt8 → Double} {l l' : JsonLexer} {q : NumberState} {t : TokenType}

/-- Between `l` and `l'` the lexer has not gone back. -/
structure Forward (l l' : JsonLexer) : Prop where
  rest : ∀ r buf, At l r buf → ∃ r' buf', At l' r' buf' ∧ r'.length ≤ r.length
  total : l.position.charsReadTotal ≤ l'.position.charsReadTotal

namespace Forward

theorem refl (l : JsonLexer) : Forward l l := ⟨fun r buf h => ⟨r, buf, h, le_rfl⟩, le_rfl⟩

theorem trans {l₁ l₂ l₃ : JsonLexer} (h : Forward l₁ l₂) (h' : Forward l₂ l₃) : Forward l₁ l₃ := by
  refine ⟨fun r buf hat => ?_, h.total.trans h'.total⟩
  obtain ⟨r₂, buf₂, hat₂, hle⟩ := h.rest r buf hat
  obtain ⟨r₃, buf₃, hat₃, hle'⟩ := h'.rest r₂ buf₂ hat₂
  exact ⟨r₃, buf₃, hat₃, hle'.trans hle⟩

theorem total_get (l : JsonLexer) :
    l.get.position.charsReadTotal = l.position.charsReadTotal + 1 := by
  unfold JsonLexer.get
  simp only
  split_ifs <;> rfl

theorem get (l : JsonLexer) : Forward l l.get :=
  ⟨fun r buf h => ⟨r.tail, buf, h.get, by simp⟩, (total_get l).symm ▸ Nat.le_succ _⟩

theorem unget (l : JsonLexer) : Forward l l.get.unget := by
  refine ⟨fun r buf h => ⟨r, buf, h.unget, le_rfl⟩, ?_⟩
  have htotal := total_get l
  unfold JsonLexer.unget
  simp only
  split_ifs <;> simp only <;> omega

theorem add (l : JsonLexer) (bs : List UInt8) : Forward l (l.add bs) :=
  ⟨fun r _ h => ⟨r, _, h.add bs, le_rfl⟩, le_rfl⟩

theorem fail (l : JsonLexer) (text : String) : Forward l (l.fail text) :=
  ⟨fun r _ h => ⟨r, _, h.fail text, le_rfl⟩, le_rfl⟩

theorem reset (l : JsonLexer) : Forward l l.reset :=
  ⟨fun r _ h => ⟨r, _, h.reset, le_rfl⟩, le_rfl⟩

end Forward

/-- The lexer after a round. -/
def Round.lexer : Round → JsonLexer
  | .more l => l
  | .stop _ l => l

theorem forward_codepointLoop (factors : List ℕ) (codepoint : ℕ) (l : JsonLexer) :
    Forward l (codepointLoop factors codepoint l).2 := by
  induction factors generalizing codepoint l with
  | nil => exact .refl l
  | cons factor factors ih =>
    rw [codepointLoop]
    split
    · exact (Forward.get l).trans (ih _ _)
    · exact .get l

theorem forward_rangeLoop (ranges : List (UInt8 × UInt8)) (l : JsonLexer) :
    Forward l (rangeLoop ranges l).2 := by
  induction ranges generalizing l with
  | nil => exact .refl l
  | cons range ranges ih =>
    rw [rangeLoop]
    split
    · split_ifs
      · exact ((Forward.get l).trans (.add _ _)).trans (ih _)
      · exact (Forward.get l).trans (.fail _ _)
    · exact (Forward.get l).trans (.fail _ _)

theorem forward_getCodepoint {o : Option ℕ} (h : l.getCodepoint = (o, l')) : Forward l l' := by
  have hforward := forward_codepointLoop [12, 8, 4, 0] 0 l
  rw [← getCodepoint, h] at hforward
  exact hforward

theorem forward_lowSurrogate (n : ℕ) (l : JsonLexer) : Forward l (l.lowSurrogate n).lexer := by
  unfold lowSurrogate
  split_ifs
  · have hget := (Forward.get l).trans (.get l.get)
    split
    · rename_i hcode
      exact (hget.trans (forward_getCodepoint hcode)).trans (.fail _ _)
    · rename_i hcode
      have hcode := hget.trans (forward_getCodepoint hcode)
      split_ifs
      · exact hcode.trans (.add _ _)
      · exact hcode.trans (.fail _ _)
  · exact ((Forward.get l).trans (.get _)).trans (.fail _ _)
  · exact (Forward.get l).trans (.fail _ _)

theorem forward_unicodeEscape (l : JsonLexer) : Forward l l.unicodeEscape.lexer := by
  unfold unicodeEscape
  split
  · rename_i hcode
    exact (forward_getCodepoint hcode).trans (.fail _ _)
  · rename_i hcode
    have hcode := forward_getCodepoint hcode
    split_ifs
    · exact hcode.trans (forward_lowSurrogate _ _)
    · exact hcode.trans (.fail _ _)
    · exact hcode.trans (.add _ _)

theorem forward_escape (l : JsonLexer) : Forward l l.escape.lexer := by
  unfold escape
  split
  · exact (Forward.get l).trans (.add _ _)
  · split_ifs
    · exact (Forward.get l).trans (forward_unicodeEscape _)
    · exact (Forward.get l).trans (.fail _ _)

theorem forward_stringRound (l : JsonLexer) : Forward l l.stringRound.lexer := by
  have hget := Forward.get l
  unfold stringRound
  split
  · exact hget.trans (.fail _ _)
  split_ifs
  · exact hget
  · exact hget.trans (forward_escape _)
  · exact hget.trans (.fail _ _)
  · exact hget.trans (.add _ _)
  · split
    · exact hget.trans (.fail _ _)
    · rename_i ranges _
      have hrange := forward_rangeLoop ranges (l.get.add l.get.current.toList)
      have hnext := (hget.trans (.add _ _)).trans hrange
      rw [← nextByteInRange] at hnext
      split
      · rename_i hloop
        rw [hloop] at hnext
        exact hnext
      · rename_i hloop
        rw [hloop] at hnext
        exact hnext

theorem forward_stringLoop {rounds : ℕ} {closed : Bool}
    (h : stringLoop rounds l = some (closed, l')) : Forward l l' := by
  induction rounds generalizing l with
  | zero => cases h
  | succ rounds ih =>
    have hround := forward_stringRound l
    rw [stringLoop] at h
    split at h
    · rename_i l₁ heq
      rw [heq] at hround
      exact hround.trans (ih h)
    · rename_i closed l₁ heq
      cases h
      rw [heq] at hround
      exact hround

theorem forward_scanString {token : Token} (h : l.scanString = some (token, l')) :
    Forward l l' := by
  obtain ⟨closed, hloop, -⟩ := scanString_cases h
  exact (Forward.reset l).trans (forward_stringLoop hloop)

theorem forward_numberLoop {rounds : ℕ} {token : Token}
    (h : numberLoop strtod rounds q t l = some (token, l')) : Forward l l' := by
  induction rounds generalizing q t l with
  | zero => cases h
  | succ rounds ih =>
    rw [numberLoop] at h
    split at h
    · exact ((Forward.get l).trans (.add _ _)).trans (ih h)
    · cases h
      exact .unget l
    · cases h
      exact (Forward.get l).trans (.fail _ _)

theorem forward_scanNumber {token : Token} (h : l.scanNumber strtod = some (token, l')) :
    Forward l l' := by
  obtain ⟨q, -, hloop⟩ := Option.bind_eq_some_iff.1 h
  exact ((Forward.reset l).trans (.add _ _)).trans (forward_numberLoop hloop)

theorem forward_scanLiteral (token : Token) (text : List UInt8) (l : JsonLexer) :
    Forward l (scanLiteral token text l).2 := by
  induction text generalizing l with
  | nil => exact .refl l
  | cons b text ih =>
    rw [scanLiteral]
    split_ifs
    · exact (Forward.get l).trans (ih _)
    · exact (Forward.get l).trans (.fail _ _)

theorem forward_scanToken {token : Token} (h : l.scanToken strtod = some (token, l')) :
    Forward l l' := by
  unfold scanToken at h
  split at h
  · cases h
    exact .refl l
  split at h
  · cases h
    exact .refl l
  · rename_i text token' _ _
    have hliteral := forward_scanLiteral token' text l
    rw [Option.some.inj h] at hliteral
    exact hliteral
  · split_ifs at h
    · exact forward_scanString h
    · exact forward_scanNumber h
    · cases h
      exact .refl l
    · cases h
      exact .fail l _

theorem forward_skipBom (l : JsonLexer) : Forward l l.skipBom.2 := by
  unfold skipBom
  split_ifs
  · exact ((Forward.get l).trans (.get _)).trans (.get _)
  · exact (Forward.get l).trans (.get _)
  · exact .unget l

end JsonLexer

end UltraMds
