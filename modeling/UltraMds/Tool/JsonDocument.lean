import UltraMds.Tool.JsonNumbers
import UltraMds.Tool.JsonProgress
import UltraMds.Tool.JsonRefinement

/-!
# JSON from bytes

The calls of `scan()` over a whole file, and the parser on top of them: `json::parse` returns a
value exactly for the documents, and the value of the document (`parse_document`).
-/

namespace UltraMds

namespace JsonLexer

open JsonText

variable {strtod : List UInt8 → Double} {l l' : JsonLexer} {r r' buf bs ws : List UInt8} {b : UInt8}
  {t : Token} {ts : List Token}

/-! ### White space and literals -/

theorem isSpace_iff : isSpace b = true ↔ b ∈ ([0x20, 0x09, 0x0A, 0x0D] : List UInt8) := by
  simp [isSpace, or_assoc]

theorem skipWhitespace_eq {rounds : ℕ} (hspace : Space ws) (hr : ∀ b ∈ r.head?, isSpace b = false)
    (h : At l (ws ++ r) buf) (hrounds : ws.length < rounds) :
    ∃ l', skipWhitespace rounds l = some l' ∧ l'.current = r.head? ∧ At l' r.tail buf := by
  induction ws generalizing l rounds with
  | nil =>
    obtain ⟨rounds, rfl⟩ := Nat.exists_eq_succ_of_ne_zero (Nat.ne_zero_of_lt hrounds)
    have hstop : ¬ l.get.current.any isSpace = true := by
      rw [h.current]
      cases hhead : ([] ++ r).head? with
      | none => simp
      | some b => simpa using hr b hhead
    exact ⟨l.get, if_neg hstop, h.current, h.get⟩
  | cons b ws ih =>
    obtain ⟨rounds, rfl⟩ := Nat.exists_eq_succ_of_ne_zero (Nat.ne_zero_of_lt hrounds)
    obtain ⟨hcurrent, hget⟩ := h.get_cons
    obtain ⟨hb, hspace⟩ := List.forall_mem_cons.1 hspace
    obtain ⟨l', hskip, hl'⟩ := ih hspace hget (Nat.lt_of_succ_lt_succ hrounds)
    refine ⟨l', ?_, hl'⟩
    rw [skipWhitespace, hcurrent, Option.any_some, if_pos (isSpace_iff.2 hb), hskip]

/-- The white space at the beginning of a text. -/
theorem exists_space (r : List UInt8) :
    ∃ ws r', r = ws ++ r' ∧ Space ws ∧ ∀ b ∈ r'.head?, isSpace b = false := by
  refine ⟨r.takeWhile isSpace, r.dropWhile isSpace, List.takeWhile_append_dropWhile.symm,
    fun b hb => isSpace_iff.1 (List.mem_takeWhile_imp hb), fun b hb => ?_⟩
  have hhead := List.head?_dropWhile_not isSpace r
  rw [Option.mem_def.1 hb] at hhead
  exact hhead

theorem scanLiteral_complete {text : List UInt8} (h : At l (text ++ r) buf) :
    ∃ l', scanLiteral t text l = (t, l') ∧ At l' r buf := by
  induction text generalizing l with
  | nil => exact ⟨l, rfl, h⟩
  | cons b text ih =>
    obtain ⟨hcurrent, hget⟩ := h.get_cons
    obtain ⟨l', hscan, hat⟩ := ih hget
    exact ⟨l', by rw [scanLiteral, if_pos hcurrent, hscan], hat⟩

theorem scanLiteral_sound {text : List UInt8} {token : Token} (h : At l r buf)
    (hscan : scanLiteral t text l = (token, l')) (htoken : token ≠ .parseError) :
    ∃ r', r = text ++ r' ∧ token = t ∧ At l' r' buf := by
  induction text generalizing l r with
  | nil =>
    cases hscan
    exact ⟨r, rfl, rfl, h⟩
  | cons b text ih =>
    rw [scanLiteral] at hscan
    split_ifs at hscan with hb
    · obtain ⟨r₁, rfl, hget⟩ := h.of_current hb
      obtain ⟨r', rfl, htok, hat⟩ := ih hget hscan
      exact ⟨r', rfl, htok, hat⟩
    · cases hscan
      exact absurd rfl htoken

/-! ### Tokens -/

/-- A token whose spelling ends only where another token or white space begins. -/
def isNumber : Token → Bool
  | .valueUnsigned _ | .valueInteger _ | .valueFloat _ => true
  | _ => false

/-- What may follow a number in a text. -/
def isDelimiter : Token → Bool
  | .valueSeparator | .endArray | .endObject => true
  | _ => false

theorem structural_spells (h : structural.lookup b = some t) : Spells strtod [b] t := by
  obtain ⟨before, after, heq, -⟩ := List.lookup_eq_some_iff.1 h
  have hmem : (b, t) ∈ structural := heq ▸ List.mem_append_right _ List.mem_cons_self
  simp only [structural, List.mem_cons, Prod.mk.injEq, List.not_mem_nil, or_false] at hmem
  rcases hmem with ⟨rfl, rfl⟩ | ⟨rfl, rfl⟩ | ⟨rfl, rfl⟩ | ⟨rfl, rfl⟩ | ⟨rfl, rfl⟩ | ⟨rfl, rfl⟩
  · exact .beginArray
  · exact .endArray
  · exact .beginObject
  · exact .endObject
  · exact .nameSeparator
  · exact .valueSeparator

theorem literals_spells {text : List UInt8} (h : literals.lookup b = some (text, t)) :
    Spells strtod (b :: text) t := by
  obtain ⟨before, after, heq, -⟩ := List.lookup_eq_some_iff.1 h
  have hmem : (b, text, t) ∈ literals := heq ▸ List.mem_append_right _ List.mem_cons_self
  simp only [literals, List.mem_cons, Prod.mk.injEq, List.not_mem_nil, or_false] at hmem
  rcases hmem with ⟨rfl, rfl, rfl⟩ | ⟨rfl, rfl, rfl⟩ | ⟨rfl, rfl, rfl⟩
  · exact .literalTrue
  · exact .literalFalse
  · exact .literalNull

/-- What `switch (current)` accepts is spelled as it should be. -/
theorem scanToken_sound (hcurrent : l.current = r.head?) (h : At l r.tail buf)
    (hscan : l.scanToken strtod = some (t, l')) (ht : t ≠ .parseError) :
    (t = .endOfInput ∧ AfterText r) ∨
      ∃ bs r' buf', Spells strtod bs t ∧ r = bs ++ r' ∧ At l' r' buf' := by
  cases r with
  | nil =>
    rw [scanToken, hcurrent] at hscan
    cases hscan
    exact .inl ⟨rfl, .inl rfl⟩
  | cons b r =>
    have h : At l r buf := h
    rw [scanToken, hcurrent] at hscan
    simp only [List.head?_cons] at hscan
    split at hscan
    · rename_i hstructural
      cases hscan
      exact .inr ⟨[b], r, buf, structural_spells hstructural, rfl, h⟩
    · rename_i text t' _ hliteral
      obtain ⟨r', rfl, rfl, hat⟩ := scanLiteral_sound h (Option.some.inj hscan) ht
      exact .inr ⟨b :: text, r', buf, literals_spells hliteral, rfl, hat⟩
    · split_ifs at hscan with hquote hnumber hnul
      · obtain ⟨bs, cs, r', buf', hcs, rfl, rfl, hat⟩ := scanString_sound h hscan ht
        subst hquote
        exact .inr ⟨0x22 :: bs ++ [0x22], r', buf', .string hcs, by simp, hat⟩
      · obtain ⟨negative, int, f, e, r', buf', hint, hf, he, hbytes, rfl, hat⟩ :=
          scanNumber_sound hcurrent h hscan ht
        refine .inr ⟨_, r', buf', .number negative hint hf he, ?_, hat⟩
        simpa only [List.append_assoc] using hbytes
      · cases hscan
        exact .inl ⟨rfl, .inr ⟨r, congrArg (· :: r) hnul⟩⟩
      · cases hscan
        exact absurd rfl ht

theorem scanToken_number (hcurrent : l.current = some b) (hb : b = 0x2D ∨ isDigit b = true) :
    l.scanToken strtod = l.scanNumber strtod := by
  have htables : structural.lookup b = none ∧ literals.lookup b = none ∧ b ≠ 0x22 := by
    rcases hb with rfl | hdigit
    · decide
    · have hne (a : UInt8) (ha : isDigit a = false) : b ≠ a := fun hba => by
        rw [← hba, hdigit] at ha
        cases ha
      have hstructural : ∀ p ∈ structural, isDigit p.1 = false := by decide
      have hliterals : ∀ p ∈ literals, isDigit p.1 = false := by decide
      exact ⟨List.lookup_eq_none_iff.2 fun p hp => bne_iff_ne.2 (hne _ (hstructural p hp)),
        List.lookup_eq_none_iff.2 fun p hp => bne_iff_ne.2 (hne _ (hliterals p hp)), hne _ rfl⟩
  rw [scanToken, hcurrent]
  simp only [htables.1, htables.2.1, if_neg htables.2.2, if_pos hb]

theorem scanToken_literal {text : List UInt8} (hcurrent : l.current = some b)
    (hstructural : structural.lookup b = none) (hliteral : literals.lookup b = some (text, t))
    (h : At l (text ++ r) buf) : ∃ l' buf', l.scanToken strtod = some (t, l') ∧ At l' r buf' := by
  obtain ⟨l', hscan, hat⟩ := scanLiteral_complete (t := t) h
  refine ⟨l', buf, ?_, hat⟩
  rw [scanToken, hcurrent]
  simp only [hstructural, hliteral, hscan]

variable (strtod) in
theorem isNumber_numberToken (negative : Bool) (int f e : List UInt8) :
    isNumber (numberToken strtod negative int f e) = true := by
  unfold numberToken
  simp only
  split_ifs <;> rfl

theorem intPart_digit {int : List UInt8} (h : IntPart int) :
    ∃ d ds, int = d :: ds ∧ isDigit d = true := by
  cases h with
  | zero => exact ⟨_, _, rfl, rfl⟩
  | digits hd hds => exact ⟨_, _, rfl, isDigit_iff.2 ⟨by omega, hd.2⟩⟩

/-- A token is accepted as it is spelled, a number only if something else follows it. -/
theorem scanToken_complete (hbs : Spells strtod (b :: bs) t) (hcurrent : l.current = some b)
    (h : At l (bs ++ r) buf) (hsep : isNumber t = true → Separates r.head?) :
    ∃ l' buf', l.scanToken strtod = some (t, l') ∧ At l' r buf' := by
  generalize hall : b :: bs = all at hbs
  cases hbs with
  | @string bs' cs hcs =>
    obtain ⟨rfl, rfl⟩ := List.cons.inj hall
    have h : At l (bs' ++ [0x22] ++ r) buf := h
    rw [List.append_assoc] at h
    obtain ⟨l', buf', hscan, hat⟩ := scanString_complete hcs h
    refine ⟨l', buf', ?_, hat⟩
    rw [scanToken, hcurrent]
    exact hscan
  | @number int f e negative hint hf he =>
    have hbytes : (if negative then [0x2D] else []) ++ (int ++ (f ++ e)) = b :: bs := by
      simpa only [List.append_assoc] using hall.symm
    have hfirst : b = 0x2D ∨ isDigit b = true := by
      cases negative with
      | true => exact .inl (List.cons.inj hbytes).1.symm
      | false =>
        obtain ⟨d, ds, rfl, hd⟩ := intPart_digit hint
        exact .inr ((List.cons.inj hbytes).1 ▸ hd)
    rw [scanToken_number hcurrent hfirst]
    exact scanNumber_complete hint hf he hbytes hcurrent
      (hsep (isNumber_numberToken strtod negative int f e)) h
  | literalTrue =>
    cases hall
    exact scanToken_literal hcurrent rfl rfl h
  | literalFalse =>
    cases hall
    exact scanToken_literal hcurrent rfl rfl h
  | literalNull =>
    cases hall
    exact scanToken_literal hcurrent rfl rfl h
  | _ =>
    cases hall
    refine ⟨l, buf, ?_, h⟩
    rw [scanToken, hcurrent]
    rfl

theorem scanString_ends (h : At l r buf) : ∃ token l', l.scanString = some (token, l') := by
  obtain ⟨closed, l', hloop⟩ := stringLoop_ends h.reset h.reset.lt_rounds
  rw [scanString, hloop]
  cases closed with
  | false => exact ⟨_, _, rfl⟩
  | true =>
    obtain ⟨bs, cs, r', -, -, hat⟩ := stringLoop_sound h.reset hloop
    simp only
    rw [hat.buffer, List.nil_append, text?_utf8]
    exact ⟨_, _, rfl⟩

theorem scanNumber_ends (hcurrent : l.current = some b) (hb : b = 0x2D ∨ isDigit b = true)
    (h : At l r buf) : ∃ token l', l.scanNumber strtod = some (token, l') := by
  have hq : ∃ q, firstLabel b = some q := by
    unfold firstLabel
    split_ifs with hminus hzero hdigit
    · exact ⟨_, rfl⟩
    · exact ⟨_, rfl⟩
    · exact ⟨_, rfl⟩
    · exact absurd hb (not_or.2 ⟨hminus, hdigit⟩)
  obtain ⟨q, hq⟩ := hq
  have hat := h.reset.add [b]
  rw [scanNumber, hcurrent, Option.bind_some, hq]
  exact numberLoop_ends hat hat.lt_rounds

variable (strtod) in
theorem scanToken_ends (hcurrent : l.current = r.head?) (h : At l r.tail buf) :
    ∃ token l', l.scanToken strtod = some (token, l') := by
  cases r with
  | nil =>
    rw [scanToken, hcurrent]
    exact ⟨_, _, rfl⟩
  | cons b r =>
    have hcurrent : l.current = some b := hcurrent
    rw [scanToken, hcurrent]
    simp only
    split
    · exact ⟨_, _, rfl⟩
    · exact ⟨_, _, rfl⟩
    · split_ifs with hquote hnumber hnul
      · exact scanString_ends h
      · exact scanNumber_ends hcurrent hnumber h
      · exact ⟨_, _, rfl⟩
      · exact ⟨_, _, rfl⟩

/-! ### One call of `scan()` -/

theorem total_skipWhitespace {rounds : ℕ} (h : skipWhitespace rounds l = some l') :
    l.position.charsReadTotal < l'.position.charsReadTotal := by
  induction rounds generalizing l with
  | zero => cases h
  | succ rounds ih =>
    have hget := Forward.total_get l
    rw [skipWhitespace] at h
    split_ifs at h
    · have htotal := ih h
      omega
    · cases h
      omega

/-- White space and a NUL are no part of a number. -/
theorem separates_space (hb : b ∈ ([0x20, 0x09, 0x0A, 0x0D, 0x00] : List UInt8)) :
    isDigit b = false ∧ b ≠ 0x2E ∧ b ≠ 0x65 ∧ b ≠ 0x45 := by
  simp only [List.mem_cons, List.not_mem_nil, or_false] at hb
  rcases hb with rfl | rfl | rfl | rfl | rfl <;> decide

/-- What begins a token is no white space and no byte order mark. -/
theorem spells_head (h : Spells strtod bs t) :
    ∃ b bs', bs = b :: bs' ∧ isSpace b = false ∧ b ≠ 0xEF := by
  cases h with
  | string => exact ⟨_, _, rfl, rfl, by decide⟩
  | @number int f e negative hint =>
    cases negative with
    | true => exact ⟨_, _, rfl, rfl, by decide⟩
    | false =>
      obtain ⟨d, ds, rfl, hd⟩ := intPart_digit hint
      refine ⟨d, _, rfl, ?_, fun hEF => ?_⟩
      · refine Bool.eq_false_iff.2 fun hspace => ?_
        rw [(separates_space (List.mem_append_left [0x00] (isSpace_iff.1 hspace))).1] at hd
        cases hd
      · rw [hEF] at hd
        exact absurd hd (by decide)
  | _ => exact ⟨_, _, rfl, rfl, by decide⟩

theorem spells_ne (h : Spells strtod bs t) : t ≠ .endOfInput ∧ t ≠ .parseError := by
  cases h with
  | @number int f e negative =>
    have hnumber := isNumber_numberToken strtod negative int f e
    constructor <;> intro heq <;> rw [heq] at hnumber <;> cases hnumber
  | _ => exact ⟨nofun, nofun⟩

variable (strtod) in
/-- The switch is made at the first byte after the white space. -/
theorem scanText_eq (hspace : Space ws) (hr : ∀ b ∈ r.head?, isSpace b = false)
    (h : At l (ws ++ r) buf) :
    ∃ l', l.scanText strtod = l'.scanToken strtod ∧ l'.current = r.head? ∧ At l' r.tail buf := by
  have hlen : ws.length ≤ (ws ++ r).length := by simp
  obtain ⟨l', hskip, hl'⟩ := skipWhitespace_eq hspace hr h (hlen.trans_lt h.lt_rounds)
  refine ⟨l', ?_, hl'⟩
  rw [scanText, hskip, Option.bind_some]

theorem scanText_sound (h : At l r buf) (hscan : l.scanText strtod = some (t, l'))
    (ht : t ≠ .parseError) :
    ∃ ws r₁, r = ws ++ r₁ ∧ Space ws ∧ ((t = .endOfInput ∧ AfterText r₁) ∨
      ∃ bs r' buf', Spells strtod bs t ∧ r₁ = bs ++ r' ∧ At l' r' buf') := by
  obtain ⟨ws, r₁, rfl, hspace, hhead⟩ := exists_space r
  obtain ⟨l₁, heq, hcurrent, hat⟩ := scanText_eq strtod hspace hhead h
  rw [heq] at hscan
  exact ⟨ws, r₁, rfl, hspace, scanToken_sound hcurrent hat hscan ht⟩

theorem scanText_complete (hspace : Space ws) (hbs : Spells strtod bs t)
    (hsep : isNumber t = true → Separates r.head?) (h : At l (ws ++ bs ++ r) buf) :
    ∃ l' buf', l.scanText strtod = some (t, l') ∧ At l' r buf' := by
  obtain ⟨b, bs', rfl, hb, -⟩ := spells_head hbs
  rw [List.append_assoc] at h
  obtain ⟨l₁, heq, hcurrent, hat⟩ := scanText_eq strtod hspace (by simpa using hb) h
  rw [heq]
  exact scanToken_complete hbs hcurrent hat hsep

variable (strtod) in
theorem scanText_after (hspace : Space ws) (hafter : AfterText r) (h : At l (ws ++ r) buf) :
    ∃ l', l.scanText strtod = some (.endOfInput, l') := by
  have hhead : ∀ b ∈ r.head?, isSpace b = false := by
    rcases hafter with rfl | ⟨junk, rfl⟩
    · exact nofun
    · simp [isSpace]
  obtain ⟨l₁, heq, hcurrent, -⟩ := scanText_eq strtod hspace hhead h
  refine ⟨l₁, ?_⟩
  rw [heq, scanToken, hcurrent]
  rcases hafter with rfl | ⟨junk, rfl⟩ <;> rfl

theorem total_scanText (h : l.scanText strtod = some (t, l')) :
    l.position.charsReadTotal < l'.position.charsReadTotal := by
  obtain ⟨l₁, hskip, hscan⟩ := Option.bind_eq_some_iff.1 h
  exact (total_skipWhitespace hskip).trans_le (forward_scanToken hscan).total

variable (strtod) in
/-- A call of `scan()` ends, and it reads on unless it is at the end of the input. -/
theorem scanText_ends (h : At l r buf) :
    ∃ token l', l.scanText strtod = some (token, l') ∧
      (token = .endOfInput ∨ ∃ r' buf', At l' r' buf' ∧ r'.length < r.length) := by
  obtain ⟨ws, r₁, rfl, hspace, hhead⟩ := exists_space r
  obtain ⟨l₁, heq, hcurrent, hat⟩ := scanText_eq strtod hspace hhead h
  obtain ⟨token, l', hscan⟩ := scanToken_ends strtod hcurrent hat
  have hforward := forward_scanToken hscan
  refine ⟨token, l', heq.trans hscan, ?_⟩
  cases r₁ with
  | nil =>
    rw [scanToken, hcurrent] at hscan
    cases hscan
    exact .inl rfl
  | cons b r₁ =>
    obtain ⟨r', buf', hat', hle⟩ := hforward.rest _ _ hat
    refine .inr ⟨r', buf', hat', ?_⟩
    rw [List.tail_cons] at hle
    rw [List.length_append, List.length_cons]
    omega

/-! ### The first call -/

theorem scan_eq (h : 0 < l.position.charsReadTotal) : l.scan strtod = l.scanText strtod :=
  if_neg h.ne'

variable (strtod) in
/-- A byte order mark is skipped, and nothing is if there is none. -/
theorem scan_mark {mark : List UInt8} (hmark : ByteOrderMark mark)
    (hhead : mark = [] → r.head? ≠ some 0xEF) (htotal : l.position.charsReadTotal = 0)
    (h : At l (mark ++ r) buf) : ∃ l', l.scan strtod = l'.scanText strtod ∧ At l' r buf := by
  rcases hmark with rfl | rfl
  · have hskip : l.skipBom = (true, l.get.unget) := by
      rw [skipBom, if_neg (h.current.trans_ne (hhead rfl))]
    refine ⟨l.get.unget, ?_, h.unget⟩
    rw [scan, if_pos htotal, hskip]
  · obtain ⟨hcurrent₁, hget₁⟩ := h.get_cons
    obtain ⟨hcurrent₂, hget₂⟩ := hget₁.get_cons
    obtain ⟨hcurrent₃, hget₃⟩ := hget₂.get_cons
    have hskip : l.skipBom = (true, l.get.get.get) := by
      rw [skipBom, if_pos hcurrent₁, if_pos hcurrent₂, hcurrent₃]
      rfl
    refine ⟨l.get.get.get, ?_, hget₃⟩
    rw [scan, if_pos htotal, hskip]

variable (strtod) in
/-- What the first call does: it skips a byte order mark or the lack of one, or it rejects what
begins like one. -/
theorem scan_first (htotal : l.position.charsReadTotal = 0) (h : At l r buf) :
    (∃ mark r₁ l₁, r = mark ++ r₁ ∧ ByteOrderMark mark ∧ l.scan strtod = l₁.scanText strtod ∧
      At l₁ r₁ buf) ∨
    ∃ l₁ r₁, l.scan strtod = some (.parseError, l₁) ∧ 0 < l₁.position.charsReadTotal ∧
      At l₁ r₁ buf ∧ r₁.length < r.length := by
  have hfail (l₁ : JsonLexer) (hskip : l.skipBom = (false, l₁)) : l.scan strtod =
      some (.parseError, l₁.fail "invalid BOM; must be 0xEF 0xBB 0xBF if given") := by
    rw [scan, if_pos htotal, hskip]
  have htotal₁ := Forward.total_get l
  have htotal₂ := Forward.total_get l.get
  have htotal₃ := Forward.total_get l.get.get
  by_cases hhead : r.head? = some 0xEF
  · obtain ⟨r₁, rfl⟩ := List.head?_eq_some_iff.1 hhead
    obtain ⟨hcurrent₁, hget₁⟩ := h.get_cons
    have hcurrent₂ := hget₁.current
    by_cases hhead₂ : r₁.head? = some 0xBB
    · obtain ⟨r₂, rfl⟩ := List.head?_eq_some_iff.1 hhead₂
      have hget₂ := hget₁.get
      have hcurrent₃ : l.get.get.get.current = r₂.head? := hget₂.current
      by_cases hhead₃ : r₂.head? = some 0xBF
      · obtain ⟨r₃, rfl⟩ := List.head?_eq_some_iff.1 hhead₃
        obtain ⟨l₁, hscan, hat⟩ :=
          scan_mark strtod (show ByteOrderMark [0xEF, 0xBB, 0xBF] from .inr rfl) nofun htotal h
        exact .inl ⟨_, r₃, l₁, rfl, .inr rfl, hscan, hat⟩
      · refine .inr ⟨_, r₂.tail, hfail l.get.get.get ?_, ?_, hget₂.get.fail _, by simp; omega⟩
        · rw [skipBom, if_pos hcurrent₁, if_pos (hcurrent₂.trans hhead₂), hcurrent₃,
            beq_eq_false_iff_ne.2 hhead₃]
        · show 0 < l.get.get.get.position.charsReadTotal
          omega
    · refine .inr ⟨_, r₁.tail, hfail l.get.get ?_, ?_, hget₁.get.fail _, by simp⟩
      · rw [skipBom, if_pos hcurrent₁, if_neg (hcurrent₂.trans_ne hhead₂)]
      · show 0 < l.get.get.position.charsReadTotal
        omega
  · obtain ⟨l₁, hscan, hat⟩ :=
      scan_mark strtod (show ByteOrderMark [] from .inl rfl) (fun _ => hhead) htotal h
    exact .inl ⟨[], r, l₁, rfl, .inl rfl, hscan, hat⟩

/-! ### All the calls -/

/-- A number is followed by what ends it. -/
def Apart (ts : List Token) : Prop :=
  ts.IsChain fun t t' => isNumber t = true → isDelimiter t' = true

/-- With a round for each byte and one more the calls come to the end of the input. -/
theorem scanAll_ends {rounds : ℕ} {l₁ : JsonLexer} (hscan : l.scan strtod = l₁.scanText strtod)
    (h : At l₁ r buf) (hrounds : r.length < rounds) : ∃ L, scanAll strtod rounds l = some L := by
  induction rounds generalizing l l₁ r buf with
  | zero => exact absurd hrounds (Nat.not_lt_zero _)
  | succ rounds ih =>
    obtain ⟨token, l', htext, hrest⟩ := scanText_ends strtod h
    have htotal := total_scanText htext
    rw [scanAll, hscan, htext]
    simp only
    split_ifs with hend
    · exact ⟨_, rfl⟩
    · rcases hrest with hend' | ⟨r', buf', hat, hless⟩
      · exact absurd hend' hend
      · obtain ⟨L, hall⟩ := ih (scan_eq (Nat.zero_lt_of_lt htotal)) hat (by omega)
        rw [hall]
        exact ⟨_, rfl⟩

theorem scanAll_sound {rounds : ℕ} {l₁ : JsonLexer} {L : Lexer}
    (hscan : l.scan strtod = l₁.scanText strtod) (h : At l₁ r buf)
    (hall : scanAll strtod rounds l = some L)
    (hL : Token.parseError ∉ L.pending.map Scanned.token) :
    ∃ bs after, r = bs ++ after ∧ Spelled strtod bs (L.pending.map Scanned.token) ∧
      AfterText after := by
  induction rounds generalizing l l₁ r buf L with
  | zero => cases hall
  | succ rounds ih =>
    obtain ⟨token, l', htext, -⟩ := scanText_ends strtod h
    have htotal := total_scanText htext
    rw [scanAll, hscan, htext] at hall
    simp only at hall
    split_ifs at hall with hend
    · cases hall
      obtain ⟨ws, r₁, rfl, hspace, ⟨-, hafter⟩ | ⟨bs, r', buf', hspells, -⟩⟩ :=
        scanText_sound h htext (hend ▸ nofun)
      · exact ⟨ws, r₁, rfl, .nil hspace, hafter⟩
      · exact absurd hend (spells_ne hspells).1
    · split at hall
      · cases hall
      · rename_i L' hL'
        cases hall
        rw [List.map_cons, List.mem_cons, not_or] at hL
        obtain ⟨ws, r₁, rfl, hspace, ⟨hend', -⟩ | ⟨bs, r', buf', hspells, rfl, hat⟩⟩ :=
          scanText_sound h htext (Ne.symm hL.1)
        · exact absurd hend' hend
        · obtain ⟨bs', after, rfl, hspelled, hafter⟩ :=
            ih (scan_eq (Nat.zero_lt_of_lt htotal)) hat hL' hL.2
          refine ⟨ws ++ bs ++ bs', after, ?_, .cons hspace hspells hspelled, hafter⟩
          simp only [List.append_assoc]

/-- What the bytes of a text can begin with. -/
theorem spelled_head {after : List UInt8} (hs : Spelled strtod bs ts) (hafter : AfterText after)
    (hb : b ∈ (bs ++ after).head?) :
    b ∈ ([0x20, 0x09, 0x0A, 0x0D, 0x00] : List UInt8) ∨
      ∃ t ∈ ts.head?, ∃ bs', Spells strtod (b :: bs') t := by
  have hspaces {b : UInt8} {ws : List UInt8} (hspace : Space (b :: ws)) :
      b ∈ ([0x20, 0x09, 0x0A, 0x0D, 0x00] : List UInt8) :=
    List.mem_append_left [0x00] (hspace b List.mem_cons_self)
  cases hs with
  | nil hspace =>
    cases bs with
    | nil =>
      rcases hafter with rfl | ⟨junk, rfl⟩
      · cases hb
      · cases hb
        exact .inl (by decide)
    | cons b' ws =>
      cases hb
      exact .inl (hspaces hspace)
  | @cons ws bs rest t ts hspace hspells hs =>
    cases ws with
    | nil =>
      obtain ⟨b', bs', rfl, -, -⟩ := spells_head hspells
      cases hb
      exact .inr ⟨t, rfl, bs', hspells⟩
    | cons b' ws =>
      cases hb
      exact .inl (hspaces hspace)

theorem delimiter_spells (h : Spells strtod bs t) (ht : isDelimiter t = true) :
    bs = [0x5D] ∨ bs = [0x7D] ∨ bs = [0x2C] := by
  cases h with
  | endArray => exact .inl rfl
  | endObject => exact .inr (.inl rfl)
  | valueSeparator => exact .inr (.inr rfl)
  | @number int f e negative =>
    have hnumber := isNumber_numberToken strtod negative int f e
    generalize numberToken strtod negative int f e = t at ht hnumber
    cases t <;> cases hnumber <;> cases ht
  | _ => cases ht

theorem separates_of_spelled {after : List UInt8} (hs : Spelled strtod bs ts)
    (hafter : AfterText after) (hdelimiter : ∀ t ∈ ts.head?, isDelimiter t = true) :
    Separates (bs ++ after).head? := by
  intro b hb
  rcases spelled_head hs hafter hb with hspace | ⟨t, ht, bs', hspells⟩
  · exact separates_space hspace
  · rcases delimiter_spells hspells (hdelimiter t ht) with h | h | h <;> cases h <;> decide

theorem scanAll_complete {rounds : ℕ} {l₁ : JsonLexer} {after : List UInt8}
    (hs : Spelled strtod bs ts) (hafter : AfterText after) (hapart : Apart ts)
    (hscan : l.scan strtod = l₁.scanText strtod) (h : At l₁ (bs ++ after) buf)
    (hrounds : ts.length < rounds) :
    ∃ L, scanAll strtod rounds l = some L ∧ L.pending.map Scanned.token = ts := by
  induction hs generalizing l l₁ buf rounds with
  | nil hspace =>
    obtain ⟨rounds, rfl⟩ := Nat.exists_eq_succ_of_ne_zero (Nat.ne_zero_of_lt hrounds)
    obtain ⟨l', htext⟩ := scanText_after strtod hspace hafter h
    rw [scanAll, hscan, htext]
    exact ⟨_, rfl, rfl⟩
  | @cons ws bs rest t ts hspace hspells hs ih =>
    obtain ⟨rounds, rfl⟩ := Nat.exists_eq_succ_of_ne_zero (Nat.ne_zero_of_lt hrounds)
    have hsep (hnumber : isNumber t = true) : Separates (rest ++ after).head? :=
      separates_of_spelled hs hafter fun t' ht' => hapart.rel_head? ht' hnumber
    rw [List.append_assoc] at h
    obtain ⟨l', buf', htext, hat⟩ := scanText_complete hspace hspells hsep h
    have htotal := total_scanText htext
    obtain ⟨L, hall, rfl⟩ := ih hapart.tail (scan_eq (Nat.zero_lt_of_lt htotal)) hat
      (Nat.lt_of_succ_lt_succ hrounds)
    rw [scanAll, hscan, htext]
    simp only [dif_neg (spells_ne hspells).1]
    rw [hall]
    exact ⟨_, rfl, rfl⟩

theorem spelled_no_mark {after : List UInt8} (hs : Spelled strtod bs ts)
    (hafter : AfterText after) : (bs ++ after).head? ≠ some 0xEF := by
  intro hhead
  rcases spelled_head hs hafter hhead with hspace | ⟨t, -, bs', hspells⟩
  · exact absurd hspace (by decide)
  · obtain ⟨b, _, heq, -, hne⟩ := spells_head hspells
    exact hne (List.cons.inj heq).1.symm

theorem spelled_length (hs : Spelled strtod bs ts) : ts.length ≤ bs.length := by
  induction hs with
  | nil => exact Nat.zero_le _
  | cons hspace hspells hs ih =>
    obtain ⟨b, bs', rfl, -, -⟩ := spells_head hspells
    simp only [List.length_cons, List.length_append]
    omega

theorem pending_ne_end {rounds : ℕ} {L : Lexer} (h : scanAll strtod rounds l = some L) :
    Token.endOfInput ∉ L.pending.map Scanned.token := by
  induction rounds generalizing l L with
  | zero => cases h
  | succ rounds ih =>
    rw [scanAll] at h
    split at h
    · cases h
    · split_ifs at h with hend
      · cases h
        exact List.not_mem_nil
      · split at h
        · cases h
        · rename_i L' hL'
          cases h
          exact List.not_mem_cons_of_ne_of_not_mem (Ne.symm hend) (ih hL')

/-- The text of the lexer is what the calls return before the end of the input. -/
theorem text_eq {rounds : ℕ} {L : Lexer} (h : scanAll strtod rounds l = some L) :
    L.text = L.pending.map Scanned.token := by
  have hend := pending_ne_end h
  refine List.takeWhile_eq_self_iff.2 fun t ht => decide_eq_true fun heq => ?_
  rw [heq] at ht
  exact hend ht

end JsonLexer

namespace JsonText

variable {trailing : Bool} {q q' : Spot} {t t' : Token} {ts : List Token}

theorem next_parseError (q : Spot) : next trailing q .parseError = none := by
  obtain ⟨fs, place⟩ := q
  cases place with
  | after v =>
    cases fs with
    | nil => rfl
    | cons f fs => cases f <;> rfl
  | _ => rfl

/-- After a number the reader is behind a value. -/
theorem next_number (ht : JsonLexer.isNumber t = true) (h : next trailing q t = some q') :
    ∃ fs v, q' = ⟨fs, .after v⟩ := by
  obtain ⟨fs, place⟩ := q
  have hvalue (fs : List Frame) (h : readValue fs t = some q') : ∃ fs v, q' = ⟨fs, .after v⟩ := by
    have hread : readValue fs t = (scalar? t).map fun v => ⟨fs, .after v⟩ := by
      cases t <;> cases ht <;> rfl
    rw [hread] at h
    obtain ⟨v, -, rfl⟩ := Option.map_eq_some_iff.1 h
    exact ⟨fs, v, rfl⟩
  cases place with
  | value => exact hvalue _ h
  | item items closes =>
    have hne : t ≠ .endArray := fun heq => by
      rw [heq] at ht
      cases ht
    exact hvalue _ ((if_neg hne).symm.trans h)
  | key members closes => cases t <;> cases ht <;> cases h
  | colon members key => cases t <;> cases ht <;> cases h
  | after v =>
    cases fs with
    | nil => cases h
    | cons f fs => cases f <;> cases t <;> cases ht <;> cases h

/-- What the reader takes after a value. -/
theorem next_after {fs : List Frame} {v : Json} (h : next trailing ⟨fs, .after v⟩ t = some q') :
    JsonLexer.isDelimiter t = true := by
  cases fs with
  | nil => cases h
  | cons f fs =>
    cases f <;> cases t <;> first
      | rfl
      | cases h

/-- In a text, numbers are apart from what follows them. -/
theorem apart_of_feed (h : feed trailing q ts = some q') : JsonLexer.Apart ts := by
  induction ts generalizing q with
  | nil => exact .nil
  | cons t ts ih =>
    obtain ⟨q₁, hq₁, hfeed⟩ := Option.bind_eq_some_iff.1 h
    refine List.isChain_cons.2 ⟨fun t' ht' hnumber => ?_, ih hfeed⟩
    obtain ⟨ts', rfl⟩ := List.head?_eq_some_iff.1 ht'
    obtain ⟨q₂, hq₂, -⟩ := Option.bind_eq_some_iff.1 hfeed
    obtain ⟨fs, v, rfl⟩ := next_number hnumber hq₁
    exact next_after hq₂

end JsonText

namespace Parser

open JsonText JsonLexer

variable (strtod : List UInt8 → Double) (trailing : Bool) (file : List UInt8)

theorem at_file : At { ia := file } file [] := ⟨rfl, nofun, rfl⟩

/-- The calls of `scan()` come to the end of every file. -/
theorem ofBytes_ends : ∃ L, Lexer.ofBytes strtod file = some L := by
  rcases scan_first strtod rfl (at_file file) with
    ⟨mark, r, l, rfl, -, hscan, hat⟩ | ⟨l, r, hscan, htotal, hat, hless⟩
  · exact scanAll_ends hscan hat (by simp)
  · obtain ⟨L, hall⟩ := scanAll_ends (scan_eq htotal) hat hless
    rw [Lexer.ofBytes, scanAll, hscan]
    simp only [reduceCtorEq, dif_neg, not_false_eq_true]
    rw [hall]
    exact ⟨_, rfl⟩

/-- What the lexer accepts is spelled as it should be. -/
theorem ofBytes_sound {L : Lexer} (h : Lexer.ofBytes strtod file = some L)
    (hL : Token.parseError ∉ L.text) :
    ∃ mark bs after, file = mark ++ bs ++ after ∧ ByteOrderMark mark ∧ Spelled strtod bs L.text ∧
      AfterText after := by
  rw [text_eq h] at hL ⊢
  rcases scan_first strtod rfl (at_file file) with
    ⟨mark, r, l, rfl, hmark, hscan, hat⟩ | ⟨l, r, hscan, -, -, -⟩
  · obtain ⟨bs, after, rfl, hspelled, hafter⟩ := scanAll_sound hscan hat h hL
    exact ⟨mark, bs, after, (List.append_assoc _ _ _).symm, hmark, hspelled, hafter⟩
  · rw [Lexer.ofBytes, scanAll, hscan] at h
    simp only [reduceCtorEq, dif_neg, not_false_eq_true] at h
    split at h
    · cases h
    · cases h
      exact absurd List.mem_cons_self hL

/-- What is spelled as it should be is accepted. -/
theorem ofBytes_complete {mark bs after : List UInt8} {ts : List Token}
    (hmark : ByteOrderMark mark) (hs : Spelled strtod bs ts) (hafter : AfterText after)
    (hapart : Apart ts) :
    ∃ L, Lexer.ofBytes strtod (mark ++ bs ++ after) = some L ∧ L.text = ts := by
  obtain ⟨l, hscan, hat⟩ := scan_mark strtod hmark
    (fun _ => spelled_no_mark hs hafter) rfl (at_file (mark ++ (bs ++ after)))
  have hrounds : ts.length < (mark ++ (bs ++ after)).length + 1 := by
    have hlen := spelled_length hs
    simp only [List.length_append]
    omega
  obtain ⟨L, hall, hL⟩ := scanAll_complete hs hafter hapart hscan hat hrounds
  rw [List.append_assoc]
  exact ⟨L, hall, (text_eq hall).trans hL⟩

/-- `json::parse`, from the bytes of the text. -/
def parseBytes : Option (Except Stop Json) :=
  (Lexer.ofBytes strtod file).bind (Parser.parse trailing)

theorem parseBytes_ok_iff (v : Json) :
    parseBytes strtod trailing file = some (.ok v) ↔ Document strtod trailing file v := by
  constructor
  · intro h
    obtain ⟨L, hfile, hparse⟩ := Option.bind_eq_some_iff.1 h
    have hderives := (parse_ok_iff trailing L v).1 hparse
    have hfeed := (derives_iff_feed _ v).1 hderives
    obtain ⟨mark, bs, after, hbytes, hmark, hspelled, hafter⟩ :=
      ofBytes_sound strtod file hfile (Acceptor.not_mem_of_feed next_parseError hfeed)
    exact ⟨mark, bs, after, L.text, hbytes, hmark, hspelled, hafter, hderives⟩
  · rintro ⟨mark, bs, after, ts, rfl, hmark, hspelled, hafter, hderives⟩
    have hfeed := (derives_iff_feed _ v).1 hderives
    obtain ⟨L, hfile, rfl⟩ :=
      ofBytes_complete strtod hmark hspelled hafter (apart_of_feed hfeed)
    exact Option.bind_eq_some_iff.2 ⟨L, hfile, (parse_ok_iff trailing L v).2 hderives⟩

theorem parseBytes_ends :
    (∃ v, parseBytes strtod trailing file = some (.ok v)) ∨
      ∃ e, parseBytes strtod trailing file = some (.error (.thrown e)) := by
  obtain ⟨L, hfile⟩ := ofBytes_ends strtod file
  rw [parseBytes, hfile]
  exact parse_ends trailing L

/-- **The parser returns the value of the document**, and it returns one exactly for the
documents; a document has one value.  The parser always ends, with a value or an exception. -/
theorem parse_document :
    (∀ v, parseBytes strtod trailing file = some (.ok v) ↔ Document strtod trailing file v) ∧
      (∀ v w, Document strtod trailing file v → Document strtod trailing file w → v = w) ∧
      ((∃ v, parseBytes strtod trailing file = some (.ok v)) ∨
        ∃ e, parseBytes strtod trailing file = some (.error (.thrown e))) := by
  refine ⟨parseBytes_ok_iff strtod trailing file, fun v w hv hw => ?_,
    parseBytes_ends strtod trailing file⟩
  have hparse := (parseBytes_ok_iff strtod trailing file v).2 hv
  rw [(parseBytes_ok_iff strtod trailing file w).2 hw] at hparse
  cases hparse
  rfl

end Parser

end UltraMds
