import UltraMds.Tool.JsonDocument

/-!
# What an error says about a file

The lexer does not look ahead: lexers that have the same bytes before them up to a position do the
same up to there (`scanAll_twin`).  An error therefore says something about all the files that go on
in another way.
-/

namespace UltraMds

/-- What the calls of `scan()` return up to the first end of the input. -/
def Lexer.calls (L : Lexer) : List Scanned := L.pending ++ [L.eof]

namespace JsonLexer

open JsonText

variable {strtod : List UInt8 → Double} {n rounds rounds' : ℕ} {l l' m m' : JsonLexer}
  {t t' : Token}

/-! ### Twins -/

/-- The lexers are the same, and so are the bytes before them up to the position `n`. -/
def Twin (n : ℕ) (l m : JsonLexer) : Prop :=
  ∃ p s s', l.ia = p ++ s ∧ m = { l with ia := p ++ s' } ∧
    n ≤ l.position.charsReadTotal + l.nextUnget.toNat + p.length

namespace Twin

theorem current (h : Twin n l m) : m.current = l.current := by
  obtain ⟨p, s, s', hia, rfl, hn⟩ := h
  rfl

theorem scanned (h : Twin n l m) (token : Token) : m.scanned token = l.scanned token := by
  obtain ⟨p, s, s', hia, rfl, hn⟩ := h
  rfl

theorem position (h : Twin n l m) : m.position = l.position := by
  obtain ⟨p, s, s', hia, rfl, hn⟩ := h
  rfl

theorem tokenBuffer (h : Twin n l m) : m.tokenBuffer = l.tokenBuffer := by
  obtain ⟨p, s, s', hia, rfl, hn⟩ := h
  rfl

theorem add (h : Twin n l m) (bs : List UInt8) : Twin n (l.add bs) (m.add bs) := by
  obtain ⟨p, s, s', hia, rfl, hn⟩ := h
  exact ⟨p, s, s', hia, rfl, hn⟩

theorem fail (h : Twin n l m) (text : String) : Twin n (l.fail text) (m.fail text) := by
  obtain ⟨p, s, s', hia, rfl, hn⟩ := h
  exact ⟨p, s, s', hia, rfl, hn⟩

theorem reset (h : Twin n l m) : Twin n l.reset m.reset := by
  obtain ⟨p, s, s', hia, rfl, hn⟩ := h
  exact ⟨p, s, s', hia, rfl, hn⟩

/-- A byte before the position is the same. -/
theorem get (h : Twin n l m) (hn : l.position.charsReadTotal < n) : Twin n l.get m.get := by
  obtain ⟨p, s, s', hia, rfl, hp⟩ := h
  have htotal := Forward.total_get l
  cases hunget : l.nextUnget with
  | true =>
    refine ⟨p, s, s', ?_, ?_, ?_⟩
    · simp [JsonLexer.get, hunget, hia]
    · simp [JsonLexer.get, hunget]
    · rw [hunget, Bool.toNat_true] at hp
      rw [htotal]
      exact hp.trans (by omega)
  | false =>
    rw [hunget, Bool.toNat_false] at hp
    cases p with
    | nil => simp at hp; omega
    | cons b p =>
      refine ⟨p, s, s', ?_, ?_, ?_⟩
      · simp [JsonLexer.get, hunget, hia]
      · simp [JsonLexer.get, hunget, hia]
      · rw [htotal]
        rw [List.length_cons] at hp
        omega

theorem unget (h : Twin n l m) (hn : l.position.charsReadTotal < n) :
    Twin n l.get.unget m.get.unget := by
  have htotal := Forward.total_get l
  obtain ⟨p, s, s', hia, hm, hp⟩ := h.get hn
  rw [hm]
  refine ⟨p, s, s', hia, rfl, ?_⟩
  have hunget := (Forward.unget l).total
  have hfalse : l.get.nextUnget = false := rfl
  have htrue : l.get.unget.nextUnget = true := rfl
  rw [hfalse, Bool.toNat_false] at hp
  rw [htrue, Bool.toNat_true]
  omega

end Twin

/-! ### The scanners -/

theorem codepointLoop_twin (factors : List ℕ) (codepoint : ℕ) (h : Twin n l m)
    (hn : (codepointLoop factors codepoint l).2.position.charsReadTotal < n) :
    (codepointLoop factors codepoint m).1 = (codepointLoop factors codepoint l).1 ∧
      Twin n (codepointLoop factors codepoint l).2 (codepointLoop factors codepoint m).2 := by
  induction factors generalizing codepoint l m with
  | nil => exact ⟨rfl, h⟩
  | cons factor factors ih =>
    have hget := h.get ((forward_codepointLoop (factor :: factors) codepoint l).total.trans_lt hn)
    rw [codepointLoop] at hn ⊢
    rw [codepointLoop, hget.current]
    split
    · rename_i d hd
      rw [hd] at hn
      exact ih _ hget hn
    · exact ⟨rfl, hget⟩

theorem rangeLoop_twin {ranges : List (UInt8 × UInt8)} (h : Twin n l m)
    (hn : (rangeLoop ranges l).2.position.charsReadTotal < n) :
    (rangeLoop ranges m).1 = (rangeLoop ranges l).1 ∧
      Twin n (rangeLoop ranges l).2 (rangeLoop ranges m).2 := by
  induction ranges generalizing l m with
  | nil => exact ⟨rfl, h⟩
  | cons range ranges ih =>
    have hget := h.get ((forward_rangeLoop (range :: ranges) l).total.trans_lt hn)
    rw [rangeLoop] at hn ⊢
    rw [rangeLoop, hget.current]
    cases hcurrent : l.get.current with
    | none => exact ⟨rfl, hget.fail _⟩
    | some b =>
      rw [hcurrent] at hn
      simp only at hn ⊢
      split_ifs at hn ⊢
      · exact ih (hget.add [b]) hn
      · exact ⟨rfl, hget.fail _⟩

/-- Rounds that end in the same way, with twins. -/
inductive TwinRound (n : ℕ) : Round → Round → Prop
  | more {l m : JsonLexer} (h : Twin n l m) : TwinRound n (.more l) (.more m)
  | stop {l m : JsonLexer} (closed : Bool) (h : Twin n l m) :
      TwinRound n (.stop closed l) (.stop closed m)

theorem getCodepoint_twin {o : Option ℕ} (h : Twin n l m) (hcode : l.getCodepoint = (o, l'))
    (hn : l'.position.charsReadTotal < n) : ∃ m', m.getCodepoint = (o, m') ∧ Twin n l' m' := by
  have hl : codepointLoop [12, 8, 4, 0] 0 l = (o, l') := hcode
  have htwin := codepointLoop_twin [12, 8, 4, 0] 0 h (by rwa [hl])
  rw [hl] at htwin
  exact ⟨(codepointLoop [12, 8, 4, 0] 0 m).2, Prod.ext htwin.1 rfl, htwin.2⟩

theorem nextByteInRange_twin {ranges : List (UInt8 × UInt8)} {ok : Bool} (h : Twin n l m)
    (hrange : l.nextByteInRange ranges = (ok, l')) (hn : l'.position.charsReadTotal < n) :
    ∃ m', m.nextByteInRange ranges = (ok, m') ∧ Twin n l' m' := by
  have hl : rangeLoop ranges (l.add l.current.toList) = (ok, l') := hrange
  have htwin := rangeLoop_twin (h.add l.current.toList) (by rwa [hl])
  rw [hl] at htwin
  refine ⟨(rangeLoop ranges (m.add l.current.toList)).2, Prod.ext ?_ ?_, htwin.2⟩
  · rw [nextByteInRange, h.current]
    exact htwin.1
  · rw [nextByteInRange, h.current]

theorem lowSurrogate_twin {codepoint : ℕ} (h : Twin n l m)
    (hn : (l.lowSurrogate codepoint).lexer.position.charsReadTotal < n) :
    TwinRound n (l.lowSurrogate codepoint) (m.lowSurrogate codepoint) := by
  have hget := h.get ((forward_lowSurrogate codepoint l).total.trans_lt hn)
  have htotal := Forward.total_get l.get
  unfold lowSurrogate at hn ⊢
  by_cases hbackslash : l.get.current = some 0x5C
  · rw [if_pos hbackslash] at hn ⊢
    rw [if_pos (hget.current.trans hbackslash)]
    by_cases hu : l.get.get.current = some 0x75
    · obtain ⟨o, l₁, hcode⟩ : ∃ o l₁, l.get.get.getCodepoint = (o, l₁) := ⟨_, _, rfl⟩
      rw [if_pos hu, hcode] at hn ⊢
      have hn₁ : l₁.position.charsReadTotal < n := by
        cases o with
        | none => exact hn
        | some codepoint₂ =>
          simp only at hn
          split_ifs at hn <;> exact hn
      have hle := (forward_getCodepoint hcode).total
      have hget₂ := hget.get (by omega)
      obtain ⟨m₁, hcode', htwin⟩ := getCodepoint_twin hget₂ hcode hn₁
      rw [if_pos (hget₂.current.trans hu), hcode']
      cases o with
      | none => exact .stop false (htwin.fail _)
      | some codepoint₂ =>
        simp only
        split_ifs
        · exact .more (htwin.add _)
        · exact .stop false (htwin.fail _)
    · rw [if_neg hu] at hn ⊢
      have hn : l.get.get.position.charsReadTotal < n := hn
      have hget₂ := hget.get (by omega)
      rw [if_neg (hget₂.current.trans_ne hu)]
      exact .stop false (hget₂.fail _)
  · rw [if_neg hbackslash, if_neg (hget.current.trans_ne hbackslash)]
    exact .stop false (hget.fail _)

theorem unicodeEscape_twin (h : Twin n l m)
    (hn : l.unicodeEscape.lexer.position.charsReadTotal < n) :
    TwinRound n l.unicodeEscape m.unicodeEscape := by
  obtain ⟨o, l₁, hcode⟩ : ∃ o l₁, l.getCodepoint = (o, l₁) := ⟨_, _, rfl⟩
  have hn₁ : l₁.position.charsReadTotal < n := by
    refine Nat.lt_of_le_of_lt ?_ hn
    unfold unicodeEscape
    rw [hcode]
    cases o with
    | none => exact le_rfl
    | some codepoint =>
      simp only
      split_ifs
      · exact (forward_lowSurrogate codepoint l₁).total
      · exact le_rfl
      · exact le_rfl
  obtain ⟨m₁, hcode', htwin⟩ := getCodepoint_twin h hcode hn₁
  unfold unicodeEscape at hn ⊢
  rw [hcode] at hn ⊢
  rw [hcode']
  cases o with
  | none => exact .stop false (htwin.fail _)
  | some codepoint =>
    simp only at hn ⊢
    split_ifs at hn ⊢
    · exact lowSurrogate_twin htwin hn
    · exact .stop false (htwin.fail _)
    · exact .more (htwin.add _)

theorem escape_twin (h : Twin n l m) (hn : l.escape.lexer.position.charsReadTotal < n) :
    TwinRound n l.escape m.escape := by
  have hget := h.get ((forward_escape l).total.trans_lt hn)
  unfold escape at hn ⊢
  rw [hget.current]
  split
  · exact .more (hget.add _)
  · rename_i hnone
    rw [hnone] at hn
    simp only at hn
    split_ifs at hn ⊢
    · exact unicodeEscape_twin hget hn
    · exact .stop false (hget.fail _)

theorem stringRound_twin (h : Twin n l m) (hn : l.stringRound.lexer.position.charsReadTotal < n) :
    TwinRound n l.stringRound m.stringRound := by
  have hget := h.get ((forward_stringRound l).total.trans_lt hn)
  unfold stringRound at hn ⊢
  rw [hget.current]
  cases hcurrent : l.get.current with
  | none => exact .stop false (hget.fail _)
  | some b =>
    rw [hcurrent] at hn
    simp only at hn ⊢
    split_ifs at hn ⊢
    · exact .stop true hget
    · exact escape_twin hget hn
    · exact .stop false (hget.fail _)
    · exact .more (hget.add _)
    · cases htails : tailRanges b with
      | none => exact .stop false (hget.fail _)
      | some ranges =>
        obtain ⟨ok, l₁, hrange⟩ : ∃ ok l₁, l.get.nextByteInRange ranges = (ok, l₁) := ⟨_, _, rfl⟩
        rw [htails] at hn
        simp only [hrange] at hn ⊢
        have hn₁ : l₁.position.charsReadTotal < n := by cases ok <;> exact hn
        obtain ⟨m₁, hrange', htwin⟩ := nextByteInRange_twin hget hrange hn₁
        rw [hrange']
        cases ok with
        | false => exact .stop false htwin
        | true => exact .more htwin

theorem stringLoop_twin {closed closed' : Bool} (h : Twin n l m)
    (hl : stringLoop rounds l = some (closed, l')) (hm : stringLoop rounds' m = some (closed', m'))
    (hn : l'.position.charsReadTotal < n) : closed' = closed ∧ Twin n l' m' := by
  induction rounds generalizing rounds' l m with
  | zero => cases hl
  | succ rounds ih =>
    cases rounds' with
    | zero => cases hm
    | succ rounds' =>
      rw [stringLoop] at hl hm
      have hround (hn : l.stringRound.lexer.position.charsReadTotal < n) := stringRound_twin h hn
      generalize m.stringRound = round' at hm hround
      cases hl₁ : l.stringRound with
      | more l₁ =>
        rw [hl₁] at hl hround
        cases hround ((forward_stringLoop hl).total.trans_lt hn) with
        | more htwin => exact ih htwin hl hm
      | stop closed₁ l₁ =>
        rw [hl₁] at hl hround
        cases hl
        cases hround hn with
        | stop _ htwin =>
          cases hm
          exact ⟨rfl, htwin⟩

theorem scanString_twin (h : Twin n l m) (hl : l.scanString = some (t, l'))
    (hm : m.scanString = some (t', m')) (hn : l'.position.charsReadTotal < n) :
    t' = t ∧ Twin n l' m' := by
  obtain ⟨closed, hloop, ht⟩ := scanString_cases hl
  obtain ⟨closed', hloop', ht'⟩ := scanString_cases hm
  obtain ⟨rfl, htwin⟩ := stringLoop_twin h.reset hloop hloop' hn
  rw [htwin.tokenBuffer, ht] at ht'
  exact ⟨(Option.some.inj ht').symm, htwin⟩

theorem numberLoop_twin {q : NumberState} {numberType : TokenType} (h : Twin n l m)
    (hl : numberLoop strtod rounds q numberType l = some (t, l'))
    (hm : numberLoop strtod rounds' q numberType m = some (t', m'))
    (hn : l'.position.charsReadTotal < n) : t' = t ∧ Twin n l' m' := by
  induction rounds generalizing rounds' q numberType l m with
  | zero => cases hl
  | succ rounds ih =>
    cases rounds' with
    | zero => cases hm
    | succ rounds' =>
      have htotal := (forward_numberLoop hl).total.trans_lt hn
      have hget := h.get htotal
      rw [numberLoop] at hl hm
      rw [hget.current] at hm
      cases hgoto : q.goto l.get.current with
      | label q' =>
        rw [hgoto] at hl hm
        exact ih (hget.add _) hl hm
      | done =>
        rw [hgoto] at hl hm
        cases hl
        cases hm
        rw [hget.tokenBuffer]
        exact ⟨rfl, h.unget htotal⟩
      | error text =>
        rw [hgoto] at hl hm
        cases hl
        cases hm
        exact ⟨rfl, hget.fail _⟩

theorem scanNumber_twin (h : Twin n l m) (hl : l.scanNumber strtod = some (t, l'))
    (hm : m.scanNumber strtod = some (t', m')) (hn : l'.position.charsReadTotal < n) :
    t' = t ∧ Twin n l' m' := by
  obtain ⟨q, hq, hloop⟩ := Option.bind_eq_some_iff.1 hl
  obtain ⟨q', hq', hloop'⟩ := Option.bind_eq_some_iff.1 hm
  rw [h.current] at hq' hloop'
  cases Option.some.inj (hq.symm.trans hq')
  exact numberLoop_twin (h.reset.add l.current.toList) hloop hloop' hn

theorem scanLiteral_twin (token : Token) (text : List UInt8) (h : Twin n l m)
    (hn : (scanLiteral token text l).2.position.charsReadTotal < n) :
    (scanLiteral token text m).1 = (scanLiteral token text l).1 ∧
      Twin n (scanLiteral token text l).2 (scanLiteral token text m).2 := by
  induction text generalizing l m with
  | nil => exact ⟨rfl, h⟩
  | cons b text ih =>
    have hget := h.get ((forward_scanLiteral token (b :: text) l).total.trans_lt hn)
    rw [scanLiteral] at hn ⊢
    rw [scanLiteral, hget.current]
    split_ifs at hn ⊢
    · exact ih hget hn
    · exact ⟨rfl, hget.fail _⟩

theorem scanToken_twin (h : Twin n l m) (hl : l.scanToken strtod = some (t, l'))
    (hm : m.scanToken strtod = some (t', m')) (hn : l'.position.charsReadTotal < n) :
    t' = t ∧ Twin n l' m' := by
  unfold scanToken at hl hm
  rw [h.current] at hm
  cases hcurrent : l.current with
  | none =>
    rw [hcurrent] at hl hm
    cases hl
    cases hm
    exact ⟨rfl, h⟩
  | some b =>
    rw [hcurrent] at hl hm
    cases hstructural : structural.lookup b with
    | some token =>
      simp only [hstructural] at hl hm
      cases hl
      cases hm
      exact ⟨rfl, h⟩
    | none =>
      cases hliteral : literals.lookup b with
      | some p =>
        obtain ⟨text, token⟩ := p
        simp only [hstructural, hliteral] at hl hm
        have htwin := scanLiteral_twin token text h (by rwa [Option.some.inj hl])
        rw [Option.some.inj hl, Option.some.inj hm] at htwin
        exact htwin
      | none =>
        simp only [hstructural, hliteral] at hl hm
        split_ifs at hl hm
        · exact scanString_twin h hl hm hn
        · exact scanNumber_twin h hl hm hn
        · cases hl
          cases hm
          exact ⟨rfl, h⟩
        · cases hl
          cases hm
          exact ⟨rfl, h.fail _⟩

theorem skipWhitespace_twin (h : Twin n l m) (hl : skipWhitespace rounds l = some l')
    (hm : skipWhitespace rounds' m = some m') (hn : l'.position.charsReadTotal < n) :
    Twin n l' m' := by
  induction rounds generalizing rounds' l m with
  | zero => cases hl
  | succ rounds ih =>
    cases rounds' with
    | zero => cases hm
    | succ rounds' =>
      have hget := h.get ((total_skipWhitespace hl).trans hn)
      rw [skipWhitespace] at hl hm
      rw [hget.current] at hm
      split_ifs at hl hm
      · exact ih hget hl hm
      · cases hl
        cases hm
        exact hget

theorem scanText_twin (h : Twin n l m) (hl : l.scanText strtod = some (t, l'))
    (hm : m.scanText strtod = some (t', m')) (hn : l'.position.charsReadTotal < n) :
    t' = t ∧ Twin n l' m' := by
  obtain ⟨l₁, hskip, hscan⟩ := Option.bind_eq_some_iff.1 hl
  obtain ⟨m₁, hskip', hscan'⟩ := Option.bind_eq_some_iff.1 hm
  have hn₁ := (forward_scanToken hscan).total.trans_lt hn
  exact scanToken_twin (skipWhitespace_twin h hskip hskip' hn₁) hscan hscan' hn

theorem skipBom_twin (h : Twin n l m) (hn : l.skipBom.2.position.charsReadTotal < n) :
    m.skipBom.1 = l.skipBom.1 ∧ Twin n l.skipBom.2 m.skipBom.2 := by
  have htotal := (forward_skipBom l).total.trans_lt hn
  have hget := h.get htotal
  have htotal₁ := Forward.total_get l.get
  have htotal₂ := Forward.total_get l.get.get
  unfold skipBom at hn ⊢
  rw [hget.current]
  by_cases hfirst : l.get.current = some 0xEF
  · rw [if_pos hfirst] at hn ⊢
    rw [if_pos hfirst]
    by_cases hsecond : l.get.get.current = some 0xBB
    · rw [if_pos hsecond] at hn ⊢
      have hn : l.get.get.get.position.charsReadTotal < n := hn
      have hget₂ := hget.get (by omega)
      have hget₃ := hget₂.get (by omega)
      rw [if_pos (hget₂.current.trans hsecond), hget₃.current]
      exact ⟨rfl, hget₃⟩
    · rw [if_neg hsecond] at hn ⊢
      have hn : l.get.get.position.charsReadTotal < n := hn
      have hget₂ := hget.get (by omega)
      rw [if_neg (hget₂.current.trans_ne hsecond)]
      exact ⟨rfl, hget₂⟩
  · rw [if_neg hfirst, if_neg hfirst]
    exact ⟨rfl, h.unget htotal⟩

theorem scan_twin (h : Twin n l m) (hl : l.scan strtod = some (t, l'))
    (hm : m.scan strtod = some (t', m')) (hn : l'.position.charsReadTotal < n) :
    t' = t ∧ Twin n l' m' := by
  unfold scan at hl hm
  rw [h.position] at hm
  split_ifs at hl hm
  · have htwin (hn : l.skipBom.2.position.charsReadTotal < n) := skipBom_twin h hn
    generalize m.skipBom = skipped' at hm htwin
    generalize l.skipBom = skipped at hl htwin
    obtain ⟨ok, l₁⟩ := skipped
    obtain ⟨ok', m₁⟩ := skipped'
    cases ok with
    | true =>
      obtain ⟨hok, htwin⟩ := htwin ((total_scanText hl).trans hn)
      have hok : ok' = true := hok
      subst hok
      exact scanText_twin htwin hl hm hn
    | false =>
      cases hl
      obtain ⟨hok, htwin⟩ := htwin hn
      have hok : ok' = false := hok
      subst hok
      cases hm
      exact ⟨rfl, htwin.fail _⟩
  · exact scanText_twin h hl hm hn

theorem total_scan (h : l.scan strtod = some (t, l')) :
    l.position.charsReadTotal ≤ l'.position.charsReadTotal := by
  by_cases htotal : l.position.charsReadTotal = 0
  · rw [htotal]
    exact Nat.zero_le _
  · rw [scan_eq (Nat.pos_of_ne_zero htotal)] at h
    exact (total_scanText h).le

/-! ### All the calls -/

variable {L L' : Lexer} {s : Scanned}

theorem scanAll_cases (h : scanAll strtod rounds l = some L) :
    ∃ token l' more, l.scan strtod = some (token, l') ∧ L.calls = l'.scanned token :: more ∧
      ((token = .endOfInput ∧ more = []) ∨
        token ≠ .endOfInput ∧ ∃ rounds' L', rounds = rounds' + 1 ∧
          scanAll strtod rounds' l' = some L' ∧ more = L'.calls) := by
  cases rounds with
  | zero => cases h
  | succ rounds =>
    rw [scanAll] at h
    split at h
    · cases h
    · rename_i token l' hscan
      split_ifs at h with hend
      · cases h
        exact ⟨token, l', [], hscan, rfl, .inl ⟨hend, rfl⟩⟩
      · split at h
        · cases h
        · rename_i L' hL'
          cases h
          exact ⟨token, l', L'.calls, hscan, rfl, .inr ⟨hend, rounds, L', rfl, hL', rfl⟩⟩

theorem total_le_of_mem (h : scanAll strtod rounds l = some L) (hs : s ∈ L.calls) :
    l.position.charsReadTotal ≤ s.position.charsReadTotal := by
  induction rounds generalizing l L with
  | zero => cases h
  | succ rounds ih =>
    obtain ⟨token, l', more, hscan, hcalls, hmore⟩ := scanAll_cases h
    have htotal := total_scan hscan
    rw [hcalls, List.mem_cons] at hs
    rcases hs with rfl | hs
    · exact htotal
    · rcases hmore with ⟨-, rfl⟩ | ⟨-, rounds', L', hrounds, hall, rfl⟩
      · cases hs
      · cases hrounds
        exact htotal.trans (ih hall hs)

/-- Calls that end before the position return the same. -/
theorem scanAll_twin {before after : List Scanned} (h : Twin n l m)
    (hl : scanAll strtod rounds l = some L) (hm : scanAll strtod rounds' m = some L')
    (hcalls : L.calls = before ++ s :: after) (hs : s.position.charsReadTotal < n) :
    before ++ [s] <+: L'.calls := by
  induction rounds generalizing rounds' l m L L' before with
  | zero => cases hl
  | succ rounds ih =>
    obtain ⟨token, l', more, hscan, hfirst, hmore⟩ := scanAll_cases hl
    obtain ⟨token', m', more', hscan', hfirst', hmore'⟩ := scanAll_cases hm
    rw [hfirst] at hcalls
    rw [hfirst']
    cases before with
    | nil =>
      obtain ⟨rfl, -⟩ := List.cons.inj hcalls
      obtain ⟨rfl, htwin⟩ := scan_twin h hscan hscan' hs
      rw [htwin.scanned]
      exact ⟨more', rfl⟩
    | cons first before =>
      obtain ⟨rfl, hrest⟩ := List.cons.inj hcalls
      rcases hmore with ⟨-, rfl⟩ | ⟨hend, rounds₁, L₁, hrounds, hall, rfl⟩
      · simp at hrest
      · cases hrounds
        have hmem : s ∈ L₁.calls := by rw [hrest]; simp
        obtain ⟨rfl, htwin⟩ :=
          scan_twin h hscan hscan' ((total_le_of_mem hall hmem).trans_lt hs)
        rcases hmore' with ⟨hend', -⟩ | ⟨-, rounds₂, L₂, -, hall', rfl⟩
        · exact absurd hend' hend
        · rw [htwin.scanned, List.cons_append, List.cons_prefix_cons]
          exact ⟨rfl, ih htwin hall hall' hrest⟩

end JsonLexer

namespace Parser

open JsonText JsonLexer

variable {trailing : Bool} {L : Lexer}

/-- What has been read begins what the calls return. -/
theorem Ahead.calls {read : List Scanned} {last : Scanned} {l : Lexer} {q : Spot}
    (h : Ahead L (read ++ [last]) l) (hfeed : feed trailing start (tokens read) = some q) :
    read ++ [last] <+: L.calls := by
  rcases h.place hfeed with ⟨rfl, rfl⟩ | hpending
  · exact List.prefix_rfl
  · exact hpending.trans (List.prefix_append _ _)

/-- A rejected token is in no text of the grammar. -/
theorem not_derives_of_calls {strtod : List UInt8 → Double} {rounds : ℕ} {l : JsonLexer}
    {read : List Scanned} {last : Scanned} {q : Spot} {v : Json}
    (hall : scanAll strtod rounds l = some L) (hcalls : read ++ [last] <+: L.calls)
    (hfeed : feed trailing start (tokens read) = some q)
    (hnext : next trailing q last.token = none)
    (hfinish : ∀ v, q = finish v → last.token ≠ .endOfInput) :
    ¬ Derives trailing L.text (.value v) := by
  intro hderives
  rcases List.prefix_concat_iff.1 hcalls with heq | ⟨more, hmore⟩
  · -- the calls end with the token
    obtain ⟨rfl, hlast⟩ := List.append_inj' heq rfl
    cases List.cons.inj hlast |>.1
    rw [derives_iff_feed, text_eq hall, hfeed] at hderives
    exact hfinish v (Option.some.inj hderives) L.eof_token
  · rw [text_eq hall, ← hmore, List.map_append, List.map_append] at hderives
    exact not_viable_concat hfeed hnext ⟨_, v, hderives⟩

/-- **An error stands**, however the file goes on: when the parser reports an error at a byte that
is not the last one of the file, no document begins with the bytes up to the one after it. -/
theorem error_stands (strtod : List UInt8 → Double) (trailing : Bool) (file : List UInt8)
    {id byte : ℕ} {what : String}
    (h : parseBytes strtod trailing file = some (.error (.thrown (.parseError id byte what))))
    (hbyte : byte < file.length) (more : List UInt8) (v : Json) :
    ¬ Document strtod trailing (file.take (byte + 1) ++ more) v := by
  obtain ⟨L, hfile, hparse⟩ := Option.bind_eq_some_iff.1 h
  obtain ⟨r, hr, hsafe⟩ := parse_safe trailing L
  rw [hparse] at hr
  cases hr
  obtain ⟨read, last, l, q, hahead, hreports, hfeed, hnext, hfinish⟩ := hsafe
  have hlast : last.position.charsReadTotal = byte := by cases hreports <;> rfl
  obtain ⟨after, hcalls⟩ := hahead.calls hfeed
  rw [List.append_assoc] at hcalls
  have htwin : Twin (byte + 1) { ia := file } { ia := file.take (byte + 1) ++ more } :=
    ⟨file.take (byte + 1), file.drop (byte + 1), more, (List.take_append_drop _ _).symm, rfl, by
      rw [List.length_take]
      simp
      omega⟩
  rw [← parseBytes_ok_iff]
  intro hdocument
  obtain ⟨L', hfile', hparse'⟩ := Option.bind_eq_some_iff.1 hdocument
  have hcalls' := scanAll_twin htwin hfile hfile' hcalls.symm (by omega)
  exact not_derives_of_calls hfile' hcalls' hfeed hnext hfinish
    ((parse_ok_iff trailing L' v).1 hparse')

/-- The error at the comma of `[,1]`. -/
theorem error_stands_sample :
    ¬ Document (fun _ => .fin 0) false ([0x5B, 0x2C, 0x31] ++ [0x5D]) (.array []) :=
  error_stands (fun _ => .fin 0) false [0x5B, 0x2C, 0x31, 0x5D] rfl (by decide) [0x5D] (.array [])

end Parser

end UltraMds
