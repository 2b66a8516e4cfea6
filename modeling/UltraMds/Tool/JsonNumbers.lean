import UltraMds.Tool.JsonStrings

/-!
# The scanner of numbers

The labels of `scan_number` are an automaton: `endsFrom_iff` is the language that it accepts.
`scanNumber_sound` and `scanNumber_complete` say the same of the scanner, which stops at the first
byte that belongs to no number.
-/

namespace UltraMds

namespace JsonLexer

open JsonText

variable {l l' : JsonLexer} {r r' buf bs : List UInt8} {b : UInt8}

/-! ### The automaton of numbers -/

/-- The number type with which the automaton ends after exactly these bytes. -/
def NumberState.ends : NumberState → TokenType → List UInt8 → Option TokenType
  | q, t, [] =>
    match q.goto none with
    | .done => some (q.numberType t)
    | _ => none
  | q, t, b :: w =>
    match q.goto (some b) with
    | .label q' => q'.ends (q.numberType t) w
    | _ => none

theorem isDigit_iff : isDigit b = true ↔ 0x30 ≤ b.toNat ∧ b.toNat ≤ 0x39 := by
  simp only [isDigit, Bool.and_eq_true, decide_eq_true_eq, UInt8.le_iff_toNat_le]
  rfl

variable {q q' : NumberState} {t t' : TokenType} {w ds f e : List UInt8}

/-- No part of a number begins with this. -/
def Separates (c : Option UInt8) : Prop :=
  ∀ b ∈ c, isDigit b = false ∧ b ≠ 0x2E ∧ b ≠ 0x65 ∧ b ≠ 0x45

theorem goto_separator {c : Option UInt8} (hc : Separates c) (hq : q.goto none = .done) :
    q.goto c = .done := by
  cases c with
  | none => exact hq
  | some b =>
    obtain ⟨hdigit, hpoint, he, hE⟩ := hc b rfl
    cases q <;> simp [NumberState.goto] at hq ⊢ <;> simp [hdigit, hpoint, he, hE]

theorem goto_done {c : Option UInt8} (h : q.goto c = .done) : q.goto none = .done := by
  cases q <;> unfold NumberState.goto at h ⊢ <;> simp only at h ⊢ <;> split_ifs at h <;> rfl

theorem goto_none_ne_label : q.goto none ≠ .label q' := by
  cases q <;> simp [NumberState.goto]

/-! What is spelled as it should is accepted. -/

theorem digits_cons : Digits (b :: ds) ↔ isDigit b = true ∧ Digits ds := by
  rw [isDigit_iff]
  exact List.forall_mem_cons

theorem ends_any2 (h : Digits ds) : NumberState.any2.ends t ds = some t := by
  induction ds with
  | nil => rfl
  | cons d ds ih =>
    obtain ⟨hd, hds⟩ := digits_cons.1 h
    simpa [NumberState.ends, NumberState.goto, NumberState.numberType, hd] using ih hds

theorem ends_sign (h : Digits (b :: ds)) : NumberState.sign.ends t (b :: ds) = some t := by
  obtain ⟨hd, hds⟩ := digits_cons.1 h
  simpa [NumberState.ends, NumberState.goto, NumberState.numberType, hd] using ends_any2 hds

theorem ends_exponent {sign : List UInt8} (hsign : sign = [] ∨ sign = [0x2B] ∨ sign = [0x2D])
    (h : Digits (b :: ds)) :
    NumberState.exponent.ends t (sign ++ b :: ds) = some .valueFloat := by
  obtain ⟨hd, hds⟩ := digits_cons.1 h
  rcases hsign with rfl | rfl | rfl
  · have hplus : b ≠ 0x2B := fun heq => by
      rw [heq] at hd
      exact absurd hd (by decide)
    have hminus : b ≠ 0x2D := fun heq => by
      rw [heq] at hd
      exact absurd hd (by decide)
    simpa [NumberState.ends, NumberState.goto, NumberState.numberType, hd, hplus, hminus]
      using ends_any2 (t := .valueFloat) hds
  · simpa [NumberState.ends, NumberState.goto, NumberState.numberType]
      using ends_sign (t := .valueFloat) h
  · simpa [NumberState.ends, NumberState.goto, NumberState.numberType]
      using ends_sign (t := .valueFloat) h

theorem ends_expPart (hq : q = .zero ∨ q = .any1 ∨ q = .decimal2) (he : ExpPart e) :
    q.ends t e = some (if e = [] then t else .valueFloat) := by
  cases he with
  | none => rcases hq with rfl | rfl | rfl <;> rfl
  | exponent he hsign hds =>
    have hexp := ends_exponent (t := t) hsign hds
    rcases he with rfl | rfl <;> rcases hq with rfl | rfl | rfl <;>
      simpa [NumberState.ends, NumberState.goto, NumberState.numberType, isDigit] using hexp

theorem ends_decimal2 (hds : Digits ds) (he : ExpPart e) :
    NumberState.decimal2.ends .valueFloat (ds ++ e) = some .valueFloat := by
  induction ds with
  | nil =>
    rw [List.nil_append, ends_expPart (.inr (.inr rfl)) he, ite_self]
  | cons d ds ih =>
    obtain ⟨hd, hds⟩ := digits_cons.1 hds
    simpa [NumberState.ends, NumberState.goto, NumberState.numberType, hd] using ih hds

theorem ends_fracPart (hq : q = .zero ∨ q = .any1) (hf : FracPart f) (he : ExpPart e) :
    q.ends t (f ++ e) = some (if f = [] ∧ e = [] then t else .valueFloat) := by
  cases hf with
  | none =>
    rw [List.nil_append, ends_expPart (hq.imp_right .inl) he]
    simp
  | @point d ds hds =>
    obtain ⟨hd, hds⟩ := digits_cons.1 hds
    have hrest := ends_decimal2 hds he
    have hpoint : isDigit 0x2E = false := rfl
    rcases hq with rfl | rfl <;>
      simpa [NumberState.ends, NumberState.goto, NumberState.numberType, hd, hpoint] using hrest

theorem ends_any1 (hds : Digits ds) (hf : FracPart f) (he : ExpPart e) :
    NumberState.any1.ends t (ds ++ (f ++ e)) =
      some (if f = [] ∧ e = [] then t else .valueFloat) := by
  induction ds with
  | nil => exact ends_fracPart (.inr rfl) hf he
  | cons d ds ih =>
    obtain ⟨hd, hds⟩ := digits_cons.1 hds
    simpa [NumberState.ends, NumberState.goto, NumberState.numberType, hd] using ih hds

/-! What is accepted is spelled as it should. -/

theorem any2_ends (h : NumberState.any2.ends t w = some t') : Digits w ∧ t' = t := by
  induction w with
  | nil =>
    cases h
    exact ⟨nofun, rfl⟩
  | cons b w ih =>
    simp only [NumberState.ends, NumberState.goto, Option.any_some] at h
    by_cases hb : isDigit b = true
    · simp only [hb, if_true] at h
      obtain ⟨hw, ht⟩ := ih h
      exact ⟨digits_cons.2 ⟨hb, hw⟩, ht⟩
    · simp [hb] at h

theorem sign_ends (h : NumberState.sign.ends t w = some t') :
    ∃ b ds, w = b :: ds ∧ Digits (b :: ds) ∧ t' = t := by
  cases w with
  | nil => simp [NumberState.ends, NumberState.goto] at h
  | cons b w =>
    simp only [NumberState.ends, NumberState.goto, Option.any_some] at h
    by_cases hb : isDigit b = true
    · simp only [hb, if_true] at h
      obtain ⟨hw, ht⟩ := any2_ends h
      exact ⟨b, w, rfl, digits_cons.2 ⟨hb, hw⟩, ht⟩
    · simp [hb] at h

theorem exponent_ends (h : NumberState.exponent.ends t w = some t') :
    ∃ sign b ds, w = sign ++ b :: ds ∧ (sign = [] ∨ sign = [0x2B] ∨ sign = [0x2D]) ∧
      Digits (b :: ds) ∧ t' = .valueFloat := by
  cases w with
  | nil => simp [NumberState.ends, NumberState.goto] at h
  | cons b w =>
    simp only [NumberState.ends, NumberState.goto, Option.any_some, Option.some.injEq,
      NumberState.numberType] at h
    by_cases hsign : b = 0x2B ∨ b = 0x2D
    · rw [if_pos hsign] at h
      obtain ⟨d, ds, rfl, hds, ht⟩ := sign_ends h
      exact ⟨[b], d, ds, rfl, .inr (hsign.imp (congrArg (fun b => [b])) (congrArg (fun b => [b]))),
        hds, ht⟩
    · rw [if_neg hsign] at h
      by_cases hb : isDigit b = true
      · simp only [hb, if_true] at h
        obtain ⟨hw, ht⟩ := any2_ends h
        exact ⟨[], b, w, rfl, .inl rfl, digits_cons.2 ⟨hb, hw⟩, ht⟩
      · simp [hb] at h

/-- What the states make of an exponent. -/
theorem expPart_of_ends (hb : b = 0x65 ∨ b = 0x45)
    (h : NumberState.exponent.ends t w = some t') :
    ExpPart (b :: w) ∧ t' = .valueFloat := by
  obtain ⟨sign, d, ds, rfl, hsign, hds, ht⟩ := exponent_ends h
  exact ⟨.exponent hb hsign hds, ht⟩

theorem decimal2_ends (h : NumberState.decimal2.ends .valueFloat w = some t') :
    ∃ ds e, w = ds ++ e ∧ Digits ds ∧ ExpPart e ∧ t' = .valueFloat := by
  induction w with
  | nil =>
    cases h
    exact ⟨[], [], rfl, nofun, .none, rfl⟩
  | cons b w ih =>
    simp only [NumberState.ends, NumberState.goto, Option.any_some, Option.some.injEq] at h
    by_cases hb : isDigit b = true
    · simp only [hb, if_true] at h
      obtain ⟨ds, e, rfl, hds, he, ht⟩ := ih h
      exact ⟨b :: ds, e, rfl, digits_cons.2 ⟨hb, hds⟩, he, ht⟩
    · rw [if_neg hb] at h
      by_cases hexp : b = 0x65 ∨ b = 0x45
      · rw [if_pos hexp] at h
        obtain ⟨he, ht⟩ := expPart_of_ends hexp h
        exact ⟨[], b :: w, rfl, nofun, he, ht⟩
      · simp [hexp] at h

theorem decimal1_ends (h : NumberState.decimal1.ends t w = some t') :
    ∃ b ds e, w = b :: ds ++ e ∧ Digits (b :: ds) ∧ ExpPart e ∧ t' = .valueFloat := by
  cases w with
  | nil => simp [NumberState.ends, NumberState.goto] at h
  | cons b w =>
    simp only [NumberState.ends, NumberState.goto, Option.any_some] at h
    by_cases hb : isDigit b = true
    · simp only [hb, if_true] at h
      obtain ⟨ds, e, rfl, hds, he, ht⟩ := decimal2_ends h
      exact ⟨b, ds, e, rfl, digits_cons.2 ⟨hb, hds⟩, he, ht⟩
    · simp [hb] at h

/-- A fraction and an exponent, after a number of type `t`. -/
def Rest (t : TokenType) (w : List UInt8) (t' : TokenType) : Prop :=
  ∃ f e, w = f ++ e ∧ FracPart f ∧ ExpPart e ∧ t' = if f = [] ∧ e = [] then t else .valueFloat

theorem Rest.nil : Rest t [] t := ⟨[], [], rfl, .none, .none, rfl⟩

/-- What both `zero` and `any1` do at a point or an exponent. -/
theorem rest_of_point (h : NumberState.decimal1.ends t w = some t') :
    Rest t (0x2E :: w) t' := by
  obtain ⟨d, ds, e, rfl, hds, he, rfl⟩ := decimal1_ends h
  exact ⟨0x2E :: d :: ds, e, rfl, .point hds, he, rfl⟩

theorem rest_of_exponent (hb : b = 0x65 ∨ b = 0x45)
    (h : NumberState.exponent.ends t w = some t') : Rest t (b :: w) t' := by
  obtain ⟨he, rfl⟩ := expPart_of_ends hb h
  exact ⟨[], b :: w, rfl, .none, he, rfl⟩

theorem zero_ends (h : NumberState.zero.ends t w = some t') : Rest t w t' := by
  cases w with
  | nil =>
    cases h
    exact .nil
  | cons b w =>
    simp only [NumberState.ends, NumberState.goto, Option.some.injEq] at h
    by_cases hpoint : b = 0x2E
    · rw [if_pos hpoint] at h
      exact hpoint ▸ rest_of_point h
    · rw [if_neg hpoint] at h
      by_cases hexp : b = 0x65 ∨ b = 0x45
      · rw [if_pos hexp] at h
        exact rest_of_exponent hexp h
      · simp [hexp] at h

theorem any1_ends (h : NumberState.any1.ends t w = some t') :
    ∃ ds w', w = ds ++ w' ∧ Digits ds ∧ Rest t w' t' := by
  induction w with
  | nil =>
    cases h
    exact ⟨[], [], rfl, nofun, .nil⟩
  | cons b w ih =>
    simp only [NumberState.ends, NumberState.goto, Option.any_some, Option.some.injEq] at h
    by_cases hb : isDigit b = true
    · rw [if_pos hb] at h
      obtain ⟨ds, w', rfl, hds, hrest⟩ := ih h
      exact ⟨b :: ds, w', rfl, digits_cons.2 ⟨hb, hds⟩, hrest⟩
    rw [if_neg hb] at h
    by_cases hpoint : b = 0x2E
    · rw [if_pos hpoint] at h
      exact ⟨[], b :: w, rfl, nofun, hpoint ▸ rest_of_point h⟩
    rw [if_neg hpoint] at h
    by_cases hexp : b = 0x65 ∨ b = 0x45
    · rw [if_pos hexp] at h
      exact ⟨[], b :: w, rfl, nofun, rest_of_exponent hexp h⟩
    · simp [hexp] at h

/-! Whole numbers. -/

/-- The label after the first digit. -/
def digitLabel (b : UInt8) : Option NumberState :=
  if b = 0x30 then some .zero else if isDigit b then some .any1 else none

/-- The automaton from the first digit on. -/
def endsFrom (t : TokenType) : List UInt8 → Option TokenType
  | [] => none
  | b :: w => (digitLabel b).bind fun q => q.ends t w

theorem minus_ends : NumberState.minus.ends t w = endsFrom .valueInteger w := by
  cases w with
  | nil => rfl
  | cons b w =>
    simp only [NumberState.ends, NumberState.goto, NumberState.numberType, Option.any_some,
      Option.some.injEq, endsFrom, digitLabel]
    split_ifs <;> rfl

/-- **The automaton accepts exactly the numbers** without their sign. -/
theorem endsFrom_iff : endsFrom t w = some t' ↔
    ∃ int f e, w = int ++ (f ++ e) ∧ IntPart int ∧ FracPart f ∧ ExpPart e ∧
      t' = if f = [] ∧ e = [] then t else .valueFloat := by
  constructor
  · intro h
    cases w with
    | nil => cases h
    | cons b w =>
      obtain ⟨q, hq, hends⟩ := Option.bind_eq_some_iff.1 h
      unfold digitLabel at hq
      split_ifs at hq with hzero hdigit
      · cases hq
        obtain ⟨f, e, rfl, hf, he, ht⟩ := zero_ends hends
        exact ⟨[b], f, e, rfl, hzero ▸ .zero, hf, he, ht⟩
      · cases hq
        obtain ⟨ds, w', rfl, hds, f, e, rfl, hf, he, ht⟩ := any1_ends hends
        refine ⟨b :: ds, f, e, rfl, .digits ?_ hds, hf, he, ht⟩
        have hb := isDigit_iff.1 hdigit
        have hne : b.toNat ≠ 0x30 := fun heq => hzero (UInt8.toNat_inj.1 heq)
        omega
  · rintro ⟨int, f, e, rfl, hint, hf, he, rfl⟩
    cases hint with
    | zero => exact ends_fracPart (.inl rfl) hf he
    | @digits d ds hd hds =>
      have hzero : d ≠ 0x30 := fun heq => by
        rw [heq] at hd
        exact absurd hd (by decide)
      have hdigit : isDigit d = true := isDigit_iff.2 ⟨by omega, hd.2⟩
      have hlabel : digitLabel d = some .any1 := by
        rw [digitLabel, if_neg hzero, if_pos hdigit]
      show (digitLabel d).bind (fun q => q.ends t (ds ++ (f ++ e))) = _
      rw [hlabel]
      exact ends_any1 hds hf he

/-! ### Numbers -/

variable {strtod : List UInt8 → Double}

variable (strtod) in
theorem numberLoop_complete {rounds : ℕ} (hends : q.ends t w = some t')
    (hsep : Separates r.head?) (h : At l (w ++ r) buf) (hrounds : w.length < rounds) :
    ∃ l', numberLoop strtod rounds q t l = some (convert strtod t' (buf ++ w), l') ∧
      At l' r (buf ++ w) := by
  induction w generalizing q t l buf rounds with
  | nil =>
    obtain ⟨rounds, rfl⟩ := Nat.exists_eq_succ_of_ne_zero (Nat.ne_zero_of_lt hrounds)
    rw [NumberState.ends] at hends
    split at hends
    · rename_i hdone
      cases hends
      rw [List.nil_append] at h
      rw [numberLoop, h.current, goto_separator hsep hdone, List.append_nil, h.get.buffer]
      exact ⟨_, rfl, h.unget⟩
    · cases hends
  | cons b w ih =>
    obtain ⟨rounds, rfl⟩ := Nat.exists_eq_succ_of_ne_zero (Nat.ne_zero_of_lt hrounds)
    obtain ⟨hcurrent, hget⟩ := h.get_cons
    rw [NumberState.ends] at hends
    split at hends
    · rename_i q' hlabel
      obtain ⟨l', hloop, hat⟩ := ih hends (hget.add [b]) (Nat.lt_of_succ_lt_succ hrounds)
      rw [numberLoop, hcurrent, hlabel, Option.toList_some]
      rw [List.append_assoc] at hloop hat
      exact ⟨l', hloop, hat⟩
    · cases hends

theorem numberLoop_sound {rounds : ℕ} {token : Token} (h : At l r buf)
    (hloop : numberLoop strtod rounds q t l = some (token, l')) (htoken : token ≠ .parseError) :
    ∃ w r' t', q.ends t w = some t' ∧ r = w ++ r' ∧ token = convert strtod t' (buf ++ w) ∧
      At l' r' (buf ++ w) := by
  induction rounds generalizing q t l r buf with
  | zero => cases hloop
  | succ rounds ih =>
    rw [numberLoop] at hloop
    split at hloop
    · rename_i q' hlabel
      cases hcurrent : l.get.current with
      | none =>
        rw [hcurrent] at hlabel
        exact absurd hlabel goto_none_ne_label
      | some b =>
        obtain ⟨r₁, rfl, hget⟩ := h.of_current hcurrent
        rw [hcurrent] at hlabel hloop
        obtain ⟨w, r', t', hends, rfl, htok, hat⟩ := ih (hget.add [b]) hloop
        rw [List.append_assoc] at htok hat
        refine ⟨b :: w, r', t', ?_, rfl, htok, hat⟩
        rw [NumberState.ends, hlabel]
        exact hends
    · rename_i hdone
      cases hloop
      refine ⟨[], r, q.numberType t, ?_, rfl, ?_, ?_⟩
      · rw [NumberState.ends, goto_done hdone]
      · rw [List.append_nil, h.get.buffer]
      · rw [List.append_nil]
        exact h.unget
    · cases hloop
      exact absurd rfl htoken

theorem numberLoop_ends {rounds : ℕ} (h : At l r buf) (hrounds : r.length < rounds) :
    ∃ token l', numberLoop strtod rounds q t l = some (token, l') := by
  induction rounds generalizing q t l r buf with
  | zero => exact absurd hrounds (Nat.not_lt_zero _)
  | succ rounds ih =>
    rw [numberLoop]
    split
    · rename_i q' hlabel
      cases hcurrent : l.get.current with
      | none =>
        rw [hcurrent] at hlabel
        exact absurd hlabel goto_none_ne_label
      | some b =>
        obtain ⟨r₁, rfl, hget⟩ := h.of_current hcurrent
        exact ih (hget.add _) (Nat.lt_of_succ_lt_succ hrounds)
    · exact ⟨_, _, rfl⟩
    · exact ⟨_, _, rfl⟩

theorem decimal_eq (ds : List UInt8) : decimal ds = digitsValue ds := by
  unfold decimal digitsValue
  induction ds using List.reverseRecOn with
  | nil => rfl
  | append_singleton ds d ih =>
    rw [List.foldl_append, ih, List.reverse_append, List.reverse_singleton, List.singleton_append,
      List.map_cons, Nat.ofDigits_cons]
    exact Nat.add_comm _ _

variable (strtod) in
/-- The conversion of what has been read. -/
theorem convert_eq (negative : Bool) (int f e : List UInt8) :
    convert strtod (if f = [] ∧ e = [] then if negative then .valueInteger else .valueUnsigned
        else .valueFloat) ((if negative then [0x2D] else []) ++ (int ++ (f ++ e))) =
      numberToken strtod negative int f e := by
  unfold numberToken
  simp only [← List.append_assoc]
  by_cases hint : f = [] ∧ e = []
  · obtain ⟨rfl, rfl⟩ := hint
    cases negative <;> simp [convert, decimal_eq]
  · rw [if_neg hint, if_neg hint]
    rfl

theorem firstLabel_digit (hb : digitLabel b = some q) : firstLabel b = some q := by
  unfold digitLabel at hb
  split_ifs at hb with hzero hdigit
  · rw [firstLabel, if_neg (hzero ▸ by decide), if_pos hzero, hb]
  · have hminus : b ≠ 0x2D := fun heq => by
      rw [heq] at hdigit
      exact absurd hdigit (by decide)
    rw [firstLabel, if_neg hminus, if_neg hzero, if_pos hdigit, hb]

theorem scanNumber_complete {negative : Bool} {int : List UInt8} (hint : IntPart int)
    (hf : FracPart f) (he : ExpPart e)
    (hbytes : (if negative then [0x2D] else []) ++ (int ++ (f ++ e)) = b :: w)
    (hcurrent : l.current = some b) (hsep : Separates r.head?) (h : At l (w ++ r) buf) :
    ∃ l' buf', l.scanNumber strtod = some (numberToken strtod negative int f e, l') ∧
      At l' r buf' := by
  have hlen : w.length ≤ (w ++ r).length := by simp
  have hat := h.reset.add [b]
  have hlt := hlen.trans_lt hat.lt_rounds
  have hends (t : TokenType) := (endsFrom_iff (t := t)).2 ⟨int, f, e, rfl, hint, hf, he, rfl⟩
  have hconvert := convert_eq strtod negative int f e
  rw [hbytes] at hconvert
  cases negative with
  | true =>
    cases hbytes
    obtain ⟨l', hloop, hat'⟩ := numberLoop_complete strtod
      (minus_ends.trans (hends .valueInteger)) hsep hat hlt
    refine ⟨l', _, ?_, hat'⟩
    rw [scanNumber, hcurrent]
    exact hloop.trans (congrArg (fun t => some (t, l')) hconvert)
  | false =>
    have hbytes : int ++ (f ++ e) = b :: w := hbytes
    have hfrom := hends .valueUnsigned
    rw [hbytes] at hfrom
    obtain ⟨q, hq, hfrom⟩ := Option.bind_eq_some_iff.1 hfrom
    obtain ⟨l', hloop, hat'⟩ := numberLoop_complete strtod hfrom hsep hat hlt
    refine ⟨l', _, ?_, hat'⟩
    rw [scanNumber, hcurrent, Option.bind_some, firstLabel_digit hq]
    exact hloop.trans (congrArg (fun t => some (t, l')) hconvert)

theorem scanNumber_sound {token : Token} (hcurrent : l.current = some b) (h : At l r buf)
    (hscan : l.scanNumber strtod = some (token, l')) (htoken : token ≠ .parseError) :
    ∃ negative int f e r' buf', IntPart int ∧ FracPart f ∧ ExpPart e ∧
      b :: r = (if negative then [0x2D] else []) ++ (int ++ (f ++ e)) ++ r' ∧
      token = numberToken strtod negative int f e ∧ At l' r' buf' := by
  rw [scanNumber, hcurrent, Option.bind_some] at hscan
  obtain ⟨q, hq, hloop⟩ := Option.bind_eq_some_iff.1 hscan
  obtain ⟨w, r', t', hends, rfl, htok, hat⟩ := numberLoop_sound (h.reset.add [b]) hloop htoken
  unfold firstLabel at hq
  by_cases hminus : b = 0x2D
  · rw [if_pos hminus] at hq
    cases hq
    rw [minus_ends] at hends
    obtain ⟨int, f, e, rfl, hint, hf, he, rfl⟩ := endsFrom_iff.1 hends
    rw [hminus] at htok ⊢
    have htok := htok.trans (convert_eq strtod true int f e)
    exact ⟨true, int, f, e, r', _, hint, hf, he, rfl, htok, hat⟩
  · rw [if_neg hminus] at hq
    have hfrom : endsFrom .valueUnsigned (b :: w) = some t' :=
      Option.bind_eq_some_iff.2 ⟨q, hq, hends⟩
    obtain ⟨int, f, e, hbytes, hint, hf, he, rfl⟩ := endsFrom_iff.1 hfrom
    refine ⟨false, int, f, e, r', _, hint, hf, he, congrArg (· ++ r') hbytes, htok.trans ?_, hat⟩
    rw [← convert_eq strtod false int f e]
    exact congrArg (convert strtod _) hbytes

end JsonLexer

end UltraMds
