import Mathlib.Data.List.TakeWhile
import UltraMds.Tool.JsonParser

/-!
# The parser reads the grammar

The loop of the parser is the reader of JSON texts (`JsonText.next`), and the builder's tree of
pointers is what the reader keeps in its frames (`Ready`, `Filled`): each round feeds the reader
the tokens that it scans (`round_safe`).

* `parse_iff`: the parser returns a value exactly for the texts of the grammar, and the value of
  the text; it always ends, and no assertion of the builder fails;
* `parse_error_first`: it stops at the first token with which no text goes on.
-/

namespace UltraMds

open JsonText

/-! ### Pointers into open containers -/

namespace JsonText.Frame

/-- An array. -/
def isArray : Frame → Bool
  | .array _ => true
  | .object _ _ => false

/-- From the container to the place of its next value. -/
def pointerStep : Frame → PointerStep
  | .array items => .index items.length
  | .object _ key => .key key

/-- The container while it waits for the value. -/
def waiting : Frame → Json
  | .array items => .array items
  | .object members key => .object (Json.access (Json.storeAll members) key)

/-- The container with the value. -/
def wrap (v : Json) : Frame → Json
  | .array items => .array (items ++ [v])
  | .object members key => .object (Json.store (Json.storeAll members) key v)

theorem deref_wrap (f : Frame) (v : Json) (p : Pointer) :
    (f.wrap v).deref (f.pointerStep :: p) = v.deref p := by
  cases f with
  | array items =>
    show (items ++ [v])[items.length]?.bind (Json.deref p) = _
    simp
  | object members key =>
    show ((Json.store (Json.storeAll members) key v).lookup key).bind (Json.deref p) = _
    rw [Json.lookup_store, if_pos rfl]
    rfl

theorem modifyAt_wrap (f : Frame) (g : Json → Json) (v : Json) (p : Pointer) :
    (f.wrap v).modifyAt g (f.pointerStep :: p) = f.wrap (v.modifyAt g p) := by
  cases f with
  | array items =>
    show Json.array ((items ++ [v]).modify items.length (Json.modifyAt g p)) = _
    simp [List.modify_eq_take_drop, wrap]
  | object members key =>
    show Json.object (Json.modifyKey key (Json.modifyAt g p) (Json.store _ key v)) = _
    unfold wrap Json.store Json.modifyKey
    rw [List.map_map]
    congr 1
    refine List.map_congr_left fun m _ => ?_
    by_cases hm : m.1 = key <;> simp [hm]

end JsonText.Frame

/-- The tokens of the file, up to the end of the input. -/
def Lexer.text (L : Lexer) : List Token :=
  (L.pending.map Scanned.token).takeWhile (· ≠ .endOfInput)

namespace Parser

/-- The root while `j` is in the hole of the open containers. -/
def assemble (j : Json) : List Frame → Json
  | [] => j
  | f :: fs => assemble (f.wrap j) fs

/-- The pointer to the hole. -/
def pointerTo : List Frame → Pointer
  | [] => []
  | f :: fs => pointerTo fs ++ [f.pointerStep]

/-- The pointers to the open containers. -/
def pointersTo : List Frame → List Pointer
  | [] => []
  | _ :: fs => pointerTo fs :: pointersTo fs

theorem deref_assemble (fs : List Frame) (j : Json) (p : Pointer) :
    (assemble j fs).deref (pointerTo fs ++ p) = j.deref p := by
  induction fs generalizing j p with
  | nil => rfl
  | cons f fs ih =>
    rw [assemble, pointerTo, List.append_assoc, List.singleton_append, ih]
    exact f.deref_wrap j p

theorem modifyAt_assemble (fs : List Frame) (g : Json → Json) (j : Json) (p : Pointer) :
    (assemble j fs).modifyAt g (pointerTo fs ++ p) = assemble (j.modifyAt g p) fs := by
  induction fs generalizing j p with
  | nil => rfl
  | cons f fs ih =>
    rw [assemble, pointerTo, List.append_assoc, List.singleton_append, ih, assemble,
      f.modifyAt_wrap]

theorem deref_hole (fs : List Frame) (j : Json) :
    (assemble j fs).deref (pointerTo fs) = some j := by
  have h := deref_assemble fs j []
  rwa [List.append_nil] at h

theorem modifyAt_hole (fs : List Frame) (g : Json → Json) (j : Json) :
    (assemble j fs).modifyAt g (pointerTo fs) = assemble (g j) fs := by
  have h := modifyAt_assemble fs g j []
  rwa [List.append_nil] at h

/-! ### The events -/

/-- The container `j` is open in the hole of `fs`. -/
structure Holding (fs : List Frame) (j : Json) (d : JsonSaxDomParser) : Prop where
  refStack : d.refStack = pointerTo fs :: pointersTo fs
  root : d.root = assemble j fs

/-- A value can be put into the hole of the open containers. -/
def Ready (d : JsonSaxDomParser) : List Frame → Prop
  | [] => d.refStack = []
  | f :: fs => Holding fs f.waiting d ∧
      (f.isArray = false → d.objectElement = some (pointerTo (f :: fs)))

/-- The value `v` is in the hole of the open containers. -/
structure Filled (fs : List Frame) (v : Json) (d : JsonSaxDomParser) : Prop where
  refStack : d.refStack = pointersTo fs
  root : d.root = assemble v fs

section

variable {d : JsonSaxDomParser} {fs : List Frame}

theorem Holding.array {items : List Json} (h : Holding fs (.array items) d) :
    Ready d (.array items :: fs) := ⟨h, nofun⟩

theorem handleValue_ok (h : Ready d fs) (v : Json) :
    ∃ d', d.handleValue v = some (d', pointerTo fs) ∧ Filled fs v d' := by
  cases fs with
  | nil =>
    have hstack : d.refStack = [] := h
    refine ⟨{ d with root := v }, ?_, hstack, rfl⟩
    unfold JsonSaxDomParser.handleValue
    rw [hstack]
    rfl
  | cons f fs =>
    obtain ⟨⟨hstack, hroot⟩, helement⟩ := h
    have hderef := deref_hole fs f.waiting
    cases f with
    | array items =>
      refine ⟨{ d with root := assemble (.array (items ++ [v])) fs }, ?_, hstack, rfl⟩
      have hmodify := modifyAt_hole fs (Json.emplaceBack v) (Frame.waiting (.array items))
      unfold JsonSaxDomParser.handleValue
      rw [hstack, hroot]
      simp only [hderef, hmodify]
      rfl
    | object members key =>
      refine ⟨{ d with root := assemble (Frame.wrap v (.object members key)) fs }, ?_, hstack,
        rfl⟩
      have hmodify := modifyAt_assemble fs (fun _ => v) (Frame.waiting (.object members key))
        [.key key]
      unfold JsonSaxDomParser.handleValue
      rw [hstack, hroot, helement rfl]
      simp only [hderef]
      show some (_, _) = _
      rw [pointerTo, Frame.pointerStep, hmodify]
      rfl

theorem value_ok (h : Ready d fs) (v : Json) : ∃ d', d.value v = some d' ∧ Filled fs v d' := by
  obtain ⟨d', hd', hfilled⟩ := handleValue_ok h v
  refine ⟨d', ?_, hfilled⟩
  rw [JsonSaxDomParser.value, hd']
  rfl

theorem startContainer_ok (h : Ready d fs) (v : Json) :
    ∃ d', d.startContainer v = some d' ∧ Holding fs v d' := by
  obtain ⟨d', hd', hfilled⟩ := handleValue_ok h v
  refine ⟨{ d' with refStack := pointerTo fs :: d'.refStack }, ?_, ?_, hfilled.root⟩
  · rw [JsonSaxDomParser.startContainer, hd']
    rfl
  · rw [hfilled.refStack]

theorem key_ok {members : List (String × Json)} (h : Holding fs (.object (Json.storeAll members)) d)
    (key : String) : ∃ d', d.key key = some d' ∧ Ready d' (.object members key :: fs) := by
  have hderef := deref_hole fs (.object (Json.storeAll members))
  have hmodify := modifyAt_hole fs (fun _ => .object (Json.access (Json.storeAll members) key))
    (.object (Json.storeAll members))
  refine ⟨{ d with root := _, objectElement := some (pointerTo fs ++ [.key key]) }, ?_,
    ⟨h.refStack, rfl⟩, fun _ => rfl⟩
  unfold JsonSaxDomParser.key
  rw [h.refStack, h.root]
  simp only [hderef, hmodify]
  rfl

theorem endContainer_ok {v : Json} {is : Json → Bool} (h : Holding fs v d) (hv : is v = true) :
    ∃ d', d.endContainer is = some d' ∧ Filled fs v d' := by
  refine ⟨{ d with refStack := pointersTo fs }, ?_, rfl, h.root⟩
  unfold JsonSaxDomParser.endContainer
  rw [h.refStack, h.root]
  simp only [deref_hole, Option.any_some, hv]
  rfl

end

/-! ### The rounds of the loop -/

/-- What has been scanned, up to the state `l` of the lexer, of what the lexer `L` has. -/
structure Ahead (L : Lexer) (read : List Scanned) (l : Lexer) : Prop where
  eof : l.eof = L.eof
  text : ∃ m, L.pending ++ List.replicate m L.eof = read ++ l.pending

theorem Ahead.scan {L l : Lexer} {read : List Scanned} (h : Ahead L read l) :
    Ahead L (read ++ [l.scan.1]) l.scan.2 := by
  obtain ⟨heof, m, hm⟩ := h
  unfold Lexer.scan
  cases hpending : l.pending with
  | nil =>
    refine ⟨heof, m + 1, ?_⟩
    rw [List.replicate_succ', ← List.append_assoc, hm, hpending, ← heof]
    simp
  | cons s pending =>
    refine ⟨heof, m, ?_⟩
    rw [hm, hpending]
    simp

/-- The tokens of what has been scanned. -/
abbrev tokens (read : List Scanned) : List Token := read.map Scanned.token

/-- What is left to do: the tokens that are not scanned, and the last one. -/
def weight (s : Parser) : ℕ :=
  s.lexer.pending.length + if s.last.token = .endOfInput then 0 else 1

section

variable (trailing : Bool)

/-- What an error message expects after these tokens could be there.  Where it expects a literal,
every first token of a value could be. -/
def Expected (ts : List Token) : TokenType → Prop
  | .uninitialized => True
  | .endOfInput => ∃ v, Derives trailing ts (.value v)
  | .literalOrValue => ∀ t, readValue [] t ≠ none → Viable trailing (ts ++ [t])
  | expected => ∀ t, t.type = expected → Viable trailing (ts ++ [t])

/-- The errors that the parser reports at a token after the tokens `ts`. -/
inductive Reports (ts : List Token) (last : Scanned) : JsonException → Prop
  | syntaxError {expected : TokenType} (context : String) (h : Expected trailing ts expected) :
      Reports ts last (last.syntaxError expected context)
  | emptyInput (h : last.token = .endOfInput) : Reports ts last last.emptyInput
  | numberOverflow {d : Double} (h : last.token = .valueFloat d) :
      Reports ts last last.numberOverflow

variable (L : Lexer)

/-- An error is reported at a token that the reader rejects.  At the end of the file the text was
not complete. -/
def Rejected (e : JsonException) : Prop :=
  ∃ read last l q, Ahead L (read ++ [last]) l ∧ Reports trailing (tokens read) last e ∧
    feed trailing start (tokens read) = some q ∧ next trailing q last.token = none ∧
    ∀ v, q = finish v → last.token ≠ .endOfInput

/-- A part of the parser succeeds with `post`, or it reports an error where the reader does; it
does not fail an assertion. -/
def Safe {α : Type} (post : α → Prop) : Except Stop α → Prop
  | .ok a => post a
  | .error (.thrown e) => Rejected trailing L e
  | .error .assertion => False

/-- The last token is the first one of a value, for the hole of the frames. -/
structure Reading (s : Parser) (fs : List Frame) : Prop where
  ready : Ready s.sax fs
  reads : ∃ read q, Ahead L (read ++ [s.last]) s.lexer ∧
    feed trailing start (tokens read) = some q ∧
    (∀ t, t = s.last.token ∨ t ≠ .endArray → next trailing q t = readValue fs t) ∧
    ∀ v, q ≠ finish v

/-- The last token is the last one of the value `v`. -/
structure Done (s : Parser) (fs : List Frame) (v : Json) : Prop where
  filled : Filled fs v s.sax
  reads : ∃ read, Ahead L read s.lexer ∧ feed trailing start (tokens read) = some ⟨fs, .after v⟩
  last : s.last.token ≠ .endOfInput

/-- What a pass through the `switch` has done: a value, or the beginning of a container. -/
inductive Switched (s : Parser) (fs : List Frame) : Bool × Parser → Prop
  | value {s' : Parser} {v : Json} (hdone : Done trailing L s' fs v)
      (hstates : s'.states = s.states)
      (hskip : s'.skipToStateEvaluation = s.skipToStateEvaluation)
      (hweight : s'.weight ≤ s.weight) : Switched s fs (true, s')
  | opened {s' : Parser} {f : Frame} (hreading : Reading trailing L s' (f :: fs))
      (hstates : s'.states = f.isArray :: s.states)
      (hskip : s'.skipToStateEvaluation = s.skipToStateEvaluation)
      (hweight : s'.weight < s.weight) : Switched s fs (false, s')

/-- The parser between two rounds. -/
inductive Between (s : Parser) : Prop
  | reading {fs : List Frame} (hreading : Reading trailing L s fs)
      (hstates : s.states = fs.map Frame.isArray) (hskip : s.skipToStateEvaluation = false)
  | done {fs : List Frame} {v : Json} (hdone : Done trailing L s fs v)
      (hstates : s.states = fs.map Frame.isArray) (hskip : s.skipToStateEvaluation = true)

/-- What a round has done: it goes on, with less to do, or the text of a value is read. -/
inductive RoundOk (s : Parser) : Parser ⊕ Parser → Prop
  | goesOn {s' : Parser} (hbetween : Between trailing L s') (hweight : s'.weight < s.weight) :
      RoundOk s (.inl s')
  | ends {s' : Parser} {v : Json} (hdone : Done trailing L s' [] v) : RoundOk s (.inr s')

end

section

variable {trailing : Bool} {L : Lexer}

theorem Safe.bind {α β : Type} {post : α → Prop} {post' : β → Prop} {x : Except Stop α}
    {f : α → Except Stop β} (h : Safe trailing L post x)
    (hf : ∀ a, post a → Safe trailing L post' (f a)) : Safe trailing L post' (x >>= f) := by
  cases x with
  | ok a => exact hf a h
  | error stop =>
    cases stop with
    | thrown e => exact h
    | assertion => exact h

theorem Safe.check {α : Type} {post : α → Prop} {o : Option α} (h : ∃ a, o = some a ∧ post a) :
    Safe trailing L post (Parser.check o) := by
  obtain ⟨a, rfl, ha⟩ := h
  exact ha

theorem Safe.error {α β : Type} {post : α → Prop} {post' : β → Prop} {stop : Stop}
    (h : Safe trailing L post (.error stop)) : Safe trailing L post' (.error stop) := by
  cases stop with
  | thrown e => exact h
  | assertion => exact h

theorem Safe.imp {α : Type} {post post' : α → Prop} {x : Except Stop α}
    (h : Safe trailing L post x) (himp : ∀ a, post a → post' a) : Safe trailing L post' x := by
  cases x with
  | ok a => exact himp a h
  | error stop =>
    cases stop with
    | thrown e => exact h
    | assertion => exact h

theorem Safe.map {α β : Type} {post : β → Prop} {x : Except Stop α} {f : α → β}
    (h : Safe trailing L (fun a => post (f a)) x) : Safe trailing L post (f <$> x) := by
  cases x with
  | ok a => exact h
  | error stop =>
    cases stop with
    | thrown e => exact h
    | assertion => exact h

/-- The reader over one more token. -/
theorem feed_tokens_concat {read : List Scanned} {last : Scanned} {q q' : Spot}
    (h : feed trailing start (tokens read) = some q)
    (hnext : next trailing q last.token = some q') :
    feed trailing start (tokens (read ++ [last])) = some q' := by
  rw [tokens, List.map_append]
  exact Acceptor.feed_concat h hnext

theorem weight_getToken_le {s : Parser} (h : s.last.token ≠ .endOfInput) :
    s.getToken.weight + 1 ≤ s.weight := by
  unfold Parser.weight Parser.getToken Lexer.scan
  rw [if_neg h]
  cases hpending : s.lexer.pending with
  | nil => simp [hpending, s.lexer.eof_token]
  | cons t pending =>
    simp only [List.length_cons]
    split_ifs <;> omega

variable {s : Parser} {fs : List Frame}

/-- A scalar token. -/
theorem scalar_safe {v : Json} (h : Reading trailing L s fs)
    (hv : scalar? s.last.token = some v) (hend : s.last.token ≠ .endOfInput) :
    Safe trailing L (Switched trailing L s fs) (s.scalar v) := by
  obtain ⟨hready, read, q, hahead, hfeed, hnext, -⟩ := h
  refine Safe.bind (Safe.check (value_ok hready v)) fun sax hfilled => ?_
  show Switched trailing L s fs (true, { s with sax })
  refine .value (v := v) ⟨hfilled, ⟨_, hahead, ?_⟩, hend⟩ rfl rfl le_rfl
  exact feed_tokens_concat hfeed ((hnext _ (.inl rfl)).trans (scalar_next hv fs))

/-- Whether a token begins a value does not depend on where. -/
theorem readValue_ne_none (fs : List Frame) {t : Token} (h : readValue [] t ≠ none) :
    readValue fs t ≠ none := by
  cases t with
  | valueFloat d => cases d <;> simp_all [readValue, scalar?]
  | _ => simp_all [readValue, scalar?]

/-- A token that the reader rejects. -/
theorem rejected_safe {α : Type} {post : α → Prop} {e : JsonException} {read : List Scanned}
    {q : Spot} (hahead : Ahead L (read ++ [s.last]) s.lexer)
    (hfeed : feed trailing start (tokens read) = some q)
    (hnext : next trailing q s.last.token = none) (hfinish : ∀ v, q ≠ finish v)
    (he : Reports trailing (tokens read) s.last e) :
    Safe trailing L post (.error (.thrown e)) :=
  ⟨read, s.last, s.lexer, q, hahead, he, hfeed, hnext, fun v hv => absurd hv (hfinish v)⟩

/-- What the reader takes next is rightly expected. -/
theorem expected_of_next {read : List Scanned} {q : Spot} {expected : TokenType}
    (hfeed : feed trailing start (tokens read) = some q)
    (hnext : ∀ t : Token, t.type = expected → ∃ q', next trailing q t = some q') (t : Token)
    (ht : t.type = expected) : Viable trailing (tokens read ++ [t]) := by
  obtain ⟨q', hq'⟩ := hnext t ht
  exact viable_concat hfeed hq'

/-- A token that begins no value. -/
theorem Reading.rejected (h : Reading trailing L s fs) {α : Type} {post : α → Prop}
    {e : JsonException} (hvalue : readValue fs s.last.token = none)
    (he : ∀ ts, Expected trailing ts .literalOrValue → Reports trailing ts s.last e) :
    Safe trailing L post (.error (.thrown e)) := by
  obtain ⟨-, read, q, hahead, hfeed, hnext, hfinish⟩ := h
  refine rejected_safe hahead hfeed ((hnext _ (.inl rfl)).trans hvalue) hfinish (he _ ?_)
  intro t ht
  obtain ⟨q', hq'⟩ := Option.ne_none_iff_exists'.1 (readValue_ne_none fs ht)
  have hbracket : t ≠ .endArray := by
    rintro rfl
    exact ht rfl
  exact viable_concat hfeed ((hnext t (.inr hbracket)).trans hq')

/-- The key of a member, up to the first token of its value. -/
theorem parseKey_safe {members : List (String × Json)} {closes : Bool} {read : List Scanned}
    (hahead : Ahead L (read ++ [s.last]) s.lexer)
    (hfeed : feed trailing start (tokens read) = some ⟨fs, .key members closes⟩)
    (hholding : Holding fs (.object (Json.storeAll members)) s.sax)
    (hcloses : closes = true → s.last.token ≠ .endObject) :
    Safe trailing L (fun s' => (∃ key, Reading trailing L s' (.object members key :: fs)) ∧
      s'.states = s.states ∧ s'.skipToStateEvaluation = s.skipToStateEvaluation ∧
      s'.weight < s.weight) s.parseKey := by
  unfold Parser.parseKey
  split
  case h_1 k hk =>
    refine Safe.bind (Safe.check (key_ok hholding k)) fun sax hready => ?_
    have hkey : feed trailing start (tokens (read ++ [s.last])) = some ⟨fs, .colon members k⟩ := by
      refine feed_tokens_concat hfeed ?_
      rw [hk]
      rfl
    have hcolon : Ahead L (read ++ [s.last] ++ [(Parser.getToken { s with sax }).last])
        (Parser.getToken { s with sax }).lexer := hahead.scan
    have hweight : (Parser.getToken { s with sax }).weight + 1 ≤ s.weight :=
      weight_getToken_le (s := { s with sax }) (by rw [hk]; nofun)
    simp only
    generalize hs₁ : Parser.getToken { s with sax } = s₁ at hcolon hweight
    split_ifs with hsep
    · have hvalue : feed trailing start (tokens (read ++ [s.last] ++ [s₁.last])) =
          some ⟨.object members k :: fs, .value⟩ := feed_tokens_concat hkey (if_pos hsep)
      have hnext : s₁.getToken.weight + 1 ≤ s₁.weight := weight_getToken_le (by rw [hsep]; nofun)
      refine ⟨⟨k, ?_, _, _, hcolon.scan, hvalue, fun _ _ => rfl, nofun⟩, ?_, ?_, by omega⟩
      · rw [← hs₁]
        exact hready
      · rw [← hs₁]
        rfl
      · rw [← hs₁]
        rfl
    · refine rejected_safe hcolon hkey (if_neg hsep) nofun (.syntaxError _ ?_)
      refine expected_of_next hkey fun t ht => ?_
      cases t <;> cases ht
      exact ⟨_, rfl⟩
  case h_2 hkey =>
    refine rejected_safe hahead hfeed ?_ nofun (.syntaxError _ (expected_of_next hfeed ?_))
    case refine_2 =>
      intro t ht
      cases t <;> cases ht
      exact ⟨_, rfl⟩
    show readKey fs members closes s.last.token = none
    cases ht : s.last.token with
    | valueString k => exact absurd ht (hkey k)
    | endObject =>
      have hopen : closes = false := by
        by_contra hne
        exact hcloses (by simpa using hne) ht
      rw [hopen]
      rfl
    | _ => rfl

/-- A container that begins: it ends at once, or `rest` goes on with what is in it. -/
theorem container_safe (v : Json) (is : Json → Bool) (bracket : Token) (place : Place)
    (rest : Parser → Except Stop (Bool × Parser)) (h : Reading trailing L s fs)
    (hlast : s.last.token ≠ .endOfInput) (hbracket : bracket ≠ .endOfInput) (hv : is v = true)
    (hopen : readValue fs s.last.token = some ⟨fs, place⟩)
    (hclose : next trailing ⟨fs, place⟩ bracket = some ⟨fs, .after v⟩)
    (hrest : ∀ s' read, Holding fs v s'.sax → Ahead L (read ++ [s'.last]) s'.lexer →
      feed trailing start (tokens read) = some ⟨fs, place⟩ → s'.last.token ≠ bracket →
      s'.states = s.states → s'.skipToStateEvaluation = s.skipToStateEvaluation →
      s'.weight < s.weight → Safe trailing L (Switched trailing L s fs) (rest s')) :
    Safe trailing L (Switched trailing L s fs) (do
      let sax ← check (s.sax.startContainer v)
      let s' := getToken { s with sax }
      if s'.last.token = bracket then
        let sax ← check (s'.sax.endContainer is)
        return (true, { s' with sax })
      else rest s') := by
  obtain ⟨hready, read, q, hahead, hfeed, hnext, -⟩ := h
  refine Safe.bind (Safe.check (startContainer_ok hready v)) fun sax hholding => ?_
  have hopened : feed trailing start (tokens (read ++ [s.last])) = some ⟨fs, place⟩ :=
    feed_tokens_concat hfeed ((hnext _ (.inl rfl)).trans hopen)
  have hscan : Ahead L (read ++ [s.last] ++ [(getToken { s with sax }).last])
      (getToken { s with sax }).lexer := hahead.scan
  have hweight : (getToken { s with sax }).weight + 1 ≤ s.weight :=
    weight_getToken_le (s := { s with sax }) hlast
  simp only
  split_ifs with hend
  · refine Safe.bind (Safe.check (endContainer_ok hholding hv)) fun sax' hfilled => ?_
    refine .value ⟨hfilled, ⟨_, hscan, ?_⟩, ?_⟩ rfl rfl (by exact (Nat.le_succ _).trans hweight)
    · exact feed_tokens_concat hopened (hend ▸ hclose)
    · rw [hend]
      exact hbracket
  · exact hrest _ _ hholding hscan hopened hend rfl rfl hweight

/-- An array that begins. -/
theorem beginArray_safe (h : Reading trailing L s fs) (hlast : s.last.token = .beginArray) :
    Safe trailing L (Switched trailing L s fs) s.switchToken := by
  unfold switchToken
  rw [hlast]
  refine container_safe (.array []) Json.isArray .endArray (.item [] true)
    (fun s' => .ok (false, { s' with states := true :: s'.states })) h (by rw [hlast]; nofun) nofun
    rfl (by rw [hlast]; rfl) rfl fun s' read hholding hscan hfeed hend hstates hskip hless => ?_
  show Switched trailing L s fs (false, { s' with states := true :: s'.states })
  refine .opened (f := .array []) ⟨hholding.array, _, _, hscan, hfeed, fun t ht => ?_, nofun⟩
    (congrArg (true :: ·) hstates) hskip (by exact hless)
  refine if_neg ?_
  rcases ht with rfl | ht
  · exact hend
  · exact ht

/-- An object that begins. -/
theorem beginObject_safe (h : Reading trailing L s fs) (hlast : s.last.token = .beginObject) :
    Safe trailing L (Switched trailing L s fs) s.switchToken := by
  unfold switchToken
  rw [hlast]
  refine container_safe (.object []) Json.isObject .endObject (.key [] true)
    (fun s' => s'.parseKey >>= fun s'' => .ok (false, { s'' with states := false :: s''.states })) h
    (by rw [hlast]; nofun) nofun rfl (by rw [hlast]; rfl) rfl
    fun s' read hholding hscan hfeed hend hstates hskip hless => ?_
  refine Safe.bind (parseKey_safe hscan hfeed hholding fun _ => hend) fun s'' hs'' => ?_
  obtain ⟨⟨key, hreading⟩, hstates', hskip', hless'⟩ := hs''
  show Switched trailing L s fs (false, { s'' with states := false :: s''.states })
  refine .opened (f := .object [] key) ⟨hreading.ready, hreading.reads⟩ ?_ (hskip'.trans hskip)
    (by exact hless'.trans hless)
  exact congrArg (false :: ·) (hstates'.trans hstates)

/-- A pass through the `switch`. -/
theorem switchToken_safe (h : Reading trailing L s fs) :
    Safe trailing L (Switched trailing L s fs) s.switchToken := by
  cases ht : s.last.token with
  | beginArray => exact beginArray_safe h ht
  | beginObject => exact beginObject_safe h ht
  | literalTrue | literalFalse | literalNull | valueString | valueUnsigned | valueInteger =>
    unfold Parser.switchToken
    rw [ht]
    exact scalar_safe h (by rw [ht]; rfl) (by rw [ht]; nofun)
  | valueFloat d =>
    unfold Parser.switchToken
    rw [ht]
    cases d with
    | fin q => exact scalar_safe h (by rw [ht]; rfl) (by rw [ht]; nofun)
    | _ => exact h.rejected (by rw [ht]; rfl) fun _ _ => .numberOverflow ht
  | endOfInput =>
    unfold Parser.switchToken
    rw [ht]
    simp only
    split_ifs
    · exact h.rejected (by rw [ht]; rfl) fun _ _ => .emptyInput ht
    · exact h.rejected (by rw [ht]; rfl) fun _ hexpected => .syntaxError _ hexpected
  | parseError =>
    unfold Parser.switchToken
    rw [ht]
    exact h.rejected (by rw [ht]; rfl) fun _ _ => .syntaxError _ trivial
  | _ =>
    unfold Parser.switchToken
    rw [ht]
    exact h.rejected (by rw [ht]; rfl) fun _ hexpected => .syntaxError _ hexpected

/-- A closing bracket. -/
theorem close_safe (is : Json → Bool) {s₀ : Parser} {v : Json} {read : List Scanned}
    (hholding : Holding fs v s.sax) (hv : is v = true)
    (hahead : Ahead L read s.lexer)
    (hfeed : feed trailing start (tokens read) = some ⟨fs, .after v⟩)
    (hlast : s.last.token ≠ .endOfInput) (hweight : s.weight < s₀.weight) :
    Safe trailing L (RoundOk trailing L s₀)
      (.inl <$> s.close (fs.map Frame.isArray) (s.sax.endContainer is)) := by
  refine Safe.map (Safe.bind (Safe.check (endContainer_ok hholding hv)) fun sax hfilled => ?_)
  exact .goesOn (.done ⟨hfilled, ⟨read, hahead, hfeed⟩, hlast⟩ rfl rfl) hweight

/-- After a value in a container, which holds `w` with it: a comma and the next value, with which
`rest` goes on, or the closing bracket. -/
theorem evaluateContainer_safe (is : Json → Bool) (bracket : Token) (place : Place)
    (expected : TokenType) (context : String) (rest : Parser → Except Stop (Parser ⊕ Parser))
    {f : Frame} {v w : Json} (h : Done trailing L s (f :: fs) v)
    (hw : f.wrap v = w) (his : is w = true) (hbracket : bracket ≠ .endOfInput)
    (hcomma : readAfter trailing v (f :: fs) .valueSeparator = some ⟨fs, place⟩)
    (hclose : readAfter trailing v (f :: fs) bracket = some ⟨fs, .after w⟩)
    (hclose' : trailing = true → next trailing ⟨fs, place⟩ bracket = some ⟨fs, .after w⟩)
    (hnone : ∀ t, t ≠ .valueSeparator → t ≠ bracket → readAfter trailing v (f :: fs) t = none)
    (hexpected : ∀ ts, (∀ t : Token, t = bracket → Viable trailing (ts ++ [t])) →
      Expected trailing ts expected)
    (hrest : ∀ s' read, Holding fs w s'.sax → Ahead L (read ++ [s'.last]) s'.lexer →
      feed trailing start (tokens read) = some ⟨fs, place⟩ →
      ¬ (trailing = true ∧ s'.last.token = bracket) → s'.states = s.states →
      s'.skipToStateEvaluation = s.skipToStateEvaluation → s'.weight < s.weight →
      Safe trailing L (RoundOk trailing L s) (rest s')) :
    Safe trailing L (RoundOk trailing L s)
      (let s' := s.getToken
      if s'.last.token = .valueSeparator then
        let s'' := s'.getToken
        if trailing = true ∧ s''.last.token = bracket then
          .inl <$> s''.close (fs.map Frame.isArray) (s''.sax.endContainer is)
        else rest s''
      else if s'.last.token = bracket then
        .inl <$> s'.close (fs.map Frame.isArray) (s'.sax.endContainer is)
      else .error (s'.syntaxError expected context)) := by
  obtain ⟨hfilled, ⟨read, hahead, hfeed⟩, hlast⟩ := h
  have hholding : Holding fs w s.getToken.sax := ⟨hfilled.refStack, hw ▸ hfilled.root⟩
  have hscan : Ahead L (read ++ [s.getToken.last]) s.getToken.lexer := hahead.scan
  have hweight := weight_getToken_le hlast
  simp only
  by_cases hsep : s.getToken.last.token = .valueSeparator
  · rw [if_pos hsep]
    have hafter : feed trailing start (tokens (read ++ [s.getToken.last])) = some ⟨fs, place⟩ :=
      feed_tokens_concat hfeed (hsep ▸ hcomma)
    have hscan' : Ahead L (read ++ [s.getToken.last] ++ [s.getToken.getToken.last])
        s.getToken.getToken.lexer := hscan.scan
    have hweight' : s.getToken.getToken.weight + 1 ≤ s.getToken.weight :=
      weight_getToken_le (by rw [hsep]; nofun)
    by_cases hend : trailing = true ∧ s.getToken.getToken.last.token = bracket
    · -- a comma before the bracket
      rw [if_pos hend]
      refine close_safe is (s := s.getToken.getToken) hholding his hscan' ?_ ?_ (by omega)
      · exact feed_tokens_concat hafter (hend.2 ▸ hclose' hend.1)
      · exact hend.2 ▸ hbracket
    · rw [if_neg hend]
      exact hrest _ _ hholding hscan' hafter hend rfl rfl (by omega)
  · rw [if_neg hsep]
    by_cases hend : s.getToken.last.token = bracket
    · rw [if_pos hend]
      refine close_safe is (s := s.getToken) hholding his hscan ?_ ?_ (by omega)
      · exact feed_tokens_concat hfeed (hend ▸ hclose)
      · exact hend ▸ hbracket
    · rw [if_neg hend]
      refine rejected_safe (s := s.getToken) hscan hfeed (hnone _ hsep hend) nofun
        (.syntaxError _ (hexpected _ fun t ht => ?_))
      exact viable_concat hfeed (ht ▸ hclose)

/-- After an item of an array. -/
theorem evaluateArray_safe {items : List Json} {v : Json}
    (h : Done trailing L s (.array items :: fs) v)
    (hstates : s.states = (Frame.array items :: fs).map Frame.isArray)
    (hskip : s.skipToStateEvaluation = false) :
    Safe trailing L (RoundOk trailing L s) (s.evaluateState trailing) := by
  unfold evaluateState
  rw [hstates]
  refine evaluateContainer_safe Json.isArray .endArray (.item (items ++ [v]) trailing) .endArray
    "array" (fun s' => .ok (.inl s')) h rfl rfl nofun rfl rfl
    (fun htrailing => by rw [htrailing]; rfl) ?_ ?_ ?_
  · intro t hsep hend
    cases t <;> first
      | rfl
      | exact absurd rfl hsep
      | exact absurd rfl hend
  · intro ts hviable t ht
    cases t <;> cases ht
    exact hviable _ rfl
  · intro s' read hholding hscan hfeed hend hstates' hskip' hless
    refine .goesOn (.reading ⟨hholding.array, _, _, hscan, hfeed, fun t ht => ?_, nofun⟩
      (hstates'.trans hstates) (hskip'.trans hskip)) hless
    show readItem fs (items ++ [v]) trailing t = _
    unfold readItem
    split_ifs with hbracket htrailing
    · rcases ht with rfl | ht
      · exact absurd ⟨htrailing, hbracket⟩ hend
      · exact absurd hbracket ht
    · rw [hbracket]
      rfl
    · rfl

/-- After a member of an object. -/
theorem evaluateObject_safe {members : List (String × Json)} {key : String} {v : Json}
    (h : Done trailing L s (.object members key :: fs) v)
    (hstates : s.states = (Frame.object members key :: fs).map Frame.isArray)
    (hskip : s.skipToStateEvaluation = false) :
    Safe trailing L (RoundOk trailing L s) (s.evaluateState trailing) := by
  unfold evaluateState
  rw [hstates]
  refine evaluateContainer_safe Json.isObject .endObject (.key (members ++ [(key, v)]) trailing)
    .endObject "object" (fun s' => .inl <$> s'.parseKey) h
    (congrArg Json.object (Json.storeAll_concat members key v)).symm rfl nofun rfl rfl
    (fun htrailing => by rw [htrailing]; rfl) ?_ ?_ ?_
  · intro t hsep hend
    cases t <;> first
      | rfl
      | exact absurd rfl hsep
      | exact absurd rfl hend
  · intro ts hviable t ht
    cases t <;> cases ht
    exact hviable _ rfl
  · intro s' read hholding hscan hfeed hend hstates' hskip' hless
    refine Safe.map (Safe.imp (parseKey_safe hscan hfeed hholding fun htrailing hbracket =>
      hend ⟨htrailing, hbracket⟩) fun s'' hs'' => ?_)
    obtain ⟨⟨k, hreading⟩, hstates'', hskip'', hless'⟩ := hs''
    exact .goesOn (.reading hreading (hstates''.trans (hstates'.trans hstates))
      (hskip''.trans (hskip'.trans hskip))) (hless'.trans hless)

/-- After a value. -/
theorem evaluateState_safe {v : Json} (h : Done trailing L s fs v)
    (hstates : s.states = fs.map Frame.isArray) (hskip : s.skipToStateEvaluation = false) :
    Safe trailing L (RoundOk trailing L s) (s.evaluateState trailing) := by
  cases fs with
  | nil =>
    unfold Parser.evaluateState
    rw [hstates]
    exact .ends h
  | cons f fs =>
    cases f with
    | array items => exact evaluateArray_safe h hstates hskip
    | object members key => exact evaluateObject_safe h hstates hskip

theorem RoundOk.of_le {s' : Parser} {r : Parser ⊕ Parser} (h : RoundOk trailing L s' r)
    (hweight : s'.weight ≤ s.weight) : RoundOk trailing L s r := by
  cases h with
  | goesOn hbetween hless => exact .goesOn hbetween (hless.trans_le hweight)
  | ends hdone => exact .ends hdone

/-- **One round of the loop.** -/
theorem round_safe (h : Between trailing L s) :
    Safe trailing L (RoundOk trailing L s) (s.round trailing) := by
  unfold Parser.round
  cases h with
  | @reading fs hreading hstates hskip =>
    rw [hskip]
    refine Safe.bind (switchToken_safe hreading) fun r hr => ?_
    cases hr with
    | value hdone hstates' hskip' hweight =>
      exact Safe.imp (evaluateState_safe hdone (hstates'.trans hstates) (hskip'.trans hskip))
        fun r hr => hr.of_le hweight
    | opened hreading' hstates' hskip' hweight =>
      refine .goesOn (.reading hreading' ?_ (hskip'.trans hskip)) hweight
      rw [hstates', hstates]
      rfl
  | @done fs v hdone hstates hskip =>
    rw [hskip, if_pos rfl]
    exact Safe.imp (evaluateState_safe (s := { s with skipToStateEvaluation := false })
      ⟨hdone.filled, hdone.reads, hdone.last⟩ hstates rfl) fun r hr => hr.of_le le_rfl

/-- **The loop ends**, after a round for each token at most. -/
theorem saxParseInternal_safe {fuel : ℕ} (h : Between trailing L s) (hfuel : s.weight < fuel) :
    ∃ r, Parser.saxParseInternal trailing fuel s = some r ∧
      Safe trailing L (fun s' => ∃ v, Done trailing L s' [] v) r := by
  induction fuel generalizing s with
  | zero => exact absurd hfuel (Nat.not_lt_zero _)
  | succ fuel ih =>
    have hround := round_safe h
    rw [Parser.saxParseInternal]
    cases hr : s.round trailing with
    | error stop =>
      rw [hr] at hround
      refine ⟨.error stop, rfl, ?_⟩
      cases stop with
      | thrown e => exact hround
      | assertion => exact hround
    | ok r =>
      rw [hr] at hround
      cases hround with
      | goesOn hbetween hless => exact ih hbetween (by omega)
      | @ends s' v hdone => exact ⟨.ok s', rfl, v, hdone⟩

/-- The whole parser: at the end of the file after a value, or an error where the reader rejects. -/
theorem parse_safe (trailing : Bool) (L : Lexer) :
    ∃ r, Parser.parse trailing L = some r ∧
      Safe trailing L (fun v => ∃ read last l, Ahead L (read ++ [last]) l ∧
        feed trailing start (tokens read) = some (finish v) ∧ last.token = .endOfInput) r := by
  have hahead : Ahead L ([] ++ [(Parser.construct L).last]) (Parser.construct L).lexer :=
    Ahead.scan ⟨rfl, 0, by simp⟩
  have hreading : Reading trailing L (Parser.construct L) [] :=
    ⟨rfl, _, start, hahead, rfl, fun _ _ => rfl, nofun⟩
  have hbetween : Between trailing L (Parser.construct L) := .reading hreading rfl rfl
  have hweight : (Parser.construct L).weight < L.pending.length + 2 := by
    unfold Parser.weight Parser.construct Lexer.scan
    cases hpending : L.pending with
    | nil => simp [hpending, L.eof_token]
    | cons t pending =>
      simp only [List.length_cons]
      split_ifs <;> omega
  obtain ⟨r, hr, hsafe⟩ := saxParseInternal_safe hbetween hweight
  unfold Parser.parse
  rw [hr]
  cases r with
  | error stop => exact ⟨.error stop, rfl, hsafe.error⟩
  | ok s =>
    obtain ⟨v, hfilled, ⟨read, hread, hfeed⟩, -⟩ := hsafe
    have hscan : Ahead L (read ++ [s.getToken.last]) s.getToken.lexer := hread.scan
    by_cases hend : s.getToken.last.token = .endOfInput
    · refine ⟨.ok s.getToken.sax.root, if_pos hend, read, _, _, hscan, ?_, hend⟩
      rw [hfeed, show s.getToken.sax.root = v from hfilled.root]
      rfl
    · have hexpected : Expected trailing (tokens read) .endOfInput :=
        ⟨v, (derives_iff_feed _ v).2 hfeed⟩
      exact ⟨_, if_neg hend, read, _, _, _, hscan, .syntaxError _ hexpected, hfeed, rfl,
        fun _ _ => hend⟩

end

/-! ### The text of a file -/

section

variable {trailing : Bool} {L : Lexer}

theorem next_endOfInput (q : Spot) : next trailing q .endOfInput = none := by
  obtain ⟨fs, place⟩ := q
  cases place with
  | after v =>
    cases fs with
    | nil => rfl
    | cons f fs => cases f <;> rfl
  | _ => rfl

/-- What the reader has read is no end of the input. -/
theorem endOfInput_not_mem {ts : List Token} {q : Spot} (h : feed trailing start ts = some q) :
    .endOfInput ∉ ts :=
  Acceptor.not_mem_of_feed next_endOfInput h

/-- Where the last token is in the file. -/
theorem Ahead.place {read : List Scanned} {last : Scanned} {l : Lexer} {q : Spot}
    (h : Ahead L (read ++ [last]) l) (hfeed : feed trailing start (tokens read) = some q) :
    (read = L.pending ∧ last = L.eof) ∨ read ++ [last] <+: L.pending := by
  obtain ⟨-, m, hm⟩ := h
  rw [List.append_assoc, List.singleton_append] at hm
  rcases List.append_eq_append_iff.1 hm with ⟨more, hread, hrest⟩ | ⟨rest, hpending, hlast⟩
  · -- the end of the file is not among what was read
    have heof : ∀ s ∈ more ++ last :: l.pending, s = L.eof := by
      rw [← hrest]
      exact fun s hs => List.eq_of_mem_replicate hs
    cases more with
    | nil => exact .inl ⟨by simpa using hread, heof last (by simp)⟩
    | cons s more =>
      have hs : s = L.eof := heof s (by simp)
      refine absurd ?_ (endOfInput_not_mem hfeed)
      rw [hread, ← L.eof_token, ← hs]
      exact List.mem_map_of_mem (by simp)
  · cases rest with
    | nil =>
      have heof : last = L.eof :=
        List.eq_of_mem_replicate (n := m) (by
          rw [← List.nil_append (List.replicate m _), ← hlast]
          simp)
      exact .inl ⟨by simpa using hpending.symm, heof⟩
    | cons s rest =>
      obtain ⟨rfl, -⟩ := List.cons.inj hlast
      exact .inr ⟨rest, by rw [hpending]; simp⟩

/-- Before the end of the input, all of the text has been read. -/
theorem tokens_eq_text {read : List Scanned} {last : Scanned} {l : Lexer} {q : Spot}
    (h : Ahead L (read ++ [last]) l) (hfeed : feed trailing start (tokens read) = some q)
    (hlast : last.token = .endOfInput) : tokens read = L.text := by
  have hno := endOfInput_not_mem hfeed
  have hall : ∀ t ∈ tokens read, decide (t ≠ Token.endOfInput) = true := by
    intro t ht
    simpa using fun heq : t = .endOfInput => hno (heq ▸ ht)
  unfold Lexer.text
  rcases h.place hfeed with ⟨hread, -⟩ | ⟨rest, hpending⟩
  · rw [← hread, List.takeWhile_eq_self_iff.2 hall]
  · rw [← hpending, tokens, List.map_append, List.map_append, List.append_assoc,
      List.takeWhile_append_of_pos hall]
    simp [hlast]

/-- Before another token, a part of the text has been read, and the token goes on with it. -/
theorem tokens_prefix_text {read : List Scanned} {last : Scanned} {l : Lexer} {q : Spot}
    (h : Ahead L (read ++ [last]) l) (hfeed : feed trailing start (tokens read) = some q)
    (hlast : last.token ≠ .endOfInput) : tokens (read ++ [last]) <+: L.text := by
  have hno := endOfInput_not_mem hfeed
  rcases h.place hfeed with ⟨-, heof⟩ | ⟨rest, hpending⟩
  · exact absurd (heof ▸ L.eof_token) hlast
  · have hall : ∀ t ∈ tokens (read ++ [last]), decide (t ≠ Token.endOfInput) = true := by
      intro t ht
      rw [tokens, List.map_append, List.mem_append] at ht
      rcases ht with ht | ht
      · simpa using fun heq : t = .endOfInput => hno (heq ▸ ht)
      · have hlast' : t = last.token := by simpa using ht
        simpa [hlast'] using hlast
    have hmap : L.pending.map Scanned.token = tokens (read ++ [last]) ++ tokens rest := by
      rw [← hpending]
      exact List.map_append
    rw [Lexer.text, hmap, List.takeWhile_append_of_pos hall]
    exact List.prefix_append _ _

end

/-- The parser ends with a value or an exception. -/
theorem parse_ends (trailing : Bool) (L : Lexer) :
    (∃ v, Parser.parse trailing L = some (.ok v)) ∨
      ∃ e, Parser.parse trailing L = some (.error (.thrown e)) := by
  obtain ⟨r, hr, hsafe⟩ := parse_safe trailing L
  rw [hr]
  cases r with
  | ok v => exact .inl ⟨v, rfl⟩
  | error stop =>
    cases stop with
    | thrown e => exact .inr ⟨e, rfl⟩
    | assertion => exact hsafe.elim

/-- The values that the parser returns. -/
theorem parse_ok_iff (trailing : Bool) (L : Lexer) (v : Json) :
    Parser.parse trailing L = some (.ok v) ↔ Derives trailing L.text (.value v) := by
  obtain ⟨r, hr, hsafe⟩ := parse_safe trailing L
  rw [hr]
  cases r with
  | ok w =>
    obtain ⟨read, last, l, hahead, hfeed, hlast⟩ := hsafe
    rw [tokens_eq_text hahead hfeed hlast] at hfeed
    rw [derives_iff_feed, hfeed]
    simp [finish]
  | error stop =>
    cases stop with
    | assertion => exact hsafe.elim
    | thrown e =>
      obtain ⟨read, last, l, q, hahead, -, hfeed, hnext, hfinish⟩ := hsafe
      refine ⟨nofun, fun hderives => ?_⟩
      by_cases hlast : last.token = .endOfInput
      · rw [derives_iff_feed, ← tokens_eq_text hahead hfeed hlast, hfeed] at hderives
        exact absurd hlast (hfinish v (Option.some.inj hderives))
      · -- the text would go on with the rejected token
        obtain ⟨more, hmore⟩ := tokens_prefix_text hahead hfeed hlast
        rw [← hmore, tokens, List.map_append] at hderives
        exact absurd ⟨more, v, hderives⟩ (not_viable_concat hfeed hnext)

/-- **The parser returns the value of the text**, and it returns one exactly for the texts of the
grammar.  Of a key that occurs twice in an object the value is the last one.  The parser always
ends, and no assertion of the builder fails. -/
theorem parse_iff (trailing : Bool) (L : Lexer) :
    (∀ v, Parser.parse trailing L = some (.ok v) ↔ Derives trailing L.text (.value v)) ∧
      (∀ members key, (Json.object (Json.storeAll members)).find? key =
        members.reverse.lookup key) ∧
      ((∃ v, Parser.parse trailing L = some (.ok v)) ∨
        ∃ e, Parser.parse trailing L = some (.error (.thrown e))) :=
  ⟨parse_ok_iff trailing L, Json.lookup_storeAll, parse_ends trailing L⟩

/-- **An error is found at once**: the tokens before the one that is reported begin some text, no
text goes on with that token, and what the message expects in its place would have been right. -/
theorem parse_error_first (trailing : Bool) (L : Lexer) (e : JsonException)
    (h : Parser.parse trailing L = some (.error (.thrown e))) :
    ∃ read last, Reports trailing (tokens read) last e ∧
      ((read = L.pending ∧ last = L.eof) ∨ read ++ [last] <+: L.pending) ∧
      Viable trailing (tokens read) ∧ ¬ Viable trailing (tokens (read ++ [last])) := by
  obtain ⟨r, hr, hsafe⟩ := parse_safe trailing L
  rw [hr] at h
  cases h
  obtain ⟨read, last, l, q, hahead, hreports, hfeed, hnext, -⟩ := hsafe
  refine ⟨read, last, hreports, hahead.place hfeed, (viable_iff_feed _).2 ⟨q, hfeed⟩, ?_⟩
  rw [tokens, List.map_append]
  exact not_viable_concat hfeed hnext

/-- The lexer for the text `[1,]` on one line. -/
def sampleLexer : Lexer where
  pending :=
    [⟨.beginArray, ⟨1, 1, 0⟩, "[", ""⟩, ⟨.valueUnsigned 1, ⟨2, 2, 0⟩, "1", ""⟩,
      ⟨.valueSeparator, ⟨3, 3, 0⟩, ",", ""⟩, ⟨.endArray, ⟨4, 4, 0⟩, "]", ""⟩]
  eof := ⟨.endOfInput, ⟨5, 5, 0⟩, "", ""⟩
  eof_token := rfl

theorem parse_error_first_sample :
    ∃ read last, Reports false (tokens read) last (Scanned.syntaxError
        ⟨.endArray, ⟨4, 4, 0⟩, "]", ""⟩ .literalOrValue "value") ∧
      ((read = sampleLexer.pending ∧ last = sampleLexer.eof) ∨
        read ++ [last] <+: sampleLexer.pending) ∧
      Viable false (tokens read) ∧ ¬ Viable false (tokens (read ++ [last])) :=
  parse_error_first false sampleLexer _ rfl

end Parser

end UltraMds
