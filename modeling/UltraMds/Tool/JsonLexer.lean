import UltraMds.Library.Utf8
import UltraMds.Tool.JsonParser

/-!
# The JSON lexer

The vendored lexer, from the bytes of a text to its tokens.  `get` and `unget` move over the bytes
and keep what the error messages say; the scanners of strings, numbers and literals are built on
them, and `Lexer.ofBytes` makes the calls of `scan()` up to the end of the input.

A loop is given the number of its rounds.  One for each byte that is left, and one for the end of
the input, are enough (`Parser.ofBytes_ends`).  `strtod` is the function of the C library, and the
decimal point of the locale is the one that a program starts with.
-/

namespace UltraMds

/-- `lexer`: the bytes of the input adapter that are not read yet, the last one that was, which is
`none` at the end of the input, and what belongs to the token. -/
structure JsonLexer where
  ia : List UInt8
  current : Option UInt8 := none
  nextUnget : Bool := false
  position : Position := ⟨0, 0, 0⟩
  tokenString : List UInt8 := []
  tokenBuffer : List UInt8 := []
  errorMessage : String := ""

namespace JsonLexer

variable (strtod : List UInt8 → Double) (l : JsonLexer)

/-! ### Input management -/

/-- `get()`. -/
def get : JsonLexer :=
  let current := if l.nextUnget then l.current else l.ia.head?
  { l with
    ia := if l.nextUnget then l.ia else l.ia.tail
    current
    nextUnget := false
    position :=
      if current = some 0x0A then ⟨l.position.charsReadTotal + 1, 0, l.position.linesRead + 1⟩
      else ⟨l.position.charsReadTotal + 1, l.position.charsReadCurrentLine + 1,
        l.position.linesRead⟩
    tokenString := l.tokenString ++ current.toList }

/-- `unget()`. -/
def unget : JsonLexer :=
  { l with
    nextUnget := true
    position :=
      if l.position.charsReadCurrentLine = 0 then
        ⟨l.position.charsReadTotal - 1, 0, l.position.linesRead - 1⟩
      else ⟨l.position.charsReadTotal - 1, l.position.charsReadCurrentLine - 1,
        l.position.linesRead⟩
    tokenString := if l.current = none then l.tokenString else l.tokenString.dropLast }

/-- `reset()`. -/
def reset : JsonLexer := { l with tokenBuffer := [], tokenString := l.current.toList }

/-- `add(c)` for each of the bytes. -/
def add (bs : List UInt8) : JsonLexer := { l with tokenBuffer := l.tokenBuffer ++ bs }

/-- `error_message = text`. -/
def fail (text : String) : JsonLexer := { l with errorMessage := text }

/-- The rounds for what is left of the input. -/
def rounds : ℕ := l.ia.length + 2

/-! ### Strings -/

def hexDigit? (b : UInt8) : Option ℕ :=
  if 0x30 ≤ b ∧ b ≤ 0x39 then some (b.toNat - 0x30)
  else if 0x41 ≤ b ∧ b ≤ 0x46 then some (b.toNat - 0x37)
  else if 0x61 ≤ b ∧ b ≤ 0x66 then some (b.toNat - 0x57)
  else none

/-- The loop of `get_codepoint` over the remaining factors. -/
def codepointLoop : List ℕ → ℕ → JsonLexer → Option ℕ × JsonLexer
  | [], codepoint, l => (some codepoint, l)
  | factor :: factors, codepoint, l =>
    match l.get.current.bind hexDigit? with
    | some d => codepointLoop factors (codepoint + d <<< factor) l.get
    | none => (none, l.get)

/-- `get_codepoint()`, with `none` for `-1`. -/
def getCodepoint : Option ℕ × JsonLexer := codepointLoop [12, 8, 4, 0] 0 l

/-- The loop of `next_byte_in_range` over the remaining ranges. -/
def rangeLoop : List (UInt8 × UInt8) → JsonLexer → Bool × JsonLexer
  | [], l => (true, l)
  | (lo, hi) :: ranges, l =>
    match l.get.current with
    | some b =>
      if lo ≤ b ∧ b ≤ hi then rangeLoop ranges (l.get.add [b])
      else (false, l.get.fail "invalid string: ill-formed UTF-8 byte")
    | none => (false, l.get.fail "invalid string: ill-formed UTF-8 byte")

/-- `next_byte_in_range(ranges)`. -/
def nextByteInRange (ranges : List (UInt8 × UInt8)) : Bool × JsonLexer :=
  rangeLoop ranges (l.add l.current.toList)

/-- A round of the loop of `scan_string`: it goes on, or the scan ends, with a closing quote or
with an error. -/
inductive Round
  | more (l : JsonLexer)
  | stop (closed : Bool) (l : JsonLexer)

def upperHex (n : ℕ) : Char := Char.ofNat (if n < 10 then 0x30 + n else 0x37 + n)

/-- `%.4X` of a byte. -/
def hex4 (b : UInt8) : String :=
  .ofList ['0', '0', upperHex (b.toNat / 16), upperHex (b.toNat % 16)]

/-- The names of the control characters. -/
def controlNames : List String :=
  ["NUL", "SOH", "STX", "ETX", "EOT", "ENQ", "ACK", "BEL", "BS", "HT", "LF", "VT", "FF", "CR", "SO",
    "SI", "DLE", "DC1", "DC2", "DC3", "DC4", "NAK", "SYN", "ETB", "CAN", "EM", "SUB", "ESC", "FS",
    "GS", "RS", "US"]

/-- The shorter escapes of control characters. -/
def shortEscapes : List (UInt8 × String) :=
  [(0x08, " or \\b"), (0x09, " or \\t"), (0x0A, " or \\n"), (0x0C, " or \\f"), (0x0D, " or \\r")]

/-- The messages for the cases `0x00` to `0x1F`. -/
def controlMessage (b : UInt8) : String :=
  "invalid string: control character U+" ++ hex4 b ++ " (" ++ controlNames.getD b.toNat "" ++
    ") must be escaped to \\u" ++ hex4 b ++ (shortEscapes.lookup b).getD ""

/-- The ranges for the cases from `0xC2` on. -/
def tailRanges (b : UInt8) : Option (List (UInt8 × UInt8)) :=
  if 0xC2 ≤ b ∧ b ≤ 0xDF then some [(0x80, 0xBF)]
  else if b = 0xE0 then some [(0xA0, 0xBF), (0x80, 0xBF)]
  else if 0xE1 ≤ b ∧ b ≤ 0xEC ∨ b = 0xEE ∨ b = 0xEF then some [(0x80, 0xBF), (0x80, 0xBF)]
  else if b = 0xED then some [(0x80, 0x9F), (0x80, 0xBF)]
  else if b = 0xF0 then some [(0x90, 0xBF), (0x80, 0xBF), (0x80, 0xBF)]
  else if 0xF1 ≤ b ∧ b ≤ 0xF3 then some [(0x80, 0xBF), (0x80, 0xBF), (0x80, 0xBF)]
  else if b = 0xF4 then some [(0x80, 0x8F), (0x80, 0xBF), (0x80, 0xBF)]
  else none

/-- The characters that may follow a backslash, other than `u`. -/
def escapes : List (UInt8 × UInt8) :=
  [(0x22, 0x22), (0x5C, 0x5C), (0x2F, 0x2F), (0x62, 0x08), (0x66, 0x0C), (0x6E, 0x0A),
    (0x72, 0x0D), (0x74, 0x09)]

def noHexDigits : Round :=
  .stop false (l.fail "invalid string: '\\u' must be followed by 4 hex digits")

def noLowSurrogate : Round :=
  .stop false
    (l.fail "invalid string: surrogate U+D800..U+DBFF must be followed by U+DC00..U+DFFF")

/-- The code point that follows the high surrogate `codepoint1`. -/
def lowSurrogate (codepoint1 : ℕ) : Round :=
  if l.get.current = some 0x5C then
    if l.get.get.current = some 0x75 then
      match l.get.get.getCodepoint with
      | (none, l) => l.noHexDigits
      | (some codepoint2, l) =>
        if 0xDC00 ≤ codepoint2 ∧ codepoint2 ≤ 0xDFFF then
          .more (l.add (Utf8.codePointBytes (codepoint1 <<< 10 + codepoint2 - 0x35FDC00)))
        else l.noLowSurrogate
    else l.get.get.noLowSurrogate
  else l.get.noLowSurrogate

/-- The case `u` after a backslash. -/
def unicodeEscape : Round :=
  match l.getCodepoint with
  | (none, l) => l.noHexDigits
  | (some codepoint1, l) =>
    if 0xD800 ≤ codepoint1 ∧ codepoint1 ≤ 0xDBFF then l.lowSurrogate codepoint1
    else if 0xDC00 ≤ codepoint1 ∧ codepoint1 ≤ 0xDFFF then
      .stop false
        (l.fail "invalid string: surrogate U+DC00..U+DFFF must follow U+D800..U+DBFF")
    else .more (l.add (Utf8.codePointBytes codepoint1))

/-- The case of a backslash. -/
def escape : Round :=
  match l.get.current.bind (escapes.lookup ·) with
  | some c => .more (l.get.add [c])
  | none =>
    if l.get.current = some 0x75 then l.get.unicodeEscape
    else .stop false (l.get.fail "invalid string: forbidden character after backslash")

/-- `switch (get())` in the loop of `scan_string`. -/
def stringRound : Round :=
  match l.get.current with
  | none => .stop false (l.get.fail "invalid string: missing closing quote")
  | some b =>
    if b = 0x22 then .stop true l.get
    else if b = 0x5C then l.get.escape
    else if b ≤ 0x1F then .stop false (l.get.fail (controlMessage b))
    else if b ≤ 0x7F then .more (l.get.add [b])
    else
      match tailRanges b with
      | none => .stop false (l.get.fail "invalid string: ill-formed UTF-8 byte")
      | some ranges =>
        match l.get.nextByteInRange ranges with
        | (true, l) => .more l
        | (false, l) => .stop false l

def stringLoop : ℕ → JsonLexer → Option (Bool × JsonLexer)
  | 0, _ => none
  | rounds + 1, l =>
    match l.stringRound with
    | .more l => stringLoop rounds l
    | .stop closed l => some (closed, l)

/-- The text in a buffer, if it is one. -/
def text? (bs : List UInt8) : Option String := String.fromUTF8? bs.toByteArray

/-- `scan_string()`.  What it accepts is UTF-8 (`stringLoop_sound`). -/
def scanString : Option (Token × JsonLexer) :=
  match stringLoop l.reset.rounds l.reset with
  | none => none
  | some (false, l) => some (.parseError, l)
  | some (true, l) => (text? l.tokenBuffer).map fun s => (.valueString s, l)

/-! ### Numbers -/

/-- The labels of `scan_number`, with `scan_number_done` left out. -/
inductive NumberState
  | minus
  | zero
  | any1
  | decimal1
  | decimal2
  | exponent
  | sign
  | any2
  deriving DecidableEq

/-- Where a label goes to. -/
inductive Goto
  | label (q : NumberState)
  | done
  | error (text : String)

def isDigit (b : UInt8) : Bool := 0x30 ≤ b && b ≤ 0x39

/-- The `switch` at a label. -/
def NumberState.goto (c : Option UInt8) : NumberState → Goto
  | .minus =>
    if c = some 0x30 then .label .zero
    else if c.any isDigit then .label .any1
    else .error "invalid number; expected digit after '-'"
  | .zero =>
    if c = some 0x2E then .label .decimal1
    else if c = some 0x65 ∨ c = some 0x45 then .label .exponent
    else .done
  | .any1 =>
    if c.any isDigit then .label .any1
    else if c = some 0x2E then .label .decimal1
    else if c = some 0x65 ∨ c = some 0x45 then .label .exponent
    else .done
  | .decimal1 =>
    if c.any isDigit then .label .decimal2
    else .error "invalid number; expected digit after '.'"
  | .decimal2 =>
    if c.any isDigit then .label .decimal2
    else if c = some 0x65 ∨ c = some 0x45 then .label .exponent
    else .done
  | .exponent =>
    if c = some 0x2B ∨ c = some 0x2D then .label .sign
    else if c.any isDigit then .label .any2
    else .error "invalid number; expected '+', '-', or digit after exponent"
  | .sign =>
    if c.any isDigit then .label .any2
    else .error "invalid number; expected digit after exponent sign"
  | .any2 => if c.any isDigit then .label .any2 else .done

/-- `number_type` after the assignment at a label. -/
def NumberState.numberType (numberType : TokenType) : NumberState → TokenType
  | .minus => .valueInteger
  | .decimal1 => .valueFloat
  | .exponent => .valueFloat
  | _ => numberType

/-- The value of decimal digits. -/
def decimal (ds : List UInt8) : ℕ := ds.foldl (fun x d => 10 * x + (d.toNat - 0x30)) 0

/-- `scan_number_done` for the number in the buffer: an integer that does not fit is a
float. -/
def convert (numberType : TokenType) (bs : List UInt8) : Token :=
  match numberType with
  | .valueUnsigned =>
    if decimal bs < 2 ^ 64 then .valueUnsigned (decimal bs) else .valueFloat (strtod bs)
  | .valueInteger =>
    if decimal bs.tail ≤ 2 ^ 63 then .valueInteger (-decimal bs.tail)
    else .valueFloat (strtod bs)
  | _ => .valueFloat (strtod bs)

def numberLoop : ℕ → NumberState → TokenType → JsonLexer → Option (Token × JsonLexer)
  | 0, _, _, _ => none
  | rounds + 1, q, numberType, l =>
    match q.goto l.get.current with
    | .label q' => numberLoop rounds q' (q.numberType numberType) (l.get.add l.get.current.toList)
    | .done => some (convert strtod (q.numberType numberType) l.get.tokenBuffer, l.get.unget)
    | .error text => some (.parseError, l.get.fail text)

/-- The first `switch` of `scan_number`. -/
def firstLabel (b : UInt8) : Option NumberState :=
  if b = 0x2D then some .minus
  else if b = 0x30 then some .zero
  else if isDigit b then some .any1
  else none

/-- `scan_number()`.  It is only called at a minus or a digit. -/
def scanNumber : Option (Token × JsonLexer) :=
  (l.current.bind firstLabel).bind fun q =>
    numberLoop strtod l.rounds q .valueUnsigned (l.reset.add l.current.toList)

/-! ### Literals -/

/-- The loop of `scan_literal` over the rest of the text. -/
def scanLiteral (returnType : Token) : List UInt8 → JsonLexer → Token × JsonLexer
  | [], l => (returnType, l)
  | b :: text, l =>
    if l.get.current = some b then scanLiteral returnType text l.get
    else (.parseError, l.get.fail "invalid literal")

/-! ### The scanner -/

/-- `skip_bom()`. -/
def skipBom : Bool × JsonLexer :=
  if l.get.current = some 0xEF then
    if l.get.get.current = some 0xBB then
      (l.get.get.get.current == some 0xBF, l.get.get.get)
    else (false, l.get.get)
  else (true, l.get.unget)

def isSpace (b : UInt8) : Bool := b == 0x20 || b == 0x09 || b == 0x0A || b == 0x0D

/-- `skip_whitespace()`. -/
def skipWhitespace : ℕ → JsonLexer → Option JsonLexer
  | 0, _ => none
  | rounds + 1, l => if l.get.current.any isSpace then skipWhitespace rounds l.get else some l.get

/-- The structural characters. -/
def structural : List (UInt8 × Token) :=
  [(0x5B, .beginArray), (0x5D, .endArray), (0x7B, .beginObject), (0x7D, .endObject),
    (0x3A, .nameSeparator), (0x2C, .valueSeparator)]

/-- The literals, by their first characters. -/
def literals : List (UInt8 × List UInt8 × Token) :=
  [(0x74, [0x72, 0x75, 0x65], .literalTrue), (0x66, [0x61, 0x6C, 0x73, 0x65], .literalFalse),
    (0x6E, [0x75, 0x6C, 0x6C], .literalNull)]

/-- `switch (current)` in `scan`. -/
def scanToken : Option (Token × JsonLexer) :=
  match l.current with
  | none => some (.endOfInput, l)
  | some b =>
    match structural.lookup b, literals.lookup b with
    | some t, _ => some (t, l)
    | none, some (text, t) => some (scanLiteral t text l)
    | none, none =>
      if b = 0x22 then l.scanString
      else if b = 0x2D ∨ isDigit b then l.scanNumber strtod
      else if b = 0 then some (.endOfInput, l)
      else some (.parseError, l.fail "invalid literal")

/-- `scan()` after the byte order mark, without comments. -/
def scanText : Option (Token × JsonLexer) := (skipWhitespace l.rounds l).bind (scanToken strtod)

/-- `scan()`. -/
def scan : Option (Token × JsonLexer) :=
  if l.position.charsReadTotal = 0 then
    match l.skipBom with
    | (true, l) => l.scanText strtod
    | (false, l) => some (.parseError, l.fail "invalid BOM; must be 0xEF 0xBB 0xBF if given")
  else l.scanText strtod

/-! ### What the parser sees -/

/-- `get_token_string()`.  Bytes that are not UTF-8 are shown as the characters of their numbers. -/
def getTokenString : String :=
  let bs := l.tokenString.flatMap fun b =>
    if b ≤ 0x1F then ("<U+" ++ hex4 b ++ ">").toUTF8.data.toList else [b]
  (text? bs).getD (.ofList (bs.map fun b => Char.ofNat b.toNat))

/-- The lexer after a call of `scan()`, for the parser. -/
def scanned (token : Token) : Scanned := ⟨token, l.position, l.getTokenString, l.errorMessage⟩

/-- The calls of `scan()` up to the first end of the input. -/
def scanAll : ℕ → JsonLexer → Option Lexer
  | 0, _ => none
  | rounds + 1, l =>
    match l.scan strtod with
    | none => none
    | some (token, l) =>
      if h : token = .endOfInput then some ⟨[], l.scanned token, h⟩
      else
        match scanAll rounds l with
        | none => none
        | some L => some { L with pending := l.scanned token :: L.pending }

end JsonLexer

/-- The lexer for a text. -/
def Lexer.ofBytes (strtod : List UInt8 → Double) (bs : List UInt8) : Option Lexer :=
  JsonLexer.scanAll strtod (bs.length + 1) { ia := bs }

end UltraMds
