import UltraMds.Tool.JsonText

/-!
# The JSON parser

The vendored parser between the lexer and the program: `sax_parse_internal`, a loop over tokens
with an explicit stack of the open containers, and `json_sax_dom_parser`, which builds the value
through pointers into it.  A pointer is the path from the root to what it points at.

The lexer is what its calls of `scan()` return.  It repeats `end_of_input` at the end of the file;
the parser never asks again after that.
-/

namespace UltraMds

/-! ### The lexer -/

/-- `lexer_base::token_type`. -/
inductive TokenType
  | uninitialized
  | literalTrue
  | literalFalse
  | literalNull
  | valueString
  | valueUnsigned
  | valueInteger
  | valueFloat
  | beginArray
  | beginObject
  | endArray
  | endObject
  | nameSeparator
  | valueSeparator
  | parseError
  | endOfInput
  | literalOrValue
  deriving DecidableEq

/-- `token_type_name(t)`. -/
def TokenType.tokenTypeName : TokenType → String
  | .uninitialized => "<uninitialized>"
  | .literalTrue => "true literal"
  | .literalFalse => "false literal"
  | .literalNull => "null literal"
  | .valueString => "string literal"
  | .valueUnsigned => "number literal"
  | .valueInteger => "number literal"
  | .valueFloat => "number literal"
  | .beginArray => "'['"
  | .beginObject => "'\x7b'"
  | .endArray => "']'"
  | .endObject => "'\x7d'"
  | .nameSeparator => "':'"
  | .valueSeparator => "','"
  | .parseError => "<parse error>"
  | .endOfInput => "end of input"
  | .literalOrValue => "'[', '\x7b', or a literal"

def Token.type : Token → TokenType
  | .literalTrue => .literalTrue
  | .literalFalse => .literalFalse
  | .literalNull => .literalNull
  | .valueString _ => .valueString
  | .valueUnsigned _ => .valueUnsigned
  | .valueInteger _ => .valueInteger
  | .valueFloat _ => .valueFloat
  | .beginArray => .beginArray
  | .beginObject => .beginObject
  | .endArray => .endArray
  | .endObject => .endObject
  | .nameSeparator => .nameSeparator
  | .valueSeparator => .valueSeparator
  | .parseError => .parseError
  | .endOfInput => .endOfInput

/-- `position_t`. -/
structure Position where
  charsReadTotal : ℕ
  charsReadCurrentLine : ℕ
  linesRead : ℕ
  deriving DecidableEq

/-- What a call of `scan()` leaves in the lexer: the token, and what the error messages say. -/
structure Scanned where
  token : Token
  position : Position
  tokenString : String
  errorMessage : String
  deriving DecidableEq

/-- The lexer: the calls of `scan()` up to the end of the file, and the ones from then on. -/
structure Lexer where
  pending : List Scanned
  eof : Scanned
  eof_token : eof.token = .endOfInput

def Lexer.scan (l : Lexer) : Scanned × Lexer :=
  match l.pending with
  | [] => (l.eof, l)
  | s :: pending => (s, { l with pending })

/-- `json::parse_error` and `json::out_of_range`, with identifier and text. -/
inductive JsonException
  | parseError (id byte : ℕ) (what : String)
  | outOfRange (id : ℕ) (what : String)
  deriving DecidableEq

namespace Scanned

variable (last : Scanned)

/-- `exception_message(expected, context)`. -/
def exceptionMessage (expected : TokenType) (context : String) : String :=
  "syntax error " ++ (if context.isEmpty then "" else "while parsing " ++ context ++ " ") ++ "- " ++
    (if last.token = .parseError then
      last.errorMessage ++ "; last read: '" ++ last.tokenString ++ "'"
    else "unexpected " ++ last.token.type.tokenTypeName) ++
    if expected = .uninitialized then "" else "; expected " ++ expected.tokenTypeName

/-- `parse_error::create(101, m_lexer.get_position(), what_arg)`. -/
def parseError101 (whatArg : String) : JsonException :=
  .parseError 101 last.position.charsReadTotal
    ("[json.exception.parse_error.101] parse error at line " ++
      toString (last.position.linesRead + 1) ++ ", column " ++
      toString last.position.charsReadCurrentLine ++ ": " ++ whatArg)

/-- The error for a token that is not the one expected. -/
def syntaxError (expected : TokenType) (context : String) : JsonException :=
  last.parseError101 (last.exceptionMessage expected context)

/-- The error for a file without a token. -/
def emptyInput : JsonException :=
  last.parseError101 ("attempting to parse an empty input; " ++
    "check that your input string or stream contains the expected JSON")

/-- The error for a number that is no finite `double`. -/
def numberOverflow : JsonException :=
  .outOfRange 406 ("[json.exception.out_of_range.406] number overflow parsing '" ++
    last.tokenString ++ "'")

end Scanned

/-! ### The builder -/

/-- From a container to one of its values. -/
inductive PointerStep
  | index (i : ℕ)
  | key (k : String)
  deriving DecidableEq

/-- A pointer into a value: the way from the root. -/
abbrev Pointer := List PointerStep

namespace Json

/-- What a pointer points at. -/
def deref : Pointer → Json → Option Json
  | [], j => some j
  | .index i :: p, .array items => items[i]?.bind (deref p)
  | .key k :: p, .object members => (members.lookup k).bind (deref p)
  | _, _ => none

/-- The value with `f` applied to what a pointer points at. -/
def modifyAt (f : Json → Json) : Pointer → Json → Json
  | [], j => f j
  | .index i :: p, .array items => .array (items.modify i (modifyAt f p))
  | .key k :: p, .object members => .object (modifyKey k (modifyAt f p) members)
  | _, j => j

/-- `emplace_back(v)`. -/
def emplaceBack (v : Json) : Json → Json
  | .array items => .array (items ++ [v])
  | j => j

end Json

/-- `json_sax_dom_parser`.  The top of `ref_stack` comes first, a null pointer is `none`. -/
structure JsonSaxDomParser where
  root : Json := .null
  refStack : List Pointer := []
  objectElement : Option Pointer := none

namespace JsonSaxDomParser

variable (d : JsonSaxDomParser)

/-- `handle_value(v)`: the place of the new value.  No result is a failed assertion, here and
below. -/
def handleValue (v : Json) : Option (JsonSaxDomParser × Pointer) :=
  match d.refStack with
  | [] => some ({ d with root := v }, [])
  | p :: _ =>
    match d.root.deref p with
    | some (.array items) =>
      some ({ d with root := d.root.modifyAt (Json.emplaceBack v) p }, p ++ [.index items.length])
    | some (.object _) =>
      match d.objectElement with
      | some element => some ({ d with root := d.root.modifyAt (fun _ => v) element }, element)
      | none => none
    | _ => none

/-- The events `null`, `boolean`, `number_integer`, `number_unsigned`, `number_float` and
`string`. -/
def value (v : Json) : Option JsonSaxDomParser := (d.handleValue v).map Prod.fst

/-- `start_object` and `start_array`, for the empty container. -/
def startContainer (v : Json) : Option JsonSaxDomParser :=
  (d.handleValue v).map fun (d', p) => { d' with refStack := p :: d'.refStack }

def startObject : Option JsonSaxDomParser := d.startContainer (.object [])
def startArray : Option JsonSaxDomParser := d.startContainer (.array [])

def key (k : String) : Option JsonSaxDomParser :=
  match d.refStack with
  | [] => none
  | p :: _ =>
    match d.root.deref p with
    | some (.object members) =>
      some { d with
        root := d.root.modifyAt (fun _ => .object (Json.access members k)) p
        objectElement := some (p ++ [.key k]) }
    | _ => none

/-- `end_object` and `end_array`, for the kind of the container. -/
def endContainer (is : Json → Bool) : Option JsonSaxDomParser :=
  match d.refStack with
  | [] => none
  | p :: refStack => if (d.root.deref p).any is then some { d with refStack } else none

def endObject : Option JsonSaxDomParser := d.endContainer Json.isObject
def endArray : Option JsonSaxDomParser := d.endContainer Json.isArray

end JsonSaxDomParser

/-! ### The parser -/

/-- How the parser stops without a value. -/
inductive Stop
  | thrown (e : JsonException)
  | assertion
  deriving DecidableEq

/-- The parser in the loop of `sax_parse_internal`.  In `states`, an array is `true` and an object
`false`, the innermost one first. -/
structure Parser where
  last : Scanned
  lexer : Lexer
  sax : JsonSaxDomParser := {}
  states : List Bool := []
  skipToStateEvaluation : Bool := false

namespace Parser

/-- An event, which must not fail an assertion. -/
def check {α : Type} : Option α → Except Stop α
  | some a => .ok a
  | none => .error .assertion

variable (ignoreTrailingCommas : Bool) (s : Parser)

/-- `get_token()`. -/
def getToken : Parser := { s with last := s.lexer.scan.1, lexer := s.lexer.scan.2 }

def syntaxError (expected : TokenType) (context : String) : Stop :=
  .thrown (s.last.syntaxError expected context)

/-- A value that is one token. -/
def scalar (v : Json) : Except Stop (Bool × Parser) := do
  let sax ← check (s.sax.value v)
  return (true, { s with sax })

/-- The key of a member, the separator, and the first token of the value. -/
def parseKey : Except Stop Parser :=
  match s.last.token with
  | .valueString k => do
    let sax ← check (s.sax.key k)
    let s := getToken { s with sax }
    if s.last.token = .nameSeparator then return s.getToken
    else throw (s.syntaxError .nameSeparator "object separator")
  | _ => throw (s.syntaxError .valueString "object key")

/-- `switch (last_token)`: whether it ends with `break`, that is, after a value. -/
def switchToken : Except Stop (Bool × Parser) :=
  match s.last.token with
  | .beginObject => do
    let sax ← check s.sax.startObject
    let s := getToken { s with sax }
    if s.last.token = .endObject then
      let sax ← check s.sax.endObject
      return (true, { s with sax })
    else
      let s ← s.parseKey
      return (false, { s with states := false :: s.states })
  | .beginArray => do
    let sax ← check s.sax.startArray
    let s := getToken { s with sax }
    if s.last.token = .endArray then
      let sax ← check s.sax.endArray
      return (true, { s with sax })
    else return (false, { s with states := true :: s.states })
  | .valueFloat (.fin q) => s.scalar (.numberFloat q)
  | .valueFloat _ => throw (.thrown s.last.numberOverflow)
  | .literalFalse => s.scalar (.boolean false)
  | .literalNull => s.scalar .null
  | .literalTrue => s.scalar (.boolean true)
  | .valueInteger n => s.scalar (.numberInteger n)
  | .valueString str => s.scalar (.string str)
  | .valueUnsigned n => s.scalar (.numberInteger n)
  | .parseError => throw (s.syntaxError .uninitialized "value")
  | .endOfInput =>
    if s.last.position.charsReadTotal = 1 then throw (.thrown s.last.emptyInput)
    else throw (s.syntaxError .literalOrValue "value")
  | _ => throw (s.syntaxError .literalOrValue "value")

/-- A closing bracket: the container, then the state around it. -/
def close (states : List Bool) (sax : Option JsonSaxDomParser) : Except Stop Parser := do
  let sax ← check sax
  return { s with sax, states, skipToStateEvaluation := true }

/-- The part of the loop after a value: the next round, or the end. -/
def evaluateState : Except Stop (Parser ⊕ Parser) :=
  match s.states with
  | [] => return .inr s
  | true :: states =>
    let s := s.getToken
    if s.last.token = .valueSeparator then
      let s := s.getToken
      if ignoreTrailingCommas ∧ s.last.token = .endArray then
        .inl <$> s.close states s.sax.endArray
      else return .inl s
    else if s.last.token = .endArray then .inl <$> s.close states s.sax.endArray
    else throw (s.syntaxError .endArray "array")
  | false :: states =>
    let s := s.getToken
    if s.last.token = .valueSeparator then
      let s := s.getToken
      if ignoreTrailingCommas ∧ s.last.token = .endObject then
        .inl <$> s.close states s.sax.endObject
      else .inl <$> s.parseKey
    else if s.last.token = .endObject then .inl <$> s.close states s.sax.endObject
    else throw (s.syntaxError .endObject "object")

/-- One round of the loop. -/
def round : Except Stop (Parser ⊕ Parser) :=
  if s.skipToStateEvaluation then
    evaluateState ignoreTrailingCommas { s with skipToStateEvaluation := false }
  else do
    let (parsed, s) ← s.switchToken
    if parsed then s.evaluateState ignoreTrailingCommas else return .inl s

/-- The loop, for at most `fuel` rounds. -/
def saxParseInternal : ℕ → Parser → Option (Except Stop Parser)
  | 0, _ => none
  | fuel + 1, s =>
    match round ignoreTrailingCommas s with
    | .error e => some (.error e)
    | .ok (.inl s) => saxParseInternal fuel s
    | .ok (.inr s) => some (.ok s)

/-- The constructor, which reads the first token. -/
def construct (lexer : Lexer) : Parser := { last := lexer.scan.1, lexer := lexer.scan.2 }

/-- `parse(true, result)`.  A round of the loop for each token is enough (`parse_ends`). -/
def parse (lexer : Lexer) : Option (Except Stop Json) :=
  match saxParseInternal ignoreTrailingCommas (lexer.pending.length + 2) (construct lexer) with
  | none => none
  | some (.error e) => some (.error e)
  | some (.ok s) =>
    let s := s.getToken
    if s.last.token = .endOfInput then some (.ok s.sax.root)
    else some (.error (s.syntaxError .endOfInput "value"))

end Parser

end UltraMds
