import Mathlib.Data.Rat.Floor
import Mathlib.Tactic
import UltraMds.Library.Double

/-!
# JSON values

The part of the vendored JSON library that the program uses: values, member access, and the
typed conversions with the errors they throw.

An object is a list of members; the first member with a key counts, so a list with repeated keys
stands for the object without the later ones.  The parser refuses numbers whose value is not
finite, so a `number_float` is a rational here.  The two integer kinds of the library, which
differ in the sign only, are one constructor.
-/

namespace UltraMds

/-- A JSON value. -/
inductive Json
  | null
  | boolean (b : Bool)
  | numberInteger (n : ℤ)
  | numberFloat (q : ℚ)
  | string (s : String)
  | array (items : List Json)
  | object (members : List (String × Json))

/-- `json::exception` with its identifier and its text. -/
inductive JsonError
  | typeError (id : ℕ) (what : String)
  deriving DecidableEq

/-- Conversion of an integer to the 32 bit type `int`. -/
def toInt (n : ℤ) : ℤ := n.bmod (2 ^ 32)

theorem toInt_eq_self {n : ℤ} (h : -2 ^ 31 ≤ n ∧ n < 2 ^ 31) : toInt n = n := by
  unfold toInt
  rw [Int.bmod_eq_of_le] <;> omega

namespace Json

instance : Inhabited Json := ⟨.null⟩

/-- `type_name()`. -/
def typeName : Json → String
  | .null => "null"
  | .boolean _ => "boolean"
  | .numberInteger _ => "number"
  | .numberFloat _ => "number"
  | .string _ => "string"
  | .array _ => "array"
  | .object _ => "object"

def isNull : Json → Bool
  | .null => true
  | _ => false

def isObject : Json → Bool
  | .object _ => true
  | _ => false

def isArray : Json → Bool
  | .array _ => true
  | _ => false

def isString : Json → Bool
  | .string _ => true
  | _ => false

def isBoolean : Json → Bool
  | .boolean _ => true
  | _ => false

def isNumberInteger : Json → Bool
  | .numberInteger _ => true
  | _ => false

def isNumber : Json → Bool
  | .numberInteger _ => true
  | .numberFloat _ => true
  | _ => false

/-- The member with the given key, for an object that has one. -/
def find? : Json → String → Option Json
  | .object members, key => members.lookup key
  | _, _ => none

/-- `contains(key)`: false for every value that is not an object. -/
def contains (j : Json) (key : String) : Bool := (j.find? key).isSome

/-- `operator[](key)`, which the program only calls on members that it knows to be there. -/
def member (j : Json) (key : String) : Json := (j.find? key).getD .null

/-- `get<int>()`: numbers are converted, truths count as numbers.  A float is cut towards zero
(outside the range of `int` the language does not say what the conversion gives). -/
def getInt : Json → Except JsonError ℤ
  | .numberInteger n => .ok (toInt n)
  | .numberFloat q => .ok (toInt (if 0 ≤ q then ⌊q⌋ else ⌈q⌉))
  | .boolean b => .ok b.toNat
  | j => .error (.typeError 302 ("type must be number, but is " ++ j.typeName))

/-- `get<double>()`: an integer is rounded to the nearest double. -/
def getDouble : Json → Except JsonError ℚ
  | .numberInteger n => .ok (Double.roundInt n)
  | .numberFloat q => .ok q
  | j => .error (.typeError 302 ("type must be number, but is " ++ j.typeName))

/-- `get<bool>()`. -/
def getBool : Json → Except JsonError Bool
  | .boolean b => .ok b
  | j => .error (.typeError 302 ("type must be boolean, but is " ++ j.typeName))

/-- `get<std::string>()`. -/
def getString : Json → Except JsonError String
  | .string s => .ok s
  | j => .error (.typeError 302 ("type must be string, but is " ++ j.typeName))

/-- The value of a string, of a truth, of an integer, of a number, of a number as a `double`, and of
an array. -/
def string? : Json → Option String
  | .string s => some s
  | _ => none

def boolean? : Json → Option Bool
  | .boolean b => some b
  | _ => none

def integer? : Json → Option ℤ
  | .numberInteger n => some n
  | _ => none

def number? : Json → Option Double
  | .numberInteger n => some (.fin n)
  | .numberFloat q => some (.fin q)
  | _ => none

def double? : Json → Option Double
  | .numberInteger n => some (.fin (Double.roundInt n))
  | .numberFloat q => some (.fin q)
  | _ => none

def array? : Json → Option (List Json)
  | .array items => some items
  | _ => none

/-- `value(key, default)`: the converted member of an object, or the default. -/
def value {α : Type} (get : Json → Except JsonError α) (j : Json) (key : String) (dflt : α) :
    Except JsonError α :=
  if j.isObject then
    match j.find? key with
    | some v => get v
    | none => .ok dflt
  else .error (.typeError 306 ("cannot use value() with " ++ j.typeName))

/-- `if (j.contains(key)) x = j[key];` for a variable that holds `x` before. -/
def assign {α : Type} (get : Json → Except JsonError α) (j : Json) (key : String) (x : α) :
    Except JsonError α :=
  if j.contains key then get (j.member key) else .ok x

/-- What reading a member `v`, which may be absent, over the value `x` so far can give. -/
def Reads {α : Type} (get : Json → Except JsonError α) (v : Option Json) (x y : α) : Prop :=
  match v with
  | some j => get j = .ok y
  | none => y = x

/-- The elements of an array, and nothing for any other value. -/
def items : Json → List Json
  | .array items => items
  | _ => []

/-- The values of an object in the order of its keys, which is how the library stores them. -/
def sortedValues (members : List (String × Json)) : List Json :=
  ((members.map Prod.fst).dedup.mergeSort fun k k' => decide (k ≤ k')).filterMap
    fun key => members.lookup key

/-- What a range-based `for` runs over: the elements of an array, the values of an object, nothing
for `null`, and any other value itself. -/
def range : Json → List Json
  | .null => []
  | .array items => items
  | .object members => sortedValues members
  | j => [j]

/-- The node that is reached through object members, key by key. -/
def nodeAt (j : Json) (path : List String) : Option Json := path.foldlM find? j

/-- The two ways of reading a member agree on objects. -/
theorem value_eq_assign {α : Type} (get : Json → Except JsonError α)
    (members : List (String × Json)) (key : String) (x : α) :
    value get (.object members) key x = assign get (.object members) key x := by
  cases h : (Json.object members).find? key <;>
    simp [value, assign, isObject, contains, member, h]

theorem reads_of_value {α : Type} {get : Json → Except JsonError α} {j : Json} {key : String}
    {x y : α} (h : value get j key x = .ok y) : Reads get (j.find? key) x y := by
  unfold value at h
  split at h
  · cases hv : j.find? key with
    | some v =>
      rw [hv] at h
      exact h
    | none =>
      rw [hv] at h
      cases h
      rfl
  · cases h

theorem reads_of_assign {α : Type} {get : Json → Except JsonError α} {j : Json} {key : String}
    {x y : α} (h : assign get j key x = .ok y) : Reads get (j.find? key) x y := by
  unfold assign contains member at h
  cases hv : j.find? key with
  | some v =>
    rw [hv] at h
    exact h
  | none =>
    rw [hv] at h
    cases h
    rfl

/-- Two readings after each other are one, of the later member if it is there. -/
theorem Reads.trans {α : Type} {get : Json → Except JsonError α} {v w : Option Json} {x y z : α}
    (h : Reads get v x y) (h' : Reads get w y z) : Reads get (w.or v) x z := by
  cases w with
  | some j => exact h'
  | none => exact (show z = y from h') ▸ h

/-- Reading a member whose value has the right type, `dflt` standing for a member that is absent. -/
theorem Reads.eq_of_typed {α β : Type} {get : Json → Except JsonError α} (as? : Json → Option β)
    (conv : β → α) (hget : ∀ j b, as? j = some b → get j = .ok (conv b)) {dflt b : β} {y : α} :
    ∀ {v : Option Json}, Reads get v (conv dflt) y → v.elim (some dflt) as? = some b → y = conv b
  | none, h, h' => by
    cases h'
    exact h
  | some j, h, h' => by
    have hy : get j = .ok y := h
    rw [hget j b h'] at hy
    exact (Except.ok.inj hy).symm

/-- Writing the members `cs` over the members `gs`: keys of `cs` win, the other keys of `gs`
are inherited. -/
def override (gs cs : List (String × Json)) : List (String × Json) :=
  cs ++ gs.filter fun m => (cs.lookup m.1).isNone

theorem string?_eq_none_iff (j : Json) : j.string? = none ↔ j.isString = false := by
  cases j <;> simp [string?, isString]

@[simp] theorem nodeAt_nil (j : Json) : j.nodeAt [] = some j := rfl

theorem nodeAt_cons (j : Json) (key : String) (path : List String) :
    j.nodeAt (key :: path) = (j.find? key).bind fun v => v.nodeAt path := rfl

@[simp] theorem find?_object (members : List (String × Json)) (key : String) :
    (Json.object members).find? key = members.lookup key := rfl

theorem lookup_override (gs cs : List (String × Json)) (key : String) :
    (override gs cs).lookup key = (cs.lookup key).or (gs.lookup key) := by
  rw [override, List.lookup_append]
  cases hc : cs.lookup key with
  | some v => rfl
  | none =>
    -- no member of `gs` with this key is filtered out
    simp only [Option.none_or]
    induction gs with
    | nil => rfl
    | cons m gs ih =>
      obtain ⟨k, v⟩ := m
      by_cases hk : key = k
      · subst hk
        rw [List.filter_cons_of_pos (by simp [hc])]
        simp
      · have hb : (key == k) = false := by simpa using hk
        rw [List.filter_cons]
        split <;> simp [List.lookup_cons, hb, ih]

end Json

end UltraMds
