import UltraMds.Library.Double
import UltraMds.Tool.Json

/-!
# The configuration reader

`ConfigReader` keeps the parsed configuration file and descends into it along key paths.

Each getter has its own copy of the descent.  Four of them test the type of the value after the
loop and so read the node at the path (`Json.nodeAt`), `getDouble` with the rounding of an integer
of more than 53 bits; `getStringArray` has the type test inside the loop.  `GettersAgree` says that
all five return the value of that node, and `gettersAgree_iff` when they do.
-/

namespace UltraMds

/-- `ConfigReader`, after the file has been read and parsed. -/
structure ConfigReader where
  mJson : Json

namespace ConfigReader

/-- The loop `for (key : keys) { if (!current.contains(key)) return ...; current = current[key]; }`,
`none` for the early return. -/
def descend (current : Json) : List String → Option Json
  | [] => some current
  | key :: keys => if !current.contains key then none else descend (current.member key) keys

/-- The loop of `getStringArray`, which tests every value on the way for an array. -/
def descendArrays (current : Json) : List String → Option Json
  | [] => some current
  | key :: keys =>
    if !current.contains key || !(current.member key).isArray then none
    else descendArrays (current.member key) keys

/-- The loop `for (item : current) if (item.is_string()) result.push_back(...)`. -/
def pushIfString (result : List String) : List Json → Except JsonError (List String)
  | [] => .ok result
  | item :: rest =>
    if item.isString then do
      let s ← item.getString
      pushIfString (result ++ [s]) rest
    else pushIfString result rest

section

variable (reader : ConfigReader) (keys : List String)

/-- The getters but one: the loop, and `current.is_...() ? current.get<...>() : defaultValue`. -/
def getValue {α : Type} (is : Json → Bool) (get : Json → Except JsonError α) (defaultValue : α) :
    Except JsonError α :=
  match descend reader.mJson keys with
  | none => .ok defaultValue
  | some current => if is current then get current else .ok defaultValue

/-- `ConfigReader::getString(keys, defaultValue)`. -/
def getString (defaultValue : String := "") : Except JsonError String :=
  reader.getValue keys Json.isString Json.getString defaultValue

/-- `ConfigReader::getBool(keys, defaultValue)`. -/
def getBool (defaultValue : Bool := false) : Except JsonError Bool :=
  reader.getValue keys Json.isBoolean Json.getBool defaultValue

/-- `ConfigReader::getInt(keys, defaultValue)`. -/
def getInt (defaultValue : ℤ := 0) : Except JsonError ℤ :=
  reader.getValue keys Json.isNumberInteger Json.getInt defaultValue

/-- `ConfigReader::getDouble(keys, defaultValue)`. -/
def getDouble (defaultValue : Double := .fin 0) : Except JsonError Double :=
  reader.getValue keys Json.isNumber (fun j => Double.fin <$> j.getDouble) defaultValue

/-- `ConfigReader::getStringArray(keys)`. -/
def getStringArray : Except JsonError (List String) :=
  match descendArrays reader.mJson keys with
  | none => .ok []
  | some current => pushIfString [] current.range

end

/-- `ConfigReader::getContractValidationConfig(contractName)`. -/
def getContractValidationConfig (reader : ConfigReader) (contractName : String) : Option Json :=
  match descend reader.mJson ["validation", "contract_specific", contractName] with
  | some current => if current.isObject then some current else none
  | none => none

/-- `ConfigReader::getGlobalValidationConfig()`. -/
def getGlobalValidationConfig (reader : ConfigReader) : Json :=
  if reader.mJson.contains "validation"
      && (reader.mJson.member "validation").contains "global_default" then
    (reader.mJson.member "validation").member "global_default"
  else .object []

/-! ### The node at a path -/

theorem descend_eq_nodeAt (current : Json) (keys : List String) :
    descend current keys = current.nodeAt keys := by
  induction keys generalizing current with
  | nil => rfl
  | cons key keys ih =>
    rw [descend, Json.nodeAt_cons, Json.contains, Json.member, ih]
    cases current.find? key <;> rfl

/-- The rules of a contract in a configuration file: the object under its name. -/
def contractRules (document : Json) (contractName : String) : Option Json :=
  (document.nodeAt ["validation", "contract_specific", contractName]).filter Json.isObject

/-- The rules of all contracts in a configuration file, the empty object if there are none. -/
def globalRules (document : Json) : Json :=
  (document.nodeAt ["validation", "global_default"]).getD (.object [])

theorem getContractValidationConfig_eq (reader : ConfigReader) (contractName : String) :
    reader.getContractValidationConfig contractName =
      contractRules reader.mJson contractName := by
  rw [getContractValidationConfig, descend_eq_nodeAt, contractRules]
  cases reader.mJson.nodeAt ["validation", "contract_specific", contractName] <;> rfl

theorem getGlobalValidationConfig_eq (reader : ConfigReader) :
    reader.getGlobalValidationConfig = globalRules reader.mJson := by
  rw [getGlobalValidationConfig, globalRules, Json.nodeAt_cons, Json.contains, Json.member]
  cases reader.mJson.find? "validation" with
  | none => rfl
  | some v =>
    show (if v.contains "global_default" then v.member "global_default" else .object []) =
      (v.nodeAt ["global_default"]).getD (.object [])
    rw [Json.nodeAt_cons, Json.contains, Json.member]
    cases v.find? "global_default" <;> rfl

/-- An array has no member, so the loop with the test inside takes one step at most. -/
theorem descendArrays_cons (current : Json) (key : String) (keys : List String) :
    descendArrays current (key :: keys) =
      if keys = [] then (current.find? key).filter Json.isArray else none := by
  rw [descendArrays, Json.contains, Json.member]
  cases current.find? key with
  | none => simp
  | some v =>
    cases v with
    | array items =>
      cases keys <;>
        simp [descendArrays, Json.isArray, Json.contains, Json.find?, Option.filter]
    | _ => simp [Json.isArray, Option.filter]

theorem pushIfString_eq (result : List String) (items : List Json) :
    pushIfString result items = .ok (result ++ items.filterMap Json.string?) := by
  induction items generalizing result with
  | nil => simp [pushIfString]
  | cons item rest ih =>
    rw [pushIfString]
    cases item with
    | string s =>
      show pushIfString (result ++ [s]) rest = _
      rw [ih, List.append_assoc]
      rfl
    | _ => exact ih result

/-- A getter with its type test after the loop reads the node at the path. -/
theorem getValue_eq (reader : ConfigReader) (keys : List String) {α : Type} {is : Json → Bool}
    {get : Json → Except JsonError α} {as? : Json → Option α}
    (h : ∀ j ∈ reader.mJson.nodeAt keys,
      if is j then ∃ a, as? j = some a ∧ get j = .ok a else as? j = none) (defaultValue : α) :
    reader.getValue keys is get defaultValue =
      .ok (((reader.mJson.nodeAt keys).bind as?).getD defaultValue) := by
  rw [getValue, descend_eq_nodeAt]
  cases hnode : reader.mJson.nodeAt keys with
  | none => rfl
  | some j =>
    have hj := h j hnode
    show (if is j then get j else .ok defaultValue) = .ok ((as? j).getD defaultValue)
    split_ifs at hj ⊢
    · obtain ⟨a, has, hget⟩ := hj
      rw [has, hget, Option.getD_some]
    · rw [hj, Option.getD_none]

/-- The array getter reads the node at a path of one key, and nothing at a longer path. -/
theorem getStringArray_cons (reader : ConfigReader) (key : String) (keys : List String) :
    reader.getStringArray (key :: keys) =
      .ok (if keys = [] then
        (((reader.mJson.nodeAt [key]).bind Json.array?).getD []).filterMap Json.string?
      else []) := by
  rw [getStringArray, descendArrays_cons, Json.nodeAt_cons]
  split_ifs with hkeys
  · cases reader.mJson.find? key with
    | none => rfl
    | some v =>
      cases v with
      | array items => exact pushIfString_eq [] items
      | _ => rfl
  · rfl

/-- The getters return the value of the node at the path if it has their type, and the default
if not; the array getter returns the strings among its elements. -/
structure GettersAgree (reader : ConfigReader) (keys : List String) : Prop where
  getString : ∀ defaultValue, reader.getString keys defaultValue =
    .ok (((reader.mJson.nodeAt keys).bind Json.string?).getD defaultValue)
  getBool : ∀ defaultValue, reader.getBool keys defaultValue =
    .ok (((reader.mJson.nodeAt keys).bind Json.boolean?).getD defaultValue)
  getInt : ∀ defaultValue,
    (∀ n, reader.mJson.nodeAt keys = some (.numberInteger n) → -2 ^ 31 ≤ n ∧ n < 2 ^ 31) →
      reader.getInt keys defaultValue =
        .ok (((reader.mJson.nodeAt keys).bind Json.integer?).getD defaultValue)
  getDouble : ∀ defaultValue, reader.getDouble keys defaultValue =
    .ok (((reader.mJson.nodeAt keys).bind Json.number?).getD defaultValue)
  getStringArray : reader.getStringArray keys =
    .ok ((((reader.mJson.nodeAt keys).bind Json.array?).getD []).filterMap Json.string?)

theorem getString_eq (reader : ConfigReader) (keys : List String) (defaultValue : String) :
    reader.getString keys defaultValue =
      .ok (((reader.mJson.nodeAt keys).bind Json.string?).getD defaultValue) := by
  refine getValue_eq reader keys (fun j _ => ?_) defaultValue
  cases j with
  | string s => exact ⟨s, rfl, rfl⟩
  | _ => rfl

theorem getBool_eq (reader : ConfigReader) (keys : List String) (defaultValue : Bool) :
    reader.getBool keys defaultValue =
      .ok (((reader.mJson.nodeAt keys).bind Json.boolean?).getD defaultValue) := by
  refine getValue_eq reader keys (fun j _ => ?_) defaultValue
  cases j with
  | boolean b => exact ⟨b, rfl, rfl⟩
  | _ => rfl

theorem getInt_eq (reader : ConfigReader) (keys : List String) (defaultValue : ℤ)
    (hint : ∀ n, reader.mJson.nodeAt keys = some (.numberInteger n) →
      -2 ^ 31 ≤ n ∧ n < 2 ^ 31) :
    reader.getInt keys defaultValue =
      .ok (((reader.mJson.nodeAt keys).bind Json.integer?).getD defaultValue) := by
  refine getValue_eq reader keys (fun j hj => ?_) defaultValue
  cases j with
  | numberInteger n => exact ⟨n, rfl, congrArg Except.ok (toInt_eq_self (hint n hj))⟩
  | _ => rfl

theorem getDouble_eq (reader : ConfigReader) (keys : List String) (defaultValue : Double) :
    reader.getDouble keys defaultValue =
      .ok (((reader.mJson.nodeAt keys).bind Json.double?).getD defaultValue) := by
  refine getValue_eq reader keys (fun j _ => ?_) defaultValue
  cases j with
  | numberInteger n => exact ⟨.fin (Double.roundInt n), rfl, rfl⟩
  | numberFloat q => exact ⟨.fin q, rfl, rfl⟩
  | _ => rfl

/-- When the double is the number at the path. -/
theorem getDouble_eq_number_iff (reader : ConfigReader) (keys : List String) :
    (∀ defaultValue, reader.getDouble keys defaultValue =
        .ok (((reader.mJson.nodeAt keys).bind Json.number?).getD defaultValue)) ↔
      ∀ n, reader.mJson.nodeAt keys = some (.numberInteger n) → Double.ExactInt n := by
  simp only [getDouble_eq, Except.ok.injEq]
  cases reader.mJson.nodeAt keys with
  | none => simp
  | some j =>
    cases j with
    | numberInteger n =>
      simp [Json.double?, Json.number?, Double.roundInt_eq_self_iff]
    | _ => simp [Json.double?, Json.number?]

/-- When the array getter reads the node at the path. -/
theorem getStringArray_eq_iff (reader : ConfigReader) (key : String) (keys : List String) :
    reader.getStringArray (key :: keys) =
        .ok ((((reader.mJson.nodeAt (key :: keys)).bind Json.array?).getD []).filterMap
          Json.string?) ↔
      (key :: keys).length = 1 ∨
        ∀ items, reader.mJson.nodeAt (key :: keys) = some (.array items) →
          ∀ item ∈ items, item.isString = false := by
  rw [getStringArray_cons]
  cases keys with
  | nil => simp
  | cons key' keys =>
    rw [if_neg (List.cons_ne_nil key' keys)]
    cases reader.mJson.nodeAt (key :: key' :: keys) with
    | none => simp
    | some j =>
      cases j with
      | array items =>
        simp [Json.array?, eq_comm (a := ([] : List String)), List.filterMap_eq_nil_iff,
          Json.string?_eq_none_iff]
      | _ => simp [Json.array?]

/-- **The getters agree** exactly when the path has one key or the node there is not an array with a
string in it, and the node is not an integer that no double is equal to. -/
theorem gettersAgree_iff (reader : ConfigReader) {keys : List String} (hkeys : keys ≠ []) :
    reader.GettersAgree keys ↔
      (keys.length = 1 ∨ ∀ items, reader.mJson.nodeAt keys = some (.array items) →
        ∀ item ∈ items, item.isString = false) ∧
      ∀ n, reader.mJson.nodeAt keys = some (.numberInteger n) → Double.ExactInt n := by
  obtain ⟨key, rest, rfl⟩ := List.exists_cons_of_ne_nil hkeys
  rw [← getStringArray_eq_iff, ← getDouble_eq_number_iff]
  constructor
  · intro h
    exact ⟨h.getStringArray, h.getDouble⟩
  · rintro ⟨harray, hdouble⟩
    exact
      { getString := reader.getString_eq _
        getBool := reader.getBool_eq _
        getInt := reader.getInt_eq _
        getDouble := hdouble
        getStringArray := harray }

/-- A file with the list of contracts at the top, and a section with one more list and an integer
of 54 bits. -/
def sampleLists : ConfigReader :=
  ⟨.object [("subscribed_contracts", .array [.string "IF2603"]),
    ("section", .object [("list", .array [.string "rb2410"]),
      ("large", .numberInteger (2 ^ 53 + 1))])]⟩

/-- The path that the program reads its contracts from, and the integer. -/
theorem gettersAgree_iff_sample :
    sampleLists.GettersAgree ["subscribed_contracts"] ∧
      ¬ sampleLists.GettersAgree ["section", "large"] :=
  ⟨(gettersAgree_iff sampleLists (List.cons_ne_nil _ _)).2 ⟨.inl rfl, nofun⟩,
    fun h => absurd (((gettersAgree_iff sampleLists (List.cons_ne_nil _ _)).1 h).2 _ rfl)
      (by decide)⟩

/-- The list in the section is there, and the array getter does not find it. -/
theorem nested_array_not_found :
    ¬ ∀ (reader : ConfigReader) (keys : List String), keys ≠ [] → reader.GettersAgree keys := by
  intro h
  have harray := (h sampleLists ["section", "list"] (List.cons_ne_nil _ _)).getStringArray
  rw [getStringArray_cons, if_neg (List.cons_ne_nil _ _)] at harray
  cases harray

end ConfigReader

end UltraMds
