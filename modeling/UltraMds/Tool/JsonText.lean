import UltraMds.Library.Acceptor
import UltraMds.Tool.Json

/-!
# JSON texts

What the vendored library reads, above the level of characters: a text is a list of tokens, and
`Derives` is the grammar, with the value of each phrase.  A key that occurs twice in an object has
the value of its last occurrence (`lookup_storeAll`).

`next` is a reader of such texts, one token at a time, which keeps the open containers on a stack.
It accepts what the grammar derives, with the same value (`derives_iff_feed`), and whatever it has
been fed can be completed to a text (`exists_end`), so it rejects a token exactly when no text
goes on with it (`viable_iff_feed`).
-/

namespace UltraMds

/-- `token_type`, a literal with its value.  (`uninitialized` and `literal_or_value` are no tokens
of a text.) -/
inductive Token
  | literalTrue
  | literalFalse
  | literalNull
  | valueString (s : String)
  | valueUnsigned (n : ℕ)
  | valueInteger (n : ℤ)
  | valueFloat (d : Double)
  | beginArray
  | beginObject
  | endArray
  | endObject
  | nameSeparator
  | valueSeparator
  | parseError
  | endOfInput
  deriving DecidableEq

namespace Json

/-! ### The members of an object -/

/-- `operator[](key)` of the map: a key that is not there gets the value `null`. -/
def access (members : List (String × Json)) (key : String) : List (String × Json) :=
  if (members.lookup key).isSome then members else members ++ [(key, .null)]

/-- The value `f v` in place of the value `v` of a key. -/
def modifyKey (key : String) (f : Json → Json) (members : List (String × Json)) :
    List (String × Json) :=
  members.map fun m => if m.1 = key then (m.1, f m.2) else m

/-- The assignment `members[key] = v`. -/
def store (members : List (String × Json)) (key : String) (v : Json) : List (String × Json) :=
  modifyKey key (fun _ => v) (access members key)

/-- The object that arises from members that are read one after the other. -/
def storeAll (members : List (String × Json)) : List (String × Json) :=
  members.foldl (fun ms m => store ms m.1 m.2) []

theorem lookup_modifyKey (key key' : String) (f : Json → Json) (members : List (String × Json)) :
    (modifyKey key f members).lookup key' =
      if key' = key then (members.lookup key').map f else members.lookup key' := by
  induction members with
  | nil => split_ifs <;> rfl
  | cons m members ih =>
    obtain ⟨k, v⟩ := m
    by_cases hk : k = key
    · subst hk
      by_cases hkey : key' = k
      · simp [modifyKey, hkey]
      · have hbeq : (key' == k) = false := by simpa using hkey
        rw [if_neg hkey] at ih ⊢
        simpa [modifyKey, List.lookup_cons, hbeq] using ih
    · by_cases hkey : key' = k
      · subst hkey
        simp [modifyKey, hk]
      · have hbeq : (key' == k) = false := by simpa using hkey
        simpa [modifyKey, List.lookup_cons, hbeq, hk] using ih

theorem lookup_access (members : List (String × Json)) (key key' : String) :
    (access members key).lookup key' =
      (members.lookup key').or (if key' = key then some .null else none) := by
  unfold access
  by_cases hkey : key' = key
  · subst hkey
    cases h : members.lookup key' <;> simp [h, List.lookup_append]
  · have hbeq : (key' == key) = false := by simpa using hkey
    split_ifs <;> simp [List.lookup_append, List.lookup_cons, hbeq]

theorem lookup_store (members : List (String × Json)) (key key' : String) (v : Json) :
    (store members key v).lookup key' = if key' = key then some v else members.lookup key' := by
  rw [store, lookup_modifyKey, lookup_access]
  by_cases hkey : key' = key
  · rw [if_pos hkey, if_pos hkey, if_pos hkey]
    cases members.lookup key' <;> rfl
  · rw [if_neg hkey, if_neg hkey, if_neg hkey, Option.or_none]

theorem storeAll_concat (members : List (String × Json)) (key : String) (v : Json) :
    storeAll (members ++ [(key, v)]) = store (storeAll members) key v := by
  unfold storeAll
  rw [List.foldl_append]
  rfl

/-- **The last occurrence of a key wins.** -/
theorem lookup_storeAll (members : List (String × Json)) (key : String) :
    (storeAll members).lookup key = members.reverse.lookup key := by
  induction members using List.reverseRecOn with
  | nil => rfl
  | append_singleton members m ih =>
    obtain ⟨k, v⟩ := m
    rw [storeAll_concat, lookup_store, ih, List.reverse_append]
    by_cases hkey : key = k
    · simp [hkey]
    · have hbeq : (key == k) = false := by simpa using hkey
      rw [if_neg hkey]
      simp [List.lookup_cons, hbeq]

end Json

namespace JsonText

/-! ### The grammar -/

/-- The value of a token that is a value by itself.  A float is one if it is finite. -/
def scalar? : Token → Option Json
  | .literalTrue => some (.boolean true)
  | .literalFalse => some (.boolean false)
  | .literalNull => some .null
  | .valueString s => some (.string s)
  | .valueUnsigned n => some (.numberInteger n)
  | .valueInteger n => some (.numberInteger n)
  | .valueFloat (.fin q) => some (.numberFloat q)
  | _ => none

/-- What a phrase of the grammar stands for: a value, the items of an array, or the members of an
object as they are written. -/
inductive Part
  | value (v : Json)
  | items (vs : List Json)
  | members (ms : List (String × Json))

variable {trailing : Bool}

/-- The grammar.  With `trailing`, a comma may follow the last item or member. -/
inductive Derives (trailing : Bool) : List Token → Part → Prop
  | scalar {t : Token} {v : Json} (h : scalar? t = some v) : Derives trailing [t] (.value v)
  | emptyArray : Derives trailing [.beginArray, .endArray] (.value (.array []))
  | array {ts : List Token} {vs : List Json} (h : Derives trailing ts (.items vs))
      {comma : List Token} (hcomma : comma = [] ∨ trailing = true ∧ comma = [.valueSeparator]) :
      Derives trailing (.beginArray :: (ts ++ comma ++ [.endArray])) (.value (.array vs))
  | emptyObject : Derives trailing [.beginObject, .endObject] (.value (.object []))
  | object {ts : List Token} {ms : List (String × Json)} (h : Derives trailing ts (.members ms))
      {comma : List Token} (hcomma : comma = [] ∨ trailing = true ∧ comma = [.valueSeparator]) :
      Derives trailing (.beginObject :: (ts ++ comma ++ [.endObject]))
        (.value (.object (Json.storeAll ms)))
  | item {ts : List Token} {v : Json} (h : Derives trailing ts (.value v)) :
      Derives trailing ts (.items [v])
  | items {ts us : List Token} {vs : List Json} {v : Json} (h : Derives trailing ts (.items vs))
      (hv : Derives trailing us (.value v)) :
      Derives trailing (ts ++ .valueSeparator :: us) (.items (vs ++ [v]))
  | member {us : List Token} {v : Json} (key : String) (hv : Derives trailing us (.value v)) :
      Derives trailing (.valueString key :: .nameSeparator :: us) (.members [(key, v)])
  | members {ts us : List Token} {ms : List (String × Json)} {v : Json}
      (h : Derives trailing ts (.members ms)) (key : String)
      (hv : Derives trailing us (.value v)) :
      Derives trailing (ts ++ .valueSeparator :: .valueString key :: .nameSeparator :: us)
        (.members (ms ++ [(key, v)]))

/-! ### The reader -/

/-- An open container, with what it has so far: the items, or the members and the key of the next
one. -/
inductive Frame
  | array (items : List Json)
  | object (members : List (String × Json)) (key : String)

/-- What the reader waits for: a value; an item, the key of a member, the colon after a key; or
what follows the value `v`.  With `closes` the container may end instead. -/
inductive Place
  | value
  | item (items : List Json) (closes : Bool)
  | key (members : List (String × Json)) (closes : Bool)
  | colon (members : List (String × Json)) (key : String)
  | after (v : Json)

/-- The state of the reader: the open containers, the innermost one first, and the place. -/
structure Spot where
  frames : List Frame
  place : Place

/-- The first token of a value. -/
def readValue (frames : List Frame) : Token → Option Spot
  | .beginArray => some ⟨frames, .item [] true⟩
  | .beginObject => some ⟨frames, .key [] true⟩
  | t => (scalar? t).map fun v => ⟨frames, .after v⟩

def readItem (frames : List Frame) (items : List Json) (closes : Bool) (t : Token) : Option Spot :=
  if t = .endArray then if closes then some ⟨frames, .after (.array items)⟩ else none
  else readValue (.array items :: frames) t

def readKey (frames : List Frame) (members : List (String × Json)) (closes : Bool) :
    Token → Option Spot
  | .valueString key => some ⟨frames, .colon members key⟩
  | .endObject => if closes then some ⟨frames, .after (.object (Json.storeAll members))⟩ else none
  | _ => none

def readColon (frames : List Frame) (members : List (String × Json)) (key : String) (t : Token) :
    Option Spot :=
  if t = .nameSeparator then some ⟨.object members key :: frames, .value⟩ else none

/-- The token after the value `v`. -/
def readAfter (trailing : Bool) (v : Json) : List Frame → Token → Option Spot
  | .array items :: frames, .valueSeparator => some ⟨frames, .item (items ++ [v]) trailing⟩
  | .array items :: frames, .endArray => some ⟨frames, .after (.array (items ++ [v]))⟩
  | .object members key :: frames, .valueSeparator =>
    some ⟨frames, .key (members ++ [(key, v)]) trailing⟩
  | .object members key :: frames, .endObject =>
    some ⟨frames, .after (.object (Json.storeAll (members ++ [(key, v)])))⟩
  | _, _ => none

/-- The reader after a token, if it does not reject it. -/
def next (trailing : Bool) (s : Spot) (t : Token) : Option Spot :=
  match s.place with
  | .value => readValue s.frames t
  | .item items closes => readItem s.frames items closes t
  | .key members closes => readKey s.frames members closes t
  | .colon members key => readColon s.frames members key t
  | .after v => readAfter trailing v s.frames t

/-- The reader over a list of tokens. -/
abbrev feed (trailing : Bool) (s : Spot) (ts : List Token) : Option Spot :=
  Acceptor.feed (next trailing) s ts

/-- Before the first token. -/
def start : Spot := ⟨[], .value⟩

/-- After the text of a value. -/
def finish (v : Json) : Spot := ⟨[], .after v⟩

/-! ### What is derived is accepted -/

/-- What the reader makes of a phrase, wherever it stands. -/
def Fed (trailing : Bool) (ts : List Token) : Part → Prop
  | .value v => ∀ fs, feed trailing ⟨fs, .value⟩ ts = some ⟨fs, .after v⟩
  | .items vs => ∃ init v, vs = init ++ [v] ∧
      ∀ fs closes, feed trailing ⟨fs, .item [] closes⟩ ts = some ⟨.array init :: fs, .after v⟩
  | .members ms => ∃ init key v, ms = init ++ [(key, v)] ∧
      ∀ fs closes, feed trailing ⟨fs, .key [] closes⟩ ts = some ⟨.object init key :: fs, .after v⟩

/-- A value can stand where an item is due. -/
theorem Fed.item {ts : List Token} {v : Json} (h : Fed trailing ts (.value v)) (fs : List Frame)
    (items : List Json) (closes : Bool) :
    feed trailing ⟨fs, .item items closes⟩ ts = some ⟨.array items :: fs, .after v⟩ := by
  have hvalue := h (.array items :: fs)
  cases ts with
  | nil => cases hvalue
  | cons t ts =>
    have hne : t ≠ .endArray := by
      rintro rfl
      cases hvalue
    have hnext : next trailing ⟨fs, .item items closes⟩ t =
        next trailing ⟨.array items :: fs, .value⟩ t := if_neg hne
    rw [← hvalue, feed, Acceptor.feed_cons, hnext]
    rfl

theorem scalar_next {t : Token} {v : Json} (h : scalar? t = some v) (fs : List Frame) :
    readValue fs t = some ⟨fs, .after v⟩ := by
  cases t <;> first
    | cases h; done
    | simp [readValue, h]

/-- The end of a container, with or without a comma before it. -/
theorem feed_close {s closed : Spot} {comma : List Token} {bracket : Token}
    (hcomma : comma = [] ∨ trailing = true ∧ comma = [.valueSeparator])
    (hend : next trailing s bracket = some closed)
    (htrailing : trailing = true →
      ((next trailing s .valueSeparator).bind fun s' => next trailing s' bracket) = some closed) :
    feed trailing s (comma ++ [bracket]) = some closed := by
  rcases hcomma with rfl | ⟨htrue, rfl⟩
  · rw [List.nil_append, feed, Acceptor.feed_cons, hend]
    rfl
  · obtain ⟨s', hs', hclosed⟩ := Option.bind_eq_some_iff.1 (htrailing htrue)
    rw [List.singleton_append, feed, Acceptor.feed_cons, hs', Option.bind_some,
      Acceptor.feed_cons, hclosed]
    rfl

theorem Derives.fed {ts : List Token} {part : Part} (h : Derives trailing ts part) :
    Fed trailing ts part := by
  induction h with
  | scalar h =>
    intro fs
    rw [feed, Acceptor.feed_cons]
    show (readValue fs _).bind _ = _
    rw [scalar_next h]
    rfl
  | emptyArray => exact fun fs => rfl
  | @array ts vs h comma hcomma ih =>
    intro fs
    obtain ⟨init, v, rfl, hitems⟩ := ih
    have hopen : feed trailing ⟨fs, .value⟩ (.beginArray :: ts) =
        some ⟨.array init :: fs, .after v⟩ := hitems fs true
    rw [List.append_assoc, ← List.cons_append, feed, Acceptor.feed_append_of_eq hopen]
    exact feed_close hcomma rfl fun htrue => by rw [htrue]; rfl
  | emptyObject => exact fun fs => rfl
  | @object ts ms h comma hcomma ih =>
    intro fs
    obtain ⟨init, key, v, rfl, hmembers⟩ := ih
    have hopen : feed trailing ⟨fs, .value⟩ (.beginObject :: ts) =
        some ⟨.object init key :: fs, .after v⟩ := hmembers fs true
    rw [List.append_assoc, ← List.cons_append, feed, Acceptor.feed_append_of_eq hopen]
    exact feed_close hcomma rfl fun htrue => by rw [htrue]; rfl
  | @item ts v h ih => exact ⟨[], v, rfl, fun fs closes => Fed.item ih fs [] closes⟩
  | @items ts us vs v h hv ih ihv =>
    obtain ⟨init, w, rfl, hitems⟩ := ih
    refine ⟨init ++ [w], v, rfl, fun fs closes => ?_⟩
    rw [feed, Acceptor.feed_append_of_eq (hitems fs closes)]
    exact Fed.item ihv fs (init ++ [w]) trailing
  | @member us v key hv ih => exact ⟨[], key, v, rfl, fun fs closes => ih (.object [] key :: fs)⟩
  | @members ts us ms v h key hv ih ihv =>
    obtain ⟨init, key', w, rfl, hmembers⟩ := ih
    refine ⟨init ++ [(key', w)], key, v, rfl, fun fs closes => ?_⟩
    rw [feed, Acceptor.feed_append_of_eq (hmembers fs closes)]
    exact ihv (.object (init ++ [(key', w)]) key :: fs)

/-! ### What is accepted is derived -/

/-- The text between the bracket of an array and the place of its next item. -/
def ItemsBefore (trailing : Bool) (ts : List Token) (items : List Json) : Prop :=
  (ts = [] ∧ items = []) ∨
    ∃ us, Derives trailing us (.items items) ∧ ts = us ++ [.valueSeparator]

/-- The text between the bracket of an object and the place of its next key. -/
def MembersBefore (trailing : Bool) (ts : List Token) (members : List (String × Json)) : Prop :=
  (ts = [] ∧ members = []) ∨
    ∃ us, Derives trailing us (.members members) ∧ ts = us ++ [.valueSeparator]

theorem ItemsBefore.value {ts us : List Token} {items : List Json} {v : Json}
    (h : ItemsBefore trailing ts items) (hv : Derives trailing us (.value v)) :
    Derives trailing (ts ++ us) (.items (items ++ [v])) := by
  rcases h with ⟨rfl, rfl⟩ | ⟨us', h, rfl⟩
  · exact .item hv
  · rw [List.append_assoc]
    exact h.items hv

theorem MembersBefore.value {ts us : List Token} {members : List (String × Json)} {v : Json}
    (h : MembersBefore trailing ts members) (key : String)
    (hv : Derives trailing us (.value v)) :
    Derives trailing (ts ++ [.valueString key, .nameSeparator] ++ us)
      (.members (members ++ [(key, v)])) := by
  rcases h with ⟨rfl, rfl⟩ | ⟨us', h, rfl⟩
  · exact .member key hv
  · have hassoc : us' ++ [.valueSeparator] ++ [.valueString key, .nameSeparator] ++ us =
        us' ++ .valueSeparator :: .valueString key :: .nameSeparator :: us := by simp
    rw [hassoc]
    exact h.members key hv

/-- The text up to the hole that the open containers leave. -/
inductive Opened (trailing : Bool) : List Frame → List Token → Prop
  | nil : Opened trailing [] []
  | array {fs : List Frame} {ts us : List Token} {items : List Json} (h : Opened trailing fs ts)
      (hitems : ItemsBefore trailing us items) :
      Opened trailing (.array items :: fs) (ts ++ .beginArray :: us)
  | object {fs : List Frame} {ts us : List Token} {members : List (String × Json)} {key : String}
      (h : Opened trailing fs ts) (hmembers : MembersBefore trailing us members) :
      Opened trailing (.object members key :: fs)
        (ts ++ .beginObject :: (us ++ [.valueString key, .nameSeparator]))

/-- What has been read when the reader is at a place. -/
def ReadTo (trailing : Bool) (fs : List Frame) (ts : List Token) : Place → Prop
  | .value => Opened trailing fs ts
  | .item items closes => ∃ us us', ts = us ++ .beginArray :: us' ∧ Opened trailing fs us ∧
      ItemsBefore trailing us' items ∧ (closes = true → us' = [] ∨ trailing = true)
  | .key members closes => ∃ us us', ts = us ++ .beginObject :: us' ∧ Opened trailing fs us ∧
      MembersBefore trailing us' members ∧ (closes = true → us' = [] ∨ trailing = true)
  | .colon members key => ∃ us us', ts = us ++ .beginObject :: (us' ++ [.valueString key]) ∧
      Opened trailing fs us ∧ MembersBefore trailing us' members
  | .after v => ∃ us us', ts = us ++ us' ∧ Opened trailing fs us ∧
      Derives trailing us' (.value v)

section

variable {fs : List Frame} {ts : List Token} {s : Spot} {t : Token}

theorem readTo_value (h : Opened trailing fs ts) (hs : readValue fs t = some s) :
    ReadTo trailing s.frames (ts ++ [t]) s.place := by
  cases ht : scalar? t with
  | some v =>
    rw [scalar_next ht] at hs
    cases hs
    exact ⟨ts, [t], rfl, h, .scalar ht⟩
  | none =>
    cases t with
    | beginArray =>
      cases hs
      exact ⟨ts, [], rfl, h, .inl ⟨rfl, rfl⟩, fun _ => .inl rfl⟩
    | beginObject =>
      cases hs
      exact ⟨ts, [], rfl, h, .inl ⟨rfl, rfl⟩, fun _ => .inl rfl⟩
    | _ => simp [readValue, ht] at hs

theorem readTo_item {items : List Json} {closes : Bool}
    (h : ReadTo trailing fs ts (.item items closes)) (hs : readItem fs items closes t = some s) :
    ReadTo trailing s.frames (ts ++ [t]) s.place := by
  obtain ⟨us, us', rfl, hopened, hitems, hcloses⟩ := h
  unfold readItem at hs
  split_ifs at hs with hend hclose
  · cases hs
    refine ⟨us, .beginArray :: (us' ++ [t]), by simp, hopened, ?_⟩
    rw [hend]
    rcases hitems with ⟨rfl, rfl⟩ | ⟨ws, hws, rfl⟩
    · exact .emptyArray
    · -- a comma stands before the bracket
      have htrailing : trailing = true := by simpa using hcloses hclose
      exact .array hws (.inr ⟨htrailing, rfl⟩)
  · exact readTo_value (.array hopened hitems) hs

theorem readTo_key {members : List (String × Json)} {closes : Bool}
    (h : ReadTo trailing fs ts (.key members closes))
    (hs : readKey fs members closes t = some s) :
    ReadTo trailing s.frames (ts ++ [t]) s.place := by
  obtain ⟨us, us', rfl, hopened, hmembers, hcloses⟩ := h
  cases t with
  | valueString key =>
    cases hs
    exact ⟨us, us', by simp, hopened, hmembers⟩
  | endObject =>
    by_cases hclose : closes = true
    · simp only [readKey, hclose, if_true] at hs
      cases hs
      refine ⟨us, .beginObject :: (us' ++ [.endObject]), by simp, hopened, ?_⟩
      rcases hmembers with ⟨rfl, rfl⟩ | ⟨ws, hws, rfl⟩
      · exact .emptyObject
      · have htrailing : trailing = true := by simpa using hcloses hclose
        exact .object hws (.inr ⟨htrailing, rfl⟩)
    · simp [readKey, hclose] at hs
  | _ => cases hs

theorem readTo_after {v : Json} (h : ReadTo trailing fs ts (.after v))
    (hs : readAfter trailing v fs t = some s) : ReadTo trailing s.frames (ts ++ [t]) s.place := by
  obtain ⟨us, us', rfl, hopened, hv⟩ := h
  cases hopened with
  | nil => cases hs
  | @array fs us ws items hopened hitems =>
    have hmore := hitems.value hv
    cases t with
    | valueSeparator =>
      cases hs
      exact ⟨us, ws ++ us' ++ [.valueSeparator], by simp, hopened, .inr ⟨_, hmore, rfl⟩, .inr⟩
    | endArray =>
      cases hs
      exact ⟨us, .beginArray :: (ws ++ us' ++ [] ++ [.endArray]), by simp, hopened,
        .array hmore (.inl rfl)⟩
    | _ => cases hs
  | @object fs us ws members key hopened hmembers =>
    have hmore := hmembers.value key hv
    cases t with
    | valueSeparator =>
      cases hs
      exact ⟨us, ws ++ [.valueString key, .nameSeparator] ++ us' ++ [.valueSeparator], by simp,
        hopened, .inr ⟨_, hmore, rfl⟩, .inr⟩
    | endObject =>
      cases hs
      exact ⟨us, .beginObject :: (ws ++ [.valueString key, .nameSeparator] ++ us' ++ [] ++
        [.endObject]), by simp, hopened, .object hmore (.inl rfl)⟩
    | _ => cases hs

/-- What a token adds. -/
theorem readTo_next {place : Place} (h : ReadTo trailing fs ts place)
    (hs : next trailing ⟨fs, place⟩ t = some s) :
    ReadTo trailing s.frames (ts ++ [t]) s.place := by
  cases place with
  | value => exact readTo_value h hs
  | item items closes => exact readTo_item h hs
  | key members closes => exact readTo_key h hs
  | colon members key =>
    obtain ⟨us, us', rfl, hopened, hmembers⟩ := h
    have hs' : readColon fs members key t = some s := hs
    unfold readColon at hs'
    split_ifs at hs' with hcolon
    cases hs'
    have hassoc : us ++ .beginObject :: (us' ++ [.valueString key]) ++ [t] =
        us ++ .beginObject :: (us' ++ [.valueString key, .nameSeparator]) := by simp [hcolon]
    rw [hassoc]
    exact .object hopened hmembers
  | after v => exact readTo_after h hs

end

/-- **The reader accepts what the grammar derives**, with the same value. -/
theorem derives_iff_feed (ts : List Token) (v : Json) :
    Derives trailing ts (.value v) ↔ feed trailing start ts = some (finish v) := by
  constructor
  · exact fun h => h.fed []
  · intro h
    have hread : ReadTo trailing (finish v).frames ts (finish v).place :=
      Acceptor.feed_invariant
        (I := fun (ts : List Token) (s : Spot) => ReadTo trailing s.frames ts s.place)
        (fun ts s t s' hread hs => readTo_next hread hs)
        (show ReadTo trailing start.frames [] start.place from Opened.nil) h
    obtain ⟨us, us', rfl, hopened, hv⟩ := hread
    cases hopened
    exact hv

/-! ### What has been read can be completed -/

/-- The open containers can be closed. -/
theorem exists_close (v : Json) (fs : List Frame) :
    ∃ more w, feed trailing ⟨fs, .after v⟩ more = some (finish w) := by
  induction fs generalizing v with
  | nil => exact ⟨[], v, rfl⟩
  | cons f fs ih =>
    cases f with
    | array items =>
      obtain ⟨more, w, hw⟩ := ih (.array (items ++ [v]))
      exact ⟨.endArray :: more, w, hw⟩
    | object members key =>
      obtain ⟨more, w, hw⟩ := ih (.object (Json.storeAll (members ++ [(key, v)])))
      exact ⟨.endObject :: more, w, hw⟩

/-- Whatever has been read, something completes it. -/
theorem exists_end (s : Spot) : ∃ more w, feed trailing s more = some (finish w) := by
  obtain ⟨fs, place⟩ := s
  cases place with
  | value =>
    obtain ⟨more, w, hw⟩ := exists_close .null fs
    exact ⟨.literalNull :: more, w, hw⟩
  | item items closes =>
    obtain ⟨more, w, hw⟩ := exists_close .null (.array items :: fs)
    exact ⟨.literalNull :: more, w, hw⟩
  | key members closes =>
    obtain ⟨more, w, hw⟩ := exists_close .null (.object members "" :: fs)
    exact ⟨.valueString "" :: .nameSeparator :: .literalNull :: more, w, hw⟩
  | colon members key =>
    obtain ⟨more, w, hw⟩ := exists_close .null (.object members key :: fs)
    exact ⟨.nameSeparator :: .literalNull :: more, w, hw⟩
  | after v => exact exists_close v fs

/-- Some text begins with these tokens. -/
def Viable (trailing : Bool) (ts : List Token) : Prop :=
  ∃ more v, Derives trailing (ts ++ more) (.value v)

theorem viable_iff (ts : List Token) :
    Viable trailing ts ↔ Acceptor.Viable (next trailing) (fun s => ∃ v, s = finish v) start ts := by
  constructor
  · rintro ⟨more, v, h⟩
    exact ⟨more, finish v, (derives_iff_feed _ v).1 h, v, rfl⟩
  · rintro ⟨more, s, h, v, rfl⟩
    exact ⟨more, v, (derives_iff_feed _ v).2 h⟩

/-- **A token is rejected exactly when no text goes on with it.** -/
theorem viable_iff_feed (ts : List Token) :
    Viable trailing ts ↔ ∃ s, feed trailing start ts = some s := by
  rw [viable_iff]
  refine Acceptor.viable_iff (fun s => ?_) ts
  obtain ⟨more, w, hw⟩ := exists_end s
  exact ⟨more, finish w, hw, w, rfl⟩

theorem not_viable_concat {ts : List Token} {s : Spot} {t : Token}
    (h : feed trailing start ts = some s) (ht : next trailing s t = none) :
    ¬ Viable trailing (ts ++ [t]) :=
  fun hviable => Acceptor.not_viable_concat h ht ((viable_iff _).1 hviable)

theorem viable_concat {ts : List Token} {s s' : Spot} {t : Token}
    (h : feed trailing start ts = some s) (ht : next trailing s t = some s') :
    Viable trailing (ts ++ [t]) :=
  (viable_iff_feed _).2 ⟨s', Acceptor.feed_concat h ht⟩

end JsonText

end UltraMds
