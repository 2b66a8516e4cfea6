import UltraMds.DataHandler.SpecialConfig
import UltraMds.Library.Fallible

/-!
# The two layers of the configuration

`WellTyped o` says that each configuration key of the object `o` has the JSON type of its field.
On well-typed objects the two passes of `SpecialConfig.fromJson` compute one function,
`overlay`: each field is taken from the object if it is there and from the configuration so far
if it is not.  Overlaying twice is overlaying the merged object once (`overlay_override`), so
the three ways of handing over the same rules agree (`fromJson_layers`).

Whatever the JSON is, a configuration that comes out of `fromJson` is `Normal`: between one and
five levels are checked and the tick size is positive.
-/

namespace UltraMds

/-- The JSON types of the configuration fields. -/
inductive FieldType
  | int
  | double
  | bool
  | string
  | stringArray
  deriving DecidableEq

/-- The values of each type; an `int` field wants an integer within `int`. -/
def FieldType.holds : FieldType → Json → Bool
  | .int, .numberInteger n => decide (-2 ^ 31 ≤ n ∧ n < 2 ^ 31)
  | .double, .numberInteger _ => true
  | .double, .numberFloat _ => true
  | .bool, .boolean _ => true
  | .string, .string _ => true
  | .stringArray, .array items => items.all Json.isString
  | _, _ => false

/-- The configuration keys and the types of their fields. -/
def configKeys : List (String × FieldType) :=
  [("port", .int), ("Multi_add", .string),
    ("enable_exchange_check", .bool), ("enable_timestamp_check", .bool),
    ("enable_price_check", .bool), ("enable_volume_check", .bool),
    ("enable_abnormal_packet_check", .bool),
    ("timestamp_base", .string), ("max_disorder_tolerance_ms", .int),
    ("allow_same_ms_data", .bool),
    ("check_bid_ask_levels", .int), ("max_invert_spread_tick", .int),
    ("tick_size", .double), ("limit_price_tolerance_ratio", .double),
    ("skip_zero_limit_price", .bool), ("exchange_whitelist", .stringArray)]

/-- Each configuration key that the object contains has the type of its field. -/
def WellTyped (o : List (String × Json)) : Prop :=
  ∀ kt ∈ configKeys, ∀ v ∈ o.lookup kt.1, kt.2.holds v = true

instance : DecidablePred WellTyped := fun o =>
  inferInstanceAs (Decidable (∀ kt ∈ configKeys, ∀ v ∈ o.lookup kt.1, kt.2.holds v = true))

/-! ### Reading one field -/

theorem getInt_ok {v : Json} (h : FieldType.int.holds v = true) : ∃ n, v.getInt = .ok n := by
  cases v with
  | numberInteger n => exact ⟨_, rfl⟩
  | _ => simp [FieldType.holds] at h

theorem getDouble_ok {v : Json} (h : FieldType.double.holds v = true) :
    ∃ q, v.getDouble = .ok q := by
  cases v with
  | numberInteger n => exact ⟨_, rfl⟩
  | numberFloat q => exact ⟨_, rfl⟩
  | _ => simp [FieldType.holds] at h

theorem getBool_ok {v : Json} (h : FieldType.bool.holds v = true) : ∃ b, v.getBool = .ok b := by
  cases v with
  | boolean b => exact ⟨_, rfl⟩
  | _ => simp [FieldType.holds] at h

theorem getString_ok {v : Json} (h : FieldType.string.holds v = true) :
    ∃ s, v.getString = .ok s := by
  cases v with
  | string s => exact ⟨_, rfl⟩
  | _ => simp [FieldType.holds] at h

/-- An array of strings as a list. -/
def getStrings (j : Json) : Except JsonError (List String) := pushStrings [] j.items

theorem pushStrings_ok {items : List Json} (h : items.all Json.isString = true)
    (whitelist : List String) : ∃ ss, pushStrings whitelist items = .ok ss := by
  induction items generalizing whitelist with
  | nil => exact ⟨whitelist, rfl⟩
  | cons j rest ih =>
    obtain ⟨hj, hrest⟩ := (by simpa using h : j.isString = true ∧ _)
    cases j with
    | string s => exact ih (by simpa using hrest) (whitelist ++ [s])
    | _ => simp [Json.isString] at hj

theorem getStrings_ok {v : Json} (h : FieldType.stringArray.holds v = true) :
    v.isArray = true ∧ ∃ ss, getStrings v = .ok ss := by
  cases v with
  | array items => exact ⟨rfl, pushStrings_ok h []⟩
  | _ => simp [FieldType.holds] at h

/-- The field with the given key: from the object if it is there, else the value so far. -/
def pick {α : Type} (get : Json → Except JsonError α) (o : List (String × Json)) (key : String)
    (x : α) : α :=
  match o.lookup key with
  | some v => (get v).toOption.getD x
  | none => x

theorem assign_eq_pick {α : Type} {get : Json → Except JsonError α} {o : List (String × Json)}
    {key : String} (h : ∀ v ∈ o.lookup key, ∃ a, get v = .ok a) (x : α) :
    (Json.object o).assign get key x = .ok (pick get o key x) := by
  cases hv : o.lookup key with
  | none => simp [Json.assign, Json.contains, pick, hv]
  | some v =>
    obtain ⟨a, ha⟩ := h v hv
    simp [Json.assign, Json.contains, Json.member, pick, hv, ha, Except.toOption]

/-- Picking from a merged object is picking from the one object after the other. -/
theorem pick_override {α : Type} {get : Json → Except JsonError α} {cs : List (String × Json)}
    {key : String} (h : ∀ v ∈ cs.lookup key, ∃ a, get v = .ok a) (gs : List (String × Json))
    (x : α) : pick get (Json.override gs cs) key x = pick get cs key (pick get gs key x) := by
  rw [pick, Json.lookup_override]
  cases hv : cs.lookup key with
  | none => simp [pick, hv]
  | some v =>
    obtain ⟨a, ha⟩ := h v hv
    simp [pick, hv, ha, Except.toOption]

/-- A repair that is done again after the last pick need not be done before. -/
theorem repair_pick {α : Type} {f : α → α} (hf : ∀ a, f (f a) = f a)
    (get : Json → Except JsonError α) (o : List (String × Json)) (key : String) (x : α) :
    f (pick get o key (f x)) = f (pick get o key x) := by
  cases hv : o.lookup key with
  | none => simp [pick, hv, hf]
  | some v => cases hg : get v <;> simp [pick, hv, hg, hf, Except.toOption]

theorem clamp_clamp (v : ℤ) : clamp (clamp v 1 5) 1 5 = clamp v 1 5 := by
  unfold clamp
  split_ifs <;> omega

theorem clamp_pick (get : Json → Except JsonError ℤ) (o : List (String × Json)) (key : String)
    (x : ℤ) : clamp (pick get o key (clamp x 1 5)) 1 5 = clamp (pick get o key x) 1 5 :=
  @repair_pick ℤ (fun v => clamp v 1 5) clamp_clamp get o key x

theorem clamp_mem (v : ℤ) : 1 ≤ clamp v 1 5 ∧ clamp v 1 5 ≤ 5 := by
  unfold clamp
  split_ifs <;> omega

theorem resetTickSize_pos (q : ℚ) : 0 < resetTickSize q := by
  unfold resetTickSize
  split_ifs with h
  · exact one_pos
  · exact not_le.1 h

theorem resetTickSize_resetTickSize (q : ℚ) :
    resetTickSize (resetTickSize q) = resetTickSize q := by
  rw [resetTickSize, if_neg (not_le.2 (resetTickSize_pos q))]

/-! ### One layer -/

namespace WellTyped

variable {o : List (String × Json)} (h : WellTyped o)

include h

/-- A field of a well-typed object can be read. -/
theorem read {α : Type} {get : Json → Except JsonError α} {type : FieldType}
    (hget : ∀ {v : Json}, type.holds v = true → ∃ a, get v = .ok a) {key : String}
    (hk : (key, type) ∈ configKeys) : ∀ v ∈ o.lookup key, ∃ a, get v = .ok a :=
  fun v hv => hget (h _ hk v hv)

variable {key : String}

theorem assign_int (hk : (key, FieldType.int) ∈ configKeys) (x : ℤ) :
    (Json.object o).assign Json.getInt key x = .ok (pick Json.getInt o key x) :=
  assign_eq_pick (h.read getInt_ok hk) x

theorem assign_double (hk : (key, FieldType.double) ∈ configKeys) (x : ℚ) :
    (Json.object o).assign Json.getDouble key x = .ok (pick Json.getDouble o key x) :=
  assign_eq_pick (h.read getDouble_ok hk) x

theorem assign_bool (hk : (key, FieldType.bool) ∈ configKeys) (x : Bool) :
    (Json.object o).assign Json.getBool key x = .ok (pick Json.getBool o key x) :=
  assign_eq_pick (h.read getBool_ok hk) x

theorem assign_string (hk : (key, FieldType.string) ∈ configKeys) (x : String) :
    (Json.object o).assign Json.getString key x = .ok (pick Json.getString o key x) :=
  assign_eq_pick (h.read getString_ok hk) x

theorem override_int (hk : (key, FieldType.int) ∈ configKeys) (gs : List (String × Json)) (x : ℤ) :
    pick Json.getInt (Json.override gs o) key x =
      pick Json.getInt o key (pick Json.getInt gs key x) :=
  pick_override (h.read getInt_ok hk) gs x

theorem override_double (hk : (key, FieldType.double) ∈ configKeys) (gs : List (String × Json))
    (x : ℚ) : pick Json.getDouble (Json.override gs o) key x =
      pick Json.getDouble o key (pick Json.getDouble gs key x) :=
  pick_override (h.read getDouble_ok hk) gs x

theorem override_bool (hk : (key, FieldType.bool) ∈ configKeys) (gs : List (String × Json))
    (x : Bool) : pick Json.getBool (Json.override gs o) key x =
      pick Json.getBool o key (pick Json.getBool gs key x) :=
  pick_override (h.read getBool_ok hk) gs x

theorem override_string (hk : (key, FieldType.string) ∈ configKeys) (gs : List (String × Json))
    (x : String) : pick Json.getString (Json.override gs o) key x =
      pick Json.getString o key (pick Json.getString gs key x) :=
  pick_override (h.read getString_ok hk) gs x

theorem override_strings (hk : (key, FieldType.stringArray) ∈ configKeys)
    (gs : List (String × Json)) (x : List String) :
    pick getStrings (Json.override gs o) key x = pick getStrings o key (pick getStrings gs key x) :=
  pick_override (h.read (fun hv => (getStrings_ok hv).2) hk) gs x

/-- The whitelist branch of either pass, where the list it appends to is empty. -/
theorem readWhitelist_eq_pick (x : List String) :
    readWhitelist (.object o) [] x = .ok (pick getStrings o "exchange_whitelist" x) := by
  cases hv : o.lookup "exchange_whitelist" with
  | none => simp [readWhitelist, Json.contains, pick, hv]
  | some v =>
    obtain ⟨harr, ss, hss⟩ :=
      getStrings_ok (h ("exchange_whitelist", .stringArray) (by decide) v hv)
    have hpush : pushStrings [] v.items = .ok ss := hss
    simp [readWhitelist, Json.contains, Json.member, pick, hv, harr, hss, hpush, Except.toOption]

end WellTyped

namespace SpecialConfig

/-- The configuration with the fields of the object `o` taken over. -/
def overlay (config : SpecialConfig) (o : List (String × Json)) : SpecialConfig :=
  { config with
    mUdpConfig := { config.mUdpConfig with
      port := pick Json.getInt o "port" config.mUdpConfig.port
      multiAdd := pick Json.getString o "Multi_add" config.mUdpConfig.multiAdd }
    enableExchangeCheck := pick Json.getBool o "enable_exchange_check" config.enableExchangeCheck
    enableTimestampCheck := pick Json.getBool o "enable_timestamp_check" config.enableTimestampCheck
    enablePriceCheck := pick Json.getBool o "enable_price_check" config.enablePriceCheck
    enableVolumeCheck := pick Json.getBool o "enable_volume_check" config.enableVolumeCheck
    enableAbnormalPacketCheck :=
      pick Json.getBool o "enable_abnormal_packet_check" config.enableAbnormalPacketCheck
    timestampBase := pick Json.getString o "timestamp_base" config.timestampBase
    maxDisorderToleranceMs :=
      pick Json.getInt o "max_disorder_tolerance_ms" config.maxDisorderToleranceMs
    allowSameMsData := pick Json.getBool o "allow_same_ms_data" config.allowSameMsData
    checkBidAskLevels :=
      clamp (pick Json.getInt o "check_bid_ask_levels" config.checkBidAskLevels) 1 5
    maxInvertSpreadTick := pick Json.getInt o "max_invert_spread_tick" config.maxInvertSpreadTick
    tickSize := resetTickSize (pick Json.getDouble o "tick_size" config.tickSize)
    limitPriceToleranceRatio :=
      pick Json.getDouble o "limit_price_tolerance_ratio" config.limitPriceToleranceRatio
    skipZeroLimitPrice := pick Json.getBool o "skip_zero_limit_price" config.skipZeroLimitPrice
    exchangeWhitelist := pick getStrings o "exchange_whitelist" config.exchangeWhitelist }

theorem loadGlobal_eq_overlay {config : SpecialConfig} {o : List (String × Json)}
    (hw : config.exchangeWhitelist = []) (h : WellTyped o) :
    config.loadGlobal (.object o) = .ok (config.overlay o) := by
  simp (disch := decide) only [loadGlobal, Json.value_eq_assign, hw, h.readWhitelist_eq_pick,
    h.assign_int, h.assign_double, h.assign_bool, h.assign_string]
  rw [overlay, hw]
  rfl

/-- The contract pass clamps inside the assignment; after an earlier clamp that is the same. -/
theorem assign_clamp_eq_pick {o : List (String × Json)} {levels : ℤ}
    (hl : clamp levels 1 5 = levels) (h : WellTyped o) :
    (Json.object o).assign (fun v => (clamp · 1 5) <$> v.getInt) "check_bid_ask_levels" levels =
      .ok (clamp (pick Json.getInt o "check_bid_ask_levels" levels) 1 5) := by
  cases hv : o.lookup "check_bid_ask_levels" with
  | none => simp [Json.assign, Json.contains, pick, hv, hl]
  | some v =>
    obtain ⟨n, hn⟩ := getInt_ok (h ("check_bid_ask_levels", .int) (by decide) v hv)
    simp [Json.assign, Json.contains, Json.member, pick, hv, hn, Except.toOption, Functor.map,
      Except.map]

theorem loadContract_eq_overlay {config : SpecialConfig} {o : List (String × Json)}
    (hl : clamp config.checkBidAskLevels 1 5 = config.checkBidAskLevels) (h : WellTyped o) :
    config.loadContract (.object o) = .ok (config.overlay o) := by
  simp (disch := decide) only [loadContract, h.readWhitelist_eq_pick, assign_clamp_eq_pick hl h,
    h.assign_int, h.assign_double, h.assign_bool, h.assign_string]
  rfl

/-- **Two overlays are one overlay of the merged object.** -/
theorem overlay_override (config : SpecialConfig) (gs : List (String × Json))
    {cs : List (String × Json)} (h : WellTyped cs) :
    (config.overlay gs).overlay cs = config.overlay (Json.override gs cs) := by
  simp (disch := decide) only [overlay, repair_pick resetTickSize_resetTickSize, clamp_pick,
    h.override_int, h.override_double, h.override_bool, h.override_string, h.override_strings]

theorem overlay_nil (config : SpecialConfig)
    (hl : clamp config.checkBidAskLevels 1 5 = config.checkBidAskLevels)
    (ht : resetTickSize config.tickSize = config.tickSize) : config.overlay [] = config := by
  simp only [overlay, pick, List.lookup_nil, hl, ht]

/-! ### The result of `fromJson` -/

/-- The bounds that every loaded configuration satisfies. -/
structure Normal (config : SpecialConfig) : Prop where
  one_le_levels : 1 ≤ config.checkBidAskLevels
  levels_le_five : config.checkBidAskLevels ≤ 5
  tickSize_pos : 0 < config.tickSize

theorem Normal.default : Normal {} := ⟨by decide, by decide, by decide⟩

theorem setEndpoint_normal {makeAddress : String → Option Address} {config : SpecialConfig}
    (h : Normal config) : Normal (config.setEndpoint makeAddress) := by
  unfold setEndpoint
  split
  · exact ⟨h.one_le_levels, h.levels_le_five, h.tickSize_pos⟩
  · exact ⟨h.one_le_levels, h.levels_le_five, h.tickSize_pos⟩

/-- Rules that are not well-typed may be accepted too, after conversion; the bounds hold even
then. -/
theorem loadGlobal_normal {config config' : SpecialConfig} {j : Json}
    (h : config.loadGlobal j = .ok config') : Normal config' := by
  unfold loadGlobal at h
  iterate 16 obtain ⟨_, -, h⟩ := Fallible.exists_of_bind_eq_ok h
  cases h
  exact ⟨(clamp_mem _).1, (clamp_mem _).2, resetTickSize_pos _⟩

theorem assign_clamp_mem {j : Json} {key : String} {x n : ℤ}
    (h : j.assign (fun v => (clamp · 1 5) <$> v.getInt) key x = .ok n) (hx : 1 ≤ x ∧ x ≤ 5) :
    1 ≤ n ∧ n ≤ 5 := by
  unfold Json.assign at h
  split at h
  · cases hv : (j.member key).getInt with
    | error e => simp [hv, Functor.map, Except.map] at h
    | ok v =>
      simp only [hv, Functor.map, Except.map, Except.ok.injEq] at h
      exact h ▸ clamp_mem v
  · cases h
    exact hx

theorem loadContract_normal {config config' : SpecialConfig} {j : Json} (hn : Normal config)
    (h : config.loadContract j = .ok config') : Normal config' := by
  unfold loadContract at h
  iterate 10 obtain ⟨_, -, h⟩ := Fallible.exists_of_bind_eq_ok h
  obtain ⟨levels, hlevels, h⟩ := Fallible.exists_of_bind_eq_ok h
  iterate 5 obtain ⟨_, -, h⟩ := Fallible.exists_of_bind_eq_ok h
  cases h
  have := assign_clamp_mem hlevels ⟨hn.one_le_levels, hn.levels_le_five⟩
  exact ⟨this.1, this.2, resetTickSize_pos _⟩

theorem globalLayer_normal {config config' : SpecialConfig} {j : Json} (hn : Normal config)
    (h : config.globalLayer j = .ok config') : Normal config' := by
  unfold globalLayer at h
  split at h
  · cases h
    exact hn
  · exact loadGlobal_normal h

theorem contractLayer_normal {config config' : SpecialConfig} {j : Option Json}
    (hn : Normal config) (h : config.contractLayer j = .ok config') : Normal config' := by
  cases j with
  | none =>
    cases h
    exact hn
  | some cJson =>
    simp only [contractLayer] at h
    split at h
    · cases h
      exact hn
    · exact loadContract_normal hn h

/-- **Every loaded configuration is within its bounds**, well-typed rules or not. -/
theorem fromJson_normal {makeAddress : String → Option Address} {globalJson : Json}
    {contractJson : Option Json} {config : SpecialConfig}
    (h : fromJson makeAddress globalJson contractJson = .ok config) : Normal config := by
  unfold fromJson at h
  obtain ⟨_, hglobal, h⟩ := Fallible.exists_of_bind_eq_ok h
  obtain ⟨_, hcontract, h⟩ := Fallible.exists_of_bind_eq_ok h
  cases h
  exact setEndpoint_normal (contractLayer_normal (globalLayer_normal .default hglobal) hcontract)

/-- Well-typed rules in two layers. -/
theorem fromJson_object (makeAddress : String → Option Address) {gs cs : List (String × Json)}
    (hg : WellTyped gs) (hc : WellTyped cs) :
    fromJson makeAddress (.object gs) (some (.object cs)) =
      .ok (setEndpoint makeAddress ((overlay {} gs).overlay cs)) := by
  have hl : clamp (overlay {} gs).checkBidAskLevels 1 5 = (overlay {} gs).checkBidAskLevels :=
    clamp_clamp _
  have h1 : globalLayer {} (.object gs) = .ok (overlay {} gs) := loadGlobal_eq_overlay rfl hg
  have h2 : contractLayer (overlay {} gs) (some (.object cs)) = .ok ((overlay {} gs).overlay cs) :=
    loadContract_eq_overlay hl hc
  rw [fromJson, h1]
  change (contractLayer (overlay {} gs) (some (.object cs)) >>= _) = _
  rw [h2]
  rfl

/-- Well-typed rules in the global layer alone. -/
theorem fromJson_object_none (makeAddress : String → Option Address)
    {gs : List (String × Json)} (hg : WellTyped gs) :
    fromJson makeAddress (.object gs) none = .ok (setEndpoint makeAddress (overlay {} gs)) := by
  have h1 : globalLayer {} (.object gs) = .ok (overlay {} gs) := loadGlobal_eq_overlay rfl hg
  rw [fromJson, h1]
  rfl

/-- Well-typed rules in the contract layer alone, when there are no global rules at all. -/
theorem fromJson_null_object (makeAddress : String → Option Address)
    {cs : List (String × Json)} (hc : WellTyped cs) :
    fromJson makeAddress .null (some (.object cs)) =
      .ok (setEndpoint makeAddress (overlay {} cs)) := by
  have h2 : contractLayer {} (some (.object cs)) = .ok (overlay {} cs) :=
    loadContract_eq_overlay (by decide) hc
  rw [fromJson]
  change (contractLayer {} (some (.object cs)) >>= _) = _
  rw [h2]
  rfl

end SpecialConfig

theorem wellTyped_nil : WellTyped [] := by decide

theorem WellTyped.override {gs cs : List (String × Json)} (hg : WellTyped gs)
    (hc : WellTyped cs) : WellTyped (Json.override gs cs) := by
  intro kt hkt v hv
  rw [Json.lookup_override] at hv
  cases hcs : cs.lookup kt.1 with
  | none => exact hg kt hkt v (by simpa [hcs] using hv)
  | some w => exact hc kt hkt v (by simpa [hcs] using hv)

open SpecialConfig in
/-- **The layers of the configuration**: well-typed rules give the same configuration as two
layers, as one merged global layer, and as one merged contract layer over an empty (or absent)
global one. -/
theorem fromJson_layers (makeAddress : String → Option Address) (gs cs : List (String × Json))
    (hg : WellTyped gs) (hc : WellTyped cs) :
    ∃ config : SpecialConfig,
      fromJson makeAddress (.object gs) (some (.object cs)) = .ok config ∧
      fromJson makeAddress (.object (Json.override gs cs)) none = .ok config ∧
      fromJson makeAddress (.object []) (some (.object (Json.override gs cs))) = .ok config ∧
      fromJson makeAddress .null (some (.object (Json.override gs cs))) = .ok config ∧
      (1 ≤ config.checkBidAskLevels ∧ config.checkBidAskLevels ≤ 5) ∧ 0 < config.tickSize := by
  have hm := hg.override hc
  have h1 := fromJson_object makeAddress hg hc
  have h2 := fromJson_object_none makeAddress hm
  have h3 := fromJson_object makeAddress wellTyped_nil hm
  have h4 := fromJson_null_object makeAddress hm
  rw [overlay_override {} gs hc] at h1
  rw [overlay_nil {} (by decide) (by decide)] at h3
  have hn := fromJson_normal h1
  exact ⟨_, h1, h2, h3, h4, ⟨hn.one_le_levels, hn.levels_le_five⟩, hn.tickSize_pos⟩

/-- The object `global_default` of the shipped configuration file. -/
def sampleGlobalDefault : List (String × Json) :=
  [("port", .numberInteger 8888), ("Multi_add", .string "239.0.0.1"),
    ("enable_exchange_check", .boolean true), ("enable_timestamp_check", .boolean true),
    ("enable_price_check", .boolean true), ("enable_volume_check", .boolean true),
    ("enable_abnormal_packet_check", .boolean true), ("timestamp_base", .string "TradingDay"),
    ("max_disorder_tolerance_ms", .numberInteger 10), ("allow_same_ms_data", .boolean true),
    ("check_bid_ask_levels", .numberInteger 1), ("max_invert_spread_tick", .numberInteger 1),
    ("tick_size", .numberFloat 1), ("limit_price_tolerance_ratio", .numberFloat (1 / 10000)),
    ("skip_zero_limit_price", .boolean true),
    ("exchange_whitelist", .array [.string "", .string "CFFEX"])]

/-- The entry of the contract `IF2603` in the shipped configuration file. -/
def sampleContractRules : List (String × Json) :=
  [("port", .numberInteger 8889), ("check_bid_ask_levels", .numberInteger 5),
    ("max_invert_spread_tick", .numberInteger 2), ("tick_size", .numberFloat (1 / 5))]

open SpecialConfig in
theorem fromJson_layers_sample :
    ∃ config : SpecialConfig,
      fromJson sampleAddress (.object sampleGlobalDefault)
        (some (.object sampleContractRules)) = .ok config ∧
      fromJson sampleAddress (.object (Json.override sampleGlobalDefault sampleContractRules))
        none = .ok config ∧
      fromJson sampleAddress (.object [])
        (some (.object (Json.override sampleGlobalDefault sampleContractRules))) = .ok config ∧
      fromJson sampleAddress .null
        (some (.object (Json.override sampleGlobalDefault sampleContractRules))) = .ok config ∧
      (1 ≤ config.checkBidAskLevels ∧ config.checkBidAskLevels ≤ 5) ∧ 0 < config.tickSize :=
  fromJson_layers sampleAddress sampleGlobalDefault sampleContractRules (by decide) (by decide)

end UltraMds
