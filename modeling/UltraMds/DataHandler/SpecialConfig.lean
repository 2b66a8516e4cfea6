import UltraMds.Tool.Json

/-!
# Validation rules of a contract

`SpecialConfig.fromJson` builds the rules of one contract from the global JSON rules and the
contract's own.  The two layers are read by two differently written passes, `loadGlobal`
(`value` with a default) and `loadContract` (`contains`, then assign); the endpoint is made from
the text and the port that are left at the end.
-/

namespace UltraMds

/-- `asio::ip::address`. -/
inductive Address
  | v4 (bytes : BitVec 32)
  | v6 (bytes : BitVec 128) (scopeId : BitVec 32)
  deriving DecidableEq

/-- `asio::ip::udp::endpoint`, by default the unspecified address with port 0. -/
structure Endpoint where
  address : Address := .v4 0
  port : BitVec 16 := 0
  deriving DecidableEq

structure UDPConfig where
  multiAdd : String := ""
  port : ℤ := 8888
  targetEndpoint : Endpoint := {}
  deriving DecidableEq

/-- The rules of one contract, with the defaults of the source. -/
structure SpecialConfig where
  mUdpConfig : UDPConfig := {}
  enableExchangeCheck : Bool := true
  enableTimestampCheck : Bool := true
  enablePriceCheck : Bool := true
  enableVolumeCheck : Bool := true
  enableAbnormalPacketCheck : Bool := true
  timestampBase : String := "TradingDay"
  maxDisorderToleranceMs : ℤ := 10
  allowSameMsData : Bool := true
  checkBidAskLevels : ℤ := 1
  maxInvertSpreadTick : ℤ := 1
  tickSize : ℚ := 1
  limitPriceToleranceRatio : ℚ := 1 / 10000
  skipZeroLimitPrice : Bool := true
  exchangeWhitelist : List String := []
  deriving DecidableEq

/-- `std::clamp(v, lo, hi)`. -/
def clamp (v lo hi : ℤ) : ℤ := if v < lo then lo else if hi < v then hi else v

/-- `if (tick_size <= 0) tick_size = 1.0;` -/
def resetTickSize (q : ℚ) : ℚ := if q ≤ 0 then 1 else q

/-- The loop `for (exch : j) whitelist.push_back(exch.get<std::string>())`. -/
def pushStrings (whitelist : List String) : List Json → Except JsonError (List String)
  | [] => .ok whitelist
  | exch :: rest => do
    let s ← exch.getString
    pushStrings (whitelist ++ [s]) rest

/-- The whitelist branch: an array found under the key is appended to `start`, and the list so
far is kept when there is none. -/
def readWhitelist (j : Json) (start soFar : List String) : Except JsonError (List String) :=
  if j.contains "exchange_whitelist" && (j.member "exchange_whitelist").isArray then
    pushStrings start (j.member "exchange_whitelist").items
  else .ok soFar

namespace SpecialConfig

/-- The global layer of `fromJson`. -/
def loadGlobal (config : SpecialConfig) (globalJson : Json) : Except JsonError SpecialConfig := do
  let port ← globalJson.value Json.getInt "port" config.mUdpConfig.port
  let multiAdd ← globalJson.value Json.getString "Multi_add" config.mUdpConfig.multiAdd
  let enableExchangeCheck ←
    globalJson.value Json.getBool "enable_exchange_check" config.enableExchangeCheck
  let enableTimestampCheck ←
    globalJson.value Json.getBool "enable_timestamp_check" config.enableTimestampCheck
  let enablePriceCheck ← globalJson.value Json.getBool "enable_price_check" config.enablePriceCheck
  let enableVolumeCheck ←
    globalJson.value Json.getBool "enable_volume_check" config.enableVolumeCheck
  let enableAbnormalPacketCheck ←
    globalJson.value Json.getBool "enable_abnormal_packet_check" config.enableAbnormalPacketCheck
  let timestampBase ← globalJson.value Json.getString "timestamp_base" config.timestampBase
  let maxDisorderToleranceMs ←
    globalJson.value Json.getInt "max_disorder_tolerance_ms" config.maxDisorderToleranceMs
  let allowSameMsData ← globalJson.value Json.getBool "allow_same_ms_data" config.allowSameMsData
  let checkBidAskLevels ←
    globalJson.value Json.getInt "check_bid_ask_levels" config.checkBidAskLevels
  let maxInvertSpreadTick ←
    globalJson.value Json.getInt "max_invert_spread_tick" config.maxInvertSpreadTick
  let tickSize ← globalJson.value Json.getDouble "tick_size" config.tickSize
  let limitPriceToleranceRatio ←
    globalJson.value Json.getDouble "limit_price_tolerance_ratio" config.limitPriceToleranceRatio
  let skipZeroLimitPrice ←
    globalJson.value Json.getBool "skip_zero_limit_price" config.skipZeroLimitPrice
  let exchangeWhitelist ← readWhitelist globalJson config.exchangeWhitelist config.exchangeWhitelist
  return { config with
    mUdpConfig := { config.mUdpConfig with port, multiAdd }
    enableExchangeCheck, enableTimestampCheck, enablePriceCheck, enableVolumeCheck
    enableAbnormalPacketCheck, timestampBase, maxDisorderToleranceMs, allowSameMsData
    checkBidAskLevels := clamp checkBidAskLevels 1 5
    maxInvertSpreadTick
    tickSize := resetTickSize tickSize
    limitPriceToleranceRatio, skipZeroLimitPrice, exchangeWhitelist }

/-- The contract layer of `fromJson`. -/
def loadContract (config : SpecialConfig) (cJson : Json) : Except JsonError SpecialConfig := do
  let port ← cJson.assign Json.getInt "port" config.mUdpConfig.port
  let multiAdd ← cJson.assign Json.getString "Multi_add" config.mUdpConfig.multiAdd
  let enableExchangeCheck ←
    cJson.assign Json.getBool "enable_exchange_check" config.enableExchangeCheck
  let enableTimestampCheck ←
    cJson.assign Json.getBool "enable_timestamp_check" config.enableTimestampCheck
  let enablePriceCheck ← cJson.assign Json.getBool "enable_price_check" config.enablePriceCheck
  let enableVolumeCheck ← cJson.assign Json.getBool "enable_volume_check" config.enableVolumeCheck
  let enableAbnormalPacketCheck ←
    cJson.assign Json.getBool "enable_abnormal_packet_check" config.enableAbnormalPacketCheck
  let timestampBase ← cJson.assign Json.getString "timestamp_base" config.timestampBase
  let maxDisorderToleranceMs ←
    cJson.assign Json.getInt "max_disorder_tolerance_ms" config.maxDisorderToleranceMs
  let allowSameMsData ← cJson.assign Json.getBool "allow_same_ms_data" config.allowSameMsData
  -- clamped only when it is assigned
  let checkBidAskLevels ← cJson.assign (fun v => (clamp · 1 5) <$> v.getInt)
    "check_bid_ask_levels" config.checkBidAskLevels
  let maxInvertSpreadTick ←
    cJson.assign Json.getInt "max_invert_spread_tick" config.maxInvertSpreadTick
  let tickSize ← cJson.assign Json.getDouble "tick_size" config.tickSize
  let limitPriceToleranceRatio ←
    cJson.assign Json.getDouble "limit_price_tolerance_ratio" config.limitPriceToleranceRatio
  let skipZeroLimitPrice ←
    cJson.assign Json.getBool "skip_zero_limit_price" config.skipZeroLimitPrice
  -- `clear()` first: the contract's list replaces the one so far
  let exchangeWhitelist ← readWhitelist cJson [] config.exchangeWhitelist
  return { config with
    mUdpConfig := { config.mUdpConfig with port, multiAdd }
    enableExchangeCheck, enableTimestampCheck, enablePriceCheck, enableVolumeCheck
    enableAbnormalPacketCheck, timestampBase, maxDisorderToleranceMs, allowSameMsData
    checkBidAskLevels, maxInvertSpreadTick
    tickSize := resetTickSize tickSize
    limitPriceToleranceRatio, skipZeroLimitPrice, exchangeWhitelist }

/-- The end of `fromJson`: the endpoint, or the fallback when the text is no address.
`asio::ip::make_address` is the parameter, `none` for the exception; an endpoint stores its port
in 16 bits. -/
def setEndpoint (makeAddress : String → Option Address) (config : SpecialConfig) :
    SpecialConfig :=
  match makeAddress config.mUdpConfig.multiAdd with
  | some address =>
    { config with mUdpConfig.targetEndpoint :=
        { address, port := BitVec.ofInt 16 config.mUdpConfig.port } }
  | none => { config with mUdpConfig.multiAdd := "", mUdpConfig.port := 8888 }

/-- `if (!globalJson.is_null())` and its body. -/
def globalLayer (config : SpecialConfig) (globalJson : Json) : Except JsonError SpecialConfig :=
  if globalJson.isNull then .ok config else config.loadGlobal globalJson

/-- `if (contractJson.has_value() && !contractJson.value().is_null())` and its body. -/
def contractLayer (config : SpecialConfig) : Option Json → Except JsonError SpecialConfig
  | none => .ok config
  | some cJson => if cJson.isNull then .ok config else config.loadContract cJson

/-- `SpecialConfig::fromJson`. -/
def fromJson (makeAddress : String → Option Address) (globalJson : Json)
    (contractJson : Option Json) : Except JsonError SpecialConfig := do
  let config ← globalLayer {} globalJson
  let config ← contractLayer config contractJson
  return config.setEndpoint makeAddress

end SpecialConfig

/-- `make_address`, on the one address of the shipped configuration file. -/
def sampleAddress (text : String) : Option Address :=
  if text = "239.0.0.1" then some (.v4 0xEF000001) else none

end UltraMds
