import UltraMds.DataHandler.SpecialConfig
import UltraMds.Library.Checked
import UltraMds.Library.StreamFilter
import UltraMds.SharedDefine.TickData

/-!
# The validator of one contract

`UnitProcessor.validate` runs up to five checks on a tick; each has its switch.  The checks read
the configuration only, but for `checkTimestampNew`, which compares the tick's combined timestamp
with the newest one so far and may move it.

The parts of a tick's time of day have names here (`TickData.hour`, `minute`, `second`), and so
have the conditions on them: `ValidTime`, what `combineTimestamp` asks for, `InGrammar`, what it
should ask for together with a date, and `WellFormed`, what the feed promises.

Numbers are exact here.  `combineTimestampChecked` is `combineTimestamp` once more, in the signed
types of the machine.
-/

namespace UltraMds

/-- `MAX_BID_ASK_LEVELS`. -/
def maxBidAskLevels : ℤ := 5

/-- `UnitProcessor::isInvalidPrice`. -/
def isInvalidPrice (price : Double) : Bool :=
  price.isnan || price.isinf || price.lt (.fin 0) || price.eq Double.dblMax

/-- `isdigit`, on the characters of the C locale. -/
def isdigit (c : Int8) : Bool := decide (48 ≤ c.toInt ∧ c.toInt ≤ 57)

/-- The digit loop of `strToInt64`, from the value `out` so far; `none` for the answer `false`. -/
def digitLoop (out : ℤ) : List Int8 → Option ℤ
  | [] => some out
  | c :: rest => if !isdigit c then none else digitLoop (out * 10 + (c.toInt - 48)) rest

/-- `UnitProcessor::strToInt64(str, len, out)`. -/
def strToInt64 {n : ℕ} (str : CharArray n) (len : ℕ) : Option ℤ := digitLoop 0 (str.toList.take len)

/-- The value of two characters read as a decimal number, digits or not. -/
def twoDigits (a b : Int8) : ℤ := (a.toInt - 48) * 10 + (b.toInt - 48)

/-- The digit loop in the arithmetic of `int64_t`, the outer `none` for an overflow. -/
def digitLoopChecked (out : ℤ) : List Int8 → Option (Option ℤ)
  | [] => some (some out)
  | c :: rest =>
    if !isdigit c then some none
    else do
      let tens ← Checked.mul 64 out 10
      let digit ← Checked.sub 32 c.toInt 48
      let out ← Checked.add 64 tens digit
      digitLoopChecked out rest

/-- `strToInt64` in the arithmetic of the machine. -/
def strToInt64Checked {n : ℕ} (str : CharArray n) (len : ℕ) : Option (Option ℤ) :=
  digitLoopChecked 0 (str.toList.take len)

/-- `twoDigits` in the arithmetic of `int`. -/
def twoDigitsChecked (a b : Int8) : Option ℤ := do
  let first ← Checked.sub 32 a.toInt 48
  let tens ← Checked.mul 32 first 10
  let last ← Checked.sub 32 b.toInt 48
  Checked.add 32 tens last

namespace TickData

variable (t : TickData)

/-- The parts of the time of day as `combineTimestamp` reads them. -/
def hour : ℤ := twoDigits t.updateTime[0] t.updateTime[1]
def minute : ℤ := twoDigits t.updateTime[3] t.updateTime[4]
def second : ℤ := twoDigits t.updateTime[6] t.updateTime[7]

/-- The time of day is one that the timestamp check can read. -/
structure ValidTime : Prop where
  colons : t.updateTime[2] = 58 ∧ t.updateTime[5] = 58
  hour : 0 ≤ t.hour ∧ t.hour ≤ 23
  minute : 0 ≤ t.minute ∧ t.minute ≤ 59
  second : 0 ≤ t.second ∧ t.second ≤ 59
  mill : 0 ≤ t.updatemill ∧ t.updatemill ≤ 999

/-- A tick with the texts that the feed promises: a time of day `HH:MM:SS`, the two dates
`YYYYMMDD`, and the milliseconds of a second. -/
structure WellFormed : Prop where
  colons : t.updateTime[2] = 58 ∧ t.updateTime[5] = 58
  hourDigits : isdigit t.updateTime[0] = true ∧ isdigit t.updateTime[1] = true
  minuteDigits : isdigit t.updateTime[3] = true ∧ isdigit t.updateTime[4] = true
  secondDigits : isdigit t.updateTime[6] = true ∧ isdigit t.updateTime[7] = true
  hour : t.hour ≤ 23
  minute : t.minute ≤ 59
  second : t.second ≤ 59
  mill : 0 ≤ t.updatemill ∧ t.updatemill ≤ 999
  actionDay : ∀ c ∈ t.actionDay.toList.take 8, isdigit c = true
  tradingDay : ∀ c ∈ t.tradingDay.toList.take 8, isdigit c = true

/-- The characters of hour, minute and second are digits. -/
def TimeDigits : Prop :=
  (isdigit t.updateTime[0] = true ∧ isdigit t.updateTime[1] = true) ∧
    (isdigit t.updateTime[3] = true ∧ isdigit t.updateTime[4] = true) ∧
    (isdigit t.updateTime[6] = true ∧ isdigit t.updateTime[7] = true)

/-- The texts that make a timestamp: a time of day `HH:MM:SS`, the milliseconds of a second, and
the date `YYYYMMDD` in the field `day`. -/
structure InGrammar (day : CharArray 9) : Prop where
  colons : t.updateTime[2] = 58 ∧ t.updateTime[5] = 58
  digits : t.TimeDigits
  hour : t.hour ≤ 23
  minute : t.minute ≤ 59
  second : t.second ≤ 59
  mill : 0 ≤ t.updatemill ∧ t.updatemill ≤ 999
  day : ∀ c ∈ day.toList.take 8, isdigit c = true

end TickData

namespace SpecialConfig

variable (cfg : SpecialConfig) (tick : TickData)

/-- `UnitProcessor::CheckWhiteList`. -/
def checkWhiteList : Bool :=
  let exchId := stdString tick.exchangeID
  if !cfg.exchangeWhitelist.isEmpty then cfg.exchangeWhitelist.any fun exch => chars exch == exchId
  else true

/-- The date field that the configured base selects. -/
def dayStr : CharArray 9 :=
  if cfg.timestampBase = "TradingDay" then tick.tradingDay else tick.actionDay

/-- `UnitProcessor::combineTimestamp`. -/
def combineTimestamp : ℤ :=
  if tick.updateTime[2] ≠ 58 ∨ tick.updateTime[5] ≠ 58 then -1
  else
    let hour := twoDigits tick.updateTime[0] tick.updateTime[1]
    let minute := twoDigits tick.updateTime[3] tick.updateTime[4]
    let second := twoDigits tick.updateTime[6] tick.updateTime[7]
    if hour < 0 ∨ hour > 23 ∨ minute < 0 ∨ minute > 59 ∨ second < 0 ∨ second > 59 then -1
    else if tick.updatemill < 0 ∨ tick.updatemill > 999 then -1
    else
      match strToInt64 (cfg.dayStr tick) 8 with
      | none => -1
      | some dayNum =>
        dayNum * 1000000000 + hour * 10000000 + minute * 100000 + second * 1000 + tick.updatemill

/-- `combineTimestamp` in the arithmetic of the machine, `none` for an overflow. -/
def combineTimestampChecked : Option ℤ :=
  if tick.updateTime[2] ≠ 58 ∨ tick.updateTime[5] ≠ 58 then some (-1)
  else do
    let hour ← twoDigitsChecked tick.updateTime[0] tick.updateTime[1]
    let minute ← twoDigitsChecked tick.updateTime[3] tick.updateTime[4]
    let second ← twoDigitsChecked tick.updateTime[6] tick.updateTime[7]
    if hour < 0 ∨ hour > 23 ∨ minute < 0 ∨ minute > 59 ∨ second < 0 ∨ second > 59 then some (-1)
    else if tick.updatemill < 0 ∨ tick.updatemill > 999 then some (-1)
    else do
      match ← strToInt64Checked (cfg.dayStr tick) 8 with
      | none => some (-1)
      | some dayNum =>
        let timestamp ← Checked.mul 64 dayNum 1000000000
        let timestamp ← Checked.add 64 timestamp (← Checked.mul 64 hour 10000000)
        let timestamp ← Checked.add 64 timestamp (← Checked.mul 64 minute 100000)
        let timestamp ← Checked.add 64 timestamp (← Checked.mul 64 second 1000)
        Checked.add 64 timestamp tick.updatemill

/-- The iterations of `for (int i = lo; i < checkLevels; ++i)` over the five levels. -/
def levels (lo : ℕ) : List (Fin 5) :=
  (List.finRange 5).filter fun i =>
    lo ≤ i.val ∧ (i.val : ℤ) < min cfg.checkBidAskLevels maxBidAskLevels

/-- One iteration of a ladder loop: `false` when it rejects, `worse` being the rejecting
comparison of a level with the one before it. -/
def ladderStep (worse : Double → Double → Bool) (price : Vector Double 5) (i : Fin 5) : Bool :=
  let current := price.get i
  let previous := price.get (i - 1)
  if isInvalidPrice current || isInvalidPrice previous then true
  else if current.eq (.fin 0) || previous.eq (.fin 0) then true
  else !worse current previous

/-- `UnitProcessor::checkPriceValidity`. -/
def checkPriceValidity : Bool :=
  if isInvalidPrice tick.lastPrice then false
  else if isInvalidPrice tick.limitUp then false
  else if isInvalidPrice tick.limitDown then false
  else
    let tolerance := tick.limitUp.mul (.fin cfg.limitPriceToleranceRatio)
    if (!cfg.skipZeroLimitPrice ||
        (Double.lt (.fin 0) tick.limitUp && Double.lt (.fin 0) tick.limitDown))
        && (tick.lastPrice.lt (tick.limitDown.sub tolerance)
          || (tick.limitUp.add tolerance).lt tick.lastPrice) then false
    else if !(cfg.levels 1).all (ladderStep (fun cur prev => prev.lt cur) tick.bidPrice) then false
    else if !(cfg.levels 1).all (ladderStep (fun cur prev => cur.lt prev) tick.askPrice) then false
    else
      let bid := tick.bidPrice.get 0
      let ask := tick.askPrice.get 0
      let maxAllowInvertSpread := Double.fin (cfg.maxInvertSpreadTick * cfg.tickSize)
      let actualInvertSpread := bid.sub ask
      if !isInvalidPrice bid && !isInvalidPrice ask && !bid.eq (.fin 0) && !ask.eq (.fin 0)
          && (maxAllowInvertSpread.add (.fin (1 / 100000000))).lt actualInvertSpread then false
      else true

/-- `UnitProcessor::checkVolumeValidity`. -/
def checkVolumeValidity : Bool :=
  if tick.volume < 0 then false
  else (cfg.levels 0).all fun i =>
    !decide (tick.bidVolume.get i < 0) && !decide (tick.askVolume.get i < 0)

/-- `UnitProcessor::checkAbnormalPacket`, which reads no configuration. -/
def checkAbnormalPacket (tick : TickData) : Bool :=
  let isAllZero := tick.lastPrice.eq (.fin 0)
    && ((tick.bidPrice.get 0).eq (.fin 0) && (tick.askPrice.get 0).eq (.fin 0))
    && tick.volume == 0
    && (tick.bidVolume.get 0 == 0 && tick.askVolume.get 0 == 0)
  !isAllZero

end SpecialConfig

/-- The validator: the newest timestamp so far, the contract and its rules. -/
structure UnitProcessor where
  mLastTimestamp : ℤ := 0
  mContractName : String
  mConfig : SpecialConfig
  deriving DecidableEq

namespace UnitProcessor

/-- A freshly constructed validator. -/
def fresh (contractName : String) (config : SpecialConfig) : UnitProcessor :=
  { mContractName := contractName, mConfig := config }

/-- The constructor `UnitProcessor(contractName, globalRules, contractRules)`. -/
def construct (makeAddress : String → Option Address) (contractName : String) (globalRules : Json)
    (contractRules : Option Json) : Except JsonError UnitProcessor := do
  let config ← SpecialConfig.fromJson makeAddress globalRules contractRules
  return fresh contractName config

/-- `UnitProcessor::checkTimestampNew`. -/
def checkTimestampNew (u : UnitProcessor) (tick : TickData) : Bool × UnitProcessor :=
  let currentTs := u.mConfig.combineTimestamp tick
  if currentTs < 0 then (false, u)
  else if currentTs = u.mLastTimestamp ∧ u.mConfig.allowSameMsData then (true, u)
  else if currentTs < u.mLastTimestamp then
    let totalMsDiff := u.mLastTimestamp - currentTs
    if totalMsDiff > u.mConfig.maxDisorderToleranceMs then (false, u) else (true, u)
  else (true, { u with mLastTimestamp := currentTs })

/-- `UnitProcessor::validate`. -/
def validate (u : UnitProcessor) (tick : TickData) : Bool × UnitProcessor :=
  if u.mConfig.enableExchangeCheck && !u.mConfig.checkWhiteList tick then (false, u)
  else
    let (timestampOk, u) :=
      if u.mConfig.enableTimestampCheck then u.checkTimestampNew tick else (true, u)
    if !timestampOk then (false, u)
    else if u.mConfig.enablePriceCheck && !u.mConfig.checkPriceValidity tick then (false, u)
    else if u.mConfig.enableVolumeCheck && !u.mConfig.checkVolumeValidity tick then (false, u)
    else if u.mConfig.enableAbnormalPacketCheck && !SpecialConfig.checkAbnormalPacket tick then
      (false, u)
    else (true, u)

/-- `UnitProcessor::reset`. -/
def reset (u : UnitProcessor) : UnitProcessor := { u with mLastTimestamp := 0 }

/-- `getContractName` and `getMulticastEndpoint`. -/
def getContractName (u : UnitProcessor) : String := u.mContractName
def getMulticastEndpoint (u : UnitProcessor) : Endpoint := u.mConfig.mUdpConfig.targetEndpoint

@[simp] theorem fresh_mLastTimestamp (c : String) (config : SpecialConfig) :
    (fresh c config).mLastTimestamp = 0 := rfl
@[simp] theorem fresh_mConfig (c : String) (config : SpecialConfig) :
    (fresh c config).mConfig = config := rfl
@[simp] theorem reset_mLastTimestamp (u : UnitProcessor) : u.reset.mLastTimestamp = 0 := rfl
@[simp] theorem reset_mConfig (u : UnitProcessor) : u.reset.mConfig = u.mConfig := rfl

/-- A reset validator is as good as a new one. -/
theorem reset_eq_fresh (u : UnitProcessor) : u.reset = fresh u.mContractName u.mConfig := rfl

end UnitProcessor

end UltraMds
