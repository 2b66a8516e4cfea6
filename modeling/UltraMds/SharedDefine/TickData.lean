import UltraMds.Library.Double
import UltraMds.SharedDefine.CharArray

/-!
# Packets, ticks and messages

The three forms of a quote and the two copies between them:

* `CThostFtdcDepthMarketDataField`: the packet of the CTP feed;
* `TickData`: the tick that travels through the queues, built from a packet by
  `TickData.construct`;
* `TickDataMes`: the protobuf message that is sent, filled by `TickData.fillProtoData`.

`CarriesPacket D m` says that the message `m` has in every field what the packet `D` has.  The
constructor leaves the ten level volumes at their initial zeros, so the two copies together carry
a packet exactly when its level volumes are all zero (`carriesPacket_fillProtoData_iff`).
-/

namespace UltraMds

/-- The fields of the CTP depth packet that the program reads. -/
structure CThostFtdcDepthMarketDataField where
  tradingDay : CharArray 9
  exchangeID : CharArray 9
  lastPrice : Double
  volume : ℤ
  upperLimitPrice : Double
  lowerLimitPrice : Double
  updateTime : CharArray 9
  updateMillisec : ℤ
  bidPrice1 : Double
  bidVolume1 : ℤ
  askPrice1 : Double
  askVolume1 : ℤ
  bidPrice2 : Double
  bidVolume2 : ℤ
  askPrice2 : Double
  askVolume2 : ℤ
  bidPrice3 : Double
  bidVolume3 : ℤ
  askPrice3 : Double
  askVolume3 : ℤ
  bidPrice4 : Double
  bidVolume4 : ℤ
  askPrice4 : Double
  askVolume4 : ℤ
  bidPrice5 : Double
  bidVolume5 : ℤ
  askPrice5 : Double
  askVolume5 : ℤ
  actionDay : CharArray 9
  instrumentID : CharArray 81
  deriving DecidableEq

/-- A tick.  The detector is a pointer into the vector of `UnitProcessor`s, given here by its
index; `none` is the null pointer. -/
structure TickData where
  lastPrice : Double := .fin 0
  bidPrice : Vector Double 5 := Vector.replicate 5 (.fin 0)
  askPrice : Vector Double 5 := Vector.replicate 5 (.fin 0)
  limitUp : Double := .fin 0
  limitDown : Double := .fin 0
  volume : ℤ := 0
  updatemill : ℤ := 0
  bidVolume : Vector ℤ 5 := Vector.replicate 5 0
  askVolume : Vector ℤ 5 := Vector.replicate 5 0
  mDetector : Option ℕ := none
  localReceiveTime : ℤ := 0
  instrumentID : CharArray 81
  exchangeID : CharArray 9
  updateTime : CharArray 9
  actionDay : CharArray 9
  tradingDay : CharArray 9
  deriving DecidableEq

/-- The constructor `TickData(Data, detector, n_receivetime)`. -/
def TickData.construct (data : CThostFtdcDepthMarketDataField) (detector : Option ℕ)
    (nReceivetime : ℤ) : TickData :=
  { lastPrice := data.lastPrice
    limitUp := data.upperLimitPrice
    limitDown := data.lowerLimitPrice
    bidPrice := #v[data.bidPrice1, data.bidPrice2, data.bidPrice3, data.bidPrice4, data.bidPrice5]
    askPrice := #v[data.askPrice1, data.askPrice2, data.askPrice3, data.askPrice4, data.askPrice5]
    volume := data.volume
    updatemill := data.updateMillisec
    mDetector := detector
    localReceiveTime := nReceivetime
    -- the body: five `memcpy`s between arrays of equal sizes
    instrumentID := data.instrumentID
    exchangeID := data.exchangeID
    updateTime := data.updateTime
    actionDay := data.actionDay
    tradingDay := data.tradingDay }

/-- The protobuf message, with the initial values of proto3. -/
structure TickDataMes where
  lastPrice : Double := .fin 0
  bidPrice : List Double := []
  askPrice : List Double := []
  limitUp : Double := .fin 0
  limitDown : Double := .fin 0
  volume : ℤ := 0
  updatemill : ℤ := 0
  bidVolume : List ℤ := []
  askVolume : List ℤ := []
  instrumentID : List Int8 := []
  exchangeID : List Int8 := []
  updateTime : List Int8 := []
  actionDay : List Int8 := []
  tradingDay : List Int8 := []
  deriving DecidableEq

/-- The loop `for (int i = 0; i < 5; ++i) mes.add_field(a[i])` on a repeated field. -/
def addLevels {α : Type} (field : List α) (a : Vector α 5) : List α :=
  (List.finRange 5).foldl (fun l i => l ++ [a.get i]) field

/-- `TickData::fillProtoData`. -/
def TickData.fillProtoData (t : TickData) (mes : TickDataMes) : TickDataMes :=
  let mes := { mes with lastPrice := t.lastPrice, limitUp := t.limitUp, limitDown := t.limitDown }
  let mes := { mes with bidPrice := addLevels mes.bidPrice t.bidPrice }
  let mes := { mes with askPrice := addLevels mes.askPrice t.askPrice }
  let mes := { mes with volume := t.volume, updatemill := t.updatemill }
  let mes := { mes with bidVolume := addLevels mes.bidVolume t.bidVolume }
  let mes := { mes with askVolume := addLevels mes.askVolume t.askVolume }
  { mes with
    instrumentID := stdString t.instrumentID
    exchangeID := stdString t.exchangeID
    updateTime := stdString t.updateTime
    actionDay := stdString t.actionDay
    tradingDay := stdString t.tradingDay }

theorem addLevels_eq {α : Type} (field : List α) (a : Vector α 5) :
    addLevels field a = field ++ a.toList := by
  have hfold : ∀ (is : List (Fin 5)) (l : List α),
      is.foldl (fun l i => l ++ [a.get i]) l = l ++ is.map a.get := by
    intro is
    induction is with
    | nil => simp
    | cons i is ih => intro l; simp [ih]
  rw [addLevels, hfold]
  congr 1
  apply List.ext_getElem <;> simp [Vector.get]

/-! ### What a message should carry -/

/-- The five bid volumes of a packet in level order. -/
def CThostFtdcDepthMarketDataField.bidVolumes (d : CThostFtdcDepthMarketDataField) : List ℤ :=
  [d.bidVolume1, d.bidVolume2, d.bidVolume3, d.bidVolume4, d.bidVolume5]

/-- The five ask volumes of a packet in level order. -/
def CThostFtdcDepthMarketDataField.askVolumes (d : CThostFtdcDepthMarketDataField) : List ℤ :=
  [d.askVolume1, d.askVolume2, d.askVolume3, d.askVolume4, d.askVolume5]

/-- The message `m` has in every field what the packet `d` has, texts cut at the first NUL. -/
structure CarriesPacket (d : CThostFtdcDepthMarketDataField) (m : TickDataMes) : Prop where
  lastPrice : m.lastPrice = d.lastPrice
  limitUp : m.limitUp = d.upperLimitPrice
  limitDown : m.limitDown = d.lowerLimitPrice
  volume : m.volume = d.volume
  updatemill : m.updatemill = d.updateMillisec
  bidPrice : m.bidPrice = [d.bidPrice1, d.bidPrice2, d.bidPrice3, d.bidPrice4, d.bidPrice5]
  askPrice : m.askPrice = [d.askPrice1, d.askPrice2, d.askPrice3, d.askPrice4, d.askPrice5]
  bidVolume : m.bidVolume = d.bidVolumes
  askVolume : m.askVolume = d.askVolumes
  instrumentID : m.instrumentID = cText d.instrumentID
  exchangeID : m.exchangeID = cText d.exchangeID
  updateTime : m.updateTime = cText d.updateTime
  actionDay : m.actionDay = cText d.actionDay
  tradingDay : m.tradingDay = cText d.tradingDay

/-- The message of a tick, field by field. -/
theorem fillProtoData_eq (t : TickData) :
    t.fillProtoData {} =
      { lastPrice := t.lastPrice, bidPrice := t.bidPrice.toList, askPrice := t.askPrice.toList
        limitUp := t.limitUp, limitDown := t.limitDown, volume := t.volume
        updatemill := t.updatemill, bidVolume := t.bidVolume.toList
        askVolume := t.askVolume.toList
        instrumentID := cText t.instrumentID, exchangeID := cText t.exchangeID
        updateTime := cText t.updateTime, actionDay := cText t.actionDay
        tradingDay := cText t.tradingDay } := by
  simp [TickData.fillProtoData, addLevels_eq, stdString_eq_cText]

/-- The constructor copies no level volume. -/
theorem construct_volumes (d : CThostFtdcDepthMarketDataField) (detector : Option ℕ) (time : ℤ) :
    (TickData.construct d detector time).bidVolume.toList = List.replicate 5 0 ∧
      (TickData.construct d detector time).askVolume.toList = List.replicate 5 0 :=
  ⟨rfl, rfl⟩

/-- **A packet arrives unchanged exactly when its level volumes are zero**, whatever the detector
and the receive time. -/
theorem carriesPacket_fillProtoData_iff (d : CThostFtdcDepthMarketDataField)
    (detector : Option ℕ) (time : ℤ) :
    CarriesPacket d ((TickData.construct d detector time).fillProtoData {}) ↔
      (∀ v ∈ d.bidVolumes, v = 0) ∧ ∀ v ∈ d.askVolumes, v = 0 := by
  have hzero : ∀ l : List ℤ, l.length = 5 → (List.replicate 5 0 = l ↔ ∀ v ∈ l, v = 0) := by
    intro l hl
    rw [eq_comm, List.eq_replicate_iff]
    simp [hl]
  rw [fillProtoData_eq, ← hzero d.bidVolumes rfl, ← hzero d.askVolumes rfl]
  obtain ⟨hb, ha⟩ := construct_volumes d detector time
  constructor
  · intro h
    exact ⟨hb ▸ h.bidVolume, ha ▸ h.askVolume⟩
  · rintro ⟨hbid, hask⟩
    exact
      { lastPrice := rfl, limitUp := rfl, limitDown := rfl, volume := rfl, updatemill := rfl
        bidPrice := rfl, askPrice := rfl
        bidVolume := hb.trans hbid
        askVolume := ha.trans hask
        instrumentID := rfl, exchangeID := rfl, updateTime := rfl, actionDay := rfl
        tradingDay := rfl }

/-- The quote of the repository's benchmarks, `createTestTickData`. -/
def createTestTickData : TickData :=
  { lastPrice := .fin 100
    limitUp := .fin 110
    limitDown := .fin 90
    bidPrice := #v[.fin (199 / 2), .fin 99, .fin (197 / 2), .fin 98, .fin (195 / 2)]
    askPrice := #v[.fin (201 / 2), .fin 101, .fin (203 / 2), .fin 102, .fin (205 / 2)]
    volume := 1000
    updatemill := 500
    bidVolume := #v[100, 90, 80, 70, 60]
    askVolume := #v[100, 90, 80, 70, 60]
    updateTime := strcpy 9 (chars "10:00:00")
    tradingDay := strcpy 9 (chars "20240520")
    actionDay := strcpy 9 (chars "20240520")
    exchangeID := strcpy 9 (chars "SHFE")
    instrumentID := strcpy 81 (chars "rb2410") }

/-- The same quote as a packet of the feed. -/
def samplePacket : CThostFtdcDepthMarketDataField :=
  { tradingDay := strcpy 9 (chars "20240520"), exchangeID := strcpy 9 (chars "SHFE")
    lastPrice := .fin 100, volume := 1000
    upperLimitPrice := .fin 110, lowerLimitPrice := .fin 90
    updateTime := strcpy 9 (chars "10:00:00"), updateMillisec := 500
    bidPrice1 := .fin (199 / 2), bidVolume1 := 100, askPrice1 := .fin (201 / 2), askVolume1 := 100
    bidPrice2 := .fin 99, bidVolume2 := 90, askPrice2 := .fin 101, askVolume2 := 90
    bidPrice3 := .fin (197 / 2), bidVolume3 := 80, askPrice3 := .fin (203 / 2), askVolume3 := 80
    bidPrice4 := .fin 98, bidVolume4 := 70, askPrice4 := .fin 102, askVolume4 := 70
    bidPrice5 := .fin (195 / 2), bidVolume5 := 60, askPrice5 := .fin (205 / 2), askVolume5 := 60
    actionDay := strcpy 9 (chars "20240520"), instrumentID := strcpy 81 (chars "rb2410") }

/-- The same quote for the contract `c`. -/
def packetOf (c : String) : CThostFtdcDepthMarketDataField :=
  { samplePacket with instrumentID := strcpy 81 (chars c) }

/-- The benchmark's quote loses its level volumes on the way from packet to message. -/
theorem samplePacket_not_carried :
    ¬ CarriesPacket samplePacket
      ((TickData.construct samplePacket (some 0) 0).fillProtoData {}) := by
  intro h
  have hbid := h.bidVolume
  rw [fillProtoData_eq] at hbid
  exact absurd hbid (by decide)

end UltraMds
