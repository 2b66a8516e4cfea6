import UltraMds.DataHandler.UnitProcessor

/-!
# What the stateless checks accept

The price check is a chain of seven tests.  `checkPriceValidity_iff` says them side by side, with
the limit test (`outsideLimits`) and the test on crossed quotes (`crossedQuotes`) under names of
their own; `mem_levels` says which levels the loops of the price and the volume check visit.

On the tick that is built from a packet the volume check and the check for empty packets do not
see the level volumes; `packet_checks_iff` says for which packets this makes no difference.
-/

namespace UltraMds

/-- A valid price is a finite one that is not negative. -/
theorem eq_fin_of_valid {price : Double} (h : isInvalidPrice price = false) :
    ∃ q, price = .fin q ∧ 0 ≤ q := by
  cases price with
  | nan => simp [isInvalidPrice, Double.isnan] at h
  | negInf => simp [isInvalidPrice, Double.isinf] at h
  | posInf => simp [isInvalidPrice, Double.isinf] at h
  | fin q =>
    refine ⟨q, rfl, ?_⟩
    simp only [isInvalidPrice, Double.lt_fin, Bool.or_eq_false_iff, decide_eq_false_iff_not,
      not_lt] at h
    exact h.1.2

namespace SpecialConfig

variable (cfg : SpecialConfig) (tick : TickData)

/-- The last price is outside the limits, the tolerance included. -/
def outsideLimits : Bool :=
  let tolerance := tick.limitUp.mul (.fin cfg.limitPriceToleranceRatio)
  (!cfg.skipZeroLimitPrice ||
      (Double.lt (.fin 0) tick.limitUp && Double.lt (.fin 0) tick.limitDown))
    && (tick.lastPrice.lt (tick.limitDown.sub tolerance)
      || (tick.limitUp.add tolerance).lt tick.lastPrice)

/-- The bid is above the ask by more than the tolerated spread. -/
def crossedQuotes (bid ask : Double) : Bool :=
  !isInvalidPrice bid && !isInvalidPrice ask && !bid.eq (.fin 0) && !ask.eq (.fin 0)
    && ((Double.fin (cfg.maxInvertSpreadTick * cfg.tickSize)).add (.fin (1 / 100000000))).lt
      (bid.sub ask)

theorem mem_levels {lo : ℕ} {i : Fin 5} :
    i ∈ cfg.levels lo ↔ lo ≤ i.val ∧ (i.val : ℤ) < cfg.checkBidAskLevels := by
  have hi := i.isLt
  have hmem : i ∈ cfg.levels lo ↔
      lo ≤ i.val ∧ (i.val : ℤ) < min cfg.checkBidAskLevels maxBidAskLevels := by
    simp [levels]
  rw [hmem, maxBidAskLevels]
  omega

/-- The seven tests of the price check. -/
theorem checkPriceValidity_iff :
    cfg.checkPriceValidity tick = true ↔
      (isInvalidPrice tick.lastPrice = false ∧ isInvalidPrice tick.limitUp = false ∧
        isInvalidPrice tick.limitDown = false) ∧
      cfg.outsideLimits tick = false ∧
      (∀ i ∈ cfg.levels 1, ladderStep (fun cur prev => prev.lt cur) tick.bidPrice i = true) ∧
      (∀ i ∈ cfg.levels 1, ladderStep (fun cur prev => cur.lt prev) tick.askPrice i = true) ∧
      cfg.crossedQuotes (tick.bidPrice.get 0) (tick.askPrice.get 0) = false := by
  rw [← List.all_eq_true, ← List.all_eq_true]
  unfold checkPriceValidity
  change (if _ then false else if _ then false else if _ then false
    else if cfg.outsideLimits tick = true then false else if _ then false else if _ then false
    else if cfg.crossedQuotes (tick.bidPrice.get 0) (tick.askPrice.get 0) = true then false
    else true) = true ↔ _
  split_ifs <;> simp_all

/-- The tests of the volume check. -/
theorem checkVolumeValidity_iff :
    cfg.checkVolumeValidity tick = true ↔
      0 ≤ tick.volume ∧
        ∀ i ∈ cfg.levels 0, 0 ≤ tick.bidVolume.get i ∧ 0 ≤ tick.askVolume.get i := by
  unfold checkVolumeValidity
  split_ifs with hvol
  · exact iff_of_false (by simp) fun h => absurd h.1 (not_le.2 hvol)
  · simp [List.all_eq_true, not_lt.1 hvol]

/-- The packets without a price, a volume or a volume at the first level. -/
theorem checkAbnormalPacket_eq_false_iff :
    checkAbnormalPacket tick = false ↔
      (tick.lastPrice = .fin 0 ∧ tick.bidPrice.get 0 = .fin 0 ∧ tick.askPrice.get 0 = .fin 0) ∧
        tick.volume = 0 ∧ tick.bidVolume.get 0 = 0 ∧ tick.askVolume.get 0 = 0 := by
  have hzero : ∀ x : Double, x.eq (.fin 0) = true ↔ x = .fin 0 := by
    intro x
    cases x <;> simp [Double.eq]
  simp only [checkAbnormalPacket, Bool.not_eq_false', Bool.and_eq_true, beq_iff_eq, hzero,
    and_assoc]

end SpecialConfig

/-! ### The checks on a packet of the feed -/

namespace CThostFtdcDepthMarketDataField

variable (D : CThostFtdcDepthMarketDataField)

/-- One of the first `k` levels has a negative volume. -/
def NegativeLevel (k : ℤ) : Prop :=
  ∃ v ∈ D.bidVolumes.take k.toNat ++ D.askVolumes.take k.toNat, v < 0

/-- The packet has no prices at its first level and nothing was traded. -/
def Unpriced : Prop :=
  D.lastPrice = .fin 0 ∧ D.bidPrice1 = .fin 0 ∧ D.askPrice1 = .fin 0 ∧ D.volume = 0

/-- The volumes at the first level are zero. -/
def NoFirstVolume : Prop := D.bidVolume1 = 0 ∧ D.askVolume1 = 0

end CThostFtdcDepthMarketDataField

namespace SpecialConfig

variable (cfg : SpecialConfig) (D : CThostFtdcDepthMarketDataField) (detector : Option ℕ)
  (time : ℤ)

/-- The level volumes of a constructed tick are zero. -/
theorem construct_get_volumes (i : Fin 5) :
    (TickData.construct D detector time).bidVolume.get i = 0 ∧
      (TickData.construct D detector time).askVolume.get i = 0 := by
  constructor <;> exact Vector.getElem_replicate _

/-- Of a packet the volume check sees the traded volume only. -/
theorem checkVolumeValidity_construct :
    cfg.checkVolumeValidity (TickData.construct D detector time) = false ↔ D.volume < 0 := by
  rw [Bool.eq_false_iff, ne_eq, checkVolumeValidity_iff, not_and_or, not_le]
  refine or_iff_left fun h => h fun i _ => ?_
  obtain ⟨hb, ha⟩ := construct_get_volumes D detector time i
  rw [hb, ha]
  exact ⟨le_rfl, le_rfl⟩

/-- Of a packet the check for empty packets sees the prices and the traded volume only. -/
theorem checkAbnormalPacket_construct :
    checkAbnormalPacket (TickData.construct D detector time) = false ↔ D.Unpriced := by
  obtain ⟨hb, ha⟩ := construct_get_volumes D detector time 0
  rw [checkAbnormalPacket_eq_false_iff, hb, ha]
  exact ⟨fun h => ⟨h.1.1, h.1.2.1, h.1.2.2, h.2.1⟩,
    fun h => ⟨⟨h.1, h.2.1, h.2.2.1⟩, h.2.2.2, rfl, rfl⟩⟩

/-- **The two checks judge a packet's own volumes** exactly when the level volumes, which the
constructor does not copy, make no difference: a negative traded volume or no negative volume at
a checked level, and a packet with a price or a traded volume or without volumes at its first
level. -/
theorem packet_checks_iff :
    ((cfg.checkVolumeValidity (TickData.construct D detector time) = false ↔
          D.volume < 0 ∨ D.NegativeLevel cfg.checkBidAskLevels) ∧
        (checkAbnormalPacket (TickData.construct D detector time) = false ↔
          D.Unpriced ∧ D.NoFirstVolume)) ↔
      (D.volume < 0 ∨ ¬ D.NegativeLevel cfg.checkBidAskLevels) ∧
        (¬ D.Unpriced ∨ D.NoFirstVolume) := by
  rw [checkVolumeValidity_construct, checkAbnormalPacket_construct]
  tauto

/-- The benchmark's packet with a negative volume at its first bid. -/
def negativePacket : CThostFtdcDepthMarketDataField := { samplePacket with bidVolume1 := -1 }

/-- A negative level volume is not seen. -/
theorem negative_level_accepted :
    ¬ ∀ (cfg : SpecialConfig) (D : CThostFtdcDepthMarketDataField) (detector : Option ℕ)
      (time : ℤ),
      (cfg.checkVolumeValidity (TickData.construct D detector time) = false ↔
          D.volume < 0 ∨ D.NegativeLevel cfg.checkBidAskLevels) ∧
        (checkAbnormalPacket (TickData.construct D detector time) = false ↔
          D.Unpriced ∧ D.NoFirstVolume) := by
  intro h
  have hneg : negativePacket.NegativeLevel (SpecialConfig.checkBidAskLevels {}) :=
    ⟨-1, List.mem_cons_self, by decide⟩
  have hrejected := (h {} negativePacket none 0).1.2 (Or.inr hneg)
  exact absurd hrejected (by decide)

end SpecialConfig

end UltraMds
