import UltraMds.DataHandler.Checks
import UltraMds.Library.Adjacent

/-!
# The order of the levels

The ladder loops of the price check compare each level with the one before it, unless one of the
two is absent.  So they order the levels along runs of present ones (`ladders_accept_iff`), and
the spread test, which is made at the first level only, bounds the spread of a deeper level when
no level before it is absent (`spread_le_of_accepted`).
-/

namespace UltraMds

/-- The level has a price: it is valid and not zero. -/
def present (price : Double) : Bool := !isInvalidPrice price && !price.eq (.fin 0)

theorem eq_fin_of_present {price : Double} (h : present price = true) :
    price = .fin price.toRat := by
  simp only [present, Bool.and_eq_true, Bool.not_eq_true'] at h
  obtain ⟨q, rfl, -⟩ := eq_fin_of_valid h.1
  rfl

namespace SpecialConfig

/-- One iteration of a ladder loop: a comparison of two present levels. -/
theorem ladderStep_iff {worse : Double → Double → Bool} {price : Vector Double 5} {i : Fin 5} :
    ladderStep worse price i = true ↔
      (present (price.get (i - 1)) = true → present (price.get i) = true →
        worse (price.get i) (price.get (i - 1)) = false) := by
  unfold ladderStep present
  simp only
  generalize price.get i = current
  generalize price.get (i - 1) = previous
  cases isInvalidPrice current <;> cases isInvalidPrice previous <;>
    cases current.eq (.fin 0) <;> cases previous.eq (.fin 0) <;> simp

variable (cfg : SpecialConfig)

/-- Along a run of present levels among the checked ones, the prices are ordered by `R`. -/
def LadderOrdered (R : ℚ → ℚ → Prop) (price : Vector Double 5) : Prop :=
  ∀ i j : Fin 5, i < j → (j.val : ℤ) < cfg.checkBidAskLevels →
    (∀ m, i ≤ m → m ≤ j → present (price.get m) = true) →
      R (price.get i).toRat (price.get j).toRat

/-- A ladder loop compares neighbours. -/
theorem all_ladderStep_iff {worse : Double → Double → Bool} {R : ℚ → ℚ → Prop}
    (hworse : ∀ p q : ℚ, worse (.fin q) (.fin p) = false ↔ R p q) (price : Vector Double 5) :
    (cfg.levels 1).all (ladderStep worse price) = true ↔
      Adjacent.Neighbours R
        (fun i => (i.val : ℤ) < cfg.checkBidAskLevels ∧ present (price.get i) = true)
        fun i => (price.get i).toRat := by
  have hprev : ∀ i : Fin 5, 1 ≤ i.val → (i - 1).val + 1 = i.val := by decide
  have hcompare : ∀ i j : Fin 5, present (price.get i) = true → present (price.get j) = true →
      (worse (price.get j) (price.get i) = false ↔ R (price.get i).toRat (price.get j).toRat) := by
    intro i j hi hj
    rw [← hworse, ← eq_fin_of_present hi, ← eq_fin_of_present hj]
  rw [List.all_eq_true]
  constructor
  · intro h i j hij hi hj
    obtain rfl : i = j - 1 := Fin.ext (by have := hprev j (by omega); omega)
    have hstep := h j (cfg.mem_levels.2 ⟨by omega, hj.1⟩)
    exact (hcompare _ j hi.2 hj.2).1 (ladderStep_iff.1 hstep hi.2 hj.2)
  · intro h j hj
    obtain ⟨hpos, hlt⟩ := cfg.mem_levels.1 hj
    have hij := hprev j hpos
    refine ladderStep_iff.2 fun hi hj' => (hcompare _ j hi hj').2 ?_
    exact h (j - 1) j hij ⟨by omega, hi⟩ ⟨hlt, hj'⟩

theorem runs_iff_ladderOrdered {R : ℚ → ℚ → Prop} (price : Vector Double 5) :
    Adjacent.Runs R
        (fun i => (i.val : ℤ) < cfg.checkBidAskLevels ∧ present (price.get i) = true)
        (fun i => (price.get i).toRat) ↔ cfg.LadderOrdered R price := by
  constructor
  · intro h i j hij hlt hrun
    refine h i j hij fun m him hmj => ⟨?_, hrun m him hmj⟩
    have hmj' : m.val ≤ j.val := hmj
    omega
  · intro h i j hij hrun
    exact h i j hij (hrun j hij.le le_rfl).1 fun m him hmj => (hrun m him hmj).2

theorem bidLadder_iff (price : Vector Double 5) :
    (cfg.levels 1).all (ladderStep (fun cur prev => prev.lt cur) price) = true ↔
      cfg.LadderOrdered (· ≥ ·) price := by
  have hworse : ∀ p q : ℚ, Double.lt (.fin p) (.fin q) = false ↔ p ≥ q := by simp
  rw [cfg.all_ladderStep_iff hworse, Adjacent.neighbours_iff_runs, cfg.runs_iff_ladderOrdered]

theorem askLadder_iff (price : Vector Double 5) :
    (cfg.levels 1).all (ladderStep (fun cur prev => cur.lt prev) price) = true ↔
      cfg.LadderOrdered (· ≤ ·) price := by
  have hworse : ∀ p q : ℚ, Double.lt (.fin q) (.fin p) = false ↔ p ≤ q := by simp
  rw [cfg.all_ladderStep_iff hworse, Adjacent.neighbours_iff_runs, cfg.runs_iff_ladderOrdered]

/-- **What the ladder loops accept**: the ladders that are ordered along runs of present levels,
bids downwards and asks upwards.  After the earlier tests they and the test on crossed quotes at
the first level are what is left of the price check. -/
theorem ladders_accept_iff (tick : TickData)
    (hprices : isInvalidPrice tick.lastPrice = false ∧ isInvalidPrice tick.limitUp = false ∧
      isInvalidPrice tick.limitDown = false)
    (hlimits : cfg.outsideLimits tick = false) :
    ((cfg.levels 1).all (ladderStep (fun cur prev => prev.lt cur) tick.bidPrice) = true ∧
        (cfg.levels 1).all (ladderStep (fun cur prev => cur.lt prev) tick.askPrice) = true ↔
      cfg.LadderOrdered (· ≥ ·) tick.bidPrice ∧ cfg.LadderOrdered (· ≤ ·) tick.askPrice) ∧
    (cfg.checkPriceValidity tick = true ↔
      (cfg.LadderOrdered (· ≥ ·) tick.bidPrice ∧ cfg.LadderOrdered (· ≤ ·) tick.askPrice) ∧
        cfg.crossedQuotes (tick.bidPrice.get 0) (tick.askPrice.get 0) = false) := by
  rw [bidLadder_iff, askLadder_iff, checkPriceValidity_iff, ← List.all_eq_true,
    ← List.all_eq_true, bidLadder_iff, askLadder_iff]
  refine ⟨Iff.rfl, ?_⟩
  simp only [hprices, hlimits, and_self, true_and, and_assoc]

end SpecialConfig

/-- The default rules with all levels checked. -/
def fiveLevels : SpecialConfig := { checkBidAskLevels := 5 }

/-- The benchmark's tick without its second bid, and with a third bid that is too high. -/
def gapTick : TickData :=
  { createTestTickData with
    bidPrice := #v[.fin (199 / 2), .fin 0, .fin 200, .fin 98, .fin (195 / 2)] }

/-- The benchmark's tick with a third bid that is above the second one. -/
def disorderedBids : TickData :=
  { createTestTickData with
    bidPrice := #v[.fin (199 / 2), .fin 98, .fin 99, .fin 97, .fin (195 / 2)] }

/-- The gap separates two ordered runs; without it a bid that is too high is seen. -/
theorem ladders_accept_iff_sample :
    ((fiveLevels.LadderOrdered (· ≥ ·) gapTick.bidPrice ∧
        fiveLevels.LadderOrdered (· ≤ ·) gapTick.askPrice) ∧
      fiveLevels.checkPriceValidity gapTick = true) ∧
    ¬ (fiveLevels.LadderOrdered (· ≥ ·) disorderedBids.bidPrice ∧
        fiveLevels.LadderOrdered (· ≤ ·) disorderedBids.askPrice) ∧
      ¬ fiveLevels.checkPriceValidity disorderedBids = true := by
  have hgap := fiveLevels.ladders_accept_iff gapTick (by decide +kernel) (by decide +kernel)
  have hbids := fiveLevels.ladders_accept_iff disorderedBids (by decide +kernel) (by decide +kernel)
  have hordered := hgap.1.1 (by decide +kernel)
  have hnot := mt hbids.1.2 (by decide +kernel)
  exact ⟨⟨hordered, hgap.2.2 ⟨hordered, by decide +kernel⟩⟩, hnot, fun h => hnot (hbids.2.1 h).1⟩

/-- Over a gap the loops accept a higher bid at a deeper level. -/
theorem gap_ladder_accepted :
    ¬ ∀ (cfg : SpecialConfig) (tick : TickData),
      (isInvalidPrice tick.lastPrice = false ∧ isInvalidPrice tick.limitUp = false ∧
        isInvalidPrice tick.limitDown = false) → cfg.outsideLimits tick = false →
      ((cfg.levels 1).all
            (SpecialConfig.ladderStep (fun cur prev => prev.lt cur) tick.bidPrice) = true ∧
          (cfg.levels 1).all
            (SpecialConfig.ladderStep (fun cur prev => cur.lt prev) tick.askPrice) = true ↔
        (∀ i j : Fin 5, i < j → (j.val : ℤ) < cfg.checkBidAskLevels →
          present (tick.bidPrice.get i) = true → present (tick.bidPrice.get j) = true →
            (tick.bidPrice.get i).toRat ≥ (tick.bidPrice.get j).toRat) ∧
        ∀ i j : Fin 5, i < j → (j.val : ℤ) < cfg.checkBidAskLevels →
          present (tick.askPrice.get i) = true → present (tick.askPrice.get j) = true →
            (tick.askPrice.get i).toRat ≤ (tick.askPrice.get j).toRat) := by
  intro h
  have hordered := (h fiveLevels gapTick (by decide +kernel) (by decide +kernel)).1
    (by decide +kernel)
  exact absurd (hordered.1 0 2 (by decide) (by decide) (by decide +kernel) (by decide +kernel))
    (by decide +kernel)

/-! ### The spread -/

namespace SpecialConfig

variable (cfg : SpecialConfig)

/-- Accepted ladders are ordered. -/
theorem ladders_of_accepted {tick : TickData} (h : cfg.checkPriceValidity tick = true) :
    cfg.LadderOrdered (· ≥ ·) tick.bidPrice ∧ cfg.LadderOrdered (· ≤ ·) tick.askPrice ∧
      cfg.crossedQuotes (tick.bidPrice.get 0) (tick.askPrice.get 0) = false := by
  have hall := (cfg.checkPriceValidity_iff tick).1 h
  rw [← List.all_eq_true, ← List.all_eq_true, bidLadder_iff, askLadder_iff] at hall
  exact hall.2.2

/-- Quotes that are not crossed have a spread within the tolerance. -/
theorem spread_le_of_not_crossed {bid ask : Double} (h : cfg.crossedQuotes bid ask = false)
    (hbid : present bid = true) (hask : present ask = true) :
    bid.toRat - ask.toRat ≤ cfg.maxInvertSpreadTick * cfg.tickSize + 1 / 100000000 := by
  have hb := hbid
  have ha := hask
  simp only [present, Bool.and_eq_true, Bool.not_eq_true'] at hb ha
  rw [crossedQuotes, hb.1, hb.2, ha.1, ha.2, eq_fin_of_present hbid, eq_fin_of_present hask] at h
  simpa using h

/-- **The spread at a deeper level** of an accepted tick is within the tolerance, if that level and
all levels before it have both prices. -/
theorem spread_le_of_accepted (tick : TickData) (h : cfg.checkPriceValidity tick = true) :
    ∀ i : Fin 5, (i.val : ℤ) < cfg.checkBidAskLevels →
      (∀ m ≤ i, present (tick.bidPrice.get m) = true ∧ present (tick.askPrice.get m) = true) →
        (tick.bidPrice.get i).toRat - (tick.askPrice.get i).toRat ≤
          cfg.maxInvertSpreadTick * cfg.tickSize + 1 / 100000000 := by
  intro i hi hrun
  obtain ⟨hbids, hasks, hcross⟩ := cfg.ladders_of_accepted h
  have hfirst := hrun 0 (Fin.zero_le i)
  have hspread := cfg.spread_le_of_not_crossed hcross hfirst.1 hfirst.2
  rcases (Fin.zero_le i).eq_or_lt with rfl | hpos
  · exact hspread
  · -- the bids fall and the asks rise from the first level to this one
    have hbid := hbids 0 i hpos hi fun m _ hm => (hrun m hm).1
    have hask := hasks 0 i hpos hi fun m _ hm => (hrun m hm).2
    linarith

/-- The benchmark's tick is accepted, so its deepest spread is bounded. -/
theorem spread_le_of_accepted_sample :
    (createTestTickData.bidPrice.get 4).toRat - (createTestTickData.askPrice.get 4).toRat ≤
      fiveLevels.maxInvertSpreadTick * fiveLevels.tickSize + 1 / 100000000 :=
  fiveLevels.spread_le_of_accepted createTestTickData (by decide +kernel) 4 (by decide)
    (by decide +kernel)

/-- Over a gap a crossed deeper level is accepted. -/
theorem crossed_level_accepted :
    ¬ ∀ (cfg : SpecialConfig) (tick : TickData), cfg.enablePriceCheck = true →
      0 ≤ cfg.maxInvertSpreadTick → cfg.checkPriceValidity tick = true →
      ∀ i : Fin 5, (i.val : ℤ) < cfg.checkBidAskLevels →
        present (tick.bidPrice.get i) = true → present (tick.askPrice.get i) = true →
          (tick.bidPrice.get i).toRat - (tick.askPrice.get i).toRat ≤
            cfg.maxInvertSpreadTick * cfg.tickSize + 1 / 100000000 := by
  intro h
  have hspread := h fiveLevels gapTick rfl (by decide) (by decide +kernel) 2 (by decide)
    (by decide +kernel) (by decide +kernel)
  exact absurd hspread (by decide +kernel)

end SpecialConfig

end UltraMds
