import UltraMds.DataHandler.Checks
import UltraMds.DataHandler.Validate
import UltraMds.Library.Watermark

/-!
# Relaxing the rules

`Looser A B` says that the rules `B` are the rules `A` with some checks switched off or given
more room.  Every check that passes under `A` passes under `B`, stage by stage; the newest
timestamps stay equal although the two validators accept different ticks, because the watermark
does not depend on the slack.  Hence over every stream `B` accepts what `A` accepts
(`relaxing_keeps_accepted`).
-/

namespace UltraMds

open StreamFilter

/-- The rules `B` are at least as loose as the rules `A`. -/
structure Looser (A B : SpecialConfig) : Prop where
  exchangeCheck : B.enableExchangeCheck = A.enableExchangeCheck
  whitelist : B.exchangeWhitelist = A.exchangeWhitelist
  timestampBase : B.timestampBase = A.timestampBase
  allowSameMs : B.allowSameMsData = A.allowSameMsData
  timestampCheck : B.enableTimestampCheck = false ∨ B.enableTimestampCheck = A.enableTimestampCheck
  priceCheck : B.enablePriceCheck = false ∨ B.enablePriceCheck = A.enablePriceCheck
  volumeCheck : B.enableVolumeCheck = false ∨ B.enableVolumeCheck = A.enableVolumeCheck
  abnormalCheck : B.enableAbnormalPacketCheck = false ∨
    B.enableAbnormalPacketCheck = A.enableAbnormalPacketCheck
  tolerance : A.maxDisorderToleranceMs ≤ B.maxDisorderToleranceMs
  levels : B.checkBidAskLevels ≤ A.checkBidAskLevels
  invertSpread : A.maxInvertSpreadTick * A.tickSize ≤ B.maxInvertSpreadTick * B.tickSize
  limitRatio : A.limitPriceToleranceRatio ≤ B.limitPriceToleranceRatio
  skipZero : A.skipZeroLimitPrice = true → B.skipZeroLimitPrice = true

namespace Looser

variable {A B : SpecialConfig} (h : Looser A B) (tick : TickData)

include h

/-! ### The stages one by one -/

theorem exchangeOk_eq : B.exchangeOk tick = A.exchangeOk tick := by
  unfold SpecialConfig.exchangeOk SpecialConfig.checkWhiteList
  rw [h.exchangeCheck, h.whitelist]

theorem combineTimestamp_eq : B.combineTimestamp tick = A.combineTimestamp tick := by
  unfold SpecialConfig.combineTimestamp SpecialConfig.dayStr
  rw [h.timestampBase]

theorem slack_le : A.slack ≤ B.slack := max_le_max le_rfl h.tolerance

theorem levels_subset {lo : ℕ} {i : Fin 5} (hi : i ∈ B.levels lo) : i ∈ A.levels lo := by
  obtain ⟨hlo, hlt⟩ := B.mem_levels.1 hi
  exact A.mem_levels.2 ⟨hlo, hlt.trans_le h.levels⟩

/-- A last price outside the looser limits is outside the tighter ones. -/
theorem outsideLimits_anti (hlast : isInvalidPrice tick.lastPrice = false)
    (hup : isInvalidPrice tick.limitUp = false) (hdown : isInvalidPrice tick.limitDown = false)
    (hB : B.outsideLimits tick = true) : A.outsideLimits tick = true := by
  obtain ⟨last, hlast, -⟩ := eq_fin_of_valid hlast
  obtain ⟨up, hup, hup0⟩ := eq_fin_of_valid hup
  obtain ⟨down, hdown, -⟩ := eq_fin_of_valid hdown
  -- the upper limit is not negative, so the tolerance grows with the ratio
  have htol := mul_le_mul_of_nonneg_left h.limitRatio hup0
  simp only [SpecialConfig.outsideLimits, hlast, hup, hdown, Double.mul_fin, Double.sub_fin,
    Double.add_fin, Double.lt_fin, Bool.and_eq_true, Bool.or_eq_true, Bool.not_eq_true',
    decide_eq_true_eq] at hB ⊢
  obtain ⟨htested, hout⟩ := hB
  constructor
  · rcases htested with hoff | hpos
    · refine Or.inl (Bool.eq_false_iff.2 fun hA => ?_)
      rw [h.skipZero hA] at hoff
      cases hoff
    · exact Or.inr hpos
  · rcases hout with hlow | hhigh
    · exact Or.inl (by linarith)
    · exact Or.inr (by linarith)

/-- Quotes that are crossed too far for the looser rules are so for the tighter ones. -/
theorem crossedQuotes_anti {bid ask : Double} (hB : B.crossedQuotes bid ask = true) :
    A.crossedQuotes bid ask = true := by
  unfold SpecialConfig.crossedQuotes at hB ⊢
  simp only [Bool.and_eq_true, Bool.not_eq_true'] at hB ⊢
  obtain ⟨⟨⟨⟨hbid, hask⟩, hbid0⟩, hask0⟩, hspread⟩ := hB
  refine ⟨⟨⟨⟨hbid, hask⟩, hbid0⟩, hask0⟩, ?_⟩
  obtain ⟨bidq, hbidq, -⟩ := eq_fin_of_valid hbid
  obtain ⟨askq, haskq, -⟩ := eq_fin_of_valid hask
  rw [hbidq, haskq] at hspread ⊢
  simp only [Double.sub_fin, Double.add_fin, Double.lt_fin, decide_eq_true_eq] at hspread ⊢
  have hroom := h.invertSpread
  linarith

theorem checkPriceValidity_mono (hA : A.checkPriceValidity tick = true) :
    B.checkPriceValidity tick = true := by
  obtain ⟨⟨hlast, hup, hdown⟩, hlimits, hbids, hasks, hcrossed⟩ :=
    (A.checkPriceValidity_iff tick).1 hA
  refine (B.checkPriceValidity_iff tick).2 ⟨⟨hlast, hup, hdown⟩, ?_, ?_, ?_, ?_⟩
  · exact Bool.eq_false_iff.2 fun hB =>
      Bool.eq_false_iff.1 hlimits (h.outsideLimits_anti tick hlast hup hdown hB)
  · exact fun i hi => hbids i (h.levels_subset hi)
  · exact fun i hi => hasks i (h.levels_subset hi)
  · exact Bool.eq_false_iff.2 fun hB =>
      Bool.eq_false_iff.1 hcrossed (h.crossedQuotes_anti hB)

theorem checkVolumeValidity_mono (hA : A.checkVolumeValidity tick = true) :
    B.checkVolumeValidity tick = true := by
  obtain ⟨hvol, hlevels⟩ := (A.checkVolumeValidity_iff tick).1 hA
  exact (B.checkVolumeValidity_iff tick).2 ⟨hvol, fun i hi => hlevels i (h.levels_subset hi)⟩

omit h in
/-- A switched stage passes if its switch may only go off and its check may only get looser. -/
theorem stage_mono {onA onB okA okB : Bool} (hon : onB = false ∨ onB = onA)
    (hok : okA = true → okB = true) (hA : (!onA || okA) = true) : (!onB || okB) = true := by
  rcases hon with rfl | rfl
  · rfl
  · cases onB with
    | false => rfl
    | true => exact hok hA

theorem laterOk_mono (hA : A.laterOk tick = true) : B.laterOk tick = true := by
  unfold SpecialConfig.laterOk at hA ⊢
  simp only [Bool.and_eq_true] at hA ⊢
  obtain ⟨⟨hprice, hvolume⟩, habnormal⟩ := hA
  refine ⟨⟨?_, ?_⟩, ?_⟩
  · exact stage_mono h.priceCheck (h.checkPriceValidity_mono tick) hprice
  · exact stage_mono h.volumeCheck (h.checkVolumeValidity_mono tick) hvolume
  · exact stage_mono h.abnormalCheck id habnormal

/-- If `B` checks timestamps, so does `A`. -/
theorem checks_of_checks (hB : B.enableTimestampCheck = true) : A.enableTimestampCheck = true := by
  rcases h.timestampCheck with hoff | heq
  · rw [hB] at hoff
    cases hoff
  · rw [← heq, hB]

end Looser

namespace UnitProcessor

/-- Two validators with rules `A` and `B` in step: while `B` checks timestamps, they remember
the same newest one. -/
structure InStep (A B : SpecialConfig) (u v : UnitProcessor) : Prop where
  left : u.mConfig = A
  right : v.mConfig = B
  last : B.enableTimestampCheck = true → u.mLastTimestamp = v.mLastTimestamp

namespace InStep

variable {A B : SpecialConfig} {u v : UnitProcessor}

theorem timestamp_eq (hin : InStep A B u v) (h : Looser A B) (tick : TickData) :
    v.timestamp tick = u.timestamp tick := by
  rw [timestamp, timestamp, hin.left, hin.right]
  exact h.combineTimestamp_eq tick

/-- Every call keeps the validators in step, whatever they answer. -/
theorem validate (hin : InStep A B u v) (h : Looser A B) (tick : TickData) :
    InStep A B (u.validate tick).2 (v.validate tick).2 where
  left := (validate_mConfig u tick).trans hin.left
  right := (validate_mConfig v tick).trans hin.right
  last hB := by
    have hA := h.checks_of_checks hB
    rw [validate_last, validate_last, hin.timestamp_eq h tick, ← hin.last hB, hin.left, hin.right,
      h.exchangeOk_eq tick, hA, hB]

/-- Validators in step: what `A` accepts, `B` accepts. -/
theorem verdict_mono (hin : InStep A B u v) (h : Looser A B) (tick : TickData)
    (hA : (u.validate tick).1 = true) : (v.validate tick).1 = true := by
  rw [validate_fst, Bool.and_eq_true, Bool.and_eq_true, hin.left] at hA
  rw [validate_fst, Bool.and_eq_true, Bool.and_eq_true, hin.right]
  obtain ⟨⟨hex, hts⟩, hlater⟩ := hA
  refine ⟨⟨(h.exchangeOk_eq tick).trans hex, ?_⟩, h.laterOk_mono tick hlater⟩
  unfold timestampOk at hts ⊢
  rw [hin.right]
  cases hB : B.enableTimestampCheck with
  | false => rfl
  | true =>
    -- both check, at the same watermark, and `B` with the larger slack
    rw [hin.left, h.checks_of_checks hB] at hts
    obtain ⟨hnn, hle⟩ := (checkTimestampNew_fst u tick).1 hts
    refine (checkTimestampNew_fst v tick).2 ?_
    rw [hin.timestamp_eq h tick, ← hin.last hB, hin.right]
    rw [hin.left] at hle
    exact ⟨hnn, Watermark.Accepts.mono hle h.slack_le⟩

end InStep

/-- **Relaxing the rules loses no tick**: fed with the same stream, a fresh validator with looser
rules accepts every tick that one with the tighter rules accepts. -/
theorem relaxing_keeps_accepted (A B : SpecialConfig) (h : Looser A B) (nameA nameB : String)
    (ticks : List TickData) :
    List.Forall₂ (fun eA eB => eA.input = eB.input ∧ (eA.verdict = true → eB.verdict = true))
      (history UnitProcessor.validate (fresh nameA A) ticks)
      (history UnitProcessor.validate (fresh nameB B) ticks) := by
  have hfresh : InStep A B (fresh nameA A) (fresh nameB B) := ⟨rfl, rfl, fun _ => rfl⟩
  refine forall₂_history UnitProcessor.validate ?_ hfresh ticks
  intro u v tick hin
  exact ⟨hin.validate h tick, rfl, hin.verdict_mono h tick⟩

/-- The benchmark's rules without price check, with fewer levels and more time. -/
def looseConfig : SpecialConfig :=
  { createTestUnitProcessor.mConfig with
    enablePriceCheck := false, checkBidAskLevels := 2, maxDisorderToleranceMs := 500 }

theorem looser_looseConfig : Looser createTestUnitProcessor.mConfig looseConfig := by
  constructor <;> decide +kernel

theorem relaxing_keeps_accepted_sample :
    List.Forall₂ (fun eA eB => eA.input = eB.input ∧ (eA.verdict = true → eB.verdict = true))
      (history UnitProcessor.validate (fresh "rb2410" createTestUnitProcessor.mConfig)
        [createTestTickData, unpricedTick, earlierTick])
      (history UnitProcessor.validate (fresh "rb2410" looseConfig)
        [createTestTickData, unpricedTick, earlierTick]) :=
  relaxing_keeps_accepted createTestUnitProcessor.mConfig looseConfig looser_looseConfig "rb2410"
    "rb2410" [createTestTickData, unpricedTick, earlierTick]

end UnitProcessor

end UltraMds
