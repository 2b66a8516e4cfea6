import UltraMds.DataHandler.Timestamp

/-!
# Disorder over whole runs

The timestamp check is a watermark filter on the combined timestamps.

* `bounded_disorder`: over a run of calls the newest timestamp is the maximum of the ones that
  passed, it never goes back, and of two ticks that passed with one date the later is behind the
  earlier by at most the tolerance, counted in real milliseconds;
* `chronological_accepted_iff`: a chronological stream passes as a whole exactly when, with the
  trading day as date, the time of day does not go back by more than the tolerance within a
  trading day;
* `late_tick_accepted_iff`: a tick that is late by real milliseconds within the tolerance passes
  only if the minute and hour boundaries in between leave room for it.
-/

namespace UltraMds

open StreamFilter

namespace UnitProcessor

/-! ### What a run leaves behind -/

/-- The tick of the entry reached the timestamp check and passed it. -/
def passedTimestamp (e : Entry UnitProcessor TickData) : Bool := e.before.passesTimestamp e.input

/-- The timestamps that passed their check in a run of calls, in order. -/
def timestampsPassed (u : UnitProcessor) (ticks : List TickData) : List ℤ :=
  ((history validate u ticks).filter passedTimestamp).map fun e => e.before.timestamp e.input

/-- With the timestamp check on, a call raises the newest timestamp to the tick's if that passes,
and leaves it alone if not. -/
theorem validate_last_eq {u : UnitProcessor} (hts : u.mConfig.enableTimestampCheck = true)
    (tick : TickData) :
    (u.validate tick).2.mLastTimestamp =
      if u.passesTimestamp tick = true then max u.mLastTimestamp (u.timestamp tick)
      else u.mLastTimestamp := by
  rw [validate_snd, hts, passesTimestamp]
  cases hex : u.mConfig.exchangeOk tick with
  | false => simp
  | true =>
    cases hcheck : (u.checkTimestampNew tick).1 with
    | false => simp [checkTimestampNew_rejected u tick hcheck]
    | true =>
      have hnn := ((checkTimestampNew_fst u tick).1 hcheck).1
      simp [checkTimestampNew_last, hnn]

theorem final_mConfig (u : UnitProcessor) (ticks : List TickData) :
    (final validate u ticks).mConfig = u.mConfig := by
  induction ticks generalizing u with
  | nil => rfl
  | cons t ticks ih => rw [final_cons, ih, validate_mConfig]

theorem last_le_final (u : UnitProcessor) (ticks : List TickData) :
    u.mLastTimestamp ≤ (final validate u ticks).mLastTimestamp := by
  induction ticks generalizing u with
  | nil => exact le_rfl
  | cons t ticks ih => exact (last_le_validate_last u t).trans (ih _)

/-- The newest timestamp after a run is the watermark of the timestamps that passed. -/
theorem final_last_eq_level {u : UnitProcessor} (hts : u.mConfig.enableTimestampCheck = true)
    (ticks : List TickData) :
    (final validate u ticks).mLastTimestamp =
      Watermark.level u.mLastTimestamp (u.timestampsPassed ticks) := by
  induction ticks generalizing u with
  | nil => rfl
  | cons t ticks ih =>
    have hts' : (u.validate t).2.mConfig.enableTimestampCheck = true := by
      rw [validate_mConfig]
      exact hts
    rw [final_cons, ih hts', validate_last_eq hts]
    cases hp : u.passesTimestamp t with
    | true =>
      rw [timestampsPassed, timestampsPassed, history_cons,
        List.filter_cons_of_pos (show passedTimestamp (entry validate u t) = true from hp)]
      rfl
    | false =>
      have hneg : ¬ passedTimestamp (entry validate u t) = true := by
        rw [passedTimestamp, entry, hp]
        exact Bool.false_ne_true
      rw [timestampsPassed, timestampsPassed, history_cons, List.filter_cons_of_neg hneg]
      rfl

/-- The validator before an entry has the rules of the first one, and no older timestamp. -/
theorem before_of_mem_history {u : UnitProcessor} {ticks : List TickData}
    {e : Entry UnitProcessor TickData} (he : e ∈ history validate u ticks) :
    e.before.mConfig = u.mConfig ∧ u.mLastTimestamp ≤ e.before.mLastTimestamp := by
  obtain ⟨pre, t, -, -, rfl⟩ := exists_of_mem_history validate he
  exact ⟨final_mConfig u pre, last_le_final u pre⟩

/-- A tick that passes is not far behind an older timestamp that the validator remembers. -/
theorem sub_timestamp_le_of_passes {u : UnitProcessor} {tick : TickData} {ts : ℤ}
    (h : u.passesTimestamp tick = true) (hle : ts ≤ u.mLastTimestamp) :
    ts - u.timestamp tick ≤ u.mConfig.slack :=
  Watermark.Accepts.sub_le ((checkTimestampNew_fst u tick).1 (Bool.and_eq_true_iff.1 h).2).2 hle

/-- Of two ticks that pass in a run, the second is behind the first by at most the slack. -/
theorem pairwise_passed {u : UnitProcessor} (hts : u.mConfig.enableTimestampCheck = true)
    (ticks : List TickData) :
    ((history validate u ticks).filter passedTimestamp).Pairwise fun e e' =>
      0 ≤ u.timestamp e.input ∧ 0 ≤ u.timestamp e'.input ∧
        u.timestamp e.input - u.timestamp e'.input ≤ u.mConfig.slack := by
  induction ticks generalizing u with
  | nil => exact List.Pairwise.nil
  | cons t ticks ih =>
    have hcfg : (u.validate t).2.mConfig = u.mConfig := validate_mConfig u t
    have htail := ih (u := (u.validate t).2) (by rw [hcfg]; exact hts)
    simp only [timestamp, hcfg] at htail
    rw [history_cons, List.filter_cons]
    split_ifs with hp
    · have hpass : u.passesTimestamp t = true := hp
      refine List.pairwise_cons.2 ⟨fun e' he' => ?_, htail⟩
      obtain ⟨hmem, hpass'⟩ := List.mem_filter.1 he'
      obtain ⟨hcfg', hle⟩ := before_of_mem_history hmem
      rw [hcfg] at hcfg'
      -- the first timestamp is in the watermark that the second tick met
      have hmax : u.timestamp t ≤ e'.before.mLastTimestamp := by
        rw [validate_last_eq hts, if_pos hpass] at hle
        exact (le_max_right _ _).trans hle
      have hpass'' : e'.before.passesTimestamp e'.input = true := hpass'
      have hnn' := timestamp_nonneg_of_passes _ _ hpass''
      have hsub := sub_timestamp_le_of_passes hpass'' hmax
      have heq : e'.before.timestamp e'.input = u.timestamp e'.input :=
        congrArg (fun cfg => cfg.combineTimestamp e'.input) hcfg'
      rw [heq] at hnn' hsub
      rw [hcfg'] at hsub
      exact ⟨timestamp_nonneg_of_passes u t hpass, hnn', hsub⟩
    · exact htail

/-- **Bounded disorder.**  All through a run of calls after the construction or a reset, the
newest timestamp is the maximum of 0 and the timestamps that passed so far, it never goes back,
and of two ticks that passed with the same date the later is behind the earlier by at most the
tolerance in milliseconds of the day. -/
theorem bounded_disorder (u : UnitProcessor) (hts : u.mConfig.enableTimestampCheck = true)
    (ticks : List TickData) :
    (∀ pre post, ticks = pre ++ post →
      (final validate u.reset pre).mLastTimestamp =
        (u.reset.timestampsPassed pre).foldl max 0) ∧
    (∀ e ∈ history validate u.reset ticks, e.before.mLastTimestamp ≤ e.after.mLastTimestamp) ∧
    ((history validate u.reset ticks).filter passedTimestamp).Pairwise fun e e' =>
      dateNum (u.mConfig.dayStr e.input) = dateNum (u.mConfig.dayStr e'.input) →
        e.input.timeOfDay - e'.input.timeOfDay ≤ max 0 u.mConfig.maxDisorderToleranceMs := by
  refine ⟨fun pre _ _ => final_last_eq_level (u := u.reset) hts pre, fun e he => ?_, ?_⟩
  · obtain ⟨pre, t, -, -, rfl⟩ := exists_of_mem_history validate he
    exact last_le_validate_last _ t
  · refine (pairwise_passed (u := u.reset) hts ticks).imp ?_
    rintro e e' ⟨hnn, hnn', hsub⟩ hdate
    have hreal := u.mConfig.timeOfDay_sub_le hnn hnn' hdate
    have hslack := u.mConfig.slack_nonneg
    exact hreal.trans (max_le hslack hsub)

/-- A tick, one that is 5 ms behind it, one that is a second behind it, and a newer one. -/
def disorderedTicks : List TickData :=
  [createTestTickData, { createTestTickData with updatemill := 495 }, earlierTick,
    { createTestTickData with updateTime := strcpy 9 (chars "10:00:01") }]

/-- All but the third one pass, the second one thanks to the tolerance. -/
theorem bounded_disorder_sample :
    ((∀ pre post, disorderedTicks = pre ++ post →
        (final validate createTestUnitProcessor.reset pre).mLastTimestamp =
          (createTestUnitProcessor.reset.timestampsPassed pre).foldl max 0) ∧
      (∀ e ∈ history validate createTestUnitProcessor.reset disorderedTicks,
        e.before.mLastTimestamp ≤ e.after.mLastTimestamp) ∧
      ((history validate createTestUnitProcessor.reset disorderedTicks).filter
        passedTimestamp).Pairwise fun e e' =>
          dateNum (createTestUnitProcessor.mConfig.dayStr e.input) =
              dateNum (createTestUnitProcessor.mConfig.dayStr e'.input) →
            e.input.timeOfDay - e'.input.timeOfDay ≤
              max 0 createTestUnitProcessor.mConfig.maxDisorderToleranceMs) ∧
    ((history validate createTestUnitProcessor.reset disorderedTicks).map passedTimestamp =
        [true, true, false, true] ∧
      createTestUnitProcessor.reset.timestampsPassed disorderedTicks =
        [20240520100000500, 20240520100000495, 20240520100001500]) :=
  ⟨bounded_disorder createTestUnitProcessor rfl disorderedTicks, by decide +kernel,
    by decide +kernel⟩

end UnitProcessor

/-! ### Chronological streams -/

theorem TickData.WellFormed.validTime {t : TickData} (h : t.WellFormed) : t.ValidTime where
  colons := h.colons
  hour := ⟨twoDigits_nonneg h.hourDigits.1 h.hourDigits.2, h.hour⟩
  minute := ⟨twoDigits_nonneg h.minuteDigits.1 h.minuteDigits.2, h.minute⟩
  second := ⟨twoDigits_nonneg h.secondDigits.1 h.secondDigits.2, h.second⟩
  mill := h.mill

/-- A well-formed tick has a valid timestamp for either date. -/
theorem TickData.WellFormed.timestamp_nonneg {t : TickData} (h : t.WellFormed)
    (cfg : SpecialConfig) : 0 ≤ cfg.combineTimestamp t := by
  refine (cfg.combineTimestamp_nonneg_iff t).2 ⟨h.validTime, ?_⟩
  unfold SpecialConfig.dayStr
  split_ifs
  · exact strToInt64_isSome_iff.2 h.tradingDay
  · exact strToInt64_isSome_iff.2 h.actionDay

/-- A feed in order: the moments of the calendar and the trading days do not go back. -/
def Chronological (ticks : List TickData) : Prop :=
  ticks.Pairwise fun a b =>
    moment a.actionDay a ≤ moment b.actionDay b ∧ dateNum a.tradingDay ≤ dateNum b.tradingDay

namespace SpecialConfig

variable (cfg : SpecialConfig)

/-- With the action day as date, the timestamps of a chronological feed do not go back. -/
theorem timestamp_le_of_moment_le {a b : TickData} (ha : a.WellFormed) (hb : b.WellFormed)
    (hbase : cfg.timestampBase ≠ "TradingDay")
    (hle : moment a.actionDay a ≤ moment b.actionDay b) :
    cfg.combineTimestamp a ≤ cfg.combineTimestamp b := by
  have hday : ∀ t, cfg.dayStr t = t.actionDay := fun t => if_neg hbase
  rw [cfg.combineTimestamp_eq_value (ha.timestamp_nonneg cfg),
    cfg.combineTimestamp_eq_value (hb.timestamp_nonneg cfg), hday, hday]
  have hbelow := moment_below_packed a.actionDay ha.validTime
  have hbelow' := moment_below_packed b.actionDay hb.validTime
  have hnlt := mt (MixedRadix.value_lt_iff hbelow' hbelow).1 (not_lt.2 hle)
  omega

/-- With the trading day as date, a tick of a later trading day is never behind, and within one
trading day the time of day decides. -/
theorem timestamp_sub_le_iff {a b : TickData} (ha : a.WellFormed) (hb : b.WellFormed)
    (hbase : cfg.timestampBase = "TradingDay")
    (hle : dateNum a.tradingDay ≤ dateNum b.tradingDay) :
    cfg.combineTimestamp a - cfg.combineTimestamp b ≤ cfg.slack ↔
      (dateNum a.tradingDay = dateNum b.tradingDay →
        a.packedTime - b.packedTime ≤ cfg.slack) := by
  have hday : ∀ t, cfg.dayStr t = t.tradingDay := fun t => if_pos hbase
  have hts : ∀ {t : TickData}, t.WellFormed →
      cfg.combineTimestamp t = dateNum t.tradingDay * 1000000000 + t.packedTime := by
    intro t h
    rw [cfg.combineTimestamp_eq_packed (h.timestamp_nonneg cfg), hday]
  have hboundsA := packedTime_bounds ha.validTime
  have hboundsB := packedTime_bounds hb.validTime
  have hslack := cfg.slack_nonneg
  rw [hts ha, hts hb]
  omega

end SpecialConfig

namespace UnitProcessor

/-- The timestamp check alone, as a watermark filter on valid timestamps. -/
theorem all_accepted_iff (u : UnitProcessor) {ticks : List TickData}
    (hnn : ∀ t ∈ ticks, 0 ≤ u.timestamp t) :
    (∀ e ∈ history checkTimestampNew u ticks, e.verdict = true) ↔
      Watermark.AllAccepted u.mConfig.slack u.mLastTimestamp (ticks.map u.timestamp) := by
  induction ticks generalizing u with
  | nil => simp [Watermark.AllAccepted]
  | cons t ticks ih =>
    obtain ⟨ht, hticks⟩ := List.forall_mem_cons.1 hnn
    have hcfg : (u.checkTimestampNew t).2.mConfig = u.mConfig := checkTimestampNew_mConfig u t
    have hlast : (u.checkTimestampNew t).2.mLastTimestamp =
        max u.mLastTimestamp (u.timestamp t) := by
      rw [checkTimestampNew_last, if_pos ht]
    have hts : (u.checkTimestampNew t).2.timestamp = u.timestamp := by
      unfold timestamp
      rw [hcfg]
    have htail := ih (u.checkTimestampNew t).2 (by rw [hts]; exact hticks)
    rw [hcfg, hlast, hts] at htail
    rw [history_cons, List.forall_mem_cons, htail, List.map_cons]
    refine and_congr_left fun _ => ?_
    refine (checkTimestampNew_fst u t).trans ?_
    simp only [ht, true_and, Watermark.Accepts]

/-- **Chronological feeds.**  The timestamp check accepts every tick of a chronological feed
exactly when the date is the action day, or the time of day never goes back by more than the
tolerance between two ticks of one trading day. -/
theorem chronological_accepted_iff (u : UnitProcessor) (ticks : List TickData)
    (hwf : ∀ t ∈ ticks, t.WellFormed) (hchron : Chronological ticks) :
    (∀ e ∈ history checkTimestampNew u.reset ticks, e.verdict = true) ↔
      (u.mConfig.timestampBase = "TradingDay" →
        ticks.Pairwise fun a b => dateNum a.tradingDay = dateNum b.tradingDay →
          a.packedTime - b.packedTime ≤ max 0 u.mConfig.maxDisorderToleranceMs) := by
  have hnn : ∀ t ∈ ticks, 0 ≤ u.reset.timestamp t := fun t ht => (hwf t ht).timestamp_nonneg _
  have hslack := u.mConfig.slack_nonneg
  rw [all_accepted_iff u.reset hnn, Watermark.allAccepted_iff, List.pairwise_map]
  -- the first watermark is 0, below every timestamp
  have hfirst : ∀ ts ∈ ticks.map u.reset.timestamp,
      u.reset.mLastTimestamp - ts ≤ u.reset.mConfig.slack := by
    intro ts hmem
    obtain ⟨t, ht, rfl⟩ := List.mem_map.1 hmem
    have hts := hnn t ht
    show 0 - u.reset.timestamp t ≤ u.mConfig.slack
    omega
  refine (and_iff_right hfirst).trans ?_
  have hmem : ticks.Pairwise fun a b => a.WellFormed ∧ b.WellFormed :=
    List.pairwise_of_forall_mem_list fun a ha b hb => ⟨hwf a ha, hwf b hb⟩
  have hfeed := hmem.and hchron
  by_cases hbase : u.mConfig.timestampBase = "TradingDay"
  · simp only [hbase, true_implies]
    constructor
    · intro h
      refine (hfeed.and h).imp ?_
      rintro a b ⟨⟨⟨ha, hb⟩, -, hle⟩, hsub⟩
      exact (u.mConfig.timestamp_sub_le_iff ha hb hbase hle).1 hsub
    · intro h
      refine (hfeed.and h).imp ?_
      rintro a b ⟨⟨⟨ha, hb⟩, -, hle⟩, himp⟩
      exact (u.mConfig.timestamp_sub_le_iff ha hb hbase hle).2 himp
  · simp only [hbase, false_implies, iff_true]
    refine hfeed.imp ?_
    rintro a b ⟨⟨ha, hb⟩, hle, -⟩
    have hts : u.reset.timestamp a ≤ u.reset.timestamp b :=
      u.mConfig.timestamp_le_of_moment_le ha hb hbase hle
    show u.reset.timestamp a - u.reset.timestamp b ≤ u.mConfig.slack
    omega

/-- The first tick of a night session, which belongs to the next trading day. -/
def nightTick : TickData :=
  { createTestTickData with
    updateTime := strcpy 9 (chars "21:00:00"), tradingDay := strcpy 9 (chars "20240521") }

/-- The first tick of the day session that follows. -/
def dayTick : TickData :=
  { createTestTickData with
    updateTime := strcpy 9 (chars "09:00:00"), actionDay := strcpy 9 (chars "20240521")
    tradingDay := strcpy 9 (chars "20240521") }

theorem nightTick_wellFormed : nightTick.WellFormed := by constructor <;> decide +kernel

theorem dayTick_wellFormed : dayTick.WellFormed := by constructor <;> decide +kernel

theorem sessions_wellFormed : ∀ t ∈ [nightTick, dayTick], t.WellFormed :=
  List.forall_mem_cons.2
    ⟨nightTick_wellFormed, List.forall_mem_cons.2 ⟨dayTick_wellFormed, by simp⟩⟩

theorem sessions_chronological : Chronological [nightTick, dayTick] := by
  refine List.pairwise_pair.2 ⟨?_, by decide⟩
  exact le_of_lt (by decide)

/-- A night session and the day session after it. -/
theorem chronological_accepted_iff_sample :
    (∀ e ∈ history checkTimestampNew createTestUnitProcessor.reset [nightTick, dayTick],
        e.verdict = true) ↔
      (createTestUnitProcessor.mConfig.timestampBase = "TradingDay" →
        [nightTick, dayTick].Pairwise fun a b => dateNum a.tradingDay = dateNum b.tradingDay →
          a.packedTime - b.packedTime ≤
            max 0 createTestUnitProcessor.mConfig.maxDisorderToleranceMs) :=
  chronological_accepted_iff createTestUnitProcessor [nightTick, dayTick] sessions_wellFormed
    sessions_chronological

/-- After a night session the default rules reject the day session. -/
theorem day_session_rejected :
    ¬ ∀ (u : UnitProcessor) (ticks : List TickData),
      u.mConfig.enableTimestampCheck = true → u.mConfig.allowSameMsData = true →
      (∀ t ∈ ticks, t.WellFormed) → Chronological ticks →
      ∀ e ∈ history checkTimestampNew u.reset ticks, e.verdict = true := by
  intro h
  have hall := h createTestUnitProcessor [nightTick, dayTick] rfl rfl sessions_wellFormed
    sessions_chronological
  have hday := hall (entry checkTimestampNew _ dayTick)
    (List.mem_cons_of_mem _ List.mem_cons_self)
  exact absurd hday (by decide)

/-! ### Lateness in milliseconds -/

/-- **The tolerance is not in milliseconds.**  Of a tick with the date of the newest one the check
sees the lateness, 40 seconds for each minute boundary and 4000 seconds for each hour boundary
between the two, and accepts the tick when the sum is within the tolerance. -/
theorem late_tick_accepted_iff (u : UnitProcessor) {p t : TickData} (hp : p.WellFormed)
    (ht : t.WellFormed) (hlast : u.mLastTimestamp = u.timestamp p)
    (hdate : dateNum (u.mConfig.dayStr t) = dateNum (u.mConfig.dayStr p))
    (htol : 0 ≤ u.mConfig.maxDisorderToleranceMs) :
    (u.checkTimestampNew t).1 = true ↔
      p.timeOfDay - t.timeOfDay + 40000 * (p.minuteOfDay - t.minuteOfDay) +
        4000000 * (p.hour - t.hour) ≤ u.mConfig.maxDisorderToleranceMs := by
  have hnn := ht.timestamp_nonneg u.mConfig
  have htp := u.mConfig.combineTimestamp_eq_packed (hp.timestamp_nonneg u.mConfig)
  have htt := u.mConfig.combineTimestamp_eq_packed hnn
  have hpp := p.packedTime_eq
  have hpt := t.packedTime_eq
  have hslack : u.mConfig.slack = u.mConfig.maxDisorderToleranceMs := max_eq_right htol
  have hdiff : u.mLastTimestamp - u.timestamp t =
      p.timeOfDay - t.timeOfDay + 40000 * (p.minuteOfDay - t.minuteOfDay) +
        4000000 * (p.hour - t.hour) := by
    rw [hlast]
    unfold timestamp
    linarith
  rw [checkTimestampNew_fst, and_iff_right hnn, hslack, hdiff]

/-- The first tick of a minute. -/
def minuteTick : TickData :=
  { createTestTickData with updateTime := strcpy 9 (chars "10:01:00"), updatemill := 0 }

/-- A tick 5 ms before it. -/
def lateTick : TickData :=
  { createTestTickData with updateTime := strcpy 9 (chars "10:00:59"), updatemill := 995 }

/-- A tick 5 ms before `lateTick`. -/
def laterTick : TickData := { lateTick with updatemill := 990 }

/-- The benchmark's validator after a tick. -/
def afterTick (p : TickData) : UnitProcessor :=
  { createTestUnitProcessor with mLastTimestamp := createTestUnitProcessor.timestamp p }

theorem minuteTick_wellFormed : minuteTick.WellFormed := by constructor <;> decide +kernel

theorem lateTick_wellFormed : lateTick.WellFormed := by constructor <;> decide +kernel

theorem laterTick_wellFormed : laterTick.WellFormed := by constructor <;> decide +kernel

/-- Two ticks of one minute. -/
theorem late_tick_accepted_iff_sample :
    ((afterTick lateTick).checkTimestampNew laterTick).1 = true ↔
      lateTick.timeOfDay - laterTick.timeOfDay +
          40000 * (lateTick.minuteOfDay - laterTick.minuteOfDay) +
          4000000 * (lateTick.hour - laterTick.hour) ≤
        (afterTick lateTick).mConfig.maxDisorderToleranceMs :=
  late_tick_accepted_iff (afterTick lateTick) lateTick_wellFormed laterTick_wellFormed rfl rfl
    (by decide)

/-- A tick that is 5 ms late over a minute boundary is rejected with a tolerance of 10 ms. -/
theorem late_tick_rejected :
    ¬ ∀ (u : UnitProcessor) (p t : TickData), p.WellFormed → t.WellFormed →
      u.mLastTimestamp = u.timestamp p →
      dateNum (u.mConfig.dayStr t) = dateNum (u.mConfig.dayStr p) →
      0 ≤ u.mConfig.maxDisorderToleranceMs →
      (0 ≤ p.timeOfDay - t.timeOfDay ∧
        p.timeOfDay - t.timeOfDay ≤ u.mConfig.maxDisorderToleranceMs) →
      (u.checkTimestampNew t).1 = true := by
  intro h
  have haccept := h (afterTick minuteTick) minuteTick lateTick minuteTick_wellFormed
    lateTick_wellFormed rfl rfl (by decide) (by decide)
  exact absurd haccept (by decide)

end UnitProcessor

end UltraMds
