import UltraMds.DataHandler.UnitProcessor
import UltraMds.Library.Run

/-!
# One call of the validator

What a call of `checkTimestampNew` and of `validate` answers and leaves behind, said without the
branches of the code: the timestamp check accepts a valid timestamp that is behind the newest one
by at most `slack` (`checkTimestampNew_fst`), and afterwards the newest one is the maximum of the
two (`checkTimestampNew_last`).  The switch `allow_same_ms_data` occurs in neither.

From this follow the two results on rejected and on repeated timestamps:

* `rejection_trace`: a rejected tick moves the newest timestamp exactly when it is newer and a
  later check rejects it, and the rejected ticks that do not move it can be deleted from a
  stream;
* `repeated_timestamp_rejected_iff`: a repeated timestamp is rejected only if some other check
  rejects the tick, also with `allow_same_ms_data` off.
-/

namespace UltraMds

open StreamFilter

namespace SpecialConfig

variable (cfg : SpecialConfig) (tick : TickData)

/-- The lateness in milliseconds that the disorder check lets through. -/
def slack : ℤ := max 0 cfg.maxDisorderToleranceMs

/-- The exchange check is off or passed. -/
def exchangeOk : Bool := !cfg.enableExchangeCheck || cfg.checkWhiteList tick

/-- The three checks after the timestamp check are off or passed. -/
def laterOk : Bool :=
  (!cfg.enablePriceCheck || cfg.checkPriceValidity tick)
    && (!cfg.enableVolumeCheck || cfg.checkVolumeValidity tick)
    && (!cfg.enableAbnormalPacketCheck || checkAbnormalPacket tick)

theorem slack_nonneg : 0 ≤ cfg.slack := le_max_left _ _

end SpecialConfig

namespace UnitProcessor

variable (u : UnitProcessor) (tick : TickData)

/-- The combined timestamp of a tick for the rules of the validator. -/
abbrev timestamp : ℤ := u.mConfig.combineTimestamp tick

/-! ### The timestamp check -/

theorem checkTimestampNew_fst :
    (u.checkTimestampNew tick).1 = true ↔
      0 ≤ u.timestamp tick ∧ u.mLastTimestamp - u.timestamp tick ≤ u.mConfig.slack := by
  unfold checkTimestampNew SpecialConfig.slack
  simp only [timestamp]
  generalize u.mConfig.combineTimestamp tick = ts
  split_ifs <;> simp <;> omega

theorem checkTimestampNew_last :
    (u.checkTimestampNew tick).2.mLastTimestamp =
      if 0 ≤ u.timestamp tick then max u.mLastTimestamp (u.timestamp tick)
      else u.mLastTimestamp := by
  unfold checkTimestampNew
  simp only [timestamp]
  generalize u.mConfig.combineTimestamp tick = ts
  split_ifs <;> simp <;> omega

@[simp] theorem checkTimestampNew_mConfig : (u.checkTimestampNew tick).2.mConfig = u.mConfig := by
  unfold checkTimestampNew
  simp only
  split_ifs <;> rfl

@[simp] theorem checkTimestampNew_mContractName :
    (u.checkTimestampNew tick).2.mContractName = u.mContractName := by
  unfold checkTimestampNew
  simp only
  split_ifs <;> rfl

/-- A rejected timestamp leaves the validator as it was. -/
theorem checkTimestampNew_rejected (h : (u.checkTimestampNew tick).1 = false) :
    (u.checkTimestampNew tick).2 = u := by
  unfold checkTimestampNew at h ⊢
  simp only at h ⊢
  split_ifs at h ⊢ <;> rfl

/-! ### The whole call -/

/-- The tick reaches the timestamp check and passes it. -/
def passesTimestamp : Bool := u.mConfig.exchangeOk tick && (u.checkTimestampNew tick).1

/-- The timestamp check is off or passed. -/
def timestampOk : Bool := !u.mConfig.enableTimestampCheck || (u.checkTimestampNew tick).1

/-- The last three stages of a call, for a validator with the given rules. -/
theorem laterChecks_eq (cfg : SpecialConfig) :
    (if cfg.enablePriceCheck && !cfg.checkPriceValidity tick then (false, u)
      else if cfg.enableVolumeCheck && !cfg.checkVolumeValidity tick then (false, u)
      else if cfg.enableAbnormalPacketCheck && !SpecialConfig.checkAbnormalPacket tick then
        (false, u)
      else (true, u)) = (cfg.laterOk tick, u) := by
  unfold SpecialConfig.laterOk
  cases cfg.enablePriceCheck <;> cases cfg.checkPriceValidity tick <;>
    cases cfg.enableVolumeCheck <;> cases cfg.checkVolumeValidity tick <;>
    cases cfg.enableAbnormalPacketCheck <;> cases SpecialConfig.checkAbnormalPacket tick <;> rfl

/-- The two components of a call. -/
theorem validate_eq :
    u.validate tick =
      (u.mConfig.exchangeOk tick && u.timestampOk tick && u.mConfig.laterOk tick,
        if u.mConfig.exchangeOk tick && u.mConfig.enableTimestampCheck then
          (u.checkTimestampNew tick).2 else u) := by
  have hcfg := checkTimestampNew_mConfig u tick
  unfold validate timestampOk
  rcases hts : u.checkTimestampNew tick with ⟨ok, u'⟩
  rw [hts] at hcfg
  have hex : (u.mConfig.enableExchangeCheck && !u.mConfig.checkWhiteList tick) =
      !u.mConfig.exchangeOk tick := by
    simp [SpecialConfig.exchangeOk]
  rw [hex]
  cases u.mConfig.exchangeOk tick with
  | false => rfl
  | true =>
    cases u.mConfig.enableTimestampCheck with
    | false => exact laterChecks_eq u tick u.mConfig
    | true =>
      cases ok with
      | false => rfl
      | true =>
        -- the later checks read the configuration, which the timestamp check left alone
        refine (laterChecks_eq u' tick u'.mConfig).trans ?_
        rw [hcfg]
        rfl

theorem validate_fst :
    (u.validate tick).1 =
      (u.mConfig.exchangeOk tick && u.timestampOk tick && u.mConfig.laterOk tick) := by
  rw [validate_eq]

theorem validate_snd :
    (u.validate tick).2 =
      if u.mConfig.exchangeOk tick && u.mConfig.enableTimestampCheck then
        (u.checkTimestampNew tick).2 else u := by
  rw [validate_eq]

@[simp] theorem validate_mConfig : (u.validate tick).2.mConfig = u.mConfig := by
  rw [validate_snd]
  split_ifs
  · exact checkTimestampNew_mConfig u tick
  · rfl

@[simp] theorem validate_mContractName :
    (u.validate tick).2.mContractName = u.mContractName := by
  rw [validate_snd]
  split_ifs
  · exact checkTimestampNew_mContractName u tick
  · rfl

/-- The newest timestamp after a call. -/
theorem validate_last :
    (u.validate tick).2.mLastTimestamp =
      if u.mConfig.exchangeOk tick = true ∧ u.mConfig.enableTimestampCheck = true ∧
          0 ≤ u.timestamp tick then
        max u.mLastTimestamp (u.timestamp tick) else u.mLastTimestamp := by
  rw [validate_snd]
  cases u.mConfig.exchangeOk tick <;> cases u.mConfig.enableTimestampCheck <;>
    simp [checkTimestampNew_last]

/-- The newest timestamp never goes back. -/
theorem last_le_validate_last : u.mLastTimestamp ≤ (u.validate tick).2.mLastTimestamp := by
  rw [validate_last]
  split_ifs
  · exact le_max_left _ _
  · exact le_rfl

/-! ### Runs of calls -/

/-- A call of the public interface. -/
inductive Call
  | validate (tick : TickData)
  | reset

/-- The validator after a call. -/
def call (u : UnitProcessor) : Call → UnitProcessor
  | .validate tick => (u.validate tick).2
  | .reset => u.reset

/-- The validator after a run of calls. -/
abbrev calls (u : UnitProcessor) (cs : List Call) : UnitProcessor := Run.run call u cs

@[simp] theorem call_mConfig (c : Call) : (u.call c).mConfig = u.mConfig := by
  cases c with
  | validate tick => exact validate_mConfig u tick
  | reset => rfl

@[simp] theorem calls_mConfig (cs : List Call) : (u.calls cs).mConfig = u.mConfig :=
  Run.invariant (I := fun v => v.mConfig = u.mConfig)
    (fun v c hv => (call_mConfig v c).trans hv) rfl cs

/-! ### Rejected ticks -/

/-- The tick is newer than all before it and comes as far as the timestamp check. -/
def MovesTimestamp : Prop :=
  u.mConfig.exchangeOk tick = true ∧ u.mConfig.enableTimestampCheck = true ∧
    0 ≤ u.timestamp tick ∧ u.mLastTimestamp < u.timestamp tick

theorem validate_last_ne_iff :
    (u.validate tick).2.mLastTimestamp ≠ u.mLastTimestamp ↔ u.MovesTimestamp tick := by
  rw [validate_last]
  unfold MovesTimestamp
  split_ifs with h
  · simp only [h, true_and]
    omega
  · simp only [ne_eq, not_true_eq_false, false_iff]
    tauto

/-- A call that does not move the newest timestamp changes nothing. -/
theorem validate_snd_eq_self (h : (u.validate tick).2.mLastTimestamp = u.mLastTimestamp) :
    (u.validate tick).2 = u := by
  have hname := validate_mContractName u tick
  have hcfg := validate_mConfig u tick
  generalize (u.validate tick).2 = v at h hname hcfg
  cases u
  cases v
  simp_all

/-- The entry is an accepted tick or one that moved the newest timestamp. -/
def leftTrace (e : Entry UnitProcessor TickData) : Bool :=
  e.verdict || e.after.mLastTimestamp != e.before.mLastTimestamp

/-- **The trace of a rejected tick.**  A rejected tick leaves the newest timestamp alone unless
it is newer and a check after the timestamp check rejects it; then it becomes the newest one.
Deleting the rejected ticks without a trace from a stream changes none of the other entries. -/
theorem rejection_trace (u : UnitProcessor) :
    (∀ tick, (u.validate tick).1 = false →
      ¬ u.MovesTimestamp tick ∧ (u.validate tick).2.mLastTimestamp = u.mLastTimestamp ∨
      u.MovesTimestamp tick ∧ u.mConfig.laterOk tick = false ∧
        (u.validate tick).2.mLastTimestamp = u.timestamp tick) ∧
    ∀ ticks,
      history validate u (((history validate u ticks).filter leftTrace).map Entry.input) =
        (history validate u ticks).filter leftTrace := by
  refine ⟨fun tick hrej => ?_, fun ticks => history_prune validate leftTrace ?_ u ticks⟩
  · by_cases hm : u.MovesTimestamp tick
    · refine Or.inr ⟨hm, ?_, ?_⟩
      · -- a newer timestamp passes its check, so a later check rejected
        obtain ⟨hex, hen, hnn, hlt⟩ := hm
        have hts : (u.checkTimestampNew tick).1 = true :=
          (checkTimestampNew_fst u tick).2 ⟨hnn, by have := u.mConfig.slack_nonneg; omega⟩
        rw [validate_fst, hex, timestampOk, hen, hts] at hrej
        exact hrej
      · rw [validate_last, if_pos ⟨hm.1, hm.2.1, hm.2.2.1⟩]
        exact max_eq_right hm.2.2.2.le
    · refine Or.inl ⟨hm, ?_⟩
      by_contra hne
      exact hm ((validate_last_ne_iff u tick).1 hne)
  · intro v tick hv
    simp only [leftTrace, entry, Bool.or_eq_false_iff, bne_eq_false_iff_eq] at hv
    exact validate_snd_eq_self v tick hv.2

/-- The validator of the repository's benchmarks. -/
def createTestUnitProcessor : UnitProcessor :=
  fresh "rb2410"
    { exchangeWhitelist := ["SHFE", "CZCE"], checkBidAskLevels := 5, tickSize := 1 / 2 }

/-- The benchmark's tick with no last price, which the price check rejects. -/
def unpricedTick : TickData := { createTestTickData with lastPrice := .nan }

/-- The benchmark's tick one second earlier. -/
def earlierTick : TickData := { createTestTickData with updateTime := strcpy 9 (chars "09:59:59") }

/-- A rejected tick becomes the newest one, and a good tick that came a second before it in the
day is rejected for that. -/
theorem rejected_tick_moves_timestamp :
    ¬ ((∀ (cs : List Call) (tick : TickData),
        ((createTestUnitProcessor.calls cs).validate tick).1 = false →
        ((createTestUnitProcessor.calls cs).validate tick).2.mLastTimestamp =
          (createTestUnitProcessor.calls cs).mLastTimestamp)) ∧
      accepted validate createTestUnitProcessor [unpricedTick, earlierTick] = [] ∧
      accepted validate createTestUnitProcessor [earlierTick] = [earlierTick] := by
  refine ⟨fun h => ?_, by decide, by decide +kernel⟩
  have hmoved := h [] unpricedTick (by decide)
  exact absurd hmoved (by decide)

/-! ### Repeated timestamps -/

/-- The newest timestamp after the calls `cs` is the one of a tick that passed the timestamp
check after the last reset. -/
def SetByTick (cs : List Call) : Prop :=
  ∃ pre tick post, cs = pre ++ .validate tick :: post ∧ .reset ∉ post ∧
    (u.calls pre).passesTimestamp tick = true ∧
    (u.calls cs).mLastTimestamp = u.timestamp tick

/-- The tick has the newest timestamp after the calls `cs`, which an earlier tick has set. -/
def RepeatsNewest (cs : List Call) : Prop :=
  u.SetByTick cs ∧ u.timestamp tick = (u.calls cs).mLastTimestamp

/-- A tick that passes the timestamp check has a valid timestamp. -/
theorem timestamp_nonneg_of_passes (h : u.passesTimestamp tick = true) : 0 ≤ u.timestamp tick :=
  ((checkTimestampNew_fst u tick).1 (Bool.and_eq_true_iff.1 h).2).1

/-- The timestamp check lets a repeated timestamp through, so the other checks decide. -/
theorem validate_repeated {cs : List Call} (h : u.RepeatsNewest tick cs) :
    ((u.calls cs).validate tick).1 =
      (u.mConfig.exchangeOk tick && u.mConfig.laterOk tick) := by
  obtain ⟨⟨pre, tick', post, -, -, hpass, hlast⟩, heq⟩ := h
  have hnn : 0 ≤ u.timestamp tick' := by
    have := timestamp_nonneg_of_passes (u.calls pre) tick' hpass
    rwa [timestamp, calls_mConfig] at this
  have hcheck : ((u.calls cs).checkTimestampNew tick).1 = true := by
    rw [checkTimestampNew_fst, timestamp, calls_mConfig]
    change 0 ≤ u.timestamp tick ∧ _ - u.timestamp tick ≤ _
    have := u.mConfig.slack_nonneg
    constructor <;> omega
  rw [validate_fst, timestampOk, hcheck, calls_mConfig]
  simp

/-- **A repeated timestamp is rejected exactly when another check rejects the tick**, with
`allow_same_ms_data` off as well as on, in every state that a run of calls reaches and, therefore,
all through a run. -/
theorem repeated_timestamp_rejected_iff (name : String) (config : SpecialConfig) :
    (∀ cs tick, (fresh name config).RepeatsNewest tick cs →
      ((((fresh name config).calls cs).validate tick).1 = false ↔
        config.exchangeOk tick = false ∨ config.laterOk tick = false)) ∧
    ∀ cs : List Call,
      (∀ pre tick post, cs = pre ++ .validate tick :: post →
        (fresh name config).RepeatsNewest tick pre →
          (((fresh name config).calls pre).validate tick).1 = false) ↔
      ∀ pre tick post, cs = pre ++ .validate tick :: post →
        (fresh name config).RepeatsNewest tick pre →
          config.exchangeOk tick = false ∨ config.laterOk tick = false := by
  have key : ∀ cs tick, (fresh name config).RepeatsNewest tick cs →
      ((((fresh name config).calls cs).validate tick).1 = false ↔
        config.exchangeOk tick = false ∨ config.laterOk tick = false) := by
    intro cs tick h
    rw [validate_repeated _ tick h, Bool.and_eq_false_iff]
    rfl
  refine ⟨key, fun cs => ?_⟩
  constructor
  · intro h pre tick post hcs hrep
    exact (key pre tick hrep).1 (h pre tick post hcs hrep)
  · intro h pre tick post hcs hrep
    exact (key pre tick hrep).2 (h pre tick post hcs hrep)

/-- The benchmark's rules with repeated timestamps forbidden. -/
def sameMsOffConfig : SpecialConfig :=
  { createTestUnitProcessor.mConfig with allowSameMsData := false }

theorem createTestTickData_repeats :
    (fresh "rb2410" sameMsOffConfig).RepeatsNewest createTestTickData
      [.validate createTestTickData] :=
  ⟨⟨[], createTestTickData, [], rfl, by simp, by decide, by decide +kernel⟩,
    by decide +kernel⟩

/-- Sent twice, the benchmark's tick could only be rejected by another check. -/
theorem repeated_timestamp_rejected_iff_sample :
    (((fresh "rb2410" sameMsOffConfig).calls [.validate createTestTickData]).validate
        createTestTickData).1 = false ↔
      sameMsOffConfig.exchangeOk createTestTickData = false ∨
        sameMsOffConfig.laterOk createTestTickData = false :=
  (repeated_timestamp_rejected_iff "rb2410" sameMsOffConfig).1
    [.validate createTestTickData] createTestTickData createTestTickData_repeats

/-- The benchmark's tick sent twice is accepted twice. -/
theorem repeated_timestamp_accepted :
    ¬ ∀ cs tick, (fresh "rb2410" sameMsOffConfig).RepeatsNewest tick cs →
      (((fresh "rb2410" sameMsOffConfig).calls cs).validate tick).1 = false := by
  intro h
  exact absurd (h _ _ createTestTickData_repeats) (by decide +kernel)

end UnitProcessor

end UltraMds
