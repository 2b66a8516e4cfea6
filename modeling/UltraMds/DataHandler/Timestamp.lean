import UltraMds.DataHandler.Validate
import UltraMds.Library.MixedRadix
import UltraMds.Library.Watermark

/-!
# Combined timestamps

A combined timestamp packs a date and a time of day in decimal, `YYYYMMDDHHMMSSmmm`.  It is a
mixed radix number whose radices (`packedRadices`) are wider than the ones that bound its parts
(`clockRadices`), so it orders the parts lexicographically (`combineTimestamp_eq_value`) and its
differences never understate the real ones (`timeOfDay_sub_le`).

What is read as a timestamp is a little more than the texts of the grammar: the digits of the time
of day are not tested one by one (`timestamp_grammar_iff`).
-/

namespace UltraMds

/-! ### The digit loop -/

/-- The number that the digit loop reads has the magnitude of a number with that many digits. -/
theorem digitLoop_bounds {out v : ℤ} {s : List Int8} (h : digitLoop out s = some v) :
    out * 10 ^ s.length ≤ v ∧ v < (out + 1) * 10 ^ s.length := by
  induction s generalizing out with
  | nil =>
    cases h
    simp
  | cons c s ih =>
    rw [digitLoop] at h
    split at h
    · cases h
    · rename_i hc
      have hc' : 48 ≤ c.toInt ∧ c.toInt ≤ 57 := by simpa [isdigit] using hc
      obtain ⟨h1, h2⟩ := ih h
      have hpow : (0 : ℤ) < 10 ^ s.length := by positivity
      rw [List.length_cons, pow_succ]
      constructor
      · nlinarith
      · nlinarith

/-- The digit loop succeeds on digits. -/
theorem digitLoop_isSome_iff (out : ℤ) (s : List Int8) :
    (digitLoop out s).isSome = true ↔ ∀ c ∈ s, isdigit c = true := by
  induction s generalizing out with
  | nil => simp [digitLoop]
  | cons c s ih =>
    rw [digitLoop, List.forall_mem_cons]
    cases hc : isdigit c with
    | true => simpa using ih _
    | false => simp

theorem strToInt64_isSome_iff {n len : ℕ} {str : CharArray n} :
    (strToInt64 str len).isSome = true ↔ ∀ c ∈ str.toList.take len, isdigit c = true :=
  digitLoop_isSome_iff 0 _

theorem strToInt64_bounds {d : CharArray 9} {v : ℤ} (h : strToInt64 d 8 = some v) :
    0 ≤ v ∧ v < 100000000 := by
  have := digitLoop_bounds h
  simpa using this

/-! ### The parts of a timestamp -/

namespace TickData

variable (t : TickData)

/-- The time of day in milliseconds. -/
def timeOfDay : ℤ := ((t.hour * 60 + t.minute) * 60 + t.second) * 1000 + t.updatemill

/-- The minute of the day. -/
def minuteOfDay : ℤ := t.hour * 60 + t.minute

/-- The time of day as a decimal number `HHMMSSmmm`. -/
def packedTime : ℤ := t.hour * 10000000 + t.minute * 100000 + t.second * 1000 + t.updatemill

/-- Each full minute adds 40 seconds to the packed time, and each full hour 4000 more. -/
theorem packedTime_eq :
    t.packedTime = t.timeOfDay + 40000 * t.minuteOfDay + 4000000 * t.hour := by
  unfold packedTime timeOfDay minuteOfDay
  ring

end TickData

/-- The number of a date of eight digits, and 0 for any other text. -/
def dateNum (d : CharArray 9) : ℤ := (strToInt64 d 8).getD 0

theorem dateNum_bounds (d : CharArray 9) : 0 ≤ dateNum d ∧ dateNum d < 100000000 := by
  unfold dateNum
  cases h : strToInt64 d 8 with
  | none => simp
  | some v => exact strToInt64_bounds h

/-- The parts of a moment, most significant first: date, hour, minute, second, millisecond. -/
def moment (d : CharArray 9) (t : TickData) : List ℕ :=
  [(dateNum d).toNat, t.hour.toNat, t.minute.toNat, t.second.toNat, t.updatemill.toNat]

/-- The radices that bound the parts of a moment. -/
def clockRadices : List ℕ := [100000000, 24, 60, 60, 1000]

/-- The radices of the decimal packing. -/
def packedRadices : List ℕ := [100000000, 100, 100, 100, 1000]

theorem clockRadices_le_packedRadices : List.Forall₂ (· ≤ ·) clockRadices packedRadices := by
  decide

theorem moment_below (d : CharArray 9) {t : TickData} (ht : t.ValidTime) :
    MixedRadix.Below (moment d t) clockRadices := by
  have hd := dateNum_bounds d
  obtain ⟨-, hh, hm, hs, hms⟩ := ht
  refine .cons ?_ (.cons ?_ (.cons ?_ (.cons ?_ (.cons ?_ .nil)))) <;> omega

theorem moment_below_packed (d : CharArray 9) {t : TickData} (ht : t.ValidTime) :
    MixedRadix.Below (moment d t) packedRadices :=
  (moment_below d ht).mono clockRadices_le_packedRadices

theorem value_packed (d : CharArray 9) {t : TickData} (ht : t.ValidTime) :
    (MixedRadix.value packedRadices (moment d t) : ℤ) = dateNum d * 1000000000 + t.packedTime := by
  have hd := dateNum_bounds d
  obtain ⟨-, hh, hm, hs, hms⟩ := ht
  simp only [MixedRadix.value, packedRadices, moment, MixedRadix.valueFrom_cons,
    MixedRadix.valueFrom_nil, TickData.packedTime]
  omega

theorem value_clock (d : CharArray 9) {t : TickData} (ht : t.ValidTime) :
    (MixedRadix.value clockRadices (moment d t) : ℤ) = dateNum d * 86400000 + t.timeOfDay := by
  have hd := dateNum_bounds d
  obtain ⟨-, hh, hm, hs, hms⟩ := ht
  simp only [MixedRadix.value, clockRadices, moment, MixedRadix.valueFrom_cons,
    MixedRadix.valueFrom_nil, TickData.timeOfDay]
  omega

theorem packedTime_bounds {t : TickData} (ht : t.ValidTime) :
    0 ≤ t.packedTime ∧ t.packedTime < 1000000000 := by
  obtain ⟨-, hh, hm, hs, hms⟩ := ht
  unfold TickData.packedTime
  omega

namespace SpecialConfig

variable (cfg : SpecialConfig)

/-- The two outcomes of `combineTimestamp`. -/
theorem combineTimestamp_cases (t : TickData) :
    (t.ValidTime ∧ (strToInt64 (cfg.dayStr t) 8).isSome ∧
      cfg.combineTimestamp t = dateNum (cfg.dayStr t) * 1000000000 + t.packedTime) ∨
    (¬ (t.ValidTime ∧ (strToInt64 (cfg.dayStr t) 8).isSome) ∧ cfg.combineTimestamp t = -1) := by
  unfold combineTimestamp
  simp only
  split_ifs with hcolon hrange hmill
  · refine Or.inr ⟨fun h => ?_, rfl⟩
    rcases hcolon with hc | hc
    · exact hc h.1.colons.1
    · exact hc h.1.colons.2
  · refine Or.inr ⟨fun h => ?_, rfl⟩
    have h1 := h.1.hour
    have h2 := h.1.minute
    have h3 := h.1.second
    unfold TickData.hour at h1
    unfold TickData.minute at h2
    unfold TickData.second at h3
    omega
  · refine Or.inr ⟨fun h => ?_, rfl⟩
    have := h.1.mill
    omega
  · cases hday : strToInt64 (cfg.dayStr t) 8 with
    | none => exact Or.inr ⟨by simp, rfl⟩
    | some day =>
      refine Or.inl ⟨⟨?_, ?_, ?_, ?_, ?_⟩, rfl, ?_⟩
      · tauto
      · unfold TickData.hour
        omega
      · unfold TickData.minute
        omega
      · unfold TickData.second
        omega
      · omega
      · simp only [dateNum, hday, Option.getD_some, TickData.packedTime, TickData.hour,
          TickData.minute, TickData.second]
        ring

/-- A timestamp is valid exactly when the time of day is and the date has eight digits. -/
theorem combineTimestamp_nonneg_iff (t : TickData) :
    0 ≤ cfg.combineTimestamp t ↔ t.ValidTime ∧ (strToInt64 (cfg.dayStr t) 8).isSome := by
  rcases combineTimestamp_cases cfg t with ⟨ht, hd, h⟩ | ⟨hn, h⟩
  · have hday := dateNum_bounds (cfg.dayStr t)
    have htime := packedTime_bounds ht
    simp only [ht, hd, and_self, iff_true]
    omega
  · simp only [hn, iff_false]
    omega

/-- A valid timestamp is the date followed by the packed time. -/
theorem combineTimestamp_eq_packed {t : TickData} (h : 0 ≤ cfg.combineTimestamp t) :
    cfg.combineTimestamp t = dateNum (cfg.dayStr t) * 1000000000 + t.packedTime := by
  rcases combineTimestamp_cases cfg t with ⟨-, -, heq⟩ | ⟨-, heq⟩
  · exact heq
  · omega

/-- A valid timestamp is the packed value of its moment. -/
theorem combineTimestamp_eq_value {t : TickData} (h : 0 ≤ cfg.combineTimestamp t) :
    cfg.combineTimestamp t = MixedRadix.value packedRadices (moment (cfg.dayStr t) t) := by
  have ht := ((combineTimestamp_nonneg_iff cfg t).1 h).1
  rw [combineTimestamp_eq_packed cfg h, value_packed _ ht]

/-- **The packed difference never understates the real one**: of two ticks with the same date,
one is behind the other by at most the difference of the timestamps. -/
theorem timeOfDay_sub_le {t t' : TickData} (h : 0 ≤ cfg.combineTimestamp t)
    (h' : 0 ≤ cfg.combineTimestamp t') (hdate : dateNum (cfg.dayStr t) = dateNum (cfg.dayStr t')) :
    t.timeOfDay - t'.timeOfDay ≤ max 0 (cfg.combineTimestamp t - cfg.combineTimestamp t') := by
  have ht := ((combineTimestamp_nonneg_iff cfg t).1 h).1
  have ht' := ((combineTimestamp_nonneg_iff cfg t').1 h').1
  have hv := value_clock (cfg.dayStr t) ht
  have hv' := value_clock (cfg.dayStr t') ht'
  rcases le_or_gt (MixedRadix.value clockRadices (moment (cfg.dayStr t') t'))
    (MixedRadix.value clockRadices (moment (cfg.dayStr t) t)) with hle | hlt
  · have hwide := MixedRadix.value_sub_le_value_sub (moment_below (cfg.dayStr t) ht)
      (moment_below (cfg.dayStr t') ht') clockRadices_le_packedRadices hle
    rw [← combineTimestamp_eq_value cfg h, ← combineTimestamp_eq_value cfg h'] at hwide
    refine le_max_of_le_right ?_
    omega
  · refine le_max_of_le_left ?_
    omega

end SpecialConfig

/-! ### The grammar of timestamps -/

theorem twoDigits_nonneg {a b : Int8} (ha : isdigit a = true) (hb : isdigit b = true) :
    0 ≤ twoDigits a b := by
  unfold isdigit at ha hb
  unfold twoDigits
  simp only [decide_eq_true_eq] at ha hb
  omega

namespace TickData

/-- With digits in the time of day, the tests of the code are the grammar. -/
theorem inGrammar_iff (t : TickData) (day : CharArray 9) :
    t.InGrammar day ↔
      t.TimeDigits ∧ t.ValidTime ∧ ∀ c ∈ day.toList.take 8, isdigit c = true := by
  constructor
  · intro h
    obtain ⟨hh, hm, hs⟩ := h.digits
    exact ⟨h.digits,
      { colons := h.colons
        hour := ⟨twoDigits_nonneg hh.1 hh.2, h.hour⟩
        minute := ⟨twoDigits_nonneg hm.1 hm.2, h.minute⟩
        second := ⟨twoDigits_nonneg hs.1 hs.2, h.second⟩
        mill := h.mill }, h.day⟩
  · rintro ⟨hdigits, hvalid, hday⟩
    exact
      { colons := hvalid.colons, digits := hdigits, hour := hvalid.hour.2
        minute := hvalid.minute.2, second := hvalid.second.2, mill := hvalid.mill, day := hday }

end TickData

namespace UnitProcessor

/-- **The code accepts more than its grammar**: a timestamp is read exactly from the ticks of the
grammar, and the others are rejected without a trace, unless a tick passes the tests of the code
with a character in its time of day that is no digit. -/
theorem timestamp_grammar_iff (u : UnitProcessor) (tick : TickData) :
    (0 ≤ u.timestamp tick ↔ tick.InGrammar (u.mConfig.dayStr tick)) ∧
        (¬ tick.InGrammar (u.mConfig.dayStr tick) →
          u.timestamp tick = -1 ∧ (u.checkTimestampNew tick).1 = false ∧
            (u.checkTimestampNew tick).2.mLastTimestamp = u.mLastTimestamp) ↔
      tick.TimeDigits ∨
        ¬ (tick.ValidTime ∧
          ∀ c ∈ (u.mConfig.dayStr tick).toList.take 8, isdigit c = true) := by
  rw [tick.inGrammar_iff]
  rcases u.mConfig.combineTimestamp_cases tick with ⟨ht, hd, heq⟩ | ⟨hn, heq⟩
  · -- the tests are passed, so the digits of the time of day decide
    have hnn := (u.mConfig.combineTimestamp_nonneg_iff tick).2 ⟨ht, hd⟩
    have hpassed := And.intro ht (strToInt64_isSome_iff.1 hd)
    rw [and_iff_left hpassed, or_iff_left (not_not_intro hpassed), iff_true_left hnn]
    constructor
    · intro h
      exact h.1
    · intro h
      exact ⟨h, fun hno => absurd h hno⟩
  · have hts : u.timestamp tick = -1 := heq
    have hrej : (u.checkTimestampNew tick).1 = false := by
      rw [Bool.eq_false_iff, ne_eq, checkTimestampNew_fst, hts]
      simp
    have hlast := congrArg mLastTimestamp (checkTimestampNew_rejected u tick hrej)
    rw [strToInt64_isSome_iff] at hn
    simp [hn, hts, hrej, hlast]

/-- The benchmark's tick with a colon for the second digit of the hour. -/
def colonTick : TickData :=
  { createTestTickData with updateTime := strcpy 9 (chars "0::00:00") }

theorem colonTick_not_inGrammar (day : CharArray 9) : ¬ colonTick.InGrammar day := by
  intro h
  exact absurd h.digits.1.2 (by decide)

/-- The hour `0:` is read as 10. -/
theorem colon_hour_accepted :
    ¬ ∀ (u : UnitProcessor) (tick : TickData),
      (0 ≤ u.timestamp tick ↔ tick.InGrammar (u.mConfig.dayStr tick)) ∧
        (¬ tick.InGrammar (u.mConfig.dayStr tick) →
          u.timestamp tick = -1 ∧ (u.checkTimestampNew tick).1 = false ∧
            (u.checkTimestampNew tick).2.mLastTimestamp = u.mLastTimestamp) := by
  intro h
  have hgrammar := (h createTestUnitProcessor colonTick).1.1 (by decide)
  exact colonTick_not_inGrammar _ hgrammar

end UnitProcessor

end UltraMds
