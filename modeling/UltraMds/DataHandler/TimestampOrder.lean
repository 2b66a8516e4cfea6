import UltraMds.DataHandler.Timestamp

/-!
# The order of timestamps

Valid timestamps order ticks as their dates and times of day do, part by part, and are computed
without overflow (`timestamp_order_embedding`).
-/

namespace UltraMds

/-! ### The machine's arithmetic -/

/-- A character takes eight bits. -/
theorem int8_bounds (c : Int8) : -128 ≤ c.toInt ∧ c.toInt ≤ 127 := by
  have hlo := c.le_toInt
  have hhi := c.toInt_lt
  constructor <;> omega

theorem twoDigitsChecked_eq (a b : Int8) : twoDigitsChecked a b = some (twoDigits a b) := by
  have ha := int8_bounds a
  have hb := int8_bounds b
  unfold twoDigitsChecked twoDigits
  simp only [Option.bind_eq_bind]
  rw [Checked.sub_bind, Checked.mul_bind, Checked.sub_bind, Checked.add_eq_some]
  all_goals exact Checked.fits_32_iff.2 (by omega)

/-- Reading digits does not overflow while the digits to come leave room. -/
theorem digitLoopChecked_eq {out : ℤ} {s : List Int8} (hout : 0 ≤ out)
    (hroom : (out + 1) * 10 ^ s.length ≤ 9223372036854775807) :
    digitLoopChecked out s = some (digitLoop out s) := by
  induction s generalizing out with
  | nil => rfl
  | cons c s ih =>
    unfold digitLoopChecked digitLoop
    cases hc : isdigit c with
    | false => rfl
    | true =>
      have hdigit : 48 ≤ c.toInt ∧ c.toInt ≤ 57 := by simpa [isdigit] using hc
      have hpow : (1 : ℤ) ≤ 10 ^ s.length := one_le_pow₀ (by norm_num)
      rw [List.length_cons, pow_succ] at hroom
      have hten : (out + 1) * 10 ≤ 9223372036854775807 := by nlinarith
      simp only [Option.bind_eq_bind]
      show ((Checked.mul 64 out 10).bind _) = _
      rw [Checked.mul_bind (Checked.fits_64_iff.2 (by omega)),
        Checked.sub_bind (Checked.fits_32_iff.2 (by omega)),
        Checked.add_bind (Checked.fits_64_iff.2 (by omega))]
      exact ih (by omega) (by nlinarith)

theorem strToInt64Checked_eq (d : CharArray 9) :
    strToInt64Checked d 8 = some (strToInt64 d 8) := by
  have hlen : (d.toList.take 8).length = 8 := by simp
  refine digitLoopChecked_eq le_rfl ?_
  rw [hlen]
  norm_num

namespace SpecialConfig

/-- **No overflow**: in the arithmetic of the machine `combineTimestamp` has its exact value. -/
theorem combineTimestampChecked_eq (cfg : SpecialConfig) (tick : TickData) :
    cfg.combineTimestampChecked tick = some (cfg.combineTimestamp tick) := by
  unfold combineTimestampChecked combineTimestamp
  simp only [twoDigitsChecked_eq, strToInt64Checked_eq, Option.bind_eq_bind, Option.bind_some]
  split_ifs with hcolon hrange hmill
  · rfl
  · rfl
  · rfl
  · cases hday : strToInt64 (cfg.dayStr tick) 8 with
    | none => rfl
    | some dayNum =>
      have hbounds := strToInt64_bounds hday
      simp only
      rw [Checked.mul_bind, Checked.mul_bind, Checked.add_bind, Checked.mul_bind,
        Checked.add_bind, Checked.mul_bind, Checked.add_bind, Checked.add_eq_some]
      all_goals exact Checked.fits_64_iff.2 (by omega)

end SpecialConfig

/-! ### The date as a number -/

/-- The number that the decimal digits `s` denote. -/
def decimalValue (s : List Int8) : ℕ :=
  Nat.ofDigits 10 (s.reverse.map fun c => (c.toInt - 48).toNat)

theorem decimalValue_cons (c : Int8) (s : List Int8) :
    decimalValue (c :: s) = (c.toInt - 48).toNat * 10 ^ s.length + decimalValue s := by
  unfold decimalValue
  rw [List.reverse_cons, List.map_append, Nat.ofDigits_append, List.map_singleton,
    Nat.ofDigits_singleton, List.length_map, List.length_reverse]
  ring

/-- The digit loop puts the digits after the number so far. -/
theorem digitLoop_eq_decimalValue {s : List Int8} (h : ∀ c ∈ s, isdigit c = true) (out : ℤ) :
    digitLoop out s = some (out * 10 ^ s.length + decimalValue s) := by
  induction s generalizing out with
  | nil => simp [digitLoop, decimalValue]
  | cons c s ih =>
    obtain ⟨hc, hs⟩ := List.forall_mem_cons.1 h
    have hdigit : 48 ≤ c.toInt ∧ c.toInt ≤ 57 := by simpa [isdigit] using hc
    have hval : (((c.toInt - 48).toNat : ℕ) : ℤ) = c.toInt - 48 := by omega
    rw [digitLoop, hc, decimalValue_cons, List.length_cons]
    refine (ih hs _).trans (congrArg some ?_)
    push_cast
    rw [hval, pow_succ]
    ring

theorem strToInt64_eq_decimalValue {d : CharArray 9} (h : (strToInt64 d 8).isSome = true) :
    strToInt64 d 8 = some (decimalValue (d.toList.take 8) : ℤ) := by
  have hdigits := strToInt64_isSome_iff.1 h
  refine (digitLoop_eq_decimalValue hdigits 0).trans ?_
  rw [zero_mul, zero_add]

/-! ### The order -/

/-- The parts of a tick's timestamp with the given date: the number of the date, hour, minute,
second and millisecond. -/
def TickData.parts (t : TickData) (day : CharArray 9) : List ℤ :=
  [(decimalValue (day.toList.take 8) : ℤ), t.hour, t.minute, t.second, t.updatemill]

/-- The parts of a valid timestamp are the ones of its moment. -/
theorem TickData.parts_eq_map_moment {t : TickData} {day : CharArray 9} (ht : t.ValidTime)
    (hday : (strToInt64 day 8).isSome = true) :
    t.parts day = (moment day t).map ((↑) : ℕ → ℤ) := by
  have hdate : dateNum day = decimalValue (day.toList.take 8) := by
    rw [dateNum, strToInt64_eq_decimalValue hday, Option.getD_some]
  obtain ⟨-, hh, hm, hs, hms⟩ := ht
  unfold parts moment
  rw [hdate]
  simp only [List.map_cons, List.map_nil, Int.toNat_natCast, Int.toNat_of_nonneg hh.1,
    Int.toNat_of_nonneg hm.1, Int.toNat_of_nonneg hs.1, Int.toNat_of_nonneg hms.1]

/-- Lists of numbers are ordered in `ℤ` as in `ℕ`. -/
theorem strictMono_map_natCast : StrictMono (List.map ((↑) : ℕ → ℤ)) :=
  fun _ _ h => List.map_lt (fun _ _ => Int.ofNat_lt.2) h

namespace SpecialConfig

variable {cfg : SpecialConfig} {a b : TickData}

theorem combineTimestamp_lt_iff (ha : 0 ≤ cfg.combineTimestamp a)
    (hb : 0 ≤ cfg.combineTimestamp b) :
    cfg.combineTimestamp a < cfg.combineTimestamp b ↔
      a.parts (cfg.dayStr a) < b.parts (cfg.dayStr b) := by
  obtain ⟨hta, hda⟩ := (cfg.combineTimestamp_nonneg_iff a).1 ha
  obtain ⟨htb, hdb⟩ := (cfg.combineTimestamp_nonneg_iff b).1 hb
  rw [cfg.combineTimestamp_eq_value ha, cfg.combineTimestamp_eq_value hb, Int.ofNat_lt,
    MixedRadix.value_lt_iff (moment_below_packed _ hta) (moment_below_packed _ htb),
    TickData.parts_eq_map_moment hta hda, TickData.parts_eq_map_moment htb hdb,
    strictMono_map_natCast.lt_iff_lt]

theorem combineTimestamp_inj (ha : 0 ≤ cfg.combineTimestamp a)
    (hb : 0 ≤ cfg.combineTimestamp b) :
    cfg.combineTimestamp a = cfg.combineTimestamp b ↔
      a.parts (cfg.dayStr a) = b.parts (cfg.dayStr b) := by
  obtain ⟨hta, hda⟩ := (cfg.combineTimestamp_nonneg_iff a).1 ha
  obtain ⟨htb, hdb⟩ := (cfg.combineTimestamp_nonneg_iff b).1 hb
  rw [cfg.combineTimestamp_eq_value ha, cfg.combineTimestamp_eq_value hb, Int.ofNat_inj,
    MixedRadix.value_inj (moment_below_packed _ hta) (moment_below_packed _ htb),
    TickData.parts_eq_map_moment hta hda, TickData.parts_eq_map_moment htb hdb,
    strictMono_map_natCast.injective.eq_iff]

/-- The timestamp depends on the base only. -/
theorem combineTimestamp_congr {cfg cfg' : SpecialConfig}
    (h : cfg'.timestampBase = cfg.timestampBase) (t : TickData) :
    cfg'.combineTimestamp t = cfg.combineTimestamp t ∧ cfg'.dayStr t = cfg.dayStr t := by
  have hday : cfg'.dayStr t = cfg.dayStr t := by
    unfold dayStr
    rw [h]
  refine ⟨?_, hday⟩
  unfold combineTimestamp
  rw [hday]

/-- **The timestamp is an order embedding without overflow**: valid timestamps of one base compare
as the lists of their parts do, lexicographically; they are computed without overflow; and the
first part is the decimal value of the date. -/
theorem timestamp_order_embedding (cfg cfg' : SpecialConfig)
    (hbase : cfg'.timestampBase = cfg.timestampBase) (a b : TickData)
    (ha : 0 ≤ cfg.combineTimestamp a) (hb : 0 ≤ cfg'.combineTimestamp b) :
    (cfg.combineTimestamp a < cfg'.combineTimestamp b ↔
        a.parts (cfg.dayStr a) < b.parts (cfg'.dayStr b)) ∧
      (cfg.combineTimestamp a = cfg'.combineTimestamp b ↔
        a.parts (cfg.dayStr a) = b.parts (cfg'.dayStr b)) ∧
      (cfg.combineTimestampChecked a = some (cfg.combineTimestamp a) ∧
        cfg'.combineTimestampChecked b = some (cfg'.combineTimestamp b)) ∧
      strToInt64 (cfg.dayStr a) 8 = some (decimalValue ((cfg.dayStr a).toList.take 8) : ℤ) ∧
      strToInt64 (cfg'.dayStr b) 8 = some (decimalValue ((cfg'.dayStr b).toList.take 8) : ℤ) := by
  have hdates := And.intro
    (strToInt64_eq_decimalValue ((cfg.combineTimestamp_nonneg_iff a).1 ha).2)
    (strToInt64_eq_decimalValue ((cfg'.combineTimestamp_nonneg_iff b).1 hb).2)
  refine ⟨?_, ?_, ⟨cfg.combineTimestampChecked_eq a, cfg'.combineTimestampChecked_eq b⟩, hdates⟩
  all_goals
    obtain ⟨hts, hday⟩ := combineTimestamp_congr hbase b
    rw [hts] at hb ⊢
    rw [hday]
  · exact combineTimestamp_lt_iff ha hb
  · exact combineTimestamp_inj ha hb

open UnitProcessor in
/-- The benchmark's tick and the one a second before it. -/
theorem timestamp_order_embedding_sample :
    (createTestUnitProcessor.mConfig.combineTimestamp earlierTick <
        createTestUnitProcessor.mConfig.combineTimestamp createTestTickData ↔
      earlierTick.parts (createTestUnitProcessor.mConfig.dayStr earlierTick) <
        createTestTickData.parts (createTestUnitProcessor.mConfig.dayStr createTestTickData)) ∧
      createTestUnitProcessor.mConfig.combineTimestampChecked earlierTick =
        some (createTestUnitProcessor.mConfig.combineTimestamp earlierTick) := by
  have h := timestamp_order_embedding createTestUnitProcessor.mConfig
    createTestUnitProcessor.mConfig rfl earlierTick createTestTickData (by decide)
    (by decide)
  exact ⟨h.1, h.2.2.1.1⟩

end SpecialConfig

end UltraMds
