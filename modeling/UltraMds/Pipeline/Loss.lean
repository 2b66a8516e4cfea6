import UltraMds.Library.OrderedFilter
import UltraMds.Pipeline.Refinement

/-!
# Lost and repeated ticks

A validator grows stricter with the newest timestamp and with nothing else (`strict_validate`).

* `pipeline_loss`: a full queue costs the tick that met it and no other one: what a validator
  that gets every packet would accept of the ticks that were not lost is sent, or on its way;
* `pipeline_sends_valid`: a second validator with the rules of the contract, fed with what the
  pipeline sends, accepts all of it;
* `reset_keeps_accepted`: after any calls, a reset or a restart loses no tick.
-/

namespace UltraMds

open StreamFilter

namespace UnitProcessor

/-- The same rules, and no newer timestamp. -/
structure NoNewer (u v : UnitProcessor) : Prop where
  mConfig : u.mConfig = v.mConfig
  last : u.mLastTimestamp ≤ v.mLastTimestamp

namespace NoNewer

variable {u v : UnitProcessor}

theorem timestamp_eq (h : NoNewer u v) (tick : TickData) : u.timestamp tick = v.timestamp tick := by
  rw [timestamp, timestamp, h.mConfig]

theorem validate (h : NoNewer u v) (tick : TickData) :
    NoNewer (u.validate tick).2 (v.validate tick).2 where
  mConfig := by
    rw [validate_mConfig, validate_mConfig]
    exact h.mConfig
  last := by
    have hlast := h.last
    rw [validate_last, validate_last, h.timestamp_eq, h.mConfig]
    split_ifs
    · exact max_le_max_right _ hlast
    · exact hlast

theorem verdict (h : NoNewer u v) (tick : TickData) (hv : (v.validate tick).1 = true) :
    (u.validate tick).1 = true := by
  rw [validate_fst, Bool.and_eq_true, Bool.and_eq_true] at hv ⊢
  rw [h.mConfig]
  obtain ⟨⟨hexchange, htimestamp⟩, hlater⟩ := hv
  refine ⟨⟨hexchange, ?_⟩, hlater⟩
  unfold timestampOk at htimestamp ⊢
  rw [h.mConfig]
  by_cases hcheck : v.mConfig.enableTimestampCheck = true
  · -- the older timestamp leaves more room
    rw [hcheck] at htimestamp
    obtain ⟨hnn, hle⟩ := (checkTimestampNew_fst v tick).1 htimestamp
    have hlast := h.last
    rw [hcheck]
    refine (checkTimestampNew_fst u tick).2 ?_
    rw [h.timestamp_eq, h.mConfig]
    omega
  · simp [hcheck]

end NoNewer

/-- **Only the newest timestamp makes a validator stricter.** -/
theorem strict_validate : Strict validate NoNewer where
  refl _ := ⟨rfl, le_rfl⟩
  trans h h' := ⟨h.mConfig.trans h'.mConfig, h.last.trans h'.last⟩
  grows u tick := ⟨(validate_mConfig u tick).symm, last_le_validate_last u tick⟩
  mono tick h := h.validate tick
  verdict tick h := h.verdict tick

theorem call_last_nonneg {u : UnitProcessor} (h : 0 ≤ u.mLastTimestamp) (c : Call) :
    0 ≤ (u.call c).mLastTimestamp := by
  cases c with
  | validate tick => exact h.trans (last_le_validate_last u tick)
  | reset => exact le_rfl

/-- **A restart loses no tick**: after any calls, a validator that is reset, or built anew with
the same rules, accepts every tick of a stream that the old one would have accepted. -/
theorem reset_keeps_accepted (name name' : String) (config : SpecialConfig) (cs : List Call)
    (ticks : List TickData) :
    (accepted validate ((fresh name config).calls cs) ticks).Sublist
        (accepted validate ((fresh name config).calls cs).reset ticks) ∧
      (accepted validate ((fresh name config).calls cs) ticks).Sublist
        (accepted validate (fresh name' config) ticks) := by
  have hnn : 0 ≤ ((fresh name config).calls cs).mLastTimestamp :=
    Run.invariant (I := fun u : UnitProcessor => 0 ≤ u.mLastTimestamp)
      (fun _ c hu => call_last_nonneg hu c) le_rfl cs
  have hcfg := calls_mConfig (fresh name config) cs
  have hreset : NoNewer ((fresh name config).calls cs).reset ((fresh name config).calls cs) :=
    ⟨rfl, hnn⟩
  have hfresh : NoNewer (fresh name' config) ((fresh name config).calls cs) := ⟨hcfg.symm, hnn⟩
  exact ⟨strict_validate.accepted_of_le hreset ticks, strict_validate.accepted_of_le hfresh ticks⟩

end UnitProcessor

/-! ### The pipeline -/

/-- The ticks that the packets of the contract `c` would have become, each with the mark whether it
met room in its queue. -/
def Layout.offered (L : Layout) (s : System) (c : String) : List (TickData × Bool) :=
  (s.arrivalsOf c).map fun a => (L.tickOf c a, !a.queueFull)

/-- Those that met room were enqueued. -/
theorem Logged.survivors_offered {L : Layout} {s : System} (h : Logged L s) {c : String}
    (hc : c ∈ L.contractList) : survivors (L.offered s c) = s.enqueuedOf c := by
  rw [h.enqueued c hc, survivors, Layout.offered, List.filter_map, List.map_map]
  rfl

/-- The ticks of what a validator forwards are those that it accepts. -/
theorem map_tick_forwarded (c : String) (config : SpecialConfig) (ticks : List TickData) :
    (forwarded c config ticks).map SendAttempt.tick =
      accepted UnitProcessor.validate (UnitProcessor.fresh c config) ticks := by
  rw [forwarded, List.map_map]
  exact List.map_id _

/-- **A full queue costs one tick**: run over all packets of a contract, the lost ones included, a
fresh validator accepts no tick that was enqueued and is not sent, or about to be dealt with. -/
theorem pipeline_loss (L : Layout) (as : List Action) (c : String) (hc : c ∈ L.contractList) :
    (survivors (accepted (marked UnitProcessor.validate) (UnitProcessor.fresh c (L.config c))
        (L.offered (L.init.run as) c))).Sublist
      (((L.init.run as).sentOf c).map SendAttempt.tick ++ (L.init.run as).unfinishedOf c L) := by
  obtain ⟨done, henq, hsent⟩ := sentOf_run L as hc
  have hloss := UnitProcessor.strict_validate.survivors_accepted
    (UnitProcessor.strict_validate.refl (UnitProcessor.fresh c (L.config c)))
    (L.offered (L.init.run as) c)
  rw [(logged_run L as).survivors_offered hc, henq, accepted_append] at hloss
  rw [hsent, map_tick_forwarded]
  exact hloss.trans ((List.Sublist.refl _).append (accepted_sublist _ _ _))

/-- Queues for one tick. -/
def narrowLayout : Layout := { sampleLayout with capacity := fun _ => 1 }

/-- The second packet finds the queue full, and the third one is older than it. -/
def lossyRun : List Action :=
  [.dispatch samplePacket 0, .dispatch (packetAt "10:00:02") 1] ++ List.replicate 6 (.handler 0) ++
    [.dispatch (packetAt "10:00:01") 2] ++ List.replicate 6 (.handler 0)

/-- The third packet is sent, which would have been late behind the second one. -/
theorem pipeline_loss_sample :
    (survivors (accepted (marked UnitProcessor.validate)
        (UnitProcessor.fresh "rb2410" (narrowLayout.config "rb2410"))
        (narrowLayout.offered (narrowLayout.init.run lossyRun) "rb2410"))).Sublist
      (((narrowLayout.init.run lossyRun).sentOf "rb2410").map SendAttempt.tick ++
        (narrowLayout.init.run lossyRun).unfinishedOf "rb2410" narrowLayout) ∧
    (narrowLayout.init.run lossyRun).arrivals.map (fun a => a.queueFull) = [false, true, false] ∧
      (survivors (accepted (marked UnitProcessor.validate)
        (UnitProcessor.fresh "rb2410" (narrowLayout.config "rb2410"))
        (narrowLayout.offered (narrowLayout.init.run lossyRun) "rb2410"))).map
          (fun t => t.updateTime) = [strcpy 9 (chars "10:00:00")] ∧
      ((narrowLayout.init.run lossyRun).sentOf "rb2410").map (fun a => a.tick.updateTime) =
        [strcpy 9 (chars "10:00:00"), strcpy 9 (chars "10:00:01")] :=
  ⟨pipeline_loss narrowLayout lossyRun "rb2410" (by decide), by decide +kernel, by decide +kernel,
    by decide +kernel⟩

/-- **What is sent is valid as a stream**: a fresh validator with the rules of the contract accepts
all of it. -/
theorem pipeline_sends_valid (L : Layout) (as : List Action) (c name : String)
    (hc : c ∈ L.contractList) :
    accepted UnitProcessor.validate (UnitProcessor.fresh name (L.config c))
        (((L.init.run as).sentOf c).map SendAttempt.tick) =
      ((L.init.run as).sentOf c).map SendAttempt.tick := by
  obtain ⟨done, -, hsent⟩ := sentOf_run L as hc
  have hle : UnitProcessor.NoNewer (UnitProcessor.fresh name (L.config c))
      (UnitProcessor.fresh c (L.config c)) := ⟨rfl, le_rfl⟩
  rw [hsent, map_tick_forwarded]
  exact UnitProcessor.strict_validate.accepted_accepted hle done

/-- Two ticks of `rb2410` and one of `IF2603` are sent, and a late one is not. -/
theorem pipeline_sends_valid_sample :
    (accepted UnitProcessor.validate
          (UnitProcessor.fresh "standby" (sampleLayout.config "rb2410"))
          (((sampleLayout.init.run sampleRun).sentOf "rb2410").map SendAttempt.tick) =
        ((sampleLayout.init.run sampleRun).sentOf "rb2410").map SendAttempt.tick ∧
      accepted UnitProcessor.validate
          (UnitProcessor.fresh "standby" (sampleLayout.config "IF2603"))
          (((sampleLayout.init.run sampleRun).sentOf "IF2603").map SendAttempt.tick) =
        ((sampleLayout.init.run sampleRun).sentOf "IF2603").map SendAttempt.tick) ∧
    (sampleLayout.init.run sampleRun).sent.length = 3 ∧
      (sampleLayout.init.run sampleRun).enqueued.length = 5 :=
  ⟨⟨pipeline_sends_valid sampleLayout sampleRun "rb2410" "standby" (by decide),
      pipeline_sends_valid sampleLayout sampleRun "IF2603" "standby" (by decide)⟩,
    by decide +kernel, by decide +kernel⟩

end UltraMds
