import UltraMds.DataHandler.Validate
import UltraMds.Library.FilterLine
import UltraMds.Pipeline.Invariant

/-!
# The pipeline refines one sequential validator per contract

For each contract the pipeline is a filter behind a waiting line (`System.line`): its ticks wait
in the queue, are decided by its validator, and those in hand are sent.  Every step of the
pipeline is an action of the line or leaves the line alone (`line_step`), so the lines inherit
what holds of every line, whatever the interleaving.

`pipeline_refines_sequential` puts this together: what is sent for a contract is what one fresh
validator accepts, run over the enqueued ticks that have been dealt with.
-/

namespace UltraMds

open StreamFilter FilterLine

/-- The tick is one of the contract `c`. -/
def ofContract (c : String) (t : TickData) : Bool := cText t.instrumentID = chars c

theorem Layout.BelongsTo.ofContract_eq {L : Layout} {t : TickData} {c : String}
    (h : L.BelongsTo t c) (c' : String) : ofContract c' t = decide (c = c') := by
  unfold ofContract
  rw [← h.name]
  exact decide_eq_decide.2 chars_inj

/-- The ticks of a queue that are not decided, for the loop at `pc`. -/
def undecided : Option LoopPc → List TickData → List TickData
  | some .send, items => items.tail
  | some .pop, items => items.tail
  | _, items => items

/-- The accepted tick that the loop is about to send. -/
def inHand : Option LoopPc → List TickData → Option TickData
  | some .send, items => items.head?
  | _, _ => none

/-- The pipeline as the contract `c` sees it. -/
def System.line (L : Layout) (s : System) (c : String) : Line UnitProcessor TickData where
  arrived := s.enqueued.filter (ofContract c)
  waiting := (undecided (s.handlers (L.queueOf c)).myWorkerThreadTick
    (s.queues (L.queueOf c)).items).filter (ofContract c)
  inHand := (inHand (s.handlers (L.queueOf c)).myWorkerThreadTick
    (s.queues (L.queueOf c)).items).filter (ofContract c)
  state := s.processors (L.detectorOf c)
  delivered := (s.sent.map SendAttempt.tick).filter (ofContract c)

namespace Wf

variable {L : Layout} {s : System}

/-! ### A handler's step on the lines -/

/-- Going on from one point before the decision to another leaves every line alone. -/
theorem line_goto {k : ℕ} {pc pc' : LoopPc} (hpc : (s.handlers k).myWorkerThreadTick = some pc)
    (hitems : ∀ items, undecided (some pc') items = undecided (some pc) items)
    (hhand : ∀ items, inHand (some pc') items = inHand (some pc) items) (c : String) :
    (s.goto k pc').line L c = s.line L c := by
  unfold System.line
  rw [System.goto_worker]
  split_ifs with hk
  · rw [hk, hpc, hitems, hhand]
    rfl
  · rfl

/-- The decision on a tick is an action of the line of its contract. -/
theorem line_handle {k : ℕ} (hpc : (s.handlers k).myWorkerThreadTick = some .handle)
    {tick : TickData} {rest : List TickData} (hitems : (s.queues k).items = tick :: rest)
    {c : String} (hc : L.BelongsTo tick c) (hk : L.queueOf c = k) {d : String}
    (hd : d ∈ L.contractList) :
    System.line L
        { s.goto k (if ((s.processors (L.detectorOf c)).validate tick).1 then .send else .pop) with
          processors := Function.update s.processors (L.detectorOf c)
            ((s.processors (L.detectorOf c)).validate tick).2 } d =
      if d = c then (s.line L d).act UnitProcessor.validate .decide else s.line L d := by
  generalize hv : (s.processors (L.detectorOf c)).validate tick = v
  obtain ⟨ok, u⟩ := v
  have hof := hc.ofContract_eq d
  unfold System.line
  rw [System.goto_worker]
  by_cases hdc : d = c
  · subst hdc
    rw [if_pos hk, if_pos rfl, hk, hpc, hitems]
    cases ok <;>
      simp [Line.act, undecided, inHand, hof, hv, hitems, Option.filter]
  · -- another contract has another validator, and the tick is none of its ticks
    have hcd : ¬ c = d := fun h => hdc h.symm
    have hne : L.detectorOf d ≠ L.detectorOf c := fun h => hdc (L.detectorOf_inj hd h)
    rw [if_neg hdc]
    by_cases hq : L.queueOf d = k
    · rw [if_pos hq, hq, hpc, hitems]
      cases ok <;>
        simp [undecided, inHand, hof, hcd, Function.update_of_ne hne, hitems,
          Option.filter]
    · rw [if_neg hq]
      simp [Function.update_of_ne hne]

/-- Sending a tick is an action of the line of its contract. -/
theorem line_send {k : ℕ} (hpc : (s.handlers k).myWorkerThreadTick = some .send)
    {tick : TickData} {rest : List TickData} (hitems : (s.queues k).items = tick :: rest)
    {c : String} (hc : L.BelongsTo tick c) (hk : L.queueOf c = k) (u : UnitProcessor) (d : String) :
    System.line L { s.goto k .pop with sent := s.sent ++ [sendMessage u tick] } d =
      if d = c then (s.line L d).act UnitProcessor.validate .deliver else s.line L d := by
  have hof := hc.ofContract_eq d
  unfold System.line
  rw [System.goto_worker]
  by_cases hdc : d = c
  · subst hdc
    rw [if_pos hk, if_pos rfl, hk, hpc]
    simp [Line.act, undecided, inHand, hof, hitems, Option.filter, sendMessage]
  · have hcd : ¬ c = d := fun h => hdc h.symm
    rw [if_neg hdc]
    by_cases hq : L.queueOf d = k
    · rw [if_pos hq, hq, hpc]
      simp [undecided, inHand, hof, hcd, hitems, Option.filter, sendMessage]
    · rw [if_neg hq]
      simp [hof, hcd, sendMessage]

/-- Removing the tick that has been dealt with leaves every line alone. -/
theorem line_pop {k : ℕ} (hpc : (s.handlers k).myWorkerThreadTick = some .pop) (c : String) :
    System.line L { s.goto k .test with queues := Function.update s.queues k (s.queues k).pop } c =
      s.line L c := by
  unfold System.line
  rw [System.goto_worker]
  split_ifs with hq
  · rw [hq, hpc]
    simp [undecided, inHand]
  · simp [Function.update_of_ne hq]

/-! ### A dispatch step on the lines -/

theorem undecided_append {pc : Option LoopPc} {items : List TickData}
    (hbusy : ∀ pc', pc = some pc' → pc'.busy = true → items ≠ []) (t : TickData) :
    undecided pc (items ++ [t]) = undecided pc items ++ [t] := by
  unfold undecided
  split
  · exact List.tail_append_of_ne_nil (hbusy _ rfl rfl)
  · exact List.tail_append_of_ne_nil (hbusy _ rfl rfl)
  · rfl

theorem inHand_append {pc : Option LoopPc} {items : List TickData}
    (hbusy : ∀ pc', pc = some pc' → pc'.busy = true → items ≠ []) (t : TickData) :
    inHand pc (items ++ [t]) = inHand pc items := by
  unfold inHand
  split
  · exact List.head?_append_of_ne_nil _ (hbusy _ rfl rfl)
  · rfl

/-- A packet that is enqueued arrives at the line of its contract, and every other packet leaves
the lines alone. -/
theorem line_dispatch (h : Wf L s) (data : CThostFtdcDepthMarketDataField) (now : ℤ)
    (d : String) : ∃ bs, (s.dispatchStep data now).line L d =
      Run.run (Line.act UnitProcessor.validate) (s.line L d) bs := by
  rcases h.dispatchStep data now with ⟨hstored, hq, -⟩ | ⟨c, hc, hname, -, hstored, q, hq, hitems⟩
  · refine ⟨[], ?_⟩
    unfold System.line
    rw [hq]
    simp [System.dispatchStep, hstored]
  · have hbelongs : L.BelongsTo (TickData.construct data (some (L.detectorOf c)) now) c :=
      ⟨hc, hname, rfl⟩
    have hof := hbelongs.ofContract_eq d
    generalize TickData.construct data (some (L.detectorOf c)) now = t at hstored hitems hof
    have henqueued : (s.dispatchStep data now).enqueued = s.enqueued ++ [t] := by
      simp [System.dispatchStep, hstored]
    have hbusy := h.busy (L.queueOf d)
    by_cases hdc : d = c
    · subst hdc
      refine ⟨[.arrive t], ?_⟩
      unfold System.line
      rw [hq, henqueued, Function.update_self, hitems]
      rw [System.dispatchStep_handlers, undecided_append hbusy, inHand_append hbusy]
      simp [Line.act, hof]
    · have hcd : ¬ c = d := fun h => hdc h.symm
      refine ⟨[], ?_⟩
      unfold System.line
      rw [hq, henqueued]
      by_cases hk : L.queueOf d = L.queueOf c
      · rw [hk, Function.update_self, hitems, ← hk]
        rw [System.dispatchStep_handlers, undecided_append hbusy, inHand_append hbusy]
        simp [hof, hcd]
      · rw [Function.update_of_ne hk]
        simp [hof, hcd]

/-! ### Runs -/

/-- **Every step of the pipeline is a step of every line**, possibly an empty one. -/
theorem line_step (h : Wf L s) (a : Action) {d : String} (hd : d ∈ L.contractList) :
    ∃ bs, (s.step a).line L d = Run.run (Line.act UnitProcessor.validate) (s.line L d) bs := by
  cases a with
  | dispatch data now => exact h.line_dispatch data now d
  | handler k =>
    have hstep := h.handlerStep k
    show ∃ bs, (s.handlerStep k).line L d = _
    generalize s.handlerStep k = s' at hstep
    cases hstep with
    | stay => exact ⟨[], rfl⟩
    | test hpc =>
      refine ⟨[], line_goto hpc (fun items => ?_) (fun items => ?_) d⟩ <;> split_ifs <;> rfl
    | poll hpc =>
      refine ⟨[], line_goto hpc (fun items => ?_) (fun items => ?_) d⟩ <;> split_ifs <;> rfl
    | front hpc =>
      refine ⟨[], line_goto hpc (fun items => ?_) (fun items => ?_) d⟩ <;> rfl
    | handle hpc hitems hc hk =>
      rw [line_handle hpc hitems hc hk hd]
      split_ifs
      · exact ⟨[.decide], rfl⟩
      · exact ⟨[], rfl⟩
    | send hpc hitems hc hk =>
      rw [line_send hpc hitems hc hk]
      split_ifs
      · exact ⟨[.deliver], rfl⟩
      · exact ⟨[], rfl⟩
    | pop hpc hitems => exact ⟨[], line_pop hpc d⟩

end Wf

theorem line_init (L : Layout) {c : String} (hc : c ∈ L.contractList) :
    L.init.line L c = Line.init (UnitProcessor.fresh c (L.config c)) := by
  unfold System.line
  rw [L.init_items, L.init_worker, L.init_processors hc]
  split_ifs <;> rfl

/-- **The pipeline refines the lines**: after every run, each line is one that has run. -/
theorem line_run (L : Layout) (as : List Action) {c : String} (hc : c ∈ L.contractList) :
    ∃ bs, (L.init.run as).line L c =
      Run.run (Line.act UnitProcessor.validate)
        (Line.init (UnitProcessor.fresh c (L.config c))) bs := by
  have hinv : Wf L (L.init.run as) ∧ ∃ bs, (L.init.run as).line L c =
      Run.run (Line.act UnitProcessor.validate)
        (Line.init (UnitProcessor.fresh c (L.config c))) bs := by
    refine Run.invariant (I := fun s => Wf L s ∧ ∃ bs, s.line L c =
      Run.run (Line.act UnitProcessor.validate)
        (Line.init (UnitProcessor.fresh c (L.config c))) bs) ?_ ⟨Wf.init L, [], line_init L hc⟩ as
    rintro s a ⟨hwf, bs, hbs⟩
    obtain ⟨bs', hbs'⟩ := hwf.line_step a hc
    refine ⟨hwf.step a, bs ++ bs', ?_⟩
    rw [Run.run_append, ← hbs, hbs']
  exact hinv.2

/-! ### What is sent -/

/-- A send reads the rules of the tick's validator and nothing else of it. -/
theorem sendMessage_eq {u v : UnitProcessor} (h : u.mConfig = v.mConfig) (t : TickData) :
    sendMessage u t = sendMessage v t := by
  unfold sendMessage UnitProcessor.getMulticastEndpoint
  rw [h]

/-- What one fresh validator of the contract `c`, run sequentially, sends for the ticks. -/
def forwarded (c : String) (config : SpecialConfig) (ticks : List TickData) : List SendAttempt :=
  (accepted UnitProcessor.validate (UnitProcessor.fresh c config) ticks).map
    (sendMessage (UnitProcessor.fresh c config))

namespace System

variable (s : System) (c : String)

/-- The arrivals, the enqueued ticks and the sends of the contract `c`, in order. -/
def arrivalsOf : List Arrival := s.arrivals.filter fun a => cText a.data.instrumentID = chars c
def enqueuedOf : List TickData := s.enqueued.filter (ofContract c)
def sentOf : List SendAttempt := s.sent.filter fun a => ofContract c a.tick

/-- The ticks in queue `k` that are not dealt with: all of them, but for the one that waits for
its removal. -/
def unfinished (k : ℕ) : List TickData :=
  if (s.handlers k).myWorkerThreadTick = some .pop then (s.queues k).items.tail
  else (s.queues k).items

/-- The ticks of the contract `c` that are not dealt with. -/
def unfinishedOf (L : Layout) : List TickData := (s.unfinished (L.queueOf c)).filter (ofContract c)

end System

/-- The tick that a packet of the contract `c` becomes. -/
def Layout.tickOf (L : Layout) (c : String) (a : Arrival) : TickData :=
  TickData.construct a.data (some (L.detectorOf c)) a.now

/-- What is pending in a line is what the queue holds for it. -/
theorem line_pending (L : Layout) (s : System) (c : String) :
    (s.line L c).pending = s.unfinishedOf c L := by
  unfold Line.pending System.line System.unfinishedOf System.unfinished
  rcases (s.handlers (L.queueOf c)).myWorkerThreadTick with _ | pc
  · rfl
  · cases pc with
    | send =>
      -- the tick in hand is the first one in the queue
      cases hitems : (s.queues (L.queueOf c)).items with
      | nil => rfl
      | cons t rest => cases ht : ofContract c t <;> simp [inHand, undecided, ht, Option.filter]
    | _ => rfl

/-- The validators keep their rules, every send is one that the rules of its contract ask for,
and the enqueued ticks are those of the packets that met room in their queue. -/
structure Logged (L : Layout) (s : System) : Prop extends Wf L s where
  rules : ∀ c ∈ L.contractList, (s.processors (L.detectorOf c)).mConfig = L.config c
  sent : ∀ a ∈ s.sent, ∃ c, L.BelongsTo a.tick c ∧
    a = sendMessage (UnitProcessor.fresh c (L.config c)) a.tick
  enqueued : ∀ c ∈ L.contractList,
    s.enqueuedOf c = ((s.arrivalsOf c).filter (!·.queueFull)).map (L.tickOf c)

namespace Logged

variable {L : Layout} {s : System}

theorem init (L : Layout) : Logged L L.init where
  toWf := Wf.init L
  rules c hc := by
    rw [L.init_processors hc]
    rfl
  sent a ha := by cases ha
  enqueued c _ := rfl

theorem dispatchStep (h : Logged L s) (data : CThostFtdcDepthMarketDataField) (now : ℤ) :
    Logged L (s.dispatchStep data now) where
  toWf := h.dispatchStep_wf data now
  rules := h.rules
  sent := h.sent
  enqueued d hd := by
    have henq := h.enqueued d hd
    unfold System.enqueuedOf System.arrivalsOf at henq ⊢
    show List.filter _ (s.enqueued ++ _) = ((List.filter _ (s.arrivals ++ _)).filter _).map _
    rw [List.filter_append, List.filter_append, List.filter_append, List.map_append, henq]
    congr 1
    rcases h.toWf.dispatchStep data now with ⟨hstored, -, hfull⟩ | ⟨c, hc, hname, hfull, hstored, -⟩
    · -- a packet of the contract has met a full queue
      rw [hstored]
      by_cases hname : chars d = cText data.instrumentID
      · simp [hname, hfull d hd hname]
      · simp [Ne.symm hname]
    · have hbelongs : L.BelongsTo (TickData.construct data (some (L.detectorOf c)) now) c :=
        ⟨hc, hname, rfl⟩
      have hof := hbelongs.ofContract_eq d
      rw [hstored]
      by_cases hcd : c = d
      · subst hcd
        simp [hof, ← hname, hfull, Layout.tickOf]
      · have hne : ¬ cText data.instrumentID = chars d := by
          rw [← hname, chars_inj]
          exact hcd
        simp [hof, hcd, hne]

theorem handlerStep (h : Logged L s) (k : ℕ) : Logged L (s.handlerStep k) := by
  have hwf := h.toWf.handlerStep_wf k
  have hstep := h.toWf.handlerStep k
  generalize s.handlerStep k = s' at hwf hstep
  cases hstep with
  | stay => exact h
  | test => exact ⟨hwf, h.rules, h.sent, h.enqueued⟩
  | poll => exact ⟨hwf, h.rules, h.sent, h.enqueued⟩
  | front => exact ⟨hwf, h.rules, h.sent, h.enqueued⟩
  | @handle hpc tick rest hitems c hc hk =>
    refine ⟨hwf, fun d hd => ?_, h.sent, h.enqueued⟩
    show (Function.update s.processors _ _ (L.detectorOf d)).mConfig = _
    by_cases heq : L.detectorOf d = L.detectorOf c
    · rw [heq, Function.update_self, UnitProcessor.validate_mConfig, ← heq]
      exact h.rules d hd
    · rw [Function.update_of_ne heq]
      exact h.rules d hd
  | send hpc hitems hc hk =>
    refine ⟨hwf, h.rules, fun a ha => ?_, h.enqueued⟩
    rcases List.mem_append.1 ha with ha | ha
    · exact h.sent a ha
    · rw [List.mem_singleton.1 ha]
      exact ⟨_, hc, sendMessage_eq (h.rules _ hc.mem) _⟩
  | pop => exact ⟨hwf, h.rules, h.sent, h.enqueued⟩

end Logged

theorem logged_run (L : Layout) (as : List Action) : Logged L (L.init.run as) := by
  refine Run.invariant (fun s a h => ?_) (Logged.init L) as
  cases a with
  | dispatch data now => exact h.dispatchStep data now
  | handler k => exact h.handlerStep k

/-- A packet of the feed with the time of its arrival. -/
def Action.packet? : Action → Option (CThostFtdcDepthMarketDataField × ℤ)
  | .dispatch data now => some (data, now)
  | .handler _ => none

/-- The log of the arrivals has the packets of the run, in order. -/
theorem arrivals_run (L : Layout) (as : List Action) :
    (L.init.run as).arrivals.map (fun a => (a.data, a.now)) = as.filterMap Action.packet? := by
  induction as using List.reverseRecOn with
  | nil => rfl
  | append_singleton as a ih =>
    have hwf := wf_run L as
    rw [System.run, Run.run_concat, List.filterMap_append, ← ih]
    cases a with
    | dispatch data now => exact List.map_append
    | handler k =>
      show ((L.init.run as).handlerStep k).arrivals.map _ = _ ++ []
      rw [List.append_nil]
      have hstep := hwf.handlerStep k
      generalize (L.init.run as).handlerStep k = s' at hstep
      cases hstep <;> rfl

/-! ### Equal streams are sent alike -/

/-- The quote in a tick: all of it but the pointer and the time that the dispatcher adds. -/
def TickData.quote (t : TickData) : TickData := { t with mDetector := none, localReceiveTime := 0 }

/-- What leaves the machine for a send. -/
def SendAttempt.datagram (a : SendAttempt) : TickDataMes × Endpoint := (a.mes, a.endpoint)

theorem validate_quote (u : UnitProcessor) (t : TickData) : u.validate t.quote = u.validate t := rfl

theorem datagram_quote (u : UnitProcessor) (t : TickData) :
    (sendMessage u t.quote).datagram = (sendMessage u t).datagram := rfl

/-- The datagrams for a stream depend on the quotes in it only. -/
theorem datagrams_congr (c : String) (config : SpecialConfig) {ts ts' : List TickData}
    (h : ts.map TickData.quote = ts'.map TickData.quote) :
    (forwarded c config ts).map SendAttempt.datagram =
      (forwarded c config ts').map SendAttempt.datagram := by
  have key : ∀ ts : List TickData, (forwarded c config ts).map SendAttempt.datagram =
      (accepted UnitProcessor.validate (UnitProcessor.fresh c config)
        (ts.map TickData.quote)).map fun t =>
          (sendMessage (UnitProcessor.fresh c config) t).datagram := by
    intro ts
    rw [forwarded, accepted_map UnitProcessor.validate validate_quote, List.map_map, List.map_map]
    exact List.map_congr_left fun t _ => (datagram_quote _ t).symm
  rw [key, key, h]

theorem forwarded_append (c : String) (config : SpecialConfig) (ts us : List TickData) :
    forwarded c config ts <+: forwarded c config (ts ++ us) := by
  unfold forwarded
  rw [accepted_append, List.map_append]
  exact List.prefix_append _ _

/-! ### The refinement -/

/-- What has been sent for a contract, and what is left to do for it. -/
theorem sentOf_run (L : Layout) (as : List Action) {c : String} (hc : c ∈ L.contractList) :
    ∃ done, (L.init.run as).enqueuedOf c = done ++ (L.init.run as).unfinishedOf c L ∧
      (L.init.run as).sentOf c = forwarded c (L.config c) done := by
  obtain ⟨bs, hbs⟩ := line_run L as hc
  obtain ⟨done, hok⟩ : ∃ done, Line.Ok UnitProcessor.validate
      (UnitProcessor.fresh c (L.config c)) ((L.init.run as).line L c) done := by
    rw [hbs]
    exact Line.ok_run bs
  refine ⟨done, ?_, ?_⟩
  · rw [← line_pending]
    exact hok.arrived
  · -- the sends are those of the delivered ticks, with the rules of the contract
    have hlog := logged_run L as
    have hdelivered : ((L.init.run as).sentOf c).map SendAttempt.tick =
        accepted UnitProcessor.validate (UnitProcessor.fresh c (L.config c)) done := by
      rw [← hok.delivered]
      show List.map _ (List.filter _ _) = List.filter _ (List.map _ _)
      rw [List.filter_map]
      rfl
    rw [forwarded, ← hdelivered, List.map_map]
    refine (List.map_id _).symm.trans (List.map_congr_left fun a ha => ?_)
    obtain ⟨hmem, hof⟩ := List.mem_filter.1 ha
    obtain ⟨c', hbelongs, ha'⟩ := hlog.sent a hmem
    have heq : c' = c := by simpa [hbelongs.ofContract_eq c] using hof
    rw [heq] at ha'
    exact ha'

/-- **The pipeline refines one sequential validator per contract.**  In every reachable state and
for every contract of the list:

* what was sent is what a fresh validator accepts, run over the enqueued ticks of the contract
  but for the last ones, which are still in its queue;
* the enqueued ticks are those of the packets of the run that did not meet a full queue;
* in any other run, of any other pipeline with the same rules for the contract, that enqueued the
  same quotes, the same datagrams are sent in the same order, as far as the two runs have come. -/
theorem pipeline_refines_sequential (L : Layout) (as : List Action) (c : String)
    (hc : c ∈ L.contractList) :
    (∃ done, (L.init.run as).enqueuedOf c = done ++ (L.init.run as).unfinishedOf c L ∧
      (L.init.run as).sentOf c = forwarded c (L.config c) done) ∧
    ((L.init.run as).enqueuedOf c =
      (((L.init.run as).arrivalsOf c).filter (!·.queueFull)).map (L.tickOf c) ∧
      (L.init.run as).arrivals.map (fun a => (a.data, a.now)) = as.filterMap Action.packet?) ∧
    ∀ (L' : Layout) (as' : List Action), c ∈ L'.contractList → L'.config c = L.config c →
      ((L.init.run as).enqueuedOf c).map TickData.quote =
        ((L'.init.run as').enqueuedOf c).map TickData.quote →
      let sent := ((L.init.run as).sentOf c).map SendAttempt.datagram
      let sent' := ((L'.init.run as').sentOf c).map SendAttempt.datagram
      (sent <+: sent' ∨ sent' <+: sent) ∧
        ((L.init.run as).unfinishedOf c L = [] → (L'.init.run as').unfinishedOf c L' = [] →
          sent = sent') := by
  refine ⟨sentOf_run L as hc, ⟨(logged_run L as).enqueued c hc, arrivals_run L as⟩, ?_⟩
  intro L' as' hc' hconfig hquotes sent sent'
  obtain ⟨done, henq, hsent⟩ := sentOf_run L as hc
  obtain ⟨done', henq', hsent'⟩ := sentOf_run L' as' hc'
  rw [hconfig] at hsent'
  -- both runs send a beginning of what the whole stream asks for
  have hall := datagrams_congr c (L.config c) hquotes
  have hpre : sent <+: (forwarded c (L.config c) ((L.init.run as).enqueuedOf c)).map
      SendAttempt.datagram := by
    show List.map _ _ <+: _
    rw [hsent, henq]
    exact (forwarded_append c (L.config c) done _).map _
  have hpre' : sent' <+: (forwarded c (L.config c) ((L'.init.run as').enqueuedOf c)).map
      SendAttempt.datagram := by
    show List.map _ _ <+: _
    rw [hsent', henq']
    exact (forwarded_append c (L.config c) done' _).map _
  have hcomparable := List.prefix_or_prefix_of_prefix hpre (hall ▸ hpre')
  refine ⟨hcomparable, fun hnil hnil' => ?_⟩
  rw [hnil, List.append_nil] at henq
  rw [hnil', List.append_nil] at henq'
  show List.map _ _ = List.map _ _
  rw [hsent, hsent', ← henq, ← henq', hall]

/-- Two contracts and one handler, with the benchmark's rules. -/
def sampleLayout : Layout where
  contractList := ["rb2410", "IF2603"]
  config _ := UnitProcessor.createTestUnitProcessor.mConfig
  threads := 1
  threads_pos := Nat.one_pos
  capacity _ := 8
  core _ := 0

/-- A packet of `rb2410` at another time. -/
def packetAt (time : String) : CThostFtdcDepthMarketDataField :=
  { samplePacket with updateTime := strcpy 9 (chars time) }

/-- The packets of both contracts, one of them late. -/
def samplePackets : List Action :=
  [.dispatch samplePacket 0, .dispatch (packetOf "IF2603") 1, .dispatch (packetAt "09:59:59") 2,
    .dispatch (packetAt "10:00:01") 3, .dispatch (packetAt "10:00:02") 4]

/-- The handler takes them as far as the send of the last but one. -/
def sampleRun : List Action := samplePackets ++ List.replicate 22 (.handler 0)

/-- The same pipeline with a handler for each contract. -/
def wideLayout : Layout := { sampleLayout with threads := 2, threads_pos := Nat.two_pos }

/-- The late packet is rejected, and the last one of `rb2410` waits; with two handlers the same is
sent. -/
theorem pipeline_refines_sequential_sample :
    ((∃ done, (sampleLayout.init.run sampleRun).enqueuedOf "rb2410" =
          done ++ (sampleLayout.init.run sampleRun).unfinishedOf "rb2410" sampleLayout ∧
        (sampleLayout.init.run sampleRun).sentOf "rb2410" =
          forwarded "rb2410" (sampleLayout.config "rb2410") done) ∧
      (((sampleLayout.init.run sampleRun).sentOf "rb2410").map SendAttempt.datagram <+:
          ((wideLayout.init.run (samplePackets ++ List.replicate 30 (.handler 0))).sentOf
            "rb2410").map SendAttempt.datagram ∨
        ((wideLayout.init.run (samplePackets ++ List.replicate 30 (.handler 0))).sentOf
            "rb2410").map SendAttempt.datagram <+:
          ((sampleLayout.init.run sampleRun).sentOf "rb2410").map SendAttempt.datagram)) ∧
    ((sampleLayout.init.run sampleRun).sentOf "rb2410").map (fun a => a.tick.updateTime) =
        [strcpy 9 (chars "10:00:00"), strcpy 9 (chars "10:00:01")] ∧
      ((sampleLayout.init.run sampleRun).sentOf "IF2603").length = 1 ∧
      ((sampleLayout.init.run sampleRun).unfinishedOf "rb2410" sampleLayout).length = 1 := by
  have h := pipeline_refines_sequential sampleLayout sampleRun "rb2410" (by decide)
  have hother := h.2.2 wideLayout (samplePackets ++ List.replicate 30 (.handler 0)) (by decide) rfl
    (by decide +kernel)
  exact ⟨⟨h.1, hother.1⟩, by decide +kernel, by decide +kernel, by decide +kernel⟩

end UltraMds
