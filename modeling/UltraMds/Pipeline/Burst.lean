import UltraMds.Library.Tally
import UltraMds.Pipeline.Invariant

/-!
# Bursts

While no handler pops, a queue takes packets until it is full and loses the rest (`Filled`).  So a
burst is taken in as a whole exactly when no queue gets more packets than it holds
(`noDrop_iff`), and the queues are large enough for a full burst of every contract exactly when
the contracts are dealt out evenly and the sizes fit into an `int` (`queue_sizing_iff`).
-/

namespace UltraMds

/-- The packet belongs to the contract `c`. -/
def ofContract? (c : String) (data : CThostFtdcDepthMarketDataField) : Bool :=
  chars c == cText data.instrumentID

/-- The contracts of the queue `q`. -/
def Layout.contractsOf (L : Layout) (q : ℕ) : List String :=
  L.contractList.filter fun c => L.queueOf c = q

/-- The packet belongs to a contract of the queue `q`. -/
def Layout.goesTo (L : Layout) (q : ℕ) (data : CThostFtdcDepthMarketDataField) : Bool :=
  (L.contractsOf q).any fun c => ofContract? c data

/-- The action brings a packet with the property `p`. -/
def Action.brings (p : CThostFtdcDepthMarketDataField → Bool) : Action → Bool
  | .dispatch data _ => p data
  | .handler _ => false

/-- The action pops no tick. -/
def System.NoPop (s : System) : Action → Prop
  | .dispatch _ _ => True
  | .handler k => (s.handlers k).myWorkerThreadTick ≠ some .pop

/-- The packets for the queue `q` that were lost. -/
def System.lost (s : System) (L : Layout) (q : ℕ) : ℕ :=
  s.arrivals.countP fun r => r.queueFull && L.goesTo q r.data

/-- The queue `q` after `n` packets for it: it holds as many as it can, the rest is lost. -/
structure Filled (L : Layout) (s : System) (q n : ℕ) : Prop where
  capacity : (s.queues q).capacity = (L.init.queues q).capacity
  items : (s.queues q).items.length = min n (L.init.queues q).capacity
  lost : s.lost L q = n - (L.init.queues q).capacity

theorem Layout.goesTo_iff {L : Layout} {q : ℕ} {data : CThostFtdcDepthMarketDataField} :
    L.goesTo q data = true ↔
      ∃ c ∈ L.contractList, chars c = cText data.instrumentID ∧ q = L.queueOf c := by
  simp only [goesTo, contractsOf, ofContract?, List.any_eq_true, List.mem_filter,
    decide_eq_true_eq, beq_iff_eq]
  constructor
  · rintro ⟨c, ⟨hc, hq⟩, hname⟩
    exact ⟨c, hc, hname, hq.symm⟩
  · rintro ⟨c, hc, hname, hq⟩
    exact ⟨c, ⟨hc, hq.symm⟩, hname⟩

section

variable {L : Layout} {s : System}

/-- A packet is routed to the queue that it goes to. -/
theorem Wf.goesTo_iff_route (h : Wf L s) {q : ℕ} {data : CThostFtdcDepthMarketDataField} :
    L.goesTo q data = true ↔ ∃ p, s.dispatcher.route data = some (q, p) := by
  rw [Layout.goesTo_iff]
  constructor
  · rintro ⟨c, hc, hname, hq⟩
    exact ⟨L.detectorOf c, h.route_iff.2 ⟨c, hc, hname, hq, rfl⟩⟩
  · rintro ⟨p, hroute⟩
    obtain ⟨c, hc, hname, hq, -⟩ := h.route_iff.1 hroute
    exact ⟨c, hc, hname, hq⟩

/-- The queue of a packet is asked to take it. -/
theorem Wf.dispatchStep_of_goesTo (h : Wf L s) {q : ℕ} {data : CThostFtdcDepthMarketDataField}
    (hgo : L.goesTo q data = true) (now : ℤ) :
    s.meetsFullQueue data = (s.queues q).isFull ∧
      ∃ tick, (s.dispatchStep data now).queues q = ((s.queues q).tryPush tick).2 := by
  obtain ⟨p, hroute⟩ := h.goesTo_iff_route.1 hgo
  refine ⟨?_, TickData.construct data (some p) now, ?_⟩
  · rw [System.meetsFullQueue, hroute]
    rfl
  · show s.dispatcher.dispatch s.queues data now q = _
    unfold Dispatcher.dispatch
    rw [hroute]
    exact Function.update_self _ _ _

/-- No other queue is touched. -/
theorem Wf.dispatchStep_of_not_goesTo (h : Wf L s) {q : ℕ}
    {data : CThostFtdcDepthMarketDataField} (hgo : L.goesTo q data = false) (now : ℤ) :
    (s.dispatchStep data now).queues q = s.queues q := by
  show s.dispatcher.dispatch s.queues data now q = s.queues q
  unfold Dispatcher.dispatch
  cases hroute : s.dispatcher.route data with
  | none => rfl
  | some target =>
    obtain ⟨q', p⟩ := target
    refine Function.update_of_ne ?_ _ _
    rintro rfl
    rw [h.goesTo_iff_route.2 ⟨p, hroute⟩] at hgo
    cases hgo

theorem lost_dispatchStep (s : System) (L : Layout) (q : ℕ)
    (data : CThostFtdcDepthMarketDataField) (now : ℤ) :
    (s.dispatchStep data now).lost L q =
      s.lost L q + if (s.meetsFullQueue data && L.goesTo q data) = true then 1 else 0 := by
  unfold System.lost
  show List.countP _ (s.arrivals ++ [_]) = _
  rw [List.countP_append, List.countP_singleton]

/-- A dispatch adds a packet to its queue and to no other. -/
theorem Filled.dispatchStep (hwf : Wf L s) {q n : ℕ} (h : Filled L s q n)
    (data : CThostFtdcDepthMarketDataField) (now : ℤ) :
    Filled L (s.dispatchStep data now) q (n + if L.goesTo q data = true then 1 else 0) := by
  have hlost := lost_dispatchStep s L q data now
  cases hgo : L.goesTo q data with
  | false =>
    have hqueue := hwf.dispatchStep_of_not_goesTo hgo now
    rw [hgo, Bool.and_false] at hlost
    exact
      { capacity := by rw [hqueue, h.capacity]
        items := by rw [hqueue]; exact h.items
        lost := hlost.trans h.lost }
  | true =>
    obtain ⟨hfull, tick, hqueue⟩ := hwf.dispatchStep_of_goesTo hgo now
    have hcap := h.capacity
    have hitems := h.items
    rw [hfull, hgo, Bool.and_true, if_congr (s.queues q).isFull_iff rfl rfl, h.lost] at hlost
    refine ⟨by rw [hqueue, BoundedFifo.tryPush_capacity, hcap], ?_, ?_⟩
    · rw [hqueue, BoundedFifo.length_tryPush, if_pos rfl]
      omega
    · rw [hlost, if_pos rfl]
      split_ifs <;> omega

/-- A handler that does not pop leaves the queues and the log of the arrivals alone. -/
theorem Wf.handlerStep_of_noPop (h : Wf L s) {k : ℕ} (hpop : s.NoPop (.handler k)) :
    (s.handlerStep k).queues = s.queues ∧ (s.handlerStep k).arrivals = s.arrivals := by
  have hstep := h.handlerStep k
  generalize s.handlerStep k = s' at hstep
  cases hstep with
  | pop hpc => exact absurd hpc hpop
  | stay => exact ⟨rfl, rfl⟩
  | test => exact ⟨rfl, rfl⟩
  | poll => exact ⟨rfl, rfl⟩
  | front => exact ⟨rfl, rfl⟩
  | handle => exact ⟨rfl, rfl⟩
  | send => exact ⟨rfl, rfl⟩

/-- A packet that met a full queue was routed to it. -/
def LostRouted (L : Layout) (s : System) : Prop :=
  ∀ r ∈ s.arrivals, r.queueFull = true → ∃ q, L.goesTo q r.data = true

theorem LostRouted.step (hwf : Wf L s) (h : LostRouted L s) (a : Action) (hpop : s.NoPop a) :
    LostRouted L (s.step a) := by
  cases a with
  | handler k =>
    intro r hr
    refine h r ?_
    rwa [← (hwf.handlerStep_of_noPop hpop).2]
  | dispatch data now =>
    intro r hr hfull
    rcases List.mem_append.1 hr with hr | hr
    · exact h r hr hfull
    · obtain rfl := List.mem_singleton.1 hr
      obtain ⟨⟨q, p⟩, hroute, -⟩ := (Option.any_eq_true _ _).1 hfull
      exact ⟨q, hwf.goesTo_iff_route.2 ⟨p, hroute⟩⟩

theorem Filled.step (hwf : Wf L s) {q n : ℕ} (h : Filled L s q n) (a : Action)
    (hpop : s.NoPop a) :
    Filled L (s.step a) q (n + if a.brings (L.goesTo q) = true then 1 else 0) := by
  cases a with
  | dispatch data now => exact h.dispatchStep hwf data now
  | handler k =>
    obtain ⟨hqueues, harrivals⟩ := hwf.handlerStep_of_noPop hpop
    exact
      { capacity := (congrArg (fun f => (f q).capacity) hqueues).trans h.capacity
        items := (congrArg (fun f => (f q).items.length) hqueues).trans h.items
        lost := (congrArg (List.countP _) harrivals).trans h.lost }

end

/-- **A run without pops fills the queues** with the packets that it brings. -/
theorem filled_run (L : Layout) {as : List Action}
    (has : Run.Along System.step System.NoPop L.init as) :
    LostRouted L (L.init.run as) ∧
      ∀ q, Filled L (L.init.run as) q (as.countP (Action.brings (L.goesTo q))) := by
  have key : ∀ (as : List Action) (s : System) (n : ℕ → ℕ), Wf L s → LostRouted L s →
      (∀ q, Filled L s q (n q)) → Run.Along System.step System.NoPop s as →
      LostRouted L (s.run as) ∧
        ∀ q, Filled L (s.run as) q (n q + as.countP (Action.brings (L.goesTo q))) := by
    intro as
    induction as with
    | nil =>
      intro s n _ hlost hfilled _
      exact ⟨hlost, hfilled⟩
    | cons a as ih =>
      intro s n hwf hlost hfilled has
      obtain ⟨hpop, has⟩ := has
      have htail := ih (s.step a) _ (hwf.step a) (hlost.step hwf a hpop)
        (fun q => (hfilled q).step hwf a hpop) has
      refine ⟨htail.1, fun q => ?_⟩
      have hq := htail.2 q
      rw [List.countP_cons, Nat.add_comm (List.countP _ as)]
      rwa [Nat.add_assoc] at hq
  have hinit : ∀ q, Filled L L.init q 0 := by
    intro q
    exact ⟨rfl, by rw [L.init_items, List.length_nil, Nat.zero_min], (Nat.zero_sub _).symm⟩
  have h := key as L.init (fun _ => 0) (Wf.init L) (by intro r hr; cases hr) hinit has
  simpa using h

/-- **When nothing is lost**: no queue gets more packets than it holds. -/
theorem noDrop_iff (L : Layout) {as : List Action}
    (has : Run.Along System.step System.NoPop L.init as) :
    (∀ r ∈ (L.init.run as).arrivals, r.queueFull = false) ↔
      ∀ q, as.countP (Action.brings (L.goesTo q)) ≤ (L.init.queues q).capacity := by
  obtain ⟨hrouted, hfilled⟩ := filled_run L has
  constructor
  · intro h q
    have hlost := (hfilled q).lost
    have hzero : (L.init.run as).lost L q = 0 := by
      rw [System.lost, List.countP_eq_zero]
      intro r hr
      simp [h r hr]
    omega
  · intro h r hr
    by_contra hfull
    have hfull' : r.queueFull = true := by simpa using hfull
    obtain ⟨q, hq⟩ := hrouted r hr hfull'
    have hpos : 0 < (L.init.run as).lost L q :=
      List.countP_pos_iff.2 ⟨r, hr, by rw [hfull', hq]; rfl⟩
    have hlost := (hfilled q).lost
    have hle := h q
    omega

/-! ### Bursts of all contracts -/

/-- At most `MAX_TICK_QUEUE_SIZE` packets of each contract come, and nothing is popped. -/
structure IsBurst (contractList : List String) (s : System) (as : List Action) : Prop where
  noPop : Run.Along System.step System.NoPop s as
  few : ∀ c ∈ contractList, as.countP (Action.brings (ofContract? c)) ≤ maxTickQueueSize

/-- No burst loses a packet. -/
def TakesBursts (contractList : List String) (s : System) : Prop :=
  ∀ as, IsBurst contractList s as → ∀ r ∈ (s.run as).arrivals, r.queueFull = false

/-- Every queue has room for the bursts of its contracts. -/
def Layout.Roomy (L : Layout) : Prop :=
  ∀ q, (L.contractsOf q).length * maxTickQueueSize ≤ (L.init.queues q).capacity

theorem brings_goesTo (L : Layout) (q : ℕ) :
    Action.brings (L.goesTo q) =
      fun a => (L.contractsOf q).any fun c => Action.brings (ofContract? c) a := by
  funext a
  cases a with
  | dispatch data now => rfl
  | handler k =>
    refine (List.any_eq_false.2 ?_).symm
    intro c _
    exact Bool.false_ne_true

/-- With room for each contract no burst loses a packet. -/
theorem Layout.Roomy.takesBursts {L : Layout} (h : L.Roomy) :
    TakesBursts L.contractList L.init := by
  intro as hburst
  rw [noDrop_iff L hburst.noPop]
  intro q
  rw [brings_goesTo]
  refine le_trans (Tally.countP_any_le _ fun c hc => ?_) (h q)
  exact hburst.few c (List.mem_of_mem_filter hc)

/-- A full burst of the contracts of the queue `q`. -/
def Layout.burst (L : Layout) (q : ℕ) : List Action :=
  Tally.copies maxTickQueueSize (fun c => .dispatch (packetOf c) 0) (L.contractsOf q)

section

variable {L : Layout} (hnodup : L.contractList.Nodup)
  (hnames : ∀ c ∈ L.contractList, (chars c).length ≤ 80 ∧ (0 : Int8) ∉ chars c)

include hnames in
theorem ofContract?_packetOf {c c' : String} (hc' : c' ∈ L.contractList) :
    ofContract? c (packetOf c') = true ↔ c = c' := by
  have htext : cText (packetOf c').instrumentID = chars c' :=
    cText_strcpy ((hnames c' hc').1.trans (by norm_num)) (hnames c' hc').2
  rw [ofContract?, htext, beq_iff_eq, chars_inj]

/-- Dispatches pop nothing. -/
theorem noPop_of_dispatch (s : System) {as : List Action}
    (h : ∀ a ∈ as, ∃ data now, a = .dispatch data now) :
    Run.Along System.step System.NoPop s as := by
  induction as generalizing s with
  | nil => trivial
  | cons a as ih =>
    obtain ⟨⟨data, now, rfl⟩, has⟩ := List.forall_mem_cons.1 h
    exact ⟨trivial, ih _ has⟩

include hnodup hnames in
theorem isBurst_burst (q : ℕ) : IsBurst L.contractList L.init (L.burst q) where
  noPop := by
    refine noPop_of_dispatch _ fun a ha => ?_
    obtain ⟨c, -, rfl⟩ := Tally.exists_of_mem_copies ha
    exact ⟨_, _, rfl⟩
  few c hc := by
    refine Tally.countP_copies_le (hnodup.filter _) fun c₁ h₁ c₂ h₂ hp₁ hp₂ => ?_
    have heq₁ := (ofContract?_packetOf hnames (List.mem_of_mem_filter h₁)).1 hp₁
    have heq₂ := (ofContract?_packetOf hnames (List.mem_of_mem_filter h₂)).1 hp₂
    exact heq₁.symm.trans heq₂

include hnames in
/-- All packets of the burst go to its queue. -/
theorem countP_burst (q : ℕ) :
    (L.burst q).countP (Action.brings (L.goesTo q)) =
      (L.contractsOf q).length * maxTickQueueSize := by
  refine Eq.trans (List.countP_eq_length.2 ?_) (Tally.length_copies _)
  intro a ha
  obtain ⟨c, hc, rfl⟩ := Tally.exists_of_mem_copies ha
  have hmem := List.mem_of_mem_filter hc
  exact List.any_eq_true.2 ⟨c, hc, (ofContract?_packetOf hnames hmem).2 rfl⟩

include hnodup hnames in
/-- **Bursts are taken exactly when there is room for each contract.** -/
theorem takesBursts_iff_roomy : TakesBursts L.contractList L.init ↔ L.Roomy := by
  constructor
  · intro h q
    have hburst := isBurst_burst hnodup hnames q
    have hle := (noDrop_iff L hburst.noPop).1 (h _ hburst) q
    rwa [countP_burst hnames q] at hle
  · intro h
    exact h.takesBursts

end

/-! ### The sizes that the start chooses -/

/-- The processors that the handlers are spread over: the answer of the system, narrowed from
`long` to `int`, and at least one. -/
def usableCores (sysconf : ℤ) : ℤ := max 1 (toInt (cpuCount sysconf))

theorem threadNum_eq_min (sysconf : ℤ) {contractNum : ℕ} (h : 0 < contractNum) :
    (threadNum sysconf contractNum : ℤ) = min (usableCores sysconf) contractNum := by
  have hcpu : 1 ≤ cpuCount sysconf := by
    unfold cpuCount
    split_ifs <;> omega
  unfold threadNum availableCoreNum usableCores
  split_ifs with hmany
  · omega
  · have hone : cpuCount sysconf = 1 := by omega
    have hint : toInt 1 = 1 := by decide
    rw [hone, hint]
    omega

/-- Contracts are dealt out evenly to the handlers if there is a processor for each, or if they
are dealt out evenly to the processors. -/
theorem threadNum_dvd_iff (sysconf : ℤ) {contractNum : ℕ} (h : 0 < contractNum) :
    threadNum sysconf contractNum ∣ contractNum ↔
      (contractNum : ℤ) ≤ usableCores sysconf ∨ usableCores sysconf ∣ (contractNum : ℤ) := by
  rw [← Int.natCast_dvd_natCast, threadNum_eq_min sysconf h]
  rcases le_total (contractNum : ℤ) (usableCores sysconf) with hle | hle
  · simp [hle]
  · rw [min_eq_left hle]
    constructor
    · exact Or.inr
    · rintro (hge | hdvd)
      · rw [le_antisymm hle hge]
      · exact hdvd

/-- There is a contract for each thread, so `multisize` is the quotient. -/
theorem multisize_eq (sysconf : ℤ) {contractNum : ℕ} (h : 0 < contractNum) :
    multisize sysconf contractNum = (contractNum / threadNum sysconf contractNum : ℕ) := by
  have hquot : 1 ≤ contractNum / threadNum sysconf contractNum :=
    (Nat.one_le_div_iff (threadNum_pos sysconf contractNum)).2 (threadNum_le sysconf h)
  rw [multisize, Int.tdiv_eq_ediv_of_nonneg (Int.natCast_nonneg _), Int.natCast_ediv]
  refine max_eq_right ?_
  exact_mod_cast hquot

/-- The contracts of a thread, as the code counts them. -/
theorem quotient_eq (sysconf : ℤ) {contractNum : ℕ} (h : 0 < contractNum) :
    ((contractNum / threadNum sysconf contractNum : ℕ) : ℤ) =
      contractNum / min (usableCores sysconf) contractNum := by
  rw [Int.natCast_ediv, threadNum_eq_min sysconf h]

section

variable {contractList : List String} (config : String → SpecialConfig) (sysconf : ℤ)

theorem length_contractsOf (hnodup : contractList.Nodup) (q : ℕ) :
    ((layoutOf contractList config sysconf).contractsOf q).length =
      RoundRobin.load (threadNum sysconf contractList.length) contractList.length q := by
  rw [← RoundRobin.countP_idxOf hnodup, List.countP_eq_length_filter]
  rfl

/-- A queue is made as large as asked for. -/
theorem capacity_construct (hne : contractList ≠ []) :
    (SPSCQueue.construct TickData
        (multisize sysconf contractList.length * maxTickQueueSize).toNat).capacity =
      contractList.length / threadNum sysconf contractList.length * maxTickQueueSize := by
  have hpos := List.length_pos_iff.2 hne
  have hsize : (multisize sysconf contractList.length * maxTickQueueSize).toNat =
      contractList.length / threadNum sysconf contractList.length * maxTickQueueSize := by
    rw [multisize_eq sysconf hpos]
    exact Int.toNat_natCast _
  have hquot : 1 ≤ contractList.length / threadNum sysconf contractList.length :=
    (Nat.one_le_div_iff (threadNum_pos sysconf _)).2 (threadNum_le sysconf hpos)
  have hsome : 1 ≤ contractList.length / threadNum sysconf contractList.length *
      maxTickQueueSize := Nat.mul_pos hquot (by decide)
  rw [hsize, SPSCQueue.construct, dif_neg hsome.not_gt]

theorem capacity_layoutOf (hne : contractList ≠ []) {q : ℕ}
    (hq : q < threadNum sysconf contractList.length) :
    ((layoutOf contractList config sysconf).init.queues q).capacity =
      contractList.length / threadNum sysconf contractList.length * maxTickQueueSize := by
  have hcap : (layoutOf contractList config sysconf).capacity q =
      (multisize sysconf contractList.length * maxTickQueueSize).toNat := if_pos hq
  show (SPSCQueue.construct TickData _).capacity = _
  rw [hcap, capacity_construct sysconf hne]

/-- Every queue is large enough for its contracts exactly when these are dealt out evenly. -/
theorem load_le_quotient_iff :
    (∀ q < threadNum sysconf contractList.length,
      RoundRobin.load (threadNum sysconf contractList.length) contractList.length q *
          maxTickQueueSize ≤
        contractList.length / threadNum sysconf contractList.length * maxTickQueueSize) ↔
      threadNum sysconf contractList.length ∣ contractList.length := by
  rw [← RoundRobin.load_le_div_iff (threadNum_pos sysconf _)]
  refine forall₂_congr fun q _ => ?_
  exact Nat.mul_le_mul_right_iff (by decide)

theorem roomy_layoutOf_iff (hne : contractList ≠ []) (hnodup : contractList.Nodup) :
    (layoutOf contractList config sysconf).Roomy ↔
      threadNum sysconf contractList.length ∣ contractList.length := by
  rw [← load_le_quotient_iff sysconf]
  constructor
  · intro h q hq
    have hroom := h q
    rwa [length_contractsOf config sysconf hnodup,
      capacity_layoutOf config sysconf hne hq] at hroom
  · intro h q
    rw [length_contractsOf config sysconf hnodup]
    by_cases hq : q < threadNum sysconf contractList.length
    · rw [capacity_layoutOf config sysconf hne hq]
      exact h q hq
    · -- there is no such queue, and no contract goes there
      rw [RoundRobin.load_of_le (threadNum_pos sysconf _) (not_lt.1 hq), Nat.zero_mul]
      exact Nat.zero_le _

/-- Every queue has room for `MAX_TICK_QUEUE_SIZE` ticks of each contract assigned to it. -/
def Started.Roomy (s : Started) (contractList : List String) : Prop :=
  ∀ q queue, s.tickQueues[q]? = some queue →
    maxTickQueueSize * s.assigned contractList q ≤ queue.capacity

theorem roomy_startHandlers_iff (hne : contractList ≠ []) (hnodup : contractList.Nodup) :
    (startHandlers contractList config sysconf).Roomy contractList ↔
      threadNum sysconf contractList.length ∣ contractList.length := by
  have hqueue : ∀ q queue, (startHandlers contractList config sysconf).tickQueues[q]? =
        some queue ↔
      q < threadNum sysconf contractList.length ∧
        SPSCQueue.construct TickData
          (multisize sysconf contractList.length * maxTickQueueSize).toNat = queue := by
    intro q queue
    simp [startHandlers, List.getElem?_replicate]
  rw [← load_le_quotient_iff sysconf]
  constructor
  · intro h q hq
    have hroom := h q _ ((hqueue q _).2 ⟨hq, rfl⟩)
    rwa [assigned_startHandlers sysconf hnodup, capacity_construct sysconf hne,
      Nat.mul_comm] at hroom
  · intro h q queue hget
    obtain ⟨hq, rfl⟩ := (hqueue q queue).1 hget
    rw [assigned_startHandlers sysconf hnodup, capacity_construct sysconf hne, Nat.mul_comm]
    exact h q hq

end

/-- The sizes come out right: the contracts are counted by an `int`, and there is a processor for
each of them, or they are dealt out evenly to the processors and the `queue_size` of their number
on one of these is an `int`. -/
def SizesFit (contracts : ℕ) (sysconf : ℤ) : Prop :=
  contracts < 2 ^ 31 ∧
    ((contracts : ℤ) ≤ usableCores sysconf ∨ usableCores sysconf ∣ (contracts : ℤ) ∧
      contracts / usableCores sysconf * maxTickQueueSize < 2 ^ 31)

instance (contracts : ℕ) (sysconf : ℤ) : Decidable (SizesFit contracts sysconf) :=
  inferInstanceAs (Decidable (_ ∧ _))

/-- The sizes come out right exactly when they are computed without an overflow and the contracts
are dealt out evenly to the threads. -/
theorem sizesFit_iff {contractList : List String} {host : Host} (hne : contractList ≠ []) :
    SizesFit contractList.length host.sysconf ↔
      (contractList.length < 2 ^ 31 ∧ SizeFits contractList host) ∧
        threadNum host.sysconf contractList.length ∣ contractList.length := by
  have hpos := List.length_pos_iff.2 hne
  unfold SizesFit SizeFits
  rw [threadNum_dvd_iff host.sysconf hpos, and_assoc]
  refine and_congr_right fun hcount => ?_
  rw [toInt_length hcount, multisize_eq host.sysconf hpos, quotient_eq host.sysconf hpos,
    Checked.fits_32_iff]
  have hcores : 1 ≤ usableCores host.sysconf := le_max_left _ _
  have hmax : ((maxTickQueueSize : ℕ) : ℤ) = 8 := rfl
  rw [hmax]
  rcases le_or_gt (contractList.length : ℤ) (usableCores host.sysconf) with hle | hlt
  · -- one contract for each thread
    rw [min_eq_right hle, Int.ediv_self (by omega)]
    simp [hle]
  · have hquot : 0 ≤ (contractList.length : ℤ) / usableCores host.sysconf :=
      Int.ediv_nonneg (by omega) (by omega)
    rw [min_eq_left hlt.le]
    constructor
    · rintro (hle | ⟨hdvd, hsize⟩)
      · omega
      · exact ⟨⟨by omega, by omega⟩, .inr hdvd⟩
    · rintro ⟨⟨-, hsize⟩, hle | hdvd⟩
      · omega
      · exact .inr ⟨hdvd, by omega⟩

/-- **The queues fit the assignment** exactly when their sizes come out right: then every queue has
room for `MAX_TICK_QUEUE_SIZE` ticks of each of its contracts, and no burst loses a tick.
Otherwise the start ends on the way to the sizes, or, if the contracts have names of the feed, there
is a burst that does.  That the rules of the contracts can be read and that the host can start
the handlers is taken for granted. -/
theorem queue_sizing_iff (makeAddress : String → Option Address) (mConfigReader : ConfigReader)
    (mGlobalValidationRules : Json) {contractList : List String} (host : Host)
    (hne : contractList ≠ []) (hnodup : contractList.Nodup)
    (hrules : RulesLoad makeAddress mConfigReader mGlobalValidationRules contractList)
    (hstart : HandlersStart contractList host) :
    ((∃ s, handlerAndDispatcherStart makeAddress mConfigReader mGlobalValidationRules
          contractList host = .ok s ∧ s.Roomy contractList ∧
            TakesBursts contractList s.system) ↔
        SizesFit contractList.length host.sysconf) ∧
      ((∀ c ∈ contractList, (chars c).length ≤ 80 ∧ (0 : Int8) ∉ chars c) →
        ((∃ s, handlerAndDispatcherStart makeAddress mConfigReader mGlobalValidationRules
            contractList host = .ok s ∧ TakesBursts contractList s.system) ↔
          SizesFit contractList.length host.sysconf)) := by
  have hlayout := roomy_layoutOf_iff (rulesOf makeAddress mConfigReader mGlobalValidationRules)
    host.sysconf hne hnodup
  have hroomy := roomy_startHandlers_iff
    (rulesOf makeAddress mConfigReader mGlobalValidationRules) host.sysconf hne hnodup
  have hstarts : contractList.length < 2 ^ 31 ∧ SizeFits contractList host →
      handlerAndDispatcherStart makeAddress mConfigReader mGlobalValidationRules contractList
        host = .ok (startHandlers contractList
          (rulesOf makeAddress mConfigReader mGlobalValidationRules) host.sysconf) :=
    fun ⟨hcount, hsize⟩ =>
      handlerAndDispatcherStart_eq_ok_iff.2 ⟨⟨hcount, hrules, hsize, hstart⟩, rfl⟩
  rw [sizesFit_iff hne]
  constructor
  · constructor
    · rintro ⟨s, hs, hroom, -⟩
      obtain ⟨⟨hcount, -, hsize, -⟩, rfl⟩ := handlerAndDispatcherStart_eq_ok_iff.1 hs
      exact ⟨⟨hcount, hsize⟩, hroomy.1 hroom⟩
    · rintro ⟨hfits, hdvd⟩
      refine ⟨_, hstarts hfits, hroomy.2 hdvd, ?_⟩
      rw [startHandlers_system]
      exact (hlayout.2 hdvd).takesBursts
  · intro hnames
    constructor
    · rintro ⟨s, hs, hbursts⟩
      obtain ⟨⟨hcount, -, hsize, -⟩, rfl⟩ := handlerAndDispatcherStart_eq_ok_iff.1 hs
      rw [startHandlers_system] at hbursts
      exact ⟨⟨hcount, hsize⟩, hlayout.1 ((takesBursts_iff_roomy hnodup hnames).1 hbursts)⟩
    · rintro ⟨hfits, hdvd⟩
      refine ⟨_, hstarts hfits, ?_⟩
      rw [startHandlers_system]
      exact (hlayout.2 hdvd).takesBursts

/-- Rules can be read from a file that has none. -/
theorem rulesLoad_null (contractList : List String) :
    RulesLoad (fun _ => none) ⟨.null⟩ .null contractList :=
  fun _ _ => ⟨_, rfl⟩

/-- Two contracts for each of two processors, and three contracts on two processors. -/
theorem queue_sizing_iff_sample :
    (∃ s, handlerAndDispatcherStart (fun _ => none) ⟨.null⟩ .null
        ["IF2603", "rb2410", "cu2409", "ag2412"] { sysconf := 2 } = .ok s ∧
      s.Roomy ["IF2603", "rb2410", "cu2409", "ag2412"] ∧
      TakesBursts ["IF2603", "rb2410", "cu2409", "ag2412"] s.system) ∧
    ¬ ∃ s, handlerAndDispatcherStart (fun _ => none) ⟨.null⟩ .null
        ["IF2603", "rb2410", "cu2409"] { sysconf := 2 } = .ok s ∧
      TakesBursts ["IF2603", "rb2410", "cu2409"] s.system := by
  have heven := queue_sizing_iff (fun _ => none) ⟨.null⟩ .null { sysconf := 2 }
    (List.cons_ne_nil "IF2603" ["rb2410", "cu2409", "ag2412"]) (by decide) (rulesLoad_null _)
    (by decide)
  have huneven := queue_sizing_iff (fun _ => none) ⟨.null⟩ .null { sysconf := 2 }
    (List.cons_ne_nil "IF2603" ["rb2410", "cu2409"]) (by decide) (rulesLoad_null _) (by decide)
  refine ⟨heven.1.2 (by decide), fun h => ?_⟩
  exact absurd ((huneven.2 (by decide)).1 h) (by decide)

/-- Three contracts on two processors: two of them share a queue for one. -/
theorem uneven_queue_too_small :
    ¬ ∀ (makeAddress : String → Option Address) (mConfigReader : ConfigReader)
      (mGlobalValidationRules : Json) (contractList : List String) (host : Host) (s : Started),
      contractList ≠ [] → contractList.Nodup →
      handlerAndDispatcherStart makeAddress mConfigReader mGlobalValidationRules contractList
        host = .ok s → s.Roomy contractList ∧ TakesBursts contractList s.system := by
  intro h
  have hs : handlerAndDispatcherStart (fun _ => none) ⟨.null⟩ .null ["IF2603", "rb2410", "cu2409"]
      { sysconf := 2 } = .ok _ :=
    handlerAndDispatcherStart_eq_ok_iff.2
      ⟨⟨by decide, rulesLoad_null ["IF2603", "rb2410", "cu2409"], by decide, by decide⟩, rfl⟩
  have hroomy := (h _ _ _ _ _ _ (by simp) (by decide) hs).1
  rw [roomy_startHandlers_iff _ _ (by simp) (by decide)] at hroomy
  exact absurd hroomy (by decide)

end UltraMds
