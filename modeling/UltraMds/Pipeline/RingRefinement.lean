import UltraMds.Pipeline.Refinement
import UltraMds.Pipeline.RingSystem

/-!
# The lock-free queues do not show

The pipeline on the rings is simulated by the pipeline on bounded queues (`Sim`): `dispatch`
happens there at the store to `writeIdx_`, and the removal of a tick at the store to `readIdx_`.
A load that comes late makes a handler pass its queue by, or the feed drop a tick that there was
room for; neither is a step of the other system.

So nothing that the pipeline promises is lost on the real queues: `ring_pipeline_sends`.
-/

namespace UltraMds

open Rigtorp

/-! ### The relation -/

/-- A ring and the bounded queue that it is. -/
structure QueueSim (m : Machine TickData) (q : SPSCQueue TickData) : Prop where
  inv : m.Inv
  items : q.items = m.items
  capacity : m.queue.getCapacity ≤ q.capacity

/-- Where a handler is in both systems, its ring being `m`. -/
inductive PcSim (m : Machine TickData) : Option LoopPc → Option LoopPc → Prop
  | out : PcSim m none none
  | test (hpc : m.consumer = .idle) : PcSim m (some .test) (some .test)
  /-- `empty` has missed the ticks in the queue -/
  | late (hpc : m.consumer = .idle) : PcSim m (some .test) (some .poll)
  | poll (hpc : m.consumer = .idle) : PcSim m (some .poll) (some .poll)
  | front (hsees : m.Sees) : PcSim m (some .front) (some .front)
  | handle {slot : ℕ} (hpc : m.consumer = .holding slot) : PcSim m (some .handle) (some .handle)
  | send {slot : ℕ} (hpc : m.consumer = .holding slot) : PcSim m (some .send) (some .send)
  | pop {slot : ℕ} (hpc : m.consumer = .holding slot) : PcSim m (some .pop) (some .pop)
  | store {next : ℕ} (hpc : m.consumer = .store next) : PcSim m (some .pop) (some .pop)

/-- What is being added to queue `k` is what `dispatch` has made of the packet. -/
structure RingSystem.FeedOk (s : RingSystem) (k : ℕ) : Prop where
  busy : ∀ call, s.feed = some call → call.queue = k →
    ∃ detector, s.dispatcher.route call.data = some (k, detector) ∧
      (s.queues k).producer.element = some (TickData.construct call.data (some detector) call.now)
  free : (∀ call, s.feed = some call → call.queue ≠ k) → (s.queues k).producer.element = none

/-- The packet of the call that the feed is in. -/
def RingSystem.inCall (s : RingSystem) : List TimedPacket :=
  (s.feed.map fun call => (call.data, call.now)).toList

/-- The packets in the log of the arrivals. -/
def System.packets (t : System) : List TimedPacket :=
  t.arrivals.map fun a => (a.data, a.now)

/-- The tick that queue `k` is offered for a packet, if the contract of the packet is bound to
it. -/
def RingSystem.offered (s : RingSystem) (k : ℕ) (p : TimedPacket) : Option TickData :=
  match s.dispatcher.route p.1 with
  | none => none
  | some (queue, detector) =>
    if queue = k then some (TickData.construct p.1 (some detector) p.2) else none

/-- What has become of the packets that arrived, in order: each is taken or lost, but for the one
whose call is still going.  Those that are taken are bound, and the ticks that a queue has refused
are those of the packets lost at it, so that the others that are lost are not bound. -/
def RingSystem.Accounts (s : RingSystem) (arrived taken : List TimedPacket) : Prop :=
  ∃ outcomes : List (TimedPacket × Bool),
    arrived = outcomes.map Prod.fst ++ s.inCall ∧
    taken = (outcomes.filter Prod.snd).map Prod.fst ∧
    (∀ p ∈ taken, s.dispatcher.route p.1 ≠ none) ∧
    ∀ k, (s.queues k).refused =
      ((outcomes.filter (!·.2)).map Prod.fst).filterMap (s.offered k)

/-- The pipeline on the rings and the one on bounded queues. -/
structure Sim (L : Layout) (s : RingSystem) (t : System) : Prop where
  wf : Wf L t
  dispatcher : s.dispatcher = t.dispatcher
  processors : s.processors = t.processors
  enqueued : s.enqueued = t.enqueued
  sent : s.sent = t.sent
  queue : ∀ k, QueueSim (s.queues k) (t.queues k)
  handler : ∀ k, (s.handlers k).myQueueTick = k
  runs : ∀ k, (s.handlers k).myRunning = (t.handlers k).myRunning
  alive : ∀ k, (s.handlers k).myWorkerThreadTick ≠ none → (s.handlers k).myRunning = true
  pc : ∀ k, PcSim (s.queues k) (s.handlers k).myWorkerThreadTick (t.handlers k).myWorkerThreadTick
  feed : ∀ k, s.FeedOk k
  arrivals : s.Accounts s.arrivals t.packets
  room : ∀ a ∈ t.arrivals, a.queueFull = false
  wire : s.wire.Sublist (s.sent.map SendAttempt.datagram)

/-! ### Queues -/

namespace QueueSim

variable {m m' : Machine TickData} {q : SPSCQueue TickData}

/-- A ring with the same elements is the same queue. -/
theorem of_stays (h : QueueSim m q) (hinv : m'.Inv) (hadded : m'.added = m.added)
    (hstamp : m'.queue.readIdx.stamp = m.queue.readIdx.stamp)
    (hcap : m'.queue.capacity = m.queue.capacity) : QueueSim m' q where
  inv := hinv
  items := by
    unfold Machine.items
    rw [hadded, hstamp]
    exact h.items
  capacity := by
    unfold SPSCQueue.getCapacity
    rw [hcap]
    exact h.capacity

/-- A removal. -/
theorem of_removes (h : QueueSim m q) (hinv : m'.Inv) (hsame : Machine.SameProducer m m')
    (hstamp : m'.queue.readIdx.stamp = m.queue.readIdx.stamp + 1) : QueueSim m' q.pop where
  inv := hinv
  items := by
    rw [BoundedFifo.pop_items, h.items]
    unfold Machine.items
    rw [hsame.added, hstamp, List.tail_drop]
  capacity := by
    unfold SPSCQueue.getCapacity
    rw [hsame.capacity]
    exact h.capacity

/-- An addition finds room in the bounded queue, which has at least as much. -/
theorem of_adds (h : QueueSim m q) (hinv : m'.Inv) (hsame : SameConsumer m m') {x : TickData}
    (hadded : m'.added = m.added ++ [x])
    (hroom : m.added.length + 1 < m.queue.readIdx.stamp + m.queue.capacity) :
    q.isFull = false ∧ QueueSim m' (q.tryPush x).2 := by
  have hle := h.inv.stamp_le_added
  have hnotfull : q.isFull = false := by
    refine Bool.eq_false_iff.2 fun hfull => ?_
    have hlen := q.isFull_iff.1 hfull
    have hcap := h.capacity
    rw [h.items, Machine.items, List.length_drop] at hlen
    unfold SPSCQueue.getCapacity at hcap
    omega
  refine ⟨hnotfull, hinv, ?_, ?_⟩
  · rw [BoundedFifo.tryPush_items, hnotfull, h.items]
    unfold Machine.items
    rw [hadded, hsame.stamp, List.drop_append_of_le_length hle]
    rfl
  · rw [BoundedFifo.tryPush_capacity]
    unfold SPSCQueue.getCapacity
    rw [hsame.capacity]
    exact h.capacity

/-- The element that the consumer uses is the oldest one. -/
theorem deref (h : QueueSim m q) {slot : ℕ} (hpc : m.consumer = .holding slot)
    {tick : TickData} {rest : List TickData} (hitems : q.items = tick :: rest) :
    ∃ queue, m.queue.deref slot = .ok (tick, queue) ∧ QueueSim { m with queue } q := by
  obtain ⟨x, hx, hderef⟩ := h.inv.deref hpc
  have hhead := h.items
  rw [hitems, Machine.items] at hhead
  have htick : x = tick := by
    have hget := congrArg List.head? hhead
    rw [List.head?_drop, hx] at hget
    exact (Option.some.inj hget).symm
  subst htick
  exact ⟨_, hderef, h.of_stays (h.inv.used hpc hx) rfl rfl rfl⟩

end QueueSim

/-- The producer does not move the consumer. -/
theorem PcSim.of_same {m m' : Machine TickData} {pc pc' : Option LoopPc} (h : PcSim m pc pc')
    (hsame : SameConsumer m m') : PcSim m' pc pc' := by
  have hconsumer := hsame.consumer
  cases h with
  | out => exact .out
  | test hpc => exact .test (hconsumer.trans hpc)
  | late hpc => exact .late (hconsumer.trans hpc)
  | poll hpc => exact .poll (hconsumer.trans hpc)
  | front hsees => exact .front (hsees.of_same hsame)
  | handle hpc => exact .handle (hconsumer.trans hpc)
  | send hpc => exact .send (hconsumer.trans hpc)
  | pop hpc => exact .pop (hconsumer.trans hpc)
  | store hpc => exact .store (hconsumer.trans hpc)

/-! ### What becomes of a packet -/

/-- The routes are as before, and the queues have refused the ticks of `lost`. -/
structure RingSystem.Loses (s s' : RingSystem) (lost : List TimedPacket) : Prop where
  dispatcher : s'.dispatcher = s.dispatcher
  refused : ∀ k, (s'.queues k).refused = (s.queues k).refused ++ lost.filterMap (s.offered k)

namespace RingSystem

variable {s s' : RingSystem} {p : TimedPacket} {arrived taken : List TimedPacket}

theorem offered_congr (h : s'.dispatcher = s.dispatcher) (k : ℕ) : s'.offered k = s.offered k := by
  funext p
  unfold offered
  rw [h]

theorem offered_of_unbound (h : s.dispatcher.route p.1 = none) (k : ℕ) : s.offered k p = none := by
  unfold offered
  rw [h]

/-- Nothing is lost while the queues stay. -/
theorem loses_nil (hdispatcher : s'.dispatcher = s.dispatcher)
    (hrefused : ∀ k, (s'.queues k).refused = (s.queues k).refused) : s.Loses s' [] :=
  ⟨hdispatcher, fun k => by rw [hrefused, List.filterMap_nil, List.append_nil]⟩

/-- One queue has gone on. -/
theorem loses_update {k : ℕ} {m : Machine TickData} (hdispatcher : s'.dispatcher = s.dispatcher)
    (hqueues : s'.queues = Function.update s.queues k m)
    (hrefused : m.refused = (s.queues k).refused) : s.Loses s' [] := by
  refine loses_nil hdispatcher fun j => ?_
  rw [hqueues]
  by_cases hj : j = k
  · rw [hj, Function.update_self, hrefused]
  · rw [Function.update_of_ne hj]

/-- The queue of a packet has refused its tick. -/
theorem loses_refused {k detector : ℕ} {m : Machine TickData}
    (hdispatcher : s'.dispatcher = s.dispatcher)
    (hqueues : s'.queues = Function.update s.queues k m)
    (hroute : s.dispatcher.route p.1 = some (k, detector))
    (hrefused : m.refused =
      (s.queues k).refused ++ [TickData.construct p.1 (some detector) p.2]) :
    s.Loses s' [p] := by
  refine ⟨hdispatcher, fun j => ?_⟩
  rw [hqueues]
  by_cases hj : j = k
  · have hoffered : s.offered k p = some (TickData.construct p.1 (some detector) p.2) := by
      unfold offered
      rw [hroute]
      exact if_pos rfl
    rw [hj, Function.update_self, hrefused, List.filterMap_cons_some hoffered, List.filterMap_nil]
  · have hoffered : s.offered j p = none := by
      unfold offered
      rw [hroute]
      exact if_neg (Ne.symm hj)
    rw [Function.update_of_ne hj, List.filterMap_cons_none hoffered, List.filterMap_nil,
      List.append_nil]

/-- The refused ticks are still those of the lost packets. -/
theorem Loses.refused_eq {earlier lost : List TimedPacket} (h : s.Loses s' lost)
    (hearlier : ∀ k, (s.queues k).refused = earlier.filterMap (s.offered k)) (k : ℕ) :
    (s'.queues k).refused = (earlier ++ lost).filterMap (s'.offered k) := by
  rw [h.refused, hearlier, offered_congr h.dispatcher, List.filterMap_append]

namespace Accounts

theorem goes (h : s.Accounts arrived taken) (hkeeps : s.Loses s' [])
    (hcall : s'.inCall = s.inCall) : s'.Accounts arrived taken := by
  obtain ⟨outcomes, harrived, htaken, hbound, hlost⟩ := h
  have hlost' := hkeeps.refused_eq hlost
  rw [List.append_nil] at hlost'
  refine ⟨outcomes, ?_, htaken, ?_, hlost'⟩
  · rw [hcall]
    exact harrived
  · rw [hkeeps.dispatcher]
    exact hbound

/-- A call begins. -/
theorem begins (h : s.Accounts arrived taken) (s' : RingSystem) (hkeeps : s.Loses s' [])
    (hcall : s.inCall = []) (hcall' : s'.inCall = [p]) :
    s'.Accounts (arrived ++ [p]) taken := by
  obtain ⟨outcomes, harrived, htaken, hbound, hlost⟩ := h
  have hlost' := hkeeps.refused_eq hlost
  rw [List.append_nil] at hlost'
  refine ⟨outcomes, ?_, htaken, ?_, hlost'⟩
  · rw [hcall', harrived, hcall, List.append_nil]
  · rw [hkeeps.dispatcher]
    exact hbound

/-- A call ends, and its packet is taken. -/
theorem takes (h : s.Accounts arrived taken) (s' : RingSystem) (hkeeps : s.Loses s' [])
    (hcall : s.inCall = [p]) (hcall' : s'.inCall = []) (hp : s.dispatcher.route p.1 ≠ none) :
    s'.Accounts arrived (taken ++ [p]) := by
  obtain ⟨outcomes, harrived, htaken, hbound, hlost⟩ := h
  refine ⟨outcomes ++ [(p, true)], ?_, ?_, ?_, fun k => ?_⟩
  · rw [hcall', harrived, hcall, List.map_append, List.append_nil]
    rfl
  · rw [htaken, List.filter_append, List.map_append]
    rfl
  · rw [hkeeps.dispatcher]
    intro o ho
    rcases List.mem_append.1 ho with ho | ho
    · exact hbound o ho
    · obtain rfl := List.mem_singleton.1 ho
      exact hp
  · rw [hkeeps.refused_eq hlost, List.filter_append, List.map_append]
    rfl

/-- A call ends, and its packet is lost. -/
theorem loses (h : s.Accounts arrived taken) (s' : RingSystem) (hloses : s.Loses s' [p])
    (hcall : s.inCall = [p]) (hcall' : s'.inCall = []) : s'.Accounts arrived taken := by
  obtain ⟨outcomes, harrived, htaken, hbound, hlost⟩ := h
  refine ⟨outcomes ++ [(p, false)], ?_, ?_, ?_, fun k => ?_⟩
  · rw [hcall', harrived, hcall, List.map_append, List.append_nil]
    rfl
  · rw [htaken, List.filter_append, List.map_append]
    exact (List.append_nil _).symm
  · rw [hloses.dispatcher]
    exact hbound
  · rw [hloses.refused_eq hlost, List.filter_append, List.map_append]
    rfl

end Accounts

end RingSystem

/-! ### Steps of the feed -/

namespace Sim

variable {L : Layout} {s : RingSystem} {t : System}

/-- The feed has gone on with queue `k`. -/
theorem feedTo (h : Sim L s t) {s' : RingSystem} {t' : System} {k : ℕ} {m : Machine TickData}
    {q : SPSCQueue TickData} (hsame : SameConsumer (s.queues k) m) (hqueue : QueueSim m q)
    (hs : s' = { s with
      feed := s'.feed, arrivals := s'.arrivals, enqueued := s'.enqueued
      queues := Function.update s.queues k m })
    (hwf : Wf L t') (ht : t' = { t with
      arrivals := t'.arrivals, enqueued := t'.enqueued, queues := Function.update t.queues k q })
    (henqueued : s'.enqueued = t'.enqueued)
    (harrivals : s'.Accounts s'.arrivals t'.packets)
    (hroom : ∀ a ∈ t'.arrivals, a.queueFull = false) (hfeed : ∀ j, s'.FeedOk j) : Sim L s' t' := by
  have hsqueues : s'.queues = Function.update s.queues k m := by rw [hs]
  have htqueues : t'.queues = Function.update t.queues k q := by rw [ht]
  have hshandlers : s'.handlers = s.handlers := by rw [hs]
  have hthandlers : t'.handlers = t.handlers := by rw [ht]
  have hsent : s'.sent = s.sent := by rw [hs]
  have hwire : s'.wire = s.wire := by rw [hs]
  exact
    { wf := hwf
      dispatcher := by
        rw [hs, ht]
        exact h.dispatcher
      processors := by
        rw [hs, ht]
        exact h.processors
      enqueued := henqueued
      sent := by
        rw [hsent, ht]
        exact h.sent
      queue := fun j => by
        rw [hsqueues, htqueues]
        by_cases hj : j = k
        · rwa [hj, Function.update_self, Function.update_self]
        · rw [Function.update_of_ne hj, Function.update_of_ne hj]
          exact h.queue j
      handler := fun j => by
        rw [hshandlers]
        exact h.handler j
      runs := fun j => by
        rw [hshandlers, hthandlers]
        exact h.runs j
      alive := fun j => by
        rw [hshandlers]
        exact h.alive j
      pc := fun j => by
        rw [hsqueues, hshandlers, hthandlers]
        by_cases hj : j = k
        · rw [hj, Function.update_self]
          exact (h.pc k).of_same hsame
        · rw [Function.update_of_ne hj]
          exact h.pc j
      feed := hfeed
      arrivals := harrivals
      room := hroom
      wire := by
        rw [hsent, hwire]
        exact h.wire }

/-- The other queues are as before when the feed stays with one queue. -/
theorem feedOk_update (h : Sim L s t) {s' : RingSystem} {k : ℕ} {m : Machine TickData}
    (hqueues : s'.queues = Function.update s.queues k m)
    (hold : ∀ call, s.feed = some call → call.queue = k)
    (hnew : ∀ call, s'.feed = some call → call.queue = k) (hk : s'.FeedOk k) (j : ℕ) :
    s'.FeedOk j := by
  by_cases hj : j = k
  · exact hj ▸ hk
  · refine ⟨fun call hcall hqueue => absurd (hqueue.symm.trans (hnew call hcall)) hj, fun _ => ?_⟩
    rw [hqueues, Function.update_of_ne hj]
    exact (h.feed j).free fun call hcall hqueue => hj (hqueue.symm.trans (hold call hcall))

/-- The feed has returned. -/
theorem feedOk_idle (h : Sim L s t) {s' : RingSystem} {k : ℕ} {m : Machine TickData}
    (hqueues : s'.queues = Function.update s.queues k m)
    (hold : ∀ call, s.feed = some call → call.queue = k) (hnew : s'.feed = none)
    (hidle : m.producer = .idle) (j : ℕ) : s'.FeedOk j := by
  refine h.feedOk_update hqueues hold (fun call hcall => ?_) ⟨fun call hcall => ?_, fun _ => ?_⟩ j
  · rw [hnew] at hcall
    cases hcall
  · rw [hnew] at hcall
    cases hcall
  · rw [hqueues, Function.update_self, hidle]
    rfl

theorem callDispatch (h : Sim L s t) (data : CThostFtdcDepthMarketDataField) (now : ℤ) :
    Sim L (s.callDispatch data now) t := by
  unfold RingSystem.callDispatch
  cases hfeed : s.feed with
  | some call => exact h
  | none =>
    have hfree : s.inCall = [] := by
      unfold RingSystem.inCall
      rw [hfeed]
      rfl
    have hno : ∀ call, s.feed ≠ some call := by
      intro call hcall
      rw [hfeed] at hcall
      cases hcall
    simp only
    cases hroute : s.dispatcher.route data with
    | none =>
      -- the packet is nobody's
      have hsame : SameConsumer (s.queues 0) (s.queues 0) := ⟨rfl, rfl, rfl, rfl, rfl⟩
      simp only
      refine h.feedTo hsame (h.queue 0) ?_ h.wf ?_ h.enqueued ?_ h.room fun j => ?_
      · rw [Function.update_eq_self]
      · rw [Function.update_eq_self]
      · -- a call that begins and ends at once
        have hbegins := h.arrivals.begins { s with feed := some ⟨0, data, now⟩ }
          (RingSystem.loses_nil rfl fun _ => rfl) hfree rfl
        refine hbegins.loses { s with feed := none, arrivals := s.arrivals ++ [(data, now)] }
          ⟨rfl, fun k => ?_⟩ rfl rfl
        rw [List.filterMap_cons_none (RingSystem.offered_of_unbound hroute k)]
        exact (List.append_nil _).symm
      · exact ⟨fun call hcall => absurd hcall (Option.some_ne_none call).symm,
          fun _ => (h.feed j).free fun call hcall => absurd hcall (hno call)⟩
    | some target =>
      obtain ⟨queue, detector⟩ := target
      have hidle : (s.queues queue).producer = .idle := by
        have hnone := (h.feed queue).free fun call hcall => absurd hcall (hno call)
        cases hp : (s.queues queue).producer <;> rw [hp] at hnone <;> first | rfl | cases hnone
      have hinv := (h.queue queue).inv
      have hstep : (s.queues queue).step
          (.emplace false (TickData.construct data (some detector) now)) = .ok _ := rfl
      have hsame := hinv.producer_same rfl hstep
      have hadded : ((s.queues queue).callEmplace false
          (TickData.construct data (some detector) now)).added = (s.queues queue).added := by
        unfold Machine.callEmplace
        rw [hidle]
      have helement : ((s.queues queue).callEmplace false
          (TickData.construct data (some detector) now)).producer.element =
            some (TickData.construct data (some detector) now) := by
        unfold Machine.callEmplace
        rw [hidle]
        simp only
        split_ifs <;> rfl
      refine h.feedTo hsame ((h.queue queue).of_stays (hinv.callEmplace _ _) hadded hsame.stamp
        hsame.capacity) rfl h.wf (by rw [Function.update_eq_self]) h.enqueued ?_ h.room ?_
      · refine h.arrivals.begins _ (RingSystem.loses_update rfl rfl ?_) hfree rfl
        unfold Machine.callEmplace
        rw [hidle]
      · refine h.feedOk_update rfl (fun call hcall => absurd hcall (hno call)) ?_
          ⟨?_, fun hne => absurd rfl (hne _ rfl)⟩
        · rintro call ⟨⟩
          rfl
        · rintro call ⟨⟩ -
          refine ⟨detector, hroute, ?_⟩
          show (Function.update s.queues queue _ queue).producer.element = _
          rw [Function.update_self]
          exact helement

/-- A dispatch whose contract is bound and whose queue has room. -/
theorem dispatchStep_of_room {data : CThostFtdcDepthMarketDataField} {k detector : ℕ} (now : ℤ)
    (hroute : t.dispatcher.route data = some (k, detector))
    (hroom : (t.queues k).isFull = false) :
    (t.dispatchStep data now).queues = Function.update t.queues k
        ((t.queues k).tryPush (TickData.construct data (some detector) now)).2 ∧
      (t.dispatchStep data now).enqueued =
        t.enqueued ++ [TickData.construct data (some detector) now] := by
  unfold System.dispatchStep System.stored Dispatcher.dispatch
  rw [hroute]
  refine ⟨rfl, congrArg (t.enqueued ++ ·) ?_⟩
  show Option.toList (if ((t.queues k).tryPush _).1 = true then _ else _) = _
  rw [BoundedFifo.tryPush_fst, hroom]
  rfl

theorem feedStep (h : Sim L s t) (lag : ℕ) :
    ∃ s' as, s.feedStep lag = .ok s' ∧ Sim L s' (t.run as) := by
  unfold RingSystem.feedStep
  cases hs : s.feed with
  | none => exact ⟨s, [], rfl, h⟩
  | some call =>
    obtain ⟨k, data, now⟩ := call
    have hqueue := h.queue k
    obtain ⟨m, hstep, hinv⟩ := hqueue.inv.producerStep lag
    obtain ⟨heffect, hsame⟩ := hqueue.inv.producerStep_effect hstep
    obtain ⟨detector, hroute, helement⟩ := (h.feed k).busy _ hs rfl
    have hold : ∀ call, s.feed = some call → call.queue = k := by
      rintro call hcall
      rw [hs] at hcall
      cases hcall
      rfl
    have hcall : s.inCall = [(data, now)] := by
      unfold RingSystem.inCall
      rw [hs]
      rfl
    have hstay := fun hadded => hqueue.of_stays hinv hadded hsame.stamp hsame.capacity
    simp only
    rw [hstep]
    cases heffect with
    | goes hadded hrefused hgoes =>
      -- the call goes on with the same tick
      refine ⟨{ s with
        feed := some ⟨k, data, now⟩
        queues := Function.update s.queues k m }, [], ?_, ?_⟩
      · simp [bind, Except.bind, pure, Except.pure, hgoes, helement, hadded]
      · refine h.feedTo hsame (hstay hadded) rfl h.wf (by rw [Function.update_eq_self]; rfl)
          h.enqueued (h.arrivals.goes (RingSystem.loses_update rfl rfl hrefused) hcall.symm) h.room
          (h.feedOk_update rfl hold ?_ ⟨?_, fun hne => absurd rfl (hne _ rfl)⟩)
        · rintro call ⟨⟩
          rfl
        · rintro call ⟨⟩ -
          refine ⟨detector, hroute, ?_⟩
          show (Function.update s.queues k m k).producer.element = _
          rw [Function.update_self, hgoes]
          exact helement
    | refuses x hx hidle hadded hrefused =>
      -- the tick is lost
      refine ⟨{ s with
        feed := none
        queues := Function.update s.queues k m }, [], ?_, ?_⟩
      · simp [bind, Except.bind, pure, Except.pure, hidle, ProducerPc.element, hadded]
      · refine h.feedTo hsame (hstay hadded) rfl h.wf (by rw [Function.update_eq_self]; rfl)
          h.enqueued ?_ h.room (h.feedOk_idle rfl hold rfl hidle)
        rw [helement] at hx
        cases hx
        exact h.arrivals.loses { s with feed := none, queues := Function.update s.queues k m }
          (RingSystem.loses_refused rfl rfl hroute hrefused) hcall rfl
    | adds x hx hidle hadded hrefused hroom =>
      -- the tick is in the queue from now on
      rw [helement] at hx
      cases hx
      obtain ⟨hnotfull, hqueue'⟩ := hqueue.of_adds hinv hsame hadded hroom
      rw [h.dispatcher] at hroute
      obtain ⟨hqueues, henqueued⟩ := dispatchStep_of_room now hroute hnotfull
      have hmeets : t.meetsFullQueue data = false := by
        unfold System.meetsFullQueue
        rw [hroute]
        exact hnotfull
      refine ⟨{ s with
        feed := none
        queues := Function.update s.queues k m
        enqueued := s.enqueued ++ [TickData.construct data (some detector) now] },
        [.dispatch data now], ?_, ?_⟩
      · simp [bind, Except.bind, pure, Except.pure, hidle, ProducerPc.element, hadded]
      · refine h.feedTo hsame hqueue' rfl (h.wf.dispatchStep_wf data now) ?_ ?_ ?_ ?_
          (h.feedOk_idle rfl hold rfl hidle)
        · rw [← hqueues]
          rfl
        · rw [h.enqueued]
          exact henqueued.symm
        · have htakes := h.arrivals.takes
            { s with
              feed := none
              queues := Function.update s.queues k m
              enqueued := s.enqueued ++ [TickData.construct data (some detector) now] }
            (RingSystem.loses_update rfl rfl hrefused) hcall rfl
            (by rw [h.dispatcher, hroute]; nofun)
          unfold System.packets
          show RingSystem.Accounts _ _ (List.map _ (t.arrivals ++ [_]))
          rw [List.map_append]
          exact htakes
        · intro a ha
          rcases List.mem_append.1 ha with ha | ha
          · exact h.room a ha
          · obtain rfl := List.mem_singleton.1 ha
            exact hmeets

/-! ### Steps of a handler -/

theorem handlers_update (s : RingSystem) (k j : ℕ) (pc : LoopPc) (m : Machine TickData) :
    (s.move k pc m).handlers j = if j = k then (s.handlers k).goto pc else s.handlers j := by
  show Function.update s.handlers k _ j = _
  split_ifs with hj
  · rw [hj, Function.update_self]
  · rw [Function.update_of_ne hj]

/-- The queue is as before for the feed. -/
structure SameFeed (m m' : Machine TickData) : Prop where
  producer : m'.producer = m.producer
  refused : m'.refused = m.refused

theorem SameFeed.of_sameProducer {m m' : Machine TickData} (h : Machine.SameProducer m m') :
    SameFeed m m' := ⟨h.producer, h.refused⟩

/-- Handler `k` has gone on, its queue being `m` here and `q` there. -/
theorem move (h : Sim L s t) {k : ℕ} {pc pc' : LoopPc} {m : Machine TickData}
    {q : SPSCQueue TickData} (halive : (s.handlers k).myWorkerThreadTick ≠ none)
    (hqueue : QueueSim m q) (hfeed : SameFeed (s.queues k) m)
    (hpc : PcSim m (some pc) (some pc'))
    (hwf : Wf L { t.goto k pc' with queues := Function.update t.queues k q }) :
    Sim L (s.move k pc m) { t.goto k pc' with queues := Function.update t.queues k q } where
  wf := hwf
  dispatcher := h.dispatcher
  processors := h.processors
  enqueued := h.enqueued
  sent := h.sent
  queue j := by
    show QueueSim (Function.update s.queues (s.handlers k).myQueueTick m j)
      (Function.update t.queues k q j)
    rw [h.handler]
    by_cases hj : j = k
    · subst hj
      rwa [Function.update_self, Function.update_self]
    · rw [Function.update_of_ne hj, Function.update_of_ne hj]
      exact h.queue j
  handler j := by
    rw [handlers_update]
    split_ifs with hj
    · rw [hj]
      exact h.handler k
    · exact h.handler j
  runs j := by
    refine Eq.trans ?_ ((h.runs j).trans (System.goto_myRunning t k pc' j).symm)
    rw [handlers_update]
    split_ifs with hj
    · rw [hj]
      rfl
    · rfl
  alive j := by
    rw [handlers_update]
    split_ifs with hj
    · exact fun _ => h.alive k halive
    · exact h.alive j
  pc j := by
    show PcSim (Function.update s.queues (s.handlers k).myQueueTick m j) _
      ((t.goto k pc').handlers j).myWorkerThreadTick
    rw [handlers_update, System.goto_worker, h.handler]
    by_cases hj : j = k
    · subst hj
      rw [Function.update_self, if_pos rfl, if_pos rfl]
      exact hpc
    · rw [Function.update_of_ne hj, if_neg hj, if_neg hj]
      exact h.pc j
  feed j := by
    have hsame : ((s.move k pc m).queues j).producer = (s.queues j).producer := by
      show (Function.update s.queues (s.handlers k).myQueueTick m j).producer = _
      rw [h.handler]
      by_cases hj : j = k
      · rw [hj, Function.update_self, hfeed.producer]
      · rw [Function.update_of_ne hj]
    refine ⟨fun call hcall hqueue => ?_, fun hfree => ?_⟩
    · rw [hsame]
      exact (h.feed j).busy call hcall hqueue
    · rw [hsame]
      exact (h.feed j).free hfree
  arrivals := by
    refine h.arrivals.goes (RingSystem.loses_update rfl rfl ?_) rfl
    rw [h.handler, hfeed.refused]
  room := h.room
  wire := h.wire

/-- Both have gone on, and the queue has the same elements. -/
theorem moveBoth (h : Sim L s t) {k : ℕ} {pc pc' : LoopPc} {m : Machine TickData}
    (halive : (s.handlers k).myWorkerThreadTick ≠ none) (hqueue : QueueSim m (t.queues k))
    (hfeed : SameFeed (s.queues k) m) (hpc : PcSim m (some pc) (some pc'))
    (hbusy : pc'.busy = true → (t.queues k).items ≠ []) :
    Sim L (s.move k pc m) (t.goto k pc') := by
  have hwf := h.wf.goto k hbusy
  have hsame : { t.goto k pc' with queues := Function.update t.queues k (t.queues k) } =
      t.goto k pc' := by
    rw [Function.update_eq_self]
    rfl
  rw [← hsame] at hwf ⊢
  exact h.move halive hqueue hfeed hpc hwf

/-- The handler has gone on, and the other one stays where it is. -/
theorem moveAlone (h : Sim L s t) {k : ℕ} {pc pc' : LoopPc} {m : Machine TickData}
    (halive : (s.handlers k).myWorkerThreadTick ≠ none) (hqueue : QueueSim m (t.queues k))
    (hfeed : SameFeed (s.queues k) m) (hpc : PcSim m (some pc) (some pc'))
    (hpc' : (t.handlers k).myWorkerThreadTick = some pc') : Sim L (s.move k pc m) t := by
  have hgoto : t.goto k pc' = t := by
    unfold System.goto TickHandler.goto
    rw [← hpc', Function.update_eq_self]
  have hmove := h.moveBoth halive hqueue hfeed hpc (fun hb => h.wf.busy k pc' hpc' hb)
  rwa [hgoto] at hmove

/-- A decision: the validators may change in both systems alike. -/
theorem withProcessors (h : Sim L s t) (processors : ℕ → UnitProcessor) :
    Sim L { s with processors } { t with processors } where
  wf := h.wf.congr rfl rfl rfl
  dispatcher := h.dispatcher
  processors := rfl
  enqueued := h.enqueued
  sent := h.sent
  queue := h.queue
  handler := h.handler
  runs := h.runs
  alive := h.alive
  pc := h.pc
  feed j := ⟨(h.feed j).busy, (h.feed j).free⟩
  arrivals := h.arrivals
  room := h.room
  wire := h.wire

/-- A send, whether it gets through or not. -/
theorem withSent (h : Sim L s t) (attempt : SendAttempt) (sends : Bool) :
    Sim L
      { s with
        sent := s.sent ++ [attempt]
        wire := if sends then s.wire ++ [attempt.datagram] else s.wire }
      { t with sent := t.sent ++ [attempt] } where
  wf := h.wf.congr rfl rfl rfl
  dispatcher := h.dispatcher
  processors := h.processors
  enqueued := h.enqueued
  sent := congrArg (· ++ [attempt]) h.sent
  queue := h.queue
  handler := h.handler
  runs := h.runs
  alive := h.alive
  pc := h.pc
  feed j := ⟨(h.feed j).busy, (h.feed j).free⟩
  arrivals := h.arrivals
  room := h.room
  wire := by
    show List.Sublist _ (List.map _ (s.sent ++ [attempt]))
    rw [List.map_append]
    cases sends with
    | true => exact h.wire.append (List.Sublist.refl _)
    | false => exact h.wire.trans (List.sublist_append_left _ _)

/-- The tick that handler `k` works on, and its validator. -/
theorem currentdata_eq (h : Sim L s t) {k slot : ℕ} (hpc : (s.queues k).consumer = .holding slot)
    {tick : TickData} {rest : List TickData} {c : String}
    (hitems : (t.queues k).items = tick :: rest) (hc : L.BelongsTo tick c) :
    ∃ m, RingSystem.currentdata (s.queues k) = .ok (tick, L.detectorOf c, m) ∧
      QueueSim m (t.queues k) ∧ SameFeed (s.queues k) m ∧ m.consumer = .holding slot := by
  obtain ⟨queue, hderef, hqueue⟩ := (h.queue k).deref hpc hitems
  refine ⟨_, ?_, hqueue, ⟨rfl, rfl⟩, hpc⟩
  unfold RingSystem.currentdata
  rw [hpc]
  simp only
  rw [hderef]
  dsimp only [bind, Except.bind]
  rw [hc.detector]

/-- The flag is set: the loop goes on. -/
theorem test_step (h : Sim L s t) {k : ℕ} (lag : ℕ) (sends : Bool)
    (hps : (s.handlers k).myWorkerThreadTick = some .test)
    (hpt : (t.handlers k).myWorkerThreadTick = some .test ∨
      (t.handlers k).myWorkerThreadTick = some .poll)
    (hpc : (s.queues k).consumer = .idle) :
    ∃ s' as, s.handlerStep k lag sends = .ok s' ∧ Sim L s' (t.run as) := by
  have halive : (s.handlers k).myWorkerThreadTick ≠ none := by
    rw [hps]
    exact nofun
  have hruns := h.alive k halive
  have hstep : s.handlerStep k lag sends = .ok (s.move k .poll (s.queues k)) := by
    unfold RingSystem.handlerStep
    rw [hps, h.handler k]
    simp only
    rw [hruns]
    rfl
  rcases hpt with hpt | hpt
  · refine ⟨_, [.handler k], hstep, ?_⟩
    show Sim L _ (t.handlerStep k)
    unfold System.handlerStep
    rw [hpt]
    simp only
    rw [← h.runs k, hruns]
    exact h.moveBoth halive (h.queue k) ⟨rfl, rfl⟩ (.poll hpc) nofun
  · exact ⟨_, [], hstep, h.moveAlone halive (h.queue k) ⟨rfl, rfl⟩ (.poll hpc) hpt⟩

/-- The test of the queue finds a tick only when the other one does. -/
theorem poll_step (h : Sim L s t) {k : ℕ} (lag : ℕ) (sends : Bool)
    (hps : (s.handlers k).myWorkerThreadTick = some .poll)
    (hpt : (t.handlers k).myWorkerThreadTick = some .poll)
    (hpc : (s.queues k).consumer = .idle) :
    ∃ s' as, s.handlerStep k lag sends = .ok s' ∧ Sim L s' (t.run as) := by
  have halive : (s.handlers k).myWorkerThreadTick ≠ none := by
    rw [hps]
    exact nofun
  have hfree : (s.queues k).consumerFree = true := by
    unfold Machine.consumerFree
    rw [hpc]
  have hinv := (h.queue k).inv.callEmpty lag
  obtain ⟨heffect, hsame⟩ := (s.queues k).callEmpty_effect lag
  have hstamp : ((s.queues k).callEmpty lag).queue.readIdx.stamp =
      (s.queues k).queue.readIdx.stamp := by
    unfold Machine.callEmpty
    rw [if_pos hfree]
    rfl
  have hqueue : QueueSim ((s.queues k).callEmpty lag) (t.queues k) :=
    (h.queue k).of_stays hinv hsame.added hstamp hsame.capacity
  have hpc' : ((s.queues k).callEmpty lag).consumer = .idle := by
    unfold Machine.callEmpty
    rw [if_pos hfree]
    exact hpc
  cases hempty : ((s.queues k).queue.empty lag).1 with
  | true =>
    refine ⟨s.move k .test ((s.queues k).callEmpty lag), [], ?_,
      h.moveAlone halive hqueue (.of_sameProducer hsame) (.late hpc') hpt⟩
    unfold RingSystem.handlerStep
    rw [hps, h.handler k]
    simp only
    rw [hempty]
    rfl
  | false =>
    have hsees := (h.queue k).inv.sees_of_not_empty hfree hempty
    -- what the handler has seen is in the queue
    have hne : (t.queues k).items ≠ [] := by
      have hlen := hinv.length_items
      have hseen := ((s.queues k).callEmpty lag).queue.writeIdx.seen_le_stamp
      have hlt := hsees.1
      rw [hqueue.items, ← List.length_pos_iff]
      omega
    have hnotempty : (t.queueOf k).isEmpty = false := by
      rw [h.wf.queueOf_eq]
      exact Bool.eq_false_iff.2 (mt (t.queues k).isEmpty_iff.1 hne)
    refine ⟨s.move k .front ((s.queues k).callEmpty lag), [.handler k], ?_, ?_⟩
    · unfold RingSystem.handlerStep
      rw [hps, h.handler k]
      simp only
      rw [hempty]
      rfl
    · show Sim L _ (t.handlerStep k)
      unfold System.handlerStep
      rw [hpt]
      simp only
      rw [hnotempty]
      exact h.moveBoth halive hqueue (.of_sameProducer hsame) (.front hsees) fun _ => hne

/-- `front` returns a pointer, at once or after a load. -/
theorem front_step (h : Sim L s t) {k : ℕ} (lag : ℕ) (sends : Bool)
    (hps : (s.handlers k).myWorkerThreadTick = some .front)
    (hpt : (t.handlers k).myWorkerThreadTick = some .front) (hsees : (s.queues k).Sees) :
    ∃ s' as, s.handlerStep k lag sends = .ok s' ∧ Sim L s' (t.run as) := by
  have halive : (s.handlers k).myWorkerThreadTick ≠ none := by
    rw [hps]
    exact nofun
  have hne := h.wf.busy k _ hpt rfl
  have hcoarse : t.handlerStep k = t.goto k .handle := by
    unfold System.handlerStep
    rw [hpt]
  have hhandle : ∀ m slot, m.Inv → Machine.SameProducer (s.queues k) m →
      m.queue.readIdx.stamp = (s.queues k).queue.readIdx.stamp → m.consumer = .holding slot →
      Sim L (s.move k .handle m) (t.run [.handler k]) := by
    intro m slot hinv hsame hstamp hslot
    show Sim L _ (t.handlerStep k)
    rw [hcoarse]
    exact h.moveBoth halive ((h.queue k).of_stays hinv hsame.added hstamp hsame.capacity)
      (.of_sameProducer hsame) (.handle hslot) fun _ => hne
  unfold RingSystem.handlerStep
  rw [hps, h.handler k]
  simp only
  split
  · -- the load
    next readIdx hreload =>
    obtain ⟨slot, hslot⟩ :=
      (h.queue k).inv.consumerStep_holding hsees (by rw [hreload]; exact nofun) lag
    obtain ⟨heffect, hsame⟩ := (s.queues k).consumerStep_effect lag
    refine ⟨_, _, rfl, hhandle _ slot ((h.queue k).inv.consumerStep lag) hsame ?_ hslot⟩
    cases heffect with
    | stays hstamp => exact hstamp
    | removes next hnext => exact absurd hnext (hsees.2 next)
  · -- the call
    obtain ⟨hsees', hidle⟩ := hsees.callFront
    obtain ⟨heffect, hsame⟩ := (s.queues k).callFront_effect
    have hinv := (h.queue k).inv.callFront
    have hstamp : (s.queues k).callFront.queue.readIdx.stamp =
        (s.queues k).queue.readIdx.stamp := by
      cases heffect with
      | stays hstamp => exact hstamp
      | removes next hnext => exact absurd hnext (hsees.2 next)
    split
    · exact ⟨_, [], rfl, h.moveAlone halive
        ((h.queue k).of_stays hinv hsame.added hstamp hsame.capacity)
        (.of_sameProducer hsame) (.front hsees') hpt⟩
    · next hnot =>
      refine ⟨_, [.handler k], rfl, ?_⟩
      cases hc : (s.queues k).callFront.consumer with
      | idle => exact absurd hc hidle
      | reload readIdx => exact absurd hc (hnot readIdx)
      | holding slot => exact hhandle _ slot hinv hsame hstamp hc
      | store next => exact absurd hc (hsees'.2 next)

theorem handle_step (h : Sim L s t) {k slot : ℕ} (lag : ℕ) (sends : Bool)
    (hps : (s.handlers k).myWorkerThreadTick = some .handle)
    (hpt : (t.handlers k).myWorkerThreadTick = some .handle)
    (hpc : (s.queues k).consumer = .holding slot) :
    ∃ s' as, s.handlerStep k lag sends = .ok s' ∧ Sim L s' (t.run as) := by
  have halive : (s.handlers k).myWorkerThreadTick ≠ none := by
    rw [hps]
    exact nofun
  obtain ⟨tick, rest, c, hitems, hc, -⟩ := h.wf.exists_head hpt rfl
  obtain ⟨m, hcurrent, hqueue, hfeed, hslot⟩ := h.currentdata_eq hpc hitems hc
  generalize hv : (s.processors (L.detectorOf c)).validate tick = v
  have hmove : Sim L (s.move k (if v.1 then .send else .pop) m)
      (t.goto k (if v.1 then .send else .pop)) := by
    have hne := h.wf.busy k _ hpt rfl
    cases v.1 with
    | true => exact h.moveBoth halive hqueue hfeed (.send hslot) fun _ => hne
    | false => exact h.moveBoth halive hqueue hfeed (.pop hslot) fun _ => hne
  refine ⟨{ s.move k (if v.1 then .send else .pop) m with
    processors := Function.update s.processors (L.detectorOf c) v.2 }, [.handler k], ?_, ?_⟩
  · unfold RingSystem.handlerStep
    rw [hps, h.handler k]
    simp only
    rw [hcurrent]
    dsimp only [bind, Except.bind]
    rw [hv]
    rfl
  · show Sim L _ (t.handlerStep k)
    unfold System.handlerStep
    rw [hpt]
    simp only [h.wf.current_eq hitems hc]
    rw [← h.processors, hv]
    exact hmove.withProcessors (Function.update s.processors (L.detectorOf c) v.2)

theorem send_step (h : Sim L s t) {k slot : ℕ} (lag : ℕ) (sends : Bool)
    (hps : (s.handlers k).myWorkerThreadTick = some .send)
    (hpt : (t.handlers k).myWorkerThreadTick = some .send)
    (hpc : (s.queues k).consumer = .holding slot) :
    ∃ s' as, s.handlerStep k lag sends = .ok s' ∧ Sim L s' (t.run as) := by
  have halive : (s.handlers k).myWorkerThreadTick ≠ none := by
    rw [hps]
    exact nofun
  obtain ⟨tick, rest, c, hitems, hc, -⟩ := h.wf.exists_head hpt rfl
  obtain ⟨m, hcurrent, hqueue, hfeed, hslot⟩ := h.currentdata_eq hpc hitems hc
  have hmove := h.moveBoth halive hqueue hfeed (.pop hslot) fun _ => h.wf.busy k _ hpt rfl
  refine ⟨{ s.move k .pop m with
    sent := s.sent ++ [sendMessage (s.processors (L.detectorOf c)) tick]
    wire := if sends then
        s.wire ++ [(sendMessage (s.processors (L.detectorOf c)) tick).datagram]
      else s.wire }, [.handler k], ?_, ?_⟩
  · unfold RingSystem.handlerStep
    rw [hps, h.handler k]
    simp only
    rw [hcurrent]
    rfl
  · show Sim L _ (t.handlerStep k)
    unfold System.handlerStep
    rw [hpt]
    simp only [h.wf.current_eq hitems hc]
    rw [← h.processors]
    exact hmove.withSent (sendMessage (s.processors (L.detectorOf c)) tick) sends

/-- The tick is destroyed first, which the other system does not see, and then removed. -/
theorem pop_step (h : Sim L s t) {k : ℕ} (lag : ℕ) (sends : Bool)
    (hps : (s.handlers k).myWorkerThreadTick = some .pop)
    (hpt : (t.handlers k).myWorkerThreadTick = some .pop)
    (hpc : (∃ slot, (s.queues k).consumer = .holding slot) ∨
      ∃ next, (s.queues k).consumer = .store next) :
    ∃ s' as, s.handlerStep k lag sends = .ok s' ∧ Sim L s' (t.run as) := by
  have halive : (s.handlers k).myWorkerThreadTick ≠ none := by
    rw [hps]
    exact nofun
  unfold RingSystem.handlerStep
  rw [hps, h.handler k]
  simp only
  rcases hpc with ⟨slot, hpc⟩ | ⟨next, hpc⟩
  · obtain ⟨queue, x, hpop, hinv, hcap, hread⟩ :=
      (h.queue k).inv.callPop_eq hpc (if s.assertions then some lag else none)
    rw [hpc]
    simp only
    rw [hpop]
    refine ⟨_, [], rfl, h.moveAlone halive ((h.queue k).of_stays hinv rfl ?_ hcap) ⟨rfl, rfl⟩
      (.store rfl) hpt⟩
    exact congrArg Published.stamp hread
  · have hinv := (h.queue k).inv.consumerStep lag
    obtain ⟨heffect, hsame⟩ := (s.queues k).consumerStep_effect lag
    have hstamp : ((s.queues k).consumerStep lag).queue.readIdx.stamp =
        (s.queues k).queue.readIdx.stamp + 1 := by
      unfold Machine.consumerStep
      rw [hpc]
      exact Published.store_stamp _ _
    have hidle : ((s.queues k).consumerStep lag).consumer = .idle := by
      unfold Machine.consumerStep
      rw [hpc]
    have hcoarse : t.handlerStep k =
        { t.goto k .test with queues := Function.update t.queues k (t.queues k).pop } := by
      unfold System.handlerStep
      rw [hpt]
      simp only [h.wf.queueOf_eq, h.wf.handler]
    rw [hpc]
    refine ⟨_, [.handler k], rfl, ?_⟩
    show Sim L _ (t.handlerStep k)
    have hwf := h.wf.handlerStep_wf k
    rw [hcoarse] at hwf ⊢
    exact h.move halive ((h.queue k).of_removes hinv hsame hstamp) (.of_sameProducer hsame)
      (.test hidle) hwf

theorem handlerStep (h : Sim L s t) (k lag : ℕ) (sends : Bool) :
    ∃ s' as, s.handlerStep k lag sends = .ok s' ∧ Sim L s' (t.run as) := by
  have hpc := h.pc k
  generalize hps : (s.handlers k).myWorkerThreadTick = ps,
    hpt : (t.handlers k).myWorkerThreadTick = pt at hpc
  cases hpc with
  | out =>
    refine ⟨s, [], ?_, h⟩
    unfold RingSystem.handlerStep
    rw [hps]
  | test hpc => exact h.test_step lag sends hps (.inl hpt) hpc
  | late hpc => exact h.test_step lag sends hps (.inr hpt) hpc
  | poll hpc => exact h.poll_step lag sends hps hpt hpc
  | front hsees => exact h.front_step lag sends hps hpt hsees
  | handle hpc => exact h.handle_step lag sends hps hpt hpc
  | send hpc => exact h.send_step lag sends hps hpt hpc
  | pop hpc => exact h.pop_step lag sends hps hpt (.inl ⟨_, hpc⟩)
  | store hpc => exact h.pop_step lag sends hps hpt (.inr ⟨_, hpc⟩)

/-- **No step faults**, and the pipeline on bounded queues keeps up. -/
theorem step (h : Sim L s t) (a : RingAction) :
    ∃ s' as, s.step a = .ok s' ∧ Sim L s' (t.run as) := by
  cases a with
  | dispatch data now => exact ⟨_, [], rfl, h.callDispatch data now⟩
  | feed lag => exact h.feedStep lag
  | handler k lag sends => exact h.handlerStep k lag sends

end Sim

/-! ### The pipeline from its start on -/

section

variable {kPadding : ℕ}

theorem queueSim_init (hpad : 2 * kPadding + 2 ≤ sizeMax) {capacity : ℕ}
    (hcap : capacity < sizeMax) :
    QueueSim (.init kPadding capacity) (SPSCQueue.construct TickData capacity) where
  inv := .init hpad hcap
  items := SPSCQueue.construct_items TickData capacity
  capacity := by
    have hring : constructCapacity kPadding capacity = _ := constructCapacity_eq hcap
    show constructCapacity kPadding capacity - 1 ≤ _
    unfold SPSCQueue.construct
    split_ifs
    · show _ ≤ 1
      omega
    · show _ ≤ capacity
      omega

theorem sim_init (hpad : 2 * kPadding + 2 ≤ sizeMax) {L : Layout}
    (hcap : ∀ k, L.capacity k < sizeMax) (assertions : Bool) :
    Sim L (L.ringInit kPadding assertions) L.init where
  wf := .init L
  dispatcher := rfl
  processors := rfl
  enqueued := rfl
  sent := rfl
  queue k := queueSim_init hpad (hcap k)
  handler := (Wf.init L).handler
  runs _ := rfl
  alive k hthread := by
    show (if k < L.threads then _ else _ : TickHandler).myRunning = true
    split_ifs with hk
    · rfl
    · exact absurd ((L.init_worker k).trans (if_neg hk)) hthread
  pc k := by
    show PcSim _ (L.init.handlers k).myWorkerThreadTick _
    rw [L.init_worker]
    split_ifs
    · exact .test rfl
    · exact .out
  feed _ := ⟨fun call hcall => absurd hcall (Option.some_ne_none call).symm, fun _ => rfl⟩
  arrivals := ⟨[], rfl, rfl, fun p hp => absurd hp List.not_mem_nil, fun _ => rfl⟩
  room a ha := absurd ha List.not_mem_nil
  wire := List.Sublist.slnil

/-- The packet of a call of `dispatch`, which the feed can make when it is outside of a call. -/
def RingSystem.brought (s : RingSystem) : RingAction → List TimedPacket
  | .dispatch data now =>
    match s.feed with
    | none => [(data, now)]
    | some _ => []
  | _ => []

/-- The packets of the calls of `dispatch` in a run, in order. -/
def RingSystem.dispatched (s : RingSystem) : List RingAction → List TimedPacket
  | [] => []
  | a :: as =>
    s.brought a ++
      match s.step a with
      | .ok s' => dispatched s' as
      | .error _ => []

/-- The tick of the contract `c` that a packet becomes. -/
def Layout.made (L : Layout) (c : String) (p : TimedPacket) : TickData :=
  TickData.construct p.1 (some (L.detectorOf c)) p.2

/-- A handler does not see the packets. -/
theorem handlerStep_arrivals {s s' : RingSystem} {k lag : ℕ} {sends : Bool}
    (h : s.handlerStep k lag sends = .ok s') : s'.arrivals = s.arrivals := by
  unfold RingSystem.handlerStep at h
  simp only at h
  split at h
  · cases h
    rfl
  · cases h
    rfl
  · cases h
    rfl
  · split at h
    · cases h
      rfl
    · split at h <;> cases h <;> rfl
  · obtain ⟨x, -, h⟩ := Fallible.exists_of_bind_eq_ok h
    cases h
    rfl
  · obtain ⟨x, -, h⟩ := Fallible.exists_of_bind_eq_ok h
    cases h
    rfl
  · split at h
    · cases h
      rfl
    · obtain ⟨x, -, h⟩ := Fallible.exists_of_bind_eq_ok h
      cases h
      rfl
    · cases h
  · cases h
    rfl

theorem step_arrivals {s s' : RingSystem} {a : RingAction} (h : s.step a = .ok s') :
    s'.arrivals = s.arrivals ++ s.brought a := by
  cases a with
  | dispatch data now =>
    cases h
    unfold RingSystem.callDispatch RingSystem.brought
    cases s.feed with
    | some call => exact (List.append_nil _).symm
    | none =>
      simp only
      cases s.dispatcher.route data <;> rfl
  | feed lag =>
    replace h : s.feedStep lag = .ok s' := h
    unfold RingSystem.feedStep at h
    split at h
    · cases h
      exact (List.append_nil _).symm
    · obtain ⟨m, -, h⟩ := Fallible.exists_of_bind_eq_ok h
      cases h
      exact (List.append_nil _).symm
  | handler k lag sends => exact (handlerStep_arrivals h).trans (List.append_nil _).symm

/-- The log of the arrivals has the packets of the run, in order. -/
theorem run_arrivals {s s' : RingSystem} {as : List RingAction} (h : s.run as = .ok s') :
    s'.arrivals = s.arrivals ++ s.dispatched as := by
  induction as generalizing s with
  | nil =>
    cases h
    exact (List.append_nil _).symm
  | cons a as ih =>
    obtain ⟨s₁, hstep, hrun⟩ := Fallible.exists_of_bind_eq_ok h
    rw [ih hrun, step_arrivals hstep, RingSystem.dispatched, hstep, List.append_assoc]

/-- A run of the pipeline on the lock-free queues, and the run on bounded queues that it is. -/
theorem simulated (hpad : 2 * kPadding + 2 ≤ sizeMax) (L : Layout)
    (hcap : ∀ k, L.capacity k < sizeMax) (assertions : Bool) (as : List RingAction) :
    ∃ s bs, (L.ringInit kPadding assertions).run as = .ok s ∧ Sim L s (L.init.run bs) ∧
      s.Accounts ((L.ringInit kPadding assertions).dispatched as)
        (bs.filterMap Action.packet?) := by
  obtain ⟨s, bs, hrun, h⟩ := Fallible.steps_simulated
    (fun s t a (h : Sim L s t) => h.step a) (sim_init hpad hcap assertions) as
  refine ⟨s, bs, hrun, h, ?_⟩
  have harrivals := h.arrivals
  rw [run_arrivals hrun, System.packets, arrivals_run] at harrivals
  exact harrivals

/-- **The queues do not show**: whatever the interleaving, the lateness of the loads and the
fate of the sends, no step of the pipeline on the lock-free queues faults, and the pipeline on
bounded queues, given the same packets but for those that are not bound or that `try_emplace`
refuses, can come to the same enqueued ticks, attempts to send, validators and queues.  Only what
was attempted leaves. -/
theorem ring_pipeline_refines (hpad : 2 * kPadding + 2 ≤ sizeMax) (L : Layout)
    (hcap : ∀ k, L.capacity k < sizeMax) (assertions : Bool) (as : List RingAction) :
    ∃ s, (L.ringInit kPadding assertions).run as = .ok s ∧
      s.wire.Sublist (s.sent.map SendAttempt.datagram) ∧
      ∃ bs,
        s.Accounts ((L.ringInit kPadding assertions).dispatched as)
          (bs.filterMap Action.packet?) ∧
        s.enqueued = (L.init.run bs).enqueued ∧ s.sent = (L.init.run bs).sent ∧
        s.processors = (L.init.run bs).processors ∧
        ∀ k, (s.queues k).items = ((L.init.run bs).queues k).items := by
  obtain ⟨s, bs, hrun, h, haccounts⟩ := simulated hpad L hcap assertions as
  exact ⟨s, hrun, h.wire, bs, haccounts, h.enqueued, h.sent, h.processors,
    fun k => (h.queue k).items.symm⟩

/-- A packet, one of a contract that is not bound, and a second one of the first contract, which
arrives late at its handler: the first load of `empty` misses it.  The second send fails. -/
def sampleRingRun : List RingAction :=
  .dispatch samplePacket 0 :: .feed 0 :: .feed 0 ::
    List.replicate 8 (.handler 0 0 true) ++
    [.dispatch (packetOf "cu2409") 1, .dispatch samplePacket 2, .feed 0, .feed 0] ++
    (List.replicate 2 (.handler 0 1 true) ++ List.replicate 6 (.handler 0 0 false))

theorem ring_pipeline_refines_sample :
    ∃ s, (sampleLayout.ringInit 4 true).run sampleRingRun = .ok s ∧
      s.wire.Sublist (s.sent.map SendAttempt.datagram) ∧
      (s.sent.length = 2 ∧ s.wire.length = 1 ∧
        (sampleLayout.ringInit 4 true).dispatched sampleRingRun =
          [(samplePacket, 0), (packetOf "cu2409", 1), (samplePacket, 2)]) ∧
      ∃ bs,
        s.Accounts ((sampleLayout.ringInit 4 true).dispatched sampleRingRun)
          (bs.filterMap Action.packet?) ∧
        s.enqueued = (sampleLayout.init.run bs).enqueued ∧
        s.sent = (sampleLayout.init.run bs).sent ∧
        s.processors = (sampleLayout.init.run bs).processors ∧
        ∀ k, (s.queues k).items = ((sampleLayout.init.run bs).queues k).items := by
  obtain ⟨s, hrun, hwire, h⟩ := @ring_pipeline_refines 4 (by decide) sampleLayout
    (fun _ => show 8 < sizeMax by decide) true sampleRingRun
  have hlogs : ((sampleLayout.ringInit 4 true).run sampleRingRun).toOption.map
      (fun s => (s.sent.length, s.wire.length)) = some (2, 1) := by decide +kernel
  rw [hrun] at hlogs
  obtain ⟨hsent, hwires⟩ := Prod.mk.inj (Option.some.inj hlogs)
  exact ⟨s, hrun, hwire, ⟨hsent, hwires, by decide +kernel⟩, h⟩

/-- What is in a queue: at most one tick that is dealt with, and those that are not. -/
theorem filter_items_eq (s : System) (L : Layout) (c : String) :
    ∃ head : List TickData, head.length ≤ 1 ∧
      (s.queues (L.queueOf c)).items.filter (ofContract c) = head ++ s.unfinishedOf c L := by
  unfold System.unfinishedOf System.unfinished
  split_ifs
  · cases (s.queues (L.queueOf c)).items with
    | nil => exact ⟨[], Nat.zero_le _, rfl⟩
    | cons tick rest =>
      refine ⟨[tick].filter (ofContract c), List.length_filter_le _ _, ?_⟩
      rw [← List.filter_append]
      rfl
  · exact ⟨[], Nat.zero_le _, rfl⟩

/-- The enqueued ticks of a contract are those of the packets of the contract that were taken. -/
theorem Sim.enqueued_eq {L : Layout} {s : RingSystem} {bs : List Action}
    (h : Sim L s (L.init.run bs)) {c : String} (hc : c ∈ L.contractList) :
    s.enqueued.filter (ofContract c) =
      ((bs.filterMap Action.packet?).filter fun p => cText p.1.instrumentID = chars c).map
        (L.made c) := by
  have hlogged := (logged_run L bs).enqueued c hc
  have hroom : (((L.init.run bs).arrivalsOf c).filter (!·.queueFull)) =
      (L.init.run bs).arrivalsOf c := by
    refine List.filter_eq_self.2 fun a ha => ?_
    rw [h.room a (List.mem_of_mem_filter ha)]
    rfl
  rw [hroom] at hlogged
  rw [h.enqueued, ← arrivals_run, List.filter_map, List.map_map]
  exact hlogged

/-- **What the pipeline on the lock-free queues sends**: for each contract, of the ticks that were
queued for it, which are those of its packets that were taken, what a fresh validator accepts is
attempted to be sent, but for the last ticks, which are in the queue behind at most one that is
dealt with; and only what was attempted leaves. -/
theorem ring_pipeline_sends (hpad : 2 * kPadding + 2 ≤ sizeMax) (L : Layout)
    (hcap : ∀ k, L.capacity k < sizeMax) (assertions : Bool) (as : List RingAction) :
    ∃ s, (L.ringInit kPadding assertions).run as = .ok s ∧
      s.wire.Sublist (s.sent.map SendAttempt.datagram) ∧
      ∃ taken, s.Accounts ((L.ringInit kPadding assertions).dispatched as) taken ∧
        ∀ c ∈ L.contractList, ∃ done rest head : List TickData,
          s.enqueued.filter (ofContract c) =
            (taken.filter fun p => cText p.1.instrumentID = chars c).map (L.made c) ∧
          s.enqueued.filter (ofContract c) = done ++ rest ∧ head.length ≤ 1 ∧
          (s.queues (L.queueOf c)).items.filter (ofContract c) = head ++ rest ∧
          s.sent.filter (fun a => ofContract c a.tick) = forwarded c (L.config c) done := by
  obtain ⟨s, bs, hrun, h, haccounts⟩ := simulated hpad L hcap assertions as
  refine ⟨s, hrun, h.wire, _, haccounts, fun c hc => ?_⟩
  obtain ⟨done, henq, hsent⟩ := sentOf_run L bs hc
  obtain ⟨head, hhead, hitems⟩ := filter_items_eq (L.init.run bs) L c
  refine ⟨done, (L.init.run bs).unfinishedOf c L, head, h.enqueued_eq hc, ?_, hhead, ?_, ?_⟩
  · rw [h.enqueued]
    exact henq
  · rw [← (h.queue _).items]
    exact hitems
  · rw [h.sent]
    exact hsent

/-- After the first tick is sent and while the second one waits. -/
theorem ring_pipeline_sends_sample :
    ∃ s, (sampleLayout.ringInit 4 true).run (sampleRingRun.take 15) = .ok s ∧
      s.wire.Sublist (s.sent.map SendAttempt.datagram) ∧
      (s.sent.length = 1 ∧ s.enqueued.length = 2) ∧
      ∃ taken,
        s.Accounts ((sampleLayout.ringInit 4 true).dispatched (sampleRingRun.take 15)) taken ∧
        ∀ c ∈ sampleLayout.contractList, ∃ done rest head : List TickData,
          s.enqueued.filter (ofContract c) =
            (taken.filter fun p => cText p.1.instrumentID = chars c).map (sampleLayout.made c) ∧
          s.enqueued.filter (ofContract c) = done ++ rest ∧ head.length ≤ 1 ∧
          (s.queues (sampleLayout.queueOf c)).items.filter (ofContract c) = head ++ rest ∧
          s.sent.filter (fun a => ofContract c a.tick) =
            forwarded c (sampleLayout.config c) done := by
  obtain ⟨s, hrun, hwire, h⟩ := @ring_pipeline_sends 4 (by decide) sampleLayout
    (fun _ => show 8 < sizeMax by decide) true (sampleRingRun.take 15)
  have hlogs : ((sampleLayout.ringInit 4 true).run (sampleRingRun.take 15)).toOption.map
      (fun s => (s.sent.length, s.enqueued.length)) = some (1, 2) := by decide +kernel
  rw [hrun] at hlogs
  exact ⟨s, hrun, hwire, Prod.mk.inj (Option.some.inj hlogs), h⟩

end

end UltraMds
