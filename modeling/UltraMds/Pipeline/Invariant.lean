import UltraMds.Pipeline.System

/-!
# What the steps of the pipeline do

`Wf` is the structural invariant: the routing table is the one of the layout, handler `k` works on
queue `k`, every queued tick carries the validator of its contract and is in the queue of that
contract, and a handler past its `empty()` test has a tick.

Under `Wf` the handler's steps are those of `HandlerStep`, and everything that follows is derived
from it by cases.
-/

namespace UltraMds

/-- Between the `empty()` test that found a tick and the `pop()` that removes it. -/
def LoopPc.busy : LoopPc → Bool
  | .front => true
  | .handle => true
  | .send => true
  | .pop => true
  | _ => false

namespace Layout

variable (L : Layout)

/-- The position of the validator of a contract. -/
def detectorOf (c : String) : ℕ := L.contractList.idxOf c

/-- The queue of a contract. -/
def queueOf (c : String) : ℕ := L.detectorOf c % L.threads

/-- The tick belongs to the contract `c` and carries its validator. -/
structure BelongsTo (t : TickData) (c : String) : Prop where
  mem : c ∈ L.contractList
  name : chars c = cText t.instrumentID
  detector : t.mDetector = some (L.detectorOf c)

/-- Different contracts have different validators. -/
theorem detectorOf_inj {c c' : String} (hc : c ∈ L.contractList)
    (h : L.detectorOf c = L.detectorOf c') : c = c' :=
  (List.idxOf_inj hc).1 h

theorem init_processors {c : String} (hc : c ∈ L.contractList) :
    L.init.processors (L.detectorOf c) = UnitProcessor.fresh c (L.config c) :=
  Dispatcher.heapOf_idxOf hc

theorem init_items (k : ℕ) : (L.init.queues k).items = [] :=
  SPSCQueue.construct_items TickData (L.capacity k)

theorem init_worker (k : ℕ) :
    (L.init.handlers k).myWorkerThreadTick = if k < L.threads then some .test else none := by
  show (if k < L.threads then _ else _ : TickHandler).myWorkerThreadTick = _
  split_ifs <;> rfl

end Layout

/-- The structural invariant of the pipeline. -/
structure Wf (L : Layout) (s : System) : Prop where
  dispatcher : s.dispatcher = Dispatcher.forContracts L.contractList L.config L.threads
  handler : ∀ k, (s.handlers k).myQueueTick = k
  routed : ∀ k, ∀ t ∈ (s.queues k).items, ∃ c, L.BelongsTo t c ∧ L.queueOf c = k
  busy : ∀ k pc, (s.handlers k).myWorkerThreadTick = some pc → pc.busy = true →
    (s.queues k).items ≠ []

theorem Wf.init (L : Layout) : Wf L L.init where
  dispatcher := rfl
  handler k := by
    show (if k < L.threads then _ else _ : TickHandler).myQueueTick = k
    split_ifs <;> rfl
  routed k t ht := by
    rw [L.init_items] at ht
    cases ht
  busy k pc hpc hbusy := by
    rw [L.init_worker] at hpc
    split_ifs at hpc
    cases hpc
    cases hbusy

/-- A step of handler `k`, with what the state lets it do. -/
inductive HandlerStep (L : Layout) (s : System) (k : ℕ) : System → Prop
  /-- there is no thread, or it has left the loop -/
  | stay (hpc : (s.handlers k).myWorkerThreadTick = none ∨
      (s.handlers k).myWorkerThreadTick = some .exited) : HandlerStep L s k s
  | test (hpc : (s.handlers k).myWorkerThreadTick = some .test) :
      HandlerStep L s k (s.goto k (if (s.handlers k).myRunning then .poll else .exited))
  | poll (hpc : (s.handlers k).myWorkerThreadTick = some .poll) :
      HandlerStep L s k (s.goto k (if (s.queues k).isEmpty then .test else .front))
  | front (hpc : (s.handlers k).myWorkerThreadTick = some .front) :
      HandlerStep L s k (s.goto k .handle)
  | handle (hpc : (s.handlers k).myWorkerThreadTick = some .handle) {tick : TickData}
      {rest : List TickData} (hitems : (s.queues k).items = tick :: rest) {c : String}
      (hc : L.BelongsTo tick c) (hk : L.queueOf c = k) :
      HandlerStep L s k
        { s.goto k (if ((s.processors (L.detectorOf c)).validate tick).1 then .send else .pop) with
          processors := Function.update s.processors (L.detectorOf c)
            ((s.processors (L.detectorOf c)).validate tick).2 }
  | send (hpc : (s.handlers k).myWorkerThreadTick = some .send) {tick : TickData}
      {rest : List TickData} (hitems : (s.queues k).items = tick :: rest) {c : String}
      (hc : L.BelongsTo tick c) (hk : L.queueOf c = k) :
      HandlerStep L s k
        { s.goto k .pop with
          sent := s.sent ++ [sendMessage (s.processors (L.detectorOf c)) tick] }
  | pop (hpc : (s.handlers k).myWorkerThreadTick = some .pop) {tick : TickData}
      {rest : List TickData} (hitems : (s.queues k).items = tick :: rest) :
      HandlerStep L s k
        { s.goto k .test with queues := Function.update s.queues k (s.queues k).pop }

namespace Wf

variable {L : Layout} {s : System}

theorem queueOf_eq (h : Wf L s) (k : ℕ) : s.queueOf k = s.queues k := by
  rw [System.queueOf, h.handler]

/-- A busy handler has a tick of some contract. -/
theorem exists_head (h : Wf L s) {k : ℕ} {pc : LoopPc}
    (hpc : (s.handlers k).myWorkerThreadTick = some pc) (hbusy : pc.busy = true) :
    ∃ tick rest c, (s.queues k).items = tick :: rest ∧ L.BelongsTo tick c ∧ L.queueOf c = k := by
  obtain ⟨tick, rest, hitems⟩ := List.exists_cons_of_ne_nil (h.busy k pc hpc hbusy)
  obtain ⟨c, hc, hk⟩ := h.routed k tick (hitems ▸ List.mem_cons_self)
  exact ⟨tick, rest, c, hitems, hc, hk⟩

theorem current_eq (h : Wf L s) {k : ℕ} {tick : TickData} {rest : List TickData} {c : String}
    (hitems : (s.queues k).items = tick :: rest) (hc : L.BelongsTo tick c) :
    s.current k = some (tick, L.detectorOf c) := by
  unfold System.current BoundedFifo.front
  rw [h.queueOf_eq, hitems]
  show tick.mDetector.bind _ = _
  rw [hc.detector]
  rfl

/-- **What a handler's step does.** -/
theorem handlerStep (h : Wf L s) (k : ℕ) : HandlerStep L s k (s.handlerStep k) := by
  unfold System.handlerStep
  cases hpc : (s.handlers k).myWorkerThreadTick with
  | none => exact .stay (.inl hpc)
  | some pc =>
    cases pc with
    | test => exact .test hpc
    | poll =>
      simp only [h.queueOf_eq]
      exact .poll hpc
    | front => exact .front hpc
    | handle =>
      obtain ⟨tick, rest, c, hitems, hc, hk⟩ := h.exists_head hpc rfl
      simp only [h.current_eq hitems hc]
      exact .handle hpc hitems hc hk
    | send =>
      obtain ⟨tick, rest, c, hitems, hc, hk⟩ := h.exists_head hpc rfl
      simp only [h.current_eq hitems hc]
      exact .send hpc hitems hc hk
    | pop =>
      obtain ⟨tick, rest, c, hitems, -⟩ := h.exists_head hpc rfl
      simp only [h.queueOf_eq, h.handler]
      exact .pop hpc hitems
    | exited => exact .stay (.inr hpc)

/-- Going on in the loop keeps the structure, if a busy handler has a tick. -/
theorem goto (h : Wf L s) (k : ℕ) {pc : LoopPc}
    (hbusy : pc.busy = true → (s.queues k).items ≠ []) : Wf L (s.goto k pc) where
  dispatcher := h.dispatcher
  handler j := (s.goto_myQueueTick k pc j).trans (h.handler j)
  routed := h.routed
  busy j pc' hpc' hbusy' := by
    rw [System.goto_worker] at hpc'
    split_ifs at hpc' with hj
    · cases hpc'
      exact hj ▸ hbusy hbusy'
    · exact h.busy j pc' hpc' hbusy'

/-- A queue may change as long as its ticks belong there and its handler is not busy without
one. -/
theorem setQueue (h : Wf L s) (k : ℕ) (q : SPSCQueue TickData)
    (hrouted : ∀ t ∈ q.items, ∃ c, L.BelongsTo t c ∧ L.queueOf c = k)
    (hbusy : ∀ pc, (s.handlers k).myWorkerThreadTick = some pc → pc.busy = true → q.items ≠ []) :
    Wf L { s with queues := Function.update s.queues k q } where
  dispatcher := h.dispatcher
  handler := h.handler
  routed j t ht := by
    replace ht : t ∈ (Function.update s.queues k q j).items := ht
    by_cases hj : j = k
    · subst hj
      rw [Function.update_self] at ht
      exact hrouted t ht
    · rw [Function.update_of_ne hj] at ht
      exact h.routed j t ht
  busy j pc hpc hb := by
    show (Function.update s.queues k q j).items ≠ []
    by_cases hj : j = k
    · subst hj
      rw [Function.update_self]
      exact hbusy pc hpc hb
    · rw [Function.update_of_ne hj]
      exact h.busy j pc hpc hb

/-- The logs and the validators are not part of the structure. -/
theorem congr {s' : System} (h : Wf L s) (hd : s'.dispatcher = s.dispatcher)
    (hq : s'.queues = s.queues) (hh : s'.handlers = s.handlers) : Wf L s' where
  dispatcher := hd.trans h.dispatcher
  handler k := by rw [hh]; exact h.handler k
  routed k t ht := h.routed k t (by rwa [hq] at ht)
  busy k pc hpc hb := by
    rw [hh] at hpc
    rw [hq]
    exact h.busy k pc hpc hb

theorem handlerStep_wf (h : Wf L s) (k : ℕ) : Wf L (s.handlerStep k) := by
  have hstep := h.handlerStep k
  generalize s.handlerStep k = s' at hstep
  cases hstep with
  | stay => exact h
  | test =>
    refine h.goto k fun hb => ?_
    split_ifs at hb <;> cases hb
  | poll =>
    refine h.goto k fun hb hnil => ?_
    rw [if_pos ((s.queues k).isEmpty_iff.2 hnil)] at hb
    cases hb
  | front hpc => exact h.goto k fun _ => h.busy k _ hpc rfl
  | handle hpc hitems =>
    refine (h.goto k fun _ => ?_).congr rfl rfl rfl
    exact h.busy k _ hpc rfl
  | send hpc hitems => exact (h.goto k fun _ => h.busy k _ hpc rfl).congr rfl rfl rfl
  | pop hpc hitems =>
    refine (h.goto k fun hb => by cases hb).setQueue k _ (fun t ht => ?_) fun pc hpc' hb => ?_
    · exact h.routed k t (List.mem_of_mem_tail ht)
    · -- the handler is back at the test of its flag
      rw [System.goto_worker_self] at hpc'
      cases hpc'
      cases hb

/-! ### Dispatch steps -/

theorem route_iff (h : Wf L s) {data : CThostFtdcDepthMarketDataField} {q p : ℕ} :
    s.dispatcher.route data = some (q, p) ↔
      ∃ c ∈ L.contractList, chars c = cText data.instrumentID ∧ q = L.queueOf c ∧
        p = L.detectorOf c := by
  rw [h.dispatcher]
  exact Dispatcher.route_forContracts_iff L.threads_pos

/-- **What a dispatch step does**: nothing to the queues, when the contract is not bound or its
queue is full; otherwise the tick goes to the end of the queue of its contract. -/
theorem dispatchStep (h : Wf L s) (data : CThostFtdcDepthMarketDataField) (now : ℤ) :
    (s.stored data now = none ∧
      (s.dispatchStep data now).queues = s.queues ∧
      ∀ c ∈ L.contractList, chars c = cText data.instrumentID → s.meetsFullQueue data = true) ∨
    ∃ c ∈ L.contractList, chars c = cText data.instrumentID ∧ s.meetsFullQueue data = false ∧
      s.stored data now = some (TickData.construct data (some (L.detectorOf c)) now) ∧
      ∃ q : SPSCQueue TickData,
        (s.dispatchStep data now).queues = Function.update s.queues (L.queueOf c) q ∧
        q.items = (s.queues (L.queueOf c)).items ++
          [TickData.construct data (some (L.detectorOf c)) now] := by
  unfold System.stored System.meetsFullQueue System.dispatchStep Dispatcher.dispatch
  cases hr : s.dispatcher.route data with
  | none =>
    refine Or.inl ⟨rfl, rfl, fun c hc hname => ?_⟩
    rw [h.route_iff.2 ⟨c, hc, hname, rfl, rfl⟩] at hr
    cases hr
  | some target =>
    obtain ⟨q, p⟩ := target
    obtain ⟨c, hc, hname, rfl, rfl⟩ := h.route_iff.1 hr
    cases hfull : (s.queues (L.queueOf c)).isFull with
    | true =>
      refine Or.inl ⟨?_, ?_, fun _ _ _ => hfull⟩
      · show (if ((s.queues (L.queueOf c)).tryPush _).1 = true then _ else _) = _
        rw [BoundedFifo.tryPush_fst, hfull]
        rfl
      · show Function.update s.queues (L.queueOf c) ((s.queues (L.queueOf c)).tryPush _).2 = _
        rw [BoundedFifo.tryPush_snd_of_full _ hfull, Function.update_eq_self]
    | false =>
      refine Or.inr ⟨c, hc, hname, hfull, ?_, _, rfl, ?_⟩
      · show (if ((s.queues (L.queueOf c)).tryPush _).1 = true then _ else _) = _
        rw [BoundedFifo.tryPush_fst, hfull]
        rfl
      · show ((s.queues (L.queueOf c)).tryPush _).2.items = _
        rw [BoundedFifo.tryPush_items, hfull]
        rfl

theorem dispatchStep_wf (h : Wf L s) (data : CThostFtdcDepthMarketDataField) (now : ℤ) :
    Wf L (s.dispatchStep data now) := by
  rcases h.dispatchStep data now with ⟨-, hq, -⟩ | ⟨c, hc, hname, -, -, q, hq, hitems⟩
  · exact h.congr rfl hq rfl
  · refine (h.setQueue (L.queueOf c) q (fun t ht => ?_) fun _ _ _ => ?_).congr rfl hq rfl
    · rw [hitems] at ht
      rcases List.mem_append.1 ht with ht | ht
      · exact h.routed _ t ht
      · rw [List.mem_singleton.1 ht]
        exact ⟨c, ⟨hc, hname, rfl⟩, rfl⟩
    · rw [hitems]
      exact List.append_ne_nil_of_right_ne_nil _ (List.cons_ne_nil _ _)

theorem step (h : Wf L s) (a : Action) : Wf L (s.step a) := by
  cases a with
  | dispatch data now => exact h.dispatchStep_wf data now
  | handler k => exact h.handlerStep_wf k

end Wf

/-- The structure holds in every reachable state. -/
theorem wf_run (L : Layout) (as : List Action) : Wf L (L.init.run as) :=
  Run.invariant (fun _ a h => h.step a) (Wf.init L) as

end UltraMds
