import UltraMds.Library.Run
import UltraMds.SystemStart

/-!
# The pipeline

The running system: the thread of the feed, which dispatches packets, and the threads of the
handlers, each of which is somewhere in `processLoop`.  A step is one atomic action of one
thread; a run is a list of steps, that is, an arbitrary interleaving.

Besides the memory of the program a state keeps three logs that no step reads: the packets that
arrived, the ticks that were enqueued, and the sends that were attempted.

`Layout.init` is the state after the start for an arbitrary contract list, number of handlers and
capacities; `startHandlers_system` says that the start of the program makes such a state.
-/

namespace UltraMds

/-- A call of `SendMessage`: the tick, the message made of it, and where it goes. -/
structure SendAttempt where
  tick : TickData
  mes : TickDataMes
  endpoint : Endpoint
  deriving DecidableEq

/-- `UdpSender::SendMessage(Tick)`, the tick's validator being `detector`. -/
def sendMessage (detector : UnitProcessor) (tick : TickData) : SendAttempt :=
  { tick, mes := tick.fillProtoData {}, endpoint := detector.getMulticastEndpoint }

/-- A packet of the feed at the time `now`, and whether it met a full queue. -/
structure Arrival where
  data : CThostFtdcDepthMarketDataField
  now : ℤ
  queueFull : Bool
  deriving DecidableEq

/-- The state of the running system. -/
structure System where
  dispatcher : Dispatcher
  processors : ℕ → UnitProcessor
  queues : ℕ → SPSCQueue TickData
  handlers : ℕ → TickHandler
  arrivals : List Arrival := []
  enqueued : List TickData := []
  sent : List SendAttempt := []

/-- One action of one thread. -/
inductive Action
  /-- the feed calls `dispatch(data)` at the time `now` -/
  | dispatch (data : CThostFtdcDepthMarketDataField) (now : ℤ)
  /-- the thread of handler `k` goes on -/
  | handler (k : ℕ)
  deriving DecidableEq

namespace System

/-! ### The steps -/

/-- The tick that a packet becomes, when its contract is bound and its queue has room. -/
def stored (s : System) (data : CThostFtdcDepthMarketDataField) (now : ℤ) : Option TickData := do
  let (queue, detector) ← s.dispatcher.route data
  let tick := TickData.construct data (some detector) now
  if ((s.queues queue).tryPush tick).1 then some tick else none

/-- The contract of the packet is bound to a queue without room. -/
def meetsFullQueue (s : System) (data : CThostFtdcDepthMarketDataField) : Bool :=
  (s.dispatcher.route data).any fun target => (s.queues target.1).isFull

def dispatchStep (s : System) (data : CThostFtdcDepthMarketDataField) (now : ℤ) : System :=
  { s with
    queues := s.dispatcher.dispatch s.queues data now
    arrivals := s.arrivals ++ [⟨data, now, s.meetsFullQueue data⟩]
    enqueued := s.enqueued ++ (s.stored data now).toList }

/-- The queue of handler `k`. -/
def queueOf (s : System) (k : ℕ) : SPSCQueue TickData := s.queues (s.handlers k).myQueueTick

/-- `*currentdata` and the pointer to its validator, for handler `k`. -/
def current (s : System) (k : ℕ) : Option (TickData × ℕ) := do
  let tick ← (s.queueOf k).front
  let detector ← tick.mDetector
  return (tick, detector)

/-- Handler `k` goes on at another point of its loop. -/
def goto (s : System) (k : ℕ) (pc : LoopPc) : System :=
  { s with handlers := Function.update s.handlers k ((s.handlers k).goto pc) }

/-- One action of the thread of handler `k`.  A tick to handle or to send is always there. -/
def handlerStep (s : System) (k : ℕ) : System :=
  match (s.handlers k).myWorkerThreadTick with
  | none => s
  | some .test => s.goto k (if (s.handlers k).myRunning then .poll else .exited)
  | some .poll => s.goto k (if (s.queueOf k).isEmpty then .test else .front)
  | some .front => s.goto k .handle
  | some .handle =>
    match s.current k with
    | some (tick, detector) =>
      let (valid, processor) := (s.processors detector).validate tick
      { s.goto k (if valid then .send else .pop) with
        processors := Function.update s.processors detector processor }
    | none => s
  | some .send =>
    match s.current k with
    | some (tick, detector) =>
      { s.goto k .pop with sent := s.sent ++ [sendMessage (s.processors detector) tick] }
    | none => s
  | some .pop =>
    { s.goto k .test with
      queues := Function.update s.queues (s.handlers k).myQueueTick (s.queueOf k).pop }
  | some .exited => s

/-- One step of the system. -/
def step (s : System) : Action → System
  | .dispatch data now => s.dispatchStep data now
  | .handler k => s.handlerStep k

/-- The state after a run. -/
abbrev run (s : System) (as : List Action) : System := Run.run step s as

section

variable (s : System) (data : CThostFtdcDepthMarketDataField) (now : ℤ) (k : ℕ) (pc : LoopPc)

@[simp] theorem dispatchStep_dispatcher :
    (s.dispatchStep data now).dispatcher = s.dispatcher := rfl
@[simp] theorem dispatchStep_processors :
    (s.dispatchStep data now).processors = s.processors := rfl
@[simp] theorem dispatchStep_handlers : (s.dispatchStep data now).handlers = s.handlers := rfl
@[simp] theorem dispatchStep_sent : (s.dispatchStep data now).sent = s.sent := rfl
@[simp] theorem goto_dispatcher : (s.goto k pc).dispatcher = s.dispatcher := rfl
@[simp] theorem goto_processors : (s.goto k pc).processors = s.processors := rfl
@[simp] theorem goto_queues : (s.goto k pc).queues = s.queues := rfl
@[simp] theorem goto_enqueued : (s.goto k pc).enqueued = s.enqueued := rfl
@[simp] theorem goto_sent : (s.goto k pc).sent = s.sent := rfl

@[simp] theorem goto_worker (j : ℕ) :
    ((s.goto k pc).handlers j).myWorkerThreadTick =
      if j = k then some pc else (s.handlers j).myWorkerThreadTick := by
  show (Function.update s.handlers k _ j).myWorkerThreadTick = _
  split_ifs with hj
  · rw [hj, Function.update_self]
    rfl
  · rw [Function.update_of_ne hj]

theorem goto_worker_self : ((s.goto k pc).handlers k).myWorkerThreadTick = some pc := by
  rw [goto_worker, if_pos rfl]

@[simp] theorem goto_myRunning (j : ℕ) :
    ((s.goto k pc).handlers j).myRunning = (s.handlers j).myRunning := by
  show (Function.update s.handlers k _ j).myRunning = _
  by_cases hj : j = k
  · rw [hj, Function.update_self]
    rfl
  · rw [Function.update_of_ne hj]

@[simp] theorem goto_myQueueTick (j : ℕ) :
    ((s.goto k pc).handlers j).myQueueTick = (s.handlers j).myQueueTick := by
  show (Function.update s.handlers k _ j).myQueueTick = _
  by_cases hj : j = k
  · rw [hj, Function.update_self]
    rfl
  · rw [Function.update_of_ne hj]

end

end System

/-! ### The start -/

/-- What the start of the pipeline depends on. -/
structure Layout where
  contractList : List String
  config : String → SpecialConfig
  threads : ℕ
  threads_pos : 0 < threads
  capacity : ℕ → ℕ
  core : ℕ → ℤ

/-- The pipeline before the first packet: fresh validators, empty queues, and all handlers
started. -/
def Layout.init (L : Layout) : System where
  dispatcher := Dispatcher.forContracts L.contractList L.config L.threads
  processors := Dispatcher.heapOf (Dispatcher.freshProcessors L.contractList L.config)
  queues k := SPSCQueue.construct TickData (L.capacity k)
  handlers k :=
    if k < L.threads then TickHandler.start { myQueueTick := k } (L.core k)
    else { myQueueTick := k }

/-- The memory of the started program. -/
def Started.system (s : Started) : System where
  dispatcher := s.dispatcher
  processors := Dispatcher.heapOf s.unitProcessors
  queues k := s.tickQueues.getD k (SPSCQueue.construct TickData 1)
  handlers k := s.tickHandlers.getD k { myQueueTick := k }

/-- The layout of the program for a contract list and a number of processors. -/
def layoutOf (contractList : List String) (config : String → SpecialConfig) (sysconf : ℤ) :
    Layout where
  contractList := contractList
  config := config
  threads := threadNum sysconf contractList.length
  threads_pos := threadNum_pos sysconf contractList.length
  capacity k :=
    if k < threadNum sysconf contractList.length then
      (multisize sysconf contractList.length * maxTickQueueSize).toNat
    else 1
  core k := getBizCoreId k (cpuCount sysconf)

theorem getD_map_range {α : Type*} (f : ℕ → α) (n k : ℕ) (d : α) :
    ((List.range n).map f).getD k d = if k < n then f k else d := by
  rw [List.getD_eq_getElem?_getD, List.getElem?_map]
  split_ifs with hk
  · rw [List.getElem?_range hk]
    rfl
  · rw [List.getElem?_eq_none (by simpa using hk)]
    rfl

/-- **The program starts as a pipeline**: what `HandlerAndDispatcherStart` leaves behind is the
start of a layout. -/
theorem startHandlers_system (contractList : List String) (config : String → SpecialConfig)
    (sysconf : ℤ) :
    (startHandlers contractList config sysconf).system =
      (layoutOf contractList config sysconf).init := by
  unfold Started.system Layout.init
  rw [startHandlers_dispatcher]
  congr 1
  · funext k
    refine (getD_map_range _ _ k _).trans ?_
    show _ = SPSCQueue.construct TickData (if k < _ then _ else 1)
    split_ifs <;> rfl
  · funext k
    exact getD_map_range _ _ k _

end UltraMds
