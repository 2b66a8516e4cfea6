import UltraMds.Pipeline.Refinement
import UltraMds.Tool.SPSCRefinement

/-!
# The pipeline on the lock-free queues

The running system once more, with the queues as they are (`Rigtorp.Machine`): the feed is
somewhere in `dispatch`, inside of `try_emplace`, and a handler is somewhere in `processLoop`,
inside of `empty`, `front` or `pop`.  Loads may be late, and a send may fail, which the handler
logs and otherwise ignores.

The loop does not look at the pointer that `front` returns.  A null pointer, or a tick without a
validator, is the fault `noObject` where it is used.
-/

namespace UltraMds

open Rigtorp

/-- A packet of the feed with the time of its arrival. -/
abbrev TimedPacket := CThostFtdcDepthMarketDataField × ℤ

/-- A call of `dispatch` that is inside of `try_emplace`. -/
structure FeedCall where
  queue : ℕ
  data : CThostFtdcDepthMarketDataField
  now : ℤ
  deriving DecidableEq

/-- The state of the running system.  The logs are the packets that arrived, the ticks that were
enqueued, the sends that were attempted, and the datagrams that have left. -/
structure RingSystem where
  dispatcher : Dispatcher
  processors : ℕ → UnitProcessor
  queues : ℕ → Machine TickData
  handlers : ℕ → TickHandler
  assertions : Bool
  feed : Option FeedCall := none
  arrivals : List TimedPacket := []
  enqueued : List TickData := []
  sent : List SendAttempt := []
  wire : List (TickDataMes × Endpoint) := []

/-- One action of one thread. -/
inductive RingAction
  /-- the feed calls `dispatch(data)` at the time `now` -/
  | dispatch (data : CThostFtdcDepthMarketDataField) (now : ℤ)
  /-- the feed goes on in `try_emplace` -/
  | feed (lag : ℕ)
  /-- the thread of handler `k` goes on; `sends` tells whether a send gets through -/
  | handler (k lag : ℕ) (sends : Bool)
  deriving DecidableEq

namespace RingSystem

variable (s : RingSystem)

/-- `dispatch(data)`, up to the first load in `try_emplace`, if the feed is not in a call. -/
def callDispatch (data : CThostFtdcDepthMarketDataField) (now : ℤ) : RingSystem :=
  match s.feed with
  | some _ => s
  | none =>
    match s.dispatcher.route data with
    | none => { s with arrivals := s.arrivals ++ [(data, now)] }
    | some (queue, detector) =>
      { s with
        feed := some ⟨queue, data, now⟩
        arrivals := s.arrivals ++ [(data, now)]
        queues := Function.update s.queues queue
          ((s.queues queue).callEmplace false (TickData.construct data (some detector) now)) }

/-- The feed goes on in `try_emplace`. -/
def feedStep (lag : ℕ) : Except Fault RingSystem :=
  match s.feed with
  | none => .ok s
  | some call => do
    let m ← (s.queues call.queue).producerStep lag
    return { s with
      feed := m.producer.element.map fun _ => call
      queues := Function.update s.queues call.queue m
      enqueued := s.enqueued ++ m.added.drop (s.queues call.queue).added.length }

/-- Handler `k` goes on at another point of its loop, its queue being `m` now. -/
def move (k : ℕ) (pc : LoopPc) (m : Machine TickData) : RingSystem :=
  { s with
    handlers := Function.update s.handlers k ((s.handlers k).goto pc)
    queues := Function.update s.queues (s.handlers k).myQueueTick m }

/-- `*currentdata`, its validator, and the queue after the access. -/
def currentdata (m : Machine TickData) : Except Fault (TickData × ℕ × Machine TickData) :=
  match m.consumer with
  | .holding slot => do
    let (tick, queue) ← m.queue.deref slot
    match tick.mDetector with
    | some detector => .ok (tick, detector, { m with queue })
    | none => .error .noObject
  | _ => .error .noObject

/-- One action of the thread of handler `k`. -/
def handlerStep (k lag : ℕ) (sends : Bool) : Except Fault RingSystem :=
  let m := s.queues (s.handlers k).myQueueTick
  match (s.handlers k).myWorkerThreadTick with
  | none => .ok s
  | some .test => .ok (s.move k (if (s.handlers k).myRunning then .poll else .exited) m)
  | some .poll => .ok (s.move k (if (m.queue.empty lag).1 then .test else .front) (m.callEmpty lag))
  | some .front =>
    match m.consumer with
    | .reload _ => .ok (s.move k .handle (m.consumerStep lag))
    | _ =>
      match m.callFront.consumer with
      | .reload _ => .ok (s.move k .front m.callFront)
      | _ => .ok (s.move k .handle m.callFront)
  | some .handle => do
    let (tick, detector, m) ← currentdata m
    let (valid, processor) := (s.processors detector).validate tick
    return { s.move k (if valid then .send else .pop) m with
      processors := Function.update s.processors detector processor }
  | some .send => do
    let (tick, detector, m) ← currentdata m
    let attempt := sendMessage (s.processors detector) tick
    return { s.move k .pop m with
      sent := s.sent ++ [attempt]
      wire := if sends then s.wire ++ [attempt.datagram] else s.wire }
  | some .pop =>
    match m.consumer with
    | .store _ => .ok (s.move k .test (m.consumerStep lag))
    | .holding _ => do
      let m ← m.callPop (if s.assertions then some lag else none)
      return s.move k .pop m
    | _ => .error .assertion
  | some .exited => .ok s

/-- One step of the system. -/
def step (s : RingSystem) : RingAction → Except Fault RingSystem
  | .dispatch data now => .ok (s.callDispatch data now)
  | .feed lag => s.feedStep lag
  | .handler k lag sends => s.handlerStep k lag sends

/-- The state after a run, or its fault. -/
abbrev run (s : RingSystem) (as : List RingAction) : Except Fault RingSystem :=
  Fallible.steps step s as

end RingSystem

/-- The pipeline before the first packet, on lock-free queues. -/
def Layout.ringInit (L : Layout) (kPadding : ℕ) (assertions : Bool) : RingSystem where
  dispatcher := L.init.dispatcher
  processors := L.init.processors
  queues k := .init kPadding (L.capacity k)
  handlers := L.init.handlers
  assertions := assertions

end UltraMds
