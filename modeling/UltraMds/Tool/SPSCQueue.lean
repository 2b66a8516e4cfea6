import UltraMds.Library.BoundedFifo
import UltraMds.Library.Fallible
import UltraMds.Library.ReleaseAcquire
import UltraMds.Library.RingIndex

/-!
# The lock-free queue

`rigtorp::SPSCQueue`: a ring of slots, the two atomic indices, and for each of them the copy that
the other side keeps.  One thread calls `emplace` and `try_emplace`, one thread `front`, `pop`,
`empty` and `size`; `Machine.step` cuts the calls into their accesses to shared memory.  A load
with acquire order may be late (`Published.pick`).

What the language leaves undefined is a `Fault`: an access outside of the slots, the construction
of an object over a living one, the use of an object that is not there, an access that races with
one of the other thread, and the failure of the assertion in `pop`.

The consumer is a client that calls `pop` only after `front` has returned a pointer, which is what
the assertion asks for.
-/

namespace UltraMds

namespace Rigtorp

/-- `SIZE_MAX`. -/
def sizeMax : ℕ := 2 ^ 64 - 1

inductive Thread
  | producer
  | consumer
  deriving DecidableEq

/-- What a step can do that the language does not define. -/
inductive Fault
  | outOfBounds
  | overLiving
  | noObject
  | race
  | assertion
  deriving DecidableEq

/-- Memory for one element: the object in it, if there is one, and the last access to it, with
the number of stores that the accessing thread had made by then. -/
structure Slot (α : Type) where
  object : Option α := none
  lastAccess : Option (Thread × ℕ) := none

/-- The members.  `capacity` counts one element more than fits. -/
structure SPSCQueue (α : Type) where
  capacity : ℕ
  kPadding : ℕ
  slots : List (Slot α)
  writeIdx : Published ℕ := .init 0
  readIdxCache : ℕ := 0
  readIdx : Published ℕ := .init 0
  writeIdxCache : ℕ := 0

/-- `capacity_` after the body of the constructor. -/
def constructCapacity (kPadding capacity : ℕ) : ℕ :=
  let capacity := if capacity < 1 then 1 else capacity
  let capacity := (capacity + 1) % (sizeMax + 1)
  if capacity > sizeMax - 2 * kPadding then sizeMax - 2 * kPadding else capacity

namespace SPSCQueue

variable {α : Type}

/-- The constructor `SPSCQueue(capacity)`. -/
def construct (kPadding capacity : ℕ) : SPSCQueue α :=
  let capacity := constructCapacity kPadding capacity
  { capacity, kPadding, slots := List.replicate (capacity + 2 * kPadding) {} }

variable (q : SPSCQueue α)

/-- An earlier access happens before what the thread does now. -/
def happensBefore : Thread → Thread × ℕ → Bool
  | .producer, (.producer, _) => true
  | .producer, (.consumer, c) => q.readIdx.synced c
  | .consumer, (.producer, c) => q.writeIdx.synced c
  | .consumer, (.consumer, _) => true

/-- The number of stores that a thread has made. -/
def clock : Thread → ℕ
  | .producer => q.writeIdx.stamp
  | .consumer => q.readIdx.stamp

/-- What is in `slots_[i + kPadding]`, for a thread that accesses it now. -/
def access (t : Thread) (i : ℕ) : Except Fault (Option α) :=
  match q.slots[i + q.kPadding]? with
  | none => .error .outOfBounds
  | some slot => if slot.lastAccess.all (q.happensBefore t) then .ok slot.object else .error .race

/-- `slots_[i + kPadding]` after an access. -/
def touch (t : Thread) (i : ℕ) (object : Option α) : SPSCQueue α :=
  { q with slots := q.slots.set (i + q.kPadding) ⟨object, some (t, q.clock t)⟩ }

/-- `new (&slots_[i + kPadding]) T(x)`. -/
def placeNew (i : ℕ) (x : α) : Except Fault (SPSCQueue α) := do
  match ← q.access .producer i with
  | none => .ok (q.touch .producer i (some x))
  | some _ => .error .overLiving

/-- The object that a pointer to `slots_[i + kPadding]` points at. -/
def deref (i : ℕ) : Except Fault (α × SPSCQueue α) := do
  match ← q.access .consumer i with
  | some x => .ok (x, q.touch .consumer i (some x))
  | none => .error .noObject

/-- `slots_[i + kPadding].~T()`, with the object that is gone. -/
def destroy (i : ℕ) : Except Fault (α × SPSCQueue α) := do
  match ← q.access .consumer i with
  | some x => .ok (x, q.touch .consumer i none)
  | none => .error .noObject

/-- The assertion in `pop` that the queue is not empty, which has a load of its own; `none` when it
is compiled out. -/
def assertNotEmpty : Option ℕ → Except Fault (SPSCQueue α)
  | none => .ok q
  | some lag =>
    let (writeIdx, published) := q.writeIdx.acquire lag
    if writeIdx = q.readIdx.newest then .error .assertion
    else .ok { q with writeIdx := published }

/-- `capacity()`. -/
def getCapacity : ℕ := q.capacity - 1

/-- `empty()`, called by the consumer. -/
def empty (lag : ℕ) : Bool × SPSCQueue α :=
  let (writeIdx, published) := q.writeIdx.acquire lag
  (writeIdx == q.readIdx.newest, { q with writeIdx := published })

/-- `size()`, called by the consumer. -/
def size (lag : ℕ) : ℤ × SPSCQueue α :=
  let (writeIdx, published) := q.writeIdx.acquire lag
  let diff := (writeIdx : ℤ) - q.readIdx.newest
  (if diff < 0 then diff + q.capacity else diff, { q with writeIdx := published })

end SPSCQueue

/-! ### The two threads -/

/-- Where the producer is: outside of a call, before the load of `readIdx_`, before the
construction of the element, or before the store to `writeIdx_`. -/
inductive ProducerPc (α : Type)
  | idle
  | reload (blocking : Bool) (x : α) (writeIdx nextWriteIdx : ℕ)
  | construct (x : α) (writeIdx nextWriteIdx : ℕ)
  | store (x : α) (nextWriteIdx : ℕ)

/-- Where the consumer is: outside of a call, in `front` before the load of `writeIdx_`, outside
of a call with a pointer to a slot, or in `pop` before the store to `readIdx_`. -/
inductive ConsumerPc
  | idle
  | reload (readIdx : ℕ)
  | holding (slot : ℕ)
  | store (nextReadIdx : ℕ)
  deriving DecidableEq

/-- A queue and its two threads, with logs that no step reads: the elements that were added and
refused, and those that were destroyed. -/
structure Machine (α : Type) where
  queue : SPSCQueue α
  producer : ProducerPc α := .idle
  consumer : ConsumerPc := .idle
  added : List α := []
  refused : List α := []
  destroyed : List α := []

namespace Machine

variable {α : Type} (m : Machine α)

/-- The queue after its construction. -/
def init (kPadding capacity : ℕ) : Machine α := { queue := .construct kPadding capacity }

/-- The producer calls `emplace(x)`, if `blocking`, or `try_emplace(x)`, and comes as far as the
comparison with its copy of the other index. -/
def callEmplace (blocking : Bool) (x : α) : Machine α :=
  match m.producer with
  | .idle =>
    let writeIdx := m.queue.writeIdx.newest
    let nextWriteIdx := RingIndex.advance m.queue.capacity writeIdx
    { m with
      producer :=
        if nextWriteIdx = m.queue.readIdxCache then .reload blocking x writeIdx nextWriteIdx
        else .construct x writeIdx nextWriteIdx }
  | _ => m

/-- The producer goes on with its call.  `emplace` loads the index again until it has moved,
`try_emplace` gives up. -/
def producerStep (lag : ℕ) : Except Fault (Machine α) :=
  match m.producer with
  | .idle => .ok m
  | .reload blocking x writeIdx nextWriteIdx =>
    let (idx, published) := m.queue.readIdx.acquire lag
    let queue := { m.queue with readIdx := published, readIdxCache := idx }
    if nextWriteIdx = idx then
      if blocking then .ok { m with queue }
      else .ok { m with queue, producer := .idle, refused := m.refused ++ [x] }
    else .ok { m with queue, producer := .construct x writeIdx nextWriteIdx }
  | .construct x writeIdx nextWriteIdx => do
    let queue ← m.queue.placeNew writeIdx x
    return { m with queue, producer := .store x nextWriteIdx }
  | .store x nextWriteIdx =>
    .ok { m with
      queue := { m.queue with writeIdx := m.queue.writeIdx.store nextWriteIdx }
      producer := .idle
      added := m.added ++ [x] }

/-- The consumer is not inside of a call. -/
def consumerFree : Bool :=
  match m.consumer with
  | .idle => true
  | .holding _ => true
  | _ => false

/-- The consumer calls `empty()` or `size()`. -/
def callEmpty (lag : ℕ) : Machine α :=
  if m.consumerFree then { m with queue := (m.queue.empty lag).2 } else m

/-- The consumer calls `front()` and comes as far as the comparison with its copy of the other
index. -/
def callFront : Machine α :=
  if m.consumerFree then
    let readIdx := m.queue.readIdx.newest
    { m with
      consumer := if readIdx = m.queue.writeIdxCache then .reload readIdx else .holding readIdx }
  else m

/-- The consumer uses the object that it holds a pointer to. -/
def use : Except Fault (Machine α) :=
  match m.consumer with
  | .holding slot => do
    let (_, queue) ← m.queue.deref slot
    return { m with queue }
  | _ => .ok m

/-- The consumer calls `pop()`, if it holds a pointer, and comes as far as the store. -/
def callPop (lag : Option ℕ) : Except Fault (Machine α) :=
  match m.consumer with
  | .holding _ => do
    let readIdx := m.queue.readIdx.newest
    let queue ← m.queue.assertNotEmpty lag
    let (x, queue) ← queue.destroy readIdx
    return { m with
      queue
      consumer := .store (RingIndex.advance m.queue.capacity readIdx)
      destroyed := m.destroyed ++ [x] }
  | _ => .ok m

/-- The consumer goes on with its call. -/
def consumerStep (lag : ℕ) : Machine α :=
  match m.consumer with
  | .reload readIdx =>
    let (idx, published) := m.queue.writeIdx.acquire lag
    { m with
      queue := { m.queue with writeIdx := published, writeIdxCache := idx }
      consumer := if idx = readIdx then .idle else .holding readIdx }
  | .store nextReadIdx =>
    { m with
      queue := { m.queue with readIdx := m.queue.readIdx.store nextReadIdx }
      consumer := .idle }
  | _ => m

/-- One step of one of the threads. -/
inductive Event (α : Type)
  | emplace (blocking : Bool) (x : α)
  | producer (lag : ℕ)
  | empty (lag : ℕ)
  | front
  | use
  | pop (lag : Option ℕ)
  | consumer (lag : ℕ)

def step (m : Machine α) : Event α → Except Fault (Machine α)
  | .emplace blocking x => .ok (m.callEmplace blocking x)
  | .producer lag => m.producerStep lag
  | .empty lag => .ok (m.callEmpty lag)
  | .front => .ok m.callFront
  | .use => m.use
  | .pop lag => m.callPop lag
  | .consumer lag => .ok (m.consumerStep lag)

/-- The loop `while (front()) pop();` of the destructor, in a thread that has seen everything;
`none` when it has not ended after `fuel` iterations. -/
def destruct : ℕ → Machine α → Except Fault (Option (Machine α))
  | 0, _ => .ok none
  | fuel + 1, m =>
    let m := m.callFront.consumerStep 0
    match m.consumer with
    | .holding _ => do
      let m ← m.callPop (some 0)
      destruct fuel (m.consumerStep 0)
    | _ => .ok (some m)

/-- The state after a run, or its fault. -/
abbrev run (m : Machine α) (es : List (Event α)) : Except Fault (Machine α) :=
  Fallible.steps step m es

end Machine

end Rigtorp

end UltraMds
