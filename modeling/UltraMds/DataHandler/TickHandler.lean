import Mathlib.Tactic

/-!
# Handlers

A `TickHandler` owns one queue and runs `processLoop` on it in a thread of its own.  The loop is
cut into its atomic actions (`LoopPc`); what the actions do to the queue and to the validators is
in the model of the whole pipeline.
-/

namespace UltraMds

/-- The next action of `processLoop`. -/
inductive LoopPc
  /-- `while (my_running.load(...))` -/
  | test
  /-- `if (!my_queue_Tick->empty())`, and `_mm_pause()` when it is -/
  | poll
  /-- `currentdata = my_queue_Tick->front()` -/
  | front
  /-- `Tick.m_detector->validate(Tick)` in `HandleTick(*currentdata)` -/
  | handle
  /-- `udp_sender_.SendMessage(Tick)` -/
  | send
  /-- `my_queue_Tick->pop()` -/
  | pop
  /-- the function has returned, the thread can be joined -/
  | exited
  deriving DecidableEq

/-- A handler: the pointer to its queue, the running flag, and its thread, `none` when there is
none to join. -/
structure TickHandler where
  myQueueTick : ℕ
  myRunning : Bool := false
  myWorkerThreadTick : Option LoopPc := none
  coreId : Option ℤ := none
  deriving DecidableEq

namespace TickHandler

/-- `UdpSender::initUdpMulticast()`: the text of the `std::runtime_error` that it throws when the
socket cannot be opened, `failure` being the text of that exception. -/
def initUdpMulticast (failure : Option String) : Except String Unit :=
  match failure with
  | some what => .error ("UDP multicast init failed: " ++ what)
  | none => .ok ()

/-- `TickHandler::setThreadAffinity`: the text of the `std::runtime_error` that it throws, `ret`
being the result of `pthread_setaffinity_np`. -/
def setThreadAffinity (ret : ℤ) : Except String Unit :=
  if ret ≠ 0 then .error "线程核心绑定失败" else .ok ()

/-- `TickHandler::start(core_id)`, when the thread is created and bound to its core. -/
def start (h : TickHandler) (coreId : ℤ) : TickHandler :=
  if h.myRunning then h
  else
    { h with
      myRunning := true
      myWorkerThreadTick := some .test
      coreId := some coreId }

/-- The thread goes on at another point of the loop. -/
def goto (h : TickHandler) (pc : LoopPc) : TickHandler := { h with myWorkerThreadTick := some pc }

@[simp] theorem start_myQueueTick (h : TickHandler) (coreId : ℤ) :
    (h.start coreId).myQueueTick = h.myQueueTick := by
  unfold start
  split_ifs <;> rfl

@[simp] theorem goto_myQueueTick (h : TickHandler) (pc : LoopPc) :
    (h.goto pc).myQueueTick = h.myQueueTick := rfl
@[simp] theorem goto_myRunning (h : TickHandler) (pc : LoopPc) :
    (h.goto pc).myRunning = h.myRunning := rfl
@[simp] theorem goto_myWorkerThreadTick (h : TickHandler) (pc : LoopPc) :
    (h.goto pc).myWorkerThreadTick = some pc := rfl

end TickHandler

end UltraMds
