import UltraMds.Pipeline.Invariant

/-!
# The life of a handler

A handler is started and stopped in any order by one thread, which destroys it in the end, while
the handler's own thread runs `processLoop`.  `TickHandler::stop` releases the queue, and the
destructor calls it once more.

`Lawful` says that the queue is released exactly once, after the loop; `lawful_iff` that this is
so when `stop` is left to the destructor, and never otherwise.  The handlers of the pipeline are
such handlers (`pipeline_handler_lives`).
-/

namespace UltraMds

/-! ### The loop of one handler -/

/-- The next action of `processLoop`, when `empty()` or `validate(...)` answers `answer`. -/
def LoopPc.next (running answer : Bool) : LoopPc → LoopPc
  | .test => if running then .poll else .exited
  | .poll => if answer then .test else .front
  | .front => .handle
  | .handle => if answer then .send else .pop
  | .send => .pop
  | .pop => .test
  | .exited => .exited

namespace TickHandler

/-- The thread of the handler takes one action. -/
def work (h : TickHandler) (answer : Bool) : TickHandler :=
  match h.myWorkerThreadTick with
  | none => h
  | some pc => h.goto (pc.next h.myRunning answer)

/-- The thread is in `processLoop`. -/
def loopActive (h : TickHandler) : Bool :=
  match h.myWorkerThreadTick with
  | none => false
  | some pc => pc != .exited

@[simp] theorem work_myRunning (h : TickHandler) (answer : Bool) :
    (h.work answer).myRunning = h.myRunning := by
  unfold work
  cases h.myWorkerThreadTick <;> rfl

/-- A thread that has left the loop does not come back. -/
theorem work_of_idle {h : TickHandler} (hidle : h.loopActive = false) (answer : Bool) :
    (h.work answer).loopActive = false := by
  unfold loopActive work at *
  cases hpc : h.myWorkerThreadTick with
  | none => rw [hpc]
  | some pc =>
    rw [hpc] at hidle
    cases pc <;> first | rfl | cases hidle

end TickHandler

/-! ### Starting, stopping and destroying -/

/-- A call of the public interface. -/
inductive HandlerCall
  | start (coreId : ℤ)
  | stop
  deriving DecidableEq

/-- What the calling thread does: `start` as a whole, or one statement of `stop`. -/
inductive Statement
  | start (coreId : ℤ)
  /-- `my_running = false` -/
  | clear
  /-- `if (my_worker_thread_Tick.joinable()) my_worker_thread_Tick.join()` -/
  | join
  /-- `delete my_queue_Tick` -/
  | release
  deriving DecidableEq

/-- The statements of a call. -/
def HandlerCall.statements : HandlerCall → List Statement
  | .start coreId => [.start coreId]
  | .stop => [.clear, .join, .release]

/-- The calls of a program and, at the end, the destructor, which calls `stop`. -/
def program (calls : List HandlerCall) : List Statement :=
  (calls ++ [HandlerCall.stop]).flatMap HandlerCall.statements

/-- A handler, how many times its queue has been released, and what is still to be done. -/
structure Lifecycle where
  handler : TickHandler
  released : ℕ := 0
  todo : List Statement

/-- A step of the calling thread or of the handler's own. -/
inductive LifeEvent
  | caller
  | worker (answer : Bool)
  deriving DecidableEq

namespace Lifecycle

/-- A handler constructed with the given queue. -/
def init (queue : ℕ) (calls : List HandlerCall) : Lifecycle where
  handler := { myQueueTick := queue }
  todo := program calls

/-- The calling thread takes its next statement; a join waits for the end of the loop. -/
def callerStep (s : Lifecycle) : Lifecycle :=
  match s.todo with
  | [] => s
  | .start coreId :: rest => { s with handler := s.handler.start coreId, todo := rest }
  | .clear :: rest => { s with handler := { s.handler with myRunning := false }, todo := rest }
  | .join :: rest =>
    if s.handler.loopActive then s
    else { s with handler := { s.handler with myWorkerThreadTick := none }, todo := rest }
  | .release :: rest => { s with released := s.released + 1, todo := rest }

def step (s : Lifecycle) : LifeEvent → Lifecycle
  | .caller => s.callerStep
  | .worker answer => { s with handler := s.handler.work answer }

/-- The state after a run. -/
abbrev run (s : Lifecycle) (es : List LifeEvent) : Lifecycle := Run.run step s es

/-- The life of a handler under the given calls is as it should be: all along it, the queue is
released once at the most, and not before the loop has ended for good; the destructor can always
be reached and left, and after it the queue has been released. -/
structure Lawful (queue : ℕ) (calls : List HandlerCall) : Prop where
  atMostOnce : ∀ es, ((init queue calls).run es).released ≤ 1
  afterLoop : ∀ es, 0 < ((init queue calls).run es).released →
    ((init queue calls).run es).handler.loopActive = false
  ends : ∀ es, ∃ es', ((init queue calls).run (es ++ es')).todo = []
  once : ∀ es, ((init queue calls).run es).todo = [] → ((init queue calls).run es).released = 1

/-! ### The ledger of releases -/

/-- The releases done and still to do. -/
def ledger (s : Lifecycle) : ℕ := s.released + s.todo.count .release

theorem ledger_step (s : Lifecycle) (e : LifeEvent) : (s.step e).ledger = s.ledger := by
  cases e with
  | worker answer => rfl
  | caller =>
    show s.callerStep.ledger = s.ledger
    unfold callerStep
    split
    · rfl
    · rename_i coreId rest htodo
      simp [ledger, htodo]
    · rename_i rest htodo
      simp [ledger, htodo]
    · rename_i rest htodo
      split_ifs
      · rfl
      · simp [ledger, htodo]
    · rename_i rest htodo
      simp only [ledger, htodo, List.count_cons_self]
      omega

theorem count_release_program (calls : List HandlerCall) :
    (program calls).count .release = calls.count .stop + 1 := by
  have hcount : ∀ cs : List HandlerCall,
      (cs.flatMap HandlerCall.statements).count .release = cs.count .stop := by
    intro cs
    induction cs with
    | nil => rfl
    | cons c cs ih =>
      rw [List.flatMap_cons, List.count_append, ih, List.count_cons]
      cases c with
      | start coreId =>
        have hnot : List.count Statement.release [Statement.start coreId] = 0 := by simp
        simp [HandlerCall.statements, hnot]
      | stop => simp [HandlerCall.statements, Nat.add_comm]
  rw [program, hcount, List.count_append]
  rfl

/-- Every call of `stop` and the destructor release the queue. -/
theorem ledger_run (queue : ℕ) (calls : List HandlerCall) (es : List LifeEvent) :
    ((init queue calls).run es).ledger = calls.count .stop + 1 := by
  have hinit : (init queue calls).ledger = calls.count .stop + 1 := by
    show 0 + (program calls).count .release = _
    rw [count_release_program, Nat.zero_add]
  exact Run.invariant (I := fun s : Lifecycle => s.ledger = calls.count .stop + 1)
    (fun s e hs => (ledger_step s e).trans hs) hinit es

/-! ### The destructor returns -/

/-- Where the calling thread is: between two calls, or inside `stop`. -/
inductive Phase (s : Lifecycle) : Prop
  | between (calls : List HandlerCall)
      (htodo : s.todo = calls.flatMap HandlerCall.statements)
  | joining (calls : List HandlerCall)
      (htodo : s.todo = .join :: .release :: calls.flatMap HandlerCall.statements)
      (hflag : s.handler.myRunning = false)
  | releasing (calls : List HandlerCall)
      (htodo : s.todo = .release :: calls.flatMap HandlerCall.statements)

theorem Phase.callerStep {s : Lifecycle} (h : Phase s) : Phase s.callerStep := by
  unfold Lifecycle.callerStep
  cases h with
  | between calls htodo =>
    cases calls with
    | nil =>
      rw [htodo]
      exact .between [] htodo
    | cons c calls =>
      cases c with
      | start coreId =>
        rw [htodo]
        exact .between calls rfl
      | stop =>
        rw [htodo]
        exact .joining calls rfl rfl
  | joining calls htodo hflag =>
    rw [htodo]
    simp only
    split_ifs
    · exact .joining calls htodo hflag
    · exact .releasing calls rfl
  | releasing calls htodo =>
    rw [htodo]
    exact .between calls rfl

theorem Phase.step {s : Lifecycle} (h : Phase s) (e : LifeEvent) : Phase (s.step e) := by
  cases e with
  | caller => exact h.callerStep
  | worker answer =>
    cases h with
    | between calls htodo => exact .between calls htodo
    | joining calls htodo hflag =>
      exact .joining calls htodo ((TickHandler.work_myRunning _ _).trans hflag)
    | releasing calls htodo => exact .releasing calls htodo

theorem phase_run (queue : ℕ) (calls : List HandlerCall) (es : List LifeEvent) :
    Phase ((init queue calls).run es) :=
  Run.invariant (fun _ e h => h.step e) (.between (calls ++ [.stop]) rfl) es

/-- Told to stop, the loop ends with its current iteration. -/
theorem loop_ends (s : Lifecycle) (hflag : s.handler.myRunning = false) :
    (s.run (List.replicate 5 (.worker false))).handler.loopActive = false ∧
      (s.run (List.replicate 5 (.worker false))).todo = s.todo := by
  refine ⟨?_, rfl⟩
  obtain ⟨⟨queue, running, worker, coreId⟩, released, todo⟩ := s
  cases hflag
  cases worker with
  | none => rfl
  | some pc => cases pc <;> rfl

/-- The calling thread always gets on. -/
theorem Phase.exists_shorter {s : Lifecycle} (h : Phase s) (hne : s.todo ≠ []) :
    ∃ es, (s.run es).todo.length < s.todo.length := by
  cases h with
  | between calls htodo =>
    refine ⟨[.caller], ?_⟩
    show s.callerStep.todo.length < s.todo.length
    unfold Lifecycle.callerStep
    cases calls with
    | nil => exact absurd htodo hne
    | cons c calls => cases c <;> simp [htodo, HandlerCall.statements]
  | joining calls htodo hflag =>
    -- the join waits for the end of the loop
    obtain ⟨hidle, hsame⟩ := s.loop_ends hflag
    refine ⟨List.replicate 5 (.worker false) ++ [.caller], ?_⟩
    rw [Lifecycle.run, Run.run_concat]
    show (Lifecycle.callerStep (s.run _)).todo.length < s.todo.length
    generalize s.run _ = s' at hidle hsame
    rw [htodo] at hsame ⊢
    unfold Lifecycle.callerStep
    simp [hsame, hidle]
  | releasing calls htodo =>
    refine ⟨[.caller], ?_⟩
    show s.callerStep.todo.length < s.todo.length
    unfold Lifecycle.callerStep
    simp [htodo]

/-- **The destructor returns**, after any calls and from any state on the way. -/
theorem Phase.exists_end {s : Lifecycle} (h : Phase s) : ∃ es, (s.run es).todo = [] := by
  induction hn : s.todo.length using Nat.strong_induction_on generalizing s with
  | _ n ih =>
    by_cases hne : s.todo = []
    · exact ⟨[], hne⟩
    · obtain ⟨es, hshort⟩ := h.exists_shorter hne
      have hphase : Phase (s.run es) := Run.invariant (fun _ e h => h.step e) h es
      obtain ⟨es', hend⟩ := ih _ (hn ▸ hshort) hphase rfl
      refine ⟨es ++ es', ?_⟩
      rw [Lifecycle.run, Run.run_append]
      exact hend

theorem exists_end (queue : ℕ) (calls : List HandlerCall) (es : List LifeEvent) :
    ∃ es', ((init queue calls).run (es ++ es')).todo = [] := by
  obtain ⟨es', hend⟩ := (phase_run queue calls es).exists_end
  refine ⟨es', ?_⟩
  rw [Lifecycle.run, Run.run_append]
  exact hend

/-! ### Lives without a call of `stop` -/

/-- The phases of a life in which only the destructor calls `stop`. -/
inductive StopFree (s : Lifecycle) : Prop
  | alive (starts : List ℤ)
      (htodo : s.todo = starts.map Statement.start ++ [.clear, .join, .release])
      (hreleased : s.released = 0)
  | joining (htodo : s.todo = [.join, .release]) (hreleased : s.released = 0)
  | releasing (htodo : s.todo = [.release]) (hreleased : s.released = 0)
      (hidle : s.handler.loopActive = false)
  | gone (htodo : s.todo = []) (hreleased : s.released = 1)
      (hidle : s.handler.loopActive = false)

theorem StopFree.init {calls : List HandlerCall} (h : HandlerCall.stop ∉ calls) (queue : ℕ) :
    StopFree (init queue calls) := by
  have hprogram : ∃ starts : List ℤ,
      program calls = starts.map Statement.start ++ [.clear, .join, .release] := by
    induction calls with
    | nil => exact ⟨[], rfl⟩
    | cons c calls ih =>
      rw [List.mem_cons, not_or] at h
      obtain ⟨starts, hstarts⟩ := ih h.2
      cases c with
      | start coreId => exact ⟨coreId :: starts, congrArg (Statement.start coreId :: ·) hstarts⟩
      | stop => exact absurd rfl h.1
  obtain ⟨starts, hstarts⟩ := hprogram
  exact .alive starts hstarts rfl

theorem StopFree.callerStep {s : Lifecycle} (h : StopFree s) : StopFree s.callerStep := by
  unfold Lifecycle.callerStep
  cases h with
  | alive starts htodo hreleased =>
    cases starts with
    | nil =>
      rw [htodo]
      exact .joining rfl hreleased
    | cons coreId starts =>
      rw [htodo]
      exact .alive starts rfl hreleased
  | joining htodo hreleased =>
    rw [htodo]
    simp only
    split_ifs
    · exact .joining htodo hreleased
    · exact .releasing rfl hreleased rfl
  | releasing htodo hreleased hidle =>
    rw [htodo]
    exact .gone rfl (congrArg (· + 1) hreleased) hidle
  | gone htodo hreleased hidle =>
    rw [htodo]
    exact .gone htodo hreleased hidle

theorem StopFree.step {s : Lifecycle} (h : StopFree s) (e : LifeEvent) : StopFree (s.step e) := by
  cases e with
  | caller => exact h.callerStep
  | worker answer =>
    cases h with
    | alive starts htodo hreleased => exact .alive starts htodo hreleased
    | joining htodo hreleased => exact .joining htodo hreleased
    | releasing htodo hreleased hidle =>
      exact .releasing htodo hreleased (TickHandler.work_of_idle hidle answer)
    | gone htodo hreleased hidle =>
      exact .gone htodo hreleased (TickHandler.work_of_idle hidle answer)

/-- The queue is released once at the most, and then the loop is over. -/
theorem StopFree.released {s : Lifecycle} (h : StopFree s) :
    s.released ≤ 1 ∧ (0 < s.released → s.handler.loopActive = false) := by
  cases h with
  | alive _ _ hreleased => exact ⟨by omega, fun hpos => by omega⟩
  | joining _ hreleased => exact ⟨by omega, fun hpos => by omega⟩
  | releasing _ _ hidle => exact ⟨by omega, fun _ => hidle⟩
  | gone _ _ hidle => exact ⟨by omega, fun _ => hidle⟩

/-- **The life of a handler** is as it should be exactly when `stop` is left to the destructor. -/
theorem lawful_iff (queue : ℕ) (calls : List HandlerCall) :
    Lawful queue calls ↔ HandlerCall.stop ∉ calls := by
  constructor
  · intro h hstop
    -- run on to the end: every stop has released the queue
    obtain ⟨es, hend⟩ := h.ends []
    rw [List.nil_append] at hend
    have hledger := ledger_run queue calls es
    have hpos := List.count_pos_iff.2 hstop
    have honce := h.atMostOnce es
    rw [ledger, hend, List.count_nil] at hledger
    omega
  · intro hstop
    have hphase : ∀ es, StopFree ((init queue calls).run es) :=
      fun es => Run.invariant (fun _ e h => h.step e) (StopFree.init hstop queue) es
    refine ⟨fun es => (hphase es).released.1, fun es => (hphase es).released.2,
      exists_end queue calls, fun es hend => ?_⟩
    have hledger := ledger_run queue calls es
    rw [ledger, hend, List.count_nil, List.count_eq_zero_of_not_mem hstop] at hledger
    omega

/-- A call of `stop` before the destructor releases the queue twice, and a start after it works on
a queue that is gone. -/
theorem stop_then_destroy :
    ¬ (∀ queue calls, Lawful queue calls) ∧
      ((init 0 [.stop]).run (List.replicate 6 .caller)).released = 2 ∧
      ((init 0 [.stop, .start 0]).run (List.replicate 4 .caller)).released = 1 ∧
      ((init 0 [.stop, .start 0]).run (List.replicate 4 .caller)).handler.loopActive = true := by
  refine ⟨fun h => ?_, rfl, rfl, rfl⟩
  have honce := (h 0 [.stop]).atMostOnce (List.replicate 6 .caller)
  exact absurd honce (by decide)

end Lifecycle

/-! ### The handlers of the pipeline -/

/-- A step of a handler of the pipeline is one action of its loop. -/
theorem Wf.exists_work {L : Layout} {s : System} (h : Wf L s) (k : ℕ) :
    ∃ answer, (s.handlerStep k).handlers k = (s.handlers k).work answer := by
  have hgoto : ∀ pc, (s.goto k pc).handlers k = (s.handlers k).goto pc :=
    fun pc => Function.update_self _ _ _
  have hstep := h.handlerStep k
  generalize s.handlerStep k = s' at hstep
  unfold TickHandler.work
  cases hstep with
  | stay hpc =>
    refine ⟨false, ?_⟩
    rcases hpc with hpc | hpc
    · rw [hpc]
    · rw [hpc]
      show _ = (s.handlers k).goto .exited
      rw [TickHandler.goto, ← hpc]
  | test hpc => exact ⟨false, by rw [hpc, hgoto]; rfl⟩
  | poll hpc => exact ⟨(s.queues k).isEmpty, by rw [hpc, hgoto]; rfl⟩
  | front hpc => exact ⟨false, by rw [hpc, hgoto]; rfl⟩
  | @handle hpc tick _ _ c =>
    exact ⟨((s.processors (L.detectorOf c)).validate tick).1, by rw [hpc]; exact hgoto _⟩
  | send hpc => exact ⟨false, by rw [hpc]; exact hgoto _⟩
  | pop hpc => exact ⟨false, by rw [hpc]; exact hgoto _⟩

/-- A handler is moved by its own thread only. -/
theorem Wf.handlerStep_of_ne {L : Layout} {s : System} (h : Wf L s) {j k : ℕ} (hjk : k ≠ j) :
    (s.handlerStep j).handlers k = s.handlers k := by
  have hgoto : ∀ pc, (s.goto j pc).handlers k = s.handlers k :=
    fun pc => Function.update_of_ne hjk _ _
  have hstep := h.handlerStep j
  generalize s.handlerStep j = s' at hstep
  cases hstep with
  | stay => rfl
  | test => exact hgoto _
  | poll => exact hgoto _
  | front => exact hgoto _
  | handle => exact hgoto _
  | send => exact hgoto _
  | pop => exact hgoto _

/-- **The handlers of the pipeline live like this**: whatever the system has done so far, a handler
is one that was started once and has worked on since. -/
theorem pipeline_handler_lives (L : Layout) (as : List Action) {k : ℕ} (hk : k < L.threads) :
    ∃ es, (L.init.run as).handlers k =
      ((Lifecycle.init k [.start (L.core k)]).run es).handler := by
  induction as using List.reverseRecOn with
  | nil => exact ⟨[.caller], if_pos hk⟩
  | append_singleton as a ih =>
    obtain ⟨es, hes⟩ := ih
    have hwf := wf_run L as
    rw [System.run, Run.run_concat]
    cases a with
    | dispatch data now => exact ⟨es, hes⟩
    | handler j =>
      by_cases hjk : k = j
      · subst hjk
        obtain ⟨answer, hwork⟩ := hwf.exists_work k
        refine ⟨es ++ [.worker answer], ?_⟩
        rw [Lifecycle.run, Run.run_concat]
        exact hwork.trans (congrArg (TickHandler.work · answer) hes)
      · exact ⟨es, (hwf.handlerStep_of_ne hjk).trans hes⟩

end UltraMds
