import UltraMds.DataHandler.Validate
import UltraMds.Pipeline.Refinement

/-!
# The end of the system

The members of `SystemStarter` are destroyed one by one, in the reverse order of their
declaration, while the handlers and the feed go on.  The validators go before the handlers stop,
and the dispatcher, which is static, keeps its pointers to everything.

`Teardown.touches` says when a step uses an object that is gone.  `ordered_teardown` gives a
condition on the steps of a run (`Teardown.allowed`) under which none of them does: no validator is
destroyed while its ticks are queued, and after that no packet of its contract comes, or of any
contract after its queue is released.  A step against it uses such an object, or lets a handler come
to use one.
-/

namespace UltraMds

/-- The members of `SystemStarter`, -/
inductive Member
  | tickHandlers
  | unitProcessors
  | configReader
  | globalValidationRules

/-- in the order of their declaration. -/
def members : List Member :=
  [.tickHandlers, .unitProcessors, .configReader, .globalValidationRules]

/-- One action of the thread that destroys the starter.  `stop`, `join` and `release` are the
three statements of `TickHandler::stop`, which the destructor of a handler calls. -/
inductive TeardownAction
  | destroyRules
  | destroyReader
  | destroyProcessor (p : ℕ)
  | stop (k : ℕ)
  | join (k : ℕ)
  | release (k : ℕ)
  deriving DecidableEq

/-- The destruction of a member; the elements of a vector go from front to back. -/
def destroyMember (processors threads : ℕ) : Member → List TeardownAction
  | .tickHandlers => (List.range threads).flatMap fun k => [.stop k, .join k, .release k]
  | .unitProcessors => (List.range processors).map .destroyProcessor
  | .configReader => [.destroyReader]
  | .globalValidationRules => [.destroyRules]

/-- The whole teardown: the language destroys the members in the reverse order of their
declaration, both in the destructor and when the last step of the constructor throws. -/
def Layout.teardown (L : Layout) : List TeardownAction :=
  members.reverse.flatMap (destroyMember L.contractList.length L.threads)

/-- When a member is destroyed. -/
def Member.phase : Member → ℕ
  | .globalValidationRules => 0
  | .configReader => 1
  | .unitProcessors => 2
  | .tickHandlers => 3

/-- The member that an action destroys, by its phase. -/
def TeardownAction.phase : TeardownAction → ℕ
  | .destroyRules => 0
  | .destroyReader => 1
  | .destroyProcessor _ => 2
  | .stop _ => 3
  | .join _ => 3
  | .release _ => 3

theorem phase_destroyMember {processors threads : ℕ} {m : Member} {t : TeardownAction}
    (ht : t ∈ destroyMember processors threads m) : t.phase = m.phase := by
  cases m with
  | tickHandlers =>
    obtain ⟨k, -, hk⟩ := List.mem_flatMap.1 ht
    simp only [List.mem_cons, List.not_mem_nil, or_false] at hk
    rcases hk with rfl | rfl | rfl <;> rfl
  | unitProcessors =>
    obtain ⟨p, -, rfl⟩ := List.mem_map.1 ht
    rfl
  | configReader => rw [List.mem_singleton.1 ht]; rfl
  | globalValidationRules => rw [List.mem_singleton.1 ht]; rfl

/-- The members go one after the other. -/
theorem Layout.teardown_pairwise (L : Layout) :
    L.teardown.Pairwise fun t u => t.phase ≤ u.phase := by
  unfold teardown
  rw [List.pairwise_flatMap]
  constructor
  · intro m _
    refine List.pairwise_of_forall_mem_list fun t ht u hu => ?_
    rw [phase_destroyMember ht, phase_destroyMember hu]
  · have hmembers : members.reverse.Pairwise fun m n => m.phase ≤ n.phase := by decide
    refine hmembers.imp fun {m n} hmn t ht u hu => ?_
    rw [phase_destroyMember ht, phase_destroyMember hu]
    exact hmn

/-- While a validator is still to go no handler has been told to stop. -/
theorem Layout.stop_not_mem {L : Layout} {done rest : List TeardownAction} {p : ℕ}
    (hplan : done ++ .destroyProcessor p :: rest = L.teardown) (k : ℕ) : .stop k ∉ done := by
  intro hk
  have hpair := L.teardown_pairwise
  rw [← hplan, List.pairwise_append] at hpair
  have hle : 3 ≤ 2 := hpair.2.2 _ hk _ List.mem_cons_self
  omega

/-- The running system and the progress of its teardown. -/
structure Teardown where
  sys : System
  done : List TeardownAction
  todo : List TeardownAction

/-- A step of a thread of the system, or of the thread that destroys it. -/
inductive Event
  | act (a : Action)
  | teardown
  deriving DecidableEq

namespace Teardown

/-- The constructed system, before its teardown. -/
def init (L : Layout) : Teardown := ⟨L.init, [], L.teardown⟩

def processorDestroyed (s : Teardown) (p : ℕ) : Bool := s.done.contains (.destroyProcessor p)

def queueReleased (s : Teardown) (k : ℕ) : Bool := s.done.contains (.release k)

/-- `my_worker_thread_Tick.join()` waits for the end of the loop. -/
def ready (s : Teardown) : TeardownAction → Bool
  | .join k =>
    (s.sys.handlers k).myWorkerThreadTick = none ∨
      (s.sys.handlers k).myWorkerThreadTick = some .exited
  | _ => true

/-- What a teardown action does to the memory that the other threads still see. -/
def perform (sys : System) : TeardownAction → System
  | .stop k =>
    { sys with
      handlers := Function.update sys.handlers k { sys.handlers k with myRunning := false } }
  | .join k =>
    { sys with
      handlers :=
        Function.update sys.handlers k { sys.handlers k with myWorkerThreadTick := none } }
  | _ => sys

def step (s : Teardown) : Event → Teardown
  | .act a => { s with sys := s.sys.step a }
  | .teardown =>
    match s.todo with
    | [] => s
    | t :: rest =>
      if s.ready t then ⟨perform s.sys t, s.done ++ [t], rest⟩ else s

/-- The step uses an object that is gone: a handler validates or sends a tick whose validator is
destroyed, or the feed enqueues into a released queue. -/
def touches (s : Teardown) : Event → Bool
  | .act (.handler k) =>
    ((s.sys.handlers k).myWorkerThreadTick = some .handle ∨
      (s.sys.handlers k).myWorkerThreadTick = some .send) &&
      (s.sys.current k).any fun target => s.processorDestroyed target.2
  | .act (.dispatch data _) =>
    (s.sys.dispatcher.route data).any fun target => s.queueReleased target.1
  | .teardown => false

/-- Handler `k` would still take a tick that comes last in its queue. -/
def takesLast (s : Teardown) (k : ℕ) : Bool :=
  (s.sys.handlers k).myRunning ||
    ((s.sys.handlers k).myWorkerThreadTick = some .poll && (s.sys.queues k).isEmpty)

/-- The condition on a step: a validator is destroyed only when none of its ticks is left in a
queue; a packet comes only when its queue is not released, and when its validator is destroyed
only if it is dropped or stays unread. -/
def allowed (s : Teardown) : Event → Bool
  | .act (.handler _) => true
  | .act (.dispatch data _) =>
    (s.sys.dispatcher.route data).all fun target =>
      !s.queueReleased target.1 &&
        (!s.processorDestroyed target.2 || (s.sys.queues target.1).isFull || !s.takesLast target.1)
  | .teardown =>
    match s.todo with
    | .destroyProcessor p :: _ =>
      s.sys.dispatcher.contracts.all fun k =>
        (s.sys.unfinished k).all fun t => t.mDetector ≠ some p
    | _ => true

end Teardown

/-! ### The ticks that a handler can still reach -/

/-- The ticks of its queue that a handler may still validate or send when no more come: all that
are not dealt with while it runs, and the one it has seen once it is told to stop. -/
def openTicks (running : Bool) : Option LoopPc → List TickData → List TickData
  | some .pop, items => if running then items.tail else []
  | some .poll, items => if running then items else items.head?.toList
  | some .front, items => if running then items else items.head?.toList
  | some .handle, items => if running then items else items.head?.toList
  | some .send, items => if running then items else items.head?.toList
  | _, items => if running then items else []

theorem head?_toList_subset (items : List TickData) : items.head?.toList ⊆ items := by
  cases items with
  | nil => exact List.Subset.refl _
  | cons a rest => simp

/-- Telling a handler to stop opens no tick. -/
theorem openTicks_stop (running : Bool) (pc : Option LoopPc) (items : List TickData) :
    openTicks false pc items ⊆ openTicks running pc items := by
  cases running with
  | false => exact List.Subset.refl _
  | true =>
    rcases pc with _ | pc
    · simp [openTicks]
    · cases pc <;> simp [openTicks, head?_toList_subset]

namespace System

/-- The ticks that handler `k` may still validate or send. -/
def openTicks (s : System) (k : ℕ) : List TickData :=
  UltraMds.openTicks (s.handlers k).myRunning (s.handlers k).myWorkerThreadTick (s.queues k).items

theorem openTicks_goto (s : System) (k : ℕ) (pc : LoopPc) :
    (s.goto k pc).openTicks k =
      UltraMds.openTicks (s.handlers k).myRunning (some pc) (s.queues k).items := by
  rw [openTicks, goto_worker_self, goto_myRunning, goto_queues]

theorem unfinished_subset_items (s : System) (k : ℕ) : s.unfinished k ⊆ (s.queues k).items := by
  unfold unfinished
  split_ifs
  · exact List.tail_subset _
  · exact List.Subset.refl _

theorem openTicks_subset_unfinished (s : System) (k : ℕ) : s.openTicks k ⊆ s.unfinished k := by
  intro t ht
  unfold openTicks UltraMds.openTicks at ht
  unfold unfinished
  split at ht
  all_goals split_ifs at ht
  all_goals simp_all
  all_goals exact List.mem_of_mem_head? ht

/-- All that is left is open to a handler that runs. -/
theorem unfinished_subset_openTicks (s : System) {k : ℕ} (hrun : (s.handlers k).myRunning = true) :
    s.unfinished k ⊆ s.openTicks k := by
  intro t ht
  unfold unfinished at ht
  unfold openTicks UltraMds.openTicks
  rw [hrun]
  split
  all_goals simp_all

end System

namespace Wf

variable {L : Layout} {s : System}

/-- Going on in the loop opens no new ticks, if the point of the loop does not. -/
theorem openTicks_goto {k : ℕ} {pc pc' : LoopPc}
    (hpc : (s.handlers k).myWorkerThreadTick = some pc)
    (hsub : UltraMds.openTicks (s.handlers k).myRunning (some pc') (s.queues k).items ⊆
      UltraMds.openTicks (s.handlers k).myRunning (some pc) (s.queues k).items) (j : ℕ) :
    (s.goto k pc').openTicks j ⊆ s.openTicks j := by
  unfold System.openTicks
  rw [System.goto_worker, System.goto_myRunning, System.goto_queues]
  split_ifs with hj
  · rw [hj, hpc]
    exact hsub
  · exact List.Subset.refl _

/-- A handler's step opens no new ticks. -/
theorem openTicks_handlerStep (h : Wf L s) (k j : ℕ) :
    (s.handlerStep k).openTicks j ⊆ s.openTicks j := by
  have hstep := h.handlerStep k
  generalize s.handlerStep k = s' at hstep
  cases hstep with
  | stay => exact List.Subset.refl _
  | test hpc =>
    refine openTicks_goto hpc ?_ j
    cases (s.handlers k).myRunning <;> simp [openTicks]
  | poll hpc =>
    refine openTicks_goto hpc ?_ j
    cases (s.handlers k).myRunning <;> split_ifs <;> simp [openTicks]
  | front hpc =>
    refine openTicks_goto hpc ?_ j
    exact List.Subset.refl _
  | handle hpc hitems =>
    refine openTicks_goto hpc ?_ j
    rw [hitems]
    cases (s.handlers k).myRunning <;> split_ifs <;> simp [openTicks]
  | send hpc hitems =>
    refine openTicks_goto hpc ?_ j
    rw [hitems]
    cases (s.handlers k).myRunning <;> simp [openTicks]
  | pop hpc hitems =>
    unfold System.openTicks
    simp only [System.goto_worker, System.goto_myRunning]
    split_ifs with hj
    · rw [hj, hpc, Function.update_self, BoundedFifo.pop_items]
      cases (s.handlers k).myRunning <;> simp [openTicks]
    · rw [Function.update_of_ne hj]
      exact List.Subset.refl _

/-- Of a tick put at the end of the queue, a handler makes an open one only if it takes it. -/
theorem mem_openTicks_append {running : Bool} {pc : Option LoopPc} {items : List TickData}
    (hbusy : ∀ pc', pc = some pc' → pc'.busy = true → items ≠ []) {t u : TickData}
    (hu : u ∈ openTicks running pc (items ++ [t])) :
    u ∈ openTicks running pc items ∨
      u = t ∧ (running || (pc = some .poll && items.isEmpty)) = true := by
  cases running with
  | true =>
    have htail : items ++ [t] ≠ [] := by simp
    unfold openTicks at hu ⊢
    split at hu <;> simp only [if_true] at hu ⊢
    · rw [List.tail_append_of_ne_nil (hbusy _ rfl rfl)] at hu
      simpa using hu
    all_goals simpa using hu
  | false =>
    unfold openTicks at hu ⊢
    split at hu <;> simp only [Bool.false_eq_true, if_false] at hu ⊢
    · cases hu
    · cases items with
      | nil => simpa using hu
      | cons a rest => exact Or.inl hu
    · rw [List.head?_append_of_ne_nil _ (hbusy _ rfl rfl)] at hu
      exact Or.inl hu
    · rw [List.head?_append_of_ne_nil _ (hbusy _ rfl rfl)] at hu
      exact Or.inl hu
    · rw [List.head?_append_of_ne_nil _ (hbusy _ rfl rfl)] at hu
      exact Or.inl hu
    · cases hu

/-- The tick at the end of the queue is open if the handler takes it. -/
theorem mem_openTicks_last {running : Bool} {pc : Option LoopPc} {items : List TickData}
    (hbusy : ∀ pc', pc = some pc' → pc'.busy = true → items ≠ []) {t : TickData}
    (htakes : (running || (pc = some .poll && items.isEmpty)) = true) :
    t ∈ openTicks running pc (items ++ [t]) := by
  cases running with
  | true =>
    unfold openTicks
    split <;> simp only [if_true]
    · rw [List.tail_append_of_ne_nil (hbusy _ rfl rfl)]
      simp
    all_goals simp
  | false =>
    simp only [Bool.false_or, Bool.and_eq_true, decide_eq_true_eq, List.isEmpty_iff] at htakes
    obtain ⟨rfl, rfl⟩ := htakes
    exact List.mem_singleton_self t

/-- A change of a handler that ends no tick's handling keeps the structure. -/
theorem setHandler (h : Wf L s) (k : ℕ) (hd : TickHandler) (hq : hd.myQueueTick = k)
    (hpc : hd.myWorkerThreadTick = (s.handlers k).myWorkerThreadTick ∨
      hd.myWorkerThreadTick = none) :
    Wf L { s with handlers := Function.update s.handlers k hd } where
  dispatcher := h.dispatcher
  handler j := by
    show (Function.update s.handlers k hd j).myQueueTick = j
    by_cases hj : j = k
    · rw [hj, Function.update_self, hq]
    · rw [Function.update_of_ne hj]
      exact h.handler j
  routed := h.routed
  busy j pc hpc' hb := by
    replace hpc' : (Function.update s.handlers k hd j).myWorkerThreadTick = some pc := hpc'
    by_cases hj : j = k
    · subst hj
      rw [Function.update_self] at hpc'
      rcases hpc with hpc | hpc
      · exact h.busy j pc (hpc.symm.trans hpc') hb
      · rw [hpc] at hpc'
        cases hpc'
    · rw [Function.update_of_ne hj] at hpc'
      exact h.busy j pc hpc' hb

theorem perform (h : Wf L s) (t : TeardownAction) : Wf L (Teardown.perform s t) := by
  cases t with
  | stop k => exact h.setHandler k _ (h.handler k) (Or.inl rfl)
  | join k => exact h.setHandler k _ (h.handler k) (Or.inr rfl)
  | _ => exact h

/-- A queued tick is in one of the queues that the dispatcher knows. -/
theorem mem_contracts (h : Wf L s) {k : ℕ} {t : TickData} (ht : t ∈ (s.queues k).items) :
    k ∈ s.dispatcher.contracts := by
  obtain ⟨c, -, hk⟩ := h.routed k t ht
  rw [h.dispatcher]
  show k ∈ List.range L.threads
  rw [List.mem_range, ← hk]
  exact Nat.mod_lt _ L.threads_pos

end Wf

namespace Teardown

@[simp] theorem perform_stop_myRunning (sys : System) (j k : ℕ) :
    ((perform sys (.stop j)).handlers k).myRunning =
      if k = j then false else (sys.handlers k).myRunning := by
  show (Function.update sys.handlers j _ k).myRunning = _
  split_ifs with hk
  · rw [hk, Function.update_self]
  · rw [Function.update_of_ne hk]

@[simp] theorem perform_stop_worker (sys : System) (j k : ℕ) :
    ((perform sys (.stop j)).handlers k).myWorkerThreadTick =
      (sys.handlers k).myWorkerThreadTick := by
  show (Function.update sys.handlers j _ k).myWorkerThreadTick = _
  by_cases hk : k = j
  · rw [hk, Function.update_self]
  · rw [Function.update_of_ne hk]

@[simp] theorem perform_join_myRunning (sys : System) (j k : ℕ) :
    ((perform sys (.join j)).handlers k).myRunning = (sys.handlers k).myRunning := by
  show (Function.update sys.handlers j _ k).myRunning = _
  by_cases hk : k = j
  · rw [hk, Function.update_self]
  · rw [Function.update_of_ne hk]

@[simp] theorem perform_join_worker (sys : System) (j k : ℕ) :
    ((perform sys (.join j)).handlers k).myWorkerThreadTick =
      if k = j then none else (sys.handlers k).myWorkerThreadTick := by
  show (Function.update sys.handlers j _ k).myWorkerThreadTick = _
  split_ifs with hk
  · rw [hk, Function.update_self]
  · rw [Function.update_of_ne hk]

/-- A `join` is over when the thread has left its loop. -/
theorem ready_join_iff {s : Teardown} {k : ℕ} :
    s.ready (.join k) = true ↔
      (s.sys.handlers k).myWorkerThreadTick = none ∨
        (s.sys.handlers k).myWorkerThreadTick = some .exited := by
  simp [ready]

/-- Neither `stop` nor the end of a `join` opens a tick. -/
theorem openTicks_perform {s : Teardown} {t : TeardownAction} (hready : s.ready t = true)
    (j : ℕ) : (perform s.sys t).openTicks j ⊆ s.sys.openTicks j := by
  cases t with
  | stop k =>
    unfold System.openTicks
    rw [perform_stop_myRunning, perform_stop_worker]
    split_ifs
    · exact openTicks_stop _ _ _
    · exact List.Subset.refl _
  | join k =>
    unfold System.openTicks
    rw [perform_join_myRunning, perform_join_worker]
    split_ifs with hj
    · -- the loop has ended before
      subst hj
      rcases ready_join_iff.1 hready with hpc | hpc <;> rw [hpc] <;> exact List.Subset.refl _
    · exact List.Subset.refl _
  | _ => exact List.Subset.refl _

/-- A handler about to validate or send the tick at the head of its queue touches the validator of
that tick. -/
theorem touches_eq {L : Layout} {s : Teardown} (h : Wf L s.sys) {k : ℕ}
    (hpc : (s.sys.handlers k).myWorkerThreadTick = some .handle ∨
      (s.sys.handlers k).myWorkerThreadTick = some .send)
    {tick : TickData} {rest : List TickData} (hitems : (s.sys.queues k).items = tick :: rest)
    {c : String} (hc : L.BelongsTo tick c) :
    s.touches (.act (.handler k)) = s.processorDestroyed (L.detectorOf c) := by
  show (decide _ && (s.sys.current k).any _) = _
  rw [h.current_eq hitems hc, decide_eq_true hpc]
  rfl

theorem exists_of_touches {L : Layout} {s : Teardown} (h : Wf L s.sys) {k : ℕ}
    (htouches : s.touches (.act (.handler k)) = true) :
    ((s.sys.handlers k).myWorkerThreadTick = some .handle ∨
      (s.sys.handlers k).myWorkerThreadTick = some .send) ∧
    ∃ tick rest c, (s.sys.queues k).items = tick :: rest ∧ L.BelongsTo tick c ∧
      s.processorDestroyed (L.detectorOf c) = true := by
  have hpc : (s.sys.handlers k).myWorkerThreadTick = some .handle ∨
      (s.sys.handlers k).myWorkerThreadTick = some .send := by
    simp only [touches, Bool.and_eq_true, decide_eq_true_eq] at htouches
    exact htouches.1
  have hbusy : ∃ pc, (s.sys.handlers k).myWorkerThreadTick = some pc ∧ pc.busy = true := by
    rcases hpc with hpc | hpc
    · exact ⟨_, hpc, rfl⟩
    · exact ⟨_, hpc, rfl⟩
  obtain ⟨pc, hworker, hb⟩ := hbusy
  obtain ⟨tick, rest, c, hitems, hc, -⟩ := h.exists_head hworker hb
  rw [touches_eq h hpc hitems hc] at htouches
  exact ⟨hpc, tick, rest, c, hitems, hc, htouches⟩

/-- The structure of the pipeline, and no open tick without its validator. -/
structure Guarded (L : Layout) (s : Teardown) : Prop where
  wf : Wf L s.sys
  alive : ∀ k, ∀ t ∈ s.sys.openTicks k, ∀ p, t.mDetector = some p → s.processorDestroyed p = false

namespace Guarded

variable {L : Layout} {s : Teardown}

theorem init (L : Layout) : Guarded L (Teardown.init L) where
  wf := Wf.init L
  alive _ _ _ _ _ := rfl

/-- A handler validates and sends open ticks only. -/
theorem touches_handler (h : Guarded L s) (k : ℕ) : s.touches (.act (.handler k)) = false := by
  by_contra htouches
  rw [Bool.not_eq_false] at htouches
  obtain ⟨hpc, tick, rest, c, hitems, hc, hdestroyed⟩ := exists_of_touches h.wf htouches
  have hopen : tick ∈ s.sys.openTicks k := by
    unfold System.openTicks
    rw [hitems]
    rcases hpc with hpc | hpc <;> rw [hpc] <;> unfold openTicks <;> split_ifs <;> simp
  rw [h.alive k tick hopen _ hc.detector] at hdestroyed
  cases hdestroyed

theorem not_touches (h : Guarded L s) {e : Event} (he : s.allowed e = true) :
    s.touches e = false := by
  cases e with
  | teardown => rfl
  | act a =>
    cases a with
    | handler k => exact h.touches_handler k
    | dispatch data now =>
      simp only [allowed] at he
      simp only [touches]
      cases hroute : s.sys.dispatcher.route data with
      | none => rfl
      | some target =>
        rw [hroute, Option.all_some, Bool.and_eq_true, Bool.not_eq_true'] at he
        exact he.1

theorem dispatch (h : Guarded L s) {data : CThostFtdcDepthMarketDataField} {now : ℤ}
    (he : s.allowed (.act (.dispatch data now)) = true) :
    Guarded L (s.step (.act (.dispatch data now))) where
  wf := h.wf.dispatchStep_wf data now
  alive k t ht p hp := by
    show s.processorDestroyed p = false
    replace ht : t ∈ (s.sys.dispatchStep data now).openTicks k := ht
    unfold System.openTicks at ht
    rw [System.dispatchStep_handlers] at ht
    rcases h.wf.dispatchStep data now with ⟨-, hq, -⟩ | ⟨c, hc, hname, hfull, -, q, hq, hitems⟩
    · rw [hq] at ht
      exact h.alive k t ht p hp
    · rw [hq] at ht
      by_cases hk : k = L.queueOf c
      · subst hk
        rw [Function.update_self, hitems] at ht
        rcases Wf.mem_openTicks_append (h.wf.busy _) ht with ht | ⟨rfl, htakes⟩
        · exact h.alive _ t ht p hp
        · -- the new tick is taken, so its validator must be there
          cases hp
          have hroute := h.wf.route_iff.2 ⟨c, hc, hname, rfl, rfl⟩
          have hroom : (s.sys.queues (L.queueOf c)).isFull = false := by
            simpa [System.meetsFullQueue, hroute] using hfull
          have htakes' : s.takesLast (L.queueOf c) = true := htakes
          simp only [allowed, hroute, Option.all_some, hroom, htakes', Bool.and_eq_true,
            Bool.or_false, Bool.not_true, Bool.not_eq_true'] at he
          exact he.2
      · rw [Function.update_of_ne hk] at ht
        exact h.alive k t ht p hp

theorem teardown (h : Guarded L s) (he : s.allowed .teardown = true) :
    Guarded L (s.step .teardown) := by
  obtain ⟨sys, done, todo⟩ := s
  cases todo with
  | nil => exact h
  | cons t rest =>
    unfold step
    simp only
    split_ifs with hready
    · refine ⟨h.wf.perform t, fun k tick ht p hp => ?_⟩
      replace ht := openTicks_perform hready k ht
      have halive := h.alive k tick ht p hp
      unfold processorDestroyed at halive ⊢
      rw [List.contains_append, Bool.or_eq_false_iff]
      refine ⟨halive, ?_⟩
      -- a validator with an unfinished tick is not the one that is destroyed now
      by_contra hcontains
      rw [Bool.not_eq_false, List.contains_iff_mem, List.mem_singleton] at hcontains
      subst hcontains
      have hunfinished := sys.openTicks_subset_unfinished k ht
      have hk := h.wf.mem_contracts (sys.unfinished_subset_items k hunfinished)
      simp only [allowed, List.all_eq_true, decide_eq_true_eq] at he
      exact he k hk tick hunfinished hp
    · exact h

theorem step (h : Guarded L s) {e : Event} (he : s.allowed e = true) : Guarded L (s.step e) := by
  cases e with
  | teardown => exact h.teardown he
  | act a =>
    cases a with
    | dispatch data now => exact h.dispatch he
    | handler k =>
      exact ⟨h.wf.handlerStep_wf k, fun j t ht p hp =>
        h.alive j t (h.wf.openTicks_handlerStep k j ht) p hp⟩

end Guarded

/-! ### Why the condition is exact -/

/-- A thread at another point of its loop has not left it. -/
theorem not_left_of_inLoop {worker : Option LoopPc}
    (hloop : ∃ pc, worker = some pc ∧ pc ≠ .exited) :
    ¬ (worker = none ∨ worker = some .exited) := by
  obtain ⟨pc, rfl, hne⟩ := hloop
  rintro (h | h)
  · cases h
  · cases h
    exact hne rfl

/-- How far the loop is from the end of the tick it is at. -/
def lagOf : LoopPc → ℕ
  | .pop => 5
  | .test => 4
  | .poll => 3
  | .front => 2
  | .handle => 1
  | _ => 0

/-- How far handler `k` is from the end of its open ticks. -/
def lag (sys : System) (k : ℕ) : ℕ :=
  6 * (sys.openTicks k).length + ((sys.handlers k).myWorkerThreadTick.map lagOf).getD 0

/-- Handler `k` has an open tick whose validator is destroyed, and goes on. -/
structure Doomed (L : Layout) (s : Teardown) (k : ℕ) : Prop where
  wf : Wf L s.sys
  loop : (s.sys.handlers k).myRunning = true →
    ∃ pc, (s.sys.handlers k).myWorkerThreadTick = some pc ∧ pc ≠ .exited
  tick : ∃ t ∈ s.sys.openTicks k, ∃ p, t.mDetector = some p ∧ s.processorDestroyed p = true

/-- A step to another point of the loop with the same open ticks. -/
theorem Doomed.move {L : Layout} {s : Teardown} {k : ℕ} (h : Doomed L s k) {sys' : System}
    (hwf : Wf L sys') {pc pc' : LoopPc} (hpc : (s.sys.handlers k).myWorkerThreadTick = some pc)
    (hpc' : (sys'.handlers k).myWorkerThreadTick = some pc') (hne : pc' ≠ .exited)
    (hopen : sys'.openTicks k = s.sys.openTicks k) (hlag : lagOf pc' < lagOf pc) :
    Doomed L { s with sys := sys' } k ∧ lag sys' k < lag s.sys k := by
  constructor
  · refine ⟨hwf, fun _ => ⟨pc', hpc', hne⟩, ?_⟩
    show ∃ t ∈ sys'.openTicks k, _
    rw [hopen]
    exact h.tick
  · unfold lag
    rw [hopen, hpc', hpc]
    show _ + lagOf pc' < _ + lagOf pc
    omega

/-- A doomed handler runs where a handler that is told to stop has no open tick. -/
theorem Doomed.running {L : Layout} {s : Teardown} {k : ℕ} (h : Doomed L s k)
    (hclosed : ∀ items, openTicks false (s.sys.handlers k).myWorkerThreadTick items = []) :
    (s.sys.handlers k).myRunning = true := by
  obtain ⟨t, ht, -⟩ := h.tick
  by_contra hrun
  rw [Bool.not_eq_true] at hrun
  rw [System.openTicks, hrun, hclosed] at ht
  cases ht

/-- If the tick at hand has its validator, the doomed tick is a later one and the handler has to go
on to it. -/
theorem Doomed.later {L : Layout} {s : Teardown} {k : ℕ} (h : Doomed L s k)
    (hpc : (s.sys.handlers k).myWorkerThreadTick = some .handle ∨
      (s.sys.handlers k).myWorkerThreadTick = some .send)
    {tick : TickData} {rest : List TickData} (hitems : (s.sys.queues k).items = tick :: rest)
    {c : String} (hc : L.BelongsTo tick c) (hnot : s.touches (.act (.handler k)) = false) :
    (s.sys.handlers k).myRunning = true ∧ s.sys.openTicks k = tick :: rest ∧
      ∃ t ∈ rest, ∃ p, t.mDetector = some p ∧ s.processorDestroyed p = true := by
  rw [touches_eq h.wf hpc hitems hc] at hnot
  obtain ⟨t, ht, p, hp, hdestroyed⟩ := h.tick
  have hne : t ≠ tick := by
    rintro rfl
    rw [hc.detector] at hp
    cases hp
    rw [hnot] at hdestroyed
    cases hdestroyed
  have hopen : s.sys.openTicks k =
      if (s.sys.handlers k).myRunning then tick :: rest else [tick] := by
    unfold System.openTicks
    rw [hitems]
    rcases hpc with hpc | hpc <;> rw [hpc] <;> rfl
  rw [hopen] at ht
  split_ifs at ht with hrun
  · rw [if_pos hrun] at hopen
    exact ⟨hrun, hopen, t, (List.mem_cons.1 ht).resolve_left hne, p, hp, hdestroyed⟩
  · exact absurd (List.mem_singleton.1 ht) hne

/-- The handler finishes the tick at hand. -/
theorem Doomed.finish {L : Layout} {s : Teardown} {k : ℕ} (h : Doomed L s k)
    (hpc : (s.sys.handlers k).myWorkerThreadTick = some .handle ∨
      (s.sys.handlers k).myWorkerThreadTick = some .send)
    {tick : TickData} {rest : List TickData} (hitems : (s.sys.queues k).items = tick :: rest)
    {c : String} (hc : L.BelongsTo tick c) (hnot : s.touches (.act (.handler k)) = false)
    {sys' : System} (hwf : Wf L sys') (hqueues : sys'.queues = s.sys.queues)
    (hhandlers : sys'.handlers = (s.sys.goto k .pop).handlers) :
    Doomed L { s with sys := sys' } k ∧ lag sys' k < lag s.sys k := by
  obtain ⟨hrun, hopen, hlater⟩ := h.later hpc hitems hc hnot
  have hworker : (sys'.handlers k).myWorkerThreadTick = some .pop := by
    rw [hhandlers, System.goto_worker_self]
  have hopen' : sys'.openTicks k = rest := by
    unfold System.openTicks
    rw [hworker, hqueues, hhandlers, System.goto_myRunning, hrun, hitems]
    rfl
  constructor
  · refine ⟨hwf, fun _ => ⟨.pop, hworker, by decide⟩, ?_⟩
    show ∃ t ∈ sys'.openTicks k, _
    rw [hopen']
    exact hlater
  · unfold lag
    rw [hopen, hopen', hworker, List.length_cons]
    show 6 * rest.length + 5 < _
    omega

/-- **A doomed handler touches the destroyed validator, or comes closer to it.** -/
theorem Doomed.progress {L : Layout} {s : Teardown} {k : ℕ} (h : Doomed L s k)
    (hnot : s.touches (.act (.handler k)) = false) :
    Doomed L (s.step (.act (.handler k))) k ∧
      lag (s.step (.act (.handler k))).sys k < lag s.sys k := by
  have hwf := h.wf.handlerStep_wf k
  have hstep := h.wf.handlerStep k
  show Doomed L { s with sys := s.sys.handlerStep k } k ∧ lag (s.sys.handlerStep k) k < _
  generalize s.sys.handlerStep k = sys' at hwf hstep
  cases hstep with
  | stay hpc =>
    -- a doomed handler is in its loop
    have hrun := h.running (by rcases hpc with hpc | hpc <;> rw [hpc] <;> exact fun _ => rfl)
    exact absurd hpc (not_left_of_inLoop (h.loop hrun))
  | test hpc =>
    have hrun := h.running (by rw [hpc]; exact fun _ => rfl)
    rw [if_pos hrun] at hwf ⊢
    refine h.move hwf hpc (s.sys.goto_worker_self k .poll) (by decide) ?_ (by decide)
    rw [System.openTicks_goto, System.openTicks, hpc, hrun]
    rfl
  | poll hpc =>
    have hne : (s.sys.queues k).items ≠ [] := by
      obtain ⟨t, ht, -⟩ := h.tick
      intro hnil
      unfold System.openTicks at ht
      rw [hpc, hnil] at ht
      unfold openTicks at ht
      split_ifs at ht <;> cases ht
    rw [if_neg (mt (s.sys.queues k).isEmpty_iff.1 hne)] at hwf ⊢
    refine h.move hwf hpc (s.sys.goto_worker_self k .front) (by decide) ?_ (by decide)
    rw [System.openTicks_goto, System.openTicks, hpc]
    rfl
  | front hpc =>
    refine h.move hwf hpc (s.sys.goto_worker_self k .handle) (by decide) ?_ (by decide)
    rw [System.openTicks_goto, System.openTicks, hpc]
    rfl
  | @handle hpc tick rest hitems c hc hk =>
    cases hvalid : ((s.sys.processors (L.detectorOf c)).validate tick).1 with
    | false =>
      rw [hvalid] at hwf
      exact h.finish (.inl hpc) hitems hc hnot hwf rfl rfl
    | true =>
      rw [hvalid] at hwf
      refine h.move hwf hpc (s.sys.goto_worker_self k .send) (by decide) ?_ (by decide)
      refine (s.sys.openTicks_goto k .send).trans ?_
      rw [System.openTicks, hpc]
      rfl
  | @send hpc tick rest hitems c hc hk => exact h.finish (.inr hpc) hitems hc hnot hwf rfl rfl
  | @pop hpc tick rest hitems =>
    have hrun := h.running (by rw [hpc]; exact fun _ => rfl)
    refine h.move hwf hpc (s.sys.goto_worker_self k .test) (by decide) ?_ (by decide)
    -- the removed tick was not open any more
    unfold System.openTicks
    show UltraMds.openTicks ((s.sys.goto k .test).handlers k).myRunning
      ((s.sys.goto k .test).handlers k).myWorkerThreadTick
      (Function.update s.sys.queues k _ k).items = _
    rw [s.sys.goto_worker_self, System.goto_myRunning, hrun, hpc, Function.update_self,
      BoundedFifo.pop_items]
    rfl

/-- No step of the run uses an object that is gone. -/
abbrev Safe (s : Teardown) (es : List Event) : Prop :=
  Run.Along step (fun s e => s.touches e = false) s es

/-- The steps of handler `k` alone. -/
def onlyHandler (k n : ℕ) : List Event := List.replicate n (.act (.handler k))

/-- Left alone, a doomed handler comes to touch the destroyed validator. -/
theorem Doomed.exists_unsafe {L : Layout} {k : ℕ} : ∀ {s : Teardown}, Doomed L s k →
    ∃ n, ¬ s.Safe (onlyHandler k n) := by
  intro s h
  generalize hm : lag s.sys k = m
  induction m using Nat.strong_induction_on generalizing s with
  | _ m ih =>
    cases htouches : s.touches (.act (.handler k)) with
    | true =>
      refine ⟨1, fun hsafe => ?_⟩
      have hfirst : s.touches (.act (.handler k)) = false := hsafe.1
      rw [htouches] at hfirst
      cases hfirst
    | false =>
      obtain ⟨hdoomed, hlag⟩ := h.progress htouches
      obtain ⟨n, hn⟩ := ih _ (hm ▸ hlag) hdoomed rfl
      exact ⟨n + 1, fun hsafe => hn hsafe.2⟩

/-- The teardown goes through its plan, and handlers run until they are told to stop. -/
structure Ordered (L : Layout) (s : Teardown) : Prop where
  wf : Wf L s.sys
  plan : s.done ++ s.todo = L.teardown
  loop : ∀ k, (s.sys.handlers k).myRunning = true →
    ∃ pc, (s.sys.handlers k).myWorkerThreadTick = some pc ∧ pc ≠ .exited
  running : ∀ k < L.threads, .stop k ∉ s.done → (s.sys.handlers k).myRunning = true

namespace Ordered

variable {L : Layout} {s : Teardown}

theorem init (L : Layout) : Ordered L (Teardown.init L) where
  wf := Wf.init L
  plan := rfl
  loop k hk := by
    refine ⟨.test, ?_, by decide⟩
    show (if k < L.threads then _ else _ : TickHandler).myWorkerThreadTick = _
    replace hk : (if k < L.threads then _ else _ : TickHandler).myRunning = true := hk
    split_ifs at hk ⊢
    rfl
  running k hk _ := by
    show (if k < L.threads then _ else _ : TickHandler).myRunning = true
    rw [if_pos hk]
    rfl

theorem handler (h : Ordered L s) (j : ℕ) : Ordered L (s.step (.act (.handler j))) := by
  have hwf := h.wf.handlerStep_wf j
  have hstep := h.wf.handlerStep j
  show Ordered L { s with sys := s.sys.handlerStep j }
  generalize s.sys.handlerStep j = sys' at hwf hstep
  -- a step other than that of a handler that has left its loop goes to a point of the loop
  have hgoto : ∀ pc, ((s.sys.handlers j).myRunning = true → pc ≠ .exited) →
      sys'.handlers = (s.sys.goto j pc).handlers → Ordered L { s with sys := sys' } := by
    intro pc hpc hhandlers
    refine ⟨hwf, h.plan, fun k hk => ?_, fun k hk hstop => ?_⟩
    · replace hk : (sys'.handlers k).myRunning = true := hk
      show ∃ pc, (sys'.handlers k).myWorkerThreadTick = some pc ∧ _
      rw [hhandlers, System.goto_myRunning] at hk
      rw [hhandlers, System.goto_worker]
      split_ifs with hkj
      · subst hkj
        exact ⟨pc, rfl, hpc hk⟩
      · exact h.loop k hk
    · show (sys'.handlers k).myRunning = true
      rw [hhandlers, System.goto_myRunning]
      exact h.running k hk hstop
  cases hstep with
  | stay => exact h
  | test =>
    refine hgoto _ (fun hrun => ?_) rfl
    rw [if_pos hrun]
    decide
  | poll =>
    refine hgoto _ (fun _ => ?_) rfl
    split_ifs <;> decide
  | front => exact hgoto .handle (fun _ => by decide) rfl
  | handle =>
    refine hgoto _ (fun _ => ?_) rfl
    split_ifs <;> decide
  | send => exact hgoto .pop (fun _ => by decide) rfl
  | pop => exact hgoto .test (fun _ => by decide) rfl

theorem teardown (h : Ordered L s) : Ordered L (s.step .teardown) := by
  obtain ⟨sys, done, todo⟩ := s
  cases todo with
  | nil => exact h
  | cons t rest =>
    unfold step
    simp only
    split_ifs with hready
    · have hwf := h.wf.perform t
      have hplan : (done ++ [t]) ++ rest = L.teardown := by
        rw [List.append_assoc]
        exact h.plan
      have hdone : ∀ k, .stop k ∉ done ++ [t] → .stop k ∉ done := fun k hk hmem =>
        hk (List.mem_append_left _ hmem)
      cases t with
      | stop j =>
        refine ⟨hwf, hplan, fun k hk => ?_, fun k hk hstop => ?_⟩
        · replace hk : ((perform sys (.stop j)).handlers k).myRunning = true := hk
          show ∃ pc, ((perform sys (.stop j)).handlers k).myWorkerThreadTick = some pc ∧ _
          rw [perform_stop_myRunning] at hk
          rw [perform_stop_worker]
          split_ifs at hk
          exact h.loop k hk
        · show ((perform sys (.stop j)).handlers k).myRunning = true
          rw [perform_stop_myRunning]
          split_ifs with hkj
          · subst hkj
            exact absurd (List.mem_append_right _ List.mem_cons_self) hstop
          · exact h.running k hk (hdone k hstop)
      | join j =>
        refine ⟨hwf, hplan, fun k hk => ?_, fun k hk hstop => ?_⟩
        · replace hk : ((perform sys (.join j)).handlers k).myRunning = true := hk
          show ∃ pc, ((perform sys (.join j)).handlers k).myWorkerThreadTick = some pc ∧ _
          rw [perform_join_myRunning] at hk
          rw [perform_join_worker]
          split_ifs with hkj
          · -- a handler that runs has not left its loop
            subst hkj
            exact absurd (ready_join_iff.1 hready) (not_left_of_inLoop (h.loop k hk))
          · exact h.loop k hk
        · exact (perform_join_myRunning sys j k).trans (h.running k hk (hdone k hstop))
      | _ => exact ⟨hwf, hplan, h.loop, fun k hk hstop => h.running k hk (hdone k hstop)⟩
    · exact h

theorem step (h : Ordered L s) (e : Event) : Ordered L (s.step e) := by
  cases e with
  | teardown => exact h.teardown
  | act a =>
    cases a with
    | handler j => exact h.handler j
    | dispatch data now =>
      exact ⟨h.wf.dispatchStep_wf data now, h.plan, h.loop, h.running⟩

theorem run (L : Layout) (es : List Event) :
    Ordered L (Run.run Teardown.step (Teardown.init L) es) :=
  Run.invariant (fun _ e h => h.step e) (init L) es

/-- A packet that is not allowed meets a released queue, or dooms its handler. -/
theorem dispatch_unsafe (h : Ordered L s) {data : CThostFtdcDepthMarketDataField} {now : ℤ}
    (he : s.allowed (.act (.dispatch data now)) = false) :
    ∃ k n, ¬ s.Safe (.act (.dispatch data now) :: onlyHandler k n) := by
  cases hroute : s.sys.dispatcher.route data with
  | none =>
    simp only [allowed, hroute] at he
    cases he
  | some target =>
    obtain ⟨k, p⟩ := target
    cases hreleased : s.queueReleased k with
    | true =>
      refine ⟨0, 0, fun hsafe => ?_⟩
      have hfirst : s.touches (.act (.dispatch data now)) = false := hsafe.1
      simp only [touches, hroute, Option.any_some, hreleased] at hfirst
      cases hfirst
    | false =>
      simp only [allowed, hroute, Option.all_some, hreleased, Bool.not_false, Bool.true_and,
        Bool.or_eq_false_iff, Bool.not_eq_false'] at he
      obtain ⟨⟨hdestroyed, hroom⟩, htakes⟩ := he
      obtain ⟨c, hc, hname, rfl, rfl⟩ := h.wf.route_iff.1 hroute
      -- the packet becomes an open tick
      have hdoomed : Doomed L (s.step (.act (.dispatch data now))) (L.queueOf c) := by
        refine ⟨h.wf.dispatchStep_wf data now, h.loop _, ?_⟩
        rcases h.wf.dispatchStep data now with
          ⟨-, -, hfull⟩ | ⟨c', hc', hname', -, -, q, hq, hitems⟩
        · have hmeets := hfull c hc hname
          simp only [System.meetsFullQueue, hroute, Option.any_some, hroom] at hmeets
          cases hmeets
        · obtain rfl : c' = c := chars_injective (hname'.trans hname.symm)
          refine ⟨TickData.construct data (some (L.detectorOf c')) now, ?_, _, rfl, hdestroyed⟩
          show _ ∈ (s.sys.dispatchStep data now).openTicks _
          unfold System.openTicks
          rw [System.dispatchStep_handlers, hq, Function.update_self, hitems]
          exact Wf.mem_openTicks_last (h.wf.busy _) htakes
      obtain ⟨n, hn⟩ := hdoomed.exists_unsafe
      exact ⟨L.queueOf c, n, fun hsafe => hn hsafe.2⟩

/-- The destruction of a validator that has unfinished ticks dooms the handler of their queue. -/
theorem teardown_unsafe (h : Ordered L s) (he : s.allowed .teardown = false) :
    ∃ k n, ¬ s.Safe (.teardown :: onlyHandler k n) := by
  obtain ⟨sys, done, todo⟩ := s
  rcases todo with _ | ⟨t, rest⟩
  · cases he
  · cases t with
    | destroyProcessor p =>
      simp only [allowed, List.all_eq_false] at he
      obtain ⟨k, hk, hne⟩ := he
      simp only [Bool.not_eq_true, List.all_eq_false, decide_eq_true_eq, not_not] at hne
      obtain ⟨tick, htick, hp⟩ := hne
      have hthreads : k < L.threads := by
        rw [h.wf.dispatcher] at hk
        exact List.mem_range.1 hk
      have hrun := h.running k hthreads (Layout.stop_not_mem h.plan k)
      have hdoomed : Doomed L (Teardown.step ⟨sys, done, .destroyProcessor p :: rest⟩ .teardown)
          k := by
        refine ⟨h.wf, h.loop k, tick, ?_, p, hp, ?_⟩
        · exact sys.unfinished_subset_openTicks hrun htick
        · show (done ++ [TeardownAction.destroyProcessor p]).contains _ = true
          simp
      obtain ⟨n, hn⟩ := hdoomed.exists_unsafe
      exact ⟨k, n, fun hsafe => hn hsafe.2⟩
    | _ => cases he

end Ordered

/-! ### The result -/

/-- Runs whose steps are all allowed use no object that is gone. -/
theorem safe_of_allowed (L : Layout) {es : List Event}
    (hes : Run.Along step (fun s e => s.allowed e = true) (init L) es) : (init L).Safe es :=
  Run.Along.imp (I := Guarded L) (fun _ _ h he => h.step he) (fun _ _ h he => h.not_touches he)
    (Guarded.init L) hes

/-- **When the teardown is ordered.**  No step of a run uses an object that is gone when every
step is allowed; and after any run, a step that is not allowed uses one, or makes a handler do so
as it goes on. -/
theorem ordered_teardown (L : Layout) :
    (∀ es, Run.Along step (fun s e => s.allowed e = true) (init L) es → (init L).Safe es) ∧
      ∀ es e, (Run.run step (init L) es).allowed e = false →
        ∃ k n, ¬ (Run.run step (init L) es).Safe (e :: onlyHandler k n) := by
  refine ⟨fun es hes => safe_of_allowed L hes, fun es e he => ?_⟩
  have h := Ordered.run L es
  cases e with
  | teardown => exact h.teardown_unsafe he
  | act a =>
    cases a with
    | handler k => cases he
    | dispatch data now => exact h.dispatch_unsafe he

/-- The system ends after all its ticks have been dealt with. -/
def sampleEnd : List Event :=
  sampleRun.map .act ++ onlyHandler 0 7 ++ List.replicate 5 .teardown ++ onlyHandler 0 2 ++
    [.teardown, .teardown]

theorem ordered_teardown_sample :
    (init sampleLayout).Safe sampleEnd ∧
      (Run.run step (init sampleLayout) sampleEnd).queueReleased 0 = true ∧
      ∃ k n, ¬ (Run.run step (init sampleLayout) sampleEnd).Safe
        (.act (.dispatch samplePacket 0) :: onlyHandler k n) :=
  ⟨(ordered_teardown sampleLayout).1 sampleEnd (by decide +kernel), by decide +kernel,
    (ordered_teardown sampleLayout).2 sampleEnd _ (by decide +kernel)⟩

/-- A tick is queued while the rules, the reader and the first validator are destroyed; then the
handler comes to it. -/
def earlyEnd : List Event :=
  .act (.dispatch samplePacket 0) :: List.replicate 3 .teardown ++ onlyHandler 0 4

theorem teardown_uses_destroyed : ¬ ∀ L es, (init L).Safe es := by
  intro hsafe
  have hnot : ¬ (init sampleLayout).Safe earlyEnd := by decide
  exact hnot (hsafe sampleLayout earlyEnd)

end Teardown

end UltraMds
