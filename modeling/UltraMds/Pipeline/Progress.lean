import UltraMds.Pipeline.Refinement

/-!
# Progress of the pipeline

A handler takes at most six steps for a tick (`LoopPc.left`), however the feed and the other
handlers get in between.  So the work that is left until the ticks in its queue are removed
(`System.work`) goes down with each of its steps, and `pipeline_progress` follows: what is in the
queue of a contract now is sent after that many steps of its handler.
-/

namespace UltraMds

/-- The steps that a handler takes until it has removed the next tick. -/
def LoopPc.left : LoopPc → ℕ
  | .test => 6
  | .poll => 5
  | .front => 4
  | .handle => 3
  | .send => 2
  | .pop => 1
  | .exited => 0

/-- The tick is one of a contract of queue `k`. -/
def Layout.queuedTo (L : Layout) (k : ℕ) (t : TickData) : Bool :=
  L.contractList.any fun c => ofContract c t && L.queueOf c == k

theorem Layout.BelongsTo.queuedTo_eq {L : Layout} {t : TickData} {c : String}
    (h : L.BelongsTo t c) (k : ℕ) : L.queuedTo k t = decide (L.queueOf c = k) := by
  rw [Layout.queuedTo, Bool.eq_iff_iff]
  simp only [List.any_eq_true, Bool.and_eq_true, beq_iff_eq, decide_eq_true_eq,
    h.ofContract_eq]
  constructor
  · rintro ⟨c', -, rfl, hk⟩
    exact hk
  · exact fun hk => ⟨c, h.mem, rfl, hk⟩

theorem Layout.queuedTo_of_ofContract {L : Layout} {t : TickData} {c : String}
    (hc : c ∈ L.contractList) (ht : ofContract c t = true) : L.queuedTo (L.queueOf c) t = true :=
  List.any_eq_true.2 ⟨c, hc, by simp [ht]⟩

namespace System

variable (s : System)

/-- The ticks that were enqueued to queue `k`. -/
def enqueuedTo (L : Layout) (k : ℕ) : List TickData := s.enqueued.filter (L.queuedTo k)

/-- The number of ticks that were removed from queue `k`. -/
def removed (L : Layout) (k : ℕ) : ℕ := (s.enqueuedTo L k).length - (s.queues k).items.length

/-- The steps that handler `k` takes until `goal` ticks are removed from its queue. -/
def work (L : Layout) (k goal : ℕ) : ℕ :=
  if goal ≤ s.removed L k then 0
  else 6 * (goal - s.removed L k - 1) + (s.handlers k).myWorkerThreadTick.elim 0 LoopPc.left

/-- A contract's ticks are in its queue. -/
theorem filter_enqueuedTo {L : Layout} {c : String} (hc : c ∈ L.contractList) :
    (s.enqueuedTo L (L.queueOf c)).filter (ofContract c) = s.enqueuedOf c := by
  rw [enqueuedTo, enqueuedOf, List.filter_filter]
  refine List.filter_congr fun t _ => ?_
  cases ht : ofContract c t with
  | true => simp [L.queuedTo_of_ofContract hc ht]
  | false => simp

end System

/-- Handler `k` is in its loop, its queue holds the last ticks that were enqueued to it, and there
were at least `goal` of them. -/
structure Serving (L : Layout) (k goal : ℕ) (s : System) : Prop where
  wf : Wf L s
  running : (s.handlers k).myRunning = true
  working : ∃ pc, (s.handlers k).myWorkerThreadTick = some pc ∧ pc ≠ .exited
  suffix : (s.queues k).items <:+ s.enqueuedTo L k
  goal : goal ≤ (s.enqueuedTo L k).length

namespace Serving

variable {L : Layout} {k goal : ℕ} {s : System}

theorem init (L : Layout) {k : ℕ} (hk : k < L.threads) : Serving L k 0 L.init where
  wf := .init L
  running := by
    show (if k < L.threads then _ else _ : TickHandler).myRunning = true
    rw [if_pos hk]
    rfl
  working := ⟨.test, by rw [L.init_worker, if_pos hk], nofun⟩
  suffix := by
    rw [L.init_items]
    exact List.nil_suffix
  goal := Nat.zero_le _

/-- A goal that is reached at the latest with the last tick. -/
theorem withGoal (h : Serving L k goal s) : Serving L k (s.enqueuedTo L k).length s :=
  { h with goal := le_rfl }

theorem length_items (h : Serving L k goal s) :
    s.removed L k + (s.queues k).items.length = (s.enqueuedTo L k).length := by
  have hle := h.suffix.length_le
  unfold System.removed
  omega

/-- A state in which the handler, its queue and the ticks enqueued to it are the same. -/
theorem congr {s' : System} (h : Serving L k goal s) (hwf : Wf L s')
    (hhandler : s'.handlers k = s.handlers k) (hqueue : s'.queues k = s.queues k)
    (henqueued : s'.enqueuedTo L k = s.enqueuedTo L k) :
    Serving L k goal s' ∧ s'.work L k goal = s.work L k goal := by
  refine ⟨⟨hwf, ?_, ?_, ?_, ?_⟩, ?_⟩
  · rw [hhandler]
    exact h.running
  · rw [hhandler]
    exact h.working
  · rw [hqueue, henqueued]
    exact h.suffix
  · rw [henqueued]
    exact h.goal
  · unfold System.work System.removed
    rw [hhandler, hqueue, henqueued]

/-- A packet is enqueued at the end, here or elsewhere. -/
theorem dispatchStep (h : Serving L k goal s) (data : CThostFtdcDepthMarketDataField) (now : ℤ) :
    Serving L k goal (s.dispatchStep data now) ∧
      (s.dispatchStep data now).work L k goal = s.work L k goal := by
  have hwf := h.wf.dispatchStep_wf data now
  rcases h.wf.dispatchStep data now with ⟨hstored, hq, -⟩ | ⟨c, hc, hname, -, hstored, q, hq, hitems⟩
  · refine h.congr hwf rfl (by rw [hq]) ?_
    unfold System.enqueuedTo System.dispatchStep
    simp [hstored]
  · have hbelongs : L.BelongsTo (TickData.construct data (some (L.detectorOf c)) now) c :=
      ⟨hc, hname, rfl⟩
    have hto := hbelongs.queuedTo_eq k
    generalize TickData.construct data (some (L.detectorOf c)) now = t at hstored hitems hto
    have henqueued : (s.dispatchStep data now).enqueuedTo L k =
        s.enqueuedTo L k ++ if L.queueOf c = k then [t] else [] := by
      unfold System.enqueuedTo System.dispatchStep
      by_cases hk : L.queueOf c = k <;> simp [hstored, hto, hk]
    by_cases hk : L.queueOf c = k
    · rw [if_pos hk] at henqueued
      have hqueue : ((s.dispatchStep data now).queues k).items = (s.queues k).items ++ [t] := by
        rw [hq, ← hk, Function.update_self, hitems]
      have hremoved : (s.dispatchStep data now).removed L k = s.removed L k := by
        unfold System.removed
        rw [henqueued, hqueue]
        simp
      refine ⟨⟨hwf, h.running, h.working, ?_, ?_⟩, ?_⟩
      · rw [hqueue, henqueued]
        obtain ⟨gone, hgone⟩ := h.suffix
        exact ⟨gone, by rw [← hgone, List.append_assoc]⟩
      · have hgoal := h.goal
        rw [henqueued, List.length_append]
        omega
      · unfold System.work
        rw [hremoved]
        rfl
    · rw [if_neg hk, List.append_nil] at henqueued
      exact h.congr hwf rfl (by rw [hq, Function.update_of_ne (Ne.symm hk)]) henqueued

/-- The steps of another handler change nothing here. -/
theorem handlerStep_of_ne (h : Serving L k goal s) {j : ℕ} (hkj : k ≠ j) :
    Serving L k goal (s.handlerStep j) ∧ (s.handlerStep j).work L k goal = s.work L k goal := by
  have hwf := h.wf.handlerStep_wf j
  have hstep := h.wf.handlerStep j
  have hgoto : ∀ pc, (s.goto j pc).handlers k = s.handlers k :=
    fun pc => Function.update_of_ne hkj _ _
  generalize s.handlerStep j = s' at hwf hstep
  cases hstep with
  | stay => exact ⟨h, rfl⟩
  | test => exact h.congr hwf (hgoto _) rfl rfl
  | poll => exact h.congr hwf (hgoto _) rfl rfl
  | front => exact h.congr hwf (hgoto _) rfl rfl
  | handle => exact h.congr hwf (hgoto _) rfl rfl
  | send => exact h.congr hwf (hgoto _) rfl rfl
  | pop => exact h.congr hwf (hgoto _) (Function.update_of_ne hkj _ _) rfl

/-- A step of the handler itself that does not remove a tick. -/
theorem goto (h : Serving L k goal s) {pc : LoopPc} (pc' : LoopPc)
    (hpc : (s.handlers k).myWorkerThreadTick = some pc) (hpc' : pc' ≠ .exited)
    (hbusy : pc'.busy = true → (s.queues k).items ≠ [])
    (hleft : (s.queues k).items ≠ [] → pc'.left < pc.left) :
    Serving L k goal (s.goto k pc') ∧ (s.goto k pc').work L k goal ≤ s.work L k goal - 1 := by
  refine ⟨⟨h.wf.goto k hbusy, ?_, ⟨pc', s.goto_worker_self k pc', hpc'⟩, h.suffix, h.goal⟩, ?_⟩
  · rw [System.goto_myRunning]
    exact h.running
  · have hlen := h.length_items
    have hgoal := h.goal
    unfold System.work
    rw [s.goto_worker_self k pc', hpc]
    show (if goal ≤ s.removed L k then 0 else _) ≤ _
    split_ifs with hreached
    · exact Nat.zero_le _
    · -- there is a tick to go on with
      have hne : (s.queues k).items ≠ [] := by
        rw [← List.length_pos_iff]
        omega
      have hlt := hleft hne
      simp only [Option.elim]
      show 6 * (goal - s.removed L k - 1) + _ ≤ _
      omega

/-- The step that removes a tick. -/
theorem pop (h : Serving L k goal s) (hpc : (s.handlers k).myWorkerThreadTick = some .pop)
    (hne : (s.queues k).items ≠ [])
    (hwf : Wf L { s.goto k .test with queues := Function.update s.queues k (s.queues k).pop }) :
    Serving L k goal
        { s.goto k .test with queues := Function.update s.queues k (s.queues k).pop } ∧
      System.work { s.goto k .test with queues := Function.update s.queues k (s.queues k).pop } L k
        goal ≤ s.work L k goal - 1 := by
  have hrunning := s.goto_myRunning k .test k
  have hitems : (Function.update s.queues k (s.queues k).pop k).items = (s.queues k).items.tail := by
    rw [Function.update_self, BoundedFifo.pop_items]
  refine ⟨⟨hwf, hrunning.trans h.running, ⟨.test, s.goto_worker_self k .test, nofun⟩, ?_, h.goal⟩,
    ?_⟩
  · show (Function.update s.queues k (s.queues k).pop k).items <:+ _
    rw [hitems]
    exact (List.tail_suffix _).trans h.suffix
  · have hpos := List.length_pos_iff.2 hne
    have hlen := h.length_items
    have hremoved : System.removed
        { s.goto k .test with queues := Function.update s.queues k (s.queues k).pop } L k =
          s.removed L k + 1 := by
      show (s.enqueuedTo L k).length - (Function.update s.queues k (s.queues k).pop k).items.length =
        _
      rw [hitems, List.length_tail]
      omega
    have htest : ((s.goto k .test).handlers k).myWorkerThreadTick = some .test :=
      s.goto_worker_self k .test
    unfold System.work
    rw [hremoved, hpc]
    show (if goal ≤ s.removed L k + 1 then 0
      else 6 * (goal - (s.removed L k + 1) - 1) +
        ((s.goto k .test).handlers k).myWorkerThreadTick.elim 0 LoopPc.left) ≤ _
    rw [htest]
    simp only [Option.elim, LoopPc.left]
    split_ifs <;> omega

/-- **Every step of the handler counts.** -/
theorem handlerStep_self (h : Serving L k goal s) :
    Serving L k goal (s.handlerStep k) ∧ (s.handlerStep k).work L k goal ≤ s.work L k goal - 1 := by
  have hwf := h.wf.handlerStep_wf k
  have hstep := h.wf.handlerStep k
  obtain ⟨pc, hpc, hne⟩ := h.working
  generalize s.handlerStep k = s' at hwf hstep
  cases hstep with
  | stay hout =>
    rcases hout with hout | hout <;> rw [hpc] at hout <;> cases hout
    exact absurd rfl hne
  | test hpc =>
    rw [h.running]
    exact h.goto .poll hpc nofun nofun fun _ => by decide
  | poll hpc =>
    cases hempty : (s.queues k).isEmpty with
    | true =>
      refine h.goto .test hpc nofun nofun fun hitems => ?_
      exact absurd ((s.queues k).isEmpty_iff.1 hempty) hitems
    | false =>
      refine h.goto .front hpc nofun (fun _ hitems => ?_) fun _ => by decide
      rw [(s.queues k).isEmpty_iff.2 hitems] at hempty
      cases hempty
  | front hpc => exact h.goto .handle hpc nofun (fun _ => h.wf.busy k _ hpc rfl) fun _ => by decide
  | @handle hpc tick rest hitems c hc hk =>
    have hbusy := h.wf.busy k _ hpc rfl
    generalize (s.processors (L.detectorOf c)).validate tick = v at hwf ⊢
    cases hv : v.1 with
    | true =>
      rw [hv] at hwf
      obtain ⟨hserving, hwork⟩ := h.goto .send hpc nofun (fun _ => hbusy) fun _ => by decide
      exact ⟨(hserving.congr hwf rfl rfl rfl).1, hwork⟩
    | false =>
      rw [hv] at hwf
      obtain ⟨hserving, hwork⟩ := h.goto .pop hpc nofun (fun _ => hbusy) fun _ => by decide
      exact ⟨(hserving.congr hwf rfl rfl rfl).1, hwork⟩
  | send hpc hitems hc hk =>
    obtain ⟨hserving, hwork⟩ :=
      h.goto .pop hpc nofun (fun _ => h.wf.busy k _ hpc rfl) fun _ => by decide
    exact ⟨(hserving.congr hwf rfl rfl rfl).1, hwork⟩
  | pop hpc hitems => exact h.pop hpc (by rw [hitems]; exact List.cons_ne_nil _ _) hwf

theorem step (h : Serving L k goal s) (a : Action) :
    Serving L k goal (s.step a) ∧ (s.step a).work L k goal ≤ s.work L k goal ∧
      (a = .handler k → (s.step a).work L k goal ≤ s.work L k goal - 1) := by
  cases a with
  | dispatch data now =>
    obtain ⟨hserving, hwork⟩ := h.dispatchStep data now
    exact ⟨hserving, hwork.le, nofun⟩
  | handler j =>
    by_cases hkj : k = j
    · subst hkj
      obtain ⟨hserving, hwork⟩ := h.handlerStep_self
      exact ⟨hserving, hwork.trans (Nat.sub_le _ 1), fun _ => hwork⟩
    · obtain ⟨hserving, hwork⟩ := h.handlerStep_of_ne hkj
      exact ⟨hserving, hwork.le, fun heq => absurd (Action.handler.inj heq).symm hkj⟩

theorem run (h : Serving L k goal s) (as : List Action) : Serving L k goal (s.run as) :=
  Run.invariant (fun _ a hs => (hs.step a).1) h as

/-- The goal is reached after as many steps of the handler as there is work. -/
theorem reached (h : Serving L k goal s) {as : List Action}
    (has : s.work L k goal ≤ as.count (.handler k)) : goal ≤ (s.run as).removed L k := by
  have hcount := Run.countdown (μ := fun s => System.work s L k goal) (· == Action.handler k)
    (fun _ a hs => (Serving.step hs a).1) (fun _ a hs ha => (hs.step a).2.2 (by simpa using ha))
    (fun _ a hs _ => (hs.step a).2.1) h as
  have hzero : (s.run as).work L k goal = 0 := Nat.eq_zero_of_le_zero
    (hcount.trans (Nat.sub_eq_zero_of_le has).le)
  obtain ⟨pc, hpc, hne⟩ := (h.run as).working
  have hleft : 0 < pc.left := by cases pc <;> first | decide | exact absurd rfl hne
  unfold System.work at hzero
  rw [hpc] at hzero
  by_contra hnot
  rw [if_neg hnot] at hzero
  simp only [Option.elim] at hzero
  omega

end Serving

theorem serving_run (L : Layout) {k : ℕ} (hk : k < L.threads) (as : List Action) :
    Serving L k ((L.init.run as).enqueuedTo L k).length (L.init.run as) :=
  ((Serving.init L hk).run as).withGoal

/-- The work for what is in a queue. -/
theorem work_le (L : Layout) (s : System) {k : ℕ} (h : Serving L k (s.enqueuedTo L k).length s) :
    s.work L k (s.enqueuedTo L k).length ≤ 6 * (s.queues k).items.length := by
  have hlen := h.length_items
  obtain ⟨pc, hpc, -⟩ := h.working
  have hleft : pc.left ≤ 6 := by cases pc <;> decide
  unfold System.work
  rw [hpc]
  simp only [Option.elim]
  split_ifs <;> omega

/-- Handlers enqueue nothing. -/
theorem Wf.step_enqueued {L : Layout} {s : System} (h : Wf L s) (a : Action) :
    s.enqueued <+: (s.step a).enqueued ∧
      (a.packet? = none → (s.step a).enqueued = s.enqueued) := by
  cases a with
  | dispatch data now => exact ⟨List.prefix_append _ _, nofun⟩
  | handler k =>
    have hstep := h.handlerStep k
    show s.enqueued <+: (s.handlerStep k).enqueued ∧ (_ → (s.handlerStep k).enqueued = _)
    generalize s.handlerStep k = s' at hstep
    cases hstep <;> exact ⟨List.prefix_rfl, fun _ => rfl⟩

theorem Wf.run_enqueued {L : Layout} {s : System} (h : Wf L s) (as : List Action) :
    s.enqueued <+: (s.run as).enqueued ∧
      ((∀ a ∈ as, a.packet? = none) → (s.run as).enqueued = s.enqueued) := by
  induction as generalizing s with
  | nil => exact ⟨List.prefix_rfl, fun _ => rfl⟩
  | cons a as ih =>
    obtain ⟨hpre, hnone⟩ := ih (h.step a)
    obtain ⟨hpre₁, hnone₁⟩ := h.step_enqueued a
    refine ⟨hpre₁.trans hpre, fun has => ?_⟩
    obtain ⟨ha, has⟩ := List.forall_mem_cons.1 has
    exact (hnone has).trans (hnone₁ ha)

theorem unfinishedOf_sublist (L : Layout) (s : System) (c : String) :
    (s.unfinishedOf c L).Sublist ((s.queues (L.queueOf c)).items.filter (ofContract c)) := by
  unfold System.unfinishedOf System.unfinished
  refine List.Sublist.filter _ ?_
  split_ifs
  · exact List.tail_sublist _
  · exact List.Sublist.refl _

/-- **Everything in the queue is sent.**  After six steps of its handler for each tick in the
queue of a contract, whatever the feed and the other handlers do meanwhile, what a fresh validator
accepts of the ticks enqueued so far has been sent; and if no packet comes in meanwhile, that is
all, and the queue is empty. -/
theorem pipeline_progress (L : Layout) (as bs : List Action) (c : String)
    (hc : c ∈ L.contractList)
    (hbs : 6 * ((L.init.run as).queues (L.queueOf c)).items.length ≤
      bs.count (.handler (L.queueOf c))) :
    forwarded c (L.config c) ((L.init.run as).enqueuedOf c) <+:
        (L.init.run (as ++ bs)).sentOf c ∧
      ((∀ a ∈ bs, a.packet? = none) →
        ((L.init.run (as ++ bs)).queues (L.queueOf c)).items = [] ∧
          (L.init.run (as ++ bs)).sentOf c =
            forwarded c (L.config c) ((L.init.run as).enqueuedOf c)) := by
  have hk : L.queueOf c < L.threads := Nat.mod_lt _ L.threads_pos
  have hrun : L.init.run (as ++ bs) = (L.init.run as).run bs := Run.run_append _ _ _ _
  have hserving := serving_run L hk as
  have hreached := hserving.reached ((work_le L _ hserving).trans hbs)
  have hserving' := hserving.run bs
  have henqueued := (wf_run L as).run_enqueued bs
  obtain ⟨done, henq, hsent⟩ := sentOf_run L (as ++ bs) hc
  have hunfinished := unfinishedOf_sublist L (L.init.run (as ++ bs)) c
  rw [hrun] at henq hsent hunfinished ⊢
  -- the ticks that are gone from the queue include the ones that were enqueued first
  obtain ⟨gone, hgone⟩ := hserving'.suffix
  have hlen := hserving'.length_items
  have hsplit := congrArg List.length hgone
  rw [List.length_append] at hsplit
  have hpre := henqueued.1.filter (L.queuedTo (L.queueOf c))
  have hfirst : (L.init.run as).enqueuedTo L (L.queueOf c) <+: gone := by
    refine List.prefix_of_prefix_length_le hpre ⟨_, hgone⟩ ?_
    show ((L.init.run as).enqueuedTo L (L.queueOf c)).length ≤ _
    omega
  -- and those of the contract among them have been dealt with
  have hall : ((L.init.run as).run bs).enqueuedOf c =
      gone.filter (ofContract c) ++
        (((L.init.run as).run bs).queues (L.queueOf c)).items.filter (ofContract c) := by
    rw [← System.filter_enqueuedTo _ hc, ← hgone, List.filter_append]
  have hdone : gone.filter (ofContract c) <+: done := by
    refine List.prefix_of_prefix_length_le (hall ▸ List.prefix_append _ _)
      (henq ▸ List.prefix_append _ _) ?_
    have hcount := congrArg List.length (henq.symm.trans hall)
    rw [List.length_append, List.length_append] at hcount
    have hle := hunfinished.length_le
    omega
  have hprefix : (L.init.run as).enqueuedOf c <+: done := by
    rw [← System.filter_enqueuedTo _ hc]
    exact (hfirst.filter _).trans hdone
  constructor
  · obtain ⟨rest, rfl⟩ := hprefix
    rw [hsent]
    exact forwarded_append c (L.config c) _ _
  · intro hnone
    have hsame := henqueued.2 hnone
    have hempty : (((L.init.run as).run bs).queues (L.queueOf c)).items = [] := by
      have htotal : ((L.init.run as).run bs).enqueuedTo L (L.queueOf c) =
          (L.init.run as).enqueuedTo L (L.queueOf c) := by
        unfold System.enqueuedTo
        rw [hsame]
      rw [htotal] at hlen
      exact List.length_eq_zero_iff.1 (by omega)
    refine ⟨hempty, ?_⟩
    rw [hempty, List.filter_nil, List.sublist_nil] at hunfinished
    rw [hunfinished, List.append_nil] at henq
    rw [hsent, ← henq]
    unfold System.enqueuedOf
    rw [hsame]

/-- Two ticks are in the queue, the second one not handled, and the handler takes twelve steps. -/
theorem pipeline_progress_sample :
    ((sampleLayout.init.run sampleRun).queues 0).items.length = 2 ∧
      ((sampleLayout.init.run sampleRun).sentOf "rb2410").length = 2 ∧
      ((sampleLayout.init.run (sampleRun ++ List.replicate 12 (.handler 0))).sentOf
        "rb2410").length = 3 ∧
      ((sampleLayout.init.run (sampleRun ++ List.replicate 12 (.handler 0))).queues
        (sampleLayout.queueOf "rb2410")).items = [] ∧
      (sampleLayout.init.run (sampleRun ++ List.replicate 12 (.handler 0))).sentOf "rb2410" =
        forwarded "rb2410" (sampleLayout.config "rb2410")
          ((sampleLayout.init.run sampleRun).enqueuedOf "rb2410") := by
  have h := pipeline_progress sampleLayout sampleRun (List.replicate 12 (.handler 0)) "rb2410"
    (by decide) (by decide +kernel)
  refine ⟨by decide +kernel, by decide +kernel, by decide +kernel, h.2 fun a ha => ?_⟩
  rw [List.eq_of_mem_replicate ha]
  rfl

end UltraMds
