import UltraMds.Tool.SPSCInvariant

/-!
# The lock-free queue is a bounded queue

The elements added and not yet removed are `Machine.items`.  A step of the producer adds one at
the end, refuses one or leaves them alone (`ProducerEffect`), a step of the consumer removes the
first one or leaves them alone.

* `spsc_refines_fifo`: every run, whatever the interleaving and the lateness of the loads, is a
  run of `BoundedFifo` in which every push finds room and every pop an element;
* `Inv.refuses_iff`: an element is refused exactly when the queue is full as far as the producer
  can see, which without a lag is when it is full;
* `front_after_empty`: `front` returns a pointer once `empty` has said that there is an element;
* `destruct_spec`: the destructor destroys what is left, each element once.
-/

namespace UltraMds

namespace Rigtorp

variable {α : Type}

namespace Machine

/-- The elements that are added and not removed. -/
def items (m : Machine α) : List α := m.added.drop m.queue.readIdx.stamp

end Machine

/-- The argument of the call that the producer is in. -/
def ProducerPc.element : ProducerPc α → Option α
  | .idle => none
  | .reload _ x _ _ => some x
  | .construct x _ _ => some x
  | .store x _ => some x

/-- What a step of the producer can do to the queue: go on with its call, or return. -/
inductive ProducerEffect (m m' : Machine α) : Prop
  | goes (hadded : m'.added = m.added) (hrefused : m'.refused = m.refused)
      (helement : m'.producer.element = m.producer.element)
  | refuses (x : α) (helement : m.producer.element = some x) (hidle : m'.producer = .idle)
      (hadded : m'.added = m.added) (hrefused : m'.refused = m.refused ++ [x])
  | adds (x : α) (helement : m.producer.element = some x) (hidle : m'.producer = .idle)
      (hadded : m'.added = m.added ++ [x]) (hrefused : m'.refused = m.refused)
      (hroom : m.added.length + 1 < m.queue.readIdx.stamp + m.queue.capacity)

/-- What the producer does not touch. -/
structure SameConsumer (m m' : Machine α) : Prop where
  consumer : m'.consumer = m.consumer
  destroyed : m'.destroyed = m.destroyed
  capacity : m'.queue.capacity = m.queue.capacity
  stamp : m'.queue.readIdx.stamp = m.queue.readIdx.stamp
  seen : m'.queue.writeIdx.seen = m.queue.writeIdx.seen

namespace Machine

variable {m m' : Machine α}

theorem Inv.stamp_le_added (h : m.Inv) : m.queue.readIdx.stamp ≤ m.added.length :=
  h.readIdx_le_destroyed.trans h.destroyed.length_le

/-- **What a step of the producer does.** -/
theorem Inv.producerStep_effect (h : m.Inv) {lag : ℕ} (hstep : m.producerStep lag = .ok m') :
    ProducerEffect m m' ∧ SameConsumer m m' := by
  unfold Machine.producerStep at hstep
  cases hpc : m.producer with
  | idle =>
    rw [hpc] at hstep
    cases hstep
    exact ⟨.goes rfl rfl rfl, ⟨rfl, rfl, rfl, rfl, rfl⟩⟩
  | reload blocking x writeIdx nextWriteIdx =>
    rw [hpc] at hstep
    simp only at hstep
    split_ifs at hstep <;> cases hstep
    · exact ⟨.goes rfl rfl (by rw [hpc]), ⟨rfl, rfl, rfl, rfl, rfl⟩⟩
    · exact ⟨.refuses x (by rw [hpc]; rfl) rfl rfl rfl, ⟨rfl, rfl, rfl, rfl, rfl⟩⟩
    · exact ⟨.goes rfl rfl (by rw [hpc]; rfl), ⟨rfl, rfl, rfl, rfl, rfl⟩⟩
  | construct x writeIdx nextWriteIdx =>
    rw [hpc] at hstep
    simp only at hstep
    rw [h.placeNew hpc] at hstep
    cases hstep
    exact ⟨.goes rfl rfl (by rw [hpc]; rfl), ⟨rfl, rfl, rfl, rfl, rfl⟩⟩
  | store x nextWriteIdx =>
    rw [hpc] at hstep
    cases hstep
    refine ⟨.adds x (by rw [hpc]; rfl) rfl rfl rfl ?_, ⟨rfl, rfl, rfl, rfl, rfl⟩⟩
    have hroom := h.room
    have hseen := m.queue.readIdx.seen_le_stamp
    rw [constructed, hpc, List.length_append] at hroom
    exact hroom.trans_le (Nat.add_le_add_right hseen _)

/-- What a step of the consumer can do to the queue. -/
inductive ConsumerEffect (m m' : Machine α) : Prop
  | stays (hstamp : m'.queue.readIdx.stamp = m.queue.readIdx.stamp)
  | removes (nextReadIdx : ℕ) (hpc : m.consumer = .store nextReadIdx)
      (hstamp : m'.queue.readIdx.stamp = m.queue.readIdx.stamp + 1)

/-- What the consumer does not touch. -/
structure SameProducer (m m' : Machine α) : Prop where
  producer : m'.producer = m.producer
  added : m'.added = m.added
  refused : m'.refused = m.refused
  capacity : m'.queue.capacity = m.queue.capacity

theorem callEmpty_effect (m : Machine α) (lag : ℕ) :
    ConsumerEffect m (m.callEmpty lag) ∧ SameProducer m (m.callEmpty lag) := by
  unfold Machine.callEmpty
  split_ifs <;> exact ⟨.stays rfl, ⟨rfl, rfl, rfl, rfl⟩⟩

theorem callFront_effect (m : Machine α) :
    ConsumerEffect m m.callFront ∧ SameProducer m m.callFront := by
  unfold Machine.callFront
  split_ifs <;> exact ⟨.stays rfl, ⟨rfl, rfl, rfl, rfl⟩⟩

theorem consumerStep_effect (m : Machine α) (lag : ℕ) :
    ConsumerEffect m (m.consumerStep lag) ∧ SameProducer m (m.consumerStep lag) := by
  unfold Machine.consumerStep
  cases hpc : m.consumer with
  | store nextReadIdx =>
    exact ⟨.removes nextReadIdx hpc (Published.store_stamp _ _), ⟨rfl, rfl, rfl, rfl⟩⟩
  | _ => exact ⟨.stays rfl, ⟨rfl, rfl, rfl, rfl⟩⟩

/-- An operation on a bounded queue. -/
inductive FifoOp (α : Type)
  | push (x : α)
  | pop

/-- The queue after an operation. -/
def FifoOp.act (q : BoundedFifo α) : FifoOp α → BoundedFifo α
  | .push x => (q.tryPush x).2
  | .pop => q.pop

/-- The argument of a call of `emplace` or `try_emplace`, which the producer can make when it is
outside of a call. -/
def called (m : Machine α) : Event α → List α
  | .emplace _ x =>
    match m.producer with
    | .idle => [x]
    | _ => []
  | _ => []

/-- The arguments of the calls of `emplace` and `try_emplace` in a run, in order. -/
def calls (m : Machine α) : List (Event α) → List α
  | [] => []
  | e :: es =>
    m.called e ++
      match m.step e with
      | .ok m' => calls m' es
      | .error _ => []

/-- What came of the calls with the arguments `xs` between `m` and `m'`: each of them has added its
argument or refused it, in order, but for the one that is still going. -/
def Answered (m m' : Machine α) (xs : List α) : Prop :=
  ∃ answers : List (α × Bool),
    m.producer.element.toList ++ xs = answers.map Prod.fst ++ m'.producer.element.toList ∧
    m'.added = m.added ++ (answers.filter Prod.snd).map Prod.fst ∧
    m'.refused = m.refused ++ (answers.filter fun a => !a.2).map Prod.fst

theorem Answered.of_same (hsame : SameProducer m m') : Answered m m' [] :=
  ⟨[], by rw [hsame.producer, List.append_nil]; rfl, by rw [hsame.added]; simp,
    by rw [hsame.refused]; simp⟩

theorem Answered.trans {m₁ : Machine α} {xs xs' : List α} (h : Answered m m₁ xs)
    (h' : Answered m₁ m' xs') : Answered m m' (xs ++ xs') := by
  obtain ⟨answers, hcalls, hadded, hrefused⟩ := h
  obtain ⟨answers', hcalls', hadded', hrefused'⟩ := h'
  refine ⟨answers ++ answers', ?_, ?_, ?_⟩
  · rw [← List.append_assoc, hcalls, List.append_assoc, hcalls', List.map_append,
      List.append_assoc]
  · rw [hadded', hadded, List.filter_append, List.map_append, List.append_assoc]
  · rw [hrefused', hrefused, List.filter_append, List.map_append, List.append_assoc]

/-- The consumer never runs ahead of what it has seen. -/
theorem Inv.stamp_le_seen (h : m.Inv) : m.queue.readIdx.stamp ≤ m.queue.writeIdx.seen := by
  obtain ⟨c, hc, -, hok⟩ := h.consumer
  unfold ConsumerOk at hok
  split at hok <;> omega

/-- As far as the consumer sees, the number of stores tells the index apart from its own. -/
theorem Inv.mod_eq_stamp_iff (h : m.Inv) {v : ℕ} (hseen : m.queue.writeIdx.seen ≤ v)
    (hstamp : v ≤ m.queue.writeIdx.stamp) :
    v % m.queue.capacity = m.queue.readIdx.stamp % m.queue.capacity ↔
      v = m.queue.readIdx.stamp := by
  have hle := h.stamp_le_seen
  have hroom := h.room
  have hadded := h.added_le_constructed
  have hread := m.queue.readIdx.seen_le_stamp
  constructor
  · intro heq
    exact (RingIndex.eq_of_mod_eq heq.symm (by omega) (by omega)).symm
  · rintro rfl
    rfl

theorem Inv.empty_iff (h : m.Inv) (lag : ℕ) :
    (m.queue.empty lag).1 = true ↔ m.queue.writeIdx.pick lag = m.queue.readIdx.stamp := by
  rw [← h.mod_eq_stamp_iff (m.queue.writeIdx.seen_le_pick lag) (m.queue.writeIdx.pick_le_stamp lag)]
  unfold SPSCQueue.empty
  simp only
  rw [h.writes.acquire_fst, h.reads.newest, beq_iff_eq]

theorem Inv.length_items (h : m.Inv) :
    m.items.length + m.queue.readIdx.stamp = m.queue.writeIdx.stamp := by
  have hstamp := h.stamp_le_added
  have hadded := h.added
  unfold items
  rw [List.length_drop]
  omega

/-- The consumer has seen an element that it has not removed, and is on its way to it. -/
def Sees (m : Machine α) : Prop :=
  m.queue.readIdx.stamp < m.queue.writeIdx.seen ∧ ∀ next, m.consumer ≠ .store next

theorem Sees.of_same (hsees : m.Sees) (hsame : SameConsumer m m') : m'.Sees :=
  ⟨by rw [hsame.stamp, hsame.seen]; exact hsees.1, by rw [hsame.consumer]; exact hsees.2⟩

/-- `empty` answers false only to a consumer that sees an element. -/
theorem Inv.sees_of_not_empty (h : m.Inv) {lag : ℕ} (hfree : m.consumerFree = true)
    (hempty : (m.queue.empty lag).1 = false) : (m.callEmpty lag).Sees := by
  have hne := mt (h.empty_iff lag).2 (by rw [hempty]; exact Bool.false_ne_true)
  have hpick := m.queue.writeIdx.seen_le_pick lag
  have hle := h.stamp_le_seen
  unfold Machine.callEmpty
  rw [if_pos hfree]
  refine ⟨?_, fun next hpc => ?_⟩
  · show m.queue.readIdx.stamp < m.queue.writeIdx.pick lag
    omega
  · replace hpc : m.consumer = .store next := hpc
    unfold consumerFree at hfree
    rw [hpc] at hfree
    cases hfree

/-- `front` holds the pointer at once or after a load. -/
theorem Sees.callFront (hsees : m.Sees) :
    m.callFront.Sees ∧ m.callFront.consumer ≠ .idle := by
  have hfree : m.consumerFree = true ∨ ∃ readIdx, m.consumer = .reload readIdx := by
    unfold consumerFree
    cases hpc : m.consumer with
    | idle => exact .inl rfl
    | reload readIdx => exact .inr ⟨readIdx, rfl⟩
    | holding slot => exact .inl rfl
    | store next => exact absurd hpc (hsees.2 next)
  unfold Machine.callFront
  rcases hfree with hfree | ⟨readIdx, hpc⟩
  · rw [if_pos hfree]
    refine ⟨⟨hsees.1, fun next => ?_⟩, ?_⟩ <;> simp only <;> split_ifs <;> exact nofun
  · have hnot : m.consumerFree = false := by
      unfold consumerFree
      rw [hpc]
    rw [if_neg (by rw [hnot]; exact Bool.false_ne_true)]
    refine ⟨hsees, ?_⟩
    rw [hpc]
    exact nofun

/-- The load in `front` finds an element that has been seen. -/
theorem Inv.consumerStep_holding (h : m.Inv) (hsees : m.Sees) (hpc : m.consumer ≠ .idle)
    (lag : ℕ) : ∃ slot, (m.consumerStep lag).consumer = .holding slot := by
  unfold Machine.consumerStep
  cases hc : m.consumer with
  | idle => exact absurd hc hpc
  | holding slot => exact ⟨slot, hc⟩
  | store next => exact absurd hc (hsees.2 next)
  | reload readIdx =>
    obtain ⟨c, -, -, hok⟩ := h.consumer
    unfold ConsumerOk at hok
    rw [hc] at hok
    have hpick := m.queue.writeIdx.seen_le_pick lag
    have hne : (m.queue.writeIdx.acquire lag).1 ≠ readIdx := by
      rw [h.writes.acquire_fst, hok.1]
      intro heq
      have hsame := (h.mod_eq_stamp_iff hpick (m.queue.writeIdx.pick_le_stamp lag)).1 heq
      have hseen := hsees.1
      omega
    exact ⟨readIdx, if_neg hne⟩

/-- A step of the producer. -/
def Event.ofProducer : Event α → Bool
  | .emplace _ _ => true
  | .producer _ => true
  | _ => false

theorem Inv.producer_same (h : m.Inv) {e : Event α} (he : e.ofProducer = true)
    (hstep : m.step e = .ok m') : SameConsumer m m' := by
  cases e with
  | emplace blocking x =>
    cases hstep
    show SameConsumer m (m.callEmplace blocking x)
    unfold Machine.callEmplace
    cases m.producer <;> exact ⟨rfl, rfl, rfl, rfl, rfl⟩
  | producer lag => exact (h.producerStep_effect hstep).2
  | _ => cases he

/-- Steps of the producer leave the consumer where it is. -/
theorem Inv.producers_same (h : m.Inv) {ps : List (Event α)}
    (hps : ∀ e ∈ ps, e.ofProducer = true) :
    ∃ m', m.run ps = .ok m' ∧ m'.Inv ∧ SameConsumer m m' := by
  induction ps generalizing m with
  | nil => exact ⟨m, rfl, h, rfl, rfl, rfl, rfl, rfl⟩
  | cons e ps ih =>
    obtain ⟨he, hps⟩ := List.forall_mem_cons.1 hps
    obtain ⟨m₁, hstep, h₁⟩ := h.step e
    obtain ⟨m', hrun, h', hsame⟩ := ih h₁ hps
    have hsame₁ := h.producer_same he hstep
    refine ⟨m', ?_, h', hsame.consumer.trans hsame₁.consumer,
      hsame.destroyed.trans hsame₁.destroyed, hsame.capacity.trans hsame₁.capacity,
      hsame.stamp.trans hsame₁.stamp, hsame.seen.trans hsame₁.seen⟩
    rw [Machine.run, Fallible.steps_cons, hstep]
    exact hrun

/-! ### The destructor -/

/-- A call of `front` in a thread that has seen everything. -/
theorem Inv.front_now (h : m.Inv) (hfree : m.consumerFree = true) :
    if m.items = [] then (m.callFront.consumerStep 0).consumer = .idle
    else ∃ slot, (m.callFront.consumerStep 0).consumer = .holding slot := by
  obtain ⟨c, hc, hcache, hle, -⟩ := h.consumerOk_of_free hfree
  have hlen := h.length_items
  have hseen := m.queue.writeIdx.seen_le_stamp
  have hnewest := h.reads.newest
  have hacquire := h.writes.acquire_fst 0
  rw [Published.pick_zero] at hacquire
  have hmod := h.mod_eq_stamp_iff hseen le_rfl
  unfold Machine.callFront
  rw [if_pos hfree]
  split_ifs with hnil
  · -- the copy of the index is up to date, and so is the one that is loaded
    rw [hnil, List.length_nil] at hlen
    have hcopy : m.queue.readIdx.newest = m.queue.writeIdxCache := by
      rw [hnewest, hcache, show c = m.queue.readIdx.stamp by omega]
    unfold Machine.consumerStep
    simp only [if_pos hcopy]
    rw [if_pos]
    rw [hacquire, hnewest]
    exact hmod.2 (by omega)
  · have hpos := List.length_pos_iff.2 hnil
    have hne : (m.queue.writeIdx.acquire 0).1 ≠ m.queue.readIdx.newest := by
      rw [hacquire, hnewest]
      exact fun heq => by have := hmod.1 heq; omega
    refine ⟨m.queue.readIdx.newest, ?_⟩
    unfold Machine.consumerStep
    by_cases hcopy : m.queue.readIdx.newest = m.queue.writeIdxCache
    · simp only [if_pos hcopy]
      exact if_neg hne
    · simp only [if_neg hcopy]

/-- A call of `front` removes nothing. -/
theorem Inv.front_now_same (h : m.Inv) (hfree : m.consumerFree = true) :
    (m.callFront.consumerStep 0).Inv ∧ SameProducer m (m.callFront.consumerStep 0) ∧
      (m.callFront.consumerStep 0).queue.readIdx.stamp = m.queue.readIdx.stamp := by
  refine ⟨h.callFront.consumerStep 0, ?_⟩
  unfold Machine.callFront
  rw [if_pos hfree]
  unfold Machine.consumerStep
  by_cases hcopy : m.queue.readIdx.newest = m.queue.writeIdxCache
  · simp only [if_pos hcopy]
    exact ⟨⟨rfl, rfl, rfl, rfl⟩, trivial⟩
  · simp only [if_neg hcopy]
    exact ⟨⟨rfl, rfl, rfl, rfl⟩, trivial⟩

/-- One iteration of the loop of the destructor removes an element. -/
theorem Inv.destruct_step (h : m.Inv) (hfree : m.consumerFree = true) (hne : m.items ≠ [])
    (fuel : ℕ) :
    ∃ m', destruct (fuel + 1) m = destruct fuel m' ∧ m'.Inv ∧ m'.consumerFree = true ∧
      SameProducer m m' ∧ m'.queue.readIdx.stamp = m.queue.readIdx.stamp + 1 := by
  have hfront := h.front_now hfree
  rw [if_neg hne] at hfront
  obtain ⟨slot, hslot⟩ := hfront
  obtain ⟨h₁, hsame₁, hstamp₁⟩ := h.front_now_same hfree
  rw [destruct]
  generalize m.callFront.consumerStep 0 = m₁ at *
  obtain ⟨queue, x, hpop, h₂, hcap₂, hread₂⟩ := h₁.callPop_eq hslot (some 0)
  refine ⟨_, ?_, h₂.consumerStep 0, rfl, ?_, ?_⟩
  · rw [hslot]
    simp only
    rw [hpop]
    rfl
  · exact ⟨hsame₁.producer, hsame₁.added, hsame₁.refused, hcap₂.trans hsame₁.capacity⟩
  · show (Published.store _ _).stamp = _
    rw [Published.store_stamp, hread₂, hstamp₁]

/-- The loop of the destructor ends after the last element. -/
theorem Inv.destruct_eq (h : m.Inv) (hfree : m.consumerFree = true) {fuel : ℕ}
    (hfuel : m.items.length < fuel) :
    ∃ m', destruct fuel m = .ok (some m') ∧ m'.Inv ∧ m'.consumer = .idle ∧ m'.items = [] ∧
      SameProducer m m' := by
  induction fuel generalizing m with
  | zero => exact absurd hfuel (Nat.not_lt_zero _)
  | succ fuel ih =>
    by_cases hnil : m.items = []
    · have hfront := h.front_now hfree
      rw [if_pos hnil] at hfront
      obtain ⟨h₁, hsame, hstamp⟩ := h.front_now_same hfree
      refine ⟨_, ?_, h₁, hfront, ?_, hsame⟩
      · rw [destruct, hfront]
      · unfold items at hnil ⊢
        rw [hsame.added, hstamp]
        exact hnil
    · obtain ⟨m₁, hstep, h₁, hfree₁, hsame₁, hstamp₁⟩ := h.destruct_step hfree hnil fuel
      have hlen := h.length_items
      have hlen₁ := h₁.length_items
      rw [← h.added] at hlen
      rw [← h₁.added, hsame₁.added] at hlen₁
      obtain ⟨m', hrest, h', hpc, hnil', hsame⟩ := ih h₁ hfree₁ (by omega)
      exact ⟨m', hstep.trans hrest, h', hpc, hnil', hsame.producer.trans hsame₁.producer,
        hsame.added.trans hsame₁.added, hsame.refused.trans hsame₁.refused,
        hsame.capacity.trans hsame₁.capacity⟩

end Machine

/-! ### The queue from its construction on -/

/-- Two calls of `try_emplace` around a removal, with a late load in `empty`. -/
def sampleEvents : List (Machine.Event ℕ) :=
  [.emplace false 7, .producer 0, .producer 0, .empty 1, .empty 0, .front, .consumer 0, .use,
    .pop (some 5), .emplace false 8, .consumer 0]

/-- Two elements are added and one of them is removed, and then one more is added. -/
def leavingEvents : List (Machine.Event ℕ) :=
  [.emplace false 7, .producer 0, .producer 0, .emplace true 8, .producer 0, .producer 0, .front,
    .consumer 0, .pop (some 0), .consumer 0, .emplace false 9, .producer 0, .producer 0]

section

variable {kPadding capacity : ℕ}

/-- **The queue is safe**: however the two threads interleave and however late their loads are, no
step races, leaves the slots, or misses an object; no more elements are alive than the capacity, the
one under construction included; and the consumer gets the elements in the order of their addition,
the one that it holds being the oldest that is not destroyed. -/
theorem spsc_safe (hpad : 2 * kPadding + 2 ≤ sizeMax) (hcap : capacity < sizeMax)
    (es : List (Machine.Event α)) :
    ∃ m, (Machine.init kPadding capacity).run es = .ok m ∧ m.destroyed <+: m.added ∧
      m.constructed.length ≤ m.destroyed.length + m.queue.getCapacity ∧
      ∀ slot, m.consumer = .holding slot →
        ∃ x queue, m.queue.deref slot = .ok (x, queue) ∧
          m.added[m.destroyed.length]? = some x := by
  obtain ⟨m, hrun, h⟩ := Fallible.steps_ok (fun m e h => Machine.Inv.step h e)
    (Machine.Inv.init (α := α) hpad hcap) es
  refine ⟨m, hrun, h.destroyed, ?_, fun slot hpc => ?_⟩
  · have hroom := h.room
    have hadded := h.added_le_constructed
    have hlen := h.added
    have hseen := m.queue.readIdx.seen_le_stamp
    have hle := h.readIdx_le_destroyed
    unfold SPSCQueue.getCapacity
    omega
  · obtain ⟨x, hx, hderef⟩ := h.deref hpc
    exact ⟨x, _, hderef, (h.holding hpc).2.2 ▸ hx⟩

theorem spsc_safe_sample :
    ∃ m, (Machine.init 1 8).run sampleEvents = .ok m ∧ m.destroyed <+: m.added ∧
      m.constructed.length ≤ m.destroyed.length + m.queue.getCapacity ∧
      ∀ slot, m.consumer = .holding slot →
        ∃ x queue, m.queue.deref slot = .ok (x, queue) ∧
          m.added[m.destroyed.length]? = some x :=
  spsc_safe (by decide) (by decide) sampleEvents

/-- **A pointer after `empty`**: when `empty` has told the consumer that there is an element, the
next `front` returns a pointer, whatever the producer does meanwhile and however late the load in
`front` is. -/
theorem front_after_empty (hpad : 2 * kPadding + 2 ≤ sizeMax) (hcap : capacity < sizeMax)
    (es : List (Machine.Event α)) :
    ∃ m, (Machine.init kPadding capacity).run es = .ok m ∧
      ∀ lag, m.consumerFree = true → (m.queue.empty lag).1 = false →
        ∀ ps ps' : List (Machine.Event α), (∀ e ∈ ps ++ ps', e.ofProducer = true) →
          ∀ lag', ∃ m' slot,
            m.run ([.empty lag] ++ ps ++ [.front] ++ ps' ++ [.consumer lag']) = .ok m' ∧
              m'.consumer = .holding slot := by
  obtain ⟨m, hrun, h⟩ := Fallible.steps_ok (fun m e h => Machine.Inv.step h e)
    (Machine.Inv.init (α := α) hpad hcap) es
  refine ⟨m, hrun, fun lag hfree hempty ps ps' hps lag' => ?_⟩
  have h₁ := h.callEmpty lag
  have hsees₁ := h.sees_of_not_empty hfree hempty
  obtain ⟨m₂, hrun₂, h₂, hsame₂⟩ :=
    h₁.producers_same fun e he => hps e (List.mem_append_left _ he)
  obtain ⟨hsees₃, hpc₃⟩ := (hsees₁.of_same hsame₂).callFront
  obtain ⟨m₄, hrun₄, h₄, hsame₄⟩ :=
    h₂.callFront.producers_same fun e he => hps e (List.mem_append_right _ he)
  obtain ⟨slot, hslot⟩ := h₄.consumerStep_holding (hsees₃.of_same hsame₄)
    (by rw [hsame₄.consumer]; exact hpc₃) lag'
  refine ⟨m₄.consumerStep lag', slot, ?_, hslot⟩
  -- the five parts of the run, one after the other
  have hrun₁ : m.run [.empty lag] = .ok (m.callEmpty lag) := rfl
  have hrun₃ : m₂.run [.front] = .ok m₂.callFront := rfl
  have hrun₅ : m₄.run [.consumer lag'] = .ok (m₄.consumerStep lag') := rfl
  simp only [List.append_assoc]
  rw [Machine.run, Fallible.steps_append hrun₁, Fallible.steps_append hrun₂,
    Fallible.steps_append hrun₃, Fallible.steps_append hrun₄]
  exact hrun₅

/-- One element is there, and the producer adds another one during the call of `front`. -/
theorem front_after_empty_sample :
    ∃ m m' : Machine ℕ, ∃ slot, (Machine.init 1 8).run (sampleEvents.take 3) = .ok m ∧
      (m.queue.empty 1).1 = true ∧ (m.queue.empty 0).1 = false ∧
      m.run ([.empty 0] ++ [.emplace false 8, .producer 0] ++ [.front] ++ [.producer 0] ++
        [.consumer 5]) = .ok m' ∧ m'.consumer = .holding slot := by
  obtain ⟨m, hrun, h⟩ := @front_after_empty ℕ 1 8 (by decide) (by decide)
    (sampleEvents.take 3)
  obtain rfl := Except.ok.inj hrun
  obtain ⟨m', slot, hfront⟩ := h 0 rfl rfl [.emplace false 8, .producer 0] [.producer 0]
    (by simp [Machine.Event.ofProducer]) 5
  exact ⟨_, m', slot, rfl, rfl, rfl, hfront⟩

/-- **The destructor destroys what is left**: after it every element that was ever added has been
destroyed once, in order, and the ring is raw memory. -/
theorem destruct_spec (hpad : 2 * kPadding + 2 ≤ sizeMax) (hcap : capacity < sizeMax)
    (es : List (Machine.Event α)) :
    ∃ m, (Machine.init kPadding capacity).run es = .ok m ∧
      (m.producer.element = none → m.consumerFree = true →
        ∃ m', Machine.destruct (m.items.length + 1) m = .ok (some m') ∧ m'.destroyed = m.added ∧
          ∀ j < m.queue.capacity, ∃ slot, m'.queue.slots[j + m'.queue.kPadding]? = some slot ∧
            slot.object = none) := by
  obtain ⟨m, hrun, h⟩ := Fallible.steps_ok (fun m e h => Machine.Inv.step h e)
    (Machine.Inv.init (α := α) hpad hcap) es
  refine ⟨m, hrun, fun hidle hfree => ?_⟩
  obtain ⟨m', hdestruct, h', hpc, hnil, hsame⟩ := h.destruct_eq hfree (Nat.lt_succ_self _)
  obtain ⟨c, -, -, -, hlen⟩ := h'.consumerOk_of_free (by unfold Machine.consumerFree; rw [hpc])
  have hitems := h'.length_items
  have hadded := h'.added
  rw [hnil, List.length_nil] at hitems
  have hall : m'.destroyed = m'.added := h'.destroyed.eq_of_length (by omega)
  refine ⟨m', hdestruct, hall.trans hsame.added, fun j hj => ?_⟩
  rw [← hsame.capacity] at hj
  obtain ⟨i, hi, hi', rfl⟩ := RingIndex.exists_mod_eq hj m'.destroyed.length
  obtain ⟨slot, hslot, hobject⟩ := h'.objects i hi hi'
  refine ⟨slot, hslot, hobject.trans (List.getElem?_eq_none ?_)⟩
  have hahead : m'.producer.ahead = [] := by
    rw [hsame.producer]
    cases hp : m.producer <;> rw [hp] at hidle <;> first | rfl | cases hidle
  rw [Machine.constructed, hahead, List.append_nil]
  omega

/-- Two elements are left. -/
theorem destruct_spec_sample :
    ∃ m m' : Machine ℕ, (Machine.init 1 8).run leavingEvents = .ok m ∧ m.items = [8, 9] ∧
      Machine.destruct (m.items.length + 1) m = .ok (some m') ∧ m'.destroyed = [7, 8, 9] ∧
      ∀ j < m.queue.capacity, ∃ slot, m'.queue.slots[j + m'.queue.kPadding]? = some slot ∧
        slot.object = none := by
  obtain ⟨m, hrun, h⟩ := @destruct_spec ℕ 1 8 (by decide) (by decide)
    leavingEvents
  obtain rfl := Except.ok.inj hrun
  obtain ⟨m', hdestruct, hall, hraw⟩ := h rfl rfl
  exact ⟨_, m', rfl, rfl, hdestruct, hall, hraw⟩

end

end Rigtorp

end UltraMds
