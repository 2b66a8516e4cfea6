import UltraMds.Tool.SPSCQueue

/-!
# The lock-free queue keeps its promises

`Machine.Inv` is the invariant of the ring: element number `i` is in slot `i % capacity_` from its
construction to its destruction, the free slots are raw memory, and every access to a slot
happens before the next one by the other thread.

`spsc_safe` says that no run faults, however the threads interleave and however late the loads
are.
-/

namespace UltraMds

namespace Rigtorp

variable {α : Type}

/-- The element that is constructed and not yet published. -/
def ProducerPc.ahead : ProducerPc α → List α
  | .store x _ => [x]
  | _ => []

namespace Machine

variable (m : Machine α)

/-- The elements constructed so far. -/
def constructed : List α := m.added ++ m.producer.ahead

/-- The producer has computed its indices from the number of elements added, and constructs only
when there is room. -/
def ProducerOk : Prop :=
  match m.producer with
  | .idle => True
  | .reload _ _ writeIdx nextWriteIdx =>
    writeIdx = m.queue.writeIdx.stamp % m.queue.capacity ∧
      nextWriteIdx = (m.queue.writeIdx.stamp + 1) % m.queue.capacity
  | .construct _ writeIdx nextWriteIdx =>
    writeIdx = m.queue.writeIdx.stamp % m.queue.capacity ∧
      nextWriteIdx = (m.queue.writeIdx.stamp + 1) % m.queue.capacity ∧
      m.queue.writeIdx.stamp + 1 < m.queue.readIdx.seen + m.queue.capacity
  | .store _ nextWriteIdx => nextWriteIdx = (m.queue.writeIdx.stamp + 1) % m.queue.capacity

/-- The consumer has computed its indices from the number of elements removed, and its copy of the
other index, which is that after `c` additions, tells that there is an element when it holds a
pointer. -/
def ConsumerOk (c : ℕ) : Prop :=
  match m.consumer with
  | .idle => m.queue.readIdx.stamp ≤ c ∧ m.destroyed.length = m.queue.readIdx.stamp
  | .reload readIdx =>
    readIdx = m.queue.readIdx.stamp % m.queue.capacity ∧ m.queue.readIdx.stamp ≤ c ∧
      m.destroyed.length = m.queue.readIdx.stamp
  | .holding slot =>
    slot = m.queue.readIdx.stamp % m.queue.capacity ∧ m.queue.readIdx.stamp < c ∧
      m.destroyed.length = m.queue.readIdx.stamp
  | .store nextReadIdx =>
    nextReadIdx = (m.queue.readIdx.stamp + 1) % m.queue.capacity ∧ m.queue.readIdx.stamp < c ∧
      m.destroyed.length = m.queue.readIdx.stamp + 1

/-- Bounds for the numbers of the elements that the threads have accessed. -/
def accessed : Thread → ℕ
  | .producer => m.constructed.length
  | .consumer => m.queue.writeIdx.seen

/-- The invariant of the ring. -/
structure Inv : Prop where
  two_le : 2 ≤ m.queue.capacity
  length : m.queue.slots.length = m.queue.capacity + 2 * m.queue.kPadding
  writes : m.queue.writeIdx.Numbered (· % m.queue.capacity)
  reads : m.queue.readIdx.Numbered (· % m.queue.capacity)
  added : m.added.length = m.queue.writeIdx.stamp
  destroyed : m.destroyed <+: m.added
  room : m.constructed.length < m.queue.readIdx.seen + m.queue.capacity
  readCache : m.queue.readIdxCache = m.queue.readIdx.seen % m.queue.capacity
  producer : m.ProducerOk
  consumer : ∃ c, c ≤ m.queue.writeIdx.seen ∧ m.queue.writeIdxCache = c % m.queue.capacity ∧
    m.ConsumerOk c
  /-- Element `i` is in its slot from its construction to its destruction. -/
  objects : ∀ i, m.destroyed.length ≤ i → i < m.destroyed.length + m.queue.capacity →
    ∃ slot, m.queue.slots[i % m.queue.capacity + m.queue.kPadding]? = some slot ∧
      slot.object = m.constructed[i]?
  accesses : ∀ p slot t c, m.queue.slots[p]? = some slot → slot.lastAccess = some (t, c) →
    p = c % m.queue.capacity + m.queue.kPadding ∧ c < m.accessed t

end Machine

/-- The constructor adds the slack element, and the bound of memory counts only where the sum does
not wrap around. -/
theorem constructCapacity_eq {kPadding capacity : ℕ} (hcap : capacity < sizeMax) :
    constructCapacity kPadding capacity =
      min (max 1 capacity + 1) (sizeMax - 2 * kPadding) := by
  have hone : (1 : ℕ) < sizeMax := by decide
  have hmod : ∀ n < sizeMax, (n + 1) % (sizeMax + 1) = n + 1 :=
    fun n hn => Nat.mod_eq_of_lt (by omega)
  unfold constructCapacity
  by_cases h : capacity < 1
  · simp only [if_pos h]
    rw [hmod 1 hone]
    split_ifs <;> omega
  · simp only [if_neg h]
    rw [hmod capacity hcap]
    split_ifs <;> omega

theorem two_le_constructCapacity {kPadding capacity : ℕ} (hpad : 2 * kPadding + 2 ≤ sizeMax)
    (hcap : capacity < sizeMax) : 2 ≤ constructCapacity kPadding capacity := by
  rw [constructCapacity_eq hcap]
  omega

namespace Machine

theorem Inv.init {kPadding capacity : ℕ} (hpad : 2 * kPadding + 2 ≤ sizeMax)
    (hcap : capacity < sizeMax) : (Machine.init kPadding capacity : Machine α).Inv where
  two_le := two_le_constructCapacity hpad hcap
  length := List.length_replicate
  writes := .init (Nat.zero_mod _).symm
  reads := .init (Nat.zero_mod _).symm
  added := rfl
  destroyed := List.prefix_refl _
  room := by
    have h2 := two_le_constructCapacity hpad hcap
    show 0 < 0 + constructCapacity kPadding capacity
    omega
  readCache := (Nat.zero_mod _).symm
  producer := trivial
  consumer := ⟨0, le_rfl, (Nat.zero_mod _).symm, le_rfl, rfl⟩
  objects i _ hi := by
    replace hi : i < 0 + constructCapacity kPadding capacity := hi
    have hlt := Nat.mod_lt i (show 0 < constructCapacity kPadding capacity by omega)
    refine ⟨{}, ?_, rfl⟩
    show (List.replicate (constructCapacity kPadding capacity + 2 * kPadding) _)[
      i % constructCapacity kPadding capacity + kPadding]? = _
    rw [List.getElem?_replicate, if_pos (by omega)]
  accesses p slot t c hslot hlast := by
    rw [List.eq_of_mem_replicate (List.mem_of_getElem? hslot)] at hlast
    cases hlast

/-! ### Accesses to the slots -/

section

variable {m : Machine α}

theorem Inv.capacity_pos (h : m.Inv) : 0 < m.queue.capacity := Nat.zero_lt_of_lt h.two_le

theorem Inv.added_le_constructed (h : m.Inv) : m.queue.writeIdx.stamp ≤ m.constructed.length := by
  rw [constructed, List.length_append, h.added]
  omega

theorem Inv.readIdx_le_destroyed (h : m.Inv) : m.queue.readIdx.stamp ≤ m.destroyed.length := by
  obtain ⟨c, -, -, hc⟩ := h.consumer
  unfold ConsumerOk at hc
  split at hc <;> omega

/-- An access to the slot of element `i` finds that element, when it happens after the accesses
of the other thread to that slot. -/
theorem Inv.access_eq (h : m.Inv) (t : Thread) {i : ℕ} (hlo : m.destroyed.length ≤ i)
    (hhi : i < m.destroyed.length + m.queue.capacity)
    (hsync : ∀ u c, c % m.queue.capacity = i % m.queue.capacity → c < m.accessed u →
      m.queue.happensBefore t (u, c) = true) :
    m.queue.access t (i % m.queue.capacity) = .ok m.constructed[i]? := by
  obtain ⟨slot, hslot, hobject⟩ := h.objects i hlo hhi
  have hall : slot.lastAccess.all (m.queue.happensBefore t) = true := by
    cases hlast : slot.lastAccess with
    | none => rfl
    | some access =>
      obtain ⟨u, c⟩ := access
      obtain ⟨hp, hc⟩ := h.accesses _ slot u c hslot hlast
      exact hsync u c (by omega) hc
  unfold SPSCQueue.access
  rw [hslot]
  simp only
  rw [if_pos hall, hobject]

/-- The consumer has left the slot of the next element before the producer takes it. -/
theorem Inv.producer_synced (h : m.Inv) {u : Thread} {c : ℕ}
    (hc : c % m.queue.capacity = m.queue.writeIdx.stamp % m.queue.capacity)
    (hlt : c < m.accessed u) : m.queue.happensBefore .producer (u, c) = true := by
  cases u with
  | producer => rfl
  | consumer =>
    have hseen := m.queue.writeIdx.seen_le_stamp
    have hround := RingIndex.add_le_of_mod_eq hc (hlt.trans_le hseen)
    have hroom := h.room
    have hadded := h.added_le_constructed
    exact decide_eq_true (by omega)

/-- The producer has published the oldest element, and has not come round to its slot again. -/
theorem Inv.consumer_synced (h : m.Inv)
    (hseen : m.queue.readIdx.stamp < m.queue.writeIdx.seen) {u : Thread} {c : ℕ}
    (hc : c % m.queue.capacity = m.queue.readIdx.stamp % m.queue.capacity)
    (hlt : c < m.accessed u) : m.queue.happensBefore .consumer (u, c) = true := by
  cases u with
  | consumer => rfl
  | producer =>
    have hroom := h.room
    have hread := m.queue.readIdx.seen_le_stamp
    have hnot : ¬ m.queue.readIdx.stamp < c := fun hgt => by
      have hround := RingIndex.add_le_of_mod_eq hc.symm hgt
      have hlt' : c < m.constructed.length := hlt
      omega
    exact decide_eq_true (by omega)

/-- A beginning of a list goes on with the next element. -/
theorem concat_prefix {l l' : List α} {x : α} (h : l <+: l') (hx : l'[l.length]? = some x) :
    l ++ [x] <+: l' := by
  obtain ⟨rest, rfl⟩ := h
  rw [List.getElem?_append_right le_rfl, Nat.sub_self] at hx
  cases rest with
  | nil => cases hx
  | cons y rest =>
    cases hx
    exact ⟨rest, List.append_assoc ..⟩

/-- The slots after an access. -/
theorem getElem?_touch (q : SPSCQueue α) (t : Thread) {i : ℕ} (object : Option α)
    (hi : i + q.kPadding < q.slots.length) (j : ℕ) :
    (q.touch t i object).slots[j + q.kPadding]? =
      if j = i then some ⟨object, some (t, q.clock t)⟩ else q.slots[j + q.kPadding]? := by
  show (q.slots.set (i + q.kPadding) _)[j + q.kPadding]? = _
  rw [List.getElem?_set]
  by_cases hji : j = i
  · rw [if_pos (by rw [hji]), if_pos hi, if_pos hji]
  · rw [if_neg (by omega), if_neg hji]

/-- The last accesses after one to the slot of element `i`. -/
theorem Inv.accesses_touch (h : m.Inv) (t : Thread) {i : ℕ} (object : Option α)
    (hclock : m.queue.clock t = i) {bound : Thread → ℕ} (hbound : ∀ u, m.accessed u ≤ bound u)
    (hi : i < bound t) (p : ℕ) (slot : Slot α) (u : Thread) (c : ℕ)
    (hslot : (m.queue.touch t (i % m.queue.capacity) object).slots[p]? = some slot)
    (hlast : slot.lastAccess = some (u, c)) :
    p = c % m.queue.capacity + m.queue.kPadding ∧ c < bound u := by
  replace hslot : (m.queue.slots.set (i % m.queue.capacity + m.queue.kPadding) _)[p]? =
    some slot := hslot
  rw [List.getElem?_set] at hslot
  split_ifs at hslot with hp hlen
  · cases hslot
    cases hlast
    rw [hclock]
    exact ⟨hp.symm, hi⟩
  · obtain ⟨hp', hc⟩ := h.accesses p slot u c hslot hlast
    exact ⟨hp', hc.trans_le (hbound u)⟩

/-- The slots of the ring are within bounds. -/
theorem Inv.slot_lt (h : m.Inv) (i : ℕ) :
    i % m.queue.capacity + m.queue.kPadding < m.queue.slots.length := by
  have hlt := Nat.mod_lt i h.capacity_pos
  have hlen := h.length
  omega

/-! ### The steps of the producer -/

/-- The producer may be at another point of its call that owns the same element. -/
theorem Inv.withProducer (h : m.Inv) (pc : ProducerPc α) (hahead : pc.ahead = m.producer.ahead)
    (hok : ({ m with producer := pc } : Machine α).ProducerOk) :
    ({ m with producer := pc } : Machine α).Inv := by
  have hc : ({ m with producer := pc } : Machine α).constructed = m.constructed :=
    congrArg (m.added ++ ·) hahead
  have haccessed : ({ m with producer := pc } : Machine α).accessed = m.accessed := by
    funext t
    cases t with
    | producer => exact congrArg List.length hc
    | consumer => rfl
  exact
    { two_le := h.two_le
      length := h.length
      writes := h.writes
      reads := h.reads
      added := h.added
      destroyed := h.destroyed
      room := hc ▸ h.room
      readCache := h.readCache
      producer := hok
      consumer := h.consumer
      objects := hc ▸ h.objects
      accesses := haccessed ▸ h.accesses }

/-- There is room for one more element when the next index is not the one of the oldest. -/
theorem Inv.room_of_ne (h : m.Inv) (hahead : m.producer.ahead = [])
    (hne : (m.queue.writeIdx.stamp + 1) % m.queue.capacity ≠
      m.queue.readIdx.seen % m.queue.capacity) :
    m.queue.writeIdx.stamp + 1 < m.queue.readIdx.seen + m.queue.capacity := by
  have hroom := h.room
  rw [constructed, hahead, List.append_nil, h.added] at hroom
  have hne' : m.queue.writeIdx.stamp + 1 ≠ m.queue.readIdx.seen + m.queue.capacity := fun heq => by
    rw [heq, Nat.add_mod_right] at hne
    exact hne rfl
  omega

theorem Inv.callEmplace (h : m.Inv) (blocking : Bool) (x : α) : (m.callEmplace blocking x).Inv := by
  unfold Machine.callEmplace
  cases hpc : m.producer with
  | idle =>
    simp only
    have hahead : m.producer.ahead = [] := by rw [hpc]; rfl
    have hnext : RingIndex.advance m.queue.capacity m.queue.writeIdx.newest =
        (m.queue.writeIdx.stamp + 1) % m.queue.capacity := by
      rw [h.writes.newest]
      exact RingIndex.advance_mod h.capacity_pos _
    split_ifs with heq
    · exact h.withProducer _ hahead.symm ⟨h.writes.newest, hnext⟩
    · refine h.withProducer _ hahead.symm ⟨h.writes.newest, hnext, h.room_of_ne hahead ?_⟩
      rw [← hnext, ← h.readCache]
      exact heq
  | _ => exact h

/-- The producer may take a newer copy of the other index. -/
theorem Inv.acquireRead (h : m.Inv) (lag : ℕ) :
    ({ m with
      queue := { m.queue with
        readIdx := (m.queue.readIdx.acquire lag).2
        readIdxCache := (m.queue.readIdx.acquire lag).1 } } : Machine α).Inv := by
  have hseen := m.queue.readIdx.seen_le_pick lag
  exact
    { two_le := h.two_le
      length := h.length
      writes := h.writes
      reads := h.reads.acquire lag
      added := h.added
      destroyed := h.destroyed
      room := h.room.trans_le (Nat.add_le_add_right hseen _)
      readCache := h.reads.acquire_fst lag
      producer := by
        have hok := h.producer
        unfold ProducerOk at hok ⊢
        simp only [Published.acquire_seen]
        split at hok <;> simp_all
        omega
      consumer := h.consumer
      objects := h.objects
      accesses := h.accesses }

/-- The slot of the next element is raw memory, and the producer may use it. -/
theorem Inv.placeNew (h : m.Inv) {x : α} {writeIdx nextWriteIdx : ℕ}
    (hpc : m.producer = .construct x writeIdx nextWriteIdx) :
    m.queue.placeNew writeIdx x = .ok (m.queue.touch .producer writeIdx (some x)) := by
  have hok := h.producer
  unfold ProducerOk at hok
  rw [hpc] at hok
  obtain ⟨rfl, -, hroom⟩ := hok
  have hread := m.queue.readIdx.seen_le_stamp
  have hlo := h.readIdx_le_destroyed
  have hpre := h.destroyed.length_le
  have hnone : m.constructed[m.queue.writeIdx.stamp]? = none := by
    rw [constructed, hpc, List.getElem?_eq_none]
    simp [ProducerPc.ahead, h.added]
  have haccess := h.access_eq .producer (i := m.queue.writeIdx.stamp)
    (by rw [← h.added]; exact hpre) (by omega) fun u c => h.producer_synced
  rw [hnone] at haccess
  unfold SPSCQueue.placeNew
  rw [haccess]
  rfl

/-- The new element is in its slot, and the other slots are as before. -/
theorem Inv.objects_construct (h : m.Inv) {x : α} {writeIdx nextWriteIdx : ℕ}
    (hpc : m.producer = .construct x writeIdx nextWriteIdx) (i : ℕ)
    (hi : m.destroyed.length ≤ i) (hi' : i < m.destroyed.length + m.queue.capacity) :
    ∃ slot, (m.queue.touch .producer writeIdx (some x)).slots[
        i % m.queue.capacity + m.queue.kPadding]? = some slot ∧
      slot.object = (m.added ++ [x])[i]? := by
  have hok := h.producer
  unfold ProducerOk at hok
  rw [hpc] at hok
  obtain ⟨rfl, -, hroom⟩ := hok
  have hold : m.constructed = m.added := by
    rw [constructed, hpc]
    exact List.append_nil _
  have hread := m.queue.readIdx.seen_le_stamp
  have hlo := h.readIdx_le_destroyed
  have hpre := h.destroyed.length_le
  have hadded := h.added
  rw [getElem?_touch _ _ _ (h.slot_lt _)]
  split_ifs with heq
  · have hi'' : i = m.queue.writeIdx.stamp := by
      rcases le_total i m.queue.writeIdx.stamp with hle | hle
      · exact RingIndex.eq_of_mod_eq heq hle (by omega)
      · exact (RingIndex.eq_of_mod_eq heq.symm hle (by omega)).symm
    refine ⟨_, rfl, ?_⟩
    rw [hi'', ← hadded, List.getElem?_concat_length]
  · obtain ⟨slot, hslot, hobject⟩ := h.objects i hi hi'
    refine ⟨slot, hslot, hobject.trans ?_⟩
    have hne : i ≠ m.added.length := fun h' => heq (by rw [h', hadded])
    rw [hold]
    rcases Nat.lt_or_gt_of_ne hne with hlt | hgt
    · rw [List.getElem?_append_left hlt]
    · rw [List.getElem?_eq_none hgt.le, List.getElem?_eq_none]
      rw [List.length_append, List.length_singleton]
      exact hgt

theorem Inv.construct (h : m.Inv) {x : α} {writeIdx nextWriteIdx : ℕ}
    (hpc : m.producer = .construct x writeIdx nextWriteIdx) :
    ({ m with
      queue := m.queue.touch .producer writeIdx (some x)
      producer := .store x nextWriteIdx } : Machine α).Inv := by
  have hobjects := h.objects_construct hpc
  have hok := h.producer
  unfold ProducerOk at hok
  rw [hpc] at hok
  obtain ⟨rfl, hnext, hroom⟩ := hok
  have hold : m.constructed = m.added := by
    rw [constructed, hpc]
    exact List.append_nil _
  exact
    { two_le := h.two_le
      length := (List.length_set ..).trans h.length
      writes := h.writes
      reads := h.reads
      added := h.added
      destroyed := h.destroyed
      room := by
        show (m.added ++ [x]).length < _
        rw [List.length_append, h.added]
        exact hroom
      readCache := h.readCache
      producer := hnext
      consumer := h.consumer
      objects := hobjects
      accesses := h.accesses_touch .producer (some x) rfl
        (fun u => by
          cases u with
          | producer =>
            show m.constructed.length ≤ (m.added ++ [x]).length
            rw [hold, List.length_append]
            exact Nat.le_add_right _ _
          | consumer => exact le_rfl)
        (by
          show _ < (m.added ++ [x]).length
          rw [List.length_append, h.added]
          exact Nat.lt_succ_self _) }

theorem Inv.storeWrite (h : m.Inv) {x : α} {nextWriteIdx : ℕ}
    (hpc : m.producer = .store x nextWriteIdx) :
    ({ m with
      queue := { m.queue with writeIdx := m.queue.writeIdx.store nextWriteIdx }
      producer := .idle
      added := m.added ++ [x] } : Machine α).Inv := by
  have hok := h.producer
  unfold ProducerOk at hok
  rw [hpc] at hok
  have hc : m.constructed = m.added ++ [x] := by rw [constructed, hpc]; rfl
  have hc' : (m.added ++ [x]) ++ [] = m.constructed := by rw [hc, List.append_nil]
  exact
    { two_le := h.two_le
      length := h.length
      writes := h.writes.store hok
      reads := h.reads
      added := by
        rw [Published.store_stamp, List.length_append, h.added]
        rfl
      destroyed := h.destroyed.trans (List.prefix_append _ _)
      room := (congrArg List.length hc').trans_lt h.room
      readCache := h.readCache
      producer := trivial
      consumer := h.consumer
      objects := by
        show ∀ i, _ → _ → ∃ slot, _ ∧ _ = ((m.added ++ [x]) ++ [])[i]?
        rw [hc']
        exact h.objects
      accesses := fun p slot t c hslot hlast => by
        obtain ⟨hp, hlt⟩ := h.accesses p slot t c hslot hlast
        refine ⟨hp, ?_⟩
        cases t with
        | producer => exact hlt.trans_le (congrArg List.length hc').ge
        | consumer => exact hlt }

theorem Inv.producerStep (h : m.Inv) (lag : ℕ) : ∃ m', m.producerStep lag = .ok m' ∧ m'.Inv := by
  unfold Machine.producerStep
  cases hpc : m.producer with
  | idle => exact ⟨m, rfl, h⟩
  | reload blocking x writeIdx nextWriteIdx =>
    have hread := h.acquireRead lag
    have hok := h.producer
    unfold ProducerOk at hok
    rw [hpc] at hok hread
    simp only
    split_ifs with heq hblocking
    · exact ⟨_, rfl, hread⟩
    · exact ⟨_, rfl, { hread.withProducer .idle rfl trivial with }⟩
    · refine ⟨_, rfl, hread.withProducer (.construct x writeIdx nextWriteIdx) rfl
        ⟨hok.1, hok.2, hread.room_of_ne rfl ?_⟩⟩
      rw [← hread.readCache]
      exact fun h' => heq (hok.2.trans h')
  | construct x writeIdx nextWriteIdx =>
    refine ⟨_, ?_, h.construct hpc⟩
    simp only
    rw [h.placeNew hpc]
    rfl
  | store x nextWriteIdx => exact ⟨_, rfl, h.storeWrite hpc⟩

/-! ### The steps of the consumer -/

/-- The consumer may be at another point that knows of the same elements. -/
theorem Inv.withConsumer (h : m.Inv) {pc : ConsumerPc} {c : ℕ} (hc : c ≤ m.queue.writeIdx.seen)
    (hcache : m.queue.writeIdxCache = c % m.queue.capacity)
    (hok : ({ m with consumer := pc } : Machine α).ConsumerOk c) :
    ({ m with consumer := pc } : Machine α).Inv where
  two_le := h.two_le
  length := h.length
  writes := h.writes
  reads := h.reads
  added := h.added
  destroyed := h.destroyed
  room := h.room
  readCache := h.readCache
  producer := h.producer
  consumer := ⟨c, hc, hcache, hok⟩
  objects := h.objects
  accesses := h.accesses

/-- The consumer may see more of the stores of the producer. -/
theorem Inv.acquireWrite (h : m.Inv) (lag : ℕ) :
    ({ m with queue := { m.queue with writeIdx := (m.queue.writeIdx.acquire lag).2 } } :
      Machine α).Inv := by
  have hseen := m.queue.writeIdx.seen_le_pick lag
  obtain ⟨c, hc, hcache, hok⟩ := h.consumer
  exact
    { two_le := h.two_le
      length := h.length
      writes := h.writes.acquire lag
      reads := h.reads
      added := h.added
      destroyed := h.destroyed
      room := h.room
      readCache := h.readCache
      producer := h.producer
      consumer := ⟨c, hc.trans hseen, hcache, hok⟩
      objects := h.objects
      accesses := fun p slot t c' hslot hlast => by
        obtain ⟨hp, hlt⟩ := h.accesses p slot t c' hslot hlast
        refine ⟨hp, ?_⟩
        cases t with
        | producer => exact hlt
        | consumer => exact hlt.trans_le hseen }

/-- The consumer may take what it sees for its copy. -/
theorem Inv.withWriteCache (h : m.Inv) {idx c : ℕ} (hidx : idx = c % m.queue.capacity)
    (hc : c ≤ m.queue.writeIdx.seen) {pc : ConsumerPc}
    (hok : ({ m with consumer := pc } : Machine α).ConsumerOk c) :
    ({ m with
      queue := { m.queue with writeIdxCache := idx }
      consumer := pc } : Machine α).Inv where
  two_le := h.two_le
  length := h.length
  writes := h.writes
  reads := h.reads
  added := h.added
  destroyed := h.destroyed
  room := h.room
  readCache := h.readCache
  producer := h.producer
  consumer := ⟨c, hc, hidx, hok⟩
  objects := h.objects
  accesses := h.accesses

theorem Inv.callEmpty (h : m.Inv) (lag : ℕ) : (m.callEmpty lag).Inv := by
  unfold Machine.callEmpty
  split_ifs
  · exact h.acquireWrite lag
  · exact h

/-- Outside of a call the consumer has removed what it has destroyed. -/
theorem Inv.consumerOk_of_free (h : m.Inv) (hfree : m.consumerFree = true) :
    ∃ c, c ≤ m.queue.writeIdx.seen ∧ m.queue.writeIdxCache = c % m.queue.capacity ∧
      m.queue.readIdx.stamp ≤ c ∧ m.destroyed.length = m.queue.readIdx.stamp := by
  obtain ⟨c, hc, hcache, hok⟩ := h.consumer
  unfold consumerFree at hfree
  unfold ConsumerOk at hok
  split at hok
  · exact ⟨c, hc, hcache, hok⟩
  · simp_all
  · exact ⟨c, hc, hcache, hok.2.1.le, hok.2.2⟩
  · simp_all

theorem Inv.callFront (h : m.Inv) : m.callFront.Inv := by
  unfold Machine.callFront
  split_ifs with hfree
  · obtain ⟨c, hc, hcache, hle, hlen⟩ := h.consumerOk_of_free hfree
    refine h.withConsumer hc hcache ?_
    have hnewest := h.reads.newest
    split_ifs with heq
    · exact ⟨hnewest, hle, hlen⟩
    · refine ⟨hnewest, lt_of_le_of_ne hle fun h' => heq ?_, hlen⟩
      rw [hnewest, hcache, h']
  · exact h

theorem Inv.storeRead (h : m.Inv) {nextReadIdx : ℕ} (hpc : m.consumer = .store nextReadIdx) :
    ({ m with
      queue := { m.queue with readIdx := m.queue.readIdx.store nextReadIdx }
      consumer := .idle } : Machine α).Inv := by
  obtain ⟨c, hc, hcache, hok⟩ := h.consumer
  unfold ConsumerOk at hok
  rw [hpc] at hok
  obtain ⟨hnext, hlt, hlen⟩ := hok
  exact
    { two_le := h.two_le
      length := h.length
      writes := h.writes
      reads := h.reads.store hnext
      added := h.added
      destroyed := h.destroyed
      room := h.room
      readCache := h.readCache
      producer := h.producer
      consumer := by
        refine ⟨c, hc, hcache, ?_, ?_⟩ <;> rw [Published.store_stamp]
        · exact hlt
        · exact hlen
      objects := h.objects
      accesses := h.accesses }

theorem Inv.consumerStep (h : m.Inv) (lag : ℕ) : (m.consumerStep lag).Inv := by
  unfold Machine.consumerStep
  cases hpc : m.consumer with
  | idle => exact h
  | holding slot => exact h
  | store nextReadIdx => exact h.storeRead hpc
  | reload readIdx =>
    obtain ⟨c, hc, -, hok⟩ := h.consumer
    unfold ConsumerOk at hok
    rw [hpc] at hok
    obtain ⟨hread, hle, hlen⟩ := hok
    have hseen := m.queue.writeIdx.seen_le_pick lag
    have hidx := h.writes.acquire_fst lag
    refine (h.acquireWrite lag).withWriteCache hidx le_rfl ?_
    have hle' : m.queue.readIdx.stamp ≤ m.queue.writeIdx.pick lag := hle.trans (hc.trans hseen)
    split_ifs with heq
    · exact ⟨hle', hlen⟩
    · refine ⟨hread, lt_of_le_of_ne hle' fun h' => heq ?_, hlen⟩
      refine hidx.trans ?_
      rw [← h', hread]

/-! ### The consumer and the object that it holds -/

/-- A consumer that holds a pointer has seen the oldest element. -/
theorem Inv.holding (h : m.Inv) {slot : ℕ} (hpc : m.consumer = .holding slot) :
    slot = m.queue.readIdx.stamp % m.queue.capacity ∧
      m.queue.readIdx.stamp < m.queue.writeIdx.seen ∧
      m.destroyed.length = m.queue.readIdx.stamp := by
  obtain ⟨c, hc, -, hok⟩ := h.consumer
  unfold ConsumerOk at hok
  rw [hpc] at hok
  exact ⟨hok.1, hok.2.1.trans_le hc, hok.2.2⟩

/-- It finds that element in its slot. -/
theorem Inv.access_oldest (h : m.Inv) (hseen : m.queue.readIdx.stamp < m.queue.writeIdx.seen)
    (hlen : m.destroyed.length = m.queue.readIdx.stamp) :
    ∃ x, m.added[m.queue.readIdx.stamp]? = some x ∧
      m.queue.access .consumer (m.queue.readIdx.stamp % m.queue.capacity) = .ok (some x) := by
  have hpos := h.capacity_pos
  have hlt : m.queue.readIdx.stamp < m.added.length := by
    rw [h.added]
    exact hseen.trans_le m.queue.writeIdx.seen_le_stamp
  refine ⟨m.added[m.queue.readIdx.stamp], List.getElem?_eq_getElem hlt, ?_⟩
  rw [h.access_eq .consumer hlen.le (by omega) fun u c => h.consumer_synced hseen]
  rw [constructed, List.getElem?_append_left hlt, List.getElem?_eq_getElem hlt]

/-- The consumer uses the oldest element. -/
theorem Inv.deref (h : m.Inv) {slot : ℕ} (hpc : m.consumer = .holding slot) :
    ∃ x, m.added[m.queue.readIdx.stamp]? = some x ∧
      m.queue.deref slot = .ok (x, m.queue.touch .consumer slot (some x)) := by
  obtain ⟨rfl, hseen, hlen⟩ := h.holding hpc
  obtain ⟨x, hx, haccess⟩ := h.access_oldest hseen hlen
  refine ⟨x, hx, ?_⟩
  unfold SPSCQueue.deref
  rw [haccess]
  rfl

theorem Inv.used (h : m.Inv) {slot : ℕ} (hpc : m.consumer = .holding slot) {x : α}
    (hx : m.added[m.queue.readIdx.stamp]? = some x) :
    ({ m with queue := m.queue.touch .consumer slot (some x) } : Machine α).Inv := by
  obtain ⟨rfl, hseen, hlen⟩ := h.holding hpc
  have hobjects : ∀ i, m.destroyed.length ≤ i → i < m.destroyed.length + m.queue.capacity →
      ∃ slot, (m.queue.touch .consumer (m.queue.readIdx.stamp % m.queue.capacity) (some x)).slots[
          i % m.queue.capacity + m.queue.kPadding]? = some slot ∧
        slot.object = m.constructed[i]? := by
    intro i hi hi'
    rw [getElem?_touch _ _ _ (h.slot_lt _)]
    split_ifs with heq
    · have hir := RingIndex.eq_of_mod_eq heq.symm (by omega) (by omega)
      refine ⟨_, rfl, ?_⟩
      have hlt := (List.getElem?_eq_some_iff.1 hx).1
      rw [← hir, constructed, List.getElem?_append_left hlt, hx]
    · exact h.objects i hi hi'
  exact
    { two_le := h.two_le
      length := (List.length_set ..).trans h.length
      writes := h.writes
      reads := h.reads
      added := h.added
      destroyed := h.destroyed
      room := h.room
      readCache := h.readCache
      producer := h.producer
      consumer := h.consumer
      objects := hobjects
      accesses := h.accesses_touch .consumer (some x) rfl (fun u => le_rfl) hseen }

theorem Inv.use (h : m.Inv) : ∃ m', m.use = .ok m' ∧ m'.Inv := by
  unfold Machine.use
  cases hpc : m.consumer with
  | holding slot =>
    obtain ⟨x, hx, hderef⟩ := h.deref hpc
    have hused := h.used hpc hx
    rw [hpc] at hused
    refine ⟨_, ?_, hused⟩
    simp only
    rw [hderef]
    rfl
  | _ => exact ⟨m, rfl, h⟩

/-- The assertion of `pop` holds: its load sees at least what the pointer was based on. -/
theorem Inv.assertNotEmpty (h : m.Inv) {slot : ℕ} (hpc : m.consumer = .holding slot)
    (lag : Option ℕ) :
    ∃ queue, m.queue.assertNotEmpty lag = .ok queue ∧ ({ m with queue } : Machine α).Inv ∧
      queue.capacity = m.queue.capacity ∧ queue.readIdx = m.queue.readIdx := by
  cases lag with
  | none => exact ⟨m.queue, rfl, h, rfl, rfl⟩
  | some lag =>
    obtain ⟨-, hseen, -⟩ := h.holding hpc
    have hpick := m.queue.writeIdx.seen_le_pick lag
    have hstamp := m.queue.writeIdx.pick_le_stamp lag
    have hread := m.queue.readIdx.seen_le_stamp
    have hroom := h.room
    have hadded := h.added_le_constructed
    have hne : (m.queue.writeIdx.acquire lag).1 ≠ m.queue.readIdx.newest := by
      rw [h.writes.acquire_fst, h.reads.newest]
      intro heq
      have hsame := RingIndex.eq_of_mod_eq heq.symm (by omega) (by omega)
      omega
    exact ⟨_, if_neg hne, h.acquireWrite lag, rfl, rfl⟩

/-- The consumer destroys the oldest element. -/
theorem Inv.destroy (h : m.Inv) {slot : ℕ} (hpc : m.consumer = .holding slot) :
    ∃ x, m.added[m.queue.readIdx.stamp]? = some x ∧
      m.queue.destroy m.queue.readIdx.newest =
        .ok (x, m.queue.touch .consumer m.queue.readIdx.newest none) := by
  obtain ⟨-, hseen, hlen⟩ := h.holding hpc
  obtain ⟨x, hx, haccess⟩ := h.access_oldest hseen hlen
  refine ⟨x, hx, ?_⟩
  unfold SPSCQueue.destroy
  rw [h.reads.newest, haccess]
  rfl

theorem Inv.destroyOldest (h : m.Inv) {slot : ℕ} (hpc : m.consumer = .holding slot) {x : α}
    (hx : m.added[m.queue.readIdx.stamp]? = some x) :
    ({ m with
      queue := m.queue.touch .consumer m.queue.readIdx.newest none
      consumer := .store (RingIndex.advance m.queue.capacity m.queue.readIdx.newest)
      destroyed := m.destroyed ++ [x] } : Machine α).Inv := by
  obtain ⟨c, hc, hcache, hok⟩ := h.consumer
  unfold ConsumerOk at hok
  rw [hpc] at hok
  obtain ⟨-, hlt, hlen⟩ := hok
  have hnewest := h.reads.newest
  have hread := m.queue.readIdx.seen_le_stamp
  have hroom := h.room
  have hlen' : (m.destroyed ++ [x]).length = m.destroyed.length + 1 := List.length_append
  have hobjects : ∀ i, (m.destroyed ++ [x]).length ≤ i →
      i < (m.destroyed ++ [x]).length + m.queue.capacity →
      ∃ slot, (m.queue.touch .consumer m.queue.readIdx.newest none).slots[
          i % m.queue.capacity + m.queue.kPadding]? = some slot ∧
        slot.object = m.constructed[i]? := by
    intro i hi hi'
    rw [hnewest, getElem?_touch _ _ _ (h.slot_lt _)]
    split_ifs with heq
    · -- the next element in this slot is not there yet
      have hround := RingIndex.add_le_of_mod_eq heq.symm (by omega)
      refine ⟨_, rfl, ?_⟩
      rw [List.getElem?_eq_none (by omega)]
    · have hne : i ≠ m.destroyed.length + m.queue.capacity := fun h' => heq (by
        rw [h', hlen, Nat.add_mod_right])
      exact h.objects i (by omega) (by omega)
  exact
    { two_le := h.two_le
      length := (List.length_set ..).trans h.length
      writes := h.writes
      reads := h.reads
      added := h.added
      destroyed := by
        refine concat_prefix h.destroyed ?_
        rw [hlen]
        exact hx
      room := h.room
      readCache := h.readCache
      producer := h.producer
      consumer := by
        refine ⟨c, hc, hcache, ?_, hlt, ?_⟩
        · show RingIndex.advance _ _ = _
          rw [hnewest]
          exact RingIndex.advance_mod h.capacity_pos _
        · exact hlen'.trans (congrArg (· + 1) hlen)
      objects := hobjects
      accesses := by
        rw [hnewest]
        exact h.accesses_touch .consumer none rfl (fun u => le_rfl) (hlt.trans_le hc) }

/-- The call of `pop`, up to the store. -/
theorem Inv.callPop_eq (h : m.Inv) {slot : ℕ} (hpc : m.consumer = .holding slot)
    (lag : Option ℕ) :
    ∃ queue x, m.callPop lag = .ok
        { m with
          queue
          consumer := .store (RingIndex.advance m.queue.capacity m.queue.readIdx.newest)
          destroyed := m.destroyed ++ [x] } ∧
      ({ m with
        queue
        consumer := .store (RingIndex.advance m.queue.capacity m.queue.readIdx.newest)
        destroyed := m.destroyed ++ [x] } : Machine α).Inv ∧
      queue.capacity = m.queue.capacity ∧ queue.readIdx = m.queue.readIdx := by
  obtain ⟨queue, hassert, h', hcap, hread⟩ := h.assertNotEmpty hpc lag
  obtain ⟨x, hx, hdestroy⟩ := h'.destroy hpc
  have hinv := h'.destroyOldest hpc hx
  dsimp only at hdestroy hinv
  rw [hread] at hdestroy hinv
  rw [hcap] at hinv
  refine ⟨_, x, ?_, hinv, hcap, hread⟩
  unfold Machine.callPop
  rw [hpc]
  simp only
  rw [hassert]
  dsimp only [bind, Except.bind]
  rw [hdestroy]
  rfl

theorem Inv.callPop (h : m.Inv) (lag : Option ℕ) : ∃ m', m.callPop lag = .ok m' ∧ m'.Inv := by
  cases hpc : m.consumer with
  | holding slot =>
    obtain ⟨queue, x, hok, hinv, -⟩ := h.callPop_eq hpc lag
    exact ⟨_, hok, hinv⟩
  | _ => exact ⟨m, by unfold Machine.callPop; rw [hpc], h⟩

end

/-! ### Runs -/

/-- No step faults, and every step keeps the invariant. -/
theorem Inv.step {m : Machine α} (h : m.Inv) (e : Event α) : ∃ m', m.step e = .ok m' ∧ m'.Inv := by
  cases e with
  | emplace blocking x => exact ⟨_, rfl, h.callEmplace blocking x⟩
  | producer lag => exact h.producerStep lag
  | empty lag => exact ⟨_, rfl, h.callEmpty lag⟩
  | front => exact ⟨_, rfl, h.callFront⟩
  | use => exact h.use
  | pop lag => exact h.callPop lag
  | consumer lag => exact ⟨_, rfl, h.consumerStep lag⟩

end Machine

end Rigtorp

end UltraMds
