import UltraMds.DataHandler.UnitProcessor
import UltraMds.Library.BoundedFifo
import UltraMds.Library.Emplace
import UltraMds.Library.RoundRobin

/-!
# The dispatcher

`Dispatcher.initDispatcher` fills the static routing table: the contract of validator `i` goes to
queue `i % n`.  `Dispatcher.dispatch` looks up the contract of a packet and puts a tick into its
queue.

Queues and validators belong to the starter; the dispatcher holds pointers to them.  A pointer is
a number here, and what it points at is in a heap, a function from pointers.

For fresh validators of a contract list, one for each position, `lookup_forContracts` and
`route_forContracts_iff` are the specification of the table that the rest of the development uses:
a text is found exactly when it is a contract of the list, and it goes to the first position of
that contract.
-/

namespace UltraMds

/-- `rigtorp::SPSCQueue<T>`, taken as a bounded queue. -/
abbrev SPSCQueue (α : Type) := BoundedFifo α

/-- The constructor `SPSCQueue(capacity)`: the queue needs at least one element. -/
def SPSCQueue.construct (α : Type) (capacity : ℕ) : SPSCQueue α :=
  if h : capacity < 1 then { capacity := 1, capacity_pos := one_pos, length_le := Nat.zero_le _ }
  else { capacity, capacity_pos := not_lt.1 h, length_le := Nat.zero_le _ }

@[simp] theorem SPSCQueue.construct_items (α : Type) (capacity : ℕ) :
    (SPSCQueue.construct α capacity).items = [] := by
  unfold SPSCQueue.construct
  split_ifs <;> rfl

/-- `DispatchUnit`: a position among the queues and one among the validators. -/
structure DispatchUnit where
  indexContract : ℕ
  indexUnitProcessor : ℕ
  deriving DecidableEq

/-- The static dispatcher. -/
structure Dispatcher where
  contracts : List ℕ := []
  unitProcessors : List ℕ := []
  mapping : List (List Int8 × DispatchUnit) := []

namespace Dispatcher

/-- One iteration of the loop of `initDispatcher`, on the table and `threadIdx_`. -/
def assignStep (n : ℕ) (s : List (List Int8 × DispatchUnit) × ℕ) (entry : String × ℕ) :
    List (List Int8 × DispatchUnit) × ℕ :=
  (Emplace.emplace s.1 (chars entry.1) ⟨s.2, entry.2⟩, RoundRobin.next n s.2)

/-- `Dispatcher::initDispatcher(contractList, tickQueues, n_processors)`, which does not read the
contract list but asks the validators for their names. -/
def initDispatcher (d : Dispatcher) (heap : ℕ → UnitProcessor) (tickQueues : List ℕ)
    (nProcessors : List ℕ) : Dispatcher :=
  let names := nProcessors.map fun p => (heap p).getContractName
  { contracts := tickQueues
    unitProcessors := nProcessors
    mapping := (names.zipIdx.foldl (assignStep tickQueues.length) (d.mapping, 0)).1 }

/-- `mapping_.find(std::string_view(data.InstrumentID))`. -/
def find? (d : Dispatcher) (data : CThostFtdcDepthMarketDataField) : Option DispatchUnit :=
  d.mapping.lookup (cText data.instrumentID)

/-- The queue and the validator that a packet goes to.  An index out of range, which
`initDispatcher` never stores, gives `none` too. -/
def route (d : Dispatcher) (data : CThostFtdcDepthMarketDataField) : Option (ℕ × ℕ) := do
  let unit ← d.find? data
  let queue ← d.contracts[unit.indexContract]?
  let detector ← d.unitProcessors[unit.indexUnitProcessor]?
  return (queue, detector)

/-- `Dispatcher::dispatch(data)` at the time `now`, on the heap of the queues.  A full queue makes
it log the loss of the tick and nothing else. -/
def dispatch (d : Dispatcher) (queues : ℕ → SPSCQueue TickData)
    (data : CThostFtdcDepthMarketDataField) (now : ℤ) : ℕ → SPSCQueue TickData :=
  match d.route data with
  | some (queue, detector) =>
    Function.update queues queue
      ((queues queue).tryPush (TickData.construct data (some detector) now)).2
  | none => queues

/-! ### The routing table -/

/-- The loop fills in the names in order, with the wrapping index for queue. -/
theorem foldl_assignStep (n : ℕ) (names : List String) (m : List (List Int8 × DispatchUnit))
    (i : ℕ) :
    (names.zipIdx i).foldl (assignStep n) (m, i % n) =
      (Emplace.emplaceAll m
        (((names.map chars).zipIdx i).map fun ki => (ki.1, ⟨ki.2 % n, ki.2⟩)),
        (i + names.length) % n) := by
  induction names generalizing m i with
  | nil => rfl
  | cons name names ih =>
    have hlen : i + 1 + names.length = i + (name :: names).length := by
      rw [List.length_cons]
      omega
    rw [List.zipIdx_cons, List.foldl_cons, assignStep, RoundRobin.next_mod, ih, hlen]
    rfl

/-- **What the table says**: a text is bound exactly when it is the name of a validator, to the
first position of that name and to the queue whose turn it was. -/
theorem lookup_initDispatcher (heap : ℕ → UnitProcessor) (tickQueues nProcessors : List ℕ)
    (key : List Int8) :
    (initDispatcher {} heap tickQueues nProcessors).mapping.lookup key =
      let names := nProcessors.map fun p => chars (heap p).getContractName
      if key ∈ names then
        some ⟨names.idxOf key % tickQueues.length, names.idxOf key⟩
      else none := by
  have hfold := foldl_assignStep tickQueues.length
    (nProcessors.map fun p => (heap p).getContractName) [] 0
  rw [Nat.zero_mod, List.map_map] at hfold
  refine (congrArg (fun s => s.1.lookup key) hfold).trans ?_
  refine (Emplace.lookup_emplaceAll _ _ _).trans ?_
  exact Emplace.lookup_zipIdx_map _ (fun i => (⟨i % tickQueues.length, i⟩ : DispatchUnit)) key

/-! ### The table of a contract list -/

/-- The heap in which the pointer `p` points at the `p`-th validator of the vector. -/
def heapOf (unitProcessors : List UnitProcessor) (p : ℕ) : UnitProcessor :=
  unitProcessors.getD p (UnitProcessor.fresh "" {})

/-- A fresh validator for each position of a contract list. -/
def freshProcessors (contractList : List String) (config : String → SpecialConfig) :
    List UnitProcessor :=
  contractList.map fun c => UnitProcessor.fresh c (config c)

/-- The dispatcher for fresh validators of a contract list and `n` queues. -/
def forContracts (contractList : List String) (config : String → SpecialConfig) (n : ℕ) :
    Dispatcher :=
  initDispatcher {} (heapOf (freshProcessors contractList config)) (List.range n)
    (List.range contractList.length)

variable {contractList : List String} {config : String → SpecialConfig} {n : ℕ}

theorem length_freshProcessors (contractList : List String) (config : String → SpecialConfig) :
    (freshProcessors contractList config).length = contractList.length := List.length_map _

theorem heapOf_idxOf {c : String} (hc : c ∈ contractList) :
    heapOf (freshProcessors contractList config) (contractList.idxOf c) =
      UnitProcessor.fresh c (config c) := by
  have hlt := List.idxOf_lt_length_of_mem hc
  have hget : (freshProcessors contractList config)[contractList.idxOf c]? =
      some (UnitProcessor.fresh c (config c)) := by
    rw [freshProcessors, List.getElem?_map, List.getElem?_eq_getElem hlt, List.getElem_idxOf hlt]
    rfl
  rw [heapOf, List.getD_eq_getElem?_getD, hget]
  rfl

theorem names_freshProcessors :
    ((List.range contractList.length).map fun p =>
      chars (heapOf (freshProcessors contractList config) p).getContractName) =
      contractList.map chars := by
  apply List.ext_getElem
  · simp
  · intro i h1 h2
    have hi : i < contractList.length := by simpa using h2
    simp [heapOf, freshProcessors, hi, UnitProcessor.getContractName, UnitProcessor.fresh]

theorem idxOf_map_chars (c : String) :
    (contractList.map chars).idxOf (chars c) = contractList.idxOf c := by
  induction contractList with
  | nil => rfl
  | cons d ds ih =>
    by_cases hd : d = c
    · simp [hd]
    · have hchars : chars d ≠ chars c := fun h => hd (chars_injective h)
      rw [List.map_cons, List.idxOf_cons_ne _ hchars, List.idxOf_cons_ne _ hd, ih]

/-- A contract of the list has the entry of its first position. -/
theorem lookup_forContracts {c : String} (hc : c ∈ contractList) :
    (forContracts contractList config n).mapping.lookup (chars c) =
      some ⟨contractList.idxOf c % n, contractList.idxOf c⟩ := by
  unfold forContracts
  rw [lookup_initDispatcher, names_freshProcessors]
  simp only
  rw [if_pos (List.mem_map_of_mem hc), idxOf_map_chars, List.length_range]

/-- Nothing but the contracts of the list has an entry. -/
theorem exists_of_lookup_forContracts {key : List Int8} {unit : DispatchUnit}
    (h : (forContracts contractList config n).mapping.lookup key = some unit) :
    ∃ c ∈ contractList, chars c = key := by
  unfold forContracts at h
  rw [lookup_initDispatcher, names_freshProcessors] at h
  simp only at h
  by_contra hnot
  rw [if_neg fun hmem => hnot (List.mem_map.1 hmem)] at h
  cases h

/-- **Where a packet goes**: to the first validator of its contract, by the queue that took turns
with it. -/
theorem route_forContracts_iff (hn : 0 < n) {data : CThostFtdcDepthMarketDataField} {q p : ℕ} :
    (forContracts contractList config n).route data = some (q, p) ↔
      ∃ c ∈ contractList, chars c = cText data.instrumentID ∧
        q = contractList.idxOf c % n ∧ p = contractList.idxOf c := by
  have hroute : ∀ c ∈ contractList, chars c = cText data.instrumentID →
      (forContracts contractList config n).route data =
        some (contractList.idxOf c % n, contractList.idxOf c) := by
    intro c hc hname
    have hq : contractList.idxOf c % n < n := Nat.mod_lt _ hn
    have hp := List.idxOf_lt_length_of_mem hc
    unfold route find?
    rw [← hname, lookup_forContracts hc]
    simp [forContracts, initDispatcher, hq, hp]
  constructor
  · intro h
    cases hfind : (forContracts contractList config n).find? data with
    | none =>
      rw [route, hfind] at h
      cases h
    | some unit =>
      obtain ⟨c, hc, hname⟩ := exists_of_lookup_forContracts hfind
      rw [hroute c hc hname] at h
      cases h
      exact ⟨c, hc, hname, rfl, rfl⟩
  · rintro ⟨c, hc, hname, rfl, rfl⟩
    exact hroute c hc hname

end Dispatcher

end UltraMds
