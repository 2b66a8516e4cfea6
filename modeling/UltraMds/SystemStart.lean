import UltraMds.Configrelated.ConfigRead
import UltraMds.CtpRelated.Dispatcher
import UltraMds.DataHandler.TickHandler
import UltraMds.Library.Checked
import UltraMds.Library.Fallible

/-!
# The start of the system

`handlerAndDispatcherStart` builds one validator for each contract of the list, decides how many
handlers there are, gives each handler a queue and fills the routing table.  What the host
answers on the way is a parameter (`Host`), the memory for all of it is taken to be there.

`handlerAndDispatcherStart_iff` says how the start ends (`StartEnds`), with an exception, with an
overflow of `int` or with the started system.

`routing_table` says that the three parallel vectors and the table fit together: every contract
is found, with a validator of its name and rules; nothing else is; different contracts never
share a validator, which is therefore called by one handler only; and the contracts are spread
evenly over the queues.
-/

namespace UltraMds

/-- `MAX_TICK_QUEUE_SIZE`. -/
def maxTickQueueSize : ℕ := 8

/-- `getBizCoreId(thread_idx, total_cpu_count)`. -/
def getBizCoreId (threadIdx : ℕ) (totalCpuCount : ℤ) : ℤ :=
  if totalCpuCount ≤ 1 then 0 else (threadIdx : ℤ) % totalCpuCount

/-- What the start leaves behind: the members `UnitProcessors_` and `tickHandlers_`, the queues
in the order of their allocation, and the static dispatcher. -/
structure Started where
  unitProcessors : List UnitProcessor
  tickQueues : List (SPSCQueue TickData)
  tickHandlers : List TickHandler
  dispatcher : Dispatcher

/-- How the start fails: an exception of the library, `std::runtime_error`, `std::length_error`,
`std::system_error`, or an overflow of `int`, of which the language does not say what follows. -/
inductive StartError
  | json (e : JsonError)
  | runtimeError (what : String)
  | lengthError
  | systemError (what : String)
  | overflow
  deriving DecidableEq

/-- The host as the start meets it: the number of processors that it reports, and for each
handler the text of the exception when its socket or its thread cannot be made, and the result of
`pthread_setaffinity_np` for a core. -/
structure Host where
  sysconf : ℤ
  openSocket : ℕ → Option String := fun _ => none
  createThread : ℕ → Option String := fun _ => none
  setAffinity : ℕ → ℤ → ℤ := fun _ _ => 0

/-- `cpu_count` after the check of the system's answer. -/
def cpuCount (sysconf : ℤ) : ℤ := if sysconf ≤ 0 then 1 else sysconf

/-- `available_core_num`, narrowed from `long` to `int`. -/
def availableCoreNum (sysconf : ℤ) : ℤ :=
  if cpuCount sysconf > 1 then toInt (cpuCount sysconf) else 1

/-- `thread_num`. -/
def threadNum (sysconf contractNum : ℤ) : ℕ :=
  (max 1 (min (availableCoreNum sysconf) contractNum)).toNat

/-- `multisize`. -/
def multisize (sysconf contractNum : ℤ) : ℤ :=
  max 1 (contractNum.tdiv (threadNum sysconf contractNum))

/-- `queue_size`, `none` if the product overflows. -/
def queueSize (sysconf contractNum : ℤ) : Option ℤ :=
  Checked.mul 32 (multisize sysconf contractNum) maxTickQueueSize

/-- The loop body that makes a handler and starts it. -/
def startHandler (host : Host) (i : ℕ) : Except StartError TickHandler := do
  let coreId := getBizCoreId i (cpuCount host.sysconf)
  Except.mapError .runtimeError (TickHandler.initUdpMulticast (host.openSocket i))
  if let some what := host.createThread i then throw (.systemError what)
  Except.mapError .runtimeError (TickHandler.setThreadAffinity (host.setAffinity i coreId))
  return TickHandler.start { myQueueTick := i } coreId

/-- The rest of the start once the validators are built: queues, handlers and routing table.  The
loop of `initDispatcher` counts the validators in an `int`. -/
def createHandlers (unitProcessors : List UnitProcessor) (contractNum : ℤ) (host : Host) :
    Except StartError Started :=
  match queueSize host.sysconf contractNum with
  | none => .error .overflow
  | some size => do
    let tickHandlers ←
      (List.range (threadNum host.sysconf contractNum)).mapM (startHandler host)
    if Checked.Fits 32 unitProcessors.length then
      .ok {
        unitProcessors
        tickQueues := (List.range (threadNum host.sysconf contractNum)).map fun _ =>
          SPSCQueue.construct TickData size.toNat
        tickHandlers
        dispatcher :=
          Dispatcher.initDispatcher {} (Dispatcher.heapOf unitProcessors)
            (List.range (threadNum host.sysconf contractNum))
            (List.range unitProcessors.length) }
    else .error .overflow

section

variable (makeAddress : String → Option Address) (mConfigReader : ConfigReader)
  (mGlobalValidationRules : Json)

/-- The loop body that builds the validator of a contract. -/
def createUnitProcessor (contract : String) : Except JsonError UnitProcessor :=
  let contractConfig := mConfigReader.getContractValidationConfig contract
  UnitProcessor.construct makeAddress contract mGlobalValidationRules contractConfig

/-- `SystemStarter::HandlerAndDispatcherStart`. -/
def handlerAndDispatcherStart (contractList : List String) (host : Host) :
    Except StartError Started :=
  let contractNum := toInt contractList.length
  -- `reserve(contract_num)`, a negative number being a huge `size_t`
  if contractNum < 0 then .error .lengthError
  else do
    let unitProcessors ← Except.mapError .json
      (contractList.mapM (createUnitProcessor makeAddress mConfigReader mGlobalValidationRules))
    createHandlers unitProcessors contractNum host

/-- The rules of a contract, when they can be read. -/
def loadRules (contract : String) : Except JsonError SpecialConfig :=
  SpecialConfig.fromJson makeAddress mGlobalValidationRules
    (ConfigReader.contractRules mConfigReader.mJson contract)

/-- The rules of a contract, the default ones when they cannot be read. -/
def rulesOf (contract : String) : SpecialConfig :=
  (loadRules makeAddress mConfigReader mGlobalValidationRules contract).toOption.getD {}

end

/-- What the start leaves behind when nothing fails, for the rules `config` of the contracts. -/
def startHandlers (contractList : List String) (config : String → SpecialConfig) (sysconf : ℤ) :
    Started :=
  let threads := List.range (threadNum sysconf contractList.length)
  let size := multisize sysconf contractList.length * maxTickQueueSize
  { unitProcessors := Dispatcher.freshProcessors contractList config
    tickQueues := threads.map fun _ => SPSCQueue.construct TickData size.toNat
    tickHandlers := threads.map fun i =>
      TickHandler.start { myQueueTick := i } (getBizCoreId i (cpuCount sysconf))
    dispatcher :=
      Dispatcher.forContracts contractList config (threadNum sysconf contractList.length) }

/-! ### How the start ends -/

/-- What goes wrong with handler `i`: its socket, its thread, or the binding to its core. -/
def Host.failure (host : Host) (i : ℕ) : Option StartError :=
  match host.openSocket i, host.createThread i with
  | some what, _ => some (.runtimeError ("UDP multicast init failed: " ++ what))
  | none, some what => some (.systemError what)
  | none, none =>
    if host.setAffinity i (getBizCoreId i (cpuCount host.sysconf)) = 0 then none
    else some (.runtimeError "线程核心绑定失败")

theorem startHandler_eq (host : Host) (i : ℕ) :
    startHandler host i =
      match host.failure i with
      | some e => .error e
      | none =>
        .ok (TickHandler.start { myQueueTick := i } (getBizCoreId i (cpuCount host.sysconf))) := by
  unfold startHandler Host.failure TickHandler.initUdpMulticast TickHandler.setThreadAffinity
  cases host.openSocket i with
  | some what => rfl
  | none =>
    cases host.createThread i with
    | some what => rfl
    | none =>
      by_cases hret : host.setAffinity i (getBizCoreId i (cpuCount host.sysconf)) = 0
      · simp [hret]
        rfl
      · simp [hret]
        rfl

section

variable (makeAddress : String → Option Address) (mConfigReader : ConfigReader)
  (mGlobalValidationRules : Json) (contractList : List String) (host : Host)

/-- The rules of every contract can be read. -/
def RulesLoad : Prop :=
  ∀ c ∈ contractList, ∃ config,
    loadRules makeAddress mConfigReader mGlobalValidationRules c = .ok config

/-- `queue_size` fits into its `int`. -/
abbrev SizeFits : Prop :=
  Checked.Fits 32 (multisize host.sysconf (toInt contractList.length) * maxTickQueueSize)

/-- All handlers can be made, started and bound. -/
abbrev HandlersStart : Prop :=
  ∀ i < threadNum host.sysconf (toInt contractList.length), host.failure i = none

/-- The ways in which the start ends, in the order in which it comes upon them. -/
inductive StartEnds : Except StartError Started → Prop
  | tooMany (hcount : toInt contractList.length < 0) : StartEnds (.error .lengthError)
  | badRules {done rest : List String} {c : String} {e : JsonError}
      (hcount : 0 ≤ toInt contractList.length) (hlist : contractList = done ++ c :: rest)
      (hdone : RulesLoad makeAddress mConfigReader mGlobalValidationRules done)
      (hc : loadRules makeAddress mConfigReader mGlobalValidationRules c = .error e) :
      StartEnds (.error (.json e))
  | sizeOverflow (hcount : 0 ≤ toInt contractList.length)
      (hrules : RulesLoad makeAddress mConfigReader mGlobalValidationRules contractList)
      (hsize : ¬ SizeFits contractList host) : StartEnds (.error .overflow)
  | handlerFails {i : ℕ} {e : StartError} (hcount : 0 ≤ toInt contractList.length)
      (hrules : RulesLoad makeAddress mConfigReader mGlobalValidationRules contractList)
      (hsize : SizeFits contractList host)
      (hi : i < threadNum host.sysconf (toInt contractList.length))
      (hbefore : ∀ j < i, host.failure j = none) (hfailure : host.failure i = some e) :
      StartEnds (.error e)
  | indexOverflow (hcount : 0 ≤ toInt contractList.length)
      (hrules : RulesLoad makeAddress mConfigReader mGlobalValidationRules contractList)
      (hsize : SizeFits contractList host) (hstart : HandlersStart contractList host)
      (hlarge : 2 ^ 31 ≤ contractList.length) : StartEnds (.error .overflow)
  | runs (hcount : contractList.length < 2 ^ 31)
      (hrules : RulesLoad makeAddress mConfigReader mGlobalValidationRules contractList)
      (hsize : SizeFits contractList host) (hstart : HandlersStart contractList host) :
      StartEnds (.ok (startHandlers contractList
        (rulesOf makeAddress mConfigReader mGlobalValidationRules) host.sysconf))

end

/-- The number of contracts is kept by `int` when it fits. -/
theorem toInt_length {contractList : List String} (h : contractList.length < 2 ^ 31) :
    toInt contractList.length = contractList.length :=
  toInt_eq_self (by omega)

section

variable {makeAddress : String → Option Address} {mConfigReader : ConfigReader}
  {mGlobalValidationRules : Json} {contractList : List String} {host : Host}

theorem createUnitProcessor_eq (c : String) :
    createUnitProcessor makeAddress mConfigReader mGlobalValidationRules c =
      loadRules makeAddress mConfigReader mGlobalValidationRules c >>=
        fun config => .ok (UnitProcessor.fresh c config) := by
  rw [createUnitProcessor, ConfigReader.getContractValidationConfig_eq]
  rfl

/-- Rules that can be read make a fresh validator for each position of the list. -/
theorem mapM_createUnitProcessor
    (h : RulesLoad makeAddress mConfigReader mGlobalValidationRules contractList) :
    contractList.mapM (createUnitProcessor makeAddress mConfigReader mGlobalValidationRules) =
      .ok (Dispatcher.freshProcessors contractList
        (rulesOf makeAddress mConfigReader mGlobalValidationRules)) := by
  refine Fallible.mapM_eq_ok fun c hc => ?_
  obtain ⟨config, hconfig⟩ := h c hc
  rw [createUnitProcessor_eq, rulesOf, hconfig]
  rfl

theorem mapM_createUnitProcessor_eq_error {done rest : List String} {c : String} {e : JsonError}
    (hdone : RulesLoad makeAddress mConfigReader mGlobalValidationRules done)
    (hc : loadRules makeAddress mConfigReader mGlobalValidationRules c = .error e) :
    (done ++ c :: rest).mapM
      (createUnitProcessor makeAddress mConfigReader mGlobalValidationRules) = .error e := by
  refine Fallible.mapM_eq_error_iff.2 ⟨done, c, rest, rfl, fun d hd => ?_, ?_⟩
  · obtain ⟨config, hconfig⟩ := hdone d hd
    rw [createUnitProcessor_eq, hconfig]
    exact ⟨_, rfl⟩
  · rw [createUnitProcessor_eq, hc]
    rfl

/-- The rules of all contracts can be read, or those of a first one cannot. -/
theorem rulesLoad_or (makeAddress : String → Option Address) (mConfigReader : ConfigReader)
    (mGlobalValidationRules : Json) (contractList : List String) :
    RulesLoad makeAddress mConfigReader mGlobalValidationRules contractList ∨
      ∃ done c rest e, contractList = done ++ c :: rest ∧
        RulesLoad makeAddress mConfigReader mGlobalValidationRules done ∧
        loadRules makeAddress mConfigReader mGlobalValidationRules c = .error e := by
  cases h : contractList.mapM (loadRules makeAddress mConfigReader mGlobalValidationRules) with
  | ok configs => exact .inl (Fallible.exists_of_mapM_eq_ok h)
  | error e =>
    obtain ⟨done, c, rest, hlist, hdone, hc⟩ := Fallible.mapM_eq_error_iff.1 h
    exact .inr ⟨done, c, rest, e, hlist, hdone, hc⟩

/-- Handlers that nothing goes wrong with. -/
theorem mapM_startHandler (h : HandlersStart contractList host) :
    (List.range (threadNum host.sysconf (toInt contractList.length))).mapM
        (startHandler host) =
      .ok ((List.range (threadNum host.sysconf (toInt contractList.length))).map fun i =>
        TickHandler.start { myQueueTick := i } (getBizCoreId i (cpuCount host.sysconf))) := by
  refine Fallible.mapM_eq_ok fun i hi => ?_
  rw [startHandler_eq, h i (List.mem_range.1 hi)]

theorem queueSize_eq_some (h : SizeFits contractList host) :
    queueSize host.sysconf (toInt contractList.length) =
      some (multisize host.sysconf (toInt contractList.length) * maxTickQueueSize) := by
  rw [queueSize]
  exact Checked.mul_eq_some h

theorem queueSize_eq_none (h : ¬ SizeFits contractList host) :
    queueSize host.sysconf (toInt contractList.length) = none := by
  rw [queueSize]
  exact Checked.mul_eq_none h

/-- With rules for every contract the start is that of the handlers. -/
theorem handlerAndDispatcherStart_of_rulesLoad (hcount : 0 ≤ toInt contractList.length)
    (hrules : RulesLoad makeAddress mConfigReader mGlobalValidationRules contractList) :
    handlerAndDispatcherStart makeAddress mConfigReader mGlobalValidationRules contractList
        host =
      createHandlers (Dispatcher.freshProcessors contractList
        (rulesOf makeAddress mConfigReader mGlobalValidationRules)) (toInt contractList.length)
        host := by
  unfold handlerAndDispatcherStart
  rw [if_neg hcount.not_gt, mapM_createUnitProcessor hrules, Fallible.mapError_ok,
    Fallible.ok_bind]

/-- Each way is one in which the start does end. -/
theorem StartEnds.eq {r : Except StartError Started}
    (h : StartEnds makeAddress mConfigReader mGlobalValidationRules contractList host r) :
    handlerAndDispatcherStart makeAddress mConfigReader mGlobalValidationRules contractList
      host = r := by
  cases h with
  | tooMany hcount =>
    unfold handlerAndDispatcherStart
    rw [if_pos hcount]
  | badRules hcount hlist hdone hc =>
    unfold handlerAndDispatcherStart
    rw [if_neg hcount.not_gt, hlist, mapM_createUnitProcessor_eq_error hdone hc,
      Fallible.mapError_error, Fallible.error_bind]
  | sizeOverflow hcount hrules hsize =>
    rw [handlerAndDispatcherStart_of_rulesLoad hcount hrules, createHandlers,
      queueSize_eq_none hsize]
  | handlerFails hcount hrules hsize hi hbefore hfailure =>
    have hloop := Fallible.mapM_range_eq_error (f := startHandler host) hi
      (fun j hj => ⟨_, by rw [startHandler_eq, hbefore j hj]⟩)
      (by rw [startHandler_eq, hfailure])
    rw [handlerAndDispatcherStart_of_rulesLoad hcount hrules, createHandlers,
      queueSize_eq_some hsize]
    simp only [hloop, Fallible.error_bind]
  | indexOverflow hcount hrules hsize hstart hlarge =>
    have hlength : ¬ Checked.Fits 32 (Dispatcher.freshProcessors contractList
        (rulesOf makeAddress mConfigReader mGlobalValidationRules)).length := by
      rw [Dispatcher.length_freshProcessors, Checked.fits_32_iff]
      omega
    rw [handlerAndDispatcherStart_of_rulesLoad hcount hrules, createHandlers,
      queueSize_eq_some hsize]
    simp only [mapM_startHandler hstart, Fallible.ok_bind, if_neg hlength]
  | runs hcount hrules hsize hstart =>
    have hlength : Checked.Fits 32 (Dispatcher.freshProcessors contractList
        (rulesOf makeAddress mConfigReader mGlobalValidationRules)).length := by
      rw [Dispatcher.length_freshProcessors, Checked.fits_32_iff]
      omega
    have hnonneg : 0 ≤ toInt contractList.length := by
      rw [toInt_length hcount]
      omega
    rw [handlerAndDispatcherStart_of_rulesLoad hnonneg hrules, createHandlers,
      queueSize_eq_some hsize]
    simp only [mapM_startHandler hstart, Fallible.ok_bind, if_pos hlength]
    rw [toInt_length hcount, Dispatcher.length_freshProcessors]
    rfl

/-- There is always one of them. -/
theorem exists_startEnds (makeAddress : String → Option Address) (mConfigReader : ConfigReader)
    (mGlobalValidationRules : Json) (contractList : List String) (host : Host) :
    ∃ r, StartEnds makeAddress mConfigReader mGlobalValidationRules contractList host r := by
  by_cases hcount : toInt contractList.length < 0
  · exact ⟨_, .tooMany hcount⟩
  · rw [not_lt] at hcount
    rcases rulesLoad_or makeAddress mConfigReader mGlobalValidationRules contractList with
      hrules | ⟨done, c, rest, e, hlist, hdone, hc⟩
    · by_cases hsize : SizeFits contractList host
      · by_cases hstart : HandlersStart contractList host
        · rcases lt_or_ge contractList.length (2 ^ 31) with hlength | hlength
          · exact ⟨_, .runs hlength hrules hsize hstart⟩
          · exact ⟨_, .indexOverflow hcount hrules hsize hstart hlength⟩
        · -- the first handler that something goes wrong with
          have hfails : ∃ i, i < threadNum host.sysconf (toInt contractList.length) ∧
              host.failure i ≠ none := by
            simpa [HandlersStart] using hstart
          classical
          obtain ⟨hi, hfailure⟩ := Nat.find_spec hfails
          obtain ⟨e, he⟩ := Option.ne_none_iff_exists'.1 hfailure
          refine ⟨_, .handlerFails hcount hrules hsize hi (fun j hj => ?_) he⟩
          by_contra hne
          exact Nat.find_min hfails hj ⟨hj.trans hi, hne⟩
      · exact ⟨_, .sizeOverflow hcount hrules hsize⟩
    · exact ⟨_, .badRules hcount hlist hdone hc⟩

/-- **How the start of the handlers ends.** -/
theorem handlerAndDispatcherStart_iff {r : Except StartError Started} :
    handlerAndDispatcherStart makeAddress mConfigReader mGlobalValidationRules contractList
        host = r ↔
      StartEnds makeAddress mConfigReader mGlobalValidationRules contractList host r := by
  constructor
  · rintro rfl
    obtain ⟨r, hr⟩ := exists_startEnds makeAddress mConfigReader mGlobalValidationRules
      contractList host
    rwa [hr.eq]
  · exact StartEnds.eq

/-- The start succeeds exactly when nothing fails, and then there is one fresh validator for each
position of the contract list. -/
theorem handlerAndDispatcherStart_eq_ok_iff {s : Started} :
    handlerAndDispatcherStart makeAddress mConfigReader mGlobalValidationRules contractList
        host = .ok s ↔
      (contractList.length < 2 ^ 31 ∧
        RulesLoad makeAddress mConfigReader mGlobalValidationRules contractList ∧
        SizeFits contractList host ∧ HandlersStart contractList host) ∧
      s = startHandlers contractList
        (rulesOf makeAddress mConfigReader mGlobalValidationRules) host.sysconf := by
  rw [handlerAndDispatcherStart_iff]
  constructor
  · intro h
    cases h with
    | runs hcount hrules hsize hstart => exact ⟨⟨hcount, hrules, hsize, hstart⟩, rfl⟩
  · rintro ⟨⟨hcount, hrules, hsize, hstart⟩, rfl⟩
    exact .runs hcount hrules hsize hstart

end

/-! ### How many threads -/

theorem threadNum_pos (sysconf contractNum : ℤ) : 0 < threadNum sysconf contractNum := by
  unfold threadNum
  generalize availableCoreNum sysconf = available
  omega

/-- There are never more threads than contracts. -/
theorem threadNum_le (sysconf : ℤ) {contractNum : ℕ} (h : 0 < contractNum) :
    threadNum sysconf contractNum ≤ contractNum := by
  unfold threadNum
  generalize availableCoreNum sysconf = available
  omega

/-! ### The routing table -/

/-- The contracts of the list that the table binds to the queue `q`. -/
def Started.assigned (s : Started) (contractList : List String) (q : ℕ) : ℕ :=
  contractList.countP fun c =>
    (s.dispatcher.mapping.lookup (chars c)).any fun unit => unit.indexContract = q

/-- The parts of the started system fit together. -/
structure RoutingTable (contractList : List String)
    (loadRules : String → Except JsonError SpecialConfig) (s : Started) : Prop where
  /-- There are packets of every contract. -/
  named : ∀ c ∈ contractList, cText (strcpy 81 (chars c)) = chars c
  /-- A packet of a contract is found and goes to a queue and a validator that exist, the
  validator having the name and the rules of the contract. -/
  found : ∀ c ∈ contractList, ∀ data : CThostFtdcDepthMarketDataField,
    cText data.instrumentID = chars c →
      ∃ unit u, s.dispatcher.find? data = some unit ∧
        unit.indexContract < s.tickQueues.length ∧
        s.unitProcessors[unit.indexUnitProcessor]? = some u ∧
        s.dispatcher.route data = some (unit.indexContract, unit.indexUnitProcessor) ∧
        u.getContractName = c ∧ loadRules c = .ok u.mConfig
  /-- Only names of the list are bound. -/
  listed : ∀ key unit, s.dispatcher.mapping.lookup key = some unit →
    ∃ c ∈ contractList, chars c = key
  /-- Different contracts have different validators. -/
  separate : ∀ c c' unit unit', s.dispatcher.mapping.lookup (chars c) = some unit →
    s.dispatcher.mapping.lookup (chars c') = some unit' → c ≠ c' →
      unit.indexUnitProcessor ≠ unit'.indexUnitProcessor
  /-- All ticks of a validator go through one queue, which one handler owns. -/
  oneHandler : ∀ data data' q q' p, s.dispatcher.route data = some (q, p) →
    s.dispatcher.route data' = some (q', p) →
      q = q' ∧ ∃! i : ℕ, ∃ h : TickHandler, s.tickHandlers[i]? = some h ∧ h.myQueueTick = q
  /-- Without duplicates, no queue is idle and the queues are evenly loaded. -/
  balanced : contractList.Nodup → ∀ q < s.tickQueues.length,
    1 ≤ s.assigned contractList q ∧
      ∀ q' < s.tickQueues.length, s.assigned contractList q ≤ s.assigned contractList q' + 1

section

variable {contractList : List String} {config : String → SpecialConfig} (sysconf : ℤ)

theorem startHandlers_dispatcher :
    (startHandlers contractList config sysconf).dispatcher =
      Dispatcher.forContracts contractList config (threadNum sysconf contractList.length) := rfl

theorem length_tickQueues :
    (startHandlers contractList config sysconf).tickQueues.length =
      threadNum sysconf contractList.length := by
  simp [startHandlers]

/-- Handler `i` owns queue `i`. -/
theorem tickHandlers_queue (i : ℕ) {q : ℕ} (hq : q < threadNum sysconf contractList.length) :
    (∃ h : TickHandler,
      (startHandlers contractList config sysconf).tickHandlers[i]? = some h ∧
        h.myQueueTick = q) ↔ i = q := by
  simp only [startHandlers, List.getElem?_map, Option.map_eq_some_iff]
  constructor
  · rintro ⟨h, ⟨j, hj, rfl⟩, hqueue⟩
    rw [TickHandler.start_myQueueTick] at hqueue
    obtain ⟨_, hij⟩ := List.getElem?_eq_some_iff.1 hj
    rw [List.getElem_range] at hij
    exact hij.trans hqueue
  · rintro rfl
    exact ⟨_, ⟨i, List.getElem?_range hq, rfl⟩, TickHandler.start_myQueueTick _ _⟩

/-- A queue gets the contracts whose positions take turns with it. -/
theorem assigned_startHandlers (hnodup : contractList.Nodup) (q : ℕ) :
    (startHandlers contractList config sysconf).assigned contractList q =
      RoundRobin.load (threadNum sysconf contractList.length) contractList.length q := by
  rw [← RoundRobin.countP_idxOf hnodup]
  refine List.countP_congr fun c hc => ?_
  rw [startHandlers_dispatcher, Dispatcher.lookup_forContracts hc]
  rfl

theorem routingTable_startHandlers {loadRules : String → Except JsonError SpecialConfig}
    (hne : contractList ≠ [])
    (hnames : ∀ c ∈ contractList, (chars c).length ≤ 80 ∧ (0 : Int8) ∉ chars c)
    (hrules : ∀ c ∈ contractList, loadRules c = .ok (config c)) :
    RoutingTable contractList loadRules (startHandlers contractList config sysconf) := by
  have hpos := threadNum_pos sysconf contractList.length
  have hle := threadNum_le sysconf (List.length_pos_iff.2 hne)
  constructor
  case named =>
    intro c hc
    exact cText_strcpy ((hnames c hc).1.trans (by norm_num)) (hnames c hc).2
  case found =>
    intro c hc data hname
    have hlt := List.idxOf_lt_length_of_mem hc
    refine ⟨⟨contractList.idxOf c % threadNum sysconf contractList.length,
      contractList.idxOf c⟩, UnitProcessor.fresh c (config c), ?_, ?_, ?_, ?_, rfl, hrules c hc⟩
    · rw [startHandlers_dispatcher, Dispatcher.find?, hname]
      exact Dispatcher.lookup_forContracts hc
    · rw [length_tickQueues]
      exact Nat.mod_lt _ hpos
    · show (contractList.map _)[contractList.idxOf c]? = _
      rw [List.getElem?_map, List.getElem?_eq_getElem hlt, List.getElem_idxOf hlt]
      rfl
    · rw [startHandlers_dispatcher]
      exact (Dispatcher.route_forContracts_iff hpos).2 ⟨c, hc, hname.symm, rfl, rfl⟩
  case listed =>
    intro key unit h
    rw [startHandlers_dispatcher] at h
    exact Dispatcher.exists_of_lookup_forContracts h
  case separate =>
    intro c c' unit unit' h h' hcc'
    rw [startHandlers_dispatcher] at h h'
    obtain ⟨d, hd, hdc⟩ := Dispatcher.exists_of_lookup_forContracts h
    obtain ⟨d', hd', hdc'⟩ := Dispatcher.exists_of_lookup_forContracts h'
    rw [chars_inj] at hdc hdc'
    subst hdc hdc'
    rw [Dispatcher.lookup_forContracts hd] at h
    rw [Dispatcher.lookup_forContracts hd'] at h'
    cases h
    cases h'
    exact fun heq => hcc' ((List.idxOf_inj hd).1 heq)
  case oneHandler =>
    intro data data' q q' p h h'
    rw [startHandlers_dispatcher, Dispatcher.route_forContracts_iff hpos] at h h'
    obtain ⟨c, hc, -, rfl, rfl⟩ := h
    obtain ⟨c', hc', -, rfl, hp⟩ := h'
    refine ⟨by rw [hp], _, (tickHandlers_queue sysconf _ (Nat.mod_lt _ hpos)).2 rfl, ?_⟩
    intro i hi
    exact (tickHandlers_queue sysconf i (Nat.mod_lt _ hpos)).1 hi
  case balanced =>
    intro hnodup q hq
    rw [length_tickQueues] at hq
    rw [assigned_startHandlers sysconf hnodup]
    refine ⟨RoundRobin.load_pos hq hle, fun q' hq' => ?_⟩
    rw [length_tickQueues] at hq'
    rw [assigned_startHandlers sysconf hnodup]
    exact RoundRobin.load_le_succ hq hq' contractList.length

end

/-- **The routing table is correct**: for every contract list and every host the start succeeds
exactly when the counts fit into `int`, the rules of every contract can be read and every handler
can be started, and whenever it does, the vectors and the table fit together, the rules of a
contract being those of its object in the configuration file. -/
theorem routing_table (makeAddress : String → Option Address) (mConfigReader : ConfigReader)
    (mGlobalValidationRules : Json) (contractList : List String) (host : Host)
    (hne : contractList ≠ [])
    (hnames : ∀ c ∈ contractList, (chars c).length ≤ 80 ∧ (0 : Int8) ∉ chars c) :
    ((∃ s, handlerAndDispatcherStart makeAddress mConfigReader mGlobalValidationRules contractList
        host = .ok s) ↔
      contractList.length < 2 ^ 31 ∧
        (∀ c ∈ contractList, ∃ config, SpecialConfig.fromJson makeAddress mGlobalValidationRules
          ((mConfigReader.mJson.nodeAt ["validation", "contract_specific", c]).filter
            Json.isObject) = .ok config) ∧
        SizeFits contractList host ∧ HandlersStart contractList host) ∧
    ∀ s, handlerAndDispatcherStart makeAddress mConfigReader mGlobalValidationRules contractList
        host = .ok s →
      RoutingTable contractList
        (fun c => SpecialConfig.fromJson makeAddress mGlobalValidationRules
          ((mConfigReader.mJson.nodeAt ["validation", "contract_specific", c]).filter
            Json.isObject)) s := by
  constructor
  · constructor
    · rintro ⟨s, hs⟩
      exact (handlerAndDispatcherStart_eq_ok_iff.1 hs).1
    · intro h
      exact ⟨_, handlerAndDispatcherStart_eq_ok_iff.2 ⟨h, rfl⟩⟩
  · intro s hs
    obtain ⟨⟨-, hload, -⟩, rfl⟩ := handlerAndDispatcherStart_eq_ok_iff.1 hs
    refine routingTable_startHandlers host.sysconf hne hnames fun c hc => ?_
    obtain ⟨config, hconfig⟩ := hload c hc
    rw [rulesOf, hconfig]
    exact hconfig

/-- A configuration file with rules for all contracts and an entry for one. -/
def sampleReader : ConfigReader :=
  ⟨.object [("validation", .object [
    ("global_default", .object [("tick_size", .numberFloat 1),
      ("Multi_add", .string "239.0.0.1")]),
    ("contract_specific", .object [("IF2603", .object [("port", .numberInteger 8889)])])])]⟩

/-- Three entries, one of them a duplicate, on a host that does not tell its processors. -/
theorem routing_table_sample :
    ∃ s, handlerAndDispatcherStart sampleAddress sampleReader
        (ConfigReader.globalRules sampleReader.mJson) ["IF2603", "rb2410", "IF2603"]
        { sysconf := -1 } = .ok s ∧
      RoutingTable ["IF2603", "rb2410", "IF2603"]
        (fun c => SpecialConfig.fromJson sampleAddress
          (ConfigReader.globalRules sampleReader.mJson)
          ((sampleReader.mJson.nodeAt ["validation", "contract_specific", c]).filter
            Json.isObject)) s := by
  have h := routing_table sampleAddress sampleReader (ConfigReader.globalRules sampleReader.mJson)
    ["IF2603", "rb2410", "IF2603"] { sysconf := -1 } (by simp) (by decide)
  have hload : ∀ c ∈ ["IF2603", "rb2410", "IF2603"], ∃ config,
      SpecialConfig.fromJson sampleAddress (ConfigReader.globalRules sampleReader.mJson)
        ((sampleReader.mJson.nodeAt ["validation", "contract_specific", c]).filter
          Json.isObject) = .ok config := by
    simp only [List.forall_mem_cons, List.not_mem_nil]
    exact ⟨⟨_, rfl⟩, ⟨_, rfl⟩, ⟨_, rfl⟩, nofun⟩
  obtain ⟨s, hs⟩ := h.1.2 ⟨by decide, hload, by decide, by decide⟩
  exact ⟨s, hs, h.2 s hs⟩

end UltraMds
