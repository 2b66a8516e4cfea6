import UltraMds.Configrelated.ConfigFile
import UltraMds.CtpRelated.MarketSPI
import UltraMds.DataHandler.Endpoint
import UltraMds.Pipeline.Refinement

/-!
# The program

`Program.launch` is the constructor of `SystemStarter`, `Program.start` the part of it after the
configuration file is parsed, and `Program.run` what follows: the callbacks of the API, one after
the other, with the steps of the handlers in between.

* `launch_iff`: for which files the program runs;
* `start_outcome`: what the program starts with, and what it throws when it does not start;
* `run_api`: what it asks of the API, over any run;
* `program_sends`: what it sends, over any run, said in terms of the configuration file.
-/

namespace UltraMds

/-- The running program: `Loginer`, the contracts of `ContractContainer`, the calls to the API so
far, and the rest. -/
structure Program where
  loginer : Loginer
  contracts : List String
  api : List ApiCall
  system : System

/-- A callback of the API, or a step of handler `k`. -/
inductive ProgramEvent
  | callback (c : Callback)
  | handler (k : ℕ)

/-- What an event is to the pipeline. -/
def ProgramEvent.action? : ProgramEvent → Option Action
  | .callback (.onRtnDepthMarketData data now) => some (.dispatch data now)
  | .callback _ => none
  | .handler k => some (.handler k)

namespace SystemStarter

variable (reader : ConfigReader)

/-- `SystemStarter::loadContractList`. -/
def loadContractList : Except StartError (List String) := do
  let contracts ← Except.mapError .json (reader.getStringArray ["subscribed_contracts"])
  if contracts.isEmpty then throw (.runtimeError "订阅合约列表为空")
  return contracts

/-- `SystemStarter::ConfigInit`: the singletons that it fills, and the global rules. -/
def configInit : Except StartError (Loginer × Json × List String) := do
  let brokerID ← Except.mapError .json (reader.getString ["login", "brokerID"])
  let userID ← Except.mapError .json (reader.getString ["login", "userID"])
  let password ← Except.mapError .json (reader.getString ["login", "password"])
  let tcpAddress ← Except.mapError .json (reader.getString ["login", "tcpAddress"])
  let contracts ← loadContractList reader
  return ({ brokerID, userID, password, tcpAddress }, reader.getGlobalValidationConfig, contracts)

end SystemStarter

namespace Program

/-- The constructor of `SystemStarter` after the file is read. -/
def start (makeAddress : String → Option Address) (reader : ConfigReader) (host : Host) :
    Except StartError Program := do
  let (loginer, mGlobalValidationRules, contracts) ← SystemStarter.configInit reader
  let started ←
    handlerAndDispatcherStart makeAddress reader mGlobalValidationRules contracts host
  return { loginer, contracts, api := marketManagerInit loginer, system := started.system }

/-- `CONFIG_PATH`. -/
def configPath : String := "./myconfig.json"

/-- The constructor, from the bytes of the file on. -/
def launch (strtod : List UInt8 → Double) (makeAddress : String → Option Address)
    (file : Option (List UInt8)) (host : Host) : Option (Except StartError Program) :=
  match ConfigReader.construct strtod configPath file with
  | none => none
  | some (.error what) => some (.error (.runtimeError what))
  | some (.ok reader) => some (start makeAddress reader host)

/-- The program after an event. -/
def step (p : Program) : ProgramEvent → Program
  | .callback c =>
    { p with
      api := p.api ++ MarketSPI.callback p.loginer p.contracts c
      system := (ProgramEvent.callback c).action?.elim p.system p.system.step }
  | .handler k => { p with system := p.system.handlerStep k }

/-- The program after a run. -/
abbrev run (p : Program) (es : List ProgramEvent) : Program := Run.run step p es

/-! ### The start -/

/-- The text at a key path of the file, or the empty one. -/
def textAt (reader : ConfigReader) (keys : List String) : String :=
  ((reader.mJson.nodeAt keys).bind Json.string?).getD ""

/-- The strings in the array `subscribed_contracts`. -/
def subscribed (reader : ConfigReader) : List String :=
  (((reader.mJson.nodeAt ["subscribed_contracts"]).bind Json.array?).getD []).filterMap
    Json.string?

/-- The login of the file. -/
def loginerOf (reader : ConfigReader) : Loginer where
  brokerID := textAt reader ["login", "brokerID"]
  userID := textAt reader ["login", "userID"]
  password := textAt reader ["login", "password"]
  tcpAddress := textAt reader ["login", "tcpAddress"]

/-- The rules of a contract of the file. -/
abbrev rulesFor (makeAddress : String → Option Address) (reader : ConfigReader) (c : String) :
    Except JsonError SpecialConfig :=
  SpecialConfig.fromJson makeAddress (ConfigReader.globalRules reader.mJson)
    (ConfigReader.contractRules reader.mJson c)

/-- The pipeline that the file asks for. -/
abbrev layout (makeAddress : String → Option Address) (reader : ConfigReader) (sysconf : ℤ) :
    Layout :=
  layoutOf (subscribed reader)
    (fun c => (rulesFor makeAddress reader c).toOption.getD {}) sysconf

/-- The program for a configuration file that can be read. -/
def started (makeAddress : String → Option Address) (reader : ConfigReader) (sysconf : ℤ) :
    Program where
  loginer := loginerOf reader
  contracts := subscribed reader
  api := marketManagerInit (loginerOf reader)
  system := (layout makeAddress reader sysconf).init

theorem configInit_eq (reader : ConfigReader) :
    SystemStarter.configInit reader =
      if subscribed reader = [] then .error (.runtimeError "订阅合约列表为空")
      else .ok (loginerOf reader, ConfigReader.globalRules reader.mJson, subscribed reader) := by
  have hlist : reader.getStringArray ["subscribed_contracts"] = .ok (subscribed reader) := by
    rw [ConfigReader.getStringArray_cons, if_pos rfl]
    rfl
  unfold SystemStarter.configInit SystemStarter.loadContractList
  simp only [ConfigReader.getString_eq, hlist, ConfigReader.getGlobalValidationConfig_eq]
  by_cases hnil : subscribed reader = []
  · rw [if_pos hnil, hnil]
    rfl
  · rw [if_neg hnil]
    have hempty : (subscribed reader).isEmpty = false := by simpa using hnil
    simp only [Except.mapError, bind, Except.bind, hempty]
    rfl

section

variable (makeAddress : String → Option Address) (reader : ConfigReader) (host : Host)

/-- The rules of every contract of the file can be read. -/
def FileRulesLoad (contracts : List String) : Prop :=
  ∀ c ∈ contracts, ∃ config, rulesFor makeAddress reader c = .ok config

/-- **The ways in which the start ends**, in the order in which it comes upon them: there is no
contract; their number is beyond `int`; the rules of a first contract cannot be read; `queue_size`
overflows; the socket, the thread or the core of a first handler cannot be had; the index of a
contract overflows; or the program runs, with the pipeline of the subscribed contracts. -/
inductive Ends : Except StartError Program → Prop
  | empty (hnil : subscribed reader = []) : Ends (.error (.runtimeError "订阅合约列表为空"))
  | tooMany (hcount : toInt (subscribed reader).length < 0) : Ends (.error .lengthError)
  | badRules {done rest : List String} {c : String} {e : JsonError}
      (hcount : 0 ≤ toInt (subscribed reader).length)
      (hlist : subscribed reader = done ++ c :: rest)
      (hdone : FileRulesLoad makeAddress reader done)
      (hc : rulesFor makeAddress reader c = .error e) : Ends (.error (.json e))
  | sizeOverflow (hne : subscribed reader ≠ []) (hcount : 0 ≤ toInt (subscribed reader).length)
      (hrules : FileRulesLoad makeAddress reader (subscribed reader))
      (hsize : ¬ SizeFits (subscribed reader) host) : Ends (.error .overflow)
  | handlerFails {i : ℕ} {e : StartError} (hne : subscribed reader ≠ [])
      (hcount : 0 ≤ toInt (subscribed reader).length)
      (hrules : FileRulesLoad makeAddress reader (subscribed reader))
      (hsize : SizeFits (subscribed reader) host)
      (hi : i < threadNum host.sysconf (toInt (subscribed reader).length))
      (hbefore : ∀ j < i, host.failure j = none) (hfailure : host.failure i = some e) :
      Ends (.error e)
  | indexOverflow (hcount : 0 ≤ toInt (subscribed reader).length)
      (hrules : FileRulesLoad makeAddress reader (subscribed reader))
      (hsize : SizeFits (subscribed reader) host)
      (hstart : HandlersStart (subscribed reader) host)
      (hlarge : 2 ^ 31 ≤ (subscribed reader).length) : Ends (.error .overflow)
  | runs (hne : subscribed reader ≠ []) (hcount : (subscribed reader).length < 2 ^ 31)
      (hrules : FileRulesLoad makeAddress reader (subscribed reader))
      (hsize : SizeFits (subscribed reader) host)
      (hstart : HandlersStart (subscribed reader) host) :
      Ends (.ok (started makeAddress reader host.sysconf))

variable {makeAddress reader host}

theorem start_of_empty (hnil : subscribed reader = []) :
    start makeAddress reader host = .error (.runtimeError "订阅合约列表为空") := by
  unfold start
  rw [configInit_eq, if_pos hnil]
  rfl

/-- With a contract, the start is that of the handlers. -/
theorem start_of_ne (hne : subscribed reader ≠ []) :
    start makeAddress reader host =
      handlerAndDispatcherStart makeAddress reader (ConfigReader.globalRules reader.mJson)
        (subscribed reader) host >>=
          fun s => .ok { started makeAddress reader host.sysconf with system := s.system } := by
  unfold start
  rw [configInit_eq, if_neg hne, Fallible.ok_bind]
  rfl

/-- The start of the handlers ends in one of these ways. -/
theorem ends_of_startEnds (hne : subscribed reader ≠ []) {r : Except StartError Started}
    (h : StartEnds makeAddress reader (ConfigReader.globalRules reader.mJson) (subscribed reader)
      host r) :
    Ends makeAddress reader host
      (r >>= fun s => .ok { started makeAddress reader host.sysconf with
        system := s.system }) := by
  cases h with
  | tooMany hcount => exact .tooMany hcount
  | badRules hcount hlist hdone hc => exact .badRules hcount hlist hdone hc
  | sizeOverflow hcount hrules hsize => exact .sizeOverflow hne hcount hrules hsize
  | handlerFails hcount hrules hsize hi hbefore hfailure =>
    exact .handlerFails hne hcount hrules hsize hi hbefore hfailure
  | indexOverflow hcount hrules hsize hstart hlarge =>
    exact .indexOverflow hcount hrules hsize hstart hlarge
  | runs hcount hrules hsize hstart =>
    rw [Fallible.ok_bind, startHandlers_system]
    exact .runs hne hcount hrules hsize hstart

theorem start_ends : Ends makeAddress reader host (start makeAddress reader host) := by
  by_cases hnil : subscribed reader = []
  · rw [start_of_empty hnil]
    exact .empty hnil
  · rw [start_of_ne hnil]
    exact ends_of_startEnds hnil (handlerAndDispatcherStart_iff.1 rfl)

/-- Each way is one in which the start does end. -/
theorem Ends.eq {r : Except StartError Program} (h : Ends makeAddress reader host r) :
    start makeAddress reader host = r := by
  cases h with
  | empty hnil => exact start_of_empty hnil
  | tooMany hcount =>
    have hne : subscribed reader ≠ [] := by
      rintro hnil
      rw [hnil] at hcount
      exact absurd hcount (by decide)
    rw [start_of_ne hne, handlerAndDispatcherStart_iff.2 (.tooMany hcount), Fallible.error_bind]
  | badRules hcount hlist hdone hc =>
    rw [start_of_ne (by simp [hlist]),
      handlerAndDispatcherStart_iff.2 (.badRules hcount hlist hdone hc), Fallible.error_bind]
  | sizeOverflow hne hcount hrules hsize =>
    rw [start_of_ne hne, handlerAndDispatcherStart_iff.2 (.sizeOverflow hcount hrules hsize),
      Fallible.error_bind]
  | handlerFails hne hcount hrules hsize hi hbefore hfailure =>
    rw [start_of_ne hne, handlerAndDispatcherStart_iff.2
      (.handlerFails hcount hrules hsize hi hbefore hfailure), Fallible.error_bind]
  | indexOverflow hcount hrules hsize hstart hlarge =>
    have hne : subscribed reader ≠ [] := by
      rintro hnil
      rw [hnil] at hlarge
      exact absurd hlarge (by decide)
    rw [start_of_ne hne, handlerAndDispatcherStart_iff.2
      (.indexOverflow hcount hrules hsize hstart hlarge), Fallible.error_bind]
  | runs hne hcount hrules hsize hstart =>
    rw [start_of_ne hne, handlerAndDispatcherStart_iff.2 (.runs hcount hrules hsize hstart),
      Fallible.ok_bind, startHandlers_system]
    rfl

variable (makeAddress reader host)

/-- **How the start ends**, for every file and every host. -/
theorem start_outcome (r : Except StartError Program) :
    start makeAddress reader host = r ↔ Ends makeAddress reader host r := by
  constructor
  · rintro rfl
    exact start_ends
  · exact Ends.eq

/-- The program starts exactly when a contract is subscribed, the rules of all of them can be read
and nothing else fails. -/
theorem start_iff (p : Program) :
    start makeAddress reader host = .ok p ↔
      (subscribed reader ≠ [] ∧ (subscribed reader).length < 2 ^ 31 ∧
        FileRulesLoad makeAddress reader (subscribed reader) ∧
        SizeFits (subscribed reader) host ∧ HandlersStart (subscribed reader) host) ∧
      p = started makeAddress reader host.sysconf := by
  constructor
  · intro h
    have hends : Ends makeAddress reader host (start makeAddress reader host) := start_ends
    rw [h] at hends
    cases hends with
    | runs hne hcount hrules hsize hstart => exact ⟨⟨hne, hcount, hrules, hsize, hstart⟩, rfl⟩
  · rintro ⟨⟨hne, hcount, hrules, hsize, hstart⟩, rfl⟩
    exact Ends.eq (.runs hne hcount hrules hsize hstart)

end

open JsonText in
/-- **From the file to the program.**  The program runs exactly for a file that is a document with a
value that subscribes a contract and has rules for every subscribed one, on a host that has what
the handlers need; it is the program for that value.  In every other case the start fails. -/
theorem launch_iff (strtod : List UInt8 → Double) (makeAddress : String → Option Address)
    (file : Option (List UInt8)) (host : Host) :
    (∀ p, launch strtod makeAddress file host = some (.ok p) ↔
      ∃ content v, file = some content ∧ Document strtod false content v ∧
        (subscribed ⟨v⟩ ≠ [] ∧ (subscribed ⟨v⟩).length < 2 ^ 31 ∧
          FileRulesLoad makeAddress ⟨v⟩ (subscribed ⟨v⟩) ∧
          SizeFits (subscribed ⟨v⟩) host ∧ HandlersStart (subscribed ⟨v⟩) host) ∧
        p = started makeAddress ⟨v⟩ host.sysconf) ∧
    ((∃ p, launch strtod makeAddress file host = some (.ok p)) ∨
      ∃ e, launch strtod makeAddress file host = some (.error e)) := by
  obtain ⟨hreads, hends⟩ := ConfigReader.construct_iff strtod configPath file
  unfold launch
  rcases hends with ⟨reader, hreader⟩ | ⟨what, hwhat⟩
  · have hfile := (hreads reader).1 hreader
    rw [hreader] at hreads ⊢
    constructor
    · intro p
      rw [Option.some.injEq, start_iff]
      constructor
      · rintro ⟨hstarts, hp⟩
        obtain ⟨content, hcontent, hdocument⟩ := hfile
        exact ⟨content, reader.mJson, hcontent, hdocument, hstarts, hp⟩
      · rintro ⟨content, v, hcontent, hdocument, hrest⟩
        -- the document has one value
        have hv : reader = ⟨v⟩ := by simpa using (hreads ⟨v⟩).2 ⟨content, hcontent, hdocument⟩
        rw [hv]
        exact hrest
    · cases hstart : start makeAddress reader host with
      | ok p => exact .inl ⟨p, hstart ▸ rfl⟩
      | error e => exact .inr ⟨e, hstart ▸ rfl⟩
  · rw [hwhat] at hreads ⊢
    refine ⟨fun p => ⟨nofun, ?_⟩, .inr ⟨_, rfl⟩⟩
    rintro ⟨content, v, hcontent, hdocument, -⟩
    cases (hreads ⟨v⟩).2 ⟨content, hcontent, hdocument⟩

/-! ### Runs -/

section

variable (p : Program) (es : List ProgramEvent)

/-- What the events of a run ask of the API. -/
def traffic (p : Program) : ProgramEvent → List ApiCall
  | .callback c => MarketSPI.callback p.loginer p.contracts c
  | .handler _ => []

theorem step_eq (e : ProgramEvent) :
    p.step e =
      { p with
        api := p.api ++ p.traffic e
        system := e.action?.elim p.system p.system.step } := by
  cases e with
  | callback c => rfl
  | handler k =>
    unfold traffic
    rw [List.append_nil]
    rfl

/-- The calls to the API are those of the events, in order, and the rest of the program is the
pipeline. -/
theorem run_eq :
    p.run es =
      { p with
        api := p.api ++ es.flatMap p.traffic
        system := p.system.run (es.filterMap ProgramEvent.action?) } := by
  induction es generalizing p with
  | nil => simp
  | cons e es ih =>
    rw [run, Run.run_cons, ← run, ih, step_eq, List.flatMap_cons, List.append_assoc]
    cases he : e.action? with
    | none => rw [List.filterMap_cons_none he]; rfl
    | some a => rw [List.filterMap_cons_some he]; rfl

end

/-! ### What it asks of the API -/

end Program

/-- The front is connected, or connected again. -/
def ProgramEvent.connects : ProgramEvent → Bool
  | .callback (.onFrontConnected _) => true
  | _ => false

/-- The front reports a login, and no error code but `0`. -/
def ProgramEvent.logsIn : ProgramEvent → Bool
  | .callback (.onRspUserLogin rspUserLogin rspInfo _) => rspUserLogin && rspInfo.all (· == 0)
  | _ => false

theorem ProgramEvent.logsIn_eq (rspUserLogin : Bool) (rspInfo : Option ℤ) (answer : ℤ) :
    (ProgramEvent.callback (.onRspUserLogin rspUserLogin rspInfo answer)).logsIn =
      (rspUserLogin && !MarketSPI.failed rspInfo) := by
  cases rspInfo with
  | none => rfl
  | some errorID =>
    simp only [logsIn, MarketSPI.failed, bne, Option.all_some, Option.any_some, Bool.not_not]

namespace Program

/-- What an event asks of the API: a connection, one to `MAX_RETRY` requests with the login of the
file; a login that succeeded, one subscription of all contracts of the file; anything else,
nothing. -/
inductive Asks (reader : ConfigReader) (e : ProgramEvent) : List ApiCall → Prop
  | connection {requests : ℕ} (hconnects : e.connects = true) (hpos : 0 < requests)
      (hle : requests ≤ maxRetry) :
      Asks reader e (List.replicate requests (.reqUserLogin (loginerOf reader).request 0))
  | login (hlogsIn : e.logsIn = true) :
      Asks reader e [.subscribeMarketData ((subscribed reader).map cStr)]
  | quiet (hconnects : e.connects = false) (hlogsIn : e.logsIn = false) : Asks reader e []

variable {makeAddress : String → Option Address} {reader : ConfigReader} {host : Host}
  {p : Program}

theorem asks_traffic (hne : subscribed reader ≠ []) (hloginer : p.loginer = loginerOf reader)
    (hcontracts : p.contracts = subscribed reader) (e : ProgramEvent) :
    Asks reader e (p.traffic e) := by
  cases e with
  | handler k => exact .quiet rfl rfl
  | callback c =>
    cases c with
    | onFrontConnected answers =>
      obtain ⟨requests, hlogin, hpos, hle⟩ := (loginerOf reader).login_requests answers
      show Asks reader _ (p.loginer.login answers).2
      rw [hloginer, hlogin]
      exact .connection rfl hpos hle
    | onRspUserLogin rspUserLogin rspInfo answer =>
      show Asks reader _ (MarketSPI.onRspUserLogin p.contracts rspUserLogin rspInfo)
      have hempty : (subscribed reader).isEmpty = false := by simpa using hne
      rw [hcontracts, MarketSPI.onRspUserLogin, hempty]
      by_cases hfailed : MarketSPI.failed rspInfo = true
      · rw [if_pos hfailed]
        exact .quiet rfl (by simp [ProgramEvent.logsIn_eq, hfailed])
      · rw [if_neg hfailed]
        cases rspUserLogin with
        | false => exact .quiet rfl (by simp [ProgramEvent.logsIn_eq])
        | true => exact .login (by simp [ProgramEvent.logsIn_eq, hfailed])
    | _ => exact .quiet rfl rfl

/-- **What the program asks of the API**, over any run: the registration, and then for each event
what it asks, in order.  What a packet is about is a contract of the file, or the packet is
dropped. -/
theorem run_api (hstart : start makeAddress reader host = .ok p) (es : List ProgramEvent) :
    (∃ asked, List.Forall₂ (Asks reader) es asked ∧
        (p.run es).api = marketManagerInit (loginerOf reader) ++ asked.flatten) ∧
      ∀ data, ((p.run es).system.dispatcher.route data).isSome ↔
        ∃ c ∈ subscribed reader, chars c = cText data.instrumentID := by
  obtain ⟨⟨hne, -⟩, rfl⟩ := (start_iff makeAddress reader host p).1 hstart
  constructor
  · refine ⟨es.map (started makeAddress reader host.sysconf).traffic, ?_, ?_⟩
    · rw [List.forall₂_map_right_iff, List.forall₂_same]
      exact fun e _ => asks_traffic hne rfl rfl e
    · rw [run_eq, ← List.flatMap_def]
      rfl
  · intro data
    have hwf := wf_run (layout makeAddress reader host.sysconf)
      (es.filterMap ProgramEvent.action?)
    rw [run_eq]
    show (((layout makeAddress reader host.sysconf).init.run _).dispatcher.route data).isSome ↔ _
    rw [hwf.dispatcher, Option.isSome_iff_exists]
    constructor
    · rintro ⟨⟨q, k⟩, hroute⟩
      obtain ⟨c, hc, hname, -⟩ :=
        (Dispatcher.route_forContracts_iff (threadNum_pos _ _)).1 hroute
      exact ⟨c, hc, hname⟩
    · rintro ⟨c, hc, hname⟩
      exact ⟨_, (Dispatcher.route_forContracts_iff (threadNum_pos _ _)).2 ⟨c, hc, hname, rfl, rfl⟩⟩

/-- A configuration file with the rules of the shipped one and two contracts. -/
def sampleFile : ConfigReader :=
  ⟨.object [
    ("login", .object [("brokerID", .string "9999"),
      ("tcpAddress", .string "tcp://182.254.243.31:40011")]),
    ("subscribed_contracts", .array [.string "IF2603", .string "rb2410"]),
    ("validation", .object [("global_default", .object sampleGlobalDefault),
      ("contract_specific", .object [("IF2603", .object sampleContractRules)])])]⟩

theorem sampleFile_starts :
    start sampleAddress sampleFile { sysconf := 4 } = .ok (started sampleAddress sampleFile 4) := by
  refine (start_iff sampleAddress sampleFile { sysconf := 4 } _).2
    ⟨⟨by decide, by decide, fun c hc => ?_, by decide, by decide⟩, rfl⟩
  have hsubscribed : subscribed sampleFile = ["IF2603", "rb2410"] := rfl
  rw [hsubscribed, List.mem_pair] at hc
  rcases hc with rfl | rfl
  · exact ⟨_, rfl⟩
  · exact ⟨_, rfl⟩

/-- A packet of `IF2603` from its exchange. -/
def samplePacketIF (time : String) : CThostFtdcDepthMarketDataField :=
  { packetOf "IF2603" with
    exchangeID := strcpy 9 (chars "CFFEX")
    updateTime := strcpy 9 (chars time) }

/-- A connection with two attempts to log in, the login, two packets of `IF2603` with one of an
exchange that is not listed in between, and the handlers of both contracts. -/
def sampleEvents : List ProgramEvent :=
  [.callback (.onFrontConnected fun i => if i = 0 then -3 else 0),
    .callback (.onRspUserLogin true (some 0) 0),
    .callback (.onRtnDepthMarketData (samplePacketIF "10:00:00") 0),
    .callback (.onRtnDepthMarketData samplePacket 1), .handler 1, .handler 1,
    .callback (.onRtnDepthMarketData (samplePacketIF "10:00:01") 2)] ++
  List.replicate 12 (.handler 0) ++ List.replicate 3 (.handler 1)

theorem run_api_sample :
    (∃ asked, List.Forall₂ (Asks sampleFile) sampleEvents asked ∧
        ((started sampleAddress sampleFile 4).run sampleEvents).api =
          marketManagerInit (loginerOf sampleFile) ++ asked.flatten) ∧
      ∀ data, (((started sampleAddress sampleFile 4).run
          sampleEvents).system.dispatcher.route data).isSome ↔
        ∃ c ∈ subscribed sampleFile, chars c = cText data.instrumentID :=
  run_api sampleFile_starts sampleEvents

/-! ### What it sends -/

/-- What the pipeline has done for the contract `c`, whose rules in the file are `globalJson` and
`contractJson`. -/
structure ContractLog (makeAddress : String → Option Address) (globalJson : Json)
    (contractJson : Option Json) (L : Layout) (c : String) (s : System) : Prop where
  /-- One fresh validator with the rules of the file would have sent this. -/
  sent : ∃ config done, SpecialConfig.fromJson makeAddress globalJson contractJson = .ok config ∧
    s.enqueuedOf c = done ++ s.unfinishedOf c L ∧ s.sentOf c = forwarded c config done
  /-- It was offered the packets of the contract that met room in its queue. -/
  enqueued : s.enqueuedOf c = ((s.arrivalsOf c).filter (!·.queueFull)).map (L.tickOf c)
  /-- It went to the address and the port of the file, the port taken modulo `65536`. -/
  endpoint : ∀ address P, Configured globalJson contractJson makeAddress address P →
    ∀ a ∈ s.sentOf c, a.endpoint.address = address ∧ (a.endpoint.port.toNat : ℤ) = P % 65536

theorem endpoint_of_mem_forwarded {makeAddress : String → Option Address} {globalJson : Json}
    {contractJson : Option Json} {config : SpecialConfig} {address : Address} {P : ℤ}
    (h : SpecialConfig.fromJson makeAddress globalJson contractJson = .ok config)
    (hc : Configured globalJson contractJson makeAddress address P) {c : String}
    {ticks : List TickData} {a : SendAttempt} (ha : a ∈ forwarded c config ticks) :
    a.endpoint.address = address ∧ (a.endpoint.port.toNat : ℤ) = P % 65536 := by
  obtain ⟨text, hudp⟩ := SpecialConfig.fromJson_udpConfig h hc
  obtain ⟨t, -, rfl⟩ := List.mem_map.1 ha
  have hend : (sendMessage (UnitProcessor.fresh c config) t).endpoint =
      ⟨address, BitVec.ofInt 16 (toInt P)⟩ :=
    congrArg UDPConfig.targetEndpoint hudp
  rw [hend]
  exact ⟨rfl, toNat_ofInt_toInt P⟩

/-- **What the program attempts to send**, over any run and said in terms of the file: for each
subscribed contract what one validator with its rules accepts of the packets that found room, to the
endpoint of its rules, and nothing else. -/
theorem program_sends (hstart : start makeAddress reader host = .ok p)
    (es : List ProgramEvent) :
    (p.run es).system.arrivals.map (fun a => (a.data, a.now)) =
        (es.filterMap ProgramEvent.action?).filterMap Action.packet? ∧
      (∀ a ∈ (p.run es).system.sent, ∃ c ∈ subscribed reader, a ∈ (p.run es).system.sentOf c) ∧
      ∀ c ∈ subscribed reader,
        ContractLog makeAddress (ConfigReader.globalRules reader.mJson)
          (ConfigReader.contractRules reader.mJson c)
          (layout makeAddress reader host.sysconf) c (p.run es).system := by
  obtain ⟨⟨-, -, hload, -⟩, rfl⟩ := (start_iff makeAddress reader host p).1 hstart
  rw [run_eq]
  show ((layout makeAddress reader host.sysconf).init.run _).arrivals.map _ = _ ∧ _
  have hlog := logged_run (layout makeAddress reader host.sysconf)
    (es.filterMap ProgramEvent.action?)
  refine ⟨arrivals_run _ _, fun a ha => ?_, fun c hc => ?_⟩
  · obtain ⟨c, hbelongs, -⟩ := hlog.sent a ha
    have hof : ofContract c a.tick = true := by simpa using hbelongs.ofContract_eq c
    exact ⟨c, hbelongs.mem, List.mem_filter.2 ⟨ha, hof⟩⟩
  · obtain ⟨config, hconfig⟩ := hload c hc
    obtain ⟨done, henq, hsent⟩ := sentOf_run (layout makeAddress reader host.sysconf)
      (es.filterMap ProgramEvent.action?) hc
    -- the rules of the layout are the ones that were read
    have hrules : (layout makeAddress reader host.sysconf).config c = config := by
      show (Except.toOption (rulesFor makeAddress reader c)).getD _ = config
      rw [hconfig]
      rfl
    rw [hrules] at hsent
    constructor
    case sent => exact ⟨config, done, hconfig, henq, hsent⟩
    case enqueued => exact hlog.enqueued c hc
    case endpoint =>
      intro address P hendpoint a ha
      exact endpoint_of_mem_forwarded hconfig hendpoint (hsent ▸ ha)

theorem program_sends_sample :
    ContractLog sampleAddress (ConfigReader.globalRules sampleFile.mJson)
        (ConfigReader.contractRules sampleFile.mJson "IF2603") (layout sampleAddress sampleFile 4)
        "IF2603" ((started sampleAddress sampleFile 4).run sampleEvents).system ∧
      ((((started sampleAddress sampleFile 4).run sampleEvents).system.sentOf "IF2603").map
        fun a => (a.tick.updateTime, a.endpoint.port)) =
          [(strcpy 9 (chars "10:00:00"), 8889), (strcpy 9 (chars "10:00:01"), 8889)] :=
  ⟨(program_sends sampleFile_starts sampleEvents).2.2 "IF2603" (by decide), by decide +kernel⟩

end Program

end UltraMds
