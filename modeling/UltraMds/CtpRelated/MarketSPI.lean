import UltraMds.SharedDefine.TickData

/-!
# The session with the front

The callbacks of `MarketSPI` and the calls that they make to the vendor's API: `Loginer::Login`
sends the login request until it is taken or `MAX_RETRY` attempts have failed, and a login that
succeeds subscribes all contracts of the container.

The answers of the API are part of a callback; what the program asks of it is a list of `ApiCall`.
-/

namespace UltraMds

/-- `MAX_RETRY`. -/
def maxRetry : ℕ := 3

/-- The text that the API sees at `s.c_str()`. -/
def cStr (s : String) : List Int8 := (chars s).takeWhile (· ≠ 0)

/-- `strncpy(dst, s.c_str(), sizeof(dst) - 1)` for an array of zeros. -/
def strncpy (n : ℕ) (s : String) : CharArray n := strcpy n ((cStr s).take (n - 1))

/-- The fields of the login request that are not left zero. -/
structure CThostFtdcReqUserLoginField where
  brokerID : CharArray 11
  userID : CharArray 16
  password : CharArray 41
  deriving DecidableEq

/-- `Loginer`. -/
structure Loginer where
  brokerID : String := ""
  userID : String := ""
  password : String := ""
  tcpAddress : String := ""
  deriving DecidableEq

/-- A call of the program to the API. -/
inductive ApiCall
  | registerSpi
  | registerFront (frontAddress : List Int8)
  | init
  | reqUserLogin (req : CThostFtdcReqUserLoginField) (requestID : ℤ)
  | subscribeMarketData (instrumentID : List (List Int8))
  deriving DecidableEq

namespace Loginer

variable (l : Loginer)

def request : CThostFtdcReqUserLoginField where
  brokerID := strncpy 11 l.brokerID
  userID := strncpy 16 l.userID
  password := strncpy 41 l.password

/-- The loop `while (retryCount < MAX_RETRY)` with `left` retries to go: `nResult` at its end and
the number of requests, `answers i` being the answer to request `i`. -/
def loginLoop (answers : ℕ → ℤ) : ℕ → ℕ → ℤ → ℤ × ℕ
  | 0, requests, nResult => (nResult, requests)
  | left + 1, requests, _ =>
    let nResult := answers requests
    if nResult = 0 then (nResult, requests + 1) else loginLoop answers left (requests + 1) nResult

/-- `Loginer::Login(pApi)`: the result and the requests. -/
def login (answers : ℕ → ℤ) : ℤ × List ApiCall :=
  let (nResult, requests) := loginLoop answers maxRetry 0 (-1)
  (nResult, List.replicate requests (.reqUserLogin l.request 0))

end Loginer

/-- A callback of the API, with the answers to the calls that it makes.  A pointer that may be
null is an `Option`, of `CThostFtdcRspInfoField` the error number only. -/
inductive Callback
  | onFrontConnected (answers : ℕ → ℤ)
  | onFrontDisconnected (reason : ℤ)
  | onHeartBeatWarning (timeLapse : ℤ)
  | onRspUserLogin (rspUserLogin : Bool) (rspInfo : Option ℤ) (answer : ℤ)
  | onRtnDepthMarketData (data : CThostFtdcDepthMarketDataField) (now : ℤ)
  | onRspError (rspInfo : Option ℤ)
  | onRspSubMarketData (instrumentID : Option (CharArray 81)) (rspInfo : Option ℤ)
  | onRspUnSubMarketData (instrumentID : Option (CharArray 81)) (rspInfo : Option ℤ)

namespace MarketSPI

/-- The response carries an error. -/
def failed (rspInfo : Option ℤ) : Bool := rspInfo.any fun errorID => errorID != 0

/-- `MarketSPI::OnRspUserLogin`, for the contracts in the container. -/
def onRspUserLogin (contracts : List String) (rspUserLogin : Bool) (rspInfo : Option ℤ) :
    List ApiCall :=
  if failed rspInfo then []
  else if rspUserLogin then
    if contracts.isEmpty then [] else [.subscribeMarketData (contracts.map cStr)]
  else []

/-- What a callback asks of the API.  The ones that only write to the log ask nothing. -/
def callback (loginer : Loginer) (contracts : List String) : Callback → List ApiCall
  | .onFrontConnected answers => (loginer.login answers).2
  | .onRspUserLogin rspUserLogin rspInfo _ => onRspUserLogin contracts rspUserLogin rspInfo
  | _ => []

end MarketSPI

/-- `MarketManager::Init`. -/
def marketManagerInit (loginer : Loginer) : List ApiCall :=
  [.registerSpi, .registerFront (cStr loginer.tcpAddress), .init]

/-! ### The login -/

/-- A text in the request ends in a NUL and is the beginning of the configured one, all of it if
that fits. -/
theorem cText_strncpy (n : ℕ) (s : String) :
    cText (strncpy (n + 1) s) = (cStr s).take n ∧ (strncpy (n + 1) s).get (Fin.last n) = 0 := by
  have hnul : (0 : Int8) ∉ cStr s := fun h => by
    have := List.mem_takeWhile_imp h
    simp at this
  have htake : (0 : Int8) ∉ (cStr s).take n := fun h => hnul (List.mem_of_mem_take h)
  have hlen : ((cStr s).take n).length ≤ n := by simp
  refine ⟨cText_strcpy (by show ((cStr s).take n).length ≤ n + 1; omega) htake, ?_⟩
  show (Vector.ofFn fun i : Fin (n + 1) => ((cStr s).take n).getD i 0)[n] = 0
  rw [Vector.getElem_ofFn, List.getD_eq_getElem?_getD, List.getElem?_eq_none hlen]
  rfl

namespace Loginer

/-- How the loop ends: with the first success, or with the last failure. -/
structure LoginOk (answers : ℕ → ℤ) (first limit : ℕ) (r : ℤ × ℕ) : Prop where
  first_lt : first < r.2
  le_limit : r.2 ≤ limit
  result : r.1 = answers (r.2 - 1)
  failures : ∀ i, first ≤ i → i + 1 < r.2 → answers i ≠ 0
  last : r.1 = 0 ∨ r.2 = limit

theorem loginLoop_ok (answers : ℕ → ℤ) (left requests : ℕ) (nResult : ℤ) :
    LoginOk answers requests (requests + left + 1)
      (loginLoop answers (left + 1) requests nResult) := by
  induction left generalizing requests nResult with
  | zero =>
    have hend : loginLoop answers 1 requests nResult = (answers requests, requests + 1) := by
      simp [loginLoop]
    rw [hend]
    exact ⟨by simp, by simp, by simp, fun i _ _ => by omega, .inr rfl⟩
  | succ left ih =>
    obtain ⟨hfirst, hlimit, hresult, hfailures, hlast⟩ := ih (requests + 1) (answers requests)
    rw [loginLoop]
    split_ifs with hzero
    · exact ⟨by simp, by simp, by simp, fun i _ _ => by omega, .inl hzero⟩
    · refine ⟨by omega, by omega, hresult, fun i hi hlt => ?_, ?_⟩
      · by_cases heq : i = requests
        · rw [heq]
          exact hzero
        · exact hfailures i (by omega) hlt
      · rcases hlast with hlast | hlast
        · exact .inl hlast
        · exact .inr (by omega)

/-- How many requests there are. -/
theorem login_requests (l : Loginer) (answers : ℕ → ℤ) :
    ∃ requests, (l.login answers).2 = List.replicate requests (.reqUserLogin l.request 0) ∧
      0 < requests ∧ requests ≤ maxRetry :=
  have hok := loginLoop_ok answers 2 0 (-1)
  ⟨_, rfl, hok.first_lt, hok.le_limit⟩

/-- The three texts of the request are the configured ones, cut to what their arrays hold. -/
structure RequestOk (l : Loginer) (req : CThostFtdcReqUserLoginField) : Prop where
  brokerID : cText req.brokerID = (cStr l.brokerID).take 10 ∧ req.brokerID.get (Fin.last 10) = 0
  userID : cText req.userID = (cStr l.userID).take 15 ∧ req.userID.get (Fin.last 15) = 0
  password : cText req.password = (cStr l.password).take 40 ∧ req.password.get (Fin.last 40) = 0

theorem request_ok (l : Loginer) : RequestOk l l.request :=
  ⟨cText_strncpy 10 l.brokerID, cText_strncpy 15 l.userID, cText_strncpy 40 l.password⟩

/-- **The login**: at least one and at most `MAX_RETRY` requests, all of them the same and with
the configured texts; only the last one can have succeeded, it has if any of the first `MAX_RETRY`
would, and its answer is the result. -/
theorem login_spec (l : Loginer) (answers : ℕ → ℤ) :
    RequestOk l l.request ∧
    ∃ requests, (l.login answers).2 = List.replicate requests (.reqUserLogin l.request 0) ∧
      0 < requests ∧ requests ≤ maxRetry ∧ (l.login answers).1 = answers (requests - 1) ∧
      (∀ i, i + 1 < requests → answers i ≠ 0) ∧
      ((l.login answers).1 = 0 ↔ ∃ i < maxRetry, answers i = 0) := by
  have hok : LoginOk answers 0 maxRetry (loginLoop answers maxRetry 0 (-1)) :=
    loginLoop_ok answers 2 0 (-1)
  unfold login
  generalize loginLoop answers maxRetry 0 (-1) = r at hok ⊢
  obtain ⟨nResult, requests⟩ := r
  obtain ⟨hfirst, hlimit, hresult, hfailures, hlast⟩ := hok
  simp only at hfirst hlimit hresult hfailures hlast ⊢
  refine ⟨request_ok l, requests, rfl, hfirst, hlimit, hresult,
    fun i => hfailures i (Nat.zero_le i), ?_⟩
  constructor
  · exact fun hzero => ⟨requests - 1, by omega, hresult ▸ hzero⟩
  · rintro ⟨i, hi, hzero⟩
    rcases hlast with hlast | hlast
    · exact hlast
    · -- all attempts were made, and all but the last one failed
      have hi' : i = requests - 1 := by
        by_contra hne
        exact hfailures i (Nat.zero_le i) (by omega) hzero
      rw [hresult, ← hi', hzero]

end Loginer

end UltraMds
