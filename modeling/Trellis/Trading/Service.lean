import Trellis.Core.Failure
import Trellis.Core.RelyGuarantee
import Trellis.Core.Text

/-!
# The trading transaction service

`processTrade` of `investment/portfolio/services/trading-transaction.service.ts`: slippage and
deadline checks, the in-memory idempotency map, the submission, and the ledger lookup after a
timeout. Numbers are rationals; what the Stellar SDK computes is a parameter.
-/

namespace Trellis.Trading

open Core

/-! ## Requests and results -/

inductive TradeAction where
  | buy | sell
deriving DecidableEq

inductive Num where
  | finite (value : ℚ)
  | nonFinite
deriving DecidableEq

inductive DeadlineTimestamp where
  | epoch (ms : Num)
  | text (s : String)
deriving DecidableEq

structure TradeRequest where
  portfolioId : String
  ticker : String
  action : TradeAction
  quantity : ℚ
  price : ℚ
  clientRequestId : Option String := none
  slippageTolerance : Option ℚ := none
  maxSlippagePercent : Option Num := none
  deadlineTimestamp : Option DeadlineTimestamp := none
  sourceSecret : Option String := none
  destinationAddress : Option String := none
  accountBalance : Option ℚ := none
  hasTrustline : Option Bool := none
  actualPrice : Option ℚ := none
deriving DecidableEq

inductive TradeStatus where
  | confirmed | failed | timedOut

/-- `TradeResult`; the timestamp in milliseconds. -/
structure TradeResult where
  success : Bool
  transactionHash : Option String := none
  executedQuantity : ℚ
  executedPrice : ℚ
  status : TradeStatus
  errorReason : Option String := none
  timestamp : Int
  clientRequestId : Option String
  minAcceptableOutput : Option ℚ := none

/-! ## What the SDK and the runtime provide -/

/-- The asset of a payment: native, or a code with its issuer. -/
inductive Asset where
  | native
  | issued (code issuer : String)

structure Payment where
  destination : String
  asset : Asset
  amount : String

/-- A built transaction with its upper time bound in seconds. -/
structure Transaction where
  source : String
  payment : Payment
  maxTime : Int

structure LedgerRecord where
  successful : Bool
  hash : String

/-- What `submitTransaction` comes to: a hash, or what it threw, with its `code`. -/
inductive SubmitOutcome where
  | hash (hash : String)
  | thrown (e : Failure) (code : Option String)

/-- How the service is constructed, and what the SDK and the runtime compute. -/
structure TradingConfig where
  hasServer : Bool
  parseDate : String → Option Int
  /-- `Keypair.fromSecret(secret).publicKey()`. -/
  publicKey : String → Except Failure String
  /-- What the constructors of the asset and of the payment check. -/
  checkPayment : Payment → Except Failure Unit
  numberText : ℚ → String
  /-- The hash of a built transaction, in hexadecimal. -/
  transactionHash : Transaction → String
  sha256 : String → String

/-! ## Awaited operations -/

inductive TradingOp where
  | getIdempotent (clientRequestId : String)
  | setIdempotent (clientRequestId : String) (result : TradeResult)
  | setTrade (request : TradeRequest) (hash : String) (result : TradeResult)
  | now
  | loadAccount (publicKey : String)
  | submitTransaction (transaction : Transaction)
  | findTransaction (hash : String)

def TradingOp.Res : TradingOp → Type
  | .getIdempotent _ => Option TradeResult
  | .setIdempotent _ _ | .setTrade _ _ _ | .loadAccount _ => Unit
  | .now => Int
  | .submitTransaction _ => SubmitOutcome
  | .findTransaction _ => Option LedgerRecord

abbrev tradingInterface : Interface :=
  ⟨TradingOp, TradingOp.Res⟩

abbrev TradingProgram (α : Type) : Type :=
  Async tradingInterface Failure α

abbrev ask (op : tradingInterface.Op) : TradingProgram (tradingInterface.Res op) :=
  .call op

def now : TradingProgram Int :=
  ask .now

/-! ## Checks before the submission -/

variable (cfg : TradingConfig) (request : TradeRequest)

def slippageFraction : Except Failure ℚ :=
  match request.maxSlippagePercent with
  | none => .ok (request.slippageTolerance.getD (2 / 100))
  | some (.finite percent) =>
    if percent < 0 ∨ percent ≥ 100 then
      .error (.badRequest "maxSlippagePercent must be a number in [0, 100), e.g. 0.5 for 0.5%.")
    else .ok (percent / 100)
  | some .nonFinite =>
    .error (.badRequest "maxSlippagePercent must be a number in [0, 100), e.g. 0.5 for 0.5%.")

def deadlineMs : Except Failure (Option ℚ) :=
  let invalid : Except Failure (Option ℚ) :=
    .error (.badRequest "deadlineTimestamp must be an ISO timestamp or epoch milliseconds.")
  match request.deadlineTimestamp with
  | none => .ok none
  | some (.epoch (.finite ms)) => .ok (some ms)
  | some (.epoch .nonFinite) => invalid
  | some (.text s) =>
    match cfg.parseDate s with
    | some ms => .ok (some ms)
    | none => invalid

def calculateMinAcceptableOutput (expectedOutput slippageFraction : ℚ) : ℚ :=
  expectedOutput * (1 - slippageFraction)

def TradeRequest.currentMarketPrice : ℚ :=
  request.actualPrice.getD request.price

def TradeRequest.totalValue : ℚ :=
  request.quantity * request.currentMarketPrice

/-- A failure mode: its reason, and the price and output it reports. -/
structure FailureMode where
  errorReason : String
  executedPrice : ℚ := 0
  minAcceptableOutput : Option ℚ := none

def failureMode (slippage : ℚ) : Option FailureMode :=
  let price := request.currentMarketPrice
  if request.price > 0 ∧ |price - request.price| / request.price > slippage then
    some { errorReason := "SLIPPAGE_EXCEEDED", executedPrice := price,
           minAcceptableOutput := some (calculateMinAcceptableOutput request.totalValue slippage) }
  else if request.accountBalance.any (· < request.totalValue) then
    some { errorReason := "INSUFFICIENT_BALANCE" }
  else if request.hasTrustline = some false then
    some { errorReason := "TRUSTLINE_MISSING" }
  else none

/-! ## Results -/

/-- `if (clientRequestId) this.idempotencyMap.set(clientRequestId, result)`. -/
def remember (result : TradeResult) : TradingProgram Unit :=
  match request.clientRequestId with
  | none => .done ()
  | some id =>
    if id = "" then .done ()
    else ask (.setIdempotent id result)

def recalled : TradingProgram (Option TradeResult) :=
  match request.clientRequestId with
  | none => .done none
  | some id =>
    if id = "" then .done none
    else ask (.getIdempotent id)

variable {request : TradeRequest} {id : String}

theorem remember_of_id
    (hid : request.clientRequestId = some id) (hne : id ≠ "") (result : TradeResult) :
    remember request result = ask (.setIdempotent id result) := by
  unfold remember
  rw [hid]
  exact if_neg hne

theorem recall_of_id (hid : request.clientRequestId = some id) (hne : id ≠ "") :
    recalled request = ask (.getIdempotent id) := by
  unfold recalled
  rw [hid]
  exact if_neg hne

theorem remember_of_not_truthy (hid : truthy request.clientRequestId = false)
    (result : TradeResult) : remember request result = .done () := by
  unfold remember
  cases hrequest : request.clientRequestId with
  | none => rfl
  | some id =>
    rw [hrequest] at hid
    exact if_pos (by simpa using hid)

theorem recall_of_not_truthy
    (hid : truthy request.clientRequestId = false) : recalled request = .done none := by
  unfold recalled
  cases hrequest : request.clientRequestId with
  | none => rfl
  | some id =>
    rw [hrequest] at hid
    exact if_pos (by simpa using hid)

theorem exists_id_of_truthy {text : Option String} (h : truthy text = true) :
    ∃ id, text = some id ∧ id ≠ "" := by
  cases text with
  | none => cases h
  | some id => exact ⟨id, rfl, by simpa using h⟩

def unexecuted (request : TradeRequest) (status : TradeStatus) (mode : FailureMode)
    (timestamp : Int) : TradeResult where
  success := false
  executedQuantity := 0
  executedPrice := mode.executedPrice
  status := status
  errorReason := some mode.errorReason
  timestamp := timestamp
  clientRequestId := request.clientRequestId
  minAcceptableOutput := mode.minAcceptableOutput

def rejectTrade (request : TradeRequest) (status : TradeStatus) (mode : FailureMode) :
    TradingProgram TradeResult := do
  let timestamp ← now
  let result := unexecuted request status mode timestamp
  remember request result
  .done result

def confirmTrade (request : TradeRequest) (slippage : ℚ) (hash : String) :
    TradingProgram TradeResult := do
  let timestamp ← now
  let result : TradeResult :=
    { success := true, transactionHash := some hash, executedQuantity := request.quantity,
      executedPrice := request.currentMarketPrice, status := .confirmed, timestamp,
      clientRequestId := request.clientRequestId,
      minAcceptableOutput := some (calculateMinAcceptableOutput request.totalValue slippage) }
  ask (.setTrade request hash result)
  remember request result
  .done result

/-! ## The submission -/

/-- `checkLedgerStatus`; the server is there. -/
def checkLedgerStatus (hash : String) : TradingProgram (Option String) := do
  let found ← (ask (.findTransaction hash)).attempt
  match found with
  | .ok (some record) => .done (if record.successful then some record.hash else none)
  | _ => .done none

/-- The payment a trade makes from the account of `source`. -/
def paymentOf (request : TradeRequest) (source : String) : Payment :=
  let destination := if truthy request.destinationAddress then
    request.destinationAddress.getD source else source
  { destination := destination
    asset := if request.ticker = "XLM" ∨ request.ticker = "NATIVE" then .native
      else .issued request.ticker destination
    amount := cfg.numberText request.quantity }

/-- `Math.max(1, Math.min(30, Math.ceil((deadlineMs - now) / 1000)))`. -/
def clampedTimeout (deadline : ℚ) (now : Int) : Int :=
  max 1 (min 30 ⌈(deadline - now) / 1000⌉)

def ledgerTimeout : Option ℚ → TradingProgram Int
  | none => .done 30
  | some deadline => do
      let now ← now
      .done (clampedTimeout deadline now)

/-- `message?.includes("timeout") || code === "ETIMEDOUT"`. -/
def isTimeout (e : Failure) (code : Option String) : Bool :=
  (e.message?.any (includes · "timeout")) || decide (code = some "ETIMEDOUT")

/-- The transaction is submitted; no hash means that it timed out. -/
def submitBuilt (transaction : Transaction) : TradingProgram (Option String) := do
  match ← ask (.submitTransaction transaction) with
  | .hash hash => .done (some hash)
  | .thrown e code =>
    if isTimeout e code then checkLedgerStatus (cfg.transactionHash transaction)
    else .fail e

/-- Build, sign and submit. The SDK bounds the transaction by `floor(now / 1000)` plus the
timeout, at the time `setTimeout` is called. -/
def submitLive (request : TradeRequest) (secret : String)
    (deadline : Option ℚ) : TradingProgram (Option String) := do
  let source ← Async.ofExcept (cfg.publicKey secret)
  ask (.loadAccount source)
  let payment := paymentOf cfg request source
  Async.ofExcept (cfg.checkPayment payment)
  let timeout ← ledgerTimeout deadline
  let built ← now
  submitBuilt cfg { source := source, payment := payment, maxTime := built / 1000 + timeout }

def TradeAction.text : TradeAction → String
  | .buy => "buy"
  | .sell => "sell"

def submitMock (request : TradeRequest) : TradingProgram (Option String) := do
  let now ← now
  .done (some (cfg.sha256 (request.portfolioId ++ "-" ++ request.ticker ++ "-" ++
    request.action.text ++ "-" ++ cfg.numberText request.quantity ++ "-" ++ toString now)))

def submitTrade (request : TradeRequest) (deadline : Option ℚ) : TradingProgram (Option String) :=
  match request.sourceSecret with
  | some secret =>
    if cfg.hasServer && decide (secret ≠ "") then submitLive cfg request secret deadline
    else submitMock cfg request
  | none => submitMock cfg request

def submitErrorReason (e : Failure) : String :=
  if e.message?.any (includes · "underfunded") then "INSUFFICIENT_BALANCE"
  else if e.message?.any (includes · "no_trust") then "TRUSTLINE_MISSING"
  else "NETWORK_ERROR"

def executeSubmission (request : TradeRequest) (slippage : ℚ)
    (deadline : Option ℚ) : TradingProgram TradeResult := do
  match ← (submitTrade cfg request deadline).attempt with
  | .ok (some hash) => confirmTrade request slippage hash
  | .ok none => rejectTrade request .timedOut { errorReason := "NETWORK_TIMEOUT" }
  | .error e => rejectTrade request .failed { errorReason := submitErrorReason e }

def deadlineExceeded : Option ℚ → TradingProgram Bool
  | none => .done false
  | some deadline => do
      let now ← now
      .done (decide ((now : ℚ) > deadline))

def processNewTrade (request : TradeRequest) (slippage : ℚ)
    (deadline : Option ℚ) : TradingProgram TradeResult := do
  match ← deadlineExceeded deadline with
  | true => rejectTrade request .failed { errorReason := "DEADLINE_EXCEEDED" }
  | false =>
    match failureMode request slippage with
    | some mode => rejectTrade request .failed mode
    | none => executeSubmission cfg request slippage deadline

def processTrade (request : TradeRequest) : TradingProgram TradeResult := do
  let slippage ← Async.ofExcept (slippageFraction request)
  let deadline ← Async.ofExcept (deadlineMs cfg request)
  match ← recalled request with
  | some result => .done result
  | none => processNewTrade cfg request slippage deadline

/-! ## The world -/

/-- A submitted transaction, with its caller and the caller's clock readings before it, latest
first. -/
structure Submission (ι : Type) where
  caller : ι
  transaction : Transaction
  readings : List Int

/-- The maps of the service, and what no code reads: the recorded trades in the order of their
recording, the submissions, the clock readings of each caller, and the callers between their
check of the idempotency map and their entry in it. -/
structure TradingWorld (ι : Type) where
  idempotency : String → Option TradeResult := fun _ => none
  trades : List (TradeRequest × String × TradeResult) := []
  submitted : List (Submission ι) := []
  readings : ι → List Int := fun _ => []
  inFlight : List ι := []

/-- How an operation ends: it is served, at a time, with the hash or the record of the server;
or it is rejected. -/
inductive TradingChoice where
  | served (time : Int) (hash : String) (record : Option LedgerRecord)
  | rejected (e : Failure) (code : Option String)

section Semantics

variable {ι : Type} [DecidableEq ι]

namespace TradingWorld

def check (i : ι) (id : String) (w : TradingWorld ι) : TradingWorld ι :=
  if (w.idempotency id).isNone then { w with inFlight := i :: w.inFlight } else w

def enter (i : ι) (id : String) (result : TradeResult) (w : TradingWorld ι) : TradingWorld ι :=
  { w with
    idempotency := Function.update w.idempotency id (some result)
    inFlight := w.inFlight.filter (· ≠ i) }

def read (i : ι) (time : Int) (w : TradingWorld ι) : TradingWorld ι :=
  { w with readings := Function.update w.readings i (time :: w.readings i) }

def submit (i : ι) (transaction : Transaction) (w : TradingWorld ι) : TradingWorld ι :=
  { w with submitted := ⟨i, transaction, w.readings i⟩ :: w.submitted }

def perform (i : ι) : (op : TradingOp) → TradingChoice → TradingWorld ι →
    Option (Except Failure op.Res × TradingWorld ι)
  | .getIdempotent id, _, w => some (.ok (w.idempotency id), w.check i id)
  | .setIdempotent id result, _, w => some (.ok (), w.enter i id result)
  | .setTrade request hash result, _, w =>
    some (.ok (), { w with trades := w.trades ++ [(request, hash, result)] })
  | .now, .served time _ _, w => some (.ok time, w.read i time)
  | .now, .rejected _ _, _ => none
  | .loadAccount _, .served _ _ _, w => some (.ok (), w)
  | .loadAccount _, .rejected e _, w => some (.error e, w)
  | .submitTransaction transaction, .served _ hash _, w =>
    some (.ok (.hash hash), w.submit i transaction)
  | .submitTransaction transaction, .rejected e code, w =>
    some (.ok (.thrown e code), w.submit i transaction)
  | .findTransaction _, .served _ _ record, w => some (.ok record, w)
  | .findTransaction _, .rejected e _, w => some (.error e, w)

def serve (i : ι) (time : Int) (op : TradingOp) (w : TradingWorld ι) :
    Except Failure op.Res × TradingWorld ι :=
  (perform i op (.served time "" none) w).getD (.error (.error "not served"), w)

end TradingWorld

variable (ι) in
def tradingSemantics : Semantics tradingInterface Failure ι (TradingWorld ι) where
  Choice := TradingChoice
  perform := TradingWorld.perform
  Event := Empty
  happen e := e.elim

end Semantics

end Trellis.Trading
