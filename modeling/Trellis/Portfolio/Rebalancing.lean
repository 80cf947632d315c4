import Trellis.Core.Record
import Trellis.Trading.Service

/-!
# Portfolio rebalancing

`getRebalancingRecommendations` and `executeRebalancing` of
`portfolio/services/rebalancing.service.ts`: what is traded, the execution history under the
client's reference, the dry run, and the loop over the trades. Numbers are rationals.
-/

namespace Trellis.Portfolio

open Trellis.Core Trellis.Trading

/-! ## Recommendations -/

structure AssetHolding where
  amount : ℚ
  price : ℚ

structure RebalancingRecommendation where
  asset : String
  direction : TradeAction
  amount : ℚ
  quantity : ℚ
  price : ℚ
  currentDrift : ℚ
  expectedDriftAfter : ℚ

structure RebalancingConfig where
  trading : Option TradingConfig := none
  defaultThreshold : ℚ := 5
  tradingFee : ℚ := 1
  minTradeSize : ℚ := 10

def assetsOf (targets : Record ℚ) (holdings : Record AssetHolding) : List String :=
  targets.keys ++ holdings.keys.filter fun asset => asset ∉ targets.keys

def currentValue (holdings : Record AssetHolding) (asset : String) : ℚ :=
  match holdings.get asset with
  | some holding => holding.amount * holding.price
  | none => 0

variable (cfg : RebalancingConfig)

/-- The trade an asset requires, unless it is uneconomic. -/
def recommendationOf (targets : Record ℚ)
    (holdings : Record AssetHolding) (totalValue : ℚ) (drift : String → ℚ) (asset : String) :
    Option RebalancingRecommendation :=
  let targetValue := (targets.get asset).getD 0 / 100 * totalValue
  let tradeValue := targetValue - currentValue holdings asset
  if |tradeValue| = 0 then none
  else if |tradeValue| < cfg.minTradeSize ∨ |tradeValue| ≤ cfg.tradingFee then none
  else
    let price := match holdings.get asset with
      | some holding => if holding.price = 0 then 1 else holding.price
      | none => 1
    some
      { asset := asset
        direction := if tradeValue > 0 then .buy else .sell
        amount := |tradeValue|
        quantity := |tradeValue| / price
        price := price
        currentDrift := drift asset
        expectedDriftAfter := 0 }

def recommendationsFor (targets : Record ℚ)
    (holdings : Record AssetHolding) (threshold : Option ℚ) : List RebalancingRecommendation :=
  let assets := assetsOf targets holdings
  let totalValue := (assets.map (currentValue holdings)).sum
  if assets = [] ∨ totalValue = 0 then []
  else
    let drift := fun asset =>
      |currentValue holdings asset / totalValue * 100 - (targets.get asset).getD 0|
    let maxDrift := (assets.map drift).foldl max 0
    if maxDrift < threshold.getD cfg.defaultThreshold then []
    else assets.filterMap (recommendationOf cfg targets holdings totalValue drift)

/-- `calculateAllocationPercentages`, rounded to two places. -/
def calculateAllocationPercentages (holdings : Record AssetHolding) : Record ℚ :=
  let value := fun asset => currentValue holdings asset
  let total := (holdings.keys.map value).sum
  if total = 0 then .empty
  else .collect holdings.keys holdings.nodup fun asset =>
    let percent := value asset / total * 100
    some (if percent < 0 then -(⌊-percent * 100 + 1 / 2⌋ / 100) else ⌊percent * 100 + 1 / 2⌋ / 100)

/-! ## Results -/

structure ExecutedTradeInfo where
  asset : String
  direction : TradeAction
  amount : ℚ
  quantity : ℚ
  price : ℚ
  txHash : Option String := none

structure FailedTradeInfo where
  asset : String
  direction : TradeAction
  amount : ℚ
  error : String

structure RebalancingExecutionResult where
  success : Bool
  dryRun : Bool
  executedTrades : List ExecutedTradeInfo
  failedTrades : List FailedTradeInfo
  resultingAllocation : Record ℚ

/-! ## Awaited operations -/

/-- The maps of the service, the stored targets, the trading service, and a trade that is executed
directly, which reads the clock for its hash. -/
inductive RebalancingOp where
  | getExecution (key : String)
  | setExecution (key : String) (result : RebalancingExecutionResult)
  | getTargetAllocations (portfolioId : String)
  | getHoldings (portfolioId : String)
  | setHoldings (portfolioId : String) (holdings : Record AssetHolding)
  | getThreshold (portfolioId : String)
  | trade (op : TradingOp)
  | executeDirectly (request : TradeRequest)

def RebalancingOp.Res : RebalancingOp → Type
  | .getExecution _ => Option RebalancingExecutionResult
  | .setExecution _ _ | .setHoldings _ _ => Unit
  | .getTargetAllocations _ => Record ℚ
  | .getHoldings _ => Record AssetHolding
  | .getThreshold _ => Option ℚ
  | .trade op => op.Res
  | .executeDirectly _ => Int

abbrev rebalancingInterface : Interface :=
  ⟨RebalancingOp, RebalancingOp.Res⟩

abbrev RebalancingProgram (α : Type) : Type :=
  Async rebalancingInterface Failure α

abbrev askRebalancing (op : rebalancingInterface.Op) : RebalancingProgram (rebalancingInterface.Res op) :=
  .call op

/-! ## The execution -/

variable (portfolioId : String)

def getRebalancingRecommendations : RebalancingProgram (List RebalancingRecommendation) := do
  let targets ← askRebalancing (.getTargetAllocations portfolioId)
  let holdings ← askRebalancing (.getHoldings portfolioId)
  let threshold ← askRebalancing (.getThreshold portfolioId)
  .done (recommendationsFor cfg targets holdings threshold)

variable (clientReference : Option String)

/-- `clientReference ? clientReference + "-" + asset : undefined`. -/
def tradeRequestId (asset : String) : Option String :=
  if truthy clientReference then clientReference.map (· ++ "-" ++ asset) else none

def tradeRequestOf (rec : RebalancingRecommendation) : TradeRequest where
  portfolioId := portfolioId
  ticker := rec.asset
  action := rec.direction
  quantity := rec.quantity
  price := rec.price
  clientRequestId := tradeRequestId clientReference rec.asset

def executeTrade (request : TradeRequest) : RebalancingProgram TradeResult :=
  match cfg.trading with
  | some trading => (processTrade trading request).lift .trade fun _ result => result
  | none => do
      let time : Int ← askRebalancing (.executeDirectly request)
      .done
        { success := true,
          transactionHash := some ("tx-rebalance-" ++ request.ticker ++ "-" ++ toString time),
          executedQuantity := request.quantity, executedPrice := request.price,
          status := .confirmed, timestamp := time, clientRequestId := none }

structure Progress where
  executedTrades : List ExecutedTradeInfo := []
  failedTrades : List FailedTradeInfo := []
  holdings : Record AssetHolding

def tradedHolding (rec : RebalancingRecommendation) (holding : Option AssetHolding) :
    AssetHolding :=
  let current := holding.getD { amount := 0, price := rec.price }
  { amount := match rec.direction with
      | .buy => current.amount + rec.quantity
      | .sell => max 0 (current.amount - rec.quantity)
    price := rec.price }

def Progress.executed (progress : Progress) (rec : RebalancingRecommendation)
    (result : TradeResult) : Progress :=
  { progress with
    executedTrades := progress.executedTrades ++
      [{ asset := rec.asset, direction := rec.direction, amount := rec.amount,
         quantity := rec.quantity, price := rec.price, txHash := result.transactionHash }]
    holdings := progress.holdings.set rec.asset
      (tradedHolding rec (progress.holdings.get rec.asset)) }

def Progress.failed (progress : Progress) (rec : RebalancingRecommendation) (error : String) :
    Progress :=
  { progress with
    failedTrades := progress.failedTrades ++
      [{ asset := rec.asset, direction := rec.direction, amount := rec.amount, error := error }] }

def executeTrades (cfg : RebalancingConfig) (portfolioId : String)
    (clientReference : Option String) :
    List RebalancingRecommendation → Progress → RebalancingProgram Progress
  | [], progress => .done progress
  | rec :: recs, progress => do
      match ← (executeTrade cfg (tradeRequestOf portfolioId clientReference rec)).attempt with
      | .ok result =>
        if result.success then
          executeTrades cfg portfolioId clientReference recs (progress.executed rec result)
        else
          executeTrades cfg portfolioId clientReference recs
            (progress.failed rec (result.errorReason.getD "Trade execution failed"))
      | .error e =>
        executeTrades cfg portfolioId clientReference recs
          (progress.failed rec (e.message?.getD "undefined"))

/-- `executionKey`; without a reference it is not used. -/
def executionKey (portfolioId clientReference : String) : String :=
  portfolioId ++ ":" ++ clientReference

/-- `if (clientReference) this.executionHistoryMap.set(executionKey, result)`. -/
def remember (result : RebalancingExecutionResult) : RebalancingProgram Unit :=
  match clientReference with
  | none => .done ()
  | some reference =>
    if reference = "" then .done ()
    else askRebalancing
      (.setExecution (executionKey portfolioId reference) result)

def recalled : RebalancingProgram (Option RebalancingExecutionResult) :=
  match clientReference with
  | none => .done none
  | some reference =>
    if reference = "" then .done none
    else askRebalancing (.getExecution (executionKey portfolioId reference))

theorem remember_of_reference {reference : String} (hne : reference ≠ "")
    (result : RebalancingExecutionResult) :
    remember portfolioId (some reference) result = askRebalancing
      (.setExecution (executionKey portfolioId reference) result) :=
  if_neg hne

theorem recall_of_reference {reference : String} (hne : reference ≠ "") :
    recalled portfolioId (some reference) = askRebalancing
      (.getExecution (executionKey portfolioId reference)) :=
  if_neg hne

def finishIdle (dryRun : Bool) (clientReference : Option String) :
    RebalancingProgram RebalancingExecutionResult := do
  let holdings ← askRebalancing (.getHoldings portfolioId)
  let result : RebalancingExecutionResult :=
    { success := true, dryRun, executedTrades := [], failedTrades := [],
      resultingAllocation := calculateAllocationPercentages holdings }
  remember portfolioId clientReference result
  .done result

def simulate
    (recs : List RebalancingRecommendation) : RebalancingProgram RebalancingExecutionResult := do
  let targets ← askRebalancing (.getTargetAllocations portfolioId)
  let result : RebalancingExecutionResult :=
    { success := true
      dryRun := true
      executedTrades := recs.map fun rec =>
        { asset := rec.asset, direction := rec.direction, amount := rec.amount,
          quantity := rec.quantity, price := rec.price }
      failedTrades := []
      resultingAllocation := targets }
  remember portfolioId clientReference result
  .done result

def execute
    (recs : List RebalancingRecommendation) : RebalancingProgram RebalancingExecutionResult := do
  let holdings ← askRebalancing (.getHoldings portfolioId)
  let progress ← executeTrades cfg portfolioId clientReference recs { holdings := holdings }
  askRebalancing (.setHoldings portfolioId progress.holdings)
  let result : RebalancingExecutionResult :=
    { success := progress.failedTrades.isEmpty, dryRun := false,
      executedTrades := progress.executedTrades, failedTrades := progress.failedTrades,
      resultingAllocation := calculateAllocationPercentages progress.holdings }
  remember portfolioId clientReference result
  .done result

/-- `executeRebalancing` once the reference is known to be new. -/
def executeNew (dryRun : Bool)
    (clientReference : Option String) : RebalancingProgram RebalancingExecutionResult := do
  match ← getRebalancingRecommendations cfg portfolioId with
  | [] => finishIdle portfolioId dryRun clientReference
  | rec :: recs =>
    if dryRun then simulate portfolioId clientReference (rec :: recs)
    else execute cfg portfolioId clientReference (rec :: recs)

def executeRebalancing (dryRun : Bool)
    (clientReference : Option String) : RebalancingProgram RebalancingExecutionResult := do
  match ← recalled portfolioId clientReference with
  | some result => .done result
  | none => executeNew cfg portfolioId dryRun clientReference

/-! ## The world -/

/-- The maps of the two services and the stored targets; `direct` logs the trades that were
executed directly. -/
structure RebalancingWorld where
  executions : String → Option RebalancingExecutionResult := fun _ => none
  targets : String → Record ℚ := fun _ => .empty
  holdings : String → Option (Record AssetHolding) := fun _ => none
  thresholds : String → Option ℚ := fun _ => none
  trading : TradingWorld Unit := {}
  direct : List TradeRequest := []

namespace RebalancingWorld

def perform (time : Int) : (op : RebalancingOp) → RebalancingWorld →
    Except Failure op.Res × RebalancingWorld
  | .getExecution key, w => (.ok (w.executions key), w)
  | .setExecution key result, w =>
    (.ok (), { w with executions := Function.update w.executions key (some result) })
  | .getTargetAllocations portfolioId, w => (.ok (w.targets portfolioId), w)
  | .getHoldings portfolioId, w => (.ok ((w.holdings portfolioId).getD .empty), w)
  | .setHoldings portfolioId holdings, w =>
    (.ok (), { w with holdings := Function.update w.holdings portfolioId (some holdings) })
  | .getThreshold portfolioId, w => (.ok (w.thresholds portfolioId), w)
  | .trade op, w =>
    let (result, trading) := w.trading.serve () time op
    (result, { w with trading := trading })
  | .executeDirectly request, w =>
    (.ok time, { w with direct := w.direct ++ [request] })

def recommendations (cfg : RebalancingConfig) (w : RebalancingWorld) (portfolioId : String) :
    List RebalancingRecommendation :=
  recommendationsFor cfg (w.targets portfolioId) ((w.holdings portfolioId).getD .empty)
    (w.thresholds portfolioId)

def submitted (cfg : RebalancingConfig) (w : RebalancingWorld) : List TradeRequest :=
  match cfg.trading with
  | some _ => w.trading.trades.map (·.1)
  | none => w.direct

end RebalancingWorld

/-- A call of `executeRebalancing`, or a change of what it reads. -/
inductive RebalancingStep where
  | call (time : Int) (portfolioId : String) (dryRun : Bool) (clientReference : Option String)
  | setHoldings (portfolioId : String) (holdings : Record AssetHolding)
  | setTargets (portfolioId : String) (targets : Record ℚ)
  | setThreshold (portfolioId : String) (threshold : ℚ)

def RebalancingStep.apply (w : RebalancingWorld) : RebalancingStep → RebalancingWorld
  | .call time portfolioId dryRun clientReference =>
    (Async.eval (RebalancingWorld.perform time)
      (executeRebalancing cfg portfolioId dryRun clientReference) w).2
  | .setHoldings portfolioId holdings =>
    { w with holdings := Function.update w.holdings portfolioId (some holdings) }
  | .setTargets portfolioId targets =>
    { w with targets := Function.update w.targets portfolioId targets }
  | .setThreshold portfolioId threshold =>
    { w with thresholds := Function.update w.thresholds portfolioId (some threshold) }

def rebalancingRun (steps : List RebalancingStep) : RebalancingWorld :=
  steps.foldl (RebalancingStep.apply cfg) {}

end Trellis.Portfolio
