import Trellis.Portfolio.TargetAllocations

/-!
# Rebalancing events

The rebalancing events of `investment/portfolio/services/rebalancing.service.ts`. The trades of an
event are executed in batches of three; the calls of a batch are all started before the first is
awaited. The world logs what is written and submitted.
-/

namespace Trellis.Investment

open Trellis.Core Trellis.Portfolio Trellis.Trading Async

/-! ## Rows -/

inductive RebalanceTrigger where
  | manual
  | timeBased
  | thresholdBased
  | mlTriggered
  | marketEvent
  | riskBased

inductive RebalanceStatus where
  | pending
  | inProgress
  | completed
  | failed
  | cancelled
deriving DecidableEq

structure RebalanceTrade where
  ticker : String
  action : TradeAction
  quantity : ℚ
  price : ℚ
  value : ℚ
  estimatedTaxImpact : ℚ := 0

/-- `RebalancingEvent`; its id is the number of its insertion. -/
structure RebalancingEvent where
  id : Nat := 0
  portfolioId : String
  trigger : RebalanceTrigger := .manual
  status : RebalanceStatus := .pending
  triggerReason : Option String := none
  allocationBefore : Record ℚ := .empty
  allocationAfter : Record ℚ
  trades : List RebalanceTrade
  estimatedCost : ℚ := 0
  taxImpact : ℚ := 0
  actualCost : Option ℚ := none
  executionSlippage : Option ℚ := none
  executedAt : Option Int := none
  completedAt : Option Int := none
  failureReason : Option String := none

/-! ## Awaited operations -/

inductive Alert where
  | started (portfolioId message : String)
  | cancelled (portfolioId reason : String)
  | success (portfolioId message : String)
  | failed (portfolioId : String) (error : Option String)

inductive RebalanceAudit where
  | slippageFailure (portfolioId : String) (slippage : ℚ)
  | success (portfolioId : String) (eventId : Nat)

/-- The repositories, the alert and audit services, the clock, and `Promise.all` over a batch of
trades; `start` is the number of its first trade in the event. -/
inductive RebalanceOp where
  | findPortfolio (id : String)
  | findAssets (portfolioId : String)
  | insertEvent (event : RebalancingEvent)
  | findEvent (id : Nat)
  | saveEvent (event : RebalancingEvent)
  | savePortfolio (portfolio : PortfolioRow)
  | dispatch (userId : String) (alert : Alert)
  | recordVerification (audit : RebalanceAudit)
  | executeBatch (eventId start : Nat) (requests : List TradeRequest)
  | now

/-- What each operation resolves to; an event is found with its portfolio. -/
def RebalanceOp.Res : RebalanceOp → Type
  | .findPortfolio _ => Option PortfolioRow
  | .findAssets _ => List PortfolioAsset
  | .insertEvent _ => RebalancingEvent
  | .findEvent _ => Option (RebalancingEvent × Option PortfolioRow)
  | .executeBatch _ _ _ => List TradeResult
  | .now => Int
  | .saveEvent _ | .savePortfolio _ | .dispatch _ _ | .recordVerification _ => Unit

abbrev rebalanceInterface : Interface :=
  ⟨RebalanceOp, RebalanceOp.Res⟩

abbrev RebalanceProgram (α : Type) : Type :=
  Async rebalanceInterface Failure α

abbrev askRebalance (op : rebalanceInterface.Op) : RebalanceProgram (rebalanceInterface.Res op) :=
  .call op

/-! ## Events -/

def findPortfolio (id : String) : RebalanceProgram PortfolioRow := do
  match ← askRebalance (.findPortfolio id) with
  | none => .fail (.notFound "Portfolio not found")
  | some portfolio =>
    if portfolio.deletedAt.isSome then .fail (.notFound "Portfolio not found")
    else .done portfolio

/-- `value || fallback` of a number. -/
def orElse (value : Option ℚ) (fallback : ℚ) : ℚ :=
  match value with
  | some x => if x = 0 then fallback else x
  | none => fallback

/-- The trade that an asset needs, if it is more than half a percent off its target. -/
def tradeOf (portfolio : PortfolioRow) (asset : PortfolioAsset) : Option RebalanceTrade :=
  let targetPercentage := (portfolio.targetAllocation.bind (·.get asset.ticker)).getD 0
  let currentPercentage := asset.allocationPercentage
  if |targetPercentage - currentPercentage| ≤ 1 / 2 then none
  else
    let targetValue := targetPercentage / 100 * portfolio.totalValue
    let currentValue := currentPercentage / 100 * portfolio.totalValue
    let valueDifference := targetValue - currentValue
    let quantity := valueDifference / orElse asset.currentPrice 1
    let capitalGains :=
      max 0 ((asset.currentPrice.getD 0 - asset.costBasisPerShare.getD 0) * |quantity|)
    some
      { ticker := asset.ticker
        action := if 0 < quantity then .buy else .sell
        quantity := |quantity|
        price := asset.currentPrice.getD 0
        value := |valueDifference|
        estimatedTaxImpact := if 0 < quantity then 0 else capitalGains * (15 / 100) }

def calculateRebalancingTrades (portfolioId : String) : RebalanceProgram (List RebalanceTrade) := do
  let portfolio ← findPortfolio portfolioId
  let assets ← askRebalance (.findAssets portfolioId)
  .done (assets.filterMap (tradeOf portfolio))

def triggerRebalancing (portfolioId : String) (trigger : RebalanceTrigger)
    (reason : Option String) : RebalanceProgram RebalancingEvent := do
  let portfolio ← findPortfolio portfolioId
  let trades ← calculateRebalancingTrades portfolioId
  askRebalance (.insertEvent
    { portfolioId, trigger, status := .pending, triggerReason := reason,
      allocationBefore := portfolio.currentAllocation,
      allocationAfter := portfolio.targetAllocation.getD portfolio.currentAllocation, trades,
      estimatedCost := (trades.map (·.value)).sum,
      taxImpact := (trades.map (·.estimatedTaxImpact)).sum })

def findEvent (id : Nat) : RebalanceProgram (RebalancingEvent × Option PortfolioRow) := do
  match ← askRebalance (.findEvent id) with
  | none => .fail (.badRequest "Rebalancing event not found")
  | some found => .done found

def changeEvent (id : Nat) (change : RebalancingEvent → RebalancingEvent) :
    RebalanceProgram RebalancingEvent := do
  let (event, _) ← findEvent id
  askRebalance (.saveEvent (change event))
  .done (change event)

def approveRebalancing (id : Nat) : RebalanceProgram RebalancingEvent :=
  changeEvent id fun event => { event with status := .inProgress }

def cancelRebalancing (id : Nat) (reason : String) : RebalanceProgram RebalancingEvent :=
  changeEvent id fun event => { event with status := .cancelled, failureReason := some reason }

/-! ## The execution -/

structure RebalanceConfig where
  /-- `number.toString()`. -/
  numberText : ℚ → String

def validateSlippage (cfg : RebalanceConfig) (slippage : ℚ) : Option String :=
  if 2 / 100 < slippage then
    some ("Slippage " ++ cfg.numberText (slippage * 100) ++ "% exceeds limit of " ++
      cfg.numberText 2 ++ "%")
  else none

def batchesOfThree {α : Type} : List α → List (List α)
  | [] => []
  | [a] => [[a]]
  | [a, b] => [[a, b]]
  | a :: b :: c :: rest => [a, b, c] :: batchesOfThree rest

def requestOf (portfolioId : String) (trade : RebalanceTrade) : TradeRequest where
  portfolioId := portfolioId
  ticker := trade.ticker
  action := trade.action
  quantity := trade.quantity
  price := trade.price

def executeBatches (event : RebalancingEvent) :
    List (List RebalanceTrade) → Nat → RebalanceProgram Unit
  | [], _ => .done ()
  | batch :: rest, start => do
      let _ ← askRebalance (.executeBatch event.id start (batch.map (requestOf event.portfolioId)))
      executeBatches event rest (start + batch.length)

structure Execution where
  eventId : Nat
  actualCost : Option ℚ := none
  slippage : ℚ := 0
  dryRun : Bool := false

variable (args : Execution) (event : RebalancingEvent)

def Execution.cost : ℚ :=
  orElse args.actualCost event.estimatedCost

/-- The trades and the portfolio: the event as it is about to be stored. -/
def tradeEvent (portfolio : PortfolioRow) : RebalanceProgram RebalancingEvent := do
  executeBatches event (batchesOfThree event.trades) 0
  let rebalanced : Int ← askRebalance .now
  askRebalance (.savePortfolio
    { portfolio with
      currentAllocation := event.allocationAfter, lastRebalanceDate := some rebalanced })
  let executed : Int ← askRebalance .now
  let completed : Int ← askRebalance .now
  .done
    { event with
      status := .completed, actualCost := some (args.cost event),
      executionSlippage := some args.slippage, executedAt := some executed,
      completedAt := some completed }

def finishEvent (portfolio : PortfolioRow) : RebalanceProgram Unit := do
  askRebalance (.saveEvent event)
  askRebalance (.recordVerification (.success event.portfolioId event.id))
  askRebalance (.dispatch portfolio.userId
    (.success portfolio.id ("Successfully rebalanced portfolio " ++ portfolio.name)))

/-- The `catch`; `event` is the event as the `try` has changed it. -/
def failEvent (portfolio : PortfolioRow) (e : Failure) : RebalanceProgram RebalancingEvent := do
  askRebalance (.saveEvent
    { event with status := .failed, failureReason := e.message?.or event.failureReason })
  askRebalance (.dispatch portfolio.userId (.failed event.portfolioId e.message?))
  .fail e

def completeEvent (portfolio : PortfolioRow) : RebalanceProgram RebalancingEvent := do
  match ← (tradeEvent args event portfolio).attempt with
  | .error e => failEvent event portfolio e
  | .ok completed => do
      match ← (finishEvent completed portfolio).attempt with
      | .error e => failEvent completed portfolio e
      | .ok _ => .done completed

def refuseSlippage (portfolio : PortfolioRow)
    (error : String) : RebalanceProgram RebalancingEvent := do
  askRebalance (.saveEvent
    { event with status := .failed, failureReason := some error })
  askRebalance
    (.dispatch portfolio.userId (.cancelled event.portfolioId error))
  askRebalance
    (.recordVerification (.slippageFailure event.portfolioId args.slippage))
  .fail (.badRequest error)

/-- `executeRebalancing` once the start was announced. -/
def executeEvent (cfg : RebalanceConfig) (args : Execution) (event : RebalancingEvent)
    (portfolio : PortfolioRow) : RebalanceProgram RebalancingEvent :=
  match validateSlippage cfg args.slippage with
  | some error => refuseSlippage args event portfolio error
  | none =>
    if args.dryRun then .done event
    else do
      let event := { event with status := .inProgress }
      askRebalance (.saveEvent event)
      completeEvent args event portfolio

/-- `executeRebalancing`; the portfolio of an event is missing where it was soft-deleted. -/
def executeRebalancing (cfg : RebalanceConfig) (args : Execution) :
    RebalanceProgram RebalancingEvent := do
  let (event, portfolio) ← findEvent args.eventId
  match portfolio with
  | none => .fail (.error "Cannot read properties of null (reading 'userId')")
  | some portfolio => do
      askRebalance (.dispatch portfolio.userId (.started event.portfolioId
          ("Rebalancing execution started for portfolio " ++ portfolio.name)))
      executeEvent cfg args event portfolio

/-! ## The world -/

/-- A status that was stored, a trade that was submitted by a call, or an allocation that was
written. -/
inductive Entry where
  | status (eventId : Nat) (status : RebalanceStatus)
  | trade (eventId call : Nat) (request : TradeRequest)
  | allocation (portfolioId : String) (allocation : Record ℚ)
deriving DecidableEq

/-- The tables, the log, and the number of the running call. -/
structure RebalanceWorld where
  portfolios : List PortfolioRow := []
  assets : List PortfolioAsset := []
  events : Nat → Option RebalancingEvent := fun _ => none
  inserted : Nat := 0
  log : List Entry := []
  call : Nat := 0

/-- How an operation fails: it is rejected without effect, or performed and its answer is
lost. -/
inductive Fault where
  | rejected (e : Failure)
  | lost (e : Failure)

/-- What the outside does to a call: what each trade of the event comes to, by its number, which
other operations fail, and the time. -/
structure Script where
  trade : Nat → Except Failure TradeResult
  fault : RebalanceOp → Option Fault := fun _ => none
  time : Int := 0

def Script.failureOf (script : Script) : RebalanceOp → Option Fault
  | .executeBatch _ _ _ => none
  | .now => none
  | op => script.fault op

variable (script : Script)

namespace RebalanceWorld

def portfolio (w : RebalanceWorld) (id : String) : Option PortfolioRow :=
  w.portfolios.find? fun row => row.id = id ∧ row.deletedAt = none

def storeEvent (w : RebalanceWorld) (event : RebalancingEvent) : RebalanceWorld :=
  { w with
    events := Function.update w.events event.id (some event)
    log := w.log ++ [.status event.id event.status] }

def serve (script : Script) : (op : RebalanceOp) → RebalanceWorld →
    Except Failure op.Res × RebalanceWorld
  | .findPortfolio id, w => (.ok (w.portfolio id), w)
  | .findAssets portfolioId, w =>
    (.ok (w.assets.filter fun asset =>
      asset.portfolioId = portfolioId ∧ asset.deletedAt = none), w)
  | .insertEvent event, w =>
    let event : RebalancingEvent := { event with id := w.inserted }
    (.ok event, { w.storeEvent event with inserted := w.inserted + 1 })
  | .findEvent id, w =>
    (.ok ((w.events id).map fun event => (event, w.portfolio event.portfolioId)), w)
  | .saveEvent event, w => (.ok (), w.storeEvent event)
  | .savePortfolio portfolio, w =>
    (.ok (), { w with
      portfolios := w.portfolios.map fun row => if row.id = portfolio.id then portfolio else row
      log := w.log ++ [.allocation portfolio.id portfolio.currentAllocation] })
  | .dispatch _ _, w => (.ok (), w)
  | .recordVerification _, w => (.ok (), w)
  | .executeBatch eventId start requests, w =>
    ((List.range' start requests.length).mapM script.trade,
      { w with log := w.log ++ requests.map (.trade eventId w.call) })
  | .now, w => (.ok script.time, w)

def perform (script : Script) (op : RebalanceOp) (w : RebalanceWorld) :
    Except Failure op.Res × RebalanceWorld :=
  match script.failureOf op with
  | none => w.serve script op
  | some (.rejected e) => (.error e, w)
  | some (.lost e) => (.error e, (w.serve script op).2)

theorem perform_ok_iff {script : Script} {op : RebalanceOp} {a : op.Res} {w w' : RebalanceWorld} :
    w.perform script op = (.ok a, w') ↔
      script.failureOf op = none ∧ w.serve script op = (.ok a, w') := by
  rw [perform]
  split
  · rename_i hfailure
    exact (and_iff_right hfailure).symm
  · rename_i hfailure
    exact ⟨nofun, fun h => nomatch hfailure.symm.trans h.1⟩
  · rename_i hfailure
    exact ⟨nofun, fun h => nomatch hfailure.symm.trans h.1⟩

theorem perform_world (op : RebalanceOp) (w : RebalanceWorld) :
    (w.perform script op).2 = w ∨ (w.perform script op).2 = (w.serve script op).2 := by
  rw [perform]
  split
  · exact Or.inr rfl
  · exact Or.inl rfl
  · exact Or.inr rfl

end RebalanceWorld

def RebalanceOp.entries (w : RebalanceWorld) : RebalanceOp → List Entry
  | .insertEvent event => [.status w.inserted event.status]
  | .saveEvent event => [.status event.id event.status]
  | .savePortfolio portfolio => [.allocation portfolio.id portfolio.currentAllocation]
  | .executeBatch eventId _ requests => requests.map (.trade eventId w.call)
  | _ => []

namespace RebalanceWorld

theorem log_serve (op : RebalanceOp) (w : RebalanceWorld) :
    (w.serve script op).2.log = w.log ++ op.entries w := by
  cases op with
  | insertEvent _ | saveEvent _ | savePortfolio _ | executeBatch _ _ _ => rfl
  | _ => exact (List.append_nil _).symm

theorem log_perform (op : RebalanceOp) (w : RebalanceWorld) :
    (w.perform script op).2.log = w.log ∨ (w.perform script op).2.log = w.log ++ op.entries w := by
  rcases perform_world script op w with hnone | hserve
  · exact Or.inl (congrArg RebalanceWorld.log hnone)
  · rw [hserve]
    exact Or.inr (log_serve script op w)

theorem log_prefix_eval {α : Type} (p : RebalanceProgram α)
    (w : RebalanceWorld) : w.log <+: (eval (perform script) p w).2.log := by
  have htrans : ∀ {w₁ w₂ w₃ : RebalanceWorld}, w₁.log <+: w₂.log → w₂.log <+: w₃.log →
      w₁.log <+: w₃.log := fun h h' => List.IsPrefix.trans h h'
  refine eval_rel (R := fun w w' => w.log <+: w'.log) (fun w => List.prefix_rfl) htrans
    (fun op w => ?_) p w
  rcases log_perform script op w with hsame | hmore
  · exact hsame ▸ List.prefix_rfl
  · rw [hmore]
    exact List.prefix_append _ _

theorem log_prefix_bind {α β : Type} (p : RebalanceProgram α)
    (f : α → RebalanceProgram β) (w : RebalanceWorld) :
    (eval (perform script) p w).2.log <+: (eval (perform script) (p >>= f) w).2.log := by
  rcases hp : eval (perform script) p w with ⟨outcome, w'⟩
  cases outcome with
  | ok a =>
    rw [eval_bind_of_ok hp, hp]
    exact log_prefix_eval script (f a) w'
  | error e =>
    rw [eval_bind_of_error hp]
    exact hp ▸ List.prefix_rfl

end RebalanceWorld

end Trellis.Investment
