import Trellis.Core.Pool
import Trellis.Portfolio.AllocationEdits

/-!
# The portfolio service

The methods of `investment/portfolio/services/portfolio.service.ts` that save a portfolio they
have read before. A save reads the row again and writes the columns in which the entity differs
from it. Next to them run the transactions of `setTargetAllocations`, which hold the lock of the
row and so take effect at once.
-/

namespace Trellis.Investment

open Trellis.Core Trellis.Portfolio

/-! ## Rows and arguments -/

inductive OptimizationStatus where
  | pending
  | inProgress
  | completed
  | failed
  | approved
  | rejected
  | implemented
deriving DecidableEq

structure OptimizationRow where
  id : String
  portfolioId : String
  status : OptimizationStatus
  suggestedAllocation : Record ℚ
  implementedAt : Option Int := none

structure UpdatePortfolioDto where
  name : Option String := none
  status : Option PortfolioStatus := none
  autoRebalanceEnabled : Option Bool := none
  rebalanceFrequency : Option String := none
  rebalanceThreshold : Option ℚ := none

structure AddHoldingDto where
  ticker : String
  chain : String := "other"
  quantity : ℚ
  currentPrice : Option ℚ := none
  overrideConstraints : Bool := false
  overrideReason : Option String := none
  acknowledgedBy : Option String := none

structure ConstraintEvaluation where
  valid : Bool
  violations : List String

structure PortfolioServiceConfig where
  evaluatePortfolio : PortfolioRow → List PortfolioAsset → ConstraintEvaluation

structure PortfolioSnapshot where
  id : String
  userId : String
  name : String
  status : PortfolioStatus
  totalValue : ℚ
  currentAllocation : Record ℚ
  targetAllocation : Option (Record ℚ)
  autoRebalanceEnabled : Bool
  rebalanceFrequency : Option String
  rebalanceThreshold : ℚ

variable (cfg : PortfolioServiceConfig) (portfolioId : String) (portfolio : PortfolioRow)

def portfolioSnapshot : PortfolioSnapshot where
  id := portfolio.id
  userId := portfolio.userId
  name := portfolio.name
  status := portfolio.status
  totalValue := portfolio.totalValue
  currentAllocation := portfolio.currentAllocation
  targetAllocation := portfolio.targetAllocation
  autoRebalanceEnabled := portfolio.autoRebalanceEnabled
  rebalanceFrequency := portfolio.rebalanceFrequency
  rebalanceThreshold := portfolio.rebalanceThreshold

inductive Snapshot where
  | notCreated
  | portfolio (snapshot : PortfolioSnapshot)
  | holding (asset : PortfolioAsset)

structure PortfolioChange where
  actorId : String
  resourceType : String
  resourceId : String
  beforeState : Snapshot
  afterState : Snapshot
  reason : String

structure Verification where
  portfolioId : String
  operation : String
  evaluation : ConstraintEvaluation
  overrideAccepted : Bool
  overrideReason : Option String
  acknowledgedBy : Option String

/-! ## The lifecycle of a portfolio -/

def statusValue : PortfolioStatus → String
  | .draft => "draft"
  | .active => "active"
  | .rebalancing => "rebalancing"
  | .paused => "paused"
  | .frozen => "frozen"
  | .inactive => "inactive"
  | .archived => "archived"

def derivePortfolioLifecycleState : PortfolioStatus :=
  if portfolio.deletedAt.isSome ∨ portfolio.status = .archived then .archived
  else if portfolio.status = .inactive then .active
  else portfolio.status

def allowedTransitions : PortfolioStatus → List PortfolioStatus
  | .draft => [.active, .archived]
  | .active => [.rebalancing, .paused, .frozen, .archived]
  | .rebalancing => [.active, .paused, .frozen]
  | .paused => [.active, .frozen, .archived]
  | .frozen => [.active, .paused, .archived]
  | .inactive | .archived => []

def assertCanTransition (id : String) (fromState toState : PortfolioStatus) : Except Failure Unit :=
  if fromState = toState ∨ toState ∈ allowedTransitions fromState then .ok ()
  else
    let reason :=
      if fromState = .archived then
        "State \"" ++ statusValue fromState ++
          "\" is terminal and cannot transition to any other state"
      else
        "No transition defined from \"" ++ statusValue fromState ++ "\" to \"" ++
          statusValue toState ++ "\""
    .error (.badRequest ("Invalid lifecycle transition for portfolio [" ++ id ++
      "]: cannot transition from '" ++ statusValue fromState ++ "' to '" ++
      statusValue toState ++ "'. Reason: " ++ reason ++ ". Allowed transitions: [" ++
      ", ".intercalate ((allowedTransitions fromState).map statusValue) ++ "]"))

/-! ## Awaited operations -/

/-- The repositories, the audit services, the clock, and a whole transaction of
`setTargetAllocations`.  A save of a portfolio is its two queries. -/
inductive PortfolioOp where
  | findPortfolio (id : String)
  | findAsset (portfolioId ticker : String)
  | findAssets (portfolioId : String)
  | insertAsset (asset : PortfolioAsset)
  | saveAssets (assets : List PortfolioAsset)
  | loadForSave (entity : PortfolioRow)
  | updateChanged (loaded entity : PortfolioRow)
  | findOptimization (id : String)
  | saveOptimization (optimization : OptimizationRow)
  | recordVerification (verification : Verification)
  | recordSensitiveAction (change : PortfolioChange)
  | recordSnapshot (portfolioId : String) (totalValue : ℚ) (allocation : Record ℚ)
  | assertCanTransition (id : String) (fromState toState : PortfolioStatus)
  | now
  | setTargetAllocations (edit : AllocationCall)

/-- What each operation resolves to; a portfolio is found with its assets. -/
def PortfolioOp.Res : PortfolioOp → Type
  | .findPortfolio _ => Option (PortfolioRow × List PortfolioAsset)
  | .findAsset _ _ => Option PortfolioAsset
  | .findAssets _ => List PortfolioAsset
  | .insertAsset _ => PortfolioAsset
  | .loadForSave _ => Option PortfolioRow
  | .findOptimization _ => Option OptimizationRow
  | .now => Int
  | .setTargetAllocations _ => TargetAllocationWriteResult
  | .saveAssets _ | .updateChanged _ _ | .saveOptimization _ | .recordVerification _
  | .recordSensitiveAction _ | .recordSnapshot _ _ _ | .assertCanTransition _ _ _ => Unit

abbrev portfolioInterface : Interface :=
  ⟨PortfolioOp, PortfolioOp.Res⟩

abbrev PortfolioProgram (α : Type) : Type :=
  Async portfolioInterface Failure α

abbrev askPortfolio (op : portfolioInterface.Op) : PortfolioProgram (portfolioInterface.Res op) :=
  .call op

/-! ## The methods -/

def getPortfolio (id : String) : PortfolioProgram (PortfolioRow × List PortfolioAsset) := do
  match ← askPortfolio (.findPortfolio id) with
  | none => .fail (.notFound "Portfolio not found")
  | some found =>
    if found.1.deletedAt.isSome then .fail (.notFound "Portfolio not found") else .done found

def savePortfolio (entity : PortfolioRow) : PortfolioProgram PortfolioRow := do
  match ← askPortfolio (.loadForSave entity) with
  | none => .done entity
  | some loaded => do
      askPortfolio (.updateChanged loaded entity)
      .done entity

def recordPortfolioChange (change : PortfolioChange) : PortfolioProgram Unit :=
  askPortfolio (.recordSensitiveAction change)

def portfolioChange (before after : PortfolioRow) (reason : String) : PortfolioChange where
  actorId := after.userId
  resourceType := "portfolio"
  resourceId := after.id
  beforeState := .portfolio (portfolioSnapshot before)
  afterState := .portfolio (portfolioSnapshot after)
  reason := reason

def setTargetAllocation (allocations : Record ℚ) : PortfolioProgram PortfolioRow := do
  let (before, _) ← getPortfolio portfolioId
  let saved ← savePortfolio { before with targetAllocation := some allocations }
  recordPortfolioChange (portfolioChange before saved "Portfolio target allocation changed")
  .done saved

def checkName (name : Option String) : Except Failure Unit :=
  match name with
  | none => .ok ()
  | some name =>
    if name ≠ "" ∧ name ≠ portfolio.name ∧ trim name = "" then
      .error (.badRequest "Portfolio name cannot be empty")
    else .ok ()

def changeStatus (status : Option PortfolioStatus) : PortfolioProgram PortfolioRow :=
  match status with
  | none => .done portfolio
  | some status =>
    if status = portfolio.status then .done portfolio
    else do
      askPortfolio (.assertCanTransition portfolio.id
        (derivePortfolioLifecycleState portfolio) status)
      match status with
      | .archived => do
          let time : Int ← askPortfolio .now
          .done { portfolio with status := status, deletedAt := some time }
      | .active => .done { portfolio with status := status, deletedAt := none }
      | _ => .done { portfolio with status := status }

/-- `Object.assign(portfolio, dto)`. -/
def UpdatePortfolioDto.assign (dto : UpdatePortfolioDto) (portfolio : PortfolioRow) :
    PortfolioRow :=
  { portfolio with
    name := dto.name.getD portfolio.name
    status := dto.status.getD portfolio.status
    autoRebalanceEnabled := dto.autoRebalanceEnabled.getD portfolio.autoRebalanceEnabled
    rebalanceFrequency := dto.rebalanceFrequency.or portfolio.rebalanceFrequency
    rebalanceThreshold := dto.rebalanceThreshold.getD portfolio.rebalanceThreshold }

/-- `assertOwnershipTransition`; the dto has no owner. -/
def checkOwner : Except Failure Unit :=
  if trim portfolio.userId = "" then
    .error (.error "Domain entity must have an associated owner ID.")
  else .ok ()

def updatePortfolio (dto : UpdatePortfolioDto) : PortfolioProgram PortfolioRow := do
  let (before, _) ← getPortfolio portfolioId
  Async.ofExcept (checkName before dto.name)
  let portfolio ← changeStatus before dto.status
  Async.ofExcept (checkOwner portfolio)
  let saved ← savePortfolio (dto.assign portfolio)
  recordPortfolioChange (portfolioChange before saved "Portfolio details changed")
  .done saved

def allocationPercentage (totalValue : ℚ) (asset : PortfolioAsset) : ℚ :=
  if 0 < totalValue then asset.value / totalValue * 100 else 0

def updatePortfolioMetrics : PortfolioProgram Unit := do
  let (before, _) ← getPortfolio portfolioId
  let assets ← askPortfolio (.findAssets portfolioId)
  let totalValue := (assets.map (·.value)).sum
  let allocation := Record.ofList (assets.map fun asset =>
    (asset.ticker ++ "-" ++ asset.chain, allocationPercentage totalValue asset))
  let portfolio := { before with totalValue := totalValue, currentAllocation := allocation }
  let _ ← savePortfolio portfolio
  askPortfolio (.saveAssets (assets.map fun asset =>
    { asset with allocationPercentage := allocationPercentage totalValue asset }))
  recordPortfolioChange
    (portfolioChange before portfolio "Portfolio market value and allocation updated")
  let _ ← (askPortfolio (.recordSnapshot portfolioId totalValue allocation)).attempt
  .done ()

def validatePortfolioConstraints
    (assets : List PortfolioAsset) (dto : AddHoldingDto) (operation : String) :
    PortfolioProgram Unit := do
  let evaluation := cfg.evaluatePortfolio portfolio assets
  askPortfolio (.recordVerification
    { portfolioId := portfolio.id, operation, evaluation,
      overrideAccepted := dto.overrideConstraints, overrideReason := dto.overrideReason,
      acknowledgedBy := dto.acknowledgedBy })
  if ¬ evaluation.valid ∧ ¬ dto.overrideConstraints then
    .fail (.badRequest (" ".intercalate evaluation.violations))
  else .done ()

def checkHolding (dto : AddHoldingDto) : Except Failure Unit :=
  if dto.quantity ≤ 0 then .error (.badRequest "Quantity must be positive")
  else if dto.currentPrice.any (· < 0) then
    .error (.badRequest "Current price cannot be negative")
  else .ok ()

def addHolding (dto : AddHoldingDto) : PortfolioProgram PortfolioAsset := do
  let (portfolio, assets) ← getPortfolio portfolioId
  Async.ofExcept (checkHolding dto)
  match ← askPortfolio (.findAsset portfolioId dto.ticker) with
  | some _ => .fail (.badRequest "Holding with same ticker and chain already exists")
  | none => do
      let asset : PortfolioAsset :=
        { id := "", portfolioId, ticker := dto.ticker, chain := dto.chain, quantity := dto.quantity,
          currentPrice := dto.currentPrice, value := dto.quantity * dto.currentPrice.getD 0 }
      validatePortfolioConstraints cfg portfolio (assets ++ [asset]) dto "ADD_HOLDING"
      let saved ← askPortfolio (.insertAsset asset)
      recordPortfolioChange
        { actorId := portfolio.userId, resourceType := "portfolio_holding", resourceId := saved.id,
          beforeState := .notCreated, afterState := .holding saved,
          reason := "Holding added to portfolio" }
      updatePortfolioMetrics portfolioId
      .done saved

def implementOptimization (optimizationId : String) : PortfolioProgram PortfolioRow := do
  match ← askPortfolio (.findOptimization optimizationId) with
  | none => .fail (.notFound "Optimization not found")
  | some optimization =>
    if optimization.status ≠ .approved then
      .fail (.badRequest "Only approved optimizations can be implemented")
    else do
      let (portfolio, _) ← getPortfolio optimization.portfolioId
      let rebalanced : Int ← askPortfolio .now
      let implemented : Int ← askPortfolio .now
      askPortfolio (.saveOptimization
        { optimization with status := .implemented, implementedAt := some implemented })
      savePortfolio
        { portfolio with
          targetAllocation := some optimization.suggestedAllocation
          lastRebalanceDate := some rebalanced }

inductive PortfolioCall where
  | setTargetAllocations (edit : AllocationCall)
  | updatePortfolioMetrics (portfolioId : String)
  | updatePortfolio (portfolioId : String) (dto : UpdatePortfolioDto)
  | addHolding (portfolioId : String) (dto : AddHoldingDto)
  | setTargetAllocation (portfolioId : String) (allocations : Record ℚ)
  | implementOptimization (optimizationId : String)

def PortfolioCall.program : PortfolioCall → PortfolioProgram Unit
  | .setTargetAllocations edit => do
      let _ ← askPortfolio (.setTargetAllocations edit)
      .done ()
  | .updatePortfolioMetrics portfolioId => Investment.updatePortfolioMetrics portfolioId
  | .updatePortfolio portfolioId dto => do
      let _ ← Investment.updatePortfolio portfolioId dto
      .done ()
  | .addHolding portfolioId dto => do
      let _ ← Investment.addHolding cfg portfolioId dto
      .done ()
  | .setTargetAllocation portfolioId allocations => do
      let _ ← Investment.setTargetAllocation portfolioId allocations
      .done ()
  | .implementOptimization optimizationId => do
      let _ ← Investment.implementOptimization optimizationId
      .done ()

/-! ## The world -/

/-- The tables; `inserted` numbers the new rows. -/
structure PortfolioWorld where
  tables : AllocationWorld
  optimizations : List OptimizationRow := []
  inserted : Nat := 0

/-- How an operation ends: it is served at a time, rejected without effect, or performed and its
answer is lost. -/
inductive PortfolioChoice where
  | served (time : Int)
  | rejected (e : Failure)
  | lost (e : Failure)

/-- A column of the row after a save: written only where the entity differs from what the save
has read. -/
def changedColumn {α : Type} [DecidableEq α] (loaded entity row : α) : α :=
  if entity = loaded then row else entity

def changedColumns (loaded entity row : PortfolioRow) : PortfolioRow where
  id := row.id
  userId := changedColumn loaded.userId entity.userId row.userId
  name := changedColumn loaded.name entity.name row.name
  status := changedColumn loaded.status entity.status row.status
  totalValue := changedColumn loaded.totalValue entity.totalValue row.totalValue
  currentAllocation :=
    changedColumn loaded.currentAllocation entity.currentAllocation row.currentAllocation
  targetAllocation :=
    changedColumn loaded.targetAllocation entity.targetAllocation row.targetAllocation
  autoRebalanceEnabled :=
    changedColumn loaded.autoRebalanceEnabled entity.autoRebalanceEnabled row.autoRebalanceEnabled
  rebalanceFrequency :=
    changedColumn loaded.rebalanceFrequency entity.rebalanceFrequency row.rebalanceFrequency
  rebalanceThreshold :=
    changedColumn loaded.rebalanceThreshold entity.rebalanceThreshold row.rebalanceThreshold
  deletedAt := changedColumn loaded.deletedAt entity.deletedAt row.deletedAt
  lastRebalanceDate :=
    changedColumn loaded.lastRebalanceDate entity.lastRebalanceDate row.lastRebalanceDate

namespace PortfolioWorld

def assetsOf (w : PortfolioWorld) (portfolioId : String) : List PortfolioAsset :=
  w.tables.assets.filter fun asset => asset.portfolioId = portfolioId ∧ asset.deletedAt = none

def withAssets (w : PortfolioWorld) (assets : List PortfolioAsset) : PortfolioWorld :=
  { w with tables := { w.tables with assets := assets } }

def serve (time : Int) : (op : PortfolioOp) → PortfolioWorld →
    Except Failure op.Res × PortfolioWorld
  | .findPortfolio id, w =>
    (.ok ((w.tables.portfolios.find? fun row => row.id = id ∧ row.deletedAt = none).map
      fun row => (row, w.assetsOf id)), w)
  | .findAsset portfolioId ticker, w =>
    (.ok ((w.assetsOf portfolioId).find? (·.ticker = ticker)), w)
  | .findAssets portfolioId, w => (.ok (w.assetsOf portfolioId), w)
  | .insertAsset asset, w =>
    let asset : PortfolioAsset := { asset with id := "asset-" ++ toString w.inserted }
    (.ok asset, { w.withAssets (w.tables.assets ++ [asset]) with inserted := w.inserted + 1 })
  | .saveAssets assets, w =>
    (.ok (), w.withAssets (w.tables.assets.map fun asset =>
      (assets.find? (·.id = asset.id)).getD asset))
  | .loadForSave entity, w => (.ok (w.tables.portfolios.find? (·.id = entity.id)), w)
  | .updateChanged loaded entity, w =>
    (.ok (), { w with tables := w.tables.updatePortfolio entity.id (changedColumns loaded entity) })
  | .findOptimization id, w => (.ok (w.optimizations.find? (·.id = id)), w)
  | .saveOptimization optimization, w =>
    (.ok (), { w with
      optimizations := w.optimizations.map fun row =>
        if row.id = optimization.id then optimization else row })
  | .recordVerification _, w => (.ok (), w)
  | .recordSensitiveAction _, w => (.ok (), w)
  | .recordSnapshot _ _ _, w => (.ok (), w)
  | .assertCanTransition id fromState toState, w =>
    (Investment.assertCanTransition id fromState toState, w)
  | .now, w => (.ok time, w)
  | .setTargetAllocations edit, w =>
    let (result, tables) := Portfolio.setTargetAllocations edit w.tables
    (result, { w with tables := tables })

def perform (c : PortfolioChoice) (op : PortfolioOp) (w : PortfolioWorld) :
    Except Failure op.Res × PortfolioWorld :=
  match c with
  | .served time => w.serve time op
  | .rejected e => (.error e, w)
  | .lost e => (.error e, (w.serve 0 op).2)

end PortfolioWorld

def portfolioSemantics (ι : Type) : Semantics portfolioInterface Failure ι PortfolioWorld where
  Choice := PortfolioChoice
  perform _ op c w := some (w.perform c op)
  Event := Empty
  happen e := e.elim

def portfolioPool {ι : Type} (calls : ι → PortfolioCall)
    (w : PortfolioWorld) : Pool portfolioInterface Failure ι PortfolioWorld Unit where
  world := w
  calls i := (calls i).program cfg

end Trellis.Investment
