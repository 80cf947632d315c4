import Trellis.Common.ConflictResolver
import Trellis.Trading.Service

/-!
# Target allocations

`setTargetAllocations` of `portfolio/services/rebalancing.service.ts`: the checks of its
arguments, and the transaction under the lock of the portfolio's row that merges an edit with the
versions since its base, stores a new version and copies its weights. Weights are rationals.
-/

namespace Trellis.Portfolio

open Trellis.Core Trellis.Common Trellis.Trading

/-! ## Rows -/

inductive PortfolioStatus where
  | draft
  | active
  | rebalancing
  | paused
  | frozen
  | inactive
  | archived
deriving DecidableEq

structure PortfolioRow where
  id : String
  userId : String
  name : String
  status : PortfolioStatus := .active
  totalValue : ℚ := 0
  currentAllocation : Record ℚ := .empty
  targetAllocation : Option (Record ℚ) := none
  autoRebalanceEnabled : Bool := false
  rebalanceFrequency : Option String := none
  rebalanceThreshold : ℚ := 5
  deletedAt : Option Int := none
  lastRebalanceDate : Option Int := none
deriving DecidableEq

structure PortfolioAsset where
  id : String
  portfolioId : String
  ticker : String
  chain : String := "other"
  quantity : ℚ := 0
  currentPrice : Option ℚ := none
  value : ℚ := 0
  allocationPercentage : ℚ := 0
  costBasisPerShare : Option ℚ := none
  deletedAt : Option Int := none

structure TargetAllocation where
  assetId : String
  ticker : String
  targetWeight : ℚ

structure TargetAllocationVersion where
  portfolioId : String
  version : Nat
  allocations : List TargetAllocation

def toWeights (version : Option TargetAllocationVersion) : Record ℚ :=
  .ofList (((version.map (·.allocations)).getD []).map fun target =>
    (target.ticker, target.targetWeight))

/-! ## Arguments -/

/-- The argument `allocations`: not a map, or the entries of one in their order, where a key that
is not a text and a value that is not a finite number are `none`. -/
inductive AllocationsArgument where
  | other
  | map (entries : List (Option String × Option ℚ)) (nodup : (entries.filterMap (·.1)).Nodup)

/-- The ticker and the weight of an entry, where both are accepted. -/
def readEntry : Option String × Option ℚ → Option (String × ℚ)
  | (some ticker, some weight) =>
    if trim ticker = "" ∨ weight < 0 ∨ 100 < weight ∨
        1 / 10 ^ 6 < |weight * 10 ^ 6 - ⌊weight * 10 ^ 6 + 1 / 2⌋| then none
    else some (ticker, weight)
  | _ => none

theorem ticker_of_readEntry {entry : Option String × Option ℚ} {ticker : String} {weight : ℚ}
    (h : readEntry entry = some (ticker, weight)) : entry.1 = some ticker := by
  unfold readEntry at h
  split at h
  · split_ifs at h
    cases h
    rfl
  · cases h

theorem nodup_readEntry {entries : List (Option String × Option ℚ)}
    (hnodup : (entries.filterMap (·.1)).Nodup) :
    ((entries.filterMap readEntry).map (·.1)).Nodup :=
  hnodup.sublist (Core.map_filterMap_sublist (fun _ _ h => ticker_of_readEntry h) entries)

def readEntries (entries : List (Option String × Option ℚ))
    (nodup : (entries.filterMap (·.1)).Nodup) : Record ℚ where
  entries := entries.filterMap readEntry
  nodup := nodup_readEntry nodup

def sumsToHundred (weights : Record ℚ) : Prop :=
  |weights.values.sum - 100| ≤ 1 / 10 ^ 8

instance (weights : Record ℚ) : Decidable (sumsToHundred weights) :=
  inferInstanceAs (Decidable (_ ≤ _))

def checkAllocations : AllocationsArgument → Except Failure (Record ℚ)
  | .other =>
    .error (.badRequest "Allocations must be a map of asset symbols to percentages")
  | .map entries nodup =>
    if entries = [] ∨ ∃ entry ∈ entries, readEntry entry = none then
      .error (.badRequest ("Weights must be finite percentages from 0 to 100 " ++
        "with at most six decimal places"))
    else if sumsToHundred (readEntries entries nodup) then .ok (readEntries entries nodup)
    else .error (.badRequest "Target weights must sum to 100%")

def checkBaseVersion : Option Trading.Num → Except Failure (Option Nat)
  | none => .ok none
  | some (.finite v) =>
    if v.den = 1 ∧ 0 ≤ v then .ok (some v.num.toNat)
    else .error (.badRequest "baseVersion must be a non-negative integer")
  | some .nonFinite => .error (.badRequest "baseVersion must be a non-negative integer")

/-! ## The transaction -/

/-- The calls of the transaction's entity manager, and its commit. -/
inductive AllocationOp where
  | findPortfolio (id : String)
  | findLatestVersion (portfolioId : String)
  | findVersion (portfolioId : String) (version : Nat)
  | findAssets (portfolioId : String)
  | saveVersion (version : TargetAllocationVersion)
  | updatePortfolio (id : String) (targetAllocation : Record ℚ)
  | commit

def AllocationOp.Res : AllocationOp → Type
  | .findPortfolio _ => Option PortfolioRow
  | .findLatestVersion _ | .findVersion _ _ => Option TargetAllocationVersion
  | .findAssets _ => List PortfolioAsset
  | .saveVersion _ | .updatePortfolio _ _ | .commit => Unit

abbrev allocationInterface : Interface :=
  ⟨AllocationOp, AllocationOp.Res⟩

abbrev AllocationProgram (α : Type) : Type :=
  Async allocationInterface Failure α

abbrev askAllocation (op : allocationInterface.Op) : AllocationProgram (allocationInterface.Res op) :=
  .call op

structure TargetAllocationWriteResult where
  version : Nat
  allocations : Record ℚ
  merged : Bool

def versionOf (previous : Option TargetAllocationVersion) : Nat :=
  (previous.map (·.version)).getD 0

/-- An edit that was made against another version than the latest; `none` when nothing is left
to store. -/
def mergeOnto (base previous : Option TargetAllocationVersion) (weights : Record ℚ) :
    Except Failure (Option (Record ℚ)) :=
  let result := threeWayMerge (toWeights base) (toWeights previous) weights
  if result.conflicts ≠ [] then
    .error (.conflict ("Target allocations were changed concurrently; " ++
      "resolve the conflicting tickers and retry."))
  else if ¬ sumsToHundred result.merged then
    .error (.conflict "Merged target allocations no longer sum to 100%; refresh and retry.")
  else if result.changed then .ok (some result.merged)
  else .ok none

variable (portfolioId : String)

/-- The version an edit was made against; version 0 is the empty one. -/
def findBase (baseVersion : Nat) : AllocationProgram (Option TargetAllocationVersion) :=
  if baseVersion = 0 then .done none
  else askAllocation (.findVersion portfolioId baseVersion)

theorem findBase_zero : findBase portfolioId 0 = .done none :=
  rfl

theorem findBase_of_ne_zero {baseVersion : Nat} (hne : baseVersion ≠ 0) :
    findBase portfolioId baseVersion = askAllocation (.findVersion portfolioId baseVersion) :=
  if_neg hne

def rebase (baseVersion : Nat) (previous : Option TargetAllocationVersion) (weights : Record ℚ) :
    AllocationProgram (Option (Record ℚ)) := do
  let base ← findBase portfolioId baseVersion
  if versionOf previous < baseVersion ∨ 0 < baseVersion ∧ base = none then
    .fail (.conflict "Unknown baseVersion; refresh and retry.")
  else Async.ofExcept (mergeOnto base previous weights)

def targetOf (assets : List PortfolioAsset) (entry : String × ℚ) :
    Except Failure TargetAllocation :=
  match assets.filter fun asset => asset.ticker = entry.1 with
  | [asset] => .ok { assetId := asset.id, ticker := entry.1, targetWeight := entry.2 }
  | _ => .error (.badRequest ("Unknown or ambiguous portfolio asset: " ++ entry.1))

def storeVersion (version : Nat) (weights : Record ℚ) (merged : Bool) :
    AllocationProgram TargetAllocationWriteResult := do
  let assets ← askAllocation (.findAssets portfolioId)
  let targets ← Async.ofExcept (weights.entries.mapM (targetOf assets))
  askAllocation
    (.saveVersion { portfolioId := portfolioId, version := version, allocations := targets })
  askAllocation (.updatePortfolio portfolioId weights)
  .done { version := version, allocations := weights, merged := merged }

def editLatest (weights : Record ℚ) (baseVersion : Option Nat)
    (previous : Option TargetAllocationVersion) : AllocationProgram TargetAllocationWriteResult :=
  let currentVersion := versionOf previous
  match baseVersion with
  | none => storeVersion portfolioId (currentVersion + 1) weights false
  | some base =>
    if base = currentVersion then storeVersion portfolioId (currentVersion + 1) weights false
    else do
      match ← rebase portfolioId base previous weights with
      | none =>
        .done
          { version := currentVersion, allocations := toWeights previous, merged := false }
      | some merged => storeVersion portfolioId (currentVersion + 1) merged true

def editAllocations (weights : Record ℚ) (baseVersion : Option Nat) :
    AllocationProgram TargetAllocationWriteResult := do
  match ← askAllocation (.findPortfolio portfolioId) with
  | none => .fail (.notFound "Portfolio not found")
  | some _ => do
      let previous ← askAllocation (.findLatestVersion portfolioId)
      let result ← editLatest portfolioId weights baseVersion previous
      askAllocation .commit
      .done result

/-! ## The tables -/

structure AllocationWorld where
  portfolios : List PortfolioRow := []
  assets : List PortfolioAsset := []
  versions : List TargetAllocationVersion := []

namespace AllocationWorld

def versionsOf (w : AllocationWorld) (portfolioId : String) : List TargetAllocationVersion :=
  w.versions.filter (·.portfolioId = portfolioId)

def latestVersion (w : AllocationWorld) (portfolioId : String) : Option TargetAllocationVersion :=
  (w.versionsOf portfolioId).argmax (·.version)

def findVersion (w : AllocationWorld) (portfolioId : String) (version : Nat) :
    Option TargetAllocationVersion :=
  (w.versionsOf portfolioId).find? (·.version = version)

def updatePortfolio (w : AllocationWorld) (id : String) (f : PortfolioRow → PortfolioRow) :
    AllocationWorld :=
  { w with portfolios := w.portfolios.map fun row => if row.id = id then f row else row }

/-- Perform one operation; rows with a `deletedAt` are not found, and no portfolio has a version
twice. -/
def serve : (op : AllocationOp) → AllocationWorld → Except Failure op.Res × AllocationWorld
  | .findPortfolio id, w =>
    (.ok (w.portfolios.find? fun row => row.id = id ∧ row.deletedAt = none), w)
  | .findLatestVersion portfolioId, w => (.ok (w.latestVersion portfolioId), w)
  | .findVersion portfolioId version, w => (.ok (w.findVersion portfolioId version), w)
  | .findAssets portfolioId, w =>
    (.ok (w.assets.filter fun asset =>
      asset.portfolioId = portfolioId ∧ asset.deletedAt = none), w)
  | .saveVersion row, w =>
    match w.findVersion row.portfolioId row.version with
    | some _ => (.error (.error "duplicate key value violates unique constraint"), w)
    | none => (.ok (), { w with versions := w.versions ++ [row] })
  | .updatePortfolio id targetAllocation, w =>
    (.ok (), w.updatePortfolio id fun row =>
      { row with targetAllocation := some targetAllocation })
  | .commit, w => (.ok (), w)

def perform (reject : AllocationOp → Option Failure) (op : AllocationOp) (w : AllocationWorld) :
    Except Failure op.Res × AllocationWorld :=
  match reject op with
  | some e => (.error e, w)
  | none => w.serve op

end AllocationWorld

/-! ## Calls -/

/-- The arguments of a call of `setTargetAllocations`, with the operations that fail. -/
structure AllocationCall where
  portfolioId : String
  allocations : AllocationsArgument
  baseVersion : Option Trading.Num
  reject : AllocationOp → Option Failure := fun _ => none

def setTargetAllocations (call : AllocationCall) (w : AllocationWorld) :
    Except Failure TargetAllocationWriteResult × AllocationWorld :=
  match checkAllocations call.allocations with
  | .error e => (.error e, w)
  | .ok weights =>
    match checkBaseVersion call.baseVersion with
    | .error e => (.error e, w)
    | .ok baseVersion =>
      Async.transact (AllocationWorld.perform call.reject)
        (editAllocations call.portfolioId weights baseVersion) w

/-- A call, or a change of the portfolios and assets by another service. -/
inductive AllocationStep where
  | call (call : AllocationCall)
  | setPortfolios (portfolios : List PortfolioRow)
  | setAssets (assets : List PortfolioAsset)

def AllocationStep.apply (w : AllocationWorld) : AllocationStep → AllocationWorld
  | .call edit => (setTargetAllocations edit w).2
  | .setPortfolios portfolios => { w with portfolios := portfolios }
  | .setAssets assets => { w with assets := assets }

def AllocationWorld.run (portfolios : List PortfolioRow) (assets : List PortfolioAsset)
    (steps : List AllocationStep) : AllocationWorld :=
  steps.foldl AllocationStep.apply { portfolios := portfolios, assets := assets }

end Trellis.Portfolio
