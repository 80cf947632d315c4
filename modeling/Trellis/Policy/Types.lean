import Trellis.Core.Number
import Trellis.Core.Record

/-!
# Policies, population snapshots and previews

The types of `policy/policy-simulation.types.ts`: the policies of five domains, the population a
change is simulated against, and what a simulation reports, without the texts that a report only
shows.
-/

namespace Trellis.Policy

open Core

/-! ## Domains and their policies -/

inductive PolicyDomain where
  | trading | defiAdapters | portfolioRebalancing | authAccess | notificationRouting
deriving DecidableEq

def PolicyDomain.text : PolicyDomain → String
  | .trading => "trading"
  | .defiAdapters => "defi_adapters"
  | .portfolioRebalancing => "portfolio_rebalancing"
  | .authAccess => "auth_access"
  | .notificationRouting => "notification_routing"

/-- `TradingPolicy`; a side is kept as its text until it is validated. -/
@[ext]
structure TradingPolicy where
  enabled : Bool
  maxOrderAmount : Number
  allowedAssets : Option (List String)
  allowedSides : List String
deriving DecidableEq

@[ext]
structure DeFiAdapterPolicy where
  enabledAdapters : List String
  allowedChains : List String
  maxSlippageBps : Number
  minHealthFactor : Number
  emergencyExitOnly : Bool
deriving DecidableEq

@[ext]
structure PortfolioRebalancingPolicy where
  autoRebalanceEnabled : Bool
  minTradeSizeUsd : Number
  maxSingleAssetWeightPct : Number
  driftThresholdPct : Number
deriving DecidableEq

@[ext]
structure AuthAccessPolicy where
  requireMfaForSensitiveActions : Bool
  minKycTier : Number
  sessionTtlMinutes : Number
  revokeUnverifiedSessions : Bool
  disallowedRoles : List String
deriving DecidableEq

@[ext]
structure NotificationRoutingPolicy where
  mandatorySecurityChannels : List String
  digestWindowMinutes : Number
  suppressMarketingChannels : Bool
  maxDeliveryRetries : Number
deriving DecidableEq

def DomainPolicy : PolicyDomain → Type
  | .trading => TradingPolicy
  | .defiAdapters => DeFiAdapterPolicy
  | .portfolioRebalancing => PortfolioRebalancingPolicy
  | .authAccess => AuthAccessPolicy
  | .notificationRouting => NotificationRoutingPolicy

instance : (d : PolicyDomain) → DecidableEq (DomainPolicy d)
  | .trading => inferInstanceAs (DecidableEq TradingPolicy)
  | .defiAdapters => inferInstanceAs (DecidableEq DeFiAdapterPolicy)
  | .portfolioRebalancing => inferInstanceAs (DecidableEq PortfolioRebalancingPolicy)
  | .authAccess => inferInstanceAs (DecidableEq AuthAccessPolicy)
  | .notificationRouting => inferInstanceAs (DecidableEq NotificationRoutingPolicy)

/-- A policy as a request or the active configuration holds it: an object with any values. -/
abbrev RawPolicy := Record Value

def textsValue (texts : List String) : Value :=
  .arr (texts.map .str)

def DomainPolicy.members {d : PolicyDomain} (p : DomainPolicy d) : List (String × Value) :=
  match d, p with
  | .trading, (p : TradingPolicy) =>
    [("enabled", .bool p.enabled), ("maxOrderAmount", .num p.maxOrderAmount),
      ("allowedAssets", (p.allowedAssets.map textsValue).getD .undefined),
      ("allowedSides", textsValue p.allowedSides)]
  | .defiAdapters, (p : DeFiAdapterPolicy) =>
    [("enabledAdapters", textsValue p.enabledAdapters),
      ("allowedChains", textsValue p.allowedChains), ("maxSlippageBps", .num p.maxSlippageBps),
      ("minHealthFactor", .num p.minHealthFactor), ("emergencyExitOnly", .bool p.emergencyExitOnly)]
  | .portfolioRebalancing, (p : PortfolioRebalancingPolicy) =>
    [("autoRebalanceEnabled", .bool p.autoRebalanceEnabled),
      ("minTradeSizeUsd", .num p.minTradeSizeUsd),
      ("maxSingleAssetWeightPct", .num p.maxSingleAssetWeightPct),
      ("driftThresholdPct", .num p.driftThresholdPct)]
  | .authAccess, (p : AuthAccessPolicy) =>
    [("requireMfaForSensitiveActions", .bool p.requireMfaForSensitiveActions),
      ("minKycTier", .num p.minKycTier), ("sessionTtlMinutes", .num p.sessionTtlMinutes),
      ("revokeUnverifiedSessions", .bool p.revokeUnverifiedSessions),
      ("disallowedRoles", textsValue p.disallowedRoles)]
  | .notificationRouting, (p : NotificationRoutingPolicy) =>
    [("mandatorySecurityChannels", textsValue p.mandatorySecurityChannels),
      ("digestWindowMinutes", .num p.digestWindowMinutes),
      ("suppressMarketingChannels", .bool p.suppressMarketingChannels),
      ("maxDeliveryRetries", .num p.maxDeliveryRetries)]

theorem DomainPolicy.nodup_members {d : PolicyDomain} (p : DomainPolicy d) :
    (p.members.map (·.1)).Nodup := by
  cases d <;> simp [DomainPolicy.members]

def DomainPolicy.raw {d : PolicyDomain} (p : DomainPolicy d) : RawPolicy where
  entries := p.members
  nodup := p.nodup_members

/-! ## The population -/

structure SimulatedUserRecord where
  userId : String
  role : String
  mfaEnabled : Bool
  kycTier : Number
  activeSessionCount : Int
  sessionAgeMinutes : Number

structure SimulatedPendingTradeRecord where
  tradeId : String
  userId : String
  asset : String
  amount : Number
  side : String

structure SimulatedPortfolioRecord where
  portfolioId : String
  userId : String
  targetAllocations : Record Number
  currentDriftPct : Number
  pendingRebalanceTradeUsd : Option Number
  autoRebalanceOptIn : Bool

structure SimulatedDeFiPositionRecord where
  positionId : String
  userId : String
  adapterId : String
  chain : String
  healthFactor : Number
  estimatedExitSlippageBps : Number

structure SimulatedNotificationPreferenceRecord where
  preferenceId : String
  userId : String
  enabledChannels : List String
  marketingOptIn : Bool
  pendingDigestCount : Int

/-- `PolicySimulationSnapshot`; a list that is missing counts as empty. -/
structure PolicySimulationSnapshot where
  version : String
  observedAt : String
  isSampled : Bool := false
  totalPopulationUsers : Option Nat := none
  users : List SimulatedUserRecord := []
  pendingTrades : List SimulatedPendingTradeRecord := []
  portfolios : List SimulatedPortfolioRecord := []
  defiPositions : List SimulatedDeFiPositionRecord := []
  notificationPreferences : List SimulatedNotificationPreferenceRecord := []

/-! ## What a simulation reports -/

inductive PolicySimulationStatus where
  | safeToApply | cautionRequired | highImpactReviewRequired | blockedInvalidPolicy
deriving DecidableEq

inductive PolicyImpactSeverity where
  | low | medium | high | critical
deriving DecidableEq

inductive PolicyReversibility where
  | fullyReversible | partiallyReversible | irreversible
deriving DecidableEq

inductive SnapshotCompleteness where
  | complete | partialSample | staleSnapshot
deriving DecidableEq

inductive EffectSeverity where
  | info | warning | high | critical
deriving DecidableEq

inductive PolicySideEffectCode where
  | tradingHaltedGlobally | pendingTradesRejected | portfolioAllocationsInvalidated
  | autoRebalanceWaveTriggered | autoRebalanceSuppressed | defiAdapterPositionsStranded
  | defiEmergencyUnwindTriggered | defiLiquidationThresholdTightened | activeSessionsRevoked
  | mfaStepUpEnforced | privilegedRolesRestricted | notificationPreferencesOverridden
  | notificationDigestRebatched | staleSnapshotUncertainty | partialSampleExtrapolation

inductive Subsystem where
  | trading | portfolio | defi | auth | notifications | observability

structure ExpectedSideEffect where
  code : PolicySideEffectCode
  severity : EffectSeverity
  subsystem : Subsystem
  estimatedAffectedCount : Int
  reversible : Bool

inductive RollbackConstraintCode where
  | irreversibleOnchainDefiExit | irreversibleSessionRevocation
  | rejectedTradesRequireResubmission | portfolioTargetsRequireVersionRestore
  | notificationOverridesRequireSnapshotRestore | inFlightQueueDrainRequired
  | staleSnapshotBlocksUnsafeCommit | configRevertFullySupported

structure RollbackConstraint where
  code : RollbackConstraintCode
  reversibility : PolicyReversibility

inductive RecordImpactType where
  | blocked | invalidated | forceUnwound | requeued | overridden | degraded

inductive RecordType where
  | pendingTrade | portfolio | defiPosition | userSession | notificationPreference

structure AffectedRecordPreview where
  recordId : String
  recordType : RecordType
  ownerId : String
  impactType : RecordImpactType
  reversible : Bool

/-- `AffectedPopulationSummary`; the counts of users and records are the lengths of the lists. -/
structure AffectedPopulationSummary where
  affectedUserIds : List String
  affectedRecords : List AffectedRecordPreview
  completeness : SnapshotCompleteness
  estimatedTotalAffectedUsers : Nat

/-- What a simulation concludes from the impact of a change. -/
structure Assessment where
  affectedSummary : AffectedPopulationSummary
  expectedSideEffects : List ExpectedSideEffect
  rollbackConstraints : List RollbackConstraint
  reversibility : PolicyReversibility
  impactSeverity : PolicyImpactSeverity
  status : PolicySimulationStatus

structure PolicySimulationPreviewResult (d : PolicyDomain) extends Assessment where
  simulationId : String
  requiresCommitToken : Bool
  commitToken : String
  currentPolicy : DomainPolicy d
  effectiveProposedPolicy : DomainPolicy d
  validationErrors : List String
  digest : String

end Trellis.Policy
