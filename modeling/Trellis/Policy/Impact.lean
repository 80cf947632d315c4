import Trellis.Policy.Normalization

/-!
# The impact of a policy change

The five evaluators of `policy/policy-simulation.rules.ts`: each reports the records of a
population snapshot a change affects, its side effects and the constraints on rolling it back.
-/

namespace Trellis.Policy

open Core

structure Impact where
  affectedRecords : List AffectedRecordPreview := []
  sideEffects : List ExpectedSideEffect := []
  rollbackConstraints : List RollbackConstraint := []

namespace Impact

instance : Append Impact where
  append a b :=
    { affectedRecords := a.affectedRecords ++ b.affectedRecords
      sideEffects := a.sideEffects ++ b.sideEffects
      rollbackConstraints := a.rollbackConstraints ++ b.rollbackConstraints }

/-- The side effect and the constraints of a count, if it is positive. -/
def ofCount (count : Int) (effect : Int → ExpectedSideEffect)
    (rollbackConstraints : List RollbackConstraint := []) : Impact :=
  if 0 < count then { sideEffects := [effect count], rollbackConstraints := rollbackConstraints }
  else {}

end Impact

/-- The last `n` code units of a text, up to a character that the cut would split. -/
def sliceLast (n : Nat) (s : String) : String :=
  String.ofList (takeUnits n s.toList.reverse).reverse

def maskIdentifier (value : String) : String :=
  if value = "" then "anonymous"
  else
    let trimmed := trim value
    if utf16Length trimmed ≤ 6 then "***"
    else if utf16Length trimmed ≤ 12 then sliceUnits 3 trimmed ++ "..." ++ sliceLast 2 trimmed
    else sliceUnits 4 trimmed ++ "..." ++ sliceLast 4 trimmed

section Evaluators

variable (rt : Runtime)

/-! ## Trading -/

def isTradeAllowedByPolicy (amount : Number) (asset side : String) (policy : TradingPolicy) :
    Bool :=
  policy.enabled && amount.isFinite && !amount.le (.ofInt 0) &&
    !policy.maxOrderAmount.lt amount && (policy.allowedAssets.all fun assets => asset ∈ assets) &&
    decide (side ∈ policy.allowedSides)

def rejectedTrade (current proposed : TradingPolicy) (trade : SimulatedPendingTradeRecord) :
    Option AffectedRecordPreview :=
  let asset := rt.toUpperCase (trim trade.asset)
  if isTradeAllowedByPolicy trade.amount asset trade.side current &&
      !isTradeAllowedByPolicy trade.amount asset trade.side proposed then
    some ⟨trade.tradeId, .pendingTrade, maskIdentifier trade.userId, .blocked, false⟩
  else none

def degradedPortfolio (assets : List String) (portfolio : SimulatedPortfolioRecord) :
    Option AffectedRecordPreview :=
  let disallowedTargets := portfolio.targetAllocations.entries.filter fun entry =>
    (Number.ofInt 0).lt entry.2 && rt.toUpperCase (trim entry.1) ∉ assets
  if disallowedTargets = [] then none
  else some ⟨portfolio.portfolioId, .portfolio, maskIdentifier portfolio.userId, .degraded, true⟩

def evaluateTradingPolicyImpact (current proposed : TradingPolicy)
    (snapshot : PolicySimulationSnapshot) : Impact :=
  let halted : Impact := if current.enabled && !proposed.enabled then
      { sideEffects := [⟨.tradingHaltedGlobally, .critical, .trading,
          snapshot.pendingTrades.length, false⟩] }
    else {}
  let rejected := snapshot.pendingTrades.filterMap (rejectedTrade rt current proposed)
  let rejectedSeverity :=
    if 2 ≤ rejected.length ∨ proposed.enabled = false then .high else .warning
  let degraded := match proposed.allowedAssets with
    | some assets =>
      if assets = [] then [] else snapshot.portfolios.filterMap (degradedPortfolio rt assets)
    | none => []
  halted ++ { affectedRecords := rejected } ++
    .ofCount rejected.length (⟨.pendingTradesRejected, rejectedSeverity, .trading, ·, false⟩)
      [⟨.rejectedTradesRequireResubmission, .partiallyReversible⟩] ++
    { affectedRecords := degraded } ++
    .ofCount degraded.length (⟨.portfolioAllocationsInvalidated, .warning, .portfolio, ·, true⟩)

/-! ## Adapters -/

/-- What a change of the adapter policy does to a position. -/
structure PositionImpact where
  adapterDisabled : Bool
  chainDisallowed : Bool
  healthBreached : Bool
  slippageBreached : Bool

/-- The conditions that `evaluateDeFiAdapterPolicyImpact` finds for a position. -/
def positionImpact (current proposed : DeFiAdapterPolicy) (pos : SimulatedDeFiPositionRecord) :
    PositionImpact :=
  let adapter := rt.toLowerCase (trim pos.adapterId)
  let chain := rt.toLowerCase (trim pos.chain)
  { adapterDisabled := adapter ∈ current.enabledAdapters ∧ adapter ∉ proposed.enabledAdapters
    chainDisallowed := chain ∈ current.allowedChains ∧ chain ∉ proposed.allowedChains
    healthBreached := current.minHealthFactor.le pos.healthFactor &&
      pos.healthFactor.lt proposed.minHealthFactor
    slippageBreached := pos.estimatedExitSlippageBps.le current.maxSlippageBps &&
      proposed.maxSlippageBps.lt pos.estimatedExitSlippageBps }

def PositionImpact.triggersUnwind (impact : PositionImpact) (proposed : DeFiAdapterPolicy) :
    Bool :=
  proposed.emergencyExitOnly || impact.adapterDisabled || impact.healthBreached

def PositionImpact.affects (impact : PositionImpact) (proposed : DeFiAdapterPolicy) : Bool :=
  impact.triggersUnwind proposed || impact.chainDisallowed || impact.slippageBreached

def affectedPosition (current proposed : DeFiAdapterPolicy) (pos : SimulatedDeFiPositionRecord) :
    AffectedRecordPreview :=
  let triggersUnwind := (positionImpact rt current proposed pos).triggersUnwind proposed
  ⟨pos.positionId, .defiPosition, maskIdentifier pos.userId,
    if triggersUnwind then .forceUnwound else .blocked, !triggersUnwind⟩

def evaluateDeFiAdapterPolicyImpact (current proposed : DeFiAdapterPolicy)
    (snapshot : PolicySimulationSnapshot) : Impact :=
  let impact := positionImpact rt current proposed
  let affected := snapshot.defiPositions.filter fun pos => (impact pos).affects proposed
  let unwound := affected.filter fun pos => (impact pos).triggersUnwind proposed
  let stranded := affected.filter fun pos => !(impact pos).triggersUnwind proposed
  let breached := affected.filter fun pos => (impact pos).healthBreached
  { affectedRecords := affected.map (affectedPosition rt current proposed) } ++
    .ofCount unwound.length (⟨.defiEmergencyUnwindTriggered, .critical, .defi, ·, false⟩)
      [⟨.irreversibleOnchainDefiExit, .irreversible⟩] ++
    .ofCount stranded.length (⟨.defiAdapterPositionsStranded, .high, .defi, ·, true⟩) ++
    .ofCount breached.length (⟨.defiLiquidationThresholdTightened, .high, .defi, ·, false⟩)

/-! ## Rebalancing -/

def maxWeight (portfolio : SimulatedPortfolioRecord) : Number :=
  portfolio.targetAllocations.values.foldl Number.max (.ofInt 0)

/-- The portfolio is rebalanced automatically under the policy. -/
def triggersDrift (policy : PortfolioRebalancingPolicy) (portfolio : SimulatedPortfolioRecord) :
    Bool :=
  policy.autoRebalanceEnabled && portfolio.autoRebalanceOptIn &&
    policy.driftThresholdPct.le portfolio.currentDriftPct &&
    policy.minTradeSizeUsd.le (portfolio.pendingRebalanceTradeUsd.getD (.ofInt 0))

/-- The targets of the portfolio exceed the new weight limit only. -/
def weightViolated (current proposed : PortfolioRebalancingPolicy)
    (portfolio : SimulatedPortfolioRecord) : Bool :=
  (maxWeight portfolio).le current.maxSingleAssetWeightPct &&
    proposed.maxSingleAssetWeightPct.lt (maxWeight portfolio)

def newlyTriggered (current proposed : PortfolioRebalancingPolicy)
    (portfolio : SimulatedPortfolioRecord) : Bool :=
  !triggersDrift current portfolio && triggersDrift proposed portfolio

def affectedPortfolio (current proposed : PortfolioRebalancingPolicy)
    (portfolio : SimulatedPortfolioRecord) : AffectedRecordPreview :=
  ⟨portfolio.portfolioId, .portfolio, maskIdentifier portfolio.userId,
    if weightViolated current proposed portfolio then .invalidated
    else if newlyTriggered current proposed portfolio then .requeued else .blocked,
    !triggersDrift proposed portfolio⟩

def evaluatePortfolioPolicyImpact (current proposed : PortfolioRebalancingPolicy)
    (snapshot : PolicySimulationSnapshot) : Impact :=
  let affected := snapshot.portfolios.filter fun portfolio =>
    weightViolated current proposed portfolio ||
      triggersDrift current portfolio != triggersDrift proposed portfolio
  let violated := affected.filter (weightViolated current proposed)
  let triggered := affected.filter (newlyTriggered current proposed)
  let suppressed := affected.filter (newlyTriggered proposed current)
  { affectedRecords := affected.map (affectedPortfolio current proposed) } ++
    .ofCount violated.length (⟨.portfolioAllocationsInvalidated, .high, .portfolio, ·, true⟩)
      [⟨.portfolioTargetsRequireVersionRestore, .partiallyReversible⟩] ++
    .ofCount triggered.length (⟨.autoRebalanceWaveTriggered, .warning, .portfolio, ·, false⟩)
      [⟨.inFlightQueueDrainRequired, .partiallyReversible⟩] ++
    .ofCount suppressed.length (⟨.autoRebalanceSuppressed, .info, .portfolio, ·, true⟩)

/-! ## Access -/

structure UserImpact where
  roleNewlyDisallowed : Bool
  kycInsufficient : Bool
  ttlExpired : Bool
  unverifiedRevoked : Bool
  mfaNewlyRequired : Bool

/-- The conditions that `evaluateAuthAccessPolicyImpact` finds for a user. -/
def userImpact (current proposed : AuthAccessPolicy) (user : SimulatedUserRecord) : UserImpact :=
  let role := rt.toUpperCase (trim user.role)
  { roleNewlyDisallowed := role ∉ current.disallowedRoles ∧ role ∈ proposed.disallowedRoles
    kycInsufficient := current.minKycTier.le user.kycTier && user.kycTier.lt proposed.minKycTier
    ttlExpired := user.sessionAgeMinutes.le current.sessionTtlMinutes &&
      proposed.sessionTtlMinutes.lt user.sessionAgeMinutes
    unverifiedRevoked := !current.revokeUnverifiedSessions && proposed.revokeUnverifiedSessions &&
      (!user.mfaEnabled || user.kycTier.lt proposed.minKycTier)
    mfaNewlyRequired := !current.requireMfaForSensitiveActions &&
      proposed.requireMfaForSensitiveActions && !user.mfaEnabled }

def UserImpact.sessionTerminated (impact : UserImpact) : Bool :=
  impact.roleNewlyDisallowed || impact.ttlExpired || impact.unverifiedRevoked

def UserImpact.affects (impact : UserImpact) : Bool :=
  impact.sessionTerminated || impact.kycInsufficient || impact.mfaNewlyRequired

def affectedUser (current proposed : AuthAccessPolicy) (user : SimulatedUserRecord) :
    AffectedRecordPreview :=
  let terminated := (userImpact rt current proposed user).sessionTerminated
  ⟨"sess:" ++ maskIdentifier user.userId, .userSession, maskIdentifier user.userId,
    if terminated then .invalidated else .blocked, !terminated⟩

def evaluateAuthAccessPolicyImpact (current proposed : AuthAccessPolicy)
    (snapshot : PolicySimulationSnapshot) : Impact :=
  let impact := userImpact rt current proposed
  let affected := snapshot.users.filter fun user => (impact user).affects
  let terminated := affected.filter fun user =>
    (impact user).sessionTerminated && decide (0 < user.activeSessionCount)
  let stepUp := affected.filter fun user => (impact user).mfaNewlyRequired
  let restricted := affected.filter fun user => (impact user).roleNewlyDisallowed
  { affectedRecords := affected.map (affectedUser rt current proposed) } ++
    .ofCount (terminated.map (·.activeSessionCount)).sum
      (⟨.activeSessionsRevoked, .critical, .auth, ·, false⟩)
      [⟨.irreversibleSessionRevocation, .irreversible⟩] ++
    .ofCount stepUp.length (⟨.mfaStepUpEnforced, .warning, .auth, ·, true⟩) ++
    .ofCount restricted.length (⟨.privilegedRolesRestricted, .high, .auth, ·, false⟩)

/-! ## Notifications -/

variable (current proposed : NotificationRoutingPolicy)
  (pref : SimulatedNotificationPreferenceRecord)

def channelsForced : Bool :=
  proposed.mandatorySecurityChannels.any fun ch =>
    ch ∉ pref.enabledChannels ∧ ch ∉ current.mandatorySecurityChannels

/-- Marketing becomes suppressed for a user who had opted in. -/
def marketingSuppressed : Bool :=
  !current.suppressMarketingChannels && proposed.suppressMarketingChannels && pref.marketingOptIn

def digestChanged : Bool :=
  !current.digestWindowMinutes.same proposed.digestWindowMinutes &&
    decide (0 < pref.pendingDigestCount)

def affectedPreference : AffectedRecordPreview :=
  ⟨pref.preferenceId, .notificationPreference, maskIdentifier pref.userId,
    if channelsForced current proposed pref || marketingSuppressed current proposed pref then
      .overridden else .requeued, true⟩

/-- `evaluateNotificationPolicyImpact`; a preference with forced channels and suppressed marketing
is counted twice. -/
def evaluateNotificationPolicyImpact (snapshot : PolicySimulationSnapshot) : Impact :=
  let affected := snapshot.notificationPreferences.filter fun pref =>
    channelsForced current proposed pref || marketingSuppressed current proposed pref ||
      digestChanged current proposed pref
  let forced := affected.filter (channelsForced current proposed)
  let suppressed := affected.filter (marketingSuppressed current proposed)
  let rebatched := affected.filter (digestChanged current proposed)
  { affectedRecords := affected.map (affectedPreference current proposed) } ++
    .ofCount (forced.length + suppressed.length)
      (⟨.notificationPreferencesOverridden, .warning, .notifications, ·, true⟩)
      [⟨.notificationOverridesRequireSnapshotRestore, .partiallyReversible⟩] ++
    .ofCount (rebatched.map (·.pendingDigestCount)).sum
      (⟨.notificationDigestRebatched, .info, .notifications, ·, true⟩)

def evaluateImpact {d : PolicyDomain} (current proposed : DomainPolicy d)
    (snapshot : PolicySimulationSnapshot) : Impact :=
  match d, current, proposed with
  | .trading, current, proposed => evaluateTradingPolicyImpact rt current proposed snapshot
  | .defiAdapters, current, proposed =>
    evaluateDeFiAdapterPolicyImpact rt current proposed snapshot
  | .portfolioRebalancing, current, proposed =>
    evaluatePortfolioPolicyImpact current proposed snapshot
  | .authAccess, current, proposed => evaluateAuthAccessPolicyImpact rt current proposed snapshot
  | .notificationRouting, current, proposed =>
    evaluateNotificationPolicyImpact current proposed snapshot

end Evaluators

end Trellis.Policy
