import Trellis.Policy.Types

/-!
# Effective policies

`resolveEffectivePolicies` of `policy/policy-simulation.rules.ts` lays a request over the current
policy and that over the defaults, and brings the fields into their types;
`validateProposedPolicy` checks the result.
-/

namespace Trellis.Policy

open Core Option List Number

/-- What the runtime provides: SHA-256 in hexadecimal, the digest of the report on a change from one
policy to another for a snapshot, a time and an age limit, the conversions `Number` and `String`,
the case mappings, dates and the collation of `localeCompare`. -/
structure Runtime where
  sha256 : String → String
  reportDigest : (d : PolicyDomain) → DomainPolicy d → DomainPolicy d → PolicySimulationSnapshot →
    String → Number → String
  number : Value → Number
  string : Value → String
  toUpperCase : String → String
  toLowerCase : String → String
  parseDate : String → Option Int
  toIso : Int → String
  localeLe : String → String → Bool
  number_num : ∀ n, number (.num n) = n
  string_str : ∀ s, string (.str s) = s
  upper_upper : ∀ s, toUpperCase (trim (toUpperCase (trim s))) = toUpperCase (trim s)
  lower_lower : ∀ s, toLowerCase (trim (toLowerCase (trim s))) = toLowerCase (trim s)

/-! ## Defaults -/

def defaultTradingPolicy : TradingPolicy where
  enabled := true
  maxOrderAmount := .ofInt 100000
  allowedAssets := none
  allowedSides := ["buy", "sell"]

def defaultDefiAdapterPolicy : DeFiAdapterPolicy where
  enabledAdapters := ["aave", "compound"]
  allowedChains := ["stellar", "ethereum", "polygon"]
  maxSlippageBps := .ofInt 100
  minHealthFactor := .finite ⟨false, 125, -2⟩
  emergencyExitOnly := false

def defaultPortfolioRebalancingPolicy : PortfolioRebalancingPolicy where
  autoRebalanceEnabled := true
  minTradeSizeUsd := .ofInt 10
  maxSingleAssetWeightPct := .ofInt 75
  driftThresholdPct := .ofInt 5

def defaultAuthAccessPolicy : AuthAccessPolicy where
  requireMfaForSensitiveActions := false
  minKycTier := .ofInt 1
  sessionTtlMinutes := .ofInt 60
  revokeUnverifiedSessions := false
  disallowedRoles := []

def defaultNotificationRoutingPolicy : NotificationRoutingPolicy where
  mandatorySecurityChannels := ["email", "in_app"]
  digestWindowMinutes := .ofInt 15
  suppressMarketingChannels := false
  maxDeliveryRetries := .ofInt 3

def defaultDomainPolicies : (d : PolicyDomain) → DomainPolicy d
  | .trading => defaultTradingPolicy
  | .defiAdapters => defaultDefiAdapterPolicy
  | .portfolioRebalancing => defaultPortfolioRebalancingPolicy
  | .authAccess => defaultAuthAccessPolicy
  | .notificationRouting => defaultNotificationRoutingPolicy

/-! ## Normalization -/

def RawPolicy.read (raw : RawPolicy) (name : String) : Value :=
  (raw.get name).getD .undefined

section Normalize

variable (rt : Runtime)

/-- The items of an array as trimmed texts in one case, without the empty ones. -/
def foldedTexts (fold : String → String) (v : Value) : Option (List String) :=
  match v with
  | .arr items => some ((items.map fun item => fold (trim (rt.string item))).filter (· ≠ ""))
  | _ => none

variable (d : PolicyDomain) (raw : RawPolicy)

def normalizeTrading : TradingPolicy where
  enabled := (raw.read "enabled").isTruthy
  maxOrderAmount := rt.number (raw.read "maxOrderAmount")
  allowedAssets := (foldedTexts rt rt.toUpperCase (raw.read "allowedAssets")).filter (· ≠ [])
  allowedSides := (foldedTexts rt rt.toLowerCase (raw.read "allowedSides")).getD []

def normalizeDefiAdapters : DeFiAdapterPolicy where
  enabledAdapters := (foldedTexts rt rt.toLowerCase (raw.read "enabledAdapters")).getD []
  allowedChains := (foldedTexts rt rt.toLowerCase (raw.read "allowedChains")).getD []
  maxSlippageBps := rt.number (raw.read "maxSlippageBps")
  minHealthFactor := rt.number (raw.read "minHealthFactor")
  emergencyExitOnly := (raw.read "emergencyExitOnly").isTruthy

def normalizePortfolioRebalancing : PortfolioRebalancingPolicy where
  autoRebalanceEnabled := (raw.read "autoRebalanceEnabled").isTruthy
  minTradeSizeUsd := rt.number (raw.read "minTradeSizeUsd")
  maxSingleAssetWeightPct := rt.number (raw.read "maxSingleAssetWeightPct")
  driftThresholdPct := rt.number (raw.read "driftThresholdPct")

def normalizeAuthAccess : AuthAccessPolicy where
  requireMfaForSensitiveActions := (raw.read "requireMfaForSensitiveActions").isTruthy
  minKycTier := rt.number (raw.read "minKycTier")
  sessionTtlMinutes := rt.number (raw.read "sessionTtlMinutes")
  revokeUnverifiedSessions := (raw.read "revokeUnverifiedSessions").isTruthy
  disallowedRoles := (foldedTexts rt rt.toUpperCase (raw.read "disallowedRoles")).getD []

def normalizeNotificationRouting : NotificationRoutingPolicy where
  mandatorySecurityChannels :=
    (foldedTexts rt rt.toLowerCase (raw.read "mandatorySecurityChannels")).getD []
  digestWindowMinutes := rt.number (raw.read "digestWindowMinutes")
  suppressMarketingChannels := (raw.read "suppressMarketingChannels").isTruthy
  maxDeliveryRetries := rt.number (raw.read "maxDeliveryRetries")

def normalizeForDomain : DomainPolicy d :=
  match d with
  | .trading => normalizeTrading rt raw
  | .defiAdapters => normalizeDefiAdapters rt raw
  | .portfolioRebalancing => normalizePortfolioRebalancing rt raw
  | .authAccess => normalizeAuthAccess rt raw
  | .notificationRouting => normalizeNotificationRouting rt raw

def rawCurrent (currentInput : Option RawPolicy) : RawPolicy :=
  (defaultDomainPolicies d).raw.spread (currentInput.getD .empty)

def rawProposed (currentInput proposedInput : Option RawPolicy) : RawPolicy :=
  (rawCurrent d currentInput).spread (proposedInput.getD .empty)

/-- `resolveEffectivePolicies`: the current and the effective proposed policy. -/
def resolveEffectivePolicies (currentInput proposedInput : Option RawPolicy) :
    DomainPolicy d × DomainPolicy d :=
  (normalizeForDomain rt d (rawCurrent d currentInput),
    normalizeForDomain rt d (rawProposed d currentInput proposedInput))

/-- A policy object normalized as `resolveEffectivePolicies` does it. -/
def effective : DomainPolicy d :=
  (resolveEffectivePolicies rt d (some raw) none).1

end Normalize

/-! ## Validation -/

def complain (ok : Bool) (error : String) : List String :=
  if ok then [] else [error]

def validateProposedPolicy {d : PolicyDomain} (p : DomainPolicy d) : List String :=
  match d, p with
  | .trading, (p : TradingPolicy) =>
    complain (p.maxOrderAmount.isFinite && !p.maxOrderAmount.le (.ofInt 0))
      "Trading policy maxOrderAmount must be a finite number > 0." ++ (if p.allowedSides = [] then
      [("Trading policy allowedSides must contain at least one side " ++ "('buy' or 'sell').")]
    else complain (p.allowedSides.all fun side => side = "buy" ∨ side = "sell")
      "Trading policy allowedSides may only contain 'buy' or 'sell'.")
  | .defiAdapters, (p : DeFiAdapterPolicy) =>
    complain (p.maxSlippageBps.isFinite && !p.maxSlippageBps.le (.ofInt 0) &&
        !(ofInt 5000).lt p.maxSlippageBps)
      "DeFi adapter policy maxSlippageBps must be between 1 and 5000 bps." ++
    complain (p.minHealthFactor.isFinite && !p.minHealthFactor.lt (.ofInt 1) &&
        !(ofInt 10).lt p.minHealthFactor)
      "DeFi adapter policy minHealthFactor must be between 1.0 and 10.0." ++
    complain (p.emergencyExitOnly || p.enabledAdapters ≠ [])
      ("DeFi adapter policy cannot disable all adapters unless emergencyExitOnly " ++ "is true.") ++
    complain (p.allowedChains ≠ [])
      "DeFi adapter policy allowedChains must include at least one chain."
  | .portfolioRebalancing, (p : PortfolioRebalancingPolicy) =>
    complain (p.minTradeSizeUsd.isFinite && !p.minTradeSizeUsd.lt (.ofInt 0))
      "Portfolio policy minTradeSizeUsd must be a non-negative number." ++
    complain (p.maxSingleAssetWeightPct.isFinite && !p.maxSingleAssetWeightPct.le (.ofInt 0) &&
        !(ofInt 100).lt p.maxSingleAssetWeightPct)
      "Portfolio policy maxSingleAssetWeightPct must be > 0 and <= 100." ++
    complain (p.driftThresholdPct.isFinite && !p.driftThresholdPct.le (.ofInt 0) &&
        !(ofInt 50).lt p.driftThresholdPct)
      "Portfolio policy driftThresholdPct must be between 0 (exclusive) and 50."
  | .authAccess, (p : AuthAccessPolicy) =>
    complain (p.minKycTier.isFinite && !p.minKycTier.lt (.ofInt 0) &&
        !(ofInt 3).lt p.minKycTier)
      "Auth policy minKycTier must be an integer between 0 and 3." ++
    complain (p.sessionTtlMinutes.isFinite && !p.sessionTtlMinutes.lt (.ofInt 5) &&
        !(ofInt 43200).lt p.sessionTtlMinutes)
      "Auth policy sessionTtlMinutes must be between 5 and 43200 minutes." ++
    complain ("ADMIN" ∉ p.disallowedRoles)
      ("Auth policy disallowedRoles cannot lock out the ADMIN role " ++ "(anti-lockout invariant).")
  | .notificationRouting, (p : NotificationRoutingPolicy) =>
    complain (p.mandatorySecurityChannels ≠ [])
      ("Notification policy mandatorySecurityChannels must retain at least one channel " ++
        "for critical alerts.") ++
    complain (p.digestWindowMinutes.isFinite && !p.digestWindowMinutes.lt (.ofInt 1) &&
        !(ofInt 1440).lt p.digestWindowMinutes)
      "Notification policy digestWindowMinutes must be between 1 and 1440 minutes." ++
    complain (p.maxDeliveryRetries.isFinite && !p.maxDeliveryRetries.lt (.ofInt 0) &&
        !(ofInt 20).lt p.maxDeliveryRetries)
      "Notification policy maxDeliveryRetries must be between 0 and 20."

theorem validate_default (d : PolicyDomain) :
    validateProposedPolicy (defaultDomainPolicies d) = [] := by
  cases d <;> decide

/-! ## Normalizing twice -/

section Idempotent

variable {rt : Runtime} {fold : String → String}

def Folded (fold : String → String) (texts : List String) : Prop :=
  ∀ text ∈ texts, fold (trim text) = text ∧ text ≠ ""

variable (hfold : ∀ s, fold (trim (fold (trim s))) = fold (trim s))
include hfold

theorem folded_of_foldedTexts {v : Value}
    {texts : List String} (h : foldedTexts rt fold v = some texts) : Folded fold texts := by
  unfold foldedTexts at h
  split at h
  · cases h
    intro text hmem
    obtain ⟨hmem, hne⟩ := mem_filter.mp hmem
    obtain ⟨item, -, rfl⟩ := mem_map.mp hmem
    exact ⟨hfold _, by simpa using hne⟩
  · cases h

theorem folded_getD (v : Value) : Folded fold ((foldedTexts rt fold v).getD []) := by
  cases h : foldedTexts rt fold v with
  | none => exact fun text hmem => absurd hmem not_mem_nil
  | some texts => exact folded_of_foldedTexts hfold h

omit hfold

theorem foldedTexts_textsValue {texts : List String} (h : Folded fold texts) :
    foldedTexts rt fold (textsValue texts) = some texts := by
  have hmap : (texts.map Value.str).map (fun item => fold (trim (rt.string item))) = texts := by
    rw [List.map_map]
    refine (map_congr_left fun text hmem => ?_).trans (map_id texts)
    rw [Function.comp_apply, rt.string_str, (h text hmem).1, id_eq]
  have hfilter : texts.filter (· ≠ "") = texts :=
    filter_eq_self.mpr fun text hmem => by simpa using (h text hmem).2
  rw [textsValue, foldedTexts, hmap, hfilter]

variable {d : PolicyDomain}

theorem normalize_congr {raw raw' : RawPolicy} (p : DomainPolicy d)
    (h : ∀ name ∈ p.raw.keys, raw.read name = raw'.read name) :
    normalizeForDomain rt d raw = normalizeForDomain rt d raw' := by
  cases d <;> simp only [Record.keys, DomainPolicy.raw, DomainPolicy.members, map_cons,
    map_nil, forall_mem_cons, not_mem_nil, IsEmpty.forall_iff, implies_true,
    and_true] at h
  · change normalizeTrading rt raw = normalizeTrading rt raw'
    simp only [normalizeTrading, h]
  · change normalizeDefiAdapters rt raw = normalizeDefiAdapters rt raw'
    simp only [normalizeDefiAdapters, h]
  · change normalizePortfolioRebalancing rt raw = normalizePortfolioRebalancing rt raw'
    simp only [normalizePortfolioRebalancing, h]
  · change normalizeAuthAccess rt raw = normalizeAuthAccess rt raw'
    simp only [normalizeAuthAccess, h]
  · change normalizeNotificationRouting rt raw = normalizeNotificationRouting rt raw'
    simp only [normalizeNotificationRouting, h]

theorem normalize_spread (raw : RawPolicy) (p : DomainPolicy d) :
    normalizeForDomain rt d (raw.spread p.raw) = normalizeForDomain rt d p.raw := by
  refine normalize_congr p fun name hmem => ?_
  obtain ⟨value, hvalue⟩ := isSome_iff_exists.mp (Record.mem_keys_iff.mp hmem)
  rw [RawPolicy.read, RawPolicy.read, Record.get_spread, hvalue]
  rfl

theorem foldedTexts_assets (v : Value) :
    (foldedTexts rt rt.toUpperCase ((((foldedTexts rt rt.toUpperCase v).filter (· ≠ [])).map
      textsValue).getD .undefined)).filter (· ≠ []) =
        (foldedTexts rt rt.toUpperCase v).filter (· ≠ []) := by
  cases h : (foldedTexts rt rt.toUpperCase v).filter (· ≠ []) with
  | none => rfl
  | some assets =>
    obtain ⟨hassets, hne⟩ := filter_eq_some_iff.mp h
    rw [map_some, getD_some, foldedTexts_textsValue (folded_of_foldedTexts rt.upper_upper hassets)]
    exact filter_eq_some_iff.mpr ⟨rfl, hne⟩

/-- A normalized policy stays as it is when it is normalized again. -/
theorem normalize_normalize (d : PolicyDomain) (raw : RawPolicy) :
    normalizeForDomain rt d (normalizeForDomain rt d raw).raw = normalizeForDomain rt d raw := by
  have hupper : ∀ v, foldedTexts rt rt.toUpperCase
      (textsValue ((foldedTexts rt rt.toUpperCase v).getD [])) =
        some ((foldedTexts rt rt.toUpperCase v).getD []) :=
    fun v => foldedTexts_textsValue (folded_getD rt.upper_upper v)
  have hlower : ∀ v, foldedTexts rt rt.toLowerCase
      (textsValue ((foldedTexts rt rt.toLowerCase v).getD [])) =
        some ((foldedTexts rt rt.toLowerCase v).getD []) :=
    fun v => foldedTexts_textsValue (folded_getD rt.lower_lower v)
  cases d with
  | trading =>
    refine TradingPolicy.ext rfl (rt.number_num _) (foldedTexts_assets _) ?_
    exact congrArg (getD · []) (hlower _)
  | defiAdapters =>
    exact DeFiAdapterPolicy.ext (congrArg (getD · []) (hlower _))
      (congrArg (getD · []) (hlower _)) (rt.number_num _) (rt.number_num _) rfl
  | portfolioRebalancing =>
    exact PortfolioRebalancingPolicy.ext rfl (rt.number_num _) (rt.number_num _) (rt.number_num _)
  | authAccess =>
    exact AuthAccessPolicy.ext rfl (rt.number_num _) (rt.number_num _) rfl
      (congrArg (getD · []) (hupper _))
  | notificationRouting =>
    exact NotificationRoutingPolicy.ext (congrArg (getD · []) (hlower _))
      (rt.number_num _) rfl (rt.number_num _)

theorem resolve_effective (raw : RawPolicy) {p : DomainPolicy d}
    (hp : normalizeForDomain rt d p.raw = p) :
    resolveEffectivePolicies rt d (some raw) (some p.raw) = (effective rt d raw, p) :=
  Prod.ext rfl ((normalize_spread _ p).trans hp)

end Idempotent

end Trellis.Policy
