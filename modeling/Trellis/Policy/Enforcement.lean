import Trellis.Policy.Service

/-!
# The trading preview and its enforcement

`policy.service.ts` reads the trading policy from the configuration, every item of a list in upper
case. `evaluateTrade` compares the side of a trade with these items as they are, and
`previewTradingPolicyChange` brings them into lower case first.
-/

namespace Trellis.Policy

open Core

/-! ## The configured policy -/

structure TradingEnv where
  enabled : Value := .undefined
  maxOrderAmount : Value := .undefined
  allowedAssets : Option String := none
  allowedSides : Option String := none

section Enforcement

variable (rt : Runtime)

def readList (value : Option String) : List String :=
  ((((value.getD "").toList.splitOn ',').map String.ofList).map fun item =>
    rt.toUpperCase (trim item)).filter (· ≠ "")

def configuredLimit : Value → Number
  | .num n => if n.isFinite && (Number.ofInt 0).lt n then n else defaultTradingPolicy.maxOrderAmount
  | _ => defaultTradingPolicy.maxOrderAmount

variable (env : TradingEnv)

/-- `getTradingPolicy`; whoever reads `enabled` takes it as a condition. -/
def getTradingPolicy : TradingPolicy where
  enabled := match env.enabled with
    | .undefined | .null => defaultTradingPolicy.enabled
    | value => value.isTruthy
  maxOrderAmount := configuredLimit env.maxOrderAmount
  allowedAssets := if readList rt env.allowedAssets = [] then none
    else some (readList rt env.allowedAssets)
  allowedSides := if readList rt env.allowedSides = [] then defaultTradingPolicy.allowedSides
    else readList rt env.allowedSides

/-! ## Enforcement -/

inductive PolicyViolationCode where
  | tradingDisabled | invalidTradeAmount | tradeAmountLimitExceeded | assetNotAllowed
  | tradeSideNotAllowed
deriving DecidableEq

inductive TradeField where
  | asset | amount | side

structure PolicyViolation where
  code : PolicyViolationCode
  field : TradeField
  message : String
  limit : Option Number := none
  allowedValues : Option (List String) := none

structure TradePolicyInput where
  asset : String
  amount : Number
  side : String

/-- `evaluateTrade`: the first check that fails; `none` is a decision that allows the trade. -/
def evaluateTrade (input : TradePolicyInput) : Option PolicyViolation :=
  let policy := getTradingPolicy rt env
  let asset := rt.toUpperCase (trim input.asset)
  if policy.enabled = false then
    some ⟨.tradingDisabled, .asset, "Trading is temporarily unavailable.", none, none⟩
  else if input.amount.isFinite = false ∨ input.amount.le (.ofInt 0) = true then
    some ⟨.invalidTradeAmount, .amount, "Trade amount must be greater than zero.", none, none⟩
  else if policy.maxOrderAmount.lt input.amount then
    some ⟨.tradeAmountLimitExceeded, .amount,
      "Trade amount exceeds the maximum allowed amount of " ++
      rt.string (.num policy.maxOrderAmount) ++ ".", some policy.maxOrderAmount, none⟩
  else if policy.allowedAssets.any (asset ∉ ·) then
    some ⟨.assetNotAllowed, .asset, "This asset is not available for trading.", none,
      policy.allowedAssets⟩
  else if input.side ∉ policy.allowedSides then
    some ⟨.tradeSideNotAllowed, .side, "This trade side is not available.", none,
      some policy.allowedSides⟩
  else none

/-! ## The preview -/

def previewTradingPolicyChange (proposedPolicy : RawPolicy)
    (snapshot : PolicySimulationSnapshot) (asOf : String) (maxSnapshotAgeSeconds : Option Number) :
    PolicySimulationPreviewResult .trading :=
  simulatePolicyChange rt .trading
    { currentPolicy := some (DomainPolicy.raw (d := .trading) (getTradingPolicy rt env)),
      proposedPolicy := some proposedPolicy, snapshot, asOf, maxSnapshotAgeSeconds }

def wasAllowed (preview : PolicySimulationPreviewResult .trading) (trade : TradePolicyInput) :
    Bool :=
  isTradeAllowedByPolicy trade.amount (rt.toUpperCase (trim trade.asset)) trade.side
    preview.currentPolicy

/-- The sides the preview compares with. -/
def loweredSides : List String :=
  ((getTradingPolicy rt env).allowedSides.map fun side => rt.toLowerCase (trim side)).filter
    (· ≠ "")

variable {rt}

theorem folded_readList (value : Option String) : Folded rt.toUpperCase (readList rt value) := by
  intro text hmem
  obtain ⟨hmem, hne⟩ := List.mem_filter.mp hmem
  obtain ⟨item, -, rfl⟩ := List.mem_map.mp hmem
  exact ⟨rt.upper_upper item, by simpa using hne⟩

theorem preview_current (proposedPolicy : RawPolicy)
    (snapshot : PolicySimulationSnapshot) (asOf : String) (limit : Option Number) :
    (previewTradingPolicyChange rt env proposedPolicy snapshot asOf limit).currentPolicy =
      ({ getTradingPolicy rt env with allowedSides := loweredSides rt env } : TradingPolicy) := by
  have hspread : normalizeForDomain rt .trading (rawCurrent .trading
      (some (DomainPolicy.raw (d := .trading) (getTradingPolicy rt env)))) =
      normalizeTrading rt (DomainPolicy.raw (d := .trading) (getTradingPolicy rt env)) :=
    normalize_spread (d := .trading) _ _
  refine hspread.trans (TradingPolicy.ext rfl (rt.number_num _) ?_ ?_)
  · change (foldedTexts rt rt.toUpperCase (((getTradingPolicy rt env).allowedAssets.map
      textsValue).getD .undefined)).filter (· ≠ []) = (getTradingPolicy rt env).allowedAssets
    by_cases hassets : readList rt env.allowedAssets = []
    · simp [getTradingPolicy, hassets, foldedTexts]
    · simp [getTradingPolicy, hassets, foldedTexts_textsValue (folded_readList _)]
  · change (foldedTexts rt rt.toLowerCase (textsValue _)).getD [] = _
    simp [foldedTexts, textsValue, loweredSides, rt.string_str, Function.comp_def]

theorem evaluateTrade_eq_none (trade : TradePolicyInput) :
    evaluateTrade rt env trade = none ↔ isTradeAllowedByPolicy trade.amount
      (rt.toUpperCase (trim trade.asset)) trade.side (getTradingPolicy rt env) = true := by
  have hassets : ∀ (assets : Option (List String)) (asset : String),
      assets.any (asset ∉ ·) = !assets.all (asset ∈ ·) := by
    intro assets asset
    cases assets <;> simp
  simp only [evaluateTrade, isTradeAllowedByPolicy, hassets, apply_ite (· = none)]
  simp
  tauto

theorem allowed_iff (policy : TradingPolicy) (sides : List String) (amount : Number)
    (asset side : String) :
    isTradeAllowedByPolicy amount asset side { policy with allowedSides := sides } = true ↔
      isTradeAllowedByPolicy amount asset side { policy with allowedSides := [side] } = true ∧
        side ∈ sides := by
  simp [isTradeAllowedByPolicy]

variable (rt) in
/-- Whether the preview, seen from the enforcement, may differ: everything but the side is
allowed. -/
def OnlySideOpen (trade : TradePolicyInput) : Prop :=
  isTradeAllowedByPolicy trade.amount (rt.toUpperCase (trim trade.asset)) trade.side
    { getTradingPolicy rt env with allowedSides := [trade.side] } = true

end Enforcement

/-! ### One configured side -/

def buyRuntime : Runtime :=
  { plainRuntime with
    toUpperCase := fun s => if s = "buy" then "BUY" else s
    toLowerCase := fun s => if s = "BUY" then "buy" else s
    upper_upper := fun s => by
      by_cases h : trim s = "buy"
      · rw [if_pos h]
        decide
      · rw [if_neg h, trim_trim, if_neg h]
    lower_lower := fun s => by
      by_cases h : trim s = "BUY"
      · rw [if_pos h]
        decide
      · rw [if_neg h, trim_trim, if_neg h] }

end Trellis.Policy
