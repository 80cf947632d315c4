import Trellis.Policy.Impact

/-!
# Simulating a policy change

`simulatePolicyChange` of `policy/policy-simulation.rules.ts`: it resolves and checks the
policies, judges the age of the snapshot, evaluates the impact and derives how severe and how
reversible the change is and its commit token.
-/

namespace Trellis.Policy

open Core

/-! ## Canonical texts and digests -/

mutual

def canonicalizeChars : Value → List Char
  | .arr items => '[' :: (commaSeparated (canonicalizeItems items) ++ [']'])
  | .obj members =>
    '{' :: (commaSeparated ((sortMembers (canonicalizeMembers members)).map fun m =>
      memberText m.1 m.2) ++ ['}'])
  | v => (primitiveText v).getD "null".toList

def canonicalizeItems : List Value → List (List Char)
  | [] => []
  | v :: vs => canonicalizeChars v :: canonicalizeItems vs

def canonicalizeMembers : List (String × Value) → List (String × List Char)
  | [] => []
  | (_, .undefined) :: ms => canonicalizeMembers ms
  | (key, v) :: ms => (key, canonicalizeChars v) :: canonicalizeMembers ms

end

def canonicalizeValue (v : Value) : String :=
  String.ofList (canonicalizeChars v)

def sortTexts (texts : List String) : List String :=
  (sortMembers (texts.map fun text => (text, ()))).map (·.1)

section Simulation

variable (rt : Runtime)

def computeDigest (space : String) (payload : Value) : String :=
  rt.sha256 (space ++ ":" ++ canonicalizeValue payload)

def computeCommitToken {d : PolicyDomain} (currentPolicy effectiveProposedPolicy : DomainPolicy d)
    (snapshotVersion : String) : String :=
  let hash := computeDigest rt "policy-commit-token:v1" (.obj [("domain", .str d.text),
    ("currentPolicy", .obj currentPolicy.members),
    ("effectiveProposedPolicy", .obj effectiveProposedPolicy.members),
    ("snapshotVersion", .str snapshotVersion)])
  "pctk:" ++ d.text ++ ":" ++ slicePrefix 24 hash

/-! ## The age of the snapshot -/

/-- `computeAgeSeconds`, in milliseconds; no age is an infinite one. -/
def computeAge (asOf observedAt : String) : Option Nat :=
  match rt.parseDate asOf, rt.parseDate observedAt with
  | some nowMs, some obsMs => some (nowMs - obsMs).toNat
  | _, _ => none

def ageSeconds (asOf observedAt : String) : Number :=
  match computeAge rt asOf observedAt with
  | some ms => .finite ⟨false, ms, -3⟩
  | none => .infinite false

def isStale (snapshot : PolicySimulationSnapshot) (asOf : String) (maxSnapshotAgeSeconds : Number) :
    Bool :=
  maxSnapshotAgeSeconds.lt (ageSeconds rt asOf snapshot.observedAt)

/-- The completeness of the snapshot and what its age adds to the report. -/
def freshness (snapshot : PolicySimulationSnapshot) (asOf : String)
    (maxSnapshotAgeSeconds : Number) : SnapshotCompleteness × Impact :=
  if isStale rt snapshot asOf maxSnapshotAgeSeconds then
    (.staleSnapshot,
      { sideEffects := [⟨.staleSnapshotUncertainty, .high, .observability, 0, true⟩]
        rollbackConstraints := [⟨.staleSnapshotBlocksUnsafeCommit, .partiallyReversible⟩] })
  else if snapshot.isSampled then (.partialSample, {})
  else (.complete, {})

variable {snapshot : PolicySimulationSnapshot} {limit' limit : Number} {asOf' asOf : String}

/-- A snapshot that is not stale is judged alike at any time and under any limit. -/
theorem freshness_of_not_stale (h : isStale rt snapshot asOf limit = false)
    (h' : isStale rt snapshot asOf' limit' = false) :
    freshness rt snapshot asOf limit = freshness rt snapshot asOf' limit' := by
  simp only [freshness, h, h', Bool.false_eq_true, ↓reduceIte]

/-! ## The report -/

/-- The population that a sample stands for, if it is scaled to it. -/
def sampledPopulation (snapshot : PolicySimulationSnapshot) : Option Nat :=
  if snapshot.isSampled ∧ snapshot.users ≠ [] then snapshot.totalPopulationUsers.filter (· ≠ 0)
  else none

/-- The number of affected users, scaled to the whole population where the users are a sample. -/
def estimateAffected (snapshot : PolicySimulationSnapshot) (affectedUsers : Nat) : Nat :=
  match sampledPopulation snapshot with
  | some total =>
    (2 * affectedUsers * total + snapshot.users.length) / (2 * snapshot.users.length)
  | none => affectedUsers

def extrapolation (snapshot : PolicySimulationSnapshot) (affectedUsers : Nat) :
    List ExpectedSideEffect :=
  if (sampledPopulation snapshot).isSome then
    [⟨.partialSampleExtrapolation, .info, .observability,
      estimateAffected snapshot affectedUsers, true⟩]
  else []

def deriveReversibility (affectedRecords : List AffectedRecordPreview)
    (sideEffects : List ExpectedSideEffect) (rollbackConstraints : List RollbackConstraint) :
    PolicyReversibility :=
  if (rollbackConstraints.any fun c => c.reversibility = .irreversible) ||
      sideEffects.any fun s => !s.reversible && decide (s.severity = .critical) then .irreversible
  else if (rollbackConstraints.any fun c => c.reversibility = .partiallyReversible) ||
      (affectedRecords.any fun r => !r.reversible) || sideEffects.any fun s => !s.reversible then
    .partiallyReversible
  else .fullyReversible

def deriveImpactSeverity (validationErrors : List String) (summary : AffectedPopulationSummary)
    (sideEffects : List ExpectedSideEffect) (reversibility : PolicyReversibility) :
    PolicyImpactSeverity :=
  if validationErrors ≠ [] ∨ reversibility = .irreversible ∨
      sideEffects.any (fun s => s.severity = .critical) then .critical
  else if sideEffects.any (fun s => s.severity = .high) ∨ 3 ≤ summary.affectedRecords.length ∨
      reversibility = .partiallyReversible then .high
  else if sideEffects.any (fun s => s.severity = .warning) ∨ 0 < summary.affectedRecords.length then
    .medium
  else .low

def deriveSimulationStatus (validationErrors : List String) (completeness : SnapshotCompleteness)
    (impactSeverity : PolicyImpactSeverity) (reversibility : PolicyReversibility)
    (summary : AffectedPopulationSummary) : PolicySimulationStatus :=
  if validationErrors ≠ [] then .blockedInvalidPolicy
  else if reversibility = .irreversible ∨ impactSeverity = .critical ∨ impactSeverity = .high ∨
      completeness = .staleSnapshot then .highImpactReviewRequired
  else if reversibility = .partiallyReversible ∨ impactSeverity = .medium ∨
      0 < summary.affectedRecords.length ∨ completeness = .partialSample then .cautionRequired
  else .safeToApply

/-- The part of `simulatePolicyChange` after the impact analysis. -/
def assess (snapshot : PolicySimulationSnapshot) (validationErrors : List String)
    (completeness : SnapshotCompleteness) (impact : Impact) : Assessment :=
  let rollbackConstraints := if impact.rollbackConstraints = [] then
      [⟨.configRevertFullySupported, .fullyReversible⟩]
    else impact.rollbackConstraints
  let affectedRecords := impact.affectedRecords.insertionSort fun a b =>
    rt.localeLe a.recordId b.recordId = true
  let affectedUserIds := sortTexts (affectedRecords.map (·.ownerId)).eraseDups
  let summary : AffectedPopulationSummary :=
    { affectedUserIds, affectedRecords, completeness,
      estimatedTotalAffectedUsers := estimateAffected snapshot affectedUserIds.length }
  let sideEffects := impact.sideEffects ++ extrapolation snapshot affectedUserIds.length
  let reversibility := deriveReversibility affectedRecords sideEffects rollbackConstraints
  let impactSeverity := deriveImpactSeverity validationErrors summary sideEffects reversibility
  { affectedSummary := summary
    expectedSideEffects := sideEffects
    rollbackConstraints := rollbackConstraints
    reversibility := reversibility
    impactSeverity := impactSeverity
    status := deriveSimulationStatus validationErrors completeness impactSeverity reversibility
      summary }

def Assessment.requiresCommitToken (a : Assessment) : Bool :=
  a.status = .highImpactReviewRequired ∨ a.reversibility ≠ .fullyReversible ∨
    a.impactSeverity = .high ∨ a.impactSeverity = .critical

/-! ## `simulatePolicyChange` -/

def assessChange {d : PolicyDomain} (current proposed : DomainPolicy d)
    (snapshot : PolicySimulationSnapshot) (asOf : String) (maxSnapshotAgeSeconds : Number) :
    Assessment :=
  let fresh := freshness rt snapshot asOf maxSnapshotAgeSeconds
  assess rt snapshot (validateProposedPolicy proposed) fresh.1
    (fresh.2 ++ evaluateImpact rt current proposed snapshot)

variable {d : PolicyDomain} (current proposed : DomainPolicy d)

theorem assessChange_of_not_stale
    (h : isStale rt snapshot asOf limit = false) (h' : isStale rt snapshot asOf' limit' = false) :
    assessChange rt current proposed snapshot asOf limit =
      assessChange rt current proposed snapshot asOf' limit' := by
  unfold assessChange
  rw [freshness_of_not_stale rt h h']

theorem completeness_eq_stale_iff
    (snapshot : PolicySimulationSnapshot) (asOf : String) (limit : Number) :
    (assessChange rt current proposed snapshot asOf limit).affectedSummary.completeness =
      .staleSnapshot ↔ isStale rt snapshot asOf limit = true := by
  change (freshness rt snapshot asOf limit).1 = _ ↔ _
  unfold freshness
  split_ifs with hstale hsampled <;> simp [hstale]

def defaultMaxSnapshotAgeSeconds : Number :=
  .ofInt 300

/-- `PolicySimulationInput`, with the snapshot and the time that the service always gives. -/
structure PolicySimulationInput where
  currentPolicy : Option RawPolicy
  proposedPolicy : Option RawPolicy
  snapshot : PolicySimulationSnapshot
  asOf : String
  maxSnapshotAgeSeconds : Option Number

def simulatePolicyChange (d : PolicyDomain) (input : PolicySimulationInput) :
    PolicySimulationPreviewResult d :=
  let policies := resolveEffectivePolicies rt d input.currentPolicy input.proposedPolicy
  let limit := input.maxSnapshotAgeSeconds.getD defaultMaxSnapshotAgeSeconds
  let assessment := assessChange rt policies.1 policies.2 input.snapshot input.asOf limit
  let digest := rt.reportDigest d policies.1 policies.2 input.snapshot input.asOf limit
  { assessment with
    simulationId := "psim:" ++ d.text ++ ":" ++ slicePrefix 16 digest,
    requiresCommitToken := assessment.requiresCommitToken,
    commitToken := computeCommitToken rt policies.1 policies.2 input.snapshot.version,
    currentPolicy := policies.1, effectiveProposedPolicy := policies.2,
    validationErrors := validateProposedPolicy policies.2, digest }

end Simulation

/-! ## The default population -/

def decimal (digits : Nat) (exponent : Int) : Number :=
  .finite ⟨false, digits, exponent⟩

def defaultSimulationSnapshot (asOf : String) : PolicySimulationSnapshot where
  version := "snap-default-v1"
  observedAt := asOf
  isSampled := false
  totalPopulationUsers := some 4
  users := [⟨"user-alpha-0001", "USER", true, .ofInt 2, 2, .ofInt 25⟩,
    ⟨"user-bravo-0002", "USER", false, .ofInt 1, 3, .ofInt 95⟩,
    ⟨"user-charlie-0003", "OPERATOR", false, .ofInt 1, 1, .ofInt 45⟩,
    ⟨"user-delta-0004", "MAINTAINER", true, .ofInt 3, 1, .ofInt 15⟩]
  pendingTrades := [⟨"trd-1001", "user-alpha-0001", "XLM", .ofInt 15000, "buy"⟩,
    ⟨"trd-1002", "user-bravo-0002", "BTC", .ofInt 65000, "buy"⟩,
    ⟨"trd-1003", "user-charlie-0003", "USDC", .ofInt 120000, "sell"⟩]
  portfolios := [
    ⟨"port-2001", "user-alpha-0001", .ofList [("XLM", .ofInt 50), ("USDC", .ofInt 50)],
      decimal 35 (-1), some (.ofInt 25), true⟩,
    ⟨"port-2002", "user-bravo-0002", .ofList [("BTC", .ofInt 70), ("USDC", .ofInt 30)],
      decimal 62 (-1), some (.ofInt 4500), true⟩, ⟨"port-2003", "user-charlie-0003",
      .ofList [("ETH", .ofInt 40), ("XLM", .ofInt 35), ("USDC", .ofInt 25)],
      decimal 42 (-1), some (.ofInt 8), true⟩]
  defiPositions := [
    ⟨"pos-3001", "user-alpha-0001", "aave", "ethereum", decimal 165 (-2), .ofInt 45⟩,
    ⟨"pos-3002", "user-bravo-0002", "compound", "polygon", decimal 132 (-2), .ofInt 140⟩]
  notificationPreferences := [
    ⟨"npref-4001", "user-alpha-0001", ["email", "in_app", "webhook"], false, 2⟩,
    ⟨"npref-4002", "user-bravo-0002", ["in_app"], true, 5⟩,
    ⟨"npref-4003", "user-charlie-0003", ["email"], true, 3⟩]

end Trellis.Policy
