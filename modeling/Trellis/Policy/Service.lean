import Trellis.Policy.Simulation

/-!
# Committing and rolling back policy changes

`policy/policy-simulation.service.ts` keeps the active policies and the history of commits in
memory. A commit previews the change, checks the preview and installs the proposed policy.
-/

namespace Trellis.Policy

open Core

/-! ## Requests, records and the state -/

structure CommitPolicyChangeDto where
  domain : PolicyDomain
  proposedPolicy : RawPolicy
  currentPolicy : Option RawPolicy := none
  snapshot : Option PolicySimulationSnapshot := none
  asOf : Option String := none
  maxSnapshotAgeSeconds : Option Number := none
  reason : String
  commitToken : Option String := none

structure PolicyCommitRecord where
  commitId : String
  domain : PolicyDomain
  actorId : String
  reason : String
  committedAt : String
  simulationId : String
  previewDigest : String
  previousPolicy : DomainPolicy domain
  appliedPolicy : DomainPolicy domain
  reversibility : PolicyReversibility
  impactSeverity : PolicyImpactSeverity
  rollbackAvailable : Bool
  rolledBackAt : Option String := none
  rolledBackBy : Option String := none
  rollbackReason : Option String := none
  rollbackConstraints : List RollbackConstraint

/-- The active policies, the commits by their ids and how many commits were made. -/
structure ServiceState where
  activePolicies : PolicyDomain → RawPolicy
  commitHistory : Record PolicyCommitRecord
  totalCommits : Nat

/-- Why a call is refused; a blocked commit reports its preview. -/
inductive PolicyFailure where
  | badRequest (message : String)
  | notFound (message : String)
  | validationFailed {d : PolicyDomain} (preview : PolicySimulationPreviewResult d)
  | snapshotStale {d : PolicyDomain} (preview : PolicySimulationPreviewResult d)
  | commitTokenRequired {d : PolicyDomain} (preview : PolicySimulationPreviewResult d)

def PolicyFailure.message : PolicyFailure → String
  | .badRequest message | .notFound message => message
  | .validationFailed _ => "Proposed policy failed safety and schema validation checks."
  | .snapshotStale _ => "Cannot commit policy change against a stale population snapshot. " ++
      "Re-run preview with a fresh snapshot."
  | .commitTokenRequired _ => "This policy change is high-impact or not fully reversible. " ++
      "Run POST /policy/simulations/preview first and supply the exact commitToken."

/-- The service: the runtime and the trading policy of the configuration, if there is one. -/
structure Service where
  runtime : Runtime
  tradingPolicy : Option RawPolicy

/-- What a call finds around it: the time, the snapshot that the population provider loads, if it
is there and does not fail, and the actor. -/
structure Context where
  now : Int
  population : Option PolicySimulationSnapshot
  actorId : String

namespace Service

variable (svc : Service)

def initial : ServiceState where
  activePolicies d := match d, svc.tradingPolicy with
    | .trading, some policy => policy
    | d, _ => (defaultDomainPolicies d).raw
  commitHistory := .empty
  totalCommits := 0

/-! ## `preview` -/

/-- The configuration that `getActivePolicy` reads again until trading has a commit. -/
def configured (d : PolicyDomain) (s : ServiceState) : Option RawPolicy :=
  if d = .trading ∧ ∀ c ∈ s.commitHistory.values, c.domain ≠ .trading then svc.tradingPolicy
  else none

/-- The state after `getActivePolicy`. -/
def synced (d : PolicyDomain) (s : ServiceState) : ServiceState :=
  match svc.configured d s with
  | some policy => { s with activePolicies := Function.update s.activePolicies d policy }
  | none => s

def getActivePolicy (d : PolicyDomain) (s : ServiceState) : RawPolicy :=
  (svc.synced d s).activePolicies d

def asOf (ctx : Context) (dto : CommitPolicyChangeDto) : String :=
  dto.asOf.getD (svc.runtime.toIso ctx.now)

variable (ctx : Context) (dto : CommitPolicyChangeDto)

def resolveSnapshot : PolicySimulationSnapshot :=
  dto.snapshot.getD (ctx.population.getD (defaultSimulationSnapshot (svc.asOf ctx dto)))

variable (s : ServiceState)

def baseline : RawPolicy :=
  dto.currentPolicy.getD (svc.getActivePolicy dto.domain s)

def preview : PolicySimulationPreviewResult dto.domain :=
  simulatePolicyChange svc.runtime dto.domain
    { currentPolicy := some (svc.baseline dto s), proposedPolicy := some dto.proposedPolicy,
      snapshot := svc.resolveSnapshot ctx dto, asOf := svc.asOf ctx dto,
      maxSnapshotAgeSeconds := dto.maxSnapshotAgeSeconds }

/-- The state after `preview`, which asks for the active policy unless the request has one. -/
def previewed : ServiceState :=
  if dto.currentPolicy.isSome then s else svc.synced dto.domain s

/-! ## `commitPolicyChange` -/

def carriesToken (token : String) : Bool :=
  dto.commitToken.any fun text => text ≠ "" ∧ trim text = token

def assertProceedable
    (preview : PolicySimulationPreviewResult dto.domain) : Except PolicyFailure Unit :=
  if preview.validationErrors ≠ [] then .error (.validationFailed preview)
  else if preview.affectedSummary.completeness = .staleSnapshot then .error (.snapshotStale preview)
  else if preview.requiresCommitToken ∧ carriesToken dto preview.commitToken = false then
    .error (.commitTokenRequired preview)
  else .ok ()

def commitRecord
    (preview : PolicySimulationPreviewResult dto.domain) (seq : Nat) : PolicyCommitRecord :=
  let committedAt := svc.asOf ctx dto
  let commitHash := computeDigest svc.runtime "policy-commit-record:v1" (.obj [
    ("domain", .str dto.domain.text), ("simulationId", .str preview.simulationId),
    ("previewDigest", .str preview.digest), ("actorId", .str ctx.actorId),
    ("committedAt", .str committedAt), ("seq", .int seq)])
  { commitId := "pcmt:" ++ dto.domain.text ++ ":" ++ slicePrefix 16 commitHash,
    domain := dto.domain, actorId := ctx.actorId, reason := trim dto.reason, committedAt,
    simulationId := preview.simulationId, previewDigest := preview.digest,
    previousPolicy := preview.currentPolicy, appliedPolicy := preview.effectiveProposedPolicy,
    reversibility := preview.reversibility, impactSeverity := preview.impactSeverity,
    rollbackAvailable := true, rollbackConstraints := preview.rollbackConstraints }

def install (record : PolicyCommitRecord) : ServiceState where
  activePolicies := Function.update s.activePolicies record.domain record.appliedPolicy.raw
  commitHistory := s.commitHistory.set record.commitId record
  totalCommits := s.totalCommits + 1

def hasReason (reason : String) : Bool :=
  3 ≤ utf16Length (trim reason)

def commitPolicyChange : Except PolicyFailure PolicyCommitRecord × ServiceState :=
  if hasReason dto.reason = false then
    (.error (.badRequest ("A valid audit reason (at least 3 characters) is required to commit " ++
      "a policy change.")), s)
  else
    let preview := svc.preview ctx dto s
    let s := svc.previewed dto s
    match assertProceedable dto preview with
    | .error e => (.error e, s)
    | .ok () =>
      let record := svc.commitRecord ctx dto preview (s.totalCommits + 1)
      (.ok record, install s record)

/-! ## `rollbackPolicyChange` -/

def rolledBack (reason : String) (record : PolicyCommitRecord) : PolicyCommitRecord :=
  { record with
    rollbackAvailable := false, rolledBackAt := some (svc.runtime.toIso ctx.now),
    rolledBackBy := some ctx.actorId, rollbackReason := some (trim reason) }

def reinstall (commitId : String) (record : PolicyCommitRecord) : ServiceState :=
  { s with
    activePolicies := Function.update s.activePolicies record.domain record.previousPolicy.raw
    commitHistory := s.commitHistory.set commitId record }

structure RollbackResult where
  commit : PolicyCommitRecord
  manualRecoveryRequired : Bool
  recoveryConstraints : List RollbackConstraint

def rollbackPolicyChange (commitId reason : String) (s : ServiceState) :
    Except PolicyFailure RollbackResult × ServiceState :=
  match s.commitHistory.get commitId with
  | none => (.error (.notFound ("Policy commit record '" ++ commitId ++ "' not found.")), s)
  | some record =>
    if !record.rollbackAvailable || truthy record.rolledBackAt then
      (.error (.badRequest ("Policy commit '" ++ commitId ++
        "' has already been rolled back at " ++ record.rolledBackAt.getD "undefined" ++ ".")), s)
    else if hasReason reason = false then
      (.error (.badRequest "A valid rollback reason (at least 3 characters) is required."), s)
    else
      let record := svc.rolledBack ctx reason record
      let constraints := record.rollbackConstraints.filter fun c =>
        c.reversibility ≠ .fullyReversible
      (.ok
        { commit := record
          manualRecoveryRequired := record.reversibility ≠ .fullyReversible ∨ constraints ≠ []
          recoveryConstraints := constraints }, reinstall s commitId record)

/-! ## What a call does -/

variable {svc} {ctx : Context} {dto : CommitPolicyChangeDto} {s : ServiceState}

/-- The request has a reason and passes the checks of its preview. -/
def Accepted (svc : Service) (ctx : Context) (dto : CommitPolicyChangeDto) (s : ServiceState) :
    Prop :=
  hasReason dto.reason = true ∧ assertProceedable dto (svc.preview ctx dto s) = .ok ()

def newRecord (svc : Service) (ctx : Context) (dto : CommitPolicyChangeDto) (s : ServiceState) :
    PolicyCommitRecord :=
  svc.commitRecord ctx dto (svc.preview ctx dto s) ((svc.previewed dto s).totalCommits + 1)

theorem commit_of_accepted (h : svc.Accepted ctx dto s) :
    svc.commitPolicyChange ctx dto s = (.ok (svc.newRecord ctx dto s),
      install (svc.previewed dto s) (svc.newRecord ctx dto s)) := by
  unfold commitPolicyChange
  rw [if_neg (by simp [h.1])]
  simp only [h.2]
  rfl

theorem commit_of_not_accepted (h : ¬ svc.Accepted ctx dto s) :
    ∃ e s', svc.commitPolicyChange ctx dto s = (.error e, s') ∧
      (s' = s ∨ s' = svc.synced dto.domain s) := by
  unfold commitPolicyChange
  by_cases hreason : hasReason dto.reason = false
  · rw [if_pos hreason]
    exact ⟨_, s, rfl, .inl rfl⟩
  · rw [if_neg hreason]
    cases hchecks : assertProceedable dto (svc.preview ctx dto s) with
    | ok _ => exact (h ⟨by simpa using hreason, hchecks⟩).elim
    | error e =>
      refine ⟨e, svc.previewed dto s, by simp only [hchecks], ?_⟩
      unfold previewed
      split_ifs
      · exact .inl rfl
      · exact .inr rfl

theorem rollback_cases (svc : Service) (ctx : Context) (commitId reason : String)
    (s : ServiceState) : (∃ e, svc.rollbackPolicyChange ctx commitId reason s = (.error e, s)) ∨
    ∃ record result, s.commitHistory.get commitId = some record ∧
      result.commit = svc.rolledBack ctx reason record ∧
      svc.rollbackPolicyChange ctx commitId reason s =
        (.ok result, reinstall s commitId (svc.rolledBack ctx reason record)) := by
  unfold rollbackPolicyChange
  cases hfound : s.commitHistory.get commitId with
  | none => exact .inl ⟨_, rfl⟩
  | some record =>
    dsimp only
    split_ifs
    · exact .inl ⟨_, rfl⟩
    · exact .inl ⟨_, rfl⟩
    · exact .inr ⟨record, _, rfl, rfl, rfl⟩

end Service

/-! ### A runtime for runs on fixed inputs -/

def plainRuntime : Runtime where
  sha256 text := String.ofList (intText text.utf8ByteSize)
  reportDigest _ _ _ _ _ _ := "0"
  number
    | .num n => n
    | _ => .nan
  string
    | .str s => s
    | _ => ""
  toUpperCase := id
  toLowerCase := id
  parseDate text := some (numeral text.toList)
  toIso n := String.ofList (intText n)
  localeLe _ _ := true
  number_num _ := rfl
  string_str _ := rfl
  upper_upper := trim_trim
  lower_lower := trim_trim

end Trellis.Policy
