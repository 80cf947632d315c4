import Trellis.Policy.Service

/-!
# Tokens of high-impact changes

A commit compares its token with a preview whose baseline the request may choose. Another baseline
than the active policy hides the change that is really made.
-/

namespace Trellis.Policy

open Core Service

/-! ## The property and the condition -/

section Token

variable (svc : Service) (ctx : Context) (dto : CommitPolicyChangeDto) (s : ServiceState)
  (asOf : String) (limit : Option Number)

/-- The simulation of a change from the active policy to another one, with the snapshot of the
request. -/
def Service.simulateFromActive (proposed : RawPolicy) : PolicySimulationPreviewResult dto.domain :=
  simulatePolicyChange svc.runtime dto.domain
    { currentPolicy := some (svc.getActivePolicy dto.domain s), proposedPolicy := some proposed,
      snapshot := svc.resolveSnapshot ctx dto, asOf, maxSnapshotAgeSeconds := limit }

/-- If the commit replaces the active policy and the simulation of that change, for the time and
the age limit, requires a token, then the request carries the token of the change. -/
def TokenHeld : Prop :=
  (svc.commitPolicyChange ctx dto s).1.isOk = true →
    let replacing := (svc.commitPolicyChange ctx dto s).2.activePolicies dto.domain
    (svc.simulateFromActive ctx dto s asOf limit replacing).requiresCommitToken = true →
      let policies := resolveEffectivePolicies svc.runtime dto.domain
        (some (svc.getActivePolicy dto.domain s)) (some replacing)
      dto.commitToken.map trim = some (computeCommitToken svc.runtime policies.1 policies.2
        (svc.resolveSnapshot ctx dto).version)

/-- The baseline of the request normalizes to the active policy. -/
def BaselineActive : Prop :=
  effective svc.runtime dto.domain (svc.baseline dto s) =
    effective svc.runtime dto.domain (svc.getActivePolicy dto.domain s)

/-- A request that passes the checks of its own preview, made on another baseline or while the
snapshot is stale, although the change from the active policy needs a token it does not have. -/
def Evades : Prop :=
  svc.Accepted ctx dto s ∧
    (¬ BaselineActive svc dto s ∨ isStale svc.runtime (svc.resolveSnapshot ctx dto) asOf
      (limit.getD defaultMaxSnapshotAgeSeconds) = true) ∧
    let preview := svc.simulateFromActive ctx dto s asOf limit
      (svc.preview ctx dto s).effectiveProposedPolicy.raw
    preview.requiresCommitToken = true ∧ dto.commitToken.map trim ≠ some preview.commitToken

end Token

/-! ## What a commit checks -/

variable {svc : Service} {ctx : Context} {dto : CommitPolicyChangeDto} {s : ServiceState}

theorem isOk_iff_accepted :
    (svc.commitPolicyChange ctx dto s).1.isOk = true ↔ svc.Accepted ctx dto s := by
  by_cases haccepted : svc.Accepted ctx dto s
  · rw [commit_of_accepted haccepted]
    exact iff_of_true rfl haccepted
  · obtain ⟨e, s', hcommit, -⟩ := commit_of_not_accepted haccepted
    rw [hcommit]
    exact iff_of_false Bool.false_ne_true haccepted

theorem active_of_accepted (h : svc.Accepted ctx dto s) :
    (svc.commitPolicyChange ctx dto s).2.activePolicies dto.domain =
      (svc.preview ctx dto s).effectiveProposedPolicy.raw := by
  rw [commit_of_accepted h]
  exact Function.update_self ..

theorem proceedable_iff {preview : PolicySimulationPreviewResult dto.domain} :
    assertProceedable dto preview = .ok () ↔ preview.validationErrors = [] ∧
      preview.affectedSummary.completeness ≠ .staleSnapshot ∧
      (preview.requiresCommitToken = true → carriesToken dto preview.commitToken = true) := by
  unfold assertProceedable
  split_ifs with herrors hstale htoken
  · simp [herrors]
  · simp [hstale]
  · simp [htoken]
  · simp only [not_not] at herrors
    simp only [not_and, Bool.not_eq_false] at htoken
    exact iff_of_true rfl ⟨herrors, hstale, htoken⟩

theorem map_trim_of_carriesToken {token : String} (h : carriesToken dto token = true) :
    dto.commitToken.map trim = some token := by
  unfold carriesToken at h
  cases htext : dto.commitToken with
  | none =>
    rw [htext] at h
    cases h
  | some text =>
    rw [htext] at h
    rw [Option.map_some, (of_decide_eq_true h).2]

/-- With the active policy as baseline the preview of the request is the simulation of the change
that is made, at any time when the snapshot is not stale. -/
theorem requires_of_baseline {asOf : String} {limit : Option Number}
    (hbaseline : BaselineActive svc dto s)
    (hfresh : isStale svc.runtime (svc.resolveSnapshot ctx dto) asOf
      (limit.getD defaultMaxSnapshotAgeSeconds) = false)
    (hstale : (svc.preview ctx dto s).affectedSummary.completeness ≠ .staleSnapshot) :
    let preview := svc.simulateFromActive ctx dto s asOf limit
      (svc.preview ctx dto s).effectiveProposedPolicy.raw
    preview.requiresCommitToken = (svc.preview ctx dto s).requiresCommitToken ∧
      preview.commitToken = (svc.preview ctx dto s).commitToken := by
  have hown : isStale svc.runtime (svc.resolveSnapshot ctx dto) (svc.asOf ctx dto)
      (dto.maxSnapshotAgeSeconds.getD defaultMaxSnapshotAgeSeconds) = false := by
    by_contra htrue
    exact hstale ((completeness_eq_stale_iff ..).mpr (by simpa using htrue))
  have hresolve : resolveEffectivePolicies svc.runtime dto.domain
      (some (svc.getActivePolicy dto.domain s))
      (some (svc.preview ctx dto s).effectiveProposedPolicy.raw) =
        (effective svc.runtime dto.domain (svc.baseline dto s),
          (svc.preview ctx dto s).effectiveProposedPolicy) := by
    rw [hbaseline]
    exact resolve_effective _ (normalize_normalize _ _)
  intro preview
  constructor
  · have hassess := assessChange_of_not_stale svc.runtime
      (effective svc.runtime dto.domain (svc.baseline dto s))
      (svc.preview ctx dto s).effectiveProposedPolicy hfresh hown
    simp only [preview, simulateFromActive, simulatePolicyChange, hresolve, hassess]
    rfl
  · simp only [preview, simulateFromActive, simulatePolicyChange, hresolve]
    rfl

/-- A request that lowers the weight limit to twenty percent and gives the new limit as the
current one. -/
def overriddenRequest : CommitPolicyChangeDto where
  domain := .portfolioRebalancing
  proposedPolicy := .ofList [("maxSingleAssetWeightPct", .int 20)]
  currentPolicy := some (.ofList [("maxSingleAssetWeightPct", .int 20)])
  reason := "tighten"

def plainService : Service where
  runtime := plainRuntime
  tradingPolicy := none

def plainContext : Context where
  now := 0
  population := none
  actorId := "maintainer"

end Trellis.Policy
