import Trellis.Policy.CommitToken

/-!
# Rolling every commit back

A rollback installs the policy that its commit recorded as the previous one, whatever was
committed in the meantime, so the commit rolled back last decides.
-/

namespace Trellis.Policy

open Core Service

/-! ## Calls and what they install -/

inductive PolicyCall where
  | commit (ctx : Context) (dto : CommitPolicyChangeDto)
  | rollback (ctx : Context) (commitId reason : String)

inductive Install where
  | committed (record : PolicyCommitRecord)
  | reinstated (record : PolicyCommitRecord)

def Install.policy : Install → RawPolicy
  | .committed record => record.appliedPolicy.raw
  | .reinstated record => record.previousPolicy.raw

section Calls

variable (svc : Service) (d : PolicyDomain)

def outcome (s : ServiceState) : PolicyCall → Option Install
  | .commit ctx dto => (svc.commitPolicyChange ctx dto s).1.toOption.map .committed
  | .rollback ctx commitId reason =>
    (svc.rollbackPolicyChange ctx commitId reason s).1.toOption.map (.reinstated ·.commit)

def callStep (s : ServiceState) : PolicyCall → ServiceState
  | .commit ctx dto => (svc.commitPolicyChange ctx dto s).2
  | .rollback ctx commitId reason => (svc.rollbackPolicyChange ctx commitId reason s).2

def callRun (s : ServiceState) (calls : List PolicyCall) : ServiceState :=
  calls.foldl (callStep svc) s

def installs : ServiceState → List PolicyCall → List Install
  | _, [] => []
  | s, call :: calls => (outcome svc s call).toList ++ installs (callStep svc s call) calls

def PolicyCall.isIn (s : ServiceState) : PolicyCall → Bool
  | .commit _ dto => dto.domain = d
  | .rollback _ commitId _ => (s.commitHistory.get commitId).all (·.domain = d)

def inDomain : ServiceState → List PolicyCall → Bool
  | _, [] => true
  | s, call :: calls => call.isIn d s && inDomain (callStep svc s call) calls

end Calls

def Install.reinstates (commitId : String) : Install → Bool
  | .committed _ => false
  | .reinstated record => record.commitId = commitId

def allRolledBack : List Install → Bool
  | [] => true
  | .committed record :: rest => rest.any (·.reinstates record.commitId) && allRolledBack rest
  | .reinstated _ :: rest => allRolledBack rest

theorem allRolledBack_concat (before : List Install) (record : PolicyCommitRecord) :
    allRolledBack (before ++ [.committed record]) = false := by
  induction before with
  | nil => rfl
  | cons install before ih =>
    cases install with
    | committed record => rw [List.cons_append, allRolledBack, ih, Bool.and_false]
    | reinstated record => exact ih

/-! ## The active policy -/

section Active

variable {svc : Service} {d : PolicyDomain} {s : ServiceState}

theorem getActive_eq :
    svc.getActivePolicy d s = (svc.configured d s).getD (s.activePolicies d) := by
  unfold getActivePolicy synced
  cases svc.configured d s with
  | none => rfl
  | some policy => exact Function.update_self ..

variable {record : PolicyCommitRecord} {commitId : String}

theorem configured_eq_none (hget : s.commitHistory.get commitId = some record)
    (hdomain : record.domain = d) : svc.configured d s = none := by
  refine if_neg ?_
  rintro ⟨rfl, hnone⟩
  exact hnone record (List.mem_map.mpr ⟨_, Record.mem_entries_iff.mpr hget, rfl⟩) hdomain

theorem getActive_synced : svc.getActivePolicy d (svc.synced d s) = svc.getActivePolicy d s := by
  have hhistory : (svc.synced d s).commitHistory = s.commitHistory := by
    unfold synced
    cases svc.configured d s <;> rfl
  have hconfigured : svc.configured d (svc.synced d s) = svc.configured d s := by
    rw [configured, hhistory, configured]
  rw [getActive_eq, hconfigured]
  cases hread : svc.configured d s with
  | none => rw [synced, hread, getActive_eq, hread]
  | some policy => rw [getActive_eq, hread]; rfl

theorem getActive_install (hdomain : record.domain = d) :
    svc.getActivePolicy d (install s record) = record.appliedPolicy.raw := by
  have hget := s.commitHistory.get_set_self record.commitId record
  rw [getActive_eq, configured_eq_none hget hdomain, ← hdomain]
  exact Function.update_self ..

theorem getActive_reinstall (hdomain : record.domain = d) :
    svc.getActivePolicy d (reinstall s commitId record) = record.previousPolicy.raw := by
  have hget := s.commitHistory.get_set_self commitId record
  rw [getActive_eq, configured_eq_none hget hdomain, ← hdomain]
  exact Function.update_self ..

theorem getActive_step {call : PolicyCall} (hcall : call.isIn d s = true) :
    svc.getActivePolicy d (callStep svc s call) =
      ((outcome svc s call).map Install.policy).getD (svc.getActivePolicy d s) := by
  cases call with
  | commit ctx dto =>
    have hdomain : dto.domain = d := of_decide_eq_true hcall
    by_cases haccepted : svc.Accepted ctx dto s
    · rw [callStep, outcome, commit_of_accepted haccepted]
      exact getActive_install hdomain
    · obtain ⟨e, s', hcommit, hstate⟩ := commit_of_not_accepted haccepted
      rw [callStep, outcome, hcommit]
      rcases hstate with rfl | rfl
      · rfl
      · exact hdomain ▸ getActive_synced
  | rollback ctx commitId reason =>
    rcases rollback_cases svc ctx commitId reason s with
      ⟨e, hrollback⟩ | ⟨record, result, hget, hresult, hrollback⟩
    · rw [callStep, outcome, hrollback]
      rfl
    · have hdomain : (svc.rolledBack ctx reason record).domain = d := by
        rw [PolicyCall.isIn, hget] at hcall
        exact of_decide_eq_true hcall
      rw [callStep, outcome, hrollback]
      refine (getActive_reinstall hdomain).trans ?_
      change _ = result.commit.previousPolicy.raw
      rw [hresult]

theorem active_run {calls : List PolicyCall} (hcalls : inDomain svc d s calls = true) :
    svc.getActivePolicy d (callRun svc s calls) =
      ((installs svc s calls).getLast?.map Install.policy).getD (svc.getActivePolicy d s) := by
  induction calls generalizing s with
  | nil => rfl
  | cons call calls ih =>
    obtain ⟨hcall, hcalls⟩ := Bool.and_eq_true_iff.mp hcalls
    have hrest := ih hcalls
    rw [getActive_step hcall] at hrest
    rw [installs, List.getLast?_append]
    refine hrest.trans ?_
    cases (installs svc (callStep svc s call) calls).getLast? with
    | none => cases outcome svc s call <;> rfl
    | some install => rfl

end Active

/-! ## Sequences that roll everything back -/

/-- The first policy that is installed is that of a commit. -/
def startsWithCommit : List Install → Bool
  | .committed _ :: _ => true
  | _ => false

/-- The commit that is rolled back last, by the last call that installs a policy. -/
def lastRolledBack (installs : List Install) : Option PolicyCommitRecord :=
  match installs.getLast? with
  | some (.reinstated record) => some record
  | _ => none

def limitRequest (percent : Int) : CommitPolicyChangeDto where
  domain := .portfolioRebalancing
  proposedPolicy := .ofList [("maxSingleAssetWeightPct", .int percent)]
  snapshot := some { version := "empty", observedAt := "0" }
  reason := "adjust"

/-- Two commits and their rollbacks, in the order of the ids that `plainRuntime` gives. -/
def twoCommits (rolledBack rolledBack' : String) : List PolicyCall :=
  [.commit plainContext (limitRequest 60),
    .commit { plainContext with actorId := "deputy" } (limitRequest 50),
    .rollback plainContext ("pcmt:portfolio_rebalancing:" ++ rolledBack) "undo",
    .rollback plainContext ("pcmt:portfolio_rebalancing:" ++ rolledBack') "undo"]

end Trellis.Policy
