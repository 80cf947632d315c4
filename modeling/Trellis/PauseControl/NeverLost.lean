import Trellis.PauseControl.Calls

/-!
# An activated pause is not lost

Any number of calls of the pause service over one table.
-/

namespace Trellis.PauseControl

open Core PauseWorld List
open Trellis.Audit (EventRow)

/-! ## Runs -/

section Runs

variable {ι : Type} [DecidableEq ι] {service : PauseControlService} {requests : ι → PauseRequest}

theorem triple_request (i : ι) : PauseTriple requests i .top
    ((requests i).observed service) (fun _ => .top) .top := by
  cases hrequest : requests i with
  | activate opts =>
    have hadmin : (requests i).administered = some opts.scope.value := by
      rw [hrequest]
      rfl
    refine triple_observed (fun w hinv hadmissible => ?_) (triple_bind
      (triple_activatePause service hadmin) fun _ => triple_done (R := fun _ =>
        pausing hadmin (expiry opts.expiresAt)) fun _ _ h => h) fun outcome w h => ⟨?_, ?_⟩
    · have hlonger := hadmissible.2
      rw [hrequest] at hlonger
      refine ⟨mem_cons_self, fun e he hlt => hlonger e ?_ hlt, fun _ _ _ _ => trivial⟩
      simpa [effect, log, standing, hrequest, PauseRequest.resumed] using he
    · rintro opts' response hi rfl
      cases hrequest.symm.trans hi
      exact h
    · intro scope hi
      cases hrequest.symm.trans hi
  | resume args =>
    have hadmin : (requests i).administered = some args.scope.value := by
      rw [hrequest]
      rfl
    refine triple_observed (fun w hinv hadmissible => ?_) (triple_bind
      (triple_resumePause hadmin service) fun _ => triple_return) fun outcome w _ => ⟨?_, ?_⟩
    · refine ⟨mem_cons_self, fun e he _ => ?_, fun _ _ _ _ => trivial⟩
      simp [effect, log, standing, hrequest, PauseRequest.resumed] at he
    · intro opts response hi
      cases hrequest.symm.trans hi
    · intro scope hi
      cases hrequest.symm.trans hi
  | check scope =>
    refine triple_observed (B := .top) (fun _ _ _ => trivial) (triple_bind
      (triple_isOperationPaused hrequest) fun status => triple_done (R := fun response =>
        expecting i scope fun _ => isPaused (.ok response) = true) fun _ _ h => h)
      fun outcome w h => ⟨?_, ?_⟩
    · intro opts response hi
      cases hrequest.symm.trans hi
    · intro scope' hi hexpected
      cases hrequest.symm.trans hi
      cases outcome with
      | ok response =>
        obtain ⟨e, he⟩ := exists_mem_of_ne_nil _ hexpected
        exact .inl (h e he)
      | error e => exact .inr h
  | list =>
    have hreader : (requests i).administered = none := by
      rw [hrequest]
      rfl
    refine triple_observed (B := .top) (fun _ _ _ => trivial) (triple_bind
      (triple_getActivePauses hreader) fun _ => triple_return) fun outcome w _ => ⟨?_, ?_⟩
    · intro opts response hi
      cases hrequest.symm.trans hi
    · intro scope hi
      cases hrequest.symm.trans hi

/-- The rows of a table carry their ids, and no scope has two active rows. -/
structure OneActive (pauses : Slots PauseScope) : Prop where
  ids : ∀ n pause, pauses.get n = some pause → pause.id = n
  unique : ∀ scope n n' pause pause', pauses.get n = some pause → pauses.get n' = some pause' →
    isActiveIn scope pause = true → isActiveIn scope pause' = true → n = n'

variable {pauses : Slots PauseScope}
  {c : Pool pauseInterface Failure ι (PauseWorld ι) PauseResponse}

theorem reach_pauseInv (hpauses : OneActive pauses)
    (hreach : Pool.Reach (pauseSemantics ι) (pauseGuard requests)
      (pausePool service requests pauses) c) : PauseInv requests c.world := by
  have hinv : PauseInv requests (pausePool service requests pauses).world :=
    { ids := hpauses.ids
      unique := hpauses.unique
      covered := fun _ _ he => by cases he
      exclusive := fun _ _ hi => by cases hi
      answered := fun later _ _ _ _ hsplit => by cases later <;> cases hsplit }
  exact (hreach.keeps pauseContract_compatible hinv triple_request fun _ => trivial).world_inv

/-- No activated pause is lost in a run in which the activations and resumes of one scope do not
overlap, no activation ends before one that stands, a reader ends a row only with the expiry
that it has read, and no pause ends while a check that has to respect it is in progress. -/
theorem pause_never_lost_of_guarded (hpauses : OneActive pauses)
    (hreach : Pool.Reach (pauseSemantics ι) (pauseGuard requests)
      (pausePool service requests pauses) c) : NeverLost requests c.world.history :=
  (reach_pauseInv hpauses hreach).answered.neverLost

end Runs

/-! ## Two runs -/

def auditedService : PauseControlService where
  adminConfigAudit := some { toUpperCase := fun text => text }
  toIso _ := "1970-01-01T00:00:00.000Z"

def pauseTrading (expiresAt : Option Int) : PauseRequest :=
  .activate
    { scope := .trading, reason := "incident", actorId := "admin-1", actorRole := "ADMIN",
      expiresAt }

def tradingPause (expiresAt : Option Int) : PauseScope where
  scope := "trading"
  reason := "incident"
  activatedBy := "admin-1"
  activatedByRole := some "ADMIN"
  environment := none
  expiresAt := expiresAt
  id := 0

def writtenEvidence : EventRow where
  sequence := 1
  action := "config.emergency-pause.toggled"
  scope := "protocol_config"
  actorId := "admin-1"
  actorType := "maintainer"
  actorRole := some "ADMIN"
  resourceType := some "pause-scope"
  resourceId := some "trading"
  reason := some "incident"
  beforeState := none
  afterState := none
  metadata := none
  status := "succeeded"
  ipAddress := none
  userAgent := none
  redactedPaths := none
  occurredAt := 0
  previousHash := none
  eventHash := ""
  id := "event-1"

def activationSteps {ι : Type} (i : ι) : List (Pool.Pick (pauseSemantics ι)) :=
  replicate 6 (.call i (.served 0)) ++ [.call i (.recorded writtenEvidence),
    .call i (.served 0)]

def pauseAndCheck : Fin 2 → PauseRequest
  | 0 => pauseTrading none
  | 1 => .check "trading"

theorem oneActive_empty : OneActive .empty where
  ids _ _ h := by cases h
  unique _ _ _ _ _ h := by cases h

theorem check_after_activation_is_paused :
    ∃ c, Pool.Reach (pauseSemantics (Fin 2)) (pauseGuard pauseAndCheck)
        (pausePool auditedService pauseAndCheck .empty) c ∧
      c.world.history = [.settled 1 (.ok (.checked { paused := true, reason := some "incident" })),
        .started 1 0, .settled 0 (.ok (.activated (tradingPause none))), .started 0 0] ∧
      NeverLost pauseAndCheck c.world.history := by
  exact Pool.exists_run (activationSteps 0 ++ replicate 3 (.call 1 (.served 0)))
    (·.world.history) _ (by decide +kernel) fun c hreach hhistory =>
      ⟨hhistory, pause_never_lost_of_guarded oneActive_empty hreach⟩

/-- The trading is paused until an instant, checked, paused without an expiry, and checked. -/
def pauseTwice : Fin 4 → PauseRequest
  | 0 => pauseTrading (some 10)
  | 1 => .check "trading"
  | 2 => pauseTrading none
  | 3 => .check "trading"

/-- The first check loads the row at its expiry; the second activation extends the row before
the check saves it. -/
def staleExpirySchedule : List (Pool.Pick (pauseSemantics (Fin 4))) :=
  activationSteps 0 ++ [.event (10 : Nat)] ++ replicate 4 (.call 1 (.served 0)) ++
    activationSteps 2 ++ replicate 3 (.call 1 (.served 0)) ++
    replicate 3 (.call 3 (.served 0))

/-- The check ends the pause that was activated without an expiry. -/
theorem stale_expiry_loses_pause : ∃ c, Pool.Reach (pauseSemantics (Fin 4)) (anyStep _)
      (pausePool auditedService pauseTwice .empty) c ∧ ¬ NeverLost pauseTwice c.world.history := by
  refine Pool.exists_run staleExpirySchedule (fun c => c.world.history)
    ([.settled 3 (.ok (.checked { paused := false })), .started 3 10, .settled 1 (.ok (.checked {
      paused := false })), .settled 2 (.ok (.activated (tradingPause none))), .started 2 10,
      .started 1 10, .settled 0 (.ok (.activated (tradingPause (some 10)))), .started 0 0])
    (by decide +kernel) fun c hreach hhistory => ?_
  intro hnever
  rw [hhistory] at hnever
  rcases hnever [] [] [.settled 1 (.ok (.checked { paused := false }))] _ 2 _ _ 3 10 _ rfl rfl rfl
    (WithTop.coe_lt_top _) (by simp) with hpaused | hrejected
  · cases hpaused
  · simp at hrejected

end Trellis.PauseControl
