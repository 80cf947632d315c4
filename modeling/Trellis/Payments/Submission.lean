import Trellis.Payments.Rules

/-!
# Submissions of one payment operation

How often `processor.submitTransaction` is invoked for one operation whose processor does not
support a safe retry. The conditional update admits one claim of a `SIGNED` row; what it cannot
see is an entity loaded before the claim and saved as `SIGNED` after it.
-/

namespace Trellis.Payments

open Core Choice

variable {ι : Type}

/-! ## Claimed rows -/

/-- The step writes `SIGNED` over a row whose submission has been claimed. -/
def staleSigning (op : Op) (c : Choice) (w : World ι) : Bool :=
  match op, c with
  | .save operation, .serve =>
    decide (operation.state = .signed) && w.row.any (·.isClaimed)
  | _, _ => false

def noStaleSigning : Guard (paymentsSemantics ι) :=
  fun _ op c w => staleSigning op c w = false

instance : ∀ (i : ι) op c w, Decidable (noStaleSigning i op c w) :=
  fun _ op c w => inferInstanceAs (Decidable (staleSigning op c w = false))

/-! ## The contract of a call -/

/-- At most one claim, no submission before it, and a claimed row after it. -/
structure ClaimInv (processorName : String) (w : World ι) : Prop where
  unclaimed : w.claims = [] → w.submissions = []
  claimed : w.claims ≠ [] → w.claims.length = 1 ∧ ∃ row, w.row = some row ∧ row.isClaimed = true
  once : w.submissions.length ≤ 1
  processor : ∀ row, w.row = some row → row.processorName = processorName

/-- The claim of `i`, and the submissions since, are left alone. -/
def LeavesClaim (i : ι) (w w' : World ι) : Prop :=
  w.claims = [i] → w'.claims = [i] ∧ w'.submissions = w.submissions

theorem LeavesClaim.of_logs {i : ι} {w w' : World ι} (hclaims : w'.claims = w.claims)
    (hsubs : w'.submissions = w.submissions) : LeavesClaim i w w' := by
  intro h
  rw [hclaims, hsubs]
  exact ⟨h, rfl⟩

def claimContract (processorName : String) (i : ι) : Contract (World ι) where
  inv := ClaimInv processorName
  rely := LeavesClaim i
  guar w w' := ∀ j, j ≠ i → LeavesClaim j w w'

variable {operation : PaymentOperation} {w : World ι} {processorName : String}

variable (h : ClaimInv processorName w)
include h

theorem ClaimInv.store {i : ι} (hname : operation.processorName = processorName)
    (hclaimed : w.claims ≠ [] → operation.isClaimed = true) :
    ClaimInv processorName (w.store i operation) :=
  { h with
    claimed hne := ⟨(h.claimed hne).1, _, rfl, hclaimed hne⟩
    processor := by
      rintro row ⟨⟩
      exact hname }

theorem ClaimInv.seenBy (i : ι) : ClaimInv processorName (w.seenBy i) :=
  ⟨h.unclaimed, h.claimed, h.once, h.processor⟩

theorem ClaimInv.claims_eq_nil {row : PaymentOperation}
    (hrow : w.row = some row) (hstate : row.state = .signed) : w.claims = [] := by
  by_contra hne
  rcases (h.claimed hne).2 with ⟨row', hrow', hclaimed⟩
  rw [hrow] at hrow'
  cases hrow'
  simp [PaymentOperation.isClaimed, hstate] at hclaimed

omit h

section Programs

variable {processorName : String} {i : ι}

/-! ## Operations -/

theorem keepsClaim_read {op : Op} (hread : op.isRead = true) :
    Triple (C := claimContract processorName i) (paymentsSemantics ι) noStaleSigning i .top
      (ask op) (fun _ => .top) .top := by
  refine triple_call fun w c r w' hinv _ _ hperf => ?_
  have hout : outcome (C := claimContract processorName i) (fun _ => .top) .top r w' := by
    cases r <;> trivial
  rcases perform_read hread hperf with rfl | rfl
  · exact ⟨hinv, fun j _ => .of_logs rfl rfl, hout⟩
  · exact ⟨hinv.seenBy i, fun j _ => .of_logs rfl rfl, hout⟩

theorem keepsClaim_findByPayment (paymentId ownerId : String) :
    Triple (C := claimContract processorName i) (paymentsSemantics ι) noStaleSigning i .top
      (ask (.findByPayment paymentId ownerId)) (fun found : Option PaymentOperation =>
        .pure (∀ row, found = some row → row.processorName = processorName)) .top := by
  refine triple_call fun w c r w' hinv _ _ hperf => ?_
  rcases perform_findByPayment hperf with ⟨rfl, e, rfl⟩ | ⟨rfl, rfl⟩
  · exact ⟨hinv, fun j _ => .of_logs rfl rfl, trivial⟩
  · refine ⟨hinv.seenBy i, fun j _ => .of_logs rfl rfl, fun row hrow => ?_⟩
    exact hinv.processor row (Option.filter_eq_some_iff.mp hrow).1

theorem keepsClaim_save (hname : operation.processorName = processorName)
    (hstate : operation.state = .signed ∨ operation.isClaimed = true) :
    Triple (C := claimContract processorName i) (paymentsSemantics ι) noStaleSigning i .top
      (ask (.save operation)) (fun _ => .top) .top := by
  refine triple_call fun w c r w' hinv _ hguard hperf => ?_
  rcases perform_save hperf with ⟨rfl, e, rfl⟩ | ⟨rfl, rfl, rfl⟩
  · exact ⟨hinv, fun j _ => .of_logs rfl rfl, trivial⟩
  · refine ⟨hinv.store hname fun hne => ?_, fun j _ => .of_logs rfl rfl, trivial⟩
    rcases hstate with hsigned | hclaimed
    · -- the stored row is claimed, so the guard excludes this save
      rcases (hinv.claimed hne).2 with ⟨row, hrow, hrowClaimed⟩
      simp [noStaleSigning, staleSigning, hsigned, hrow, hrowClaimed] at hguard
    · exact hclaimed

def Owns (i : ι) (w : World ι) : Prop :=
  w.claims = [i] ∧ w.submissions = []

/-- {lit}`Owns` as an assertion of the contract. -/
def owns (processorName : String) (i : ι) : Assertion (claimContract processorName i) where
  holds := Owns i
  stable w w' hmove hown := by
    rcases hmove.2.2 hown.1 with ⟨hclaims, hsubs⟩
    exact ⟨hclaims, hsubs.trans hown.2⟩

theorem ClaimInv.recordSubmission (signed : SignedTransaction)
    (h : ClaimInv processorName w) (hown : Owns i w) :
    ClaimInv processorName (w.recordSubmission i signed) :=
  { h with
    unclaimed hnil := by
      have hclaims : w.claims = [] := hnil
      simp [hown.1] at hclaims
    once := by simp [World.recordSubmission, hown.2] }

theorem keepsClaim_submitTransaction (processor : String) (signed : SignedTransaction) :
    Triple (paymentsSemantics ι) noStaleSigning i (owns processorName i)
      (ask (.submitTransaction processor signed))
      (fun _ => .top) .top := by
  refine triple_call fun w c r w' hinv hown _ hperf => ?_
  have hw : w' = w.recordSubmission i signed := perform_submitTransaction hperf
  subst hw
  refine ⟨ClaimInv.recordSubmission signed hinv hown, ?_, ?_⟩
  · intro j hj hclaims
    have hij : i = j := by simpa [hown.1] using hclaims
    exact absurd hij.symm hj
  · cases r <;> trivial

theorem keepsClaim_claim (operationId : String) (hash : Option String) :
    Triple (C := claimContract processorName i) (paymentsSemantics ι) noStaleSigning i .top
      (ask (.claim operationId hash))
      (fun affected : Nat => (owns processorName i).when (affected ≠ 0)) .top := by
  refine triple_call fun w c r w' hinv _ _ hperf => ?_
  rcases perform_claim hperf with ⟨rfl, hr⟩ | ⟨row, hrow, hstate, rfl, rfl⟩
  · refine ⟨hinv, fun j _ => .of_logs rfl rfl, ?_⟩
    rcases hr with ⟨e, rfl⟩ | rfl
    · trivial
    · exact fun hne => absurd rfl hne
  · have hclaims : w.claims = [] := hinv.claims_eq_nil hrow hstate
    have hsubs : w.submissions = [] := hinv.unclaimed hclaims
    refine ⟨⟨fun _ => hsubs, fun _ => ⟨?_, _, rfl, rfl⟩, hinv.once, ?_⟩, ?_, ?_⟩
    · simp [hclaims]
    · rintro _ ⟨⟩
      exact hinv.processor row hrow
    · intro j _ hj
      simp [hclaims] at hj
    · intro _
      exact ⟨by simp [hclaims], hsubs⟩

/-- The processors that serve the operation do not support a safe retry. -/
def NoSafeRetry (cfg : ServiceConfig) (processorName : String) : Prop :=
  ∀ processor ∈ cfg.factory.registry.processors, processor.name = processorName →
    processor.supportsSafeSubmissionRetry = false

def claimRules {cfg : ServiceConfig} (hretry : NoSafeRetry cfg processorName) (i : ι) :
    CallRules cfg noStaleSigning i (claimContract processorName i) where
  Good operation := operation.processorName = processorName
  ready := .top
  claimed := owns processorName i
  good hname h := h.processorName.trans hname
  findByPayment _ _ := by
    refine triple_post (keepsClaim_findByPayment _ _) fun found w _ hfound => ?_
    cases found with
    | none => trivial
    | some operation => exact ⟨hfound operation rfl, fun _ => trivial⟩
  findById _ := keepsClaim_read rfl
  sign _ _ := keepsClaim_read rfl
  status _ _ := keepsClaim_read rfl
  save hname h := by
    refine triple_post (keepsClaim_save (h.processorName.trans hname) ?_) fun _ _ _ _ _ => trivial
    exact h.progress.imp And.left And.left
  claim := keepsClaim_claim
  submit := keepsClaim_submitTransaction
  retry processor hmem operation hname hprocessor hsafe := by
    rw [hretry processor hmem (hprocessor.trans hname)] at hsafe
    cases hsafe

end Programs

/-! ## Runs -/

theorem compatible_claimContract (processorName : String) [DecidableEq ι] :
    Pool.Compatible (paymentsSemantics ι) (claimContract processorName)
      (ClaimInv processorName) where
  inv_eq _ := rfl
  guar_rely i _ _ _ hij hguar := hguar i hij
  happen_inv _ _ h := ⟨h.unclaimed, h.claimed, h.once, h.processor⟩
  happen_rely _ _ _ _ := .of_logs rfl rfl

/-- Over every interleaving of signing, submitting and resuming calls without a
stale signing, the processor is asked to submit at most once. -/
theorem submitted_at_most_once [DecidableEq ι] (cfg : ServiceConfig)
    (requests : ι → Request) (hrequests : ∀ i, (requests i).creates = false)
    (row : PaymentOperation) (hretry : NoSafeRetry cfg row.processorName) (pool : PaymentsPool ι)
    (hreach : Pool.Reach (paymentsSemantics ι) noStaleSigning
      (startPool cfg requests (some row)) pool) : pool.world.submissions.length ≤ 1 := by
  have hstart : ClaimInv row.processorName (startPool cfg requests (some row)).world :=
    ⟨fun _ => rfl, fun h => absurd rfl h, Nat.zero_le 1, by rintro _ ⟨⟩; rfl⟩
  have hkept := hreach.keeps (compatible_claimContract row.processorName) hstart
    (fun i => (claimRules hretry i).triple_request (hrequests i)) fun _ => trivial
  exact hkept.world_inv.once

/-! ## A stale signing

A server-side signing processor, a freshly created payment, and three calls of its
owner. -/

def custodialConfig : ServiceConfig where
  factory :=
    { registry := { processors := [{ name := "custodial", requiresClientSideSigning := false }] } }
  fingerprint _ := ""

def custodialPayment : CreatedPayment where
  paymentId := "pay-1"
  recoveryId := some "op-1"
  status := .pending

def custodialRow : PaymentOperation where
  operationId := "op-1"
  ownerId := "user-1"
  processorName := "custodial"
  idempotencyKey := "key-1"
  requestFingerprint := ""
  state := .created
  paymentId := some "pay-1"
  createdPayment := some custodialPayment

def custodialSigned : SignedTransaction where
  paymentId := "pay-1"
  signedPayload := "signed-1"

def custodialSubmitted : SubmittedTransaction where
  paymentId := "pay-1"
  transactionHash := "hash-1"
  status := .submitted

def custodialRequests : Fin 3 → Request
  | 0 => .signTransaction custodialPayment none "user-1"
  | 1 => .signAndSubmit custodialPayment none "user-1"
  | 2 => .submitTransaction custodialSigned none "user-1"

def custodialSubmission : List (Pool.Pick (paymentsSemantics (Fin 3))) :=
  [.call 1 Choice.serve, .call 1 (Choice.signed custodialSigned), .call 1 Choice.serve,
    .call 1 Choice.serve, .call 1 Choice.serve, .call 1 (Choice.submitted custodialSubmitted),
    .call 1 Choice.serve]

theorem noSafeRetry_custodial : NoSafeRetry custodialConfig custodialRow.processorName := by
  intro processor hmem _
  rw [List.mem_singleton.mp hmem]

/-- The condition is met by a run that does submit. -/
theorem submitted_once_custodial : ∃ pool, Pool.Reach (paymentsSemantics (Fin 3)) noStaleSigning
      (startPool custodialConfig custodialRequests (some custodialRow)) pool ∧
    pool.world.submissions = [(1, custodialSigned)] ∧ pool.world.submissions.length ≤ 1 := by
  refine Pool.exists_run custodialSubmission (·.world.submissions) [(1, custodialSigned)]
    (by decide) fun pool hreach hsubs => ?_
  exact ⟨hsubs, submitted_at_most_once custodialConfig custodialRequests
    (by decide) custodialRow noSafeRetry_custodial pool hreach⟩

/-- Call 0 loads the row before call 1 signs and submits, and saves it afterwards;
call 2 then finds a `SIGNED` row and submits again. -/
theorem stale_signing_submits_twice : (∀ i, (custodialRequests i).creates = false) ∧
    NoSafeRetry custodialConfig custodialRow.processorName ∧
    ∃ pool, Pool.Reach (paymentsSemantics (Fin 3)) (anyStep _)
        (startPool custodialConfig custodialRequests (some custodialRow)) pool ∧
      pool.world.submissions = [(1, custodialSigned), (2, custodialSigned)] := by
  refine ⟨by decide, noSafeRetry_custodial, ?_⟩
  exact Pool.exists_run
    (.call 0 serve :: custodialSubmission ++ [.call 0 (signed custodialSigned), .call 0 serve,
      .call 2 serve, .call 2 serve, .call 2 (submitted custodialSubmitted)])
    (·.world.submissions) [(1, custodialSigned), (2, custodialSigned)] (by decide)
    fun _ _ hsubmissions => hsubmissions

end Trellis.Payments
