import Trellis.Payments.Service

/-!
# Signing and submitting under any contract

Which operations a signing, submitting or resuming call awaits does not depend on what is proved
about it: the rules of the single operations under a contract give one rule for the whole call.
-/

namespace Trellis.Payments

open Core

variable {ι : Type}

/-- The states a row takes from the claim of its submission on. -/
def PaymentOperation.isClaimed (row : PaymentOperation) : Bool :=
  match row.state with
  | .submitting | .submitted => true
  | .recoveryRequired => truthy row.signedPayload
  | _ => false

/-- What a call saves over the entity that it has loaded: the signature of a created payment, or
the progress of the submission of a signed one. -/
structure Follows (old new : PaymentOperation) : Prop where
  processorName : new.processorName = old.processorName
  createdPayment : new.createdPayment = old.createdPayment
  progress : new.state = .signed ∧ old.createdPayment.isSome = true ∨
    new.isClaimed = true ∧ truthy new.signedPayload = true ∧ truthy old.signedPayload = true

/-- What is known of an entity that was loaded (`Good`), what holds while the call may save it
(`ready`) and while it may submit (`claimed`), and what the single operations do. -/
structure CallRules (cfg : ServiceConfig) (g : Guard (paymentsSemantics ι)) (i : ι)
    (C : Contract (World ι)) where
  Good : PaymentOperation → Prop
  ready : Assertion C
  claimed : Assertion C
  good : ∀ {old new}, Good old → Follows old new → Good new
  findByPayment : ∀ paymentId ownerId, Triple (paymentsSemantics ι) g i .top
    (ask (.findByPayment paymentId ownerId)) (fun found : Option PaymentOperation =>
      found.elim .top fun operation => (ready.when (operation.state = .submitted →
        truthy operation.signedPayload = false)).given (Good operation)) .top
  findById : ∀ operationId, Triple (C := C) (paymentsSemantics ι) g i .top
    (ask (.findById operationId)) (fun _ => .top) .top
  sign : ∀ name created, Triple (paymentsSemantics ι) g i ready
    (ask (.signTransaction name created)) (fun _ => ready) ready
  status : ∀ name reference, Triple (paymentsSemantics ι) g i ready
    (ask (.getStatus name reference)) (fun _ => ready) ready
  save : ∀ {old new}, Good old → Follows old new → Triple (paymentsSemantics ι) g i ready
    (ask (.save new)) (fun _ => ready.when (new.state ≠ .submitted)) ready
  claim : ∀ operationId hash, Triple (paymentsSemantics ι) g i ready
    (ask (.claim operationId hash)) (fun affected : Nat => claimed.when (affected ≠ 0)) .top
  submit : ∀ name signed, Triple (paymentsSemantics ι) g i claimed
    (ask (.submitTransaction name signed)) (fun _ => ready) ready
  retry : ∀ processor ∈ cfg.factory.registry.processors, ∀ operation, Good operation →
    processor.name = operation.processorName → processor.supportsSafeSubmissionRetry = true →
    ∀ w, ready w → claimed w

namespace CallRules

variable {cfg : ServiceConfig} {g : Guard (paymentsSemantics ι)} {i : ι} {C : Contract (World ι)}
  (rules : CallRules cfg g i C) {operation : PaymentOperation} {processor : PaymentProcessor}
  {signed : SignedTransaction}

/-- The program keeps the contract of the call from `P` on. -/
abbrev Keeps {α : Type} (_rules : CallRules cfg g i C) (P : Assertion C) (p : Program α) : Prop :=
  Triple (paymentsSemantics ι) g i P p (fun _ => .top) .top

/-- The call may save the entity unless it is a submitted one. -/
def loaded (operation : PaymentOperation) : Assertion C :=
  (rules.ready.when (operation.state = .submitted →
    truthy operation.signedPayload = false)).given (rules.Good operation)

theorem triple_findOperation (paymentId ownerId : String) :
    Triple (paymentsSemantics ι) g i .top (findOperation paymentId ownerId) rules.loaded .top := by
  refine triple_bind (rules.findByPayment _ _) fun found => ?_
  cases found with
  | none => exact triple_fail
  | some operation => exact triple_done fun _ _ h => h

theorem triple_signTransaction (created : CreatedPayment) (selector : Option String)
    (ownerId : String) : rules.Keeps .top (signTransaction cfg created selector ownerId) := by
  refine triple_bind (rules.triple_findOperation _ _) fun operation => triple_given fun hgood => ?_
  refine triple_ofExcept_bind fun processor _ => ?_
  refine triple_ite (fun _ => triple_return) fun hunsigned => ?_
  refine triple_pre (A := rules.ready) ?_ fun w _ h => h fun hsubmitted => ?_
  · split
    · exact triple_fail
    · rename_i stored hstored
      refine triple_bind (triple_forget (rules.sign _ _)) fun signed => ?_
      refine triple_bind (triple_forget (rules.save hgood ⟨rfl, rfl, .inl ⟨rfl, ?_⟩⟩))
        fun _ => triple_return
      rw [hstored]
      rfl
  · simpa [hsubmitted, PaymentOperationState.isSigned] using hunsigned

section Submission

variable (hgood : rules.Good operation) (hsigned : truthy operation.signedPayload = true)
include hgood hsigned

theorem triple_submissionFailed (e : Failure) :
    rules.Keeps rules.ready (submissionFailed operation e) := by
  refine triple_bind (triple_forget (rules.save hgood ⟨rfl, rfl, .inr ⟨?_, hsigned, hsigned⟩⟩))
    fun _ => triple_fail
  exact hsigned

omit hgood in
theorem follows_submitting (hash : Option String) :
    Follows operation { operation with state := .submitting, transactionHash := hash } :=
  ⟨rfl, rfl, .inr ⟨rfl, hsigned, hsigned⟩⟩

omit hgood in
theorem follows_submitted (submitted : SubmittedTransaction) : Follows operation { operation with
    transactionHash := some submitted.transactionHash, submittedTransaction := some submitted,
    state := .submitted, lastError := none } :=
  ⟨rfl, rfl, .inr ⟨rfl, hsigned, hsigned⟩⟩

theorem triple_sendSubmission :
    rules.Keeps rules.claimed (sendSubmission processor signed operation) := by
  refine triple_catch (rules.submit _ _) (fun submitted => ?_)
    fun e => rules.triple_submissionFailed hgood hsigned e
  have hfollows := follows_submitted hsigned submitted
  exact triple_catch (rules.save hgood hfollows) (fun _ => triple_return)
    fun e => rules.triple_submissionFailed (rules.good hgood hfollows) hsigned e

omit hgood hsigned in
theorem triple_claimLost (operation : PaymentOperation) :
    rules.Keeps .top (claimLost operation) := by
  refine triple_bind (rules.findById _) fun latest => ?_
  cases latest with
  | none => exact triple_fail
  | some latest => exact triple_ite (fun _ => triple_return) fun _ => triple_fail

theorem triple_claimAndSubmit :
    rules.Keeps rules.ready (claimAndSubmit processor signed operation) := by
  refine triple_ofExcept_bind fun hash _ => ?_
  refine triple_bind (rules.claim _ _) fun affected => triple_ite (fun _ => ?_) fun hne => ?_
  · exact triple_pre (rules.triple_claimLost operation) fun _ _ _ => trivial
  · have hgood' := rules.good hgood (follows_submitting hsigned hash)
    exact triple_pre (rules.triple_sendSubmission hgood' hsigned) fun _ _ h => h hne

variable (hretry : processor.supportsSafeSubmissionRetry = true →
  ∀ w, rules.ready w → rules.claimed w)
include hretry

theorem triple_resubmit (hsafe : processor.supportsSafeSubmissionRetry = true) :
    rules.Keeps rules.ready (resubmit processor signed operation) := by
  refine triple_ofExcept_bind fun hash _ => ?_
  have hfollows := follows_submitting hsigned hash
  refine triple_bind (triple_forget (rules.save hgood hfollows)) fun _ => ?_
  refine triple_pre (rules.triple_sendSubmission (rules.good hgood hfollows) hsigned)
    fun w _ h => hretry hsafe w (h ?_)
  simp

theorem triple_statusUnknown (e : Failure) :
    rules.Keeps rules.ready (statusUnknown processor signed operation e) :=
  triple_ite (rules.triple_resubmit hgood hsigned hretry)
    fun _ => rules.triple_submissionFailed hgood hsigned e

theorem triple_reconcileSubmission :
    rules.Keeps rules.ready (reconcileSubmission processor signed operation) := by
  refine triple_catch (rules.status _ _) (fun status => ?_)
    fun e => rules.triple_statusUnknown hgood hsigned hretry e
  refine triple_ite (fun _ => ?_) fun _ =>
    triple_ite (rules.triple_resubmit hgood hsigned hretry) fun _ => triple_fail
  have hfollows := follows_submitted hsigned
  exact triple_catch (rules.save hgood (hfollows _)) (fun _ => triple_return)
    fun e => rules.triple_statusUnknown (rules.good hgood (hfollows _)) hsigned hretry e

end Submission

theorem createdPayment_of_acceptsClientSignature
    (h : acceptsClientSignature processor operation signed = .ok true) :
    operation.createdPayment.isSome = true := by
  unfold acceptsClientSignature at h
  split at h
  · cases h
  · split at h
    · rename_i hcreated _
      simp [hcreated]
    · cases h

theorem triple_adoptClientSignature (hgood : rules.Good operation) :
    Triple (paymentsSemantics ι) g i rules.ready (adoptClientSignature processor signed operation)
      (fun adopted => rules.ready.given (rules.Good adopted)) .top := by
  refine triple_ofExcept_bind fun accepted haccepted => ?_
  refine triple_ite (fun htrue => ?_) fun _ => triple_done fun _ _ h => ⟨hgood, h⟩
  subst htrue
  have hfollows : Follows operation { operation with
      signedPayload := some signed.signedPayload, state := .signed } :=
    ⟨rfl, rfl, .inl ⟨rfl, createdPayment_of_acceptsClientSignature haccepted⟩⟩
  refine triple_bind (triple_forget (rules.save hgood hfollows)) fun _ => triple_done fun w _ h => ?_
  exact ⟨rules.good hgood hfollows, h (by simp)⟩

theorem triple_submitLoaded (hgood : rules.Good operation)
    (hretry : processor.supportsSafeSubmissionRetry = true → ∀ w, rules.ready w → rules.claimed w) :
    rules.Keeps rules.ready (submitLoaded processor signed operation) := by
  refine triple_ite (fun _ => triple_fail) fun hpayload => ?_
  have hsigned : truthy operation.signedPayload = true := by
    simp only [not_or, Bool.not_eq_false] at hpayload
    exact hpayload.1
  exact triple_ite (fun _ => rules.triple_reconcileSubmission hgood hsigned hretry)
    fun _ => rules.triple_claimAndSubmit hgood hsigned

theorem resolveOperationProcessor_ok {selector : Option String}
    (h : resolveOperationProcessor cfg operation selector = .ok processor) :
    processor ∈ cfg.factory.registry.processors ∧ processor.name = operation.processorName := by
  unfold resolveOperationProcessor at h
  split at h
  · contradiction
  · rename_i found hfound
    split at h
    · contradiction
    · rename_i hname
      cases h
      exact ⟨PaymentProcessorFactory.resolve_mem hfound, not_not.mp hname⟩

theorem triple_submitTransaction (signed : SignedTransaction) (selector : Option String)
    (ownerId : String) : rules.Keeps .top (submitTransaction cfg signed selector ownerId) := by
  refine triple_bind (rules.triple_findOperation _ _) fun operation => triple_given fun hgood => ?_
  refine triple_ofExcept_bind fun processor hresolved => ?_
  obtain ⟨hmem, hname⟩ := resolveOperationProcessor_ok hresolved
  refine triple_ite (fun _ => triple_return) fun hstate => ?_
  refine triple_pre (A := rules.ready) ?_ fun w _ h => h fun hsubmitted => absurd hsubmitted hstate
  refine triple_bind (rules.triple_adoptClientSignature hgood)
    fun adopted => triple_given fun hadopted => ?_
  exact rules.triple_submitLoaded hadopted (rules.retry processor hmem operation hgood hname)

theorem triple_signAndSubmit (created : CreatedPayment) (selector : Option String)
    (ownerId : String) : rules.Keeps .top (signAndSubmit cfg created selector ownerId) :=
  triple_bind (rules.triple_signTransaction created selector ownerId) fun signed =>
    rules.triple_submitTransaction signed selector ownerId

theorem triple_resumePayment (paymentId ownerId : String) :
    rules.Keeps .top (resumePayment cfg paymentId ownerId) := by
  refine triple_bind (rules.triple_findOperation _ _) fun operation => ?_
  refine triple_pre (A := .top) ?_ fun _ _ _ => trivial
  refine triple_ite (fun _ => triple_return) fun _ => ?_
  refine triple_ofExcept_bind fun processor _ => ?_
  refine triple_ite (fun _ => rules.triple_submitTransaction _ _ _) fun _ => ?_
  split
  · exact triple_ite (fun _ => triple_fail) fun _ => rules.triple_signAndSubmit _ _ _
  · exact triple_fail

/-- Every call that creates no payment keeps the contract. -/
theorem triple_request {request : Request} (hrequest : request.creates = false) :
    rules.Keeps .top (request.program cfg) := by
  cases request with
  | createPayment request selector ownerId => cases hrequest
  | signTransaction created selector ownerId =>
    exact triple_bind (rules.triple_signTransaction _ _ _) fun _ => triple_return
  | submitTransaction signed selector ownerId =>
    exact triple_bind (rules.triple_submitTransaction _ _ _) fun _ => triple_return
  | signAndSubmit created selector ownerId =>
    exact triple_bind (rules.triple_signAndSubmit _ _ _) fun _ => triple_return
  | resumePayment paymentId ownerId =>
    exact triple_bind (rules.triple_resumePayment _ _) fun _ => triple_return

end CallRules

end Trellis.Payments
