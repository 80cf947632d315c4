import Trellis.Payments.Operation

/-!
# The payments service

The calls of `payments.service.ts`, one awaited operation at a time. The loaded entity is a local
copy: each program passes the copy along with the fields the source has assigned so far.
-/

namespace Trellis.Payments

open Core

structure ServiceConfig where
  factory : PaymentProcessorFactory
  fingerprint : PaymentRequest → String

/-! ## Helpers -/

variable (cfg : ServiceConfig) (processor : PaymentProcessor) (request : PaymentRequest)
  (signed : SignedTransaction) (selector : Option String) (operation : PaymentOperation)

def recoveryConflict : Failure :=
  .conflict (if truthy operation.paymentId then
      "This payment operation is already in progress. Check GET /payments/" ++
        operation.paymentId.getD "" ++ "/recovery before retrying."
    else
      "This payment operation is already in progress. Retry POST /payments with the same " ++
        "request and idempotencyKey after it completes.")

def recoveryRequired : Failure :=
  .serviceUnavailable (if truthy operation.paymentId then
      "The payment outcome could not be confirmed. Do not create a new payment. Check GET " ++
        "/payments/" ++ operation.paymentId.getD "" ++
        "/recovery, then retry submit with the same signedPayload."
    else
      "The payment outcome could not be confirmed. Do not create a new payment. Retry POST " ++
        "/payments with the same request and idempotencyKey.")

def findOperation (paymentId ownerId : String) : Program PaymentOperation := do
  let operation ← ask (.findByPayment paymentId ownerId)
  match operation with
  | none => .fail (.notFound "No saved payment recovery checkpoint exists for this payment.")
  | some operation => .done operation

def resolveOperationProcessor (selector : Option String) : Except Failure PaymentProcessor :=
  match cfg.factory.resolve (some (selector.getD operation.processorName)) with
  | .error e => .error e
  | .ok processor =>
    if processor.name ≠ operation.processorName then
      .error (.conflict ("This payment belongs to the '" ++ operation.processorName ++
        "' processor."))
    else .ok processor

/-- `validateRateQuote`: the quote is stored and its 15 minutes have not passed. -/
def validateRateQuote (quoteId : String) : Program Unit := do
  let quote ← ask (.retrieveRateLock quoteId)
  match quote with
  | none => .fail (.badRequest ("Rate quote with id '" ++ quoteId ++
      "' was not found or has expired. Please request a new quote."))
  | some expiresAt =>
    let now : Nat ← ask .now
    if now > expiresAt then
      .fail (.badRequest "Rate quote has expired (>15 min). Please generate a fresh rate quote.")
    else .done ()

/-! ## Creating a payment -/

def creationFailed (e : Failure) : Program CreatedPayment := do
  let operation := { operation with
    state := .recoveryRequired, lastError := some (errorMessage e) }
  let _ ← ask (.save operation)
  .fail (recoveryRequired operation)

/-- The `try` of `createPayment`, once the row is in state `CREATING`. -/
def finishCreation : Program CreatedPayment := do
  let answer ← (ask (.createPayment processor.name request)).attempt
  match answer with
  | .error e => creationFailed operation e
  | .ok created =>
    let checkpointed := { created with recoveryId := some operation.operationId }
    let operation := { operation with
      paymentId := some created.paymentId, createdPayment := some checkpointed, state := .created,
      lastError := none }
    let saved ← (ask (.save operation)).attempt
    match saved with
    | .error e => creationFailed operation e
    | .ok _ => .done checkpointed

/-- No row was found: insert one, or defer to the call that inserted it first. -/
def insertAndCreate (ownerId requestFingerprint : String) : Program CreatedPayment := do
  let inserted ← (ask (.insert
    { operationId := "", ownerId, processorName := processor.name,
      idempotencyKey := request.idempotencyKey, requestFingerprint, state := .creating })).attempt
  match inserted with
  | .ok operation => finishCreation processor request operation
  | .error e =>
    let existing ← ask
      (.findByKey ownerId processor.name request.idempotencyKey)
    match existing with
    | none => .fail e
    | some operation =>
      if operation.requestFingerprint ≠ requestFingerprint then
        .fail (.conflict ("This idempotency key is already associated with a different " ++
          "payment request."))
      else match operation.createdPayment with
        | some created => .done created
        | none => .fail (recoveryConflict operation)

/-- A row without a created payment was found: take it over. -/
def restartCreation : Program CreatedPayment := do
  let operation ← ask
    (.save { operation with state := .creating, lastError := none })
  finishCreation processor request operation

/-- The quote a request refers to, by field or by metadata. -/
def effectiveQuoteId : Option String :=
  request.quoteId.or (request.metadata.lookup "quoteId")

/-- A row was found for the idempotency key: replay it, refuse, or take it over. -/
def createExisting (requestFingerprint : String) (operation : PaymentOperation) :
    Program CreatedPayment :=
  if operation.requestFingerprint ≠ requestFingerprint then
    .fail (.conflict "This idempotency key is already associated with a different payment request.")
  else match operation.createdPayment with
    | some created => .done created
    | none =>
      if operation.state = .creating then do
        let now : Nat ← ask .now
        if now < operation.updatedAt + 60000 then
          .fail (recoveryConflict operation)
        else restartCreation processor request operation
      else restartCreation processor request operation

/-- `createPayment` once the rate quote has been validated. -/
def createResolved (ownerId : String) : Program CreatedPayment := do
  let processor ← Async.ofExcept (cfg.factory.resolve selector)
  let operation ← ask
    (.findByKey ownerId processor.name request.idempotencyKey)
  match operation with
  | none => insertAndCreate processor request ownerId (cfg.fingerprint request)
  | some operation => createExisting processor request (cfg.fingerprint request) operation

def createPayment (ownerId : String) : Program CreatedPayment :=
  if truthy (effectiveQuoteId request) then do
    validateRateQuote ((effectiveQuoteId request).getD "")
    createResolved cfg request selector ownerId
  else createResolved cfg request selector ownerId

/-! ## Signing -/

/-- The states in which `signTransaction` replays a stored signature. -/
def PaymentOperationState.isSigned : PaymentOperationState → Bool
  | .signed | .submitting | .recoveryRequired | .submitted => true
  | _ => false

def signTransaction (cfg : ServiceConfig) (created : CreatedPayment)
    (selector : Option String) (ownerId : String) : Program SignedTransaction := do
  let operation ← findOperation created.paymentId ownerId
  let processor ← Async.ofExcept (resolveOperationProcessor cfg operation selector)
  if truthy operation.signedPayload && operation.state.isSigned then
    .done
      { paymentId := operation.paymentId.getD "", signedPayload := operation.signedPayload.getD "",
        signerAddress := operation.signerAddress }
  else match operation.createdPayment with
    | none => .fail (recoveryConflict operation)
    | some stored => do
        let signed ← ask (.signTransaction processor.name stored)
        let operation := { operation with
          signedPayload := some signed.signedPayload, signerAddress := signed.signerAddress,
          state := .signed, lastError := none }
        let _ ← ask (.save operation)
        .done signed

/-! ## Submitting -/

def submissionFailed (e : Failure) : Program (Option SubmittedTransaction) := do
  let operation := { operation with
    state := .recoveryRequired, lastError := some (errorMessage e) }
  let _ ← ask (.save operation)
  .fail (recoveryRequired operation)

/-- The final `try` of `submitTransaction`: submit and checkpoint the outcome. -/
def sendSubmission : Program (Option SubmittedTransaction) := do
  let answer ← (ask (.submitTransaction processor.name signed)).attempt
  match answer with
  | .error e => submissionFailed operation e
  | .ok submitted =>
    let operation := { operation with
      transactionHash := some submitted.transactionHash, submittedTransaction := some submitted,
      state := .submitted, lastError := none }
    let saved ← (ask (.save operation)).attempt
    match saved with
    | .error e => submissionFailed operation e
    | .ok _ => .done (some submitted)

/-- `operation.transactionHash ?? processor.getSubmissionHash?.(signed) ?? null`. -/
def submissionHash (signed : SignedTransaction) : Except Failure (Option String) :=
  match operation.transactionHash with
  | some hash => .ok (some hash)
  | none =>
    match processor.getSubmissionHash with
    | none => .ok none
    | some getSubmissionHash => (getSubmissionHash signed).map some

def claimLost : Program (Option SubmittedTransaction) := do
  let latest ← ask (.findById operation.operationId)
  match latest with
  | none => .fail (recoveryRequired operation)
  | some latest =>
    if latest.state = .submitted then .done latest.submittedTransaction
    else .fail (recoveryRequired latest)

/-- The first submission of a signed payload: claim the row, then submit. -/
def claimAndSubmit : Program (Option SubmittedTransaction) := do
  let hash ← Async.ofExcept (submissionHash processor operation signed)
  let affected : Nat ← ask (.claim operation.operationId hash)
  if affected = 0 then claimLost operation
  else
    sendSubmission processor signed
      { operation with state := .submitting, transactionHash := hash }

/-- A retry of a submission that may have been sent before. -/
def resubmit : Program (Option SubmittedTransaction) := do
  let hash ← Async.ofExcept (submissionHash processor operation signed)
  let operation := { operation with transactionHash := hash, state := .submitting }
  let _ ← ask (.save operation)
  sendSubmission processor signed operation

def statusUnknown (e : Failure) : Program (Option SubmittedTransaction) :=
  if processor.supportsSafeSubmissionRetry then resubmit processor signed operation
  else submissionFailed operation e

/-- An interrupted submission: ask the processor for its status first. -/
def reconcileSubmission : Program (Option SubmittedTransaction) := do
  let answer ← (ask (.getStatus processor.name
    (operation.transactionHash.getD (operation.paymentId.getD "")))).attempt
  match answer with
  | .error e => statusUnknown processor signed operation e
  | .ok status =>
    if status.status ≠ .pending then do
      let submitted : SubmittedTransaction :=
        { paymentId := operation.paymentId.getD ""
          transactionHash := status.transactionHash.getD
            (operation.transactionHash.getD (operation.paymentId.getD ""))
          status := status.status
          raw := status.raw }
      let operation := { operation with
        transactionHash := some submitted.transactionHash, submittedTransaction := some submitted,
        state := .submitted, lastError := none }
      let saved ← (ask (.save operation)).attempt
      match saved with
      | .error e => statusUnknown processor signed operation e
      | .ok _ => .done (some submitted)
    else if processor.supportsSafeSubmissionRetry then
      resubmit processor signed operation
    else .fail (recoveryRequired operation)

/-- Whether a payload signed by the client may be adopted for this row. -/
def acceptsClientSignature (signed : SignedTransaction) : Except Failure Bool :=
  if truthy operation.signedPayload || operation.state ≠ .created then .ok false
  else match operation.createdPayment, processor.matchesCreatedPayment with
    | some created, some matchesCreatedPayment => matchesCreatedPayment created signed
    | _, _ => .ok false

/-- The client-signed branch: adopt and checkpoint the payload. -/
def adoptClientSignature : Program PaymentOperation := do
  let accepted ← Async.ofExcept (acceptsClientSignature processor operation signed)
  if accepted then do
    let operation := { operation with
      signedPayload := some signed.signedPayload, state := .signed }
    let _ ← ask (.save operation)
    .done operation
  else .done operation

/-- The part of `submitTransaction` after the row has been loaded and, where the
client signed, its payload adopted. -/
def submitLoaded : Program (Option SubmittedTransaction) :=
  if truthy operation.signedPayload = false ∨
      operation.signedPayload ≠ some signed.signedPayload then
    .fail (.conflict "The signed transaction does not match the saved recovery checkpoint.")
  else if operation.state = .submitting ∨ operation.state = .recoveryRequired then
    reconcileSubmission processor signed operation
  else claimAndSubmit processor signed operation

/-- `submitTransaction` on the row it has loaded. -/
def submitFound : Program (Option SubmittedTransaction) := do
  let processor ← Async.ofExcept (resolveOperationProcessor cfg operation selector)
  if operation.state = .submitted then .done operation.submittedTransaction
  else do
    let operation ← adoptClientSignature processor signed operation
    submitLoaded processor signed operation

def submitTransaction (ownerId : String) : Program (Option SubmittedTransaction) := do
  let operation ← findOperation signed.paymentId ownerId
  submitFound cfg signed selector operation

def signAndSubmit (created : CreatedPayment) (selector : Option String) (ownerId : String) :
    Program (Option SubmittedTransaction) := do
  let signed ← signTransaction cfg created selector ownerId
  submitTransaction cfg signed selector ownerId

/-- What `resumePayment` answers when only the client can sign. -/
def clientSignatureRequired (paymentId : String) : Failure :=
  .conflict ("A client signature is required. Sign the saved transaction, then POST " ++
    "/payments/" ++ paymentId ++ "/submit.")

/-- `resumePayment` on the row it has loaded. -/
def resumeFound (paymentId ownerId : String)
    (operation : PaymentOperation) : Program (Option SubmittedTransaction) :=
  if operation.state = .submitted then .done operation.submittedTransaction
  else do
    let processor ← Async.ofExcept (resolveOperationProcessor cfg operation none)
    if truthy operation.signedPayload then
      submitTransaction cfg
        { paymentId := paymentId, signedPayload := operation.signedPayload.getD "" }
        (some operation.processorName) ownerId
    else match operation.createdPayment with
      | some created =>
        if processor.requiresClientSideSigning then .fail (clientSignatureRequired paymentId)
        else do
          let signed ← signTransaction cfg created (some operation.processorName) ownerId
          submitTransaction cfg signed (some operation.processorName) ownerId
      | none => .fail (clientSignatureRequired paymentId)

def resumePayment (paymentId ownerId : String) : Program (Option SubmittedTransaction) := do
  let operation ← findOperation paymentId ownerId
  resumeFound cfg paymentId ownerId operation

/-! ## Requests -/

inductive Request where
  | createPayment (request : PaymentRequest) (selector : Option String) (ownerId : String)
  | signTransaction (created : CreatedPayment) (selector : Option String) (ownerId : String)
  | submitTransaction (signed : SignedTransaction) (selector : Option String) (ownerId : String)
  | signAndSubmit (created : CreatedPayment) (selector : Option String) (ownerId : String)
  | resumePayment (paymentId ownerId : String)

def Request.creates : Request → Bool
  | .createPayment _ _ _ => true
  | _ => false

inductive Reply where
  | created (payment : CreatedPayment)
  | signed (transaction : SignedTransaction)
  | submitted (transaction : Option SubmittedTransaction)

def Request.program : Request → Program Reply
  | .createPayment request selector ownerId => do
      let payment ← Payments.createPayment cfg request selector ownerId
      .done (.created payment)
  | .signTransaction created selector ownerId => do
      let transaction ← Payments.signTransaction cfg created selector ownerId
      .done (.signed transaction)
  | .submitTransaction signed selector ownerId => do
      let transaction ← Payments.submitTransaction cfg signed selector ownerId
      .done (.submitted transaction)
  | .signAndSubmit created selector ownerId => do
      let transaction ← Payments.signAndSubmit cfg created selector ownerId
      .done (.submitted transaction)
  | .resumePayment paymentId ownerId => do
      let transaction ← Payments.resumePayment cfg paymentId ownerId
      .done (.submitted transaction)

abbrev PaymentsPool (ι : Type) : Type :=
  Pool paymentsInterface Failure ι (World ι) Reply

def startPool {ι : Type} (requests : ι → Request)
    (row : Option PaymentOperation) : PaymentsPool ι where
  world := { row := row }
  calls i := (requests i).program cfg

end Trellis.Payments
