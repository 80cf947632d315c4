import Trellis.Core.Async
import Trellis.Core.Table
import Trellis.Reconciliation.Amount
import Mathlib.Data.List.Sort

/-!
# The reconciliation service

The entities of `reconciliation/entities`, the variance policy, and `createInvoice`,
`ingestTransaction` and `manualReconcile` of `reconciliation.service.ts`. A loaded entity is a
local copy; `save` writes back every column.
-/

namespace Trellis.Reconciliation

open Core Async

/-! ## Entities -/

/-- `ReconciliationInvoiceStatus`; `partly` is `PARTIAL`. -/
inductive InvoiceStatus where
  | opened | partly | paid | failed

structure Invoice where
  invoiceId : String
  expectedAmount : String
  paidAmount : String
  assetCode : String
  destinationAccount : String
  paymentReference : Option String := none
  status : InvoiceStatus

/-- `StellarTransactionStatus`; `partly` is `PARTIAL`. -/
inductive TransactionStatus where
  | unmatched | partly | matched | failed
  deriving DecidableEq

structure StellarTransaction where
  transactionId : String
  ledger : Option String := none
  sourceAccount : Option String := none
  destinationAccount : String
  amount : String
  assetCode : String
  memo : Option String := none
  paymentReference : Option String := none
  observedAt : Nat
  status : TransactionStatus
  failureReason : Option String := none

/-- `ReconciliationDecision`; `partly` is `PARTIAL`. -/
inductive Decision where
  | matched | partly | unmatched | failed | retry
  deriving DecidableEq

structure Audit where
  invoiceId : Option String := none
  transactionId : Option String := none
  decision : Decision
  reason : String
  attempt : Nat
  metadata : List (String × String)

/-! ## The variance policy -/

inductive VarianceDisposition where
  | withinTolerance | autoReimburse | manualReview
  deriving DecidableEq

structure VarianceEvaluation where
  referenceId : String
  expectedAmount : String
  actualAmount : String
  variance : String
  disposition : VarianceDisposition
  alertRequired : Bool
  auditRequired : Bool

structure VarianceConfig where
  alertThreshold : Option String := none
  autoReimbursementMaxLimit : Option String := none

/-- `evaluate`; what it emits follows from the evaluation. -/
def VarianceConfig.evaluate (cfg : VarianceConfig)
    (referenceId expectedAmount actualAmount : String) :
    Except Failure VarianceEvaluation := do
  let expected ← toUnits "reconciliation" expectedAmount
  let actual ← toUnits "reconciliation" actualAmount
  let absoluteVariance := if expected ≥ actual then expected - actual else actual - expected
  let alertThreshold ← toUnits "reconciliation" (cfg.alertThreshold.getD "0.0100000")
  let reimbursementCap ← toUnits "reconciliation" (cfg.autoReimbursementMaxLimit.getD "1.0000000")
  let disposition : VarianceDisposition :=
    if absoluteVariance = 0 then .withinTolerance
    else if absoluteVariance < reimbursementCap ∧ absoluteVariance < alertThreshold then
      .autoReimburse
    else .manualReview
  return {
    referenceId := referenceId
    expectedAmount := fromUnits expected
    actualAmount := fromUnits actual
    variance := fromUnits absoluteVariance
    disposition := disposition
    alertRequired := absoluteVariance ≥ alertThreshold
    auditRequired := disposition ≠ .withinTolerance }

/-! ## Awaited operations -/

inductive Op where
  | findInvoice (invoiceId : String)
  | findOldestInvoice (destinationAccount : String)
  | saveInvoice (invoice : Invoice)
  | findTransaction (transactionId : String)
  | findTransactions (destinationAccount assetCode : String) (statuses : List TransactionStatus)
  | saveTransaction (transaction : StellarTransaction)
  | saveAudit (audit : Audit)
  | findAudits (invoiceId : String)
  | now

def Op.Res : Op → Type
  | .findInvoice _ | .findOldestInvoice _ => Option Invoice
  | .saveInvoice _ => Invoice
  | .findTransaction _ => Option StellarTransaction
  | .findTransactions _ _ _ => List StellarTransaction
  | .saveTransaction _ => StellarTransaction
  | .saveAudit _ => Audit
  | .findAudits _ => List Audit
  | .now => Nat

abbrev reconciliationInterface : Interface :=
  ⟨Op, Op.Res⟩

abbrev Program (α : Type) : Type :=
  Async reconciliationInterface Failure α

abbrev ask (op : reconciliationInterface.Op) : Program (reconciliationInterface.Res op) :=
  .call op

/-- The three tables, rows in the order of creation, and the clock. -/
structure World where
  invoices : List Invoice := []
  transactions : List StellarTransaction := []
  audits : List Audit := []
  clock : Nat := 0

def byObservedAt (transactions : List StellarTransaction) : List StellarTransaction :=
  transactions.insertionSort fun t t' => t.observedAt ≤ t'.observedAt

variable (w : World)

def World.selectTransactions (destinationAccount assetCode : String)
    (statuses : List TransactionStatus) : List StellarTransaction :=
  byObservedAt (w.transactions.filter fun t =>
    t.destinationAccount = destinationAccount ∧ t.assetCode = assetCode ∧ t.status ∈ statuses)

variable (cfg : ServiceConfig) (dto : IngestTransactionDto) (transaction : StellarTransaction)
  (invoice : Invoice)

def World.withInvoice : World :=
  { w with invoices := upsert (·.invoiceId) invoice w.invoices }

def World.withTransaction : World :=
  { w with transactions := upsert (·.transactionId) transaction w.transactions }

def World.audited (audit : Audit) : World :=
  { w with audits := w.audits ++ [audit] }

def World.perform : (op : Op) → World → Except Failure op.Res × World
  | .findInvoice invoiceId, w => (.ok (w.invoices.find? (·.invoiceId = invoiceId)), w)
  | .findOldestInvoice destinationAccount, w =>
    (.ok (w.invoices.find? (·.destinationAccount = destinationAccount)), w)
  | .saveInvoice invoice, w => (.ok invoice, w.withInvoice invoice)
  | .findTransaction transactionId, w =>
    (.ok (w.transactions.find? (·.transactionId = transactionId)), w)
  | .findTransactions destinationAccount assetCode statuses, w =>
    (.ok (w.selectTransactions destinationAccount assetCode statuses), w)
  | .saveTransaction transaction, w => (.ok transaction, w.withTransaction transaction)
  | .saveAudit audit, w => (.ok audit, w.audited audit)
  | .findAudits invoiceId, w =>
    (.ok (w.audits.filter (·.invoiceId = some invoiceId)).reverse, w)
  | .now, w => (.ok w.clock, w)

def findInvoice (invoiceId : String) : Program (Option Invoice) :=
  ask (.findInvoice invoiceId)

def findOldestInvoice (destinationAccount : String) : Program (Option Invoice) :=
  ask (.findOldestInvoice destinationAccount)

def saveInvoice (invoice : Invoice) : Program Invoice :=
  ask (.saveInvoice invoice)

def findTransaction (transactionId : String) : Program (Option StellarTransaction) :=
  ask (.findTransaction transactionId)

def findTransactions (destinationAccount assetCode : String)
    (statuses : List TransactionStatus) : Program (List StellarTransaction) :=
  ask
    (.findTransactions destinationAccount assetCode statuses)

def saveTransaction (transaction : StellarTransaction) : Program StellarTransaction :=
  ask (.saveTransaction transaction)

def writeAudit (audit : Audit) : Program Audit :=
  ask (.saveAudit audit)

def findAudits (invoiceId : String) : Program (List Audit) :=
  ask (.findAudits invoiceId)

def now : Program Nat :=
  ask .now

section Eval

variable (w : World)

@[simp]
theorem eval_findInvoice (invoiceId : String) : eval World.perform (findInvoice invoiceId) w =
      (.ok (w.invoices.find? (·.invoiceId = invoiceId)), w) :=
  rfl

@[simp]
theorem eval_saveInvoice (invoice : Invoice) :
    eval World.perform (saveInvoice invoice) w = (.ok invoice, w.withInvoice invoice) :=
  rfl

@[simp]
theorem eval_findTransactions (destinationAccount assetCode : String)
    (statuses : List TransactionStatus) :
    eval World.perform (findTransactions destinationAccount assetCode statuses) w =
      (.ok (w.selectTransactions destinationAccount assetCode statuses), w) :=
  rfl

@[simp]
theorem eval_saveTransaction (transaction : StellarTransaction) :
    eval World.perform (saveTransaction transaction) w =
      (.ok transaction, w.withTransaction transaction) :=
  rfl

@[simp]
theorem eval_writeAudit (audit : Audit) :
    eval World.perform (writeAudit audit) w = (.ok audit, w.audited audit) :=
  rfl

end Eval

/-! ## Matching and crediting -/

/-- What the service is constructed with: the optional variance policy, and the
runtime's `toUpperCase`. -/
structure ServiceConfig where
  variance : Option VarianceConfig := none
  toUpperCase : String → String := id

def matchesInvoice : Bool :=
  if transaction.destinationAccount ≠ invoice.destinationAccount then false
  else if transaction.assetCode ≠ invoice.assetCode then false
  else if truthy invoice.paymentReference &&
      decide (invoice.paymentReference ≠ transaction.paymentReference) then false
  else true

/-- The branch of `reconcileTransaction` without a matching invoice. -/
def leaveUnmatched (invoiceId : Option String)
    (reason : Option String) : Program StellarTransaction := do
  let _ ← writeAudit
    { invoiceId, transactionId := some transaction.transactionId, decision := .unmatched,
      reason := reason.getD "No invoice matched destination, asset, and reference", attempt := 0,
      metadata := [("destinationAccount", transaction.destinationAccount)] }
  .done { transaction with status := .unmatched }

def creditAudit (isPaid : Bool) (reason : Option String) : Audit where
  invoiceId := some invoice.invoiceId
  transactionId := some transaction.transactionId
  decision := if isPaid then .matched else .partly
  reason := reason.getD (if isPaid then "Invoice fully paid" else "Invoice partially paid")
  attempt := 0
  metadata := [("expectedAmount", invoice.expectedAmount), ("paidAmount", invoice.paidAmount),
    ("assetCode", invoice.assetCode)]

def evaluateVariance (isPaid : Bool) : Except Failure Unit :=
  match isPaid, cfg.variance with
  | true, some variance =>
    (variance.evaluate invoice.invoiceId invoice.expectedAmount invoice.paidAmount).map fun _ => ()
  | _, _ => .ok ()

variable (reason : Option String)

/-- The branch of `reconcileTransaction` that credits the transaction. -/
def credit : Program StellarTransaction := do
  let paidBefore ← ofExcept (toUnits "Stellar" invoice.paidAmount)
  let amount ← ofExcept (toUnits "Stellar" transaction.amount)
  let expectedUnits ← ofExcept (toUnits "Stellar" invoice.expectedAmount)
  let paidUnits := paidBefore + amount
  let isPaid : Bool := paidUnits ≥ expectedUnits
  let invoice := { invoice with
    paidAmount := fromUnits paidUnits
    status := if isPaid then .paid else .partly }
  let _ ← saveInvoice invoice
  let _ ← writeAudit (creditAudit transaction invoice isPaid reason)
  let _ ← ofExcept (evaluateVariance cfg invoice isPaid)
  .done { transaction with status := if isPaid then .matched else .partly }

/-- `reconcileTransaction` once the oldest invoice of the destination is known. -/
def reconcileWith : Option Invoice → Program StellarTransaction
  | none => leaveUnmatched transaction none reason
  | some invoice =>
    if matchesInvoice transaction invoice then credit cfg transaction invoice reason
    else leaveUnmatched transaction (some invoice.invoiceId) reason

/-- `reconcileTransaction`: the transaction as its caller saves it. -/
def reconcileTransaction : Program StellarTransaction := do
  let invoice ← findOldestInvoice transaction.destinationAccount
  reconcileWith cfg transaction reason invoice

def reconcileCandidates (cfg : ServiceConfig) (invoice : Invoice) (reason : String) :
    List StellarTransaction → Program Unit
  | [] => .done ()
  | transaction :: candidates =>
    if matchesInvoice transaction invoice then do
      let reconciled ← reconcileTransaction cfg transaction (some reason)
      let _ ← saveTransaction reconciled
      reconcileCandidates cfg invoice reason candidates
    else reconcileCandidates cfg invoice reason candidates

/-! ## Entry points -/

structure CreateInvoiceDto where
  invoiceId : String
  expectedAmount : String
  destinationAccount : String
  paymentReference : Option String := none
  assetCode : Option String := none

def newInvoice (dto : CreateInvoiceDto) (expectedAmount : String) : Invoice where
  invoiceId := dto.invoiceId
  expectedAmount := expectedAmount
  paidAmount := "0.0000000"
  assetCode := cfg.toUpperCase (dto.assetCode.getD "XLM")
  destinationAccount := dto.destinationAccount
  paymentReference := dto.paymentReference
  status := .opened

def createInvoiceWith (dto : CreateInvoiceDto) : Option Invoice → Program Invoice
  | some existing => .done existing
  | none => do
      let expectedAmount ← ofExcept (normalizeAmount "Stellar" dto.expectedAmount)
      let saved ← saveInvoice (newInvoice cfg dto expectedAmount)
      let candidates ← findTransactions saved.destinationAccount saved.assetCode [.unmatched]
      reconcileCandidates cfg saved "Invoice registered after payment" candidates
      .done saved

def createInvoice (dto : CreateInvoiceDto) : Program Invoice := do
  let existing ← findInvoice dto.invoiceId
  createInvoiceWith cfg dto existing

/-- `IngestStellarTransactionDto`; `observedAt` is the instant the text denotes. -/
structure IngestTransactionDto where
  transactionId : String
  ledger : Option String := none
  sourceAccount : Option String := none
  destinationAccount : String
  amount : String
  assetCode : Option String := none
  memo : Option String := none
  observedAt : Option Nat := none

/-- `dto.observedAt ? new Date(dto.observedAt) : new Date()`. -/
def observedAtOf : Program Nat :=
  match dto.observedAt with
  | some observedAt => .done observedAt
  | none => now

/-- The `try` of `ingestTransaction` and its `catch`. -/
def reconcileIngested (saved : StellarTransaction) : Program StellarTransaction := do
  let outcome ← (reconcileTransaction cfg saved none).attempt
  match outcome with
  | .ok reconciled => .done reconciled
  | .error e => do
      let _ ← writeAudit
        { transactionId := some saved.transactionId, decision := .failed, reason := e.text,
          attempt := 1, metadata := [("retryable", "true")] }
      .done { saved with status := .failed, failureReason := some e.text }

def newTransaction (amount : String) (observedAt : Nat) : StellarTransaction where
  transactionId := dto.transactionId
  ledger := dto.ledger
  sourceAccount := dto.sourceAccount
  destinationAccount := dto.destinationAccount
  amount := amount
  assetCode := cfg.toUpperCase (dto.assetCode.getD "XLM")
  memo := dto.memo
  paymentReference := dto.memo
  observedAt := observedAt
  status := .unmatched

/-- The part of `ingestTransaction` from the first save on. -/
def storeAndReconcile : Program StellarTransaction := do
  let saved ← saveTransaction transaction
  let reconciled ← reconcileIngested cfg saved
  saveTransaction reconciled

def ingestTransactionWith : Option StellarTransaction → Program StellarTransaction
  | some existing => do
      let _ ← writeAudit
        { transactionId := some existing.transactionId, decision := .retry,
          reason := "Duplicate transaction event ignored", attempt := 0,
          metadata := [("idempotent", "true")] }
      .done existing
  | none => do
      let amount ← ofExcept (normalizeAmount "Stellar" dto.amount)
      let observedAt ← observedAtOf dto
      storeAndReconcile cfg (newTransaction cfg dto amount observedAt)

def ingestTransaction : Program StellarTransaction := do
  let existing ← findTransaction dto.transactionId
  ingestTransactionWith cfg dto existing

def getInvoice (invoiceId : String) : Program (Invoice × List Audit) := do
  let invoice ← findInvoice invoiceId
  match invoice with
  | none => .fail (.notFound ("Invoice " ++ invoiceId ++ " not found"))
  | some invoice => do
      let audits ← findAudits invoiceId
      .done (invoice, audits)

def manualReconcileWith (invoiceId : String) (note : Option String) :
    Option Invoice → Program (Invoice × List Audit)
  | none => .fail (.notFound ("Invoice " ++ invoiceId ++ " not found"))
  | some invoice => do
      let candidates ← findTransactions invoice.destinationAccount invoice.assetCode
        [.unmatched, .partly]
      reconcileCandidates cfg invoice (note.getD "Manual retry") candidates
      getInvoice invoiceId

def manualReconcile (invoiceId : String) (note : Option String) :
    Program (Invoice × List Audit) := do
  let invoice ← findInvoice invoiceId
  manualReconcileWith cfg invoiceId note invoice

inductive Request where
  | createInvoice (dto : CreateInvoiceDto)
  | ingestTransaction (dto : IngestTransactionDto)
  | manualReconcile (invoiceId : String) (note : Option String)

def Request.run (now : Nat) (request : Request) (w : World) : World :=
  let w := { w with clock := now }
  match request with
  | .createInvoice dto => (eval World.perform (Reconciliation.createInvoice cfg dto) w).2
  | .ingestTransaction dto =>
    (eval World.perform (Reconciliation.ingestTransaction cfg dto) w).2
  | .manualReconcile invoiceId note =>
    (eval World.perform (Reconciliation.manualReconcile cfg invoiceId note) w).2

end Trellis.Reconciliation
