import Trellis.Core.Pool
import Trellis.Payments.Processor

/-!
# Payment operations

The row of `payment_operations` (`payment-operation.entity.ts`), the operations the payments
service awaits, and how the repository and the processor answer them. The world holds one row,
addressed by its unique `(ownerId, processorName, idempotencyKey)` or by its payment id. `save`
writes back every column, the conditional `update` is atomic, and there is no version column.
Beside the row the world keeps what no code reads: the calls whose view of the row is up to date,
the calls whose conditional update matched, and the invocations of `processor.submitTransaction`.
-/

namespace Trellis.Payments

open Core

inductive PaymentOperationState where
  | creating | created | signed | submitting | submitted | recoveryRequired
  deriving DecidableEq

structure PaymentOperation where
  operationId : String
  ownerId : String
  processorName : String
  idempotencyKey : String
  requestFingerprint : String
  state : PaymentOperationState
  paymentId : Option String := none
  createdPayment : Option CreatedPayment := none
  signedPayload : Option String := none
  signerAddress : Option String := none
  transactionHash : Option String := none
  submittedTransaction : Option SubmittedTransaction := none
  lastError : Option String := none
  updatedAt : Nat := 0
  deriving DecidableEq

/-! ## Awaited operations -/

/-- The repository and processor calls of the service.  `claim` is the update
conditional on state `SIGNED`; `insert` is `save` of an entity without a row. -/
inductive Op where
  | findByPayment (paymentId ownerId : String)
  | findByKey (ownerId processorName idempotencyKey : String)
  | findById (operationId : String)
  | insert (operation : PaymentOperation)
  | save (operation : PaymentOperation)
  | claim (operationId : String) (transactionHash : Option String)
  | now
  | retrieveRateLock (quoteId : String)
  | createPayment (processor : String) (request : PaymentRequest)
  | signTransaction (processor : String) (created : CreatedPayment)
  | submitTransaction (processor : String) (signed : SignedTransaction)
  | getStatus (processor : String) (paymentId : String)

/-- What each operation resolves to.  A rate lock resolves to the expiry of its
quote, a claim to the number of affected rows. -/
def Op.Res : Op → Type
  | .findByPayment _ _ | .findByKey _ _ _ | .findById _ => Option PaymentOperation
  | .insert _ | .save _ => PaymentOperation
  | .claim _ _ => Nat
  | .now => Nat
  | .retrieveRateLock _ => Option Nat
  | .createPayment _ _ => CreatedPayment
  | .signTransaction _ _ => SignedTransaction
  | .submitTransaction _ _ => SubmittedTransaction
  | .getStatus _ _ => PaymentStatusResult

abbrev paymentsInterface : Interface :=
  ⟨Op, Op.Res⟩

abbrev Program (α : Type) : Type :=
  Async paymentsInterface Failure α

abbrev ask (op : paymentsInterface.Op) : Program (paymentsInterface.Res op) :=
  .call op

/-! ## The world -/

/-- The stored row and the clock.  `current` lists the calls that have read or
written the row since it was last written; the other two fields are logs. -/
structure World (ι : Type) where
  row : Option PaymentOperation
  clock : Nat := 0
  current : List ι := []
  claims : List ι := []
  submissions : List (ι × SignedTransaction) := []

inductive Choice where
  | serve
  | reject (e : Failure)
  | generated (operationId : String)
  | rateLock (expiresAt : Option Nat)
  | created (payment : CreatedPayment)
  | signed (transaction : SignedTransaction)
  | submitted (transaction : SubmittedTransaction)
  | status (result : PaymentStatusResult)

namespace World

variable {ι : Type}

def findOne (w : World ι) (p : PaymentOperation → Bool) : Option PaymentOperation :=
  w.row.filter p

def seenBy (w : World ι) (i : ι) : World ι :=
  { w with current := i :: w.current }

/-- Call `i` writes back every column of `operation`; the update timestamp is the
clock. -/
def store (w : World ι) (i : ι) (operation : PaymentOperation) : World ι :=
  { w with row := some { operation with updatedAt := w.clock }, current := [i] }

def claim (w : World ι) (i : ι) (operationId : String)
    (transactionHash : Option String) : Nat × World ι :=
  match w.findOne fun row => row.operationId = operationId ∧ row.state = .signed with
  | none => (0, w)
  | some row => (1, { w with
      row := some { row with
        state := .submitting, transactionHash, lastError := none, updatedAt := w.clock }
      current := [i]
      claims := w.claims ++ [i] })

/-- Record one invocation of `processor.submitTransaction`. -/
def recordSubmission (w : World ι) (i : ι) (signed : SignedTransaction) : World ι :=
  { w with submissions := w.submissions ++ [(i, signed)] }

/-- Answer one operation of call `i`.  A rejected repository operation has no
effect; a rejected submission has still been invoked. -/
def perform (i : ι) : (op : Op) → Choice → World ι → Option (Except Failure op.Res × World ι)
  | .findByPayment paymentId ownerId, .serve, w =>
    some (.ok (w.findOne fun row =>
      row.paymentId = some paymentId ∧ row.ownerId = ownerId), w.seenBy i)
  | .findByKey ownerId processorName idempotencyKey, .serve, w =>
    some (.ok (w.findOne fun row => row.ownerId = ownerId ∧
      row.processorName = processorName ∧ row.idempotencyKey = idempotencyKey), w.seenBy i)
  | .findById operationId, .serve, w =>
    some (.ok (w.findOne fun row => row.operationId = operationId), w.seenBy i)
  | .insert operation, .generated operationId, w =>
    match w.row with
    | some row =>
      -- a row with another key belongs to another operation, outside this world
      if row.ownerId = operation.ownerId ∧ row.processorName = operation.processorName ∧
          row.idempotencyKey = operation.idempotencyKey then
        some (.error (.error "duplicate key value violates unique constraint"), w)
      else none
    | none =>
      some (.ok { operation with operationId := operationId, updatedAt := w.clock },
        w.store i { operation with operationId := operationId })
  | .save operation, .serve, w =>
    some (.ok { operation with updatedAt := w.clock }, w.store i operation)
  | .claim operationId transactionHash, .serve, w =>
    some (.ok (w.claim i operationId transactionHash).1, (w.claim i operationId transactionHash).2)
  | .now, .serve, w => some (.ok w.clock, w)
  | .retrieveRateLock _, .rateLock expiresAt, w => some (.ok expiresAt, w)
  | .createPayment _ _, .created payment, w => some (.ok payment, w)
  | .signTransaction _ _, .signed transaction, w => some (.ok transaction, w)
  | .submitTransaction _ signed, .submitted transaction, w =>
    some (.ok transaction, w.recordSubmission i signed)
  | .submitTransaction _ signed, .reject e, w =>
    some (.error e, w.recordSubmission i signed)
  | .getStatus _ _, .status result, w => some (.ok result, w)
  | .now, .reject _, _ | .retrieveRateLock _, .reject _, _ => none
  | _, .reject e, w => some (.error e, w)
  | _, _, _ => none

end World

/-- How the repository, the processor and the clock answer the service. -/
def paymentsSemantics (ι : Type) : Semantics paymentsInterface Failure ι (World ι) where
  Choice := Choice
  perform := World.perform
  Event := Nat
  happen d w := { w with clock := w.clock + d }

/-! ## What one operation can do -/

section Perform

variable {ι : Type} {i : ι} {c : Choice} {w w' : World ι}

def Op.isRead : Op → Bool
  | .insert _ | .save _ | .claim _ _ | .submitTransaction _ _ => false
  | _ => true

theorem perform_read {op : Op} {r : Except Failure op.Res} (hread : op.isRead = true)
    (h : World.perform i op c w = some (r, w')) : w' = w ∨ w' = w.seenBy i := by
  cases op <;> cases c <;> simp_all [Op.isRead, World.perform]

variable {r : Except Failure (Option PaymentOperation)} {ownerId : String}

theorem perform_findByPayment {paymentId : String}
    (h : World.perform i (.findByPayment paymentId ownerId) c w = some (r, w')) :
    (w' = w ∧ ∃ e, r = .error e) ∨ (w' = w.seenBy i ∧ r = .ok (w.findOne fun row =>
      row.paymentId = some paymentId ∧ row.ownerId = ownerId)) := by
  cases c <;> cases h
  · exact Or.inr ⟨rfl, rfl⟩
  · exact Or.inl ⟨rfl, _, rfl⟩

theorem perform_findByKey {processorName idempotencyKey : String}
    (h : World.perform i (.findByKey ownerId processorName idempotencyKey) c w = some (r, w')) :
    (w' = w ∧ ∃ e, r = .error e) ∨ (w' = w.seenBy i ∧ r = .ok (w.findOne fun row =>
      row.ownerId = ownerId ∧ row.processorName = processorName ∧
        row.idempotencyKey = idempotencyKey)) := by
  cases c <;> cases h
  · exact Or.inr ⟨rfl, rfl⟩
  · exact Or.inl ⟨rfl, _, rfl⟩

variable {operationId : String}

theorem perform_findById (h : World.perform i (.findById operationId) c w = some (r, w')) :
    (w' = w ∧ ∃ e, r = .error e) ∨ (w' = w.seenBy i ∧
      r = .ok (w.findOne fun row => row.operationId = operationId)) := by
  cases c <;> cases h
  · exact Or.inr ⟨rfl, rfl⟩
  · exact Or.inl ⟨rfl, _, rfl⟩

variable {operation : PaymentOperation} {r : Except Failure PaymentOperation}

theorem perform_save (h : World.perform i (.save operation) c w = some (r, w')) :
    (w' = w ∧ ∃ e, r = .error e) ∨ (c = .serve ∧ w' = w.store i operation ∧
      r = .ok { operation with updatedAt := w.clock }) := by
  cases c <;> cases h
  · exact Or.inr ⟨rfl, rfl, rfl⟩
  · exact Or.inl ⟨rfl, _, rfl⟩

theorem perform_insert (h : World.perform i (.insert operation) c w = some (r, w')) :
    (w' = w ∧ ∃ e, r = .error e) ∨ (w.row = none ∧ ∃ operationId,
      w' = w.store i { operation with operationId := operationId } ∧
      r = .ok { operation with operationId := operationId, updatedAt := w.clock }) := by
  cases c with
  | generated operationId =>
    simp only [World.perform] at h
    split at h
    · split at h <;> cases h
      exact Or.inl ⟨rfl, _, rfl⟩
    · rename_i hrow
      cases h
      exact Or.inr ⟨hrow, operationId, rfl, rfl⟩
  | reject e =>
    cases h
    exact Or.inl ⟨rfl, e, rfl⟩
  | _ => cases h

theorem perform_submitTransaction {processor : String} {signed : SignedTransaction}
    {r : Except Failure SubmittedTransaction}
    (h : World.perform i (.submitTransaction processor signed) c w = some (r, w')) :
    w' = w.recordSubmission i signed := by
  cases c <;> cases h <;> rfl

theorem perform_claim {transactionHash : Option String} {r : Except Failure Nat}
    (h : World.perform i (.claim operationId transactionHash) c w = some (r, w')) :
    (w' = w ∧ ((∃ e, r = .error e) ∨ r = .ok 0)) ∨
      ∃ row, w.row = some row ∧ row.state = .signed ∧ r = .ok 1 ∧ w' = { w with
          row := some { row with
            state := .submitting, transactionHash, lastError := none, updatedAt := w.clock }
          current := [i]
          claims := w.claims ++ [i] } := by
  cases c <;> cases h
  · simp only [World.claim]
    split <;> rename_i hfind
    · exact Or.inl ⟨rfl, Or.inr rfl⟩
    · rename_i row
      simp only [World.findOne, Option.filter_eq_some_iff] at hfind
      have hstate : row.state = .signed := by simp_all
      exact Or.inr ⟨row, hfind.1, hstate, rfl, rfl⟩
  · exact Or.inl ⟨rfl, Or.inl ⟨_, rfl⟩⟩

end Perform

end Trellis.Payments
