import Trellis.Core.Parallel
import Trellis.Core.Pool
import Trellis.Oracle.Payload

/-!
# Batches of submissions

The batches of `submission-batch.service.ts`. The transaction of a submission is simulated there;
what a call starts and does not await runs on beside it.
-/

namespace Trellis.Oracle

open Core

/-! ## Awaited operations -/

inductive PayloadQuery where
  | pendingUnsigned (take : Int)
  | byIds (ids : List String)
  | failed (take : Int)

/-- The repository, the simulated transaction of a payload, the clock, the timer, the map of the
submissions in flight, and whose answer comes next where several are awaited. -/
inductive BatchOp where
  | find (query : PayloadQuery)
  | findOne (id : String)
  | save (payload : SignedPayload)
  | newTransaction (id : String)
  | now
  | sleep (delay : ℚ)
  | inFlight
  | markInFlight (ids : List String)
  | clearInFlight (ids : List String)
  | turn

/-- What each operation resolves to; a transaction is its hash with the time. -/
def BatchOp.Res : BatchOp → Type
  | .find _ => List SignedPayload
  | .findOne _ => Option SignedPayload
  | .newTransaction _ => String × Int
  | .now => Int
  | .inFlight => List String
  | .turn => Bool
  | .save _ | .sleep _ | .markInFlight _ | .clearInFlight _ => Unit

abbrev batchInterface : Interface :=
  ⟨BatchOp, BatchOp.Res⟩

abbrev BatchProgram (α : Type) : Type :=
  Async batchInterface Failure α

abbrev askBatch (op : batchInterface.Op) : BatchProgram (batchInterface.Res op) :=
  .call op

def batchTurns : Turns batchInterface Failure where
  op := .turn
  first
    | .ok first => first
    | .error _ => false

structure BatchServiceConfig where
  batchSize : Int := 10
  maxRetries : Int := 5
  backoff : Backoff := {}
  preserveOrder : Bool := true
  toLowerCase : String → String

structure SubmissionResult where
  payloadId : String
  success : Bool
  transactionHash : Option String := none
  errorMessage : Option String := none
  failureType : Option FailureType := none
  attemptNumber : Int

def PayloadStatus.isSettled : PayloadStatus → Bool
  | .submitted | .confirmed => true
  | .pending | .failed => false

/-! ## Single payloads -/

/-- `markAsFailed`; its errors are only logged. -/
def markAsFailed (id message : String) (attemptNumber : Int) : BatchProgram Unit := do
  let mark : BatchProgram Unit := do
    match ← askBatch (.findOne id) with
    | none => .done ()
    | some payload =>
      askBatch (.save
        { payload with
          status := .failed, errorMessage := some message, submissionAttempts := attemptNumber })
  let _ ← mark.attempt
  .done ()

def submitInBatch (payload : SignedPayload) : BatchProgram String := do
  let transaction : String × Int ← askBatch (.newTransaction payload.id)
  askBatch (.save
    { payload with
      status := .submitted, transactionHash := some transaction.1,
      submittedAt := some transaction.2, submissionAttempts := payload.submissionAttempts + 1 })
  .done transaction.1

def submitted (id hash : String) (attempt : Int) : SubmissionResult where
  payloadId := id
  success := true
  transactionHash := some hash
  attemptNumber := attempt

def notSubmitted (id : String) (message : Option String) (failureType : FailureType)
    (attempt : Int) : SubmissionResult where
  payloadId := id
  success := false
  errorMessage := message
  failureType := some failureType
  attemptNumber := attempt

variable (cfg : BatchServiceConfig)

/-- The `try` of an attempt. -/
def tryPayload (id : String) (attempt : Nat) : BatchProgram SubmissionResult := do
  match ← askBatch (.findOne id) with
  | none => .done (notSubmitted id (some "Payload not found") .permanent attempt)
  | some payload =>
    if payload.status.isSettled then
      .done
        { payloadId := id, success := true,
          transactionHash := payload.transactionHash.filter (· ≠ ""), attemptNumber := attempt }
    else if payload.status = .failed ∧
        categorizeFailure cfg.toLowerCase (payload.errorMessage.getD "") = .permanent then
      .done (notSubmitted id payload.errorMessage .permanent attempt)
    else do
      let hash ← submitInBatch payload
      askBatch (.clearInFlight [id])
      .done (submitted id hash attempt)

/-- The loop of `processWithRetry` with `left` of its attempts left. -/
def retryAttempts (cfg : BatchServiceConfig) (id : String) (attempts : Int) :
    Nat → Nat → Option Failure → BatchProgram SubmissionResult
  | 0, _, lastError => do
      askBatch (.clearInFlight [id])
      .done (notSubmitted id
        (((lastError.bind (·.message?)).filter (· ≠ "")).getD "Unknown error") .retryable attempts)
  | left + 1, attempt, _ => do
      match ← (tryPayload cfg id attempt).attempt with
      | .ok result => .done result
      | .error e =>
        match e.message? with
        | none => .fail noMessage
        | some message =>
          let failureType := categorizeFailure cfg.toLowerCase message
          if failureType = .permanent ∨ attempts ≤ attempt then do
            markAsFailed id message attempt
            askBatch (.clearInFlight [id])
            .done (notSubmitted id message failureType attempt)
          else do
            askBatch (.sleep (cfg.backoff.calculateRetryDelay attempt))
            retryAttempts cfg id attempts left (attempt + 1) (some e)

def processWithRetry (id : String) (maxRetries : Option Int) : BatchProgram SubmissionResult :=
  let attempts := maxRetries.getD cfg.maxRetries
  retryAttempts cfg id attempts attempts.toNat 1 none

/-! ## Selection -/

/-- What `getPayloadsForBatching` returns, and the payloads that it marks as failed beside. -/
structure Selection where
  selected : List SignedPayload
  expired : List SignedPayload

/-- `getPayloadsForBatching`, up to the failures that it does not await. -/
def selectPayloads (limit : Option Int) : BatchProgram Selection := do
  let batchSize := (limit.filter (· ≠ 0)).getD cfg.batchSize
  let now : Int ← askBatch .now
  let payloads : List SignedPayload ←
    askBatch (.find (.pendingUnsigned (batchSize * 2)))
  let inFlight : List String ← askBatch .inFlight
  let valid := payloads.filter fun p => ¬ p.expiresAt < now ∧ p.id ∉ inFlight
  let selected := valid.take batchSize.toNat
  if cfg.preserveOrder then
    askBatch (.markInFlight (selected.map (·.id)))
  .done
    { selected := selected
      expired := payloads.filter fun p => p.expiresAt < now }

/-- The failures that a call records beside, each with its payload. -/
def markAll (failures : List (String × String)) : BatchProgram Unit := do
  let _ ← Async.allSettled batchTurns (failures.map fun f => markAsFailed f.1 f.2 1)
  .done ()

/-- What `getPayloadsForBatching` does beside. -/
def markExpired (selection : Selection) : BatchProgram Unit :=
  markAll (selection.expired.map fun p => (p.id, "Payload expired before batch submission"))

/-! ## Batches -/

/-- The loop of `validatePayloadsForBatch`. -/
def validateLoop (now : Int) :
    List SignedPayload → List SignedPayload → BatchProgram (List SignedPayload)
  | [], valid => .done valid
  | payload :: rest, valid =>
    if payload.expiresAt < now then do
      markAsFailed payload.id "Payload expired" 1
      validateLoop now rest valid
    else if payload.status.isSettled then validateLoop now rest valid
    else if payload.signature = "" then do
      markAsFailed payload.id "Payload has no signature" 1
      validateLoop now rest valid
    else do
      let inFlight : List String ← askBatch .inFlight
      if payload.id ∈ inFlight then validateLoop now rest valid
      else do
        askBatch (.markInFlight [payload.id])
        validateLoop now rest (valid ++ [payload])

def validatePayloadsForBatch (ids : List String) : BatchProgram (List SignedPayload) :=
  if ids = [] then .done []
  else do
    let payloads : List SignedPayload ← askBatch (.find (.byIds ids))
    let now : Int ← askBatch .now
    validateLoop now payloads []

/-- One round of `processSequentially`. -/
def processOne (payload : SignedPayload) : BatchProgram SubmissionResult := do
  match ← (submitInBatch payload).attempt with
  | .ok hash => .done (submitted payload.id hash 1)
  | .error e =>
    match e.message? with
    | none => .fail noMessage
    | some message => do
        markAsFailed payload.id message 1
        .done (notSubmitted payload.id message (categorizeFailure cfg.toLowerCase message) 1)

def processSequentially (cfg : BatchServiceConfig) :
    List SignedPayload → BatchProgram (List SubmissionResult)
  | [] => .done []
  | payload :: rest => do
      let result ← processOne cfg payload
      askBatch (.sleep 100)
      let results ← processSequentially cfg rest
      .done (result :: results)

/-- What a batch comes to: its results, or its error, and the failures that are recorded beside. -/
structure BatchOutcome where
  results : Except Failure (List SubmissionResult)
  failures : List (String × String) := []

def settle (cfg : BatchServiceConfig) : List (SignedPayload × Except Failure String) → BatchOutcome
  | [] => { results := .ok [] }
  | (payload, .ok hash) :: rest =>
    let outcome := settle cfg rest
    { outcome with results := outcome.results.map (submitted payload.id hash 1 :: ·) }
  | (payload, .error e) :: rest =>
    match e.message? with
    | none => { results := .error noMessage }
    | some message =>
      let outcome := settle cfg rest
      let failureType := categorizeFailure cfg.toLowerCase message
      { results := outcome.results.map (notSubmitted payload.id message failureType 1 :: ·)
        failures := (payload.id, message) :: outcome.failures }

def processConcurrently (payloads : List SignedPayload) : BatchProgram BatchOutcome := do
  let outcomes ← Async.allSettled batchTurns (payloads.map submitInBatch)
  .done (settle cfg (payloads.zip outcomes))

def processPayloads (payloads : List SignedPayload) : BatchProgram BatchOutcome :=
  if cfg.preserveOrder then do
    let results ← processSequentially cfg payloads
    .done { results := .ok results }
  else processConcurrently cfg payloads

/-- `processBatch`, up to the failures that it does not await; its id and its duration are left
out. -/
def processBatch (ids : List String) : BatchProgram BatchOutcome := do
  let payloads ← validatePayloadsForBatch ids
  if payloads.isEmpty then .done { results := .ok [] }
  else do
    let outcome ← processPayloads cfg payloads
    match outcome.results with
    | .error _ => .done outcome
    | .ok _ => do
        askBatch (.clearInFlight (payloads.map (·.id)))
        .done outcome

/-! ## Retries -/

def getRetryablePayloads : BatchProgram (List SignedPayload) := do
  let now : Int ← askBatch .now
  let payloads : List SignedPayload ← askBatch
    (.find (.failed cfg.batchSize))
  .done (payloads.filter fun p =>
    categorizeFailure cfg.toLowerCase (p.errorMessage.getD "") = .retryable ∧
      p.submissionAttempts < cfg.maxRetries ∧ now - 24 * 60 * 60 * 1000 < p.updatedAt)

def chunksOf {α : Type} (size : Nat) (items : List α) : List (List α) :=
  (List.range ((items.length + size - 1) / size)).map fun k => (items.drop (k * size)).take size

/-- The loop of `retryFailedPayloads`. -/
def retryChunks (cfg : BatchServiceConfig) :
    List (List SignedPayload) → BatchProgram (List SubmissionResult)
  | [] => .done []
  | chunk :: rest => do
      let outcomes ← Async.allSettled batchTurns (chunk.map fun p => processWithRetry cfg p.id none)
      let results ← Async.ofExcept (outcomes.mapM id)
      if rest ≠ [] then
        askBatch (.sleep 500)
      let more ← retryChunks cfg rest
      .done (results ++ more)

def retryFailedPayloads (ids : List String) (maxConcurrent : Nat) :
    BatchProgram (List SubmissionResult) := do
  let payloads : List SignedPayload ←
    if ids ≠ [] then askBatch (.find (.byIds ids))
    else getRetryablePayloads cfg
  retryChunks cfg (chunksOf (if maxConcurrent = 0 then 5 else maxConcurrent) payloads)

/-! ## Calls -/

inductive BatchCall where
  | getPayloadsForBatching (limit : Option Int)
  | processBatch (ids : List String)
  | processWithRetry (id : String) (maxRetries : Option Int)
  | retryFailedPayloads (ids : List String) (maxConcurrent : Nat)

def BatchCall.program : BatchCall → BatchProgram Unit
  | .getPayloadsForBatching limit => do
      let selection ← selectPayloads cfg limit
      markExpired selection
  | .processBatch ids => do
      let outcome ← Oracle.processBatch cfg ids
      markAll outcome.failures
  | .processWithRetry id maxRetries => do
      let _ ← Oracle.processWithRetry cfg id maxRetries
      .done ()
  | .retryFailedPayloads ids maxConcurrent => do
      let _ ← Oracle.retryFailedPayloads cfg ids maxConcurrent
      .done ()

/-! ## The world -/

/-- The rows in the order of their creation, the map of the submissions in flight, and what no code
reads: how often each payload was submitted, how often its row was written, and how often it was
written when a caller has last accessed it. -/
structure BatchWorld (ι : Type) where
  rows : List SignedPayload
  inFlight : List String := []
  submissions : String → Nat := fun _ => 0
  versions : String → Nat := fun _ => 0
  seen : ι → String → Option Nat := fun _ _ => none

/-- How an operation ends: it is performed, at a time, with the hash of a transaction or with the
next turn; it is rejected without effect, or performed and its answer is lost. -/
inductive BatchChoice where
  | served (time : Int)
  | transaction (hash : String) (time : Int)
  | turn (first : Bool)
  | rejected (e : Failure)
  | lost (e : Failure)

def limitTo (take : Int) (rows : List SignedPayload) : Except Failure (List SignedPayload) :=
  if take < 0 then .error (.error "LIMIT must not be negative")
  else if take = 0 then .ok rows
  else .ok (rows.take take.toNat)

namespace BatchWorld

variable {ι : Type}

def row (w : BatchWorld ι) (id : String) : Option SignedPayload :=
  w.rows.find? (·.id = id)

def answer (w : BatchWorld ι) : PayloadQuery → Except Failure (List SignedPayload)
  | .pendingUnsigned take =>
    limitTo take (w.rows.filter fun row => row.status = .pending ∧ row.signature = "")
  | .byIds ids => .ok (w.rows.filter fun row => row.id ∈ ids)
  | .failed take =>
    limitTo take ((w.rows.filter fun row => row.status = .failed).insertionSort
      fun row row' => row.updatedAt ≤ row'.updatedAt)

def touch [DecidableEq ι] (w : BatchWorld ι) (i : ι) (ids : List String) : BatchWorld ι :=
  { w with seen := fun j id => if j = i ∧ id ∈ ids then some (w.versions id) else w.seen j id }

def stored (w : BatchWorld ι) (payload : SignedPayload) (time : Int) : BatchWorld ι :=
  { w with
    rows := w.rows.map fun row =>
      if row.id = payload.id then { payload with updatedAt := time } else row
    versions := Function.update w.versions payload.id (w.versions payload.id + 1) }

def perform [DecidableEq ι] (i : ι) :
    (op : BatchOp) → BatchChoice → BatchWorld ι → Option (Except Failure op.Res × BatchWorld ι)
  | .find query, .served _, w =>
    match w.answer query with
    | .ok rows => some (.ok rows, w.touch i (rows.map (·.id)))
    | .error e => some (.error e, w)
  | .find _, .rejected e, w | .find _, .lost e, w => some (.error e, w)
  | .findOne id, .served _, w => some (.ok (w.row id), w.touch i [id])
  | .findOne id, .rejected e, w | .findOne id, .lost e, w => some (.error e, w.touch i [id])
  | .save payload, .served time, w =>
    some (.ok (), (w.stored payload time).touch i [payload.id])
  | .save payload, .lost e, w => some (.error e, (w.stored payload 0).touch i [payload.id])
  | .save payload, .rejected e, w => some (.error e, w.touch i [payload.id])
  | .newTransaction id, .transaction hash time, w =>
    some (.ok (hash, time),
      { w with submissions := Function.update w.submissions id (w.submissions id + 1) })
  | .now, .served time, w => some (.ok time, w)
  | .sleep _, .served _, w => some (.ok (), w)
  | .inFlight, .served _, w => some (.ok w.inFlight, w)
  | .markInFlight ids, .served _, w => some (.ok (), { w with inFlight := ids ++ w.inFlight })
  | .clearInFlight ids, .served _, w =>
    some (.ok (), { w with inFlight := w.inFlight.filter (· ∉ ids) })
  | .turn, .turn first, w => some (.ok first, w)
  | _, _, _ => none

end BatchWorld

def batchSemantics (ι : Type) [DecidableEq ι] :
    Semantics batchInterface Failure ι (BatchWorld ι) where
  Choice := BatchChoice
  perform := BatchWorld.perform
  Event := Empty
  happen e := e.elim

def batchPool {ι : Type} (calls : ι → BatchCall) (w : BatchWorld ι) :
    Pool batchInterface Failure ι (BatchWorld ι) Unit where
  world := w
  calls i := (calls i).program cfg

/-! ## Queries -/

section Queries

variable {ι : Type} {w w' : BatchWorld ι} {found : List SignedPayload}

theorem sublist_of_limitTo {take : Int} {limited : List SignedPayload}
    (h : limitTo take found = .ok limited) : limited.Sublist found := by
  unfold limitTo at h
  split_ifs at h
  · cases h
    exact List.Sublist.refl _
  · cases h
    exact List.take_sublist _ _

theorem subperm_of_answer {query : PayloadQuery} (h : w.answer query = .ok found) :
    found.Subperm w.rows := by
  cases query with
  | pendingUnsigned take =>
    exact ((sublist_of_limitTo h).trans List.filter_sublist).subperm
  | byIds ids =>
    cases h
    exact List.filter_sublist.subperm
  | failed take =>
    refine (sublist_of_limitTo h).subperm.trans ?_
    exact (List.perm_insertionSort _ _).subperm.trans List.filter_sublist.subperm

theorem pending_of_answer {take : Int} (h : w.answer (.pendingUnsigned take) = .ok found)
    {p : SignedPayload} (hp : p ∈ found) : p.status = .pending ∧ p.signature = "" := by
  simpa using (List.mem_filter.mp ((sublist_of_limitTo h).subset hp)).2

theorem perform_find [DecidableEq ι] {i : ι} {query : PayloadQuery} {c : BatchChoice}
    {r : Except Failure (List SignedPayload)} (h : w.perform i (.find query) c = some (r, w')) :
    (∃ found, r = .ok found ∧ w.answer query = .ok found ∧ w' = w.touch i (found.map (·.id))) ∨
      ∃ e, r = .error e ∧ w' = w := by
  cases c with
  | served time =>
    have hserved : (match w.answer query with
      | .ok found => some (Except.ok found, w.touch i (found.map (·.id)))
      | .error e => some (Except.error e, w)) = some (r, w') := h
    cases hanswer : w.answer query with
    | ok found =>
      rw [hanswer] at hserved
      cases hserved
      exact Or.inl ⟨found, rfl, rfl, rfl⟩
    | error e =>
      rw [hanswer] at hserved
      cases hserved
      exact Or.inr ⟨e, rfl, rfl⟩
  | rejected e | lost e =>
    cases h
    exact Or.inr ⟨e, rfl, rfl⟩
  | transaction _ _ | turn _ => cases h

end Queries

end Trellis.Oracle
