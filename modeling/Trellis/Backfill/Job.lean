import Trellis.Core.Failure
import Trellis.Core.Session

/-!
# The backfill job

`BackfillJob` pages through the records of an adapter, journals an undo entry before each write,
and saves its progress in a checkpoint; `rollback` restores the journaled records. A job id has
one attempt at a time.
-/

namespace Trellis.Backfill

open Core

/-! ## Checkpoints -/

structure Change (V : Type) where
  recordId : String
  field : String
  before : V
  after : V
  reason : Option String := none

structure Undo (V : Type) where
  before : V
  after : V
deriving DecidableEq

def Change.undo {V : Type} (change : Change V) : Undo V :=
  ⟨change.before, change.after⟩

structure JournalEntry (V : Type) where
  recordId : String
  undo : Undo V

structure DiffEntry (V : Type) where
  recordId : String
  field : String
  before : V
  after : V

inductive FailurePhase where
  | plan
  | apply
deriving DecidableEq

structure RecordFailure where
  recordId : String
  phase : FailurePhase
  error : String

inductive Status where
  | running
  | completed
  | failed
  | rolledBack
deriving DecidableEq

structure Checkpoint (V : Type) where
  jobId : String
  job : String
  status : Status := .running
  dryRun : Bool
  cursor : Option String := none
  scanned : Nat := 0
  planned : Nat := 0
  applied : Nat := 0
  skipped : Nat := 0
  conflicts : Nat := 0
  diffs : List (DiffEntry V) := []
  diffTruncated : Nat := 0
  failures : List RecordFailure := []
  journal : List (JournalEntry V) := []
  error : Option String := none

namespace Checkpoint

variable {V : Type}

variable (checkpoint : Checkpoint V)

def journalIds : List String :=
  checkpoint.journal.map (·.recordId)

variable (change : Change V)

/-- `journal`: an entry that is there already is kept. -/
def journalChange : Checkpoint V :=
  if checkpoint.journal.any (·.recordId = change.recordId) then checkpoint
  else
    { checkpoint with journal := checkpoint.journal ++ [⟨change.recordId, change.undo⟩] }

def dropJournal (recordId : String) : Checkpoint V :=
  { checkpoint with journal := checkpoint.journal.filter (·.recordId ≠ recordId) }

def recordDiff (diffLimit : Nat) : Checkpoint V :=
  if checkpoint.diffs.length < diffLimit then
    { checkpoint with diffs := checkpoint.diffs ++
        [⟨change.recordId, change.field, change.before, change.after⟩] }
  else { checkpoint with diffTruncated := checkpoint.diffTruncated + 1 }

def recordFailure (recordId : String) (phase : FailurePhase) (error : String) : Checkpoint V :=
  { checkpoint with
    failures := checkpoint.failures.filter
      (fun failure => ¬(failure.recordId = recordId ∧ failure.phase = phase)) ++
        [⟨recordId, phase, error⟩] }

variable (checkpoint : Checkpoint V)

@[simp]
theorem journal_recordDiff (diffLimit : Nat) :
    (checkpoint.recordDiff change diffLimit).journal = checkpoint.journal := by
  unfold recordDiff
  split <;> rfl

@[simp]
theorem status_recordDiff (diffLimit : Nat) :
    (checkpoint.recordDiff change diffLimit).status = checkpoint.status := by
  unfold recordDiff
  split <;> rfl

@[simp]
theorem status_journalChange : (checkpoint.journalChange change).status = checkpoint.status := by
  unfold journalChange
  split <;> rfl

theorem journalChange_cases : ((∃ entry ∈ checkpoint.journal, entry.recordId = change.recordId) ∧
      checkpoint.journalChange change = checkpoint) ∨
    ((∀ entry ∈ checkpoint.journal, entry.recordId ≠ change.recordId) ∧
      (checkpoint.journalChange change).journal =
        checkpoint.journal ++ [⟨change.recordId, change.undo⟩]) := by
  unfold journalChange
  split
  · rename_i hany
    exact .inl ⟨by simpa using hany, rfl⟩
  · rename_i hany
    exact .inr ⟨by simpa using hany, rfl⟩

theorem mem_journalIds_journalChange :
    change.recordId ∈ (checkpoint.journalChange change).journalIds := by
  rcases checkpoint.journalChange_cases change with ⟨⟨entry, hmem, hid⟩, hsame⟩ | ⟨-, hnew⟩
  · rw [hsame, journalIds, ← hid]
    exact List.mem_map_of_mem hmem
  · simp [journalIds, hnew]

end Checkpoint

/-! ## Adapters and stores -/

structure Page (R : Type) where
  records : List R
  nextCursor : Option String

inductive ApplyAnswer where
  | written
  | conflict

/-- What the job awaits: the checkpoint store and the adapter. -/
inductive Op (R V : Type) where
  | load
  | save (checkpoint : Checkpoint V)
  | scan (cursor : Option String) (limit : Nat)
  | apply (record : R) (change : Change V)
  | restore (recordId : String) (undo : Undo V)

def Op.Res {R V : Type} : Op R V → Type
  | .load => Option (Checkpoint V)
  | .save _ => Unit
  | .scan _ _ => Page R
  | .apply _ _ => ApplyAnswer
  | .restore _ _ => Unit

def backfillInterface (R V : Type) : Interface where
  Op := Op R V
  Res := Op.Res

variable (R V : Type)

abbrev Program (α : Type) : Type :=
  Async (backfillInterface R V) Failure α

structure Adapter where
  recordId : R → String
  plan : R → Except Failure (Option (Change V))

/-- `BackfillRunOptions` with its defaults, and the `jobName` of the job. -/
structure RunOptions where
  dryRun : Option Bool := none
  batchSize : Nat := 100
  maxApplyRetries : Nat := 2
  diffLimit : Nat := 500
  jobName : String := "backfill"

variable {R V}

def load : Program R V (Option (Checkpoint V)) :=
  Async.call (I := backfillInterface R V) .load

def save (checkpoint : Checkpoint V) : Program R V Unit :=
  Async.call (I := backfillInterface R V) (.save checkpoint)

def scan (cursor : Option String) (limit : Nat) : Program R V (Page R) :=
  Async.call (I := backfillInterface R V) (.scan cursor limit)

def apply (record : R) (change : Change V) : Program R V ApplyAnswer :=
  Async.call (I := backfillInterface R V) (.apply record change)

def restore (recordId : String) (undo : Undo V) : Program R V Unit :=
  Async.call (I := backfillInterface R V) (.restore recordId undo)

/-! ## Applying one change -/

inductive ApplyOutcome where
  | applied
  | conflict
  | failed

/-- The loop of `applyOne` with so many attempts left. -/
def applyAttempts (record : R) (change : Change V) (checkpoint : Checkpoint V) :
    Nat → String → Program R V (ApplyOutcome × Checkpoint V)
  | 0, lastError => .done (.failed, checkpoint.recordFailure change.recordId .apply lastError)
  | attempts + 1, _ => do
      let answer ← (apply record change).attempt
      match answer with
      | .ok .conflict => .done (.conflict, checkpoint)
      | .ok .written => .done (.applied, checkpoint)
      | .error e => applyAttempts record change checkpoint attempts e.text

def applyOne (record : R) (change : Change V) (retries : Nat) (checkpoint : Checkpoint V) :
    Program R V (ApplyOutcome × Checkpoint V) :=
  applyAttempts record change checkpoint (retries + 1) ""

/-! ## Running a job -/

/-- The state of the `try` block: it goes on with a checkpoint and the one that was saved
last, or it was left with an error. -/
inductive Progress (V : Type) where
  | going (checkpoint committed : Checkpoint V)
  | halted (committed : Checkpoint V) (e : Failure)

def persist (checkpoint committed : Checkpoint V) (scanned : Nat) : Program R V (Progress V) := do
  let next := { checkpoint with scanned }
  let saved ← (save next).attempt
  match saved with
  | .ok _ => .done (.going checkpoint next)
  | .error e => .done (.halted committed e)

def settle (change : Change V) (diffLimit : Nat) : ApplyOutcome × Checkpoint V → Checkpoint V
  | (.conflict, checkpoint) =>
    { checkpoint with conflicts := checkpoint.conflicts + 1 }.dropJournal change.recordId
  | (.applied, checkpoint) =>
    { checkpoint with applied := checkpoint.applied + 1 }.recordDiff change diffLimit
  | (.failed, checkpoint) => checkpoint

def applyAndSettle (options : RunOptions) (record : R) (change : Change V)
    (checkpoint committed : Checkpoint V) : Program R V (Progress V) := do
  let outcome ← applyOne record change options.maxApplyRetries checkpoint
  .done (.going (settle change options.diffLimit outcome) committed)

/-- Journal a change, save the journal, and apply the change. -/
def journalAndApply (options : RunOptions) (batchStartScanned : Nat) (record : R)
    (change : Change V) (checkpoint committed : Checkpoint V) : Program R V (Progress V) := do
  let saved ← persist (checkpoint.journalChange change) committed batchStartScanned
  match saved with
  | .halted committed e => .done (.halted committed e)
  | .going checkpoint committed => applyAndSettle options record change checkpoint committed

def processRecord (adapter : Adapter R V) (options : RunOptions) (batchStartScanned : Nat)
    (record : R) (checkpoint committed : Checkpoint V) : Program R V (Progress V) :=
  let checkpoint := { checkpoint with scanned := checkpoint.scanned + 1 }
  match adapter.plan record with
  | .error e =>
    .done (.going (checkpoint.recordFailure (adapter.recordId record) .plan e.text) committed)
  | .ok none => .done (.going { checkpoint with skipped := checkpoint.skipped + 1 } committed)
  | .ok (some change) =>
    let checkpoint := { checkpoint with planned := checkpoint.planned + 1 }
    if checkpoint.dryRun then
      .done (.going (checkpoint.recordDiff change options.diffLimit) committed)
    else journalAndApply options batchStartScanned record change checkpoint committed

def processRecords (adapter : Adapter R V) (options : RunOptions) (batchStartScanned : Nat) :
    List R → Checkpoint V → Checkpoint V → Program R V (Progress V)
  | [], checkpoint, committed => .done (.going checkpoint committed)
  | record :: rest, checkpoint, committed => do
      let progress ← processRecord adapter options batchStartScanned record checkpoint committed
      match progress with
      | .halted committed e => .done (.halted committed e)
      | .going checkpoint committed =>
        processRecords adapter options batchStartScanned rest checkpoint committed

def failRun (committed : Checkpoint V) (e : Failure) : Program R V (Checkpoint V) := do
  let _ ← (save { committed with status := .failed, error := some e.text }).attempt
  .fail e

def turnPage (checkpoint : Checkpoint V) (nextCursor : Option String) : Checkpoint V :=
  { checkpoint with
    cursor := nextCursor
    status := if nextCursor = none then .completed else checkpoint.status }

/-- The loop over the pages, cut off after so many of them. -/
def processPages (adapter : Adapter R V) (options : RunOptions) :
    Nat → Checkpoint V → Checkpoint V → Program R V (Checkpoint V)
  | 0, checkpoint, _ => .done checkpoint
  | pages + 1, checkpoint, committed => do
      let page ← (scan checkpoint.cursor options.batchSize).attempt
      match page with
      | .error e => failRun committed e
      | .ok page => do
          let progress ← processRecords adapter options checkpoint.scanned page.records
            checkpoint committed
          match progress with
          | .halted committed e => failRun committed e
          | .going checkpoint committed => do
              let checkpoint := turnPage checkpoint page.nextCursor
              let saved ← persist checkpoint committed checkpoint.scanned
              match saved with
              | .halted committed e => failRun committed e
              | .going checkpoint committed =>
                if checkpoint.cursor = none then .done checkpoint
                else processPages adapter options pages checkpoint committed

def freshCheckpoint (jobId : String) (options : RunOptions) : Checkpoint V where
  jobId := jobId
  job := options.jobName
  dryRun := options.dryRun.getD false

/-- The checks of `run` on the stored checkpoint, in their order. -/
def checkExisting (jobId : String) (options : RunOptions) (existing : Checkpoint V) :
    Except Failure Unit :=
  if existing.status = .rolledBack then
    .error (.conflict ("Backfill job " ++ jobId ++ " was rolled back; use a new job id"))
  else if existing.job ≠ options.jobName then
    .error (.conflict ("Backfill job " ++ jobId ++ " belongs to '" ++ existing.job ++
      "', not '" ++ options.jobName ++ "'; use a new job id"))
  else if options.dryRun.isSome ∧ options.dryRun ≠ some existing.dryRun then
    .error (.conflict (if existing.dryRun then
        "Backfill job " ++ jobId ++ " was a dry-run preview; use a new job id to apply"
      else
        "Backfill job " ++ jobId ++ " was started with dryRun=false; use a new job id to preview"))
  else .ok ()

def runFrom (adapter : Adapter R V) (jobId : String) (options : RunOptions) (pages : Nat) :
    Option (Checkpoint V) → Program R V (Checkpoint V)
  | none =>
    processPages adapter options pages (freshCheckpoint jobId options)
      (freshCheckpoint jobId options)
  | some existing => do
      let _ ← Async.ofExcept (checkExisting jobId options existing)
      if existing.status = .completed then .done existing
      else
        let checkpoint := { existing with status := .running, error := none }
        processPages adapter options pages checkpoint checkpoint

def run (adapter : Adapter R V) (authorized : Bool) (jobId : String) (options : RunOptions)
    (pages : Nat) : Program R V (Checkpoint V) :=
  if authorized then do
    let existing ← load
    runFrom adapter jobId options pages existing
  else .fail (.forbidden "Not allowed to run backfill jobs")

/-! ## Rolling back -/

/-- The loop of `rollback`; the journal is given newest first. -/
def restoreAll (checkpoint : Checkpoint V) : List (JournalEntry V) → Program R V Unit
  | [] => .done ()
  | entry :: older => do
      restore entry.recordId entry.undo
      save { checkpoint with journal := older.reverse }
      restoreAll checkpoint older

def rollbackFrom (jobId : String) : Option (Checkpoint V) → Program R V (Checkpoint V)
  | none => .fail (.conflict ("Backfill job " ++ jobId ++ " does not exist"))
  | some checkpoint => do
      restoreAll checkpoint checkpoint.journal.reverse
      let done := { checkpoint with status := .rolledBack, journal := [], applied := 0 }
      save done
      .done done

def rollback (authorized : Bool) (jobId : String) : Program R V (Checkpoint V) :=
  if authorized then do
    let checkpoint ← load
    rollbackFrom jobId checkpoint
  else .fail (.forbidden "Not allowed to run backfill jobs")

end Trellis.Backfill
