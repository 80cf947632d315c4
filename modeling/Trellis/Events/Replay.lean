import Trellis.Core.Session
import Trellis.Events.Ledger
import Trellis.Events.Schema

/-!
# The event replay engine

`EventReplayEngine.run` of `event-replay.ts`: fold a stream of stored events into the state of a
projection, with checkpoints from which an interrupted rebuild goes on. One step of the loop is a
pure function. Times of day are left out.
-/

namespace Trellis.Events

open Core

/-! ## Canonical text and hashes -/

namespace Replay

mutual

/-- `canonicalize` of the replay engine, of a value that is not left out. -/
def canonicalChars : Value → List Char
  | .undefined => "null".toList
  | .arr items => '[' :: (commaSeparated (canonicalItems items) ++ [']'])
  | .obj members => '{' :: (commaSeparated ((sortMembers (canonicalMembers members)).filterMap
      fun m => m.2.map (memberText m.1)) ++ ['}'])
  | v => (primitiveText v).getD []

def canonicalItems : List Value → List (List Char)
  | [] => []
  | v :: vs => canonicalChars v :: canonicalItems vs

/-- The members of an object with their texts; `undefined` is left out. -/
def canonicalMembers : List (String × Value) → List (String × Option (List Char))
  | [] => []
  | (key, v) :: ms =>
    (key, match v with
      | .undefined => none
      | v => some (canonicalChars v)) :: canonicalMembers ms

end

end Replay

structure StoredEvent extends Envelope where
  sequence : Int

variable (sha256 : HexDigest)

def hashState (state : Value) : String :=
  sha256.digest (String.ofList (Replay.canonicalChars state))

def ledgerHash (event : StoredEvent) : String :=
  sha256.digest (entryText event.sequence event.previousHash
    (sha256.digest (String.ofList (Replay.canonicalChars event.payload))))

/-! ## Projections, checkpoints and reports -/

/-- `ProjectionDefinition`; `view` is the state as a value. -/
structure ProjectionDefinition (S : Type) where
  name : String
  version : Nat
  handles : String → Option String
  initialState : S
  apply : S → StoredEvent → Except Failure S
  view : S → Value

structure ProjectionCheckpoint (S : Type) where
  projection : String
  version : Nat
  sequence : Int
  state : S

structure PublishedProjection (S : Type) where
  projection : String
  version : Nat
  sequence : Int
  state : S
  stateHash : String

inductive PoisonPolicy where
  | halt
  | skip
deriving DecidableEq

structure ReplayOptions where
  resume : Bool := true
  checkpointEvery : Int := 500
  onPoisonEvent : PoisonPolicy := .halt
  maxApplyAttempts : Int := 3
  dryRun : Bool := false
  limit : Option Int := none

structure PoisonEventRecord where
  sequence : Int
  eventId : String
  eventName : String
  schemaVersion : String
  reason : String
deriving DecidableEq

inductive ReplayOutcome where
  | published
  | dryRun
  | halted
  | aborted
deriving DecidableEq

structure ReplayReport where
  projection : String
  version : Nat
  outcome : ReplayOutcome := .published
  resumedFromSequence : Int
  lastSequence : Int
  eventsRead : Int := 0
  applied : Nat := 0
  ignored : Nat := 0
  duplicates : Nat := 0
  upcasts : List (String × Nat) := []
  poisonEvents : List PoisonEventRecord := []
  checkpoints : Nat := 0
  stateHash : Option String := none
  error : Option String := none
deriving DecidableEq

structure Engine where
  sha256 : HexDigest
  schemas : SchemaRegistry
  upcasters : UpcasterRegistry

structure Progress (S : Type) where
  state : S
  lastSequence : Int
  lastHash : Option String := none
  progressed : Bool := false
  sinceCheckpoint : Int := 0
  report : ReplayReport

/-! ## One event -/

variable {S : Type} (engine : Engine) (projection : ProjectionDefinition S)
  (options : ReplayOptions)

variable (progress : Progress S)

def finish (outcome : ReplayOutcome) (error : Option String) : ReplayReport :=
  { progress.report with
    outcome, lastSequence := progress.lastSequence,
    stateHash := some (hashState engine.sha256 (projection.view progress.state)), error }

def applyWithRetry (state : S) (event : StoredEvent) : Nat → Failure → Except EventError S
  | 0, lastError => .error (.other lastError)
  | attempts + 1, _ =>
    match projection.apply state event with
    | .ok next => .ok next
    | .error e => applyWithRetry state event attempts e

/-- The tamper check of one event: the next `lastHash`, or the message and the reason of the
abort. -/
def tamperCheck (lastHash : Option String) (event : StoredEvent) :
    Except (String × String) (Option String) :=
  let position := String.ofList (intText event.sequence)
  if truthy event.hash then
    if lastHash ≠ none ∧ event.previousHash ≠ lastHash then
      .error ("Ledger chain broken at sequence " ++ position, "ledger chain mismatch")
    else if event.hash ≠ some (ledgerHash engine.sha256 event) then
      .error ("Ledger hash mismatch at sequence " ++ position, "ledger hash mismatch")
    else .ok event.hash
  else .ok lastHash

/-- The event as it was stored is validated and brought to the version that is expected. -/
def prepare (event : StoredEvent) (targetVersion : String) :
    Except EventError (Envelope × List String) :=
  if (getSchema engine.schemas event.eventName event.schemaVersion).isSome then
    match validateProducerEvent engine.schemas event.toEnvelope with
    | .error e => .error e
    | .ok _ => upcast engine.schemas engine.upcasters event.toEnvelope targetVersion
  else .error (.unknownVersion event.eventName event.schemaVersion)

def applyAttempts : Nat :=
  (max 1 options.maxApplyAttempts).toNat

def applyEvent (event : StoredEvent) (targetVersion : String) (state : S) : Except EventError S :=
  match prepare engine event targetVersion with
  | .error e => .error e
  | .ok (prepared, _) =>
    applyWithRetry projection state ⟨prepared, event.sequence⟩ (applyAttempts options)
      (.other "undefined")

def upcastKey (event : StoredEvent) (path : List String) : String :=
  event.eventName ++ " " ++ path.headD "" ++ "->" ++ path.getLastD ""

def countUp (counts : List (String × Nat)) (key : String) : List (String × Nat) :=
  if counts.any (·.1 = key) then
    counts.map fun entry => if entry.1 = key then (entry.1, entry.2 + 1) else entry
  else counts ++ [(key, 1)]

/-- The upcast of an event is counted, also when the event then cannot be applied. -/
def countUpcast (event : StoredEvent) (targetVersion : String) (report : ReplayReport) :
    ReplayReport :=
  match prepare engine event targetVersion with
  | .ok (_, []) | .error _ => report
  | .ok (_, path) => { report with upcasts := countUp report.upcasts (upcastKey event path) }

inductive StepResult (S : Type) where
  | next (progress : Progress S)
  | checkpoint (progress : Progress S)
  | abort (message : String) (report : ReplayReport)
  | halt (report : ReplayReport)

/-- The end of the loop body: the position moves on, and a checkpoint may be due. -/
def moveOn (event : StoredEvent) (progress : Progress S) : StepResult S :=
  let progress := { progress with
    lastSequence := event.sequence, sinceCheckpoint := progress.sinceCheckpoint + 1 }
  if options.dryRun = false ∧ max 1 options.checkpointEvery ≤ progress.sinceCheckpoint then
    .checkpoint progress
  else .next progress

def handleEvent (event : StoredEvent) (targetVersion : String) (progress : Progress S) :
    StepResult S :=
  let report := countUpcast engine event targetVersion progress.report
  match applyEvent engine projection options event targetVersion progress.state with
  | .ok state =>
    moveOn options event { progress with
      state, report := { report with applied := report.applied + 1 } }
  | .error e =>
    let report := { report with poisonEvents := report.poisonEvents ++
      [⟨event.sequence, event.eventId, event.eventName, event.schemaVersion, e.reason⟩] }
    let progress := { progress with report }
    if options.onPoisonEvent = .halt then
      .halt (finish engine projection progress .halted
        (some ("halted at sequence " ++ String.ofList (intText event.sequence) ++ ": " ++
          e.reason)))
    else moveOn options event progress

/-- An event that is not in the applied part of the stream. -/
def newEvent (event : StoredEvent) (progress : Progress S) : StepResult S :=
  match tamperCheck engine progress.lastHash event with
  | .error (message, reason) =>
    .abort message (finish engine projection progress .aborted (some reason))
  | .ok lastHash =>
    let progress := { progress with lastHash, progressed := true }
    match projection.handles event.eventName with
    | none => .next { progress with
        lastSequence := event.sequence
        report := { progress.report with ignored := progress.report.ignored + 1 } }
    | some targetVersion => handleEvent engine projection options event targetVersion progress

def Progress.countRead : Progress S :=
  { progress with
    report := { progress.report with eventsRead := progress.report.eventsRead + 1 } }

def replayStep (event : StoredEvent) (progress : Progress S) : StepResult S :=
  let progress := progress.countRead
  if event.sequence ≤ progress.lastSequence then
    if event.sequence = progress.lastSequence ∨ progress.progressed = false then
      .next { progress with
        report := { progress.report with duplicates := progress.report.duplicates + 1 } }
    else
      .abort ("Event stream went backwards at sequence " ++
          String.ofList (intText event.sequence) ++ " (after " ++
            String.ofList (intText progress.lastSequence) ++ ")")
        (finish engine projection progress .aborted (some "sequence regression"))
  else newEvent engine projection options event progress

/-! ## The rebuild -/

inductive ReplayOp (S : Type) where
  | load
  | readSource (afterSequence : Int)
  | save (checkpoint : ProjectionCheckpoint S)
  | swap (next : PublishedProjection S)
  | clear

/-- The type an operation resolves to; a source is the list of the events it delivers. -/
def ReplayOp.Res {S : Type} : ReplayOp S → Type
  | .load => Option (ProjectionCheckpoint S)
  | .readSource _ => List StoredEvent
  | .save _ => Unit
  | .swap _ => Option (PublishedProjection S)
  | .clear => Unit

def replayInterface (S : Type) : Interface where
  Op := ReplayOp S
  Res := ReplayOp.Res

/-- What a rebuild throws: `ReplayAbortedError`, or what a store or the source threw. -/
inductive ReplayFailure where
  | aborted (message : String) (report : ReplayReport)
  | rejected (e : Failure)

abbrev ReplayProgram (S α : Type) : Type :=
  Async (replayInterface S) ReplayFailure α

variable (S) in
def loadCheckpoint : ReplayProgram S (Option (ProjectionCheckpoint S)) :=
  Async.call (I := replayInterface S) .load

variable (S) in
def readSource (afterSequence : Int) : ReplayProgram S (List StoredEvent) :=
  Async.call (I := replayInterface S) (.readSource afterSequence)

def saveCheckpoint (checkpoint : ProjectionCheckpoint S) : ReplayProgram S Unit :=
  Async.call (I := replayInterface S) (.save checkpoint)

def swapProjection (next : PublishedProjection S) :
    ReplayProgram S (Option (PublishedProjection S)) :=
  Async.call (I := replayInterface S) (.swap next)

variable (S) in
def clearCheckpoint : ReplayProgram S Unit :=
  Async.call (I := replayInterface S) .clear

def checkpointOf : ProjectionCheckpoint S where
  projection := projection.name
  version := projection.version
  sequence := progress.lastSequence
  state := progress.state

def Progress.saved : Progress S :=
  { progress with
    report := { progress.report with checkpoints := progress.report.checkpoints + 1 }
    sinceCheckpoint := 0 }

/-- How the loop ends: no event is left, or a poison event halts it. -/
inductive LoopEnd (S : Type) where
  | exhausted (progress : Progress S)
  | halted (report : ReplayReport)

def limitReached : Bool :=
  options.limit.any (· ≤ progress.report.eventsRead)

def replayLoop : List StoredEvent → Progress S → ReplayProgram S (LoopEnd S)
  | [], progress => .done (.exhausted progress)
  | event :: events, progress =>
    if limitReached options progress then .done (.exhausted progress)
    else
      match replayStep engine projection options event progress with
      | .next progress => replayLoop events progress
      | .checkpoint progress => do
          saveCheckpoint (checkpointOf projection progress)
          replayLoop events progress.saved
      | .abort message report => .fail (.aborted message report)
      | .halt report => .done (.halted report)

def publication : PublishedProjection S where
  projection := projection.name
  version := projection.version
  sequence := progress.lastSequence
  state := progress.state
  stateHash := hashState engine.sha256 (projection.view progress.state)

def conclude : LoopEnd S → ReplayProgram S ReplayReport
  | .halted report => .done report
  | .exhausted progress =>
    if options.dryRun then .done (finish engine projection progress .dryRun none)
    else do
      let _ ← swapProjection (publication engine projection progress)
      clearCheckpoint S
      .done (finish engine projection progress .published none)

/-- The local variables at the start, from the checkpoint if there is one. -/
def startProgress (checkpoint : Option (ProjectionCheckpoint S)) : Progress S :=
  let lastSequence := (checkpoint.map (·.sequence)).getD 0
  { state := (checkpoint.map (·.state)).getD projection.initialState
    lastSequence := lastSequence
    report := {
      projection := projection.name
      version := projection.version
      resumedFromSequence := lastSequence
      lastSequence := lastSequence } }

def rebuildFrom (checkpoint : Option (ProjectionCheckpoint S)) : ReplayProgram S ReplayReport := do
  let progress := startProgress projection checkpoint
  let events ← readSource S progress.lastSequence
  let ended ← replayLoop engine projection options events progress
  conclude engine projection options ended

/-- `run`: one attempt to rebuild a projection. -/
def rebuild : ReplayProgram S ReplayReport :=
  if options.resume = false ∨ options.dryRun = true then
    rebuildFrom engine projection options none
  else do
    let checkpoint ← loadCheckpoint S
    rebuildFrom engine projection options checkpoint

end Trellis.Events
