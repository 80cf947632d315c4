import Trellis.Core.RelyGuarantee
import Trellis.Reconciliation.Service

/-!
# Polling Horizon

`pollHorizon` of `reconciliation.service.ts`: the records after the cursor are fetched page by
page and ingested one by one; the cursor follows the records that were processed. The world
answers from a fixed stream and keeps the records that were handed to reconciliation and those
whose new row was stored although its answer was lost.
-/

namespace Trellis.Reconciliation

open Core

/-! ## Records -/

/-- A member of a decoded record: a text, a number or another value with its `String(value)`. -/
inductive Unknown where
  | undefined
  | null
  | str (s : String)
  | num (text : String)
  | other (text : String)
deriving DecidableEq

namespace Unknown

/-- The text, where `typeof value === "string"`. -/
def text? : Unknown → Option String
  | .str s => some s
  | _ => none

def textOr (fallback : String) : Unknown → String
  | .undefined | .null => fallback
  | .str s | .num s | .other s => s

end Unknown

structure HorizonRecord where
  type : Unknown
  transactionHash : Unknown
  ledger : Unknown := .undefined
  sender : Unknown := .undefined
  receiver : Unknown := .undefined
  amount : Unknown := .undefined
  assetType : Unknown := .undefined
  assetCode : Unknown := .undefined
  memo : Unknown := .undefined
  pagingToken : Unknown
deriving DecidableEq

namespace HorizonRecord

/-- `record.type === "payment"`. -/
def isPayment (record : HorizonRecord) : Bool :=
  record.type = .str "payment"

def ingestedHash (record : HorizonRecord) : Option String :=
  if record.isPayment then record.transactionHash.text? else none

def toDto (record : HorizonRecord) (hash : String) : IngestTransactionDto where
  transactionId := hash
  ledger := match record.ledger with
    | .num text | .str text => some text
    | _ => none
  sourceAccount := record.sender.text?
  destinationAccount := record.receiver.textOr ""
  amount := record.amount.textOr "0"
  assetCode := some (if record.assetType = .str "native" then "XLM"
    else record.assetCode.textOr "XLM")
  memo := record.memo.text?

end HorizonRecord

/-- A stream of records in the order of their paging tokens. -/
structure HorizonStream where
  records : List HorizonRecord
  tokens_nodup : (records.filterMap (·.pagingToken.text?)).Nodup
  tokens_truthy : "" ∉ records.filterMap (·.pagingToken.text?)

def HorizonStream.after (stream : HorizonStream) : Option String → List HorizonRecord
  | none => stream.records
  | some token => (stream.records.dropWhile (·.pagingToken ≠ .str token)).drop 1

/-! ## Awaited operations -/

/-- `payload._embedded?.records`. -/
inductive Payload where
  | missing
  | notArray
  | records (records : List HorizonRecord)

/-- The cursor of the service, the Horizon client, and the repositories; a repository call that
is made for a record names it. -/
inductive PollOp where
  | getCursor
  | setCursor (token : String)
  | fetch (cursor : Option String)
  | json (cursor : Option String)
  | store (record : HorizonRecord) (op : Op)
  | saveAudit (audit : Audit)

def PollOp.Res : PollOp → Type
  | .getCursor => Option String
  | .setCursor _ => Unit
  | .fetch _ => Nat
  | .json _ => Payload
  | .store _ op => op.Res
  | .saveAudit _ => Audit

abbrev pollInterface : Interface :=
  ⟨PollOp, PollOp.Res⟩

abbrev PollProgram (α : Type) : Type :=
  Async pollInterface Failure α

abbrev askPoll (op : pollInterface.Op) : PollProgram (pollInterface.Res op) :=
  .call op

/-! ## The poll -/

/-- `this.horizonCursor = record.paging_token`, where that is a text. -/
def advanceCursor (record : HorizonRecord) : PollProgram Unit :=
  match record.pagingToken.text? with
  | some token => askPoll (.setCursor token)
  | none => .done ()

def ingestRecord (cfg : ServiceConfig) (record : HorizonRecord) (hash : String) :
    PollProgram StellarTransaction :=
  (ingestTransaction cfg (record.toDto hash)).lift (.store record) fun _ result => result

def ingestRecords (cfg : ServiceConfig) : List HorizonRecord → Nat → PollProgram Nat
  | [], ingested => .done ingested
  | record :: rest, ingested =>
    match record.ingestedHash with
    | none => do
        advanceCursor record
        ingestRecords cfg rest ingested
    | some hash => do
        let _ ← ingestRecord cfg record hash
        advanceCursor record
        ingestRecords cfg rest (ingested + 1)

def pollPage (cfg : ServiceConfig) (cursor : Option String) : PollProgram Nat := do
  let status : Nat ← askPoll (.fetch cursor)
  if 200 ≤ status ∧ status < 300 then
    match ← askPoll (.json cursor) with
    | .missing => .done 0
    | .notArray => .fail (.error
        "Horizon returned a payment list that is not an array; refusing to advance the cursor")
    | .records records => ingestRecords cfg records 0
  else .fail (.error ("Horizon returned HTTP " ++ Nat.repr status))

structure PollResult where
  skipped : Bool := false
  ingested : Nat

/-- `pollHorizon`; `account` is `STELLAR_RECONCILIATION_ACCOUNT`. -/
def pollHorizon (cfg : ServiceConfig) (account : Option String) : PollProgram PollResult :=
  if truthy account then do
    let cursor : Option String ← askPoll .getCursor
    match ← (pollPage cfg (cursor.filter (· ≠ ""))).attempt with
    | .ok ingested => .done { ingested := ingested }
    | .error e => do
        let _ ← askPoll (.saveAudit
          { decision := .retry, reason := e.message?.getD "undefined", attempt := 1,
            metadata := [("source", "horizon"), ("retryable", "true")] })
        .done { ingested := 0 }
  else .done { skipped := true, ingested := 0 }

/-! ## The world -/

/-- The tables, the cursor, the records that were handed to reconciliation, the records whose
row was stored by a save that failed, and the number of operations so far. -/
structure PollWorld where
  tables : World := {}
  cursor : Option String := none
  handed : List HorizonRecord := []
  lost : List HorizonRecord := []
  operations : Nat := 0

/-- How an operation ends: it is served, with at most `limit` records on a page; the response
has a status; the payload has no list of records; the operation is rejected without effect, or
performed and its answer is lost. -/
inductive PollChoice where
  | served (limit : Nat)
  | status (code : Nat)
  | malformed (missing : Bool)
  | rejected (e : Failure)
  | lost (e : Failure)

def World.ids (w : World) : List String :=
  w.transactions.map (·.transactionId)

namespace PollWorld

/-- The records handed to reconciliation: it begins by looking for an invoice. -/
def handOver (record : HorizonRecord) (op : Op) (w : PollWorld) : PollWorld :=
  match op with
  | .findOldestInvoice _ => { w with handed := record :: w.handed }
  | _ => w

def store (record : HorizonRecord) (op : Op) (c : PollChoice) (w : PollWorld) :
    Except Failure op.Res × PollWorld :=
  let w := w.handOver record op
  match c with
  | .rejected e => (.error e, w)
  | .lost e =>
    let lost := match op with
      | .saveTransaction t =>
        if t.transactionId ∈ w.tables.ids then w.lost else record :: w.lost
      | _ => w.lost
    (.error e, { w with tables := (World.perform op w.tables).2, lost := lost })
  | _ => ((World.perform op w.tables).1, { w with tables := (World.perform op w.tables).2 })

def perform (stream : HorizonStream) (c : PollChoice) :
    (op : PollOp) → PollWorld → Except Failure op.Res × PollWorld
  | .getCursor, w => (.ok w.cursor, w)
  | .setCursor token, w => (.ok (), { w with cursor := some token })
  | .fetch _, w =>
    match c with
    | .rejected e | .lost e => (.error e, w)
    | .status code => (.ok code, w)
    | .served _ | .malformed _ => (.ok (200 : Nat), w)
  | .json cursor, w =>
    match c with
    | .rejected e | .lost e => (.error e, w)
    | .malformed true => (.ok .missing, w)
    | .malformed false => (.ok .notArray, w)
    | .served limit => (.ok (.records ((stream.after cursor).take limit)), w)
    | .status _ => (.ok (.records (stream.after cursor)), w)
  | .store record op, w => w.store record op c
  | .saveAudit audit, w =>
    match c with
    | .rejected e => (.error e, w)
    | .lost e => (.error e, { w with tables := w.tables.audited audit })
    | _ => (.ok audit, { w with tables := w.tables.audited audit })

/-- The next operation ends as `outcomes` says. -/
def scripted (stream : HorizonStream) (outcomes : Nat → PollChoice) (op : PollOp)
    (w : PollWorld) : Except Failure op.Res × PollWorld :=
  perform stream (outcomes w.operations) op { w with operations := w.operations + 1 }

/-- The world after polls at the given times, from the world `w`. -/
def polls (stream : HorizonStream) (cfg : ServiceConfig) (account : Option String)
    (outcomes : Nat → PollChoice) : List Nat → PollWorld → PollWorld
  | [], w => w
  | now :: rest, w =>
    polls stream cfg account outcomes rest (Async.eval (scripted stream outcomes)
      (pollHorizon cfg account) { w with tables := { w.tables with clock := now } }).2

end PollWorld

/-! ## The property -/

def HorizonStream.Passed (stream : HorizonStream) (cursor : Option String) : Prop :=
  ∀ last, stream.records.getLast? = some last →
    ∃ token, last.pagingToken = .str token ∧ cursor = some token

def ExactlyOnce (stream : HorizonStream) (handed : List HorizonRecord) : Prop :=
  ∀ record ∈ stream.records, record.isPayment = true →
    handed.count record = stream.records.count record

/-- The payments of the stream have hashes, and no two have the same. -/
structure HorizonStream.DistinctHashes (stream : HorizonStream) : Prop where
  hashed : ∀ record ∈ stream.records, record.isPayment = true →
    ∃ hash, record.ingestedHash = some hash
  nodup : (stream.records.filterMap (·.ingestedHash)).Nodup

end Trellis.Reconciliation
