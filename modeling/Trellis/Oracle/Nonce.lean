import Trellis.Core.Failure
import Trellis.Core.Json
import Trellis.Core.Pool

/-!
# Nonces of an address

`getCurrentNonce`, `getAndIncrementNonce` and `validateNonce` of `nonce-management.service.ts` for
one address. A database keeps one row with the nonce, and every process caches it for a minute.
The row can be locked once it exists, writes become visible at the commit, and the unique address
makes an insertion wait for another one that is not committed.
-/

namespace Trellis.Oracle

open Core

/-! ## Awaited operations -/

/-- A `SubmissionNonce`; one that `create` has made is not in the table yet. -/
structure NonceEntity where
  nonce : Int
  isNew : Bool := false

/-- Look up and fill the cache and clear it when a nonce is handed out, the read and the save
outside a transaction, and what a transaction does: its beginning, the read that locks the row,
the save, and its two ends. -/
inductive NonceOp where
  | cached
  | fill (nonce : Int)
  | invalidate (nonce : Int)
  | findOne
  | save (entity : NonceEntity)
  | startTransaction
  | lockOne
  | saveLocked (entity : NonceEntity)
  | commitTransaction
  | rollbackTransaction

def NonceOp.Res : NonceOp → Type
  | .cached | .findOne | .lockOne => Option Int
  | _ => Unit

def nonceInterface : Interface where
  Op := NonceOp
  Res := NonceOp.Res

abbrev NonceProgram (α : Type) : Type :=
  Async nonceInterface Failure α

abbrev askNonce (op : nonceInterface.Op) : NonceProgram (nonceInterface.Res op) :=
  .call op

/-! ## The code -/

/-- The entity of `findOne`, or the one that `create` makes. -/
def entityOf : Option Int → NonceEntity
  | some nonce => { nonce := nonce }
  | none => { nonce := 0, isNew := true }

/-- The part of `getCurrentNonce` after the cache: the row is read and created where it is
missing. -/
def fetchNonce : NonceProgram Int := do
  let found : Option Int ← askNonce .findOne
  let nonceEntity := entityOf found
  if nonceEntity.isNew then
    askNonce (.save nonceEntity)
  .done nonceEntity.nonce

def getCurrentNonce : NonceProgram Int := do
  let cached : Option Int ← askNonce .cached
  match cached with
  | some nonce => .done nonce
  | none => do
      let nonce ← fetchNonce
      askNonce (.fill nonce)
      .done nonce

/-- The callback of `getAndIncrementNonce`. -/
def incrementLocked : NonceProgram Int := do
  let found : Option Int ← askNonce .lockOne
  let nonceEntity := entityOf found
  let currentNonce := nonceEntity.nonce
  askNonce (.saveLocked { nonceEntity with nonce := currentNonce + 1 })
  .done currentNonce

def inTransaction {α : Type} (callback : NonceProgram α) : NonceProgram α := do
  let result ← Async.attempt do
    askNonce .startTransaction
    let result ← callback
    askNonce .commitTransaction
    .done result
  match result with
  | .ok a => .done a
  | .error e => do
      let _ ← (askNonce .rollbackTransaction).attempt
      .fail e

def getAndIncrementNonce : NonceProgram Int := do
  let result ← inTransaction incrementLocked
  askNonce (.invalidate result)
  .done result

/-- `validateNonce`; the nonce of the row is compared as a text. -/
def validateNonce (nonce : String) : NonceProgram Bool := do
  let currentNonce ← getCurrentNonce
  .done (nonce = String.ofList (intText currentNonce))

/-! ## Calls -/

inductive NonceCall where
  | getCurrentNonce
  | getAndIncrementNonce
  | validateNonce (nonce : String)

inductive NonceAnswer where
  | current (nonce : Int)
  | incremented (nonce : Int)
  | validated (isValid : Bool)
deriving DecidableEq

def NonceCall.program : NonceCall → NonceProgram NonceAnswer
  | .getCurrentNonce => do
      let nonce ← Oracle.getCurrentNonce
      .done (.current nonce)
  | .getAndIncrementNonce => do
      let nonce ← Oracle.getAndIncrementNonce
      .done (.incremented nonce)
  | .validateNonce nonce => do
      let isValid ← Oracle.validateNonce nonce
      .done (.validated isValid)

/-! ## The world -/

/-- The nonce of the committed row, who has locked it, who has inserted a row without having
committed it, the nonce that every open transaction has written, and the cache of every process.
No code reads the last two fields: which callers have committed an increment of which nonce, and
the nonces that were handed out. -/
structure NonceWorld (ι π : Type) where
  row : Option Int
  holder : Option ι := none
  inserter : Option ι := none
  drafts : ι → Option Int := fun _ => none
  caches : π → Option (Int × Int) := fun _ => none
  taken : List (ι × Int) := []
  resolved : List Int := []

/-- How an operation ends: it is performed, at a time, or rejected without effect. -/
inductive NonceChoice where
  | served (time : Int)
  | rejected (e : Failure)

def cacheTtl : Int := 60000

def duplicateKey : Failure :=
  .error "duplicate key value violates unique constraint"

namespace NonceWorld

variable {ι π : Type} [DecidableEq ι] [DecidableEq π]

variable (w : NonceWorld ι π)

def release (i : ι) : NonceWorld ι π :=
  { w with
    holder := if w.holder = some i then none else w.holder
    inserter := if w.inserter = some i then none else w.inserter
    drafts := Function.update w.drafts i none }

def commit (i : ι) : NonceWorld ι π :=
  match w.drafts i with
  | some nonce =>
    { w.release i with
      row := some nonce
      taken := w.taken ++ [(i, nonce - 1)] }
  | none => w.release i

def setCache (p : π) (entry : Option (Int × Int)) : NonceWorld ι π :=
  { w with caches := Function.update w.caches p entry }

/-- Save an entity outside a transaction: a new row waits for an insertion that is not committed,
and there is at most one; a row that is there is written when nobody has locked it. -/
def saved (entity : NonceEntity) : Option (Except Failure Unit × NonceWorld ι π) :=
  if entity.isNew then
    if w.inserter ≠ none then none
    else if w.row ≠ none then some (.error duplicateKey, w)
    else some (.ok (), { w with row := some entity.nonce })
  else
    if w.holder ≠ none then none
    else some (.ok (), { w with row := w.row.map fun _ => entity.nonce })

/-- Save an entity in the transaction of caller `i`. -/
def savedLocked (i : ι) (entity : NonceEntity) : Option (Except Failure Unit × NonceWorld ι π) :=
  if entity.isNew then
    if w.inserter ≠ none then none
    else if w.row ≠ none then some (.error duplicateKey, w)
    else some (.ok (),
      { w with inserter := some i, drafts := Function.update w.drafts i (some entity.nonce) })
  else
    if w.row = none then some (.ok (), w)
    else if w.holder ≠ none ∧ w.holder ≠ some i then none
    else some (.ok (),
      { w with holder := some i, drafts := Function.update w.drafts i (some entity.nonce) })

/-- Read the row and lock it, once nobody else has locked it; a row that is not there cannot be
locked. -/
def locked (i : ι) : Option (Except Failure (Option Int) × NonceWorld ι π) :=
  if w.row = none then some (.ok none, w)
  else if w.holder ≠ none ∧ w.holder ≠ some i then none
  else some (.ok w.row, { w with holder := some i })

def perform (process : ι → π) (i : ι) : (op : NonceOp) → NonceChoice → NonceWorld ι π →
    Option (Except Failure op.Res × NonceWorld ι π)
  | .cached, .served time, w =>
    some (.ok ((w.caches (process i)).bind fun entry =>
      if time - entry.2 < cacheTtl then some entry.1 else none), w)
  | .fill nonce, .served time, w => some (.ok (), w.setCache (process i) (some (nonce, time)))
  | .invalidate nonce, .served _, w =>
    some (.ok (), { w.setCache (process i) none with resolved := nonce :: w.resolved })
  | .findOne, .served _, w => some (.ok w.row, w)
  | .save entity, .served _, w => w.saved entity
  | .startTransaction, .served _, w => some (.ok (), w)
  | .lockOne, .served _, w => w.locked i
  | .saveLocked entity, .served _, w => w.savedLocked i entity
  | .commitTransaction, .served _, w => some (.ok (), w.commit i)
  | .rollbackTransaction, .served _, w => some (.ok (), w.release i)
  -- the database ends a transaction whose connection is lost
  | .rollbackTransaction, .rejected e, w => some (.error e, w.release i)
  | .cached, .rejected _, _ | .fill _, .rejected _, _ | .invalidate _, .rejected _, _ => none
  | .findOne, .rejected e, w | .save _, .rejected e, w | .startTransaction, .rejected e, w
  | .lockOne, .rejected e, w | .saveLocked _, .rejected e, w
  | .commitTransaction, .rejected e, w => some (.error e, w)

end NonceWorld

section Semantics

variable {ι π : Type} [DecidableEq ι] [DecidableEq π]

/-- The callers share the database, and those of one process its cache. -/
def nonceSemantics (process : ι → π) : Semantics nonceInterface Failure ι (NonceWorld ι π) where
  Choice := NonceChoice
  perform := NonceWorld.perform process
  Event := Empty
  happen e := e.elim

def noncePool (calls : ι → NonceCall) (row : Option Int) :
    Pool nonceInterface Failure ι (NonceWorld ι π) NonceAnswer where
  world := { row := row }
  calls i := (calls i).program

end Semantics

end Trellis.Oracle
