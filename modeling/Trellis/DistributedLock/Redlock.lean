import Trellis.Core.Failure
import Trellis.Core.Pool
import Trellis.Core.Store

/-!
# The Redlock lock manager

`RedlockManager` and `Lock` over `N` Redis nodes and one clock. A command that `onAllNodes` sends
is executed by each node at some later instant, or never; the client counts the answers it has got
when it stops waiting. Reading the clock is an await here.
-/

namespace Trellis.DistributedLock

open Core Async

/-! ## The nodes -/

/-- What `randomBytes` yields; two draws never coincide. -/
abbrev Token : Type :=
  Nat

abbrev Cell : Type :=
  Option (Expiring ℤ Token)

/-- A command for one key: `SET key token PX ttl NX`, `EXTEND_SCRIPT` and
`RELEASE_SCRIPT`. -/
inductive Command where
  | set (key : String) (token : Token) (ttlMs : ℤ)
  | extend (key : String) (token : Token) (ttlMs : ℤ)
  | release (key : String) (token : Token)

def Command.key : Command → String
  | set key _ _ => key
  | extend key _ _ => key
  | release key _ => key

/-- What a node does to the value of the key, and whether the client counts its answer
as a success. -/
def Command.execute (now : ℤ) (cell : Cell) : Command → Bool × Cell
  | set _ token ttlMs =>
    if Expiring.read now cell = none then (true, some ⟨token, now + ttlMs⟩)
    else (false, cell)
  | extend _ token ttlMs =>
    -- a `pexpire` that is not positive deletes the key: its deadline has passed
    if Expiring.read now cell = some token then (true, some ⟨token, now + ttlMs⟩)
    else (false, cell)
  | release _ token =>
    if Expiring.read now cell = some token then (true, none) else (true, cell)

/-! ## The world -/

/-- A command sent to all nodes, and the answers of those that have executed it. -/
structure Broadcast (N : Nat) where
  command : Command
  sentAt : ℤ
  replies : Fin N → Option Bool

structure Lock where
  key : String
  token : Token
  expiresAt : ℤ
  released : Bool := false
deriving DecidableEq

def Lock.isValid (now : ℤ) (lock : Lock) : Bool :=
  !lock.released && decide (now < lock.expiresAt)

/-- The clock, the nodes, the commands under way, the `Lock` objects, and who has drawn
which token. -/
structure World (N : Nat) (ι : Type) where
  clock : ℤ
  cells : Fin N → String → Cell
  messages : Slots (Broadcast N)
  locks : Slots Lock
  owners : Slots ι

variable {N : Nat} {ι : Type}

def World.start (now : ℤ) : World N ι where
  clock := now
  cells _ _ := none
  messages := .empty
  locks := .empty
  owners := .empty

def Broadcast.answer (b : Broadcast N) (node : Fin N) (reply : Bool) : Broadcast N :=
  { b with replies := Function.update b.replies node (some reply) }

def World.write (w : World N ι) (node : Fin N) (key : String) (cell : Cell) : World N ι :=
  { w with
    cells := Function.update w.cells node (Function.update (w.cells node) key cell) }

def World.deliver (w : World N ι) (message : Nat) (b : Broadcast N) (node : Fin N) : World N ι :=
  let result := b.command.execute w.clock (w.cells node b.command.key)
  let w := w.write node b.command.key result.2
  { w with messages := w.messages.modify message (·.answer node result.1) }

def World.send (w : World N ι) (command : Command) : World N ι :=
  { w with messages := w.messages.push ⟨command, w.clock, fun _ => none⟩ }

inductive Op (N : Nat) where
  | randomBytes
  | now
  | send (command : Command)
  | collect (message : Nat)
  | newLock (lock : Lock)
  | readLock (lock : Nat)
  | setExpiresAt (lock : Nat) (expiresAt : ℤ)
  | setReleased (lock : Nat)
  | deliver (message : Nat) (node : Fin N)

def Op.Res : Op N → Type
  | .randomBytes => Token
  | .now => ℤ
  | .send _ => Nat
  | .collect _ => Nat
  | .newLock _ => Nat
  | .readLock _ => Lock
  | .setExpiresAt _ _ => Unit
  | .setReleased _ => Unit
  | .deliver _ _ => Unit

def redlockInterface (N : Nat) : Interface where
  Op := Op N
  Res := Op.Res

abbrev Program (N : Nat) (α : Type) : Type :=
  Async (redlockInterface N) Failure α

/-- Perform one operation.  The choice is the set of nodes whose success a client has
heard of when it stops waiting. -/
def World.perform (i : ι) (heard : Finset (Fin N)) :
    (op : Op N) → World N ι → Option (Except Failure op.Res × World N ι)
  | .randomBytes, w => some (.ok w.owners.next, { w with owners := w.owners.push i })
  | .now, w => some (.ok w.clock, w)
  | .send command, w => some (.ok w.messages.next, w.send command)
  | .collect message, w =>
    match w.messages.get message with
    | some b => if ∀ n ∈ heard, b.replies n = some true then some (.ok heard.card, w) else none
    | none => none
  | .newLock lock, w => some (.ok w.locks.next, { w with locks := w.locks.push lock })
  | .readLock lock, w => (w.locks.get lock).map fun l => (.ok l, w)
  | .setExpiresAt lock expiresAt, w =>
    some (.ok (), { w with locks := w.locks.modify lock ({ · with expiresAt }) })
  | .setReleased lock, w =>
    some (.ok (), { w with locks := w.locks.modify lock ({ · with released := true }) })
  | .deliver message node, w =>
    match w.messages.get message with
    | some b =>
      if b.replies node = none then some (.ok (), w.deliver message b node) else none
    | none => none

/-- The nodes, the network and the clock: time passes whenever it likes. -/
def redlockSemantics (N : Nat) (ι : Type) :
    Semantics (redlockInterface N) Failure ι (World N ι) where
  Choice := Finset (Fin N)
  perform i op heard w := World.perform i heard op w
  Event := Nat
  happen ms w := { w with clock := w.clock + ms }

/-! ## The operations as typed programs -/

def randomBytes : Program N Token :=
  call (I := redlockInterface N) .randomBytes

def now : Program N ℤ :=
  call (I := redlockInterface N) .now

/-- `onAllNodes`: send the command everywhere, and count the successes heard of. -/
def onAllNodes (command : Command) : Program N Nat := do
  let message ← (call (I := redlockInterface N) (.send command) : Program N Nat)
  (call (I := redlockInterface N) (.collect message) : Program N Nat)

def newLock (lock : Lock) : Program N Nat :=
  call (I := redlockInterface N) (.newLock lock)

def readLock (lock : Nat) : Program N Lock :=
  call (I := redlockInterface N) (.readLock lock)

def setExpiresAt (lock : Nat) (expiresAt : ℤ) : Program N Unit :=
  call (I := redlockInterface N) (.setExpiresAt lock expiresAt)

def setReleased (lock : Nat) : Program N Unit :=
  call (I := redlockInterface N) (.setReleased lock)

def deliver (message : Nat) (node : Fin N) : Program N Unit :=
  call (I := redlockInterface N) (.deliver message node)

/-! ## The manager -/

/-- `RedlockOptions`, as far as they matter for the keys and the validity of a lock. -/
structure RedlockOptions where
  keyPrefix : String := "trellis:lock:"
  driftFactor : ℚ := 1 / 100
  driftFactor_nonneg : 0 ≤ driftFactor

variable (options : RedlockOptions)

def RedlockOptions.keyFor (name : String) : String :=
  options.keyPrefix ++ name

def RedlockOptions.drift (ttlMs : ℤ) : ℤ :=
  ⌊ttlMs * options.driftFactor⌋ + 2

def quorum (N : Nat) : Nat :=
  N / 2 + 1

def releaseRaw (key : String) (token : Token) : Program N Unit := do
  let _ ← onAllNodes (.release key token)
  .done ()

def extendRaw (key : String) (token : Token) (ttlMs : ℤ) : Program N (Option ℤ) := do
  let start ← now
  let votes ← onAllNodes (.extend key token ttlMs)
  let expiresAt := start + ttlMs - options.drift ttlMs
  let current ← now
  if quorum N ≤ votes ∧ current < expiresAt then .done (some expiresAt) else .done none

/-- One turn of the loop of `acquire`. -/
def acquireOnce (key : String) (ttlMs : ℤ) : Program N (Option Nat) := do
  let token ← randomBytes
  let start ← now
  let votes ← onAllNodes (.set key token ttlMs)
  let expiresAt := start + ttlMs - options.drift ttlMs
  let current ← now
  if quorum N ≤ votes ∧ current < expiresAt then do
    let lock ← newLock { key, token, expiresAt }
    .done (some lock)
  else do
    releaseRaw key token
    .done none

/-- The loop of `acquire` with so many turns left; the pause between two turns is time
that passes. -/
def acquireLoop (options : RedlockOptions) (key : String) (ttlMs : ℤ) : Nat → Program N (Option Nat)
  | 0 => .done none
  | turns + 1 => do
      let lock ← acquireOnce options key ttlMs
      match lock with
      | some lock => .done (some lock)
      | none => acquireLoop options key ttlMs turns

def acquire (name : String) (ttlMs : ℤ) (retryCount : Nat) : Program N (Option Nat) :=
  if ttlMs ≤ 0 then
    .fail (.error ("Lock TTL must be a positive number of ms (got " ++ toString ttlMs ++ ")"))
  else acquireLoop options (options.keyFor name) ttlMs (retryCount + 1)

def acquireOrThrow (name : String) (ttlMs : ℤ) (retryCount : Nat) : Program N Nat := do
  let lock ← acquire options name ttlMs retryCount
  match lock with
  | some lock => .done lock
  | none => .fail (.error
      ("Could not acquire distributed lock \"" ++ name ++ "\": held by another node"))

/-! ## Lock objects -/

def Lock.extend (lock : Nat) (ttlMs : ℤ) : Program N Bool := do
  let this ← readLock lock
  if this.released then .done false
  else do
    let expiresAt ← extendRaw options this.key this.token ttlMs
    match expiresAt with
    | none => .done false
    | some expiresAt => do
        setExpiresAt lock expiresAt
        .done true

def Lock.release (lock : Nat) : Program N Unit := do
  let this ← readLock lock
  if this.released then .done ()
  else do
    setReleased lock
    releaseRaw this.key this.token

/-! ## Runs -/

def deliverAll : List (Nat × Fin N) → Program N Unit
  | [] => .done ()
  | (message, node) :: rest => do
      deliver message node
      deliverAll rest

inductive Request (N : Nat) where
  | acquire (name : String) (ttlMs : ℤ) (retryCount : Nat)
  | extend (lock : Nat) (ttlMs : ℤ)
  | release (lock : Nat)
  | network (deliveries : List (Nat × Fin N))

def Request.program : Request N → Program N Unit
  | .acquire name ttlMs retryCount => do
      let _ ← DistributedLock.acquire options name ttlMs retryCount
      .done ()
  | .extend lock ttlMs => do
      let _ ← Lock.extend options lock ttlMs
      .done ()
  | .release lock => Lock.release lock
  | .network deliveries => deliverAll deliveries

abbrev RedlockPool (N : Nat) (ι : Type) : Type :=
  Pool (redlockInterface N) Failure ι (World N ι) Unit

def startPool (now : ℤ) (requests : ι → Request N) : RedlockPool N ι where
  world := World.start now
  calls i := (requests i).program options

end Trellis.DistributedLock
