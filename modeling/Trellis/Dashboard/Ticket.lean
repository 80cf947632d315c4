import Trellis.Core.Failure
import Trellis.Core.Json
import Trellis.Core.Pool
import Trellis.Core.Record

/-!
# Tickets of WebSocket connections

`createTicket` and `validateAndConsumeTicket` of `ws-ticket.service.ts` on instances that share one
Redis.  A ticket is stored twice: in Redis and in the memory of the instance that has issued it.
-/

namespace Trellis.Dashboard

open Core Function

/-! ## Configuration -/

structure RedisClient where
  set : Bool := true
  setex : Bool := true
  eval : Bool := true
  getdel : Bool := true
  get : Bool := true
  del : Bool := true

/-- The client, if there is one, and `JSON.parse`. -/
structure TicketConfig where
  redis : Option RedisClient := some {}
  parse : String → Option Value

def ticketTtl : Int := 30 * 1000

/-! ## Awaited operations -/

/-- A new ticket with the time of its creation, the commands of Redis, where `redisTake` is the
script and `GETDEL`, the store in memory, and the part of the validation after Redis. -/
inductive TicketOp where
  | newTicket
  | redisSet (ticket payload : String)
  | remember (ticket payload : String)
  | redisTake (ticket : String)
  | redisGet (ticket : String)
  | redisDel (ticket : String)
  | checkMemory (ticket : String) (rawPayload : Option String)

def TicketOp.Res : TicketOp → Type
  | .newTicket => String × Int
  | .redisTake _ | .redisGet _ | .checkMemory _ _ => Option String
  | .redisSet _ _ | .remember _ _ | .redisDel _ => Unit

def ticketInterface : Interface where
  Op := TicketOp
  Res := TicketOp.Res

abbrev TicketProgram (α : Type) : Type :=
  Async ticketInterface Failure α

abbrev ask (op : ticketInterface.Op) : TicketProgram (ticketInterface.Res op) :=
  .call op

/-! ## The code -/

def ticketPayload (userId : String) (metadata : Record Value) (createdAt : Int) : String :=
  let record := metadata.entries.foldl (fun r m => r.set m.1 m.2)
    (Record.empty.set "userId" (.str userId))
  (stringify (.obj (record.set "createdAt" (.int createdAt)).entries)).getD ""

variable (cfg : TicketConfig)

/-- Whether `createTicket` stores the ticket in Redis. -/
def TicketConfig.storesInRedis : Bool :=
  match cfg.redis with
  | some client => client.set || client.setex
  | none => false

def createTicket (userId : String) (metadata : Record Value) : TicketProgram String := do
  let ticket : String × Int ← ask .newTicket
  let payload := ticketPayload userId metadata ticket.2
  if cfg.storesInRedis then
    let _ ← (ask (.redisSet ticket.1 payload)).attempt
  ask (.remember ticket.1 payload)
  .done ticket.1

def isTruthyText (text : Option String) : Bool :=
  text.any (· ≠ "")

def lookUp (client : RedisClient) (ticket : String) : TicketProgram (Option String) :=
  if client.eval || client.getdel then do
    let found ← (ask (.redisTake ticket)).attempt
    .done (found.toOption.getD none)
  else if client.get then do
    let found ← (ask (.redisGet ticket)).attempt
    let rawPayload : Option String := found.toOption.getD none
    if isTruthyText rawPayload && client.del then
      let _ ← (ask (.redisDel ticket)).attempt
    .done rawPayload
  else .done none

def redisPayload (ticket : String) : TicketProgram (Option String) :=
  match cfg.redis with
  | some client => lookUp client ticket
  | none => .done none

def validateAndConsumeTicket (ticket : String) : TicketProgram Value :=
  if ticket = "" then .done .null
  else do
    let rawPayload ← redisPayload cfg ticket
    let payload : Option String ←
      ask (.checkMemory ticket rawPayload)
    match payload with
    | none => .done .null
    | some text => .done ((cfg.parse text).getD (.obj [("userId", .str text)]))

/-! ## Calls -/

inductive TicketCall where
  | create (userId : String) (metadata : Record Value)
  | validate (ticket : String)

inductive TicketAnswer where
  | created (ticket : String)
  | validated (data : Value)

def TicketCall.program : TicketCall → TicketProgram TicketAnswer
  | .create userId metadata => do
      let ticket ← createTicket cfg userId metadata
      .done (.created ticket)
  | .validate ticket => do
      let data ← validateAndConsumeTicket cfg ticket
      .done (.validated data)

/-! ## The world -/

inductive TicketStage (ι : Type) where
  | unissued
  | minted (i : ι)
  | offered (i : ι)
  | issued
deriving DecidableEq

/-- One ticket: its payload in Redis, and its entry in the memory of every instance.  No code reads
the other fields: how far its creation has come, the callers that Redis has given it to, and those
that have accepted it. -/
structure TicketState (ι π : Type) where
  redis : Option String := none
  memory : π → Option (String × Int) := fun _ => none
  stage : TicketStage ι := .unissued
  given : List ι := []
  accepted : List ι := []

abbrev TicketWorld (ι π : Type) : Type :=
  String → TicketState ι π

/-- How an operation ends: it is performed, at a time, or with the random part of a new ticket; it
is rejected without effect, or performed and its answer is lost. -/
inductive TicketChoice where
  | served (time : Int)
  | minted (random : String) (time : Int)
  | rejected (e : Failure)
  | lost (e : Failure)

/-- Keys expire in Redis, and an instance cleans up its memory. -/
inductive TicketEvent (π : Type) where
  | expire (ticket : String)
  | cleanup (p : π) (now : Int)

namespace TicketState

variable {ι π : Type} [DecidableEq π]

def forget (s : TicketState ι π) (p : π) : TicketState ι π :=
  { s with memory := update s.memory p none }

/-- The payload after the memory of an instance was looked at. -/
def payloadAt (s : TicketState ι π) (p : π) (rawPayload : Option String) (time : Int) :
    Option String :=
  if isTruthyText rawPayload then rawPayload
  else ((s.memory p).bind fun entry => if time < entry.2 then some entry.1 else none).filter
    (· ≠ "")

/-- The part of the validation after Redis, for caller `i` on an instance. -/
def checked (s : TicketState ι π) (i : ι) (p : π) (rawPayload : Option String) (time : Int) :
    TicketState ι π :=
  match s.payloadAt p rawPayload time with
  | some _ => { s.forget p with accepted := i :: s.accepted }
  | none => s.forget p

end TicketState

namespace TicketWorld

variable {ι π : Type} [DecidableEq ι] [DecidableEq π]

def perform (process : ι → π) (i : ι) : (op : TicketOp) → TicketChoice → TicketWorld ι π →
    Option (Except Failure op.Res × TicketWorld ι π)
  | .newTicket, .minted random time, w =>
    let ticket := "wst_" ++ random
    if (w ticket).stage = .unissued then
      some (.ok (ticket, time), update w ticket { w ticket with stage := .minted i })
    else none
  | .redisSet ticket payload, .served _, w =>
    some (.ok (),
      update w ticket { w ticket with redis := some payload, stage := .offered i })
  | .redisSet ticket payload, .lost e, w =>
    some (.error e,
      update w ticket { w ticket with redis := some payload, stage := .offered i })
  | .redisSet ticket _, .rejected e, w =>
    some (.error e, update w ticket { w ticket with stage := .offered i })
  | .remember ticket payload, .served time, w =>
    some (.ok (), update w ticket
      { w ticket with
        memory := update (w ticket).memory (process i) (some (payload, time + ticketTtl))
        stage := .issued })
  | .redisTake ticket, .served _, w =>
    match (w ticket).redis with
    | some payload =>
      some (.ok (some payload), update w ticket
        { w ticket with redis := none, given := i :: (w ticket).given })
    | none => some (.ok none, w)
  | .redisTake ticket, .lost e, w | .redisDel ticket, .lost e, w =>
    some (.error e, update w ticket { w ticket with redis := none })
  | .redisGet ticket, .served _, w =>
    match (w ticket).redis with
    | some payload =>
      some (.ok (some payload), update w ticket
        { w ticket with given := i :: (w ticket).given })
    | none => some (.ok none, w)
  | .redisDel ticket, .served _, w =>
    some (.ok (), update w ticket { w ticket with redis := none })
  | .redisTake _, .rejected e, w | .redisGet _, .rejected e, w | .redisGet _, .lost e, w
  | .redisDel _, .rejected e, w => some (.error e, w)
  | .checkMemory ticket rawPayload, .served time, w =>
    some (.ok ((w ticket).payloadAt (process i) rawPayload time),
      update w ticket ((w ticket).checked i (process i) rawPayload time))
  | _, _, _ => none

def happen : TicketEvent π → TicketWorld ι π → TicketWorld ι π
  | .expire ticket, w => update w ticket { w ticket with redis := none }
  | .cleanup p now, w => fun ticket =>
    { w ticket with
      memory := update (w ticket).memory p
        (((w ticket).memory p).filter fun entry => now < entry.2) }

end TicketWorld

def ticketSemantics {ι π : Type} [DecidableEq ι] [DecidableEq π] (process : ι → π) :
    Semantics ticketInterface Failure ι (TicketWorld ι π) where
  Choice := TicketChoice
  perform := TicketWorld.perform process
  Event := TicketEvent π
  happen := TicketWorld.happen

def ticketPool {ι π : Type} (calls : ι → TicketCall) :
    Pool ticketInterface Failure ι (TicketWorld ι π) TicketAnswer where
  world _ := {}
  calls i := (calls i).program cfg

end Trellis.Dashboard
