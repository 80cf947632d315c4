import Trellis.Core.Async
import Trellis.Core.Json
import Mathlib.Data.Rat.Floor

/-!
# Webhook events and their deliveries

`accept` of `webhook-inbound.service.ts`, `publishEvent` of `webhook-event.service.ts` and
`processDelivery` of `webhook-delivery.service.ts` as the worker of the queue runs it. The id of
an event or a delivery is its position in its table.
-/

namespace Trellis.Webhooks

open Core

/-! ## Rows -/

inductive SubscriptionStatus where
  | active | paused | disabled
  deriving DecidableEq

structure WebhookSubscription where
  id : String
  signingKey : String
  events : List String
  status : SubscriptionStatus := .active
  maxRetries : Int := 5
  retryDelayMs : Int := 1000
  backoffMultiplier : ℚ := 2

def WebhookSubscription.receives (sub : WebhookSubscription) (eventType : String) : Bool :=
  sub.events.contains "*" || sub.events.contains eventType

/-- `source` is `sourceSubscriptionId` with `externalEventId`, a key of the table unless null. -/
structure WebhookEvent where
  eventType : String
  source : Option (String × String)

inductive DeliveryStatus where
  | pending | success | failed | deadLettered
  deriving DecidableEq

structure WebhookDelivery where
  subscriptionId : String
  eventId : Nat
  status : DeliveryStatus := .pending
  attempts : Nat := 0
  maxAttempts : Int
  nextRetryAt : Option Int := none

/-- The tables, and the deliveries of the jobs that wait in the queue. -/
structure WebhookWorld where
  subscriptions : List WebhookSubscription
  events : List WebhookEvent := []
  deliveries : List WebhookDelivery := []
  queue : List Nat := []

/-! ## Awaited operations -/

/-- `updateEvent` stores the status and the count of an event, which nothing reads. -/
inductive WebhookOp where
  | findSubscription (id : String)
  | insertEvent (event : WebhookEvent)
  | findActive
  | insertDelivery (delivery : WebhookDelivery)
  | enqueue (deliveryId : Nat)
  | updateEvent (eventId : Nat)

def WebhookOp.Res : WebhookOp → Type
  | .findSubscription _ => Option WebhookSubscription
  | .insertEvent _ | .insertDelivery _ => Nat
  | .findActive => List WebhookSubscription
  | .enqueue _ | .updateEvent _ => Unit

abbrev webhookInterface : Interface :=
  ⟨WebhookOp, WebhookOp.Res⟩

/-- An HTTP exception, a violated unique index (`23505`), or any other error. -/
inductive WebhookFailure where
  | badRequest (reason message : String)
  | forbidden (reason message : String)
  | notFound (reason message : String)
  | conflict (reason message : String)
  | uniqueViolation
  | other (message : String)
  deriving DecidableEq

abbrev WebhookProgram (α : Type) : Type :=
  Async webhookInterface WebhookFailure α

abbrev ask (op : webhookInterface.Op) : WebhookProgram (webhookInterface.Res op) :=
  .call op

def WebhookWorld.serve :
    (op : WebhookOp) → WebhookWorld → Except WebhookFailure op.Res × WebhookWorld
  | .findSubscription id, w =>
    (.ok (w.subscriptions.find? fun sub => sub.id = id ∧ sub.status = .active), w)
  | .insertEvent event, w =>
    if event.source.isSome ∧ w.events.any (·.source = event.source) then
      (.error .uniqueViolation, w)
    else (.ok w.events.length, { w with events := w.events ++ [event] })
  | .findActive, w => (.ok (w.subscriptions.filter (·.status = .active)), w)
  | .insertDelivery delivery, w =>
    (.ok w.deliveries.length, { w with deliveries := w.deliveries ++ [delivery] })
  | .enqueue id, w => (.ok (), { w with queue := w.queue ++ [id] })
  | .updateEvent _, w => (.ok (), w)

/-- An operation is rejected without effect, or performed with its answer lost. -/
inductive Fault where
  | rejected | lost

def WebhookWorld.perform (fault : WebhookOp → Option Fault) (op : WebhookOp) (w : WebhookWorld) :
    Except WebhookFailure op.Res × WebhookWorld :=
  match fault op with
  | none => w.serve op
  | some .rejected => (.error (.other "Connection terminated"), w)
  | some .lost => (.error (.other "Connection terminated"), (w.serve op).2)

/-! ## Publishing -/

def duplicateEvent : WebhookFailure :=
  .conflict "duplicate_event" "This webhook event ID has already been processed."

def findActiveForEvent (eventType : String) : WebhookProgram (List WebhookSubscription) := do
  let allActive ← ask .findActive
  return allActive.filter (·.receives eventType)

def newDelivery (eventId : Nat) (sub : WebhookSubscription) : WebhookDelivery where
  subscriptionId := sub.id
  eventId := eventId
  maxAttempts := sub.maxRetries

def createDeliveries (eventId : Nat) : List WebhookSubscription → WebhookProgram (List Nat)
  | [] => return []
  | sub :: rest => do
    let id ← ask (.insertDelivery (newDelivery eventId sub))
    let ids ← createDeliveries eventId rest
    return id :: ids

/-- One job for each delivery, with `attempts: 1`. -/
def enqueueAll : List Nat → WebhookProgram Unit
  | [] => return ()
  | id :: ids => do
    let _ ← ask (.enqueue id)
    enqueueAll ids

/-- `publishEvent` once the event is stored.  Without subscribers the loops are empty, and the same
row is saved. -/
def fanOut (eventType : String) (eventId : Nat) : WebhookProgram Nat := do
  let subscribers ← findActiveForEvent eventType
  let ids ← createDeliveries eventId subscribers
  enqueueAll ids
  let _ ← ask (.updateEvent eventId)
  return eventId

def publishEvent (event : WebhookEvent) : WebhookProgram Nat := do
  let saved ← (ask (.insertEvent event)).attempt
  match saved with
  | .error e => .fail (if event.source.isSome ∧ e = .uniqueViolation then duplicateEvent else e)
  | .ok eventId => fanOut event.eventType eventId

/-! ## Inbound events -/

/-- The configured replay window, if it is a finite number, with its text; `JSON.parse`; and the
check of the signature. -/
structure InboundConfig where
  replayWindow : Option (ℚ × String) := none
  parse : String → Option Value
  verifyTimestamped : (body signingKey timestamp signature : String) → Bool

def InboundConfig.toleranceSeconds (cfg : InboundConfig) : ℚ × String :=
  (cfg.replayWindow.filter (0 ≤ ·.1)).getD (300, "300")

inductive Header where
  | absent
  | one (value : String)
  | many (values : List String)

def Header.read : Header → Option String
  | .absent => none
  | .one value => if trim value = "" then none else some (trim value)
  | .many values => (values.find? (trim · ≠ "")).map trim

structure InboundCall where
  subscriptionId : String
  rawBody : Option String
  headers : String → Header
  now : Int

def readBody (rawBody : Option String) : Option String :=
  rawBody.filter (· ≠ "")

def nonEmptyString : Value → Option String
  | .str s => if trim s = "" then none else some (trim s)
  | _ => none

/-- `fail(400, reason, message)` where the check fails. -/
def orFail {α : Type} : Except (String × String) α → WebhookProgram α
  | .ok a => .done a
  | .error (reason, message) => .fail (.badRequest reason message)

def required (value : Option String) (reason message : String) : Except (String × String) String :=
  match value with
  | none => .error (reason, message)
  | some value => .ok value

def checkTimestamp (cfg : InboundConfig) (now : Int) (timestamp : String) :
    Except (String × String) Unit :=
  let digits := timestamp.toList
  if ¬ (1 ≤ digits.length ∧ digits.length ≤ 12 ∧ digits.all Char.isDigit) then
    .error ("malformed_timestamp", "Webhook timestamp must be unix seconds.")
  else if |((now / 1000 - numeral digits : Int) : ℚ)| > cfg.toleranceSeconds.1 then
    .error ("stale_timestamp", "Webhook timestamp is outside the " ++ cfg.toleranceSeconds.2 ++
      "s replay window.")
  else .ok ()

/-- The external id and the type of the event in a body. -/
def readEvent (cfg : InboundConfig) (body : String) : Except (String × String) (String × String) :=
  match cfg.parse body with
  | none => .error ("malformed_event", "Webhook body must be valid JSON.")
  | some (.obj members) =>
    let field (key : String) := nonEmptyString ((Value.obj members).get key)
    match (field "id").or (field "eventId"), (field "type").or (field "eventType") with
    | some eventId, some eventType =>
      if utf16Length eventId > 255 ∨ utf16Length eventType > 255 then tooLong
      else .ok (eventId, eventType)
    | _, _ => tooLong
  | some _ => .error ("malformed_event", "Webhook body must be a JSON object.")
where
  tooLong := .error ("malformed_event", "Webhook body must contain a non-empty id/eventId and " ++
    "type/eventType of at most 255 characters.")

def accept (cfg : InboundConfig) (call : InboundCall) : WebhookProgram Nat := do
  let body ← orFail (required (readBody call.rawBody) "malformed_event"
    "Raw request body is unavailable.")
  let timestamp ← orFail (required (call.headers "x-webhook-timestamp").read "missing_timestamp"
    "Missing X-Webhook-Timestamp header.")
  orFail (checkTimestamp cfg call.now timestamp)
  let signature ← orFail (required (call.headers "x-webhook-signature").read "missing_signature"
    "Missing X-Webhook-Signature header.")
  let found ← ask (.findSubscription call.subscriptionId)
  match found with
  | none => .fail (.notFound "subscription_not_found" "Active webhook subscription not found.")
  | some subscription =>
    if ¬ cfg.verifyTimestamped body subscription.signingKey timestamp signature then
      .fail (.badRequest "invalid_signature" "Invalid webhook signature.")
    else do
      let event ← orFail (readEvent cfg body)
      if subscription.receives event.2 then
        publishEvent ⟨event.2, some (subscription.id, event.1)⟩
      else
        .fail (.forbidden "event_type_not_allowed"
          "Event type is not enabled for this subscription.")

/-! ## The worker -/

/-- What an attempt meets: the allow-list blocks the destination, its check throws, or the request
is answered or fails. -/
inductive Response where
  | blocked (retryable : Bool)
  | checkFailed (message : String)
  | answered (statusCode : Nat)
  | unreachable

/-- A response, the time at which it is there, and `Math.random()`. -/
structure Attempt where
  response : Response
  now : Int := 0
  random : ℚ := 0

structure DeliveryResult where
  statusCode : Option Nat := none
  permanent : Bool := false

def executeDelivery (w : WebhookWorld) (delivery : WebhookDelivery) (response : Response) :
    Except WebhookFailure DeliveryResult :=
  if w.events.length ≤ delivery.eventId then .ok {}
  else match response with
    | .blocked retryable => .ok { permanent := !retryable }
    | .checkFailed message => .error (.other message)
    | .answered statusCode => .ok { statusCode := some statusCode }
    | .unreachable => .ok {}

def calculateRetryDelay (sub : WebhookSubscription) (attempt : Nat) (random : ℚ) : ℚ :=
  let exponential := sub.retryDelayMs * sub.backoffMultiplier ^ (attempt - 1)
  min (exponential + exponential * (1 / 5) * random) 300000

/-- The row that `processDelivery` saves after an attempt. -/
def WebhookDelivery.attempted (delivery : WebhookDelivery) (sub : WebhookSubscription)
    (result : DeliveryResult) (attempt : Attempt) : WebhookDelivery :=
  let delivery := { delivery with attempts := delivery.attempts + 1 }
  if result.statusCode.any fun code => 200 ≤ code ∧ code < 300 then
    { delivery with status := .success }
  else if (delivery.attempts : Int) ≥ delivery.maxAttempts ∨ result.permanent then
    { delivery with status := .deadLettered }
  else
    { delivery with
      status := .failed
      nextRetryAt := some
        ⌊attempt.now + calculateRetryDelay sub delivery.attempts attempt.random⌋ }

/-- `attempts` are the attempts of this delivery by their number. -/
def processDelivery (attempts : Nat → Attempt) (id : Nat) (w : WebhookWorld) :
    Except WebhookFailure WebhookDelivery × WebhookWorld :=
  match w.deliveries[id]? with
  | none => (.error (.other ("Delivery " ++ toString id ++ " not found")), w)
  | some delivery =>
    match w.subscriptions.find? (·.id = delivery.subscriptionId) with
    | none => (.error (.other ("Subscription " ++ delivery.subscriptionId ++ " not found")), w)
    | some sub =>
      let attempt := attempts (delivery.attempts + 1)
      match executeDelivery w delivery attempt.response with
      | .error e => (.error e, w)
      | .ok result =>
        let saved := delivery.attempted sub result attempt
        (.ok saved, { w with deliveries := w.deliveries.set id saved })

end Trellis.Webhooks
