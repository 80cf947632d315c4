import Trellis.Core.Failure
import Trellis.Core.Json

/-!
# Event schemas and upcasting

The envelope of a domain event, `DomainEventRegistry` with its producer-side validation, and
`EventUpcasterRegistry`, which brings a stored event to the version a projection expects.
-/

namespace Trellis.Events

open Core

/-! ## Events and errors -/

structure Envelope where
  eventId : String
  eventName : String
  schemaVersion : String
  timestamp : String
  producer : String
  payload : Value
  previousHash : Option String := none
  hash : Option String := none

inductive EventError where
  | validation (eventName schemaVersion : String) (missingOrInvalidFields : List String)
  | unknownVersion (eventName schemaVersion : String)
  | upcast (eventName fromVersion targetVersion message : String)
  | other (e : Failure)

def EventError.message : EventError → String
  | .validation eventName schemaVersion fields =>
    "Domain event validation failed for '" ++ eventName ++ "' (v" ++ schemaVersion ++ "): " ++
      "Invalid or missing fields: " ++ ", ".intercalate fields
  | .unknownVersion eventName schemaVersion =>
    "Unknown or unsupported schema version '" ++ schemaVersion ++ "' for event '" ++
      eventName ++ "'."
  | .upcast _ _ _ message => message
  | .other e => e.text

def EventError.reason : EventError → String
  | .other e => "apply failed: " ++ e.text
  | e => e.message

/-! ## Schemas -/

inductive FieldType where
  | string
  | number
  | boolean
  | object
  | array
deriving DecidableEq

def FieldType.word : FieldType → String
  | .string => "string"
  | .number => "number"
  | .boolean => "boolean"
  | .object => "object"
  | .array => "array"

structure FieldDefinition where
  name : String
  type : FieldType
  required : Bool

structure DomainEventSchema where
  eventName : String
  version : String
  fields : List FieldDefinition

abbrev SchemaRegistry : Type :=
  List DomainEventSchema

def registerSchema (schemas : SchemaRegistry) (schema : DomainEventSchema) : SchemaRegistry :=
  schema :: schemas

def getSchema (schemas : SchemaRegistry) (eventName version : String) : Option DomainEventSchema :=
  schemas.find? fun schema => schema.eventName = eventName ∧ schema.version = version

def fieldProblem (payload : Value) (field : FieldDefinition) : Option String :=
  let val := payload.get field.name
  let isEmpty : Bool := match val with
    | .str s => s = ""
    | v => v.isNullish
  if field.required && isEmpty then some field.name
  else if val.isNullish then none
  else if field.type = .array then
    if val.isArray then none else some (field.name ++ " (expected array)")
  else if val.typeOf = field.type.word then none
  else some (field.name ++ " (expected " ++ field.type.word ++ ")")

def validateProducerEvent (schemas : SchemaRegistry) (event : Envelope) : Except EventError Unit :=
  if event.eventName = "" ∨ event.schemaVersion = "" ∨ event.payload.isTruthy = false then
    .error (.validation (if event.eventName = "" then "UNKNOWN " else event.eventName)
      (if event.schemaVersion = "" then "UNKNOWN" else event.schemaVersion)
      ["envelope_structure"])
  else
    match getSchema schemas event.eventName event.schemaVersion with
    | none => .error (.unknownVersion event.eventName event.schemaVersion)
    | some schema =>
      match schema.fields.filterMap (fieldProblem event.payload) with
      | [] => .ok ()
      | problems => .error (.validation event.eventName event.schemaVersion problems)

def requiredField (name : String) (type : FieldType) : FieldDefinition :=
  ⟨name, type, true⟩

def defaultSchemas : SchemaRegistry :=
  [⟨"user.created", "1.0", [requiredField "userId" .string, requiredField "email" .string,
        requiredField "role" .string]⟩,
    ⟨"user.created", "2.0", [requiredField "userId" .string, requiredField "email" .string,
        requiredField "role" .string, requiredField "kycTier" .string]⟩,
    ⟨"payment.completed", "1.0",
      [requiredField "transactionId" .string, requiredField "amount" .number,
        requiredField "currency" .string]⟩, ⟨"portfolio.duplicate.detected", "1.0",
      [requiredField "candidateId" .string, requiredField "primaryEntityId" .string,
        requiredField "duplicateEntityId" .string, requiredField "confidence" .number,
        requiredField "matchRules" .array, requiredField "detectorVersion" .string]⟩,
    ⟨"portfolio.duplicate.merge.reviewed", "1.0",
      [requiredField "candidateId" .string, requiredField "decision" .string,
        requiredField "reviewerId" .string, requiredField "reversible" .boolean]⟩,
    ⟨"portfolio.duplicate.merge.applied", "1.0",
      [requiredField "candidateId" .string, requiredField "primaryEntityId" .string,
        requiredField "duplicateEntityId" .string, requiredField "mergedEntityId" .string,
        requiredField "reversible" .boolean]⟩, ⟨"portfolio.duplicate.merge.reversed", "1.0",
      [requiredField "candidateId" .string, requiredField "mergedEntityId" .string,
        requiredField "reversedEntityId" .string, requiredField "reversedBy" .string]⟩].foldl
    registerSchema []

/-! ## Upcasting -/

structure EventUpcaster where
  eventName : String
  fromVersion : String
  toVersion : String
  upcast : Value → Except Failure Value

/-- `EventUpcasterRegistry`: the registered steps under their keys. -/
abbrev UpcasterRegistry : Type :=
  List (String × EventUpcaster)

def stepKey (eventName version : String) : String :=
  eventName ++ "@" ++ version

def UpcasterRegistry.getStep (steps : UpcasterRegistry) (key : String) : Option EventUpcaster :=
  (steps.find? (·.1 = key)).map Prod.snd

def UpcasterRegistry.register (steps : UpcasterRegistry) (upcaster : EventUpcaster) :
    Except Failure UpcasterRegistry :=
  let key := stepKey upcaster.eventName upcaster.fromVersion
  if upcaster.fromVersion = upcaster.toVersion then
    .error (.error ("Upcaster for " ++ upcaster.eventName ++ " must change the version"))
  else if (steps.getStep key).isSome then .error (.error ("Duplicate upcaster for " ++ key))
  else .ok (steps ++ [(key, upcaster)])

/-- The loop of `upcast`.  Every turn adds a version to `seen`, so as many turns as there are
steps, and one more to notice the end, are enough. -/
def upcastLoop (steps : UpcasterRegistry) (event : Envelope) (targetVersion : String) :
    Nat → Envelope → List String → Except EventError (Envelope × List String)
  | 0, current, _ =>
    .error (.upcast event.eventName event.schemaVersion targetVersion
      ("Upcaster cycle for " ++ event.eventName ++ " at v" ++ current.schemaVersion))
  | turns + 1, current, seen =>
    if current.schemaVersion = targetVersion then .ok (current, seen)
    else
      match steps.getStep (stepKey current.eventName current.schemaVersion) with
      | none =>
        .error (.upcast event.eventName event.schemaVersion targetVersion
          ("No upcast path from " ++ event.eventName ++ " v" ++ current.schemaVersion ++
            " to v" ++ targetVersion))
      | some step =>
        if step.toVersion ∈ seen then
          .error (.upcast event.eventName event.schemaVersion targetVersion
            ("Upcaster cycle for " ++ event.eventName ++ " at v" ++ step.toVersion))
        else
          match step.upcast current.payload with
          | .error e => .error (.other e)
          | .ok payload =>
            upcastLoop steps event targetVersion turns
              { current with schemaVersion := step.toVersion, payload := payload }
              (seen ++ [step.toVersion])

def upcast (schemas : SchemaRegistry) (steps : UpcasterRegistry) (event : Envelope)
    (targetVersion : String) : Except EventError (Envelope × List String) :=
  if event.schemaVersion = targetVersion then .ok (event, [])
  else
    match upcastLoop steps event targetVersion (steps.length + 1) event [event.schemaVersion] with
    | .error e => .error e
    | .ok (current, path) =>
      if (getSchema schemas current.eventName targetVersion).isSome then
        match validateProducerEvent schemas current with
        | .error e => .error e
        | .ok _ => .ok (current, path)
      else .ok (current, path)

end Trellis.Events
