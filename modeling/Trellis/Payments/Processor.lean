import Trellis.Core.Failure
import Trellis.Core.Text

/-!
# Payment processors

The processor contract of `payment-processor.interface.ts`, the runtime registry and the
per-request selection of `payment-processor.factory.ts`, as far as they run synchronously.
-/

namespace Trellis.Payments

open Core

def errorMessage (e : Failure) : String :=
  match e.message? with
  | some message => slicePrefix 1000 message
  | none => "Unknown error"

inductive PaymentStatus where
  | pending | processing | submitted | confirmed | failed | refunded | partiallyRefunded
  deriving DecidableEq

structure PaymentRequest where
  amount : String
  currency : String
  destination : String
  source : Option String := none
  reference : Option String := none
  idempotencyKey : String
  quoteId : Option String := none
  metadata : List (String × String) := []

structure CreatedPayment where
  paymentId : String
  recoveryId : Option String := none
  status : PaymentStatus
  unsignedTransaction : Option String := none
  raw : Option String := none
  deriving DecidableEq

structure SignedTransaction where
  paymentId : String
  signedPayload : String
  signerAddress : Option String := none
  deriving DecidableEq

structure SubmittedTransaction where
  paymentId : String
  transactionHash : String
  status : PaymentStatus
  raw : Option String := none
  deriving DecidableEq

structure PaymentStatusResult where
  paymentId : String
  status : PaymentStatus
  transactionHash : Option String := none
  raw : Option String := none

structure PaymentProcessor where
  name : String
  requiresClientSideSigning : Bool
  supportsSafeSubmissionRetry : Bool := false
  getSubmissionHash : Option (SignedTransaction → Except Failure String) := none
  matchesCreatedPayment : Option (CreatedPayment → SignedTransaction → Except Failure Bool) := none

/-! ## Registry and selection -/

/-- The registered processors and the names an operator has disabled. -/
structure PaymentProcessorRegistry where
  processors : List PaymentProcessor
  disabled : List String := []

namespace PaymentProcessorRegistry

variable (registry : PaymentProcessorRegistry)

def names : List String :=
  registry.processors.map (·.name)

def get (name : String) : Except Failure PaymentProcessor :=
  match registry.processors.find? (·.name = name) with
  | none => .error (.badRequest ("Unknown payment processor: \"" ++ name ++
      "\". Available: [" ++ ", ".intercalate registry.names ++ "]"))
  | some processor =>
    if name ∈ registry.disabled then
      .error (.conflict ("Payment processor \"" ++ name ++ "\" is currently disabled."))
    else .ok processor

def listEnabled : List PaymentProcessor :=
  registry.processors.filter (·.name ∉ registry.disabled)

variable {registry}

theorem get_mem {name : String} {processor : PaymentProcessor}
    (h : registry.get name = .ok processor) : processor ∈ registry.processors := by
  unfold get at h
  split at h
  · contradiction
  · rename_i found hfound
    split at h
    · contradiction
    · cases h
      exact List.mem_of_find?_eq_some hfound

end PaymentProcessorRegistry

/-- What processor selection depends on: the registry, `PAYMENTS_DEFAULT_PROCESSOR`
and the runtime's `toLowerCase`. -/
structure PaymentProcessorFactory where
  registry : PaymentProcessorRegistry
  defaultProcessor : Option String := none
  toLowerCase : String → String := id

namespace PaymentProcessorFactory

variable (factory : PaymentProcessorFactory)

/-- Normalise a selector to a lowercase key, or `none` when blank. -/
def normalize (value : Option String) : Option String :=
  match value with
  | none => none
  | some s => if truthy (some (factory.toLowerCase (trim s))) then
      some (factory.toLowerCase (trim s)) else none

def resolve (selector : Option String) : Except Failure PaymentProcessor :=
  match factory.normalize selector with
  | some explicit => factory.registry.get explicit
  | none =>
    match factory.normalize factory.defaultProcessor with
    | some envDefault => factory.registry.get envDefault
    | none =>
      match factory.registry.listEnabled with
      | [processor] => .ok processor
      | [] => .error (.badRequest "No payment processor is enabled.")
      | enabled => .error (.badRequest
          ("No payment processor selected. Provide the 'X-Payment-Processor' header " ++
            "or set PAYMENTS_DEFAULT_PROCESSOR. Enabled: [" ++
            ", ".intercalate (enabled.map (·.name)) ++ "]."))

variable {factory}

theorem resolve_mem {selector : Option String} {processor : PaymentProcessor}
    (h : factory.resolve selector = .ok processor) : processor ∈ factory.registry.processors := by
  unfold resolve at h
  split at h
  · exact PaymentProcessorRegistry.get_mem h
  · split at h
    · exact PaymentProcessorRegistry.get_mem h
    · split at h
      · rename_i found hfound
        have hmem : processor ∈ factory.registry.listEnabled := by
          cases h
          simp [hfound]
        exact List.mem_of_mem_filter hmem
      · contradiction
      · contradiction

end PaymentProcessorFactory

end Trellis.Payments
