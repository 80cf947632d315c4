import Mathlib.Data.Rat.Floor

/-!
# Failures

What an asynchronous service function rejects with: an HTTP exception of the
framework, any other `Error`, or a thrown value that is no `Error`.
-/

namespace Trellis.Core

/-- A rejection; `other` carries the thrown value as `String(value)` shows it. -/
inductive Failure where
  | badRequest (message : String)
  | conflict (message : String)
  | forbidden (message : String)
  | notFound (message : String)
  | serviceUnavailable (message : String)
  | error (message : String)
  | other (text : String)
  deriving DecidableEq

/-- `error instanceof Error ? error.message : String(error)`. -/
def Failure.text : Failure → String
  | .badRequest m | .conflict m | .forbidden m | .notFound m | .serviceUnavailable m
  | .error m => m
  | .other text => text

def Failure.message? : Failure → Option String
  | .other _ => none
  | e => some e.text

end Trellis.Core
