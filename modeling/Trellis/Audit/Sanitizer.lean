import Trellis.Core.Json

/-!
# The sanitizer of audit payloads

`sanitizeAuditPayload`: values under secret-looking keys are replaced, long strings are cut,
arrays and depth are limited. A payload is a JSON value, without cycles, in which `undefined` may
occur.
-/

namespace Trellis.Audit

open Core List

def redacted : String :=
  "[REDACTED]"

/-- A word of `SENSITIVE_KEY_PATTERN`, or two words with `-`, `_` or nothing between them. -/
inductive KeyPattern where
  | word (text : String)
  | pair (first second : String)

def KeyPattern.texts : KeyPattern → List String
  | .word text => [text]
  | .pair first second => [first ++ second, first ++ "-" ++ second, first ++ "_" ++ second]

def sensitiveKeyPattern : List KeyPattern :=
  [.word "secret", .word "token", .word "password", .word "passwd", .word "authorization",
    .pair "auth" "header", .pair "api" "key", .word "apikey", .pair "private" "key",
    .pair "secret" "key", .word "seed", .word "mnemonic", .word "signature",
    .pair "signed" "payload", .word "cookie", .pair "session" "id", .word "otp", .word "totp",
    .word "pin", .pair "card" "number", .word "cvv", .word "cvc", .word "iban", .word "ssn",
    .pair "routing" "number", .pair "refresh" "token", .pair "webhook" "secret"]

def isSensitiveKey (key : String) : Bool :=
  let lower := String.ofList (key.toList.map Char.toLower)
  sensitiveKeyPattern.any fun pattern => pattern.texts.any (includes lower ·)

structure SanitizerOptions where
  maxDepth : Nat := 6
  maxStringLength : Nat := 500
  maxArrayLength : Nat := 100

/-- A walked value, the paths that were redacted in it and whether a limit was hit. -/
structure Walked (α : Type) where
  value : α
  redactedPaths : List String := []
  truncated : Bool := false

variable (options : SanitizerOptions)

def itemPath (path : String) (index : Nat) : String :=
  path ++ "[" ++ String.ofList (intText index) ++ "]"

def memberPath (path key : String) : String :=
  if path = "" then key else path ++ "." ++ key

mutual

def walk (path : String) (depth : Nat) : Value → Walked Value
  | .undefined | .null => { value := .null }
  | .str s =>
    if options.maxStringLength < utf16Length s then
      { value := .str (sliceUnits options.maxStringLength s ++ "...[truncated]")
        truncated := true }
    else { value := .str s }
  | .num n => { value := .num n }
  | .bool b => { value := .bool b }
  | .arr items =>
    if options.maxDepth ≤ depth then { value := .str redacted, truncated := true }
    else
      let walked := walkItems path (depth + 1) 0 items
      { value := .arr walked.value, redactedPaths := walked.redactedPaths,
        truncated := options.maxArrayLength < items.length || walked.truncated }
  | .obj members =>
    if options.maxDepth ≤ depth then { value := .str redacted, truncated := true }
    else
      let walked := walkMembers path (depth + 1) members
      { value := .obj walked.value, redactedPaths := walked.redactedPaths,
        truncated := walked.truncated }

def walkItems (path : String) (depth index : Nat) : List Value → Walked (List Value)
  | [] => { value := [] }
  | v :: vs =>
    if index < options.maxArrayLength then
      let first := walk (itemPath path index) depth v
      let rest := walkItems path depth (index + 1) vs
      { value := first.value :: rest.value
        redactedPaths := first.redactedPaths ++ rest.redactedPaths
        truncated := first.truncated || rest.truncated }
    else { value := [] }

def walkMembers (path : String) (depth : Nat) :
    List (String × Value) → Walked (List (String × Value))
  | [] => { value := [] }
  | (key, v) :: ms =>
    let rest := walkMembers path depth ms
    if isSensitiveKey key then
      { value := (key, .str redacted) :: rest.value,
        redactedPaths := memberPath path key :: rest.redactedPaths, truncated := rest.truncated }
    else
      let walked := walk (memberPath path key) depth v
      { value := (key, walked.value) :: rest.value
        redactedPaths := walked.redactedPaths ++ rest.redactedPaths
        truncated := walked.truncated || rest.truncated }

end

/-! ## Keys -/

theorem walkMembers_keys (path : String) (depth : Nat) (members : List (String × Value)) :
    (walkMembers options path depth members).value.map Prod.fst = members.map Prod.fst := by
  induction members with
  | nil => rfl
  | cons m ms ih =>
    simp only [walkMembers]
    split <;> simp [ih]

theorem mem_walkMembers {path : String} {depth : Nat} {members : List (String × Value)}
    {m : String × Value} (h : m ∈ (walkMembers options path depth members).value) :
    m.2 = .str redacted ∨
      ∃ m' ∈ members, m.2 = (walk options (memberPath path m'.1) depth m'.2).value := by
  induction members with
  | nil => cases h
  | cons m' ms ih =>
    obtain ⟨key, v⟩ := m'
    simp only [walkMembers] at h
    split at h
    · rcases mem_cons.mp h with rfl | h
      · exact .inl rfl
      · rcases ih h with hredacted | ⟨m'', hm'', heq⟩
        · exact .inl hredacted
        · exact .inr ⟨m'', mem_cons_of_mem _ hm'', heq⟩
    · rcases mem_cons.mp h with rfl | h
      · exact .inr ⟨(key, v), mem_cons_self, rfl⟩
      · rcases ih h with hredacted | ⟨m'', hm'', heq⟩
        · exact .inl hredacted
        · exact .inr ⟨m'', mem_cons_of_mem _ hm'', heq⟩

theorem mem_walkItems {path : String} {depth index : Nat} {items : List Value} {v : Value}
    (h : v ∈ (walkItems options path depth index items).value) :
    ∃ v' ∈ items, ∃ path', v = (walk options path' depth v').value := by
  induction items generalizing index with
  | nil => cases h
  | cons v' vs ih =>
    simp only [walkItems] at h
    split at h
    · rcases mem_cons.mp h with rfl | h
      · exact ⟨v', mem_cons_self, _, rfl⟩
      · obtain ⟨v'', hv'', path', heq⟩ := ih h
        exact ⟨v'', mem_cons_of_mem _ hv'', path', heq⟩
    · cases h

theorem wellKeyed_walk (v : Value) (path : String) (depth : Nat) (h : wellKeyed v = true) :
    wellKeyed (walk options path depth v).value = true := by
  induction v using Value.induct generalizing path depth with
  | hundefined => rfl
  | hnull => rfl
  | hbool b => rfl
  | hnum n => rfl
  | hstr s =>
    simp only [walk]
    split <;> rfl
  | harr items ih =>
    simp only [walk]
    split
    · rfl
    · refine wellKeyedItems_iff.mpr fun v hv => ?_
      obtain ⟨v', hv', path', rfl⟩ := mem_walkItems options hv
      exact ih v' hv' path' (depth + 1) (wellKeyedItems_iff.mp h v' hv')
  | hobj members ih =>
    simp only [walk]
    split
    · rfl
    · obtain ⟨hnodup, hmembers⟩ := wellKeyed_obj_iff.mp h
      refine wellKeyed_obj_iff.mpr ⟨?_, fun m hm => ?_⟩
      · rw [walkMembers_keys]
        exact hnodup
      · rcases mem_walkMembers options hm with hredacted | ⟨m', hm', heq⟩
        · rw [hredacted]
          rfl
        · rw [heq]
          exact ih m' hm' _ (depth + 1) (hmembers m' hm')

/-! ## Payloads -/

/-- A `Record<string, unknown>`: an object, whose keys are distinct. -/
structure JsonRecord where
  members : List (String × Value)
  wellKeyed : wellKeyed (.obj members) = true

theorem wellKeyed_nil : wellKeyed (.obj []) = true := rfl

/-- `isPlainObject(value) ? value : null`. -/
def recordOf : (v : Value) → wellKeyed v = true → Option JsonRecord
  | .obj members, h => some ⟨members, h⟩
  | _, _ => none

def nullableRecord : Option JsonRecord → Value
  | some payload => .obj payload.members
  | none => .null

theorem wellKeyed_nullableRecord (input : Option JsonRecord) :
    wellKeyed (nullableRecord input) = true := by
  cases input with
  | none => rfl
  | some payload => exact payload.wellKeyed

/-- `sanitizeAuditPayload`; a sanitized object has the keys of the object. -/
def sanitizeAuditPayload (input : Option JsonRecord) : Walked (Option JsonRecord) :=
  let walked := walk options "" 0 (nullableRecord input)
  { value := recordOf walked.value (wellKeyed_walk options _ "" 0 (wellKeyed_nullableRecord input)),
    redactedPaths := walked.redactedPaths, truncated := walked.truncated }

theorem nullableRecord_sanitizeAuditPayload (hdepth : 0 < options.maxDepth) (payload : JsonRecord) :
    nullableRecord (sanitizeAuditPayload options (some payload)).value =
      .obj (walkMembers options "" 1 payload.members).value := by
  have hwalk : (walk options "" 0 (.obj payload.members)).value =
      .obj (walkMembers options "" 1 payload.members).value := by
    rw [walk, if_neg (not_le.mpr hdepth)]
  have hrecord : ∀ (v : Value) (h : wellKeyed v = true) (members : List (String × Value)),
      v = .obj members → nullableRecord (recordOf v h) = .obj members := by
    rintro v h members rfl
    rfl
  exact hrecord _ _ _ hwalk

end Trellis.Audit
