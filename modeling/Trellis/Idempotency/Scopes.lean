import Trellis.Core.JsonOrder

/-!
# The scopes of idempotency records

`buildScope`: a record is stored under the method, the route and the actor of its request, cut off
after 255 code units.
-/

namespace Trellis.Idempotency

open Core List

def normalizeRoute (route : String) : List Char :=
  let path := (route.toList.takeWhile (· ≠ '?')).rdropWhile (· = '/')
  if path = [] then ['/'] else path

/-- The text that `buildScope` cuts off. -/
def scopeText (method route : String) (actor : Option String) : List Char :=
  let normalizedActor := if truthy actor then actor.getD "" else "anonymous"
  method.toList.map Char.toUpper ++ ':' :: (normalizeRoute route ++ ':' :: normalizedActor.toList)

def buildScope (method route : String) (actor : Option String) : List Nat :=
  ((scopeText method route actor).flatMap codeUnits).take 255

/-- A request of a user. The method of a request is a token, which has no colon. -/
structure UserRequest where
  method : String
  route : String
  actor : String
  method_plain : ':' ∉ method.toList
  actor_plain : ':' ∉ actor.toList
  actor_ne : actor ≠ ""

namespace UserRequest

variable (x y : UserRequest)

def text : List Char :=
  scopeText x.method x.route (some x.actor)

def scope : List Nat :=
  buildScope x.method x.route (some x.actor)

/-- The method up to case, the route up to query and trailing slashes, and the actor. -/
def endpoint : List Char × List Char × String :=
  (x.method.toList.map Char.toUpper, normalizeRoute x.route, x.actor)

theorem text_eq : x.text =
    x.endpoint.1 ++ ':' :: (x.endpoint.2.1 ++ ':' :: x.actor.toList) := by
  simp [text, scopeText, endpoint, x.actor_ne]

theorem colon_notMem_method : ':' ∉ x.endpoint.1 := by
  intro h
  obtain ⟨c, hc, hupper⟩ := mem_map.mp h
  have hcolon : c = ':' := by
    unfold Char.toUpper at hupper
    split at hupper
    · have hval := Char.ext_iff.mp hupper
      simp only [Char.reduceVal] at hval
      grind
    · exact hupper
  exact x.method_plain (hcolon ▸ hc)

variable {x y}

theorem endpoint_eq_of_text (h : x.text = y.text) : x.endpoint = y.endpoint := by
  rw [text_eq, text_eq] at h
  obtain ⟨hmethod, hrest⟩ := append_separator_inj x.colon_notMem_method y.colon_notMem_method h
  have hreverse : x.actor.toList.reverse ++ ':' :: x.endpoint.2.1.reverse =
      y.actor.toList.reverse ++ ':' :: y.endpoint.2.1.reverse := by
    simpa using congrArg reverse hrest
  obtain ⟨hactor, hroute⟩ := append_separator_inj (by simpa using x.actor_plain)
    (by simpa using y.actor_plain) hreverse
  exact Prod.ext hmethod (Prod.ext (reverse_injective hroute)
    (String.toList_inj.mp (reverse_injective hactor)))

theorem scope_eq_of_cut {common a b : List Char} (hx : x.text = common ++ a)
    (hy : y.text = common ++ b) (hlong : 255 ≤ (common.flatMap codeUnits).length) :
    x.scope = y.scope := by
  change (x.text.flatMap codeUnits).take 255 = (y.text.flatMap codeUnits).take 255
  rw [hx, hy, flatMap_append, flatMap_append, take_append_of_le_length hlong,
    take_append_of_le_length hlong]

/-- The same request of another user, whose id continues the actor's. -/
def longer (x : UserRequest) : UserRequest :=
  { x with
    actor := x.actor.push '+'
    actor_plain := by simpa using x.actor_plain
    actor_ne := by simp }

/-- A scope belongs to one endpoint and one user exactly if it is not full. -/
theorem scope_isolates_iff (x : UserRequest) :
    (∀ y : UserRequest, y.endpoint ≠ x.endpoint → y.scope ≠ x.scope) ↔
      (x.text.flatMap codeUnits).length < 255 := by
  constructor
  · intro h
    by_contra hlong
    have htext : x.longer.text = x.text ++ ['+'] := by
      simp [text_eq, longer, endpoint]
    refine h x.longer (fun heq => ?_)
      (scope_eq_of_cut htext (append_nil _).symm (not_lt.mp hlong))
    have hactor : x.actor.push '+' = x.actor := congrArg (·.2.2) heq
    simpa using congrArg String.length hactor
  · intro hshort y hne heq
    have hcut : (y.text.flatMap codeUnits).take 255 = x.text.flatMap codeUnits := by
      rw [← take_of_length_le hshort.le]
      exact heq
    have hy : (y.text.flatMap codeUnits).length < 255 := by
      have hlength := congrArg length hcut
      rw [length_take] at hlength
      omega
    rw [take_of_length_le hy.le] at hcut
    exact hne (endpoint_eq_of_text (codeUnits_injective hcut))

def longRoute : List Char :=
  '/' :: replicate 254 'a'

def postOf (actor : String) (hplain : ':' ∉ actor.toList) (hne : actor ≠ "") : UserRequest where
  method := "POST"
  route := String.ofList longRoute
  actor := actor
  method_plain := by decide
  actor_plain := hplain
  actor_ne := hne

/-- The route fills the scope, and two users share it. -/
theorem long_route_shares_scope :
    (postOf "alice" (by decide) (by decide)).endpoint ≠
        (postOf "bob" (by decide) (by decide)).endpoint ∧
      (postOf "alice" (by decide) (by decide)).scope =
        (postOf "bob" (by decide) (by decide)).scope := by
  have hroute : normalizeRoute (String.ofList longRoute) = longRoute := by
    rw [normalizeRoute, String.toList_ofList]
    decide +kernel
  have htext : ∀ actor hplain hne, (postOf actor hplain hne).text =
      ("POST".toList.map Char.toUpper ++ ':' :: longRoute) ++ ':' :: actor.toList := by
    intro actor hplain hne
    simp [text_eq, endpoint, postOf, hroute]
  refine ⟨fun h => ?_, scope_eq_of_cut (htext _ _ _) (htext _ _ _) (by decide +kernel)⟩
  exact absurd (congrArg (·.2.2) h) (by decide)

end UserRequest

end Trellis.Idempotency
