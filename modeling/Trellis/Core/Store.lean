import Mathlib.Tactic.Positivity

/-!
# Keyed stores and expiring entries

Components that answer requests from a stored value, the stores that hold such a value under each
key, entries with a deadline, and numbered entries.
-/

namespace Trellis.Core

open List

/-! ## Traces -/

section Trace

variable {I O S T K V : Type*}

/-- The requests with the answers a component gives to them, in order. -/
def trace (step : I → S → O × S) : List I → S → List (I × O)
  | [], _ => []
  | i :: rest, s => (i, (step i s).1) :: trace step rest (step i s).2

variable (step : I → S → O × S)

@[simp]
theorem trace_nil (s : S) : trace step [] s = [] :=
  rfl

@[simp]
theorem trace_cons (i : I) (rest : List I) (s : S) :
    trace step (i :: rest) s = (i, (step i s).1) :: trace step rest (step i s).2 :=
  rfl

def final (step : I → S → O × S) : List I → S → S
  | [], s => s
  | i :: rest, s => final step rest (step i s).2

@[simp]
theorem final_nil (s : S) : final step [] s = s :=
  rfl

@[simp]
theorem final_cons (i : I) (rest : List I) (s : S) :
    final step (i :: rest) s = final step rest (step i s).2 :=
  rfl

theorem final_append (first rest : List I) (s : S) :
    final step (first ++ rest) s = final step rest (final step first s) := by
  induction first generalizing s with
  | nil => rfl
  | cons i first ih => exact ih _

theorem trace_append (first rest : List I) (s : S) :
    trace step (first ++ rest) s = trace step first s ++ trace step rest (final step first s) := by
  induction first generalizing s with
  | nil => rfl
  | cons i first ih => simp [ih]

theorem mem_trace {step : I → S → O × S} {requests : List I} {s : S}
    {e : I × O} (h : e ∈ trace step requests s) : e.1 ∈ requests := by
  induction requests generalizing s with
  | nil => simp at h
  | cons i rest ih =>
    rw [trace_cons, mem_cons] at h
    rcases h with rfl | h
    · exact mem_cons_self
    · exact mem_cons_of_mem _ (ih h)

/-- Two components answer alike if every request keeps a relation between their states.
`Ready` says which requests a state admits; a request leaves the state ready for those
that may follow it. -/
theorem trace_simulates {O' Q : Type*} {step : I → S → O × S} {step' : I → T → O' × T}
    (view : O → Q) (view' : O' → Q) (Ready : S → I → Prop) (R : S → T → Prop)
    {Follows : I → I → Prop} (hstep : ∀ i s t, R s t → Ready s i →
      view (step i s).1 = view' (step' i t).1 ∧ R (step i s).2 (step' i t).2)
    (hready : ∀ i j s, Ready s j → Follows i j → Ready (step i s).2 j)
    {requests : List I} (hrequests : requests.Pairwise Follows) {s : S} {t : T}
    (hfirst : ∀ i ∈ requests, Ready s i) (h : R s t) :
    (trace step requests s).map (fun e => (e.1, view e.2)) =
      (trace step' requests t).map (fun e => (e.1, view' e.2)) := by
  induction requests generalizing s t with
  | nil => rfl
  | cons i rest ih =>
    rw [pairwise_cons] at hrequests
    rcases hstep i s t h (hfirst i mem_cons_self) with ⟨hview, hnext⟩
    have hnextReady : ∀ j ∈ rest, Ready (step i s).2 j := by
      intro j hj
      exact hready i j s (hfirst j (mem_cons_of_mem _ hj)) (hrequests.1 j hj)
    have hrest := ih hrequests.2 hnextReady hnext
    simp only [trace_cons, map_cons, hview, hrest]

/-- The component that holds a value for each key and answers a request for a key from
the value stored under it. -/
def keyed [DecidableEq K] (step : I → Option V → O × Option V) (request : K × I)
    (store : K → Option V) : O × (K → Option V) :=
  ((step request.2 (store request.1)).1,
    Function.update store request.1 (step request.2 (store request.1)).2)

def forKey [DecidableEq K] (key : K) (requests : List (K × I)) : List I :=
  (requests.filter fun request => request.1 = key).map Prod.snd

theorem trace_keyed [DecidableEq K] (step : I → Option V → O × Option V) (key : K)
    (requests : List (K × I)) (store : K → Option V) :
    ((trace (keyed step) requests store).filter fun e => e.1.1 = key).map (fun e => (e.1.2, e.2)) =
      trace step (forKey key requests) (store key) := by
  induction requests generalizing store with
  | nil => rfl
  | cons request rest ih =>
    by_cases hkey : request.1 = key
    · subst hkey
      simp [forKey, keyed, ih]
    · simp [forKey, keyed, hkey, ih, Function.update_of_ne (Ne.symm hkey)]

end Trace

/-! ## Entries with a deadline -/

section Expiring

variable {V K : Type*}

/-- A stored value and the instant at which the store deletes it. -/
structure Expiring (K V : Type*) where
  value : V
  deadline : K

/-- What a read at time `now` finds. -/
def Expiring.read [LE K] [DecidableLE K] (now : K) (entry : Option (Expiring K V)) : Option V :=
  match entry with
  | none => none
  | some e => if e.deadline ≤ now then none else some e.value

section Read

variable [LinearOrder K] {now : K} {e : Expiring K V}

@[simp]
theorem Expiring.read_none (now : K) : Expiring.read now (none : Option (Expiring K V)) = none :=
  rfl

theorem Expiring.read_of_le (h : e.deadline ≤ now) : Expiring.read now (some e) = none :=
  if_pos h

theorem Expiring.read_of_lt (h : now < e.deadline) : Expiring.read now (some e) = some e.value :=
  if_neg (not_le.mpr h)

theorem Expiring.eq_some_of_read {entry : Option (Expiring K V)} {v : V}
    (h : Expiring.read now entry = some v) :
    ∃ deadline, entry = some ⟨v, deadline⟩ ∧ now < deadline := by
  cases entry with
  | none => cases h
  | some e =>
    by_cases hexpired : e.deadline ≤ now
    · rw [Expiring.read_of_le hexpired] at h
      cases h
    · rw [Expiring.read_of_lt (not_le.mp hexpired)] at h
      cases h
      exact ⟨e.deadline, rfl, not_le.mp hexpired⟩

end Read

end Expiring

/-! ## An arbitrary choice -/

section PickFrom

variable {α : Type*} {l : List α} {n : Nat}

/-- One of the elements, if there are any; every number stands for a choice. -/
def pickFrom (n : Nat) (l : List α) : Option α :=
  l[n % l.length]?

theorem mem_of_pickFrom {a : α} (h : pickFrom n l = some a) : a ∈ l :=
  mem_of_getElem? h

theorem pickFrom_eq_none : pickFrom n l = none ↔ l = [] := by
  unfold pickFrom
  rw [getElem?_eq_none_iff]
  constructor
  · intro h
    by_contra hne
    have hlt := Nat.mod_lt n (length_pos_of_ne_nil hne)
    omega
  · rintro rfl
    exact Nat.zero_le _

end PickFrom

/-! ## Numbered entries -/

/-- Entries under consecutive numbers; a number that was not given out yet holds
nothing. -/
structure Slots (α : Type*) where
  get : Nat → Option α
  next : Nat
  fresh : ∀ n, next ≤ n → get n = none

namespace Slots

variable {α : Type*} (s : Slots α)

def empty : Slots α where
  get _ := none
  next := 0
  fresh _ _ := rfl

def push (a : α) : Slots α where
  get := Function.update s.get s.next (some a)
  next := s.next + 1
  fresh n hn := by
    rw [Function.update_of_ne (by omega)]
    exact s.fresh n (by omega)

def modify (id : Nat) (f : α → α) : Slots α where
  get n := if n = id then (s.get n).map f else s.get n
  next := s.next
  fresh n hn := by
    simp [s.fresh n hn]

def mapAll (f : α → α) : Slots α where
  get n := (s.get n).map f
  next := s.next
  fresh n hn := by
    rw [s.fresh n hn]
    rfl

/-- The entries that satisfy a condition, by their numbers. -/
def select (p : α → Bool) : List α :=
  (List.range s.next).filterMap fun n => (s.get n).filter p

theorem lt_next {n : Nat} {a : α} (h : s.get n = some a) : n < s.next := by
  by_contra hn
  rw [s.fresh n (not_lt.mp hn)] at h
  cases h

theorem mem_select {p : α → Bool} {a : α} :
    a ∈ s.select p ↔ ∃ n, s.get n = some a ∧ p a = true := by
  simp only [select, mem_filterMap, mem_range, Option.filter_eq_some_iff]
  constructor
  · rintro ⟨n, -, hget, hp⟩
    exact ⟨n, hget, hp⟩
  · rintro ⟨n, hget, hp⟩
    exact ⟨n, s.lt_next hget, hget, hp⟩

@[simp]
theorem get_push_self (a : α) : (s.push a).get s.next = some a :=
  Function.update_self _ _ _

theorem get_push_of_ne {n : Nat} (a : α) (h : n ≠ s.next) : (s.push a).get n = s.get n :=
  Function.update_of_ne h _ _

theorem get_push_of_some {n : Nat} {b : α} (a : α) (h : s.get n = some b) :
    (s.push a).get n = some b := by
  rw [get_push_of_ne s a (s.lt_next h).ne, h]

theorem get_push_cases {n : Nat} {a b : α} (h : (s.push a).get n = some b) :
    (n = s.next ∧ b = a) ∨ s.get n = some b := by
  by_cases hn : n = s.next
  · subst hn
    rw [get_push_self] at h
    cases h
    exact Or.inl ⟨rfl, rfl⟩
  · rw [get_push_of_ne s a hn] at h
    exact Or.inr h

theorem get_modify_of_ne {n id : Nat} (f : α → α) (h : n ≠ id) : (s.modify id f).get n = s.get n :=
  if_neg h

theorem get_modify_self {id : Nat} {b : α} (f : α → α) (h : s.get id = some b) :
    (s.modify id f).get id = some (f b) := by
  simp [modify, h]

theorem get_modify_cases {n id : Nat} {f : α → α} {b : α} (h : (s.modify id f).get n = some b) :
    (n = id ∧ ∃ a, s.get id = some a ∧ b = f a) ∨ (n ≠ id ∧ s.get n = some b) := by
  by_cases hn : n = id
  · subst hn
    simp only [modify, if_true, Option.map_eq_some_iff] at h
    rcases h with ⟨a, ha, rfl⟩
    exact Or.inl ⟨rfl, a, ha, rfl⟩
  · rw [get_modify_of_ne s f hn] at h
    exact Or.inr ⟨hn, h⟩

end Slots

end Trellis.Core
