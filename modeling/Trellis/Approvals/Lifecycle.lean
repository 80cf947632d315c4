import Trellis.Approvals.Intent
import Trellis.Core.Store

/-!
# The lifecycle of approval intents

Any number of `propose`, `cancel`, `expireDueIntents`, `expireIntent` and `execute` calls over one
table, interleaved at every await, where any operation may fail with or without its effect. `save`
writes back every column. Beside each row the world keeps what no code reads: the statuses that
were stored, the call that claimed it, how often its operation was started, and whether a failed
proposal has overwritten a status other than its own.
-/

namespace Trellis.Approvals

open Core Option List ApprovalIntentStatus
open Trellis.Audit (RecordSensitiveActionInput)

/-! ## Paths of statuses -/

/-- The statuses start at `proposed` and follow the table. -/
structure IsPath (stored : List ApprovalIntentStatus) : Prop where
  head : stored.head? = some .proposed
  chain : stored.IsChain fun s s' => s' ∈ allowedTransitions s

variable {stored : List ApprovalIntentStatus} {s : ApprovalIntentStatus}

theorem isPath_concat {s' : ApprovalIntentStatus} (hlast : stored.getLast? = some s) :
    IsPath (stored ++ [s']) ↔ IsPath stored ∧ s' ∈ allowedTransitions s := by
  have hhead : (stored ++ [s']).head? = stored.head? := by
    cases stored with
    | nil => cases hlast
    | cons first rest => rfl
  constructor
  · rintro ⟨hstart, hchain⟩
    rw [isChain_append] at hchain
    obtain ⟨hfront, -, hstep⟩ := hchain
    exact ⟨⟨hhead ▸ hstart, hfront⟩, hstep s hlast s' rfl⟩
  · rintro ⟨hpath, hallowed⟩
    refine ⟨hhead.trans hpath.head, isChain_append.mpr ⟨hpath.chain, .singleton s', ?_⟩⟩
    intro x hx y hy
    rw [hlast] at hx
    cases hx
    cases hy
    exact hallowed

theorem allowedTransitions_of_isTerminal (h : isTerminal s = true) : allowedTransitions s = [] := by
  cases s with
  | proposed => cases h
  | executing => cases h
  | _ => rfl

/-- The statuses follow the table, and after a terminal one there is no other. -/
structure FollowsTable (stored : List ApprovalIntentStatus) : Prop where
  path : IsPath stored
  terminal_last : ∀ front s rest, stored = front ++ s :: rest → isTerminal s = true → rest = []

theorem followsTable_iff : FollowsTable stored ↔ IsPath stored := by
  refine ⟨fun h => h.path, fun hpath => ⟨hpath, ?_⟩⟩
  rintro front s rest rfl hterminal
  cases rest with
  | nil => rfl
  | cons next rest =>
    have htail := (isChain_append.mp hpath.chain).2.1
    have hnext : next ∈ allowedTransitions s := (isChain_cons_cons.mp htail).1
    rw [allowedTransitions_of_isTerminal hterminal] at hnext
    cases hnext

/-! ## Rows with their history -/

/-- A row, the statuses stored so far, the call that claimed it for execution, the number of
times its operation was started, and whether a failed proposal has overwritten it. -/
structure Tracked (ι : Type) where
  row : ApprovalIntent
  stored : List ApprovalIntentStatus
  owner : Option ι := none
  starts : Nat := 0
  clobbered : Bool := false

variable {patch : IntentPatch}

namespace Tracked

variable {ι : Type}

def new (row : ApprovalIntent) : Tracked ι where
  row := row
  stored := [row.status]

def setRow (t : Tracked ι) (row : ApprovalIntent) : Tracked ι :=
  { t with
    row := row
    stored := if row.status = t.row.status then t.stored else t.stored ++ [row.status] }

/-- `save` cancels a row that has moved on from `proposed`. -/
def overwrites (t : Tracked ι) (row : ApprovalIntent) : Bool :=
  row.status = .cancelled && t.row.status ≠ .proposed && t.row.status ≠ .cancelled

def save (row : ApprovalIntent) (t : Tracked ι) : Tracked ι :=
  { t.setRow row with clobbered := t.clobbered || t.overwrites row }

def patched (patch : IntentPatch) (row : ApprovalIntent) : ApprovalIntent :=
  { row with
    status := patch.status, startedAt := patch.startedAt.or row.startedAt,
    completedAt := patch.completedAt.or row.completedAt }

def claim (i : ι) (patch : IntentPatch) (t : Tracked ι) : Tracked ι :=
  if t.row.status = .proposed then
    { t.setRow (patched patch t.row) with
      owner := if patch.status = .executing then some i else t.owner }
  else t

def isDue (now : Int) (t : Tracked ι) : Bool :=
  t.row.status = .proposed && t.row.expiresAt < now

def expire (now : Int) (t : Tracked ι) : Tracked ι :=
  if t.isDue now then t.setRow { t.row with status := .expired } else t

def start (t : Tracked ι) : Tracked ι :=
  { t with starts := t.starts + 1 }

/-! ### The invariant of a row -/

structure Inv (t : Tracked ι) : Prop where
  last : t.stored.getLast? = some t.row.status
  path : IsPath t.stored ↔ t.clobbered = false
  proposed : t.row.status = .proposed → t.owner = none
  unowned : t.owner = none → t.starts = 0
  starts_le : t.starts ≤ 1
  owned : t.owner ≠ none → t.clobbered = false →
    t.row.status = .executing ∨ t.row.status = .completed ∨ t.row.status = .failed

variable {row : ApprovalIntent}

theorem inv_new (h : row.status = .proposed) : (new row : Tracked ι).Inv where
  last := rfl
  path := ⟨fun _ => rfl, fun _ => ⟨congrArg some h, .singleton _⟩⟩
  proposed _ := rfl
  unowned _ := rfl
  starts_le := Nat.zero_le 1
  owned hne := absurd rfl hne

variable {t : Tracked ι}

theorem Inv.last_setRow (h : t.Inv) (row : ApprovalIntent) :
    (t.setRow row).stored.getLast? = some row.status := by
  simp only [setRow]
  split
  · rename_i hsame
    rw [h.last, hsame]
  · exact getLast?_concat

theorem Inv.path_setRow (h : t.Inv) (row : ApprovalIntent) :
    IsPath (t.setRow row).stored ↔ t.clobbered = false ∧
      (row.status = t.row.status ∨ row.status ∈ allowedTransitions t.row.status) := by
  simp only [setRow]
  split
  · rename_i hsame
    rw [h.path]
    exact ⟨fun hclobbered => ⟨hclobbered, .inl hsame⟩, fun hboth => hboth.1⟩
  · rename_i hdiffer
    rw [isPath_concat h.last, h.path]
    constructor
    · exact fun hboth => ⟨hboth.1, .inr hboth.2⟩
    · exact fun hboth => ⟨hboth.1, hboth.2.resolve_left hdiffer⟩

/-! ### What a call does to a row -/

/-- What call `i` leaves alone. -/
structure Grows (i : ι) (t t' : Tracked ι) : Prop where
  stored : t.stored <+: t'.stored
  owner : ∀ j, t.owner = some j → t'.owner = some j
  clobbered : t'.clobbered = false → t.clobbered = false
  starts : ∀ j, j ≠ i → t.owner = some j → t'.starts = t.starts
  status : ∀ j, j ≠ i → t.owner = some j → t'.clobbered = false → t'.row.status = t.row.status

abbrev Keeps (i : ι) (t t' : Tracked ι) : Prop :=
  t'.Inv ∧ Grows i t t'

theorem Grows.refl (i : ι) (t : Tracked ι) : Grows i t t :=
  ⟨prefix_refl _, fun _ h => h, fun h => h, fun _ _ _ => rfl, fun _ _ _ _ => rfl⟩

theorem stored_setRow (t : Tracked ι) (row : ApprovalIntent) :
    t.stored <+: (t.setRow row).stored := by
  simp only [setRow]
  split
  · exact prefix_refl _
  · exact prefix_append _ _

theorem not_clobbered_save (h : (t.save row).clobbered = false) :
    t.clobbered = false ∧ t.overwrites row = false := by
  simpa [save] using h

variable {i : ι}

variable (h : t.Inv)
include h

theorem Inv.saveCancelled (hrow : row.status = .cancelled) : Keeps i t (t.save row) := by
  -- a row that somebody claimed is executing or finished, so the save overwrites it
  have hclaimed : t.owner ≠ none → (t.save row).clobbered ≠ false := by
    intro howner hclobbered
    obtain ⟨hbefore, hoverwrites⟩ := not_clobbered_save hclobbered
    rcases h.owned howner hbefore with hstatus | hstatus | hstatus <;>
      simp [overwrites, hrow, hstatus] at hoverwrites
  constructor
  · refine ⟨h.last_setRow row, (h.path_setRow row).trans ?_, fun hproposed => ?_, h.unowned,
      h.starts_le, fun howner hclobbered => (hclaimed howner hclobbered).elim⟩
    · cases hstatus : t.row.status <;> cases hclobbered : t.clobbered <;>
        simp [save, setRow, overwrites, hrow, hstatus, hclobbered, allowedTransitions]
    · cases hrow.symm.trans hproposed
  · refine ⟨t.stored_setRow row, fun _ howner => howner, fun hsaved =>
      (not_clobbered_save hsaved).1,
      fun _ _ _ => rfl, fun j _ howner hclobbered => ?_⟩
    exact (hclaimed (by rw [howner]; nofun) hclobbered).elim

theorem Inv.saveOutcome (hrow : row.status = .completed ∨ row.status = .failed)
    (howner : t.owner = some i) (hrunning : t.clobbered = false → t.row.status = .executing) :
    Keeps i t (t.save row) := by
  have hsaved : (t.save row).clobbered = t.clobbered := by
    rcases hrow with hrow | hrow <;> simp [save, overwrites, hrow]
  constructor
  · refine ⟨h.last_setRow row, ?_, fun hproposed => ?_, h.unowned, h.starts_le,
      fun _ _ => .inr hrow⟩
    · rw [hsaved]
      refine (h.path_setRow row).trans ⟨fun hboth => hboth.1, fun hclobbered => ⟨hclobbered, ?_⟩⟩
      right
      rw [hrunning hclobbered]
      rcases hrow with hrow | hrow <;> rw [hrow] <;> decide
    · rcases hrow with hrow | hrow <;> cases hrow.symm.trans hproposed
  · refine ⟨t.stored_setRow row, fun _ h => h, fun hclobbered => hsaved ▸ hclobbered,
      fun _ _ _ => rfl, fun j hj hj' => ?_⟩
    exact absurd (some.inj (howner.symm.trans hj')).symm hj

theorem Inv.setProposed (hproposed : t.row.status = .proposed)
    (hrow : row.status ∈ allowedTransitions .proposed)
    {owner : Option ι} (howner : owner ≠ none → row.status = .executing) :
    Keeps i t { t.setRow row with owner := owner } := by
  have hnone := h.proposed hproposed
  constructor
  · refine ⟨h.last_setRow row, ?_, fun hstatus => ?_, fun _ => h.unowned hnone, h.starts_le,
      fun hne _ => .inl (howner hne)⟩
    · refine (h.path_setRow row).trans ⟨fun hboth => hboth.1, fun hclobbered => ⟨hclobbered, ?_⟩⟩
      right
      rw [hproposed]
      exact hrow
    · rw [show row.status = .proposed from hstatus] at hrow
      exact absurd hrow (by decide)
  · exact ⟨t.stored_setRow row, fun j hj => (nomatch hnone.symm.trans hj), fun h => h,
      fun _ _ _ => rfl, fun j _ hj => (nomatch hnone.symm.trans hj)⟩

theorem Inv.claim
    (hpatch : patch.status ∈ allowedTransitions .proposed) : Keeps i t (t.claim i patch) := by
  unfold Tracked.claim
  split
  · rename_i hproposed
    refine h.setProposed hproposed hpatch fun hne => ?_
    by_contra hstatus
    have hstatus' : patch.status ≠ .executing := hstatus
    rw [if_neg hstatus', h.proposed hproposed] at hne
    exact hne rfl
  · exact ⟨h, .refl i t⟩

theorem Inv.expire (now : Int) : Keeps i t (t.expire now) := by
  unfold Tracked.expire
  split
  · rename_i hdue
    simp only [isDue, Bool.and_eq_true, decide_eq_true_eq] at hdue
    have hallowed : expired ∈ allowedTransitions .proposed := by decide
    exact h.setProposed hdue.1 hallowed fun hne => absurd (h.proposed hdue.1) hne
  · exact ⟨h, .refl i t⟩

theorem Inv.start (hstarts : t.starts = 0) (howner : t.owner = some i) : Keeps i t t.start := by
  constructor
  · refine ⟨h.last, h.path, h.proposed, fun hnone => ?_, ?_, h.owned⟩
    · cases howner.symm.trans hnone
    · simp [Tracked.start, hstarts]
  · refine ⟨prefix_refl _, fun _ h => h, fun h => h, fun j hj hj' => ?_, fun _ _ _ _ => rfl⟩
    exact absurd (some.inj (howner.symm.trans hj')).symm hj

omit h

end Tracked

/-! ## The table -/

structure IntentWorld (ι : Type) where
  slots : Slots (Tracked ι) := .empty
  clock : Int := 0

/-- How an operation ends: it is served, rejected without effect, performed with its answer
lost, or, for the operation of an execution, it resolves. -/
inductive IntentChoice (ρ : Type) where
  | served
  | rejected (e : Failure)
  | lost (e : Failure)
  | resolved (result : ρ)

namespace IntentWorld

variable {ι ρ : Type}

def due (w : IntentWorld ι) (now : Int) : List Nat :=
  (List.range w.slots.next).filter fun n => (w.slots.get n).any (Tracked.isDue now)

def findProposed (w : IntentWorld ι) (fingerprint : String) : Option ApprovalIntent :=
  (List.range w.slots.next).findSome? fun n =>
    ((w.slots.get n).map (·.row)).filter fun row =>
      row.fingerprint = fingerprint ∧ row.status = .proposed

def affected (w : IntentWorld ι) (id : Nat) : Nat :=
  if (w.slots.get id).any (·.row.status = .proposed) then 1 else 0

/-- The table after an operation of call `i` was performed. -/
def effect (i : ι) (w : IntentWorld ι) : IntentOp → IntentWorld ι
  | .insert intent =>
    { w with slots := w.slots.push (.new { intent with id := w.slots.next }) }
  | .save intent => { w with slots := w.slots.modify intent.id (·.save intent) }
  | .claim id patch => { w with slots := w.slots.modify id (·.claim i patch) }
  | .expireDue now => { w with slots := w.slots.mapAll (·.expire now) }
  | .operation id => { w with slots := w.slots.modify id (·.start) }
  | .findById _ | .findProposed _ | .now | .recordEvidence _ => w

/-- The answer to an operation that is served; the operation of an execution answers by
itself. -/
def answer (w : IntentWorld ι) : (op : IntentOp) → Option (op.Res ρ)
  | .findById id => some ((w.slots.get id).map (·.row))
  | .findProposed fingerprint => some (w.findProposed fingerprint)
  | .insert intent => some { intent with id := w.slots.next }
  | .save intent => some intent
  | .claim id _ => some (w.affected id)
  | .expireDue now => some (w.due now).length
  | .now => some w.clock
  | .recordEvidence _ => some ()
  | .operation _ => none

/-- Perform one operation of call `i`.  An operation of an execution that is rejected was
started. -/
def perform (i : ι) (op : IntentOp) (c : IntentChoice ρ) (w : IntentWorld ι) :
    Option (Except Failure (op.Res ρ) × IntentWorld ι) :=
  match c, op with
  | .served, op => (w.answer op).map fun a => (.ok a, w.effect i op)
  | .rejected e, .operation id => some (.error e, w.effect i (.operation id))
  | .rejected e, _ => some (.error e, w)
  | .lost e, op => some (.error e, w.effect i op)
  | .resolved result, .operation id => some (.ok result, w.effect i (.operation id))
  | .resolved _, _ => none

theorem perform_cases {i : ι} {op : IntentOp} {c : IntentChoice ρ} {w w' : IntentWorld ι}
    {r : Except Failure (op.Res ρ)} (h : w.perform i op c = some (r, w')) :
    ((∃ e, r = .error e) ∧ w' = w ∧ ∀ id, op ≠ .operation id) ∨
      (w' = w.effect i op ∧ ∀ a, r = .ok a → (∀ id, op ≠ .operation id) →
        w.answer op = some a) := by
  cases c with
  | served =>
    simp only [perform, map_eq_some_iff, Prod.mk.injEq] at h
    obtain ⟨a, hanswer, rfl, rfl⟩ := h
    refine .inr ⟨rfl, fun a' ha' _ => ?_⟩
    rw [hanswer, Except.ok.inj ha']
  | lost e =>
    obtain ⟨rfl, rfl⟩ := h
    exact .inr ⟨rfl, fun a ha => by cases ha⟩
  | rejected e =>
    cases op with
    | operation id =>
      cases h
      exact .inr ⟨rfl, fun a ha => by cases ha⟩
    | _ =>
      cases h
      exact .inl ⟨⟨e, rfl⟩, rfl, fun id hid => by cases hid⟩
  | resolved result =>
    cases op with
    | operation id =>
      cases h
      exact .inr ⟨rfl, fun a _ hop => absurd rfl (hop id)⟩
    | _ => cases h

end IntentWorld

/-- The table, used by calls named by `ι`; the clock moves at any time. -/
def intentSemantics (ι ρ : Type) : Semantics (intentInterface ρ) Failure ι (IntentWorld ι) where
  Choice := IntentChoice ρ
  perform i op c w := w.perform i op c
  Event := Int
  happen time w := { w with clock := time }

/-! ## The contract of a call -/

section Contract

variable {ι ρ : Type}

def AllTracked (w : IntentWorld ι) : Prop :=
  ∀ n t, w.slots.get n = some t → t.Inv

/-- Every row is still there and has changed as call `i` may change it. -/
def RowsGrow (i : ι) (w w' : IntentWorld ι) : Prop :=
  ∀ n t, w.slots.get n = some t → ∃ t', w'.slots.get n = some t' ∧ Tracked.Grows i t t'

def intentContract (i : ι) : Contract (IntentWorld ι) where
  inv := AllTracked
  rely w w' := (∃ j, j ≠ i ∧ RowsGrow j w w') ∨ w'.slots = w.slots
  guar := RowsGrow i

theorem RowsGrow.refl (i : ι) (w : IntentWorld ι) : RowsGrow i w w :=
  fun _ t ht => ⟨t, ht, .refl i t⟩

theorem intentContract_compatible [DecidableEq ι] :
    Pool.Compatible (intentSemantics ι ρ) intentContract AllTracked where
  inv_eq _ := rfl
  guar_rely _ j _ _ hij h := .inl ⟨j, hij.symm, h⟩
  happen_inv _ _ h := h
  happen_rely _ _ _ _ := .inr rfl

/-- Call `i` has claimed the row; unless it was overwritten, it is executing. -/
def running (i : ι) (n : Nat) : Assertion (intentContract i) where
  holds w := ∃ t, w.slots.get n = some t ∧ t.owner = some i ∧
    (t.clobbered = false → t.row.status = .executing)
  stable w w' hmove := by
    rintro ⟨t, ht, howner, hstatus⟩
    rcases hmove.2.2 with ⟨j, hj, hgrows⟩ | hsame
    · obtain ⟨t', ht', hgrow⟩ := hgrows n t ht
      refine ⟨t', ht', hgrow.owner i howner, fun hclobbered => ?_⟩
      rw [hgrow.status i hj.symm howner hclobbered]
      exact hstatus (hgrow.clobbered hclobbered)
    · exact ⟨t, by rw [hsame]; exact ht, howner, hstatus⟩

/-- The operation of a row that call `i` has claimed is not started. -/
def notStarted (i : ι) (n : Nat) : Assertion (intentContract i) where
  holds w := ∃ t, w.slots.get n = some t ∧ t.owner = some i ∧ t.starts = 0
  stable w w' hmove := by
    rintro ⟨t, ht, howner, hstarts⟩
    rcases hmove.2.2 with ⟨j, hj, hgrows⟩ | hsame
    · obtain ⟨t', ht', hgrow⟩ := hgrows n t ht
      exact ⟨t', ht', hgrow.owner i howner, (hgrow.starts i hj.symm howner).trans hstarts⟩
    · exact ⟨t, by rw [hsame]; exact ht, howner, hstarts⟩

/-! ### Changes of the table -/

variable {w : IntentWorld ι}

theorem keeps_push {i : ι} (h : AllTracked w) {t : Tracked ι} (ht : t.Inv) :
    AllTracked { w with slots := w.slots.push t } ∧
      RowsGrow i w { w with slots := w.slots.push t } := by
  constructor
  · intro n t' ht'
    rcases w.slots.get_push_cases ht' with ⟨-, rfl⟩ | hold
    · exact ht
    · exact h n t' hold
  · intro n t' ht'
    exact ⟨t', w.slots.get_push_of_some t ht', .refl i t'⟩

variable {f : Tracked ι → Tracked ι}

theorem keeps_modify {i : ι} (h : AllTracked w) {id : Nat}
    (hf : ∀ t, w.slots.get id = some t → Tracked.Keeps i t (f t)) :
    AllTracked { w with slots := w.slots.modify id f } ∧
      RowsGrow i w { w with slots := w.slots.modify id f } := by
  constructor
  · intro n t' ht'
    rcases w.slots.get_modify_cases ht' with ⟨rfl, t, ht, rfl⟩ | ⟨-, hold⟩
    · exact (hf t ht).1
    · exact h n t' hold
  · intro n t ht
    by_cases hn : n = id
    · subst hn
      exact ⟨f t, w.slots.get_modify_self f ht, (hf t ht).2⟩
    · exact ⟨t, (w.slots.get_modify_of_ne f hn).trans ht, .refl i t⟩

theorem keeps_mapAll {i : ι} (h : AllTracked w)
    (hf : ∀ t : Tracked ι, t.Inv → Tracked.Keeps i t (f t)) :
    AllTracked { w with slots := w.slots.mapAll f } ∧
      RowsGrow i w { w with slots := w.slots.mapAll f } := by
  constructor
  · intro n t' ht'
    obtain ⟨t, ht, rfl⟩ := map_eq_some_iff.mp ht'
    exact (hf t (h n t ht)).1
  · intro n t ht
    exact ⟨f t, map_eq_some_iff.mpr ⟨t, ht, rfl⟩, (hf t (h n t ht)).2⟩

/-! ### The operations -/

variable {g : Guard (intentSemantics ι ρ)} {i : ι} {P : Assertion (intentContract i)}

variable (g i) in
abbrev IntentTriple {α : Type} (P : Assertion (intentContract i))
    (p : Async (intentInterface ρ) Failure α) (R : α → Assertion (intentContract i))
    (E : Assertion (intentContract i)) : Prop :=
  Triple (intentSemantics ι ρ) g i P p R E

theorem triple_op {op : IntentOp}
    {R : op.Res ρ → Assertion (intentContract i)} (hop : ∀ id, op ≠ .operation id)
    (hkeeps : ∀ w, AllTracked w → P w → AllTracked (w.effect i op) ∧ RowsGrow i w (w.effect i op))
    (hresult : ∀ w a, AllTracked w → P w → w.answer op = some a → R a (w.effect i op)) :
    IntentTriple g i P (Async.call (I := intentInterface ρ) op) R .top := by
  refine triple_call fun w c r w' hinv hP _ hperf => ?_
  rcases IntentWorld.perform_cases hperf with ⟨⟨e, rfl⟩, rfl, -⟩ | ⟨rfl, hanswer⟩
  · exact ⟨hinv, .refl i w', trivial⟩
  · obtain ⟨hinv', hguar⟩ := hkeeps w hinv hP
    refine ⟨hinv', hguar, ?_⟩
    cases r with
    | error e => trivial
    | ok a => exact hresult w a hinv hP (hanswer a rfl hop)

theorem triple_read {op : IntentOp}
    (hop : ∀ id, op ≠ .operation id) (hread : ∀ w : IntentWorld ι, w.effect i op = w) :
    IntentTriple g i P (Async.call (I := intentInterface ρ) op) (fun _ => P) .top := by
  refine triple_op hop (fun w hinv _ => ?_) (fun w a _ hP _ => ?_)
  · rw [hread]
    exact ⟨hinv, .refl i w⟩
  · rw [hread]
    exact hP

theorem triple_currentTime : IntentTriple g i P currentTime (fun _ => P) .top :=
  triple_read nofun fun _ => rfl

theorem triple_evidence (input : RecordSensitiveActionInput) :
    IntentTriple g i P (recordSensitiveAction input) (fun _ => .top) .top :=
  triple_post (triple_read nofun fun _ => rfl) fun _ _ _ _ => trivial

variable {intent : IntentFields}

theorem triple_insert (hstatus : intent.status = .proposed) :
    IntentTriple g i P (insertIntent intent) (fun _ => .top) .top :=
  triple_op nofun (fun _ hinv _ => keeps_push hinv (Tracked.inv_new hstatus))
    fun _ _ _ _ _ => trivial

theorem triple_saveCancelled {intent : ApprovalIntent} (hstatus : intent.status = .cancelled) :
    IntentTriple g i P (saveIntent intent) (fun _ => .top) .top := by
  refine triple_op nofun (fun w hinv _ => keeps_modify hinv fun t ht => ?_) fun _ _ _ _ _ => trivial
  exact (hinv _ t ht).saveCancelled hstatus

theorem triple_saveOutcome (intent : ApprovalIntent)
    (hstatus : intent.status = .completed ∨ intent.status = .failed) :
    IntentTriple g i (running i intent.id) (saveIntent intent) (fun _ => .top) .top := by
  refine triple_op nofun (fun w hinv hrunning => keeps_modify hinv fun t ht => ?_)
    fun _ _ _ _ _ => trivial
  obtain ⟨t', ht', howner, hexecuting⟩ := hrunning
  obtain rfl := some.inj (ht.symm.trans ht')
  exact (hinv _ t ht).saveOutcome hstatus howner hexecuting

theorem triple_expireDue (now : Int) : IntentTriple g i .top
    (Async.call (I := intentInterface ρ) (.expireDue now)) (fun _ => .top) .top :=
  triple_op nofun (fun _ hinv _ => keeps_mapAll hinv fun _ ht => ht.expire now)
    fun _ _ _ _ _ => trivial

theorem triple_claim (id : Nat) (hpatch : patch.status ∈ allowedTransitions .proposed) :
    IntentTriple g i .top (claimIntent id patch)
      (fun affected => ((running i id).and (notStarted i id)).when
        (affected ≠ 0 ∧ patch.status = .executing)) .top := by
  refine triple_op nofun (fun w hinv _ => keeps_modify hinv fun t ht => ?_) ?_
  · exact (hinv _ t ht).claim hpatch
  · rintro w affected hinv - hanswer ⟨hne, hexecuting⟩
    obtain rfl := some.inj hanswer
    -- the update matched, so the row was proposed and nobody had claimed it
    have hany : (w.slots.get id).any (·.row.status = .proposed) = true := by
      by_contra hnot
      exact hne (if_neg hnot)
    obtain ⟨t, ht, hproposed⟩ : ∃ t, w.slots.get id = some t ∧ t.row.status = .proposed := by
      cases hget : w.slots.get id with
      | none => simp [hget] at hany
      | some t => exact ⟨t, rfl, by simpa [hget] using hany⟩
    have hclaimed : t.claim i patch = { t.setRow (Tracked.patched patch t.row) with
        owner := some i } := by
      rw [Tracked.claim, if_pos hproposed, if_pos hexecuting]
    have hget : (w.effect i (.claim id patch)).slots.get id = some (t.claim i patch) :=
      w.slots.get_modify_self _ ht
    rw [hclaimed] at hget
    have ht' := hinv id t ht
    exact ⟨⟨_, hget, rfl, fun _ => hexecuting⟩,
      ⟨_, hget, rfl, ht'.unowned (ht'.proposed hproposed)⟩⟩

theorem triple_claim_top (id : Nat) (hpatch : patch.status ∈ allowedTransitions .proposed) :
    IntentTriple g i .top (claimIntent id patch) (fun _ => .top) .top :=
  triple_post (triple_claim id hpatch) fun _ _ _ _ => trivial

theorem triple_operation (id : Nat) : IntentTriple g i
    ((running i id).and (notStarted i id)) (runOperation id) (fun _ => running i id)
    (running i id) := by
  refine triple_call fun w c r w' hinv hP _ hperf => ?_
  obtain ⟨⟨t, ht, howner, hexecuting⟩, ⟨t', ht', -, hstarts⟩⟩ := hP
  obtain rfl := some.inj (ht.symm.trans ht')
  rcases IntentWorld.perform_cases hperf with ⟨-, -, hop⟩ | ⟨rfl, -⟩
  · exact absurd rfl (hop id)
  · have hstart : ∀ t', w.slots.get id = some t' → Tracked.Keeps i t' t'.start := by
      intro t' ht'
      obtain rfl := some.inj (ht.symm.trans ht')
      exact (hinv _ t ht).start hstarts howner
    obtain ⟨hinv', hguar⟩ := keeps_modify hinv hstart
    have hrunning : running i id (w.effect i (.operation id)) :=
      ⟨t.start, w.slots.get_modify_self _ ht, howner, hexecuting⟩
    refine ⟨hinv', hguar, ?_⟩
    cases r with
    | ok a => exact hrunning
    | error e => exact hrunning

/-! ### The functions of the service -/

variable (service : ApprovalIntentService)

theorem triple_getIntent (id : Nat) : IntentTriple g i P (getIntent id) (fun _ => P) .top := by
  refine triple_bind (triple_read nofun fun _ => rfl) fun found => ?_
  cases found with
  | none => exact triple_fail
  | some intent => exact triple_done fun _ _ h => h

theorem triple_recordBestEffort (intent : ApprovalIntent)
    (action : Audit.SensitiveAction) (fields : IntentEvidence) :
    IntentTriple g i P (recordBestEffort intent action fields) (fun _ => .top) .top :=
  triple_bind (triple_try (triple_evidence _)) fun _ => triple_return

theorem triple_cancelUnevidenced (saved : ApprovalIntent) :
    IntentTriple g i .top (cancelUnevidenced saved) (fun _ => .top) .top := by
  refine triple_bind (triple_try (triple_ofExcept_bind fun status hstatus => ?_))
    fun _ => triple_fail
  have hcancelled : status = .cancelled := by
    unfold transitionIntentStatus at hstatus
    split at hstatus
    · exact (Except.ok.inj hstatus).symm
    · split at hstatus
      · exact (Except.ok.inj hstatus).symm
      · cases hstatus
  exact triple_saveCancelled hcancelled

theorem status_of_draftIntent {request : ProposeIntentInput} {actor : ApprovalIntentActor}
    {commitment : IntentCommitment} {fingerprint : String} {now : Int}
    (h : draftIntent service request actor commitment fingerprint now = .ok intent) :
    intent.status = .proposed := by
  unfold draftIntent at h
  cases httl : resolveTtl service request.ttlSeconds with
  | error e => rw [httl] at h; cases h
  | ok ttlSeconds =>
    cases hhash : intentPayloadHash service commitment.payload with
    | error e => rw [httl, hhash] at h; cases h
    | ok payloadHash =>
      cases hsign : service.signing.sign fingerprint with
      | error e => rw [httl, hhash, hsign] at h; cases h
      | ok signature =>
        rw [httl, hhash, hsign] at h
        cases h
        rfl

theorem triple_propose (request : ProposeIntentInput) :
    IntentTriple g i .top (propose service request) (fun _ => .top) .top := by
  refine triple_ofExcept_bind fun ⟨actor, commitment⟩ _ => ?_
  refine triple_ofExcept_bind (x := approvalIntentFingerprint service commitment)
    fun fingerprint _ => ?_
  refine triple_bind (triple_read nofun fun _ => rfl) fun existing => ?_
  cases existing with
  | some existing => exact triple_fail
  | none =>
    refine triple_bind triple_currentTime fun now => ?_
    refine triple_ofExcept_bind fun intent hintent => ?_
    refine triple_bind (triple_insert (status_of_draftIntent service hintent)) fun saved => ?_
    refine triple_bind (triple_try (triple_evidence _)) fun recorded => ?_
    cases recorded with
    | ok _ => exact triple_return
    | error e => exact triple_cancelUnevidenced saved

variable {next : ApprovalIntentStatus}

theorem transition_of_proposed {current status : ApprovalIntentStatus}
    (hcurrent : current = .proposed) (hnext : next ≠ .proposed)
    (h : transitionIntentStatus current next = .ok status) :
    status = next ∧ next ∈ allowedTransitions .proposed := by
  subst hcurrent
  unfold transitionIntentStatus at h
  rw [if_neg hnext.symm] at h
  split at h
  · rename_i hallowed
    exact ⟨(Except.ok.inj h).symm, contains_iff_mem.mp hallowed⟩
  · cases h

theorem triple_withdraw (intent : ApprovalIntent) (verb : String) (hnext : next ≠ .proposed) :
    IntentTriple g i .top (withdraw intent next verb) (fun _ => .top) .top := by
  unfold withdraw
  split
  · exact triple_fail
  · rename_i hproposed
    refine triple_ofExcept_bind fun status hstatus => ?_
    obtain ⟨rfl, hallowed⟩ := transition_of_proposed (not_not.mp hproposed) hnext hstatus
    refine triple_bind triple_currentTime fun completedAt => ?_
    refine triple_bind (triple_claim_top intent.id hallowed) fun affected => ?_
    split
    · exact triple_bind (triple_getIntent intent.id) fun _ => triple_fail
    · exact triple_return

theorem triple_cancel (id : Nat) (actor : Option IntentExecutor) (reason : Option String) :
    IntentTriple g i .top (cancel service id actor reason) (fun _ => .top) .top := by
  refine triple_bind (triple_getIntent id) fun intent => ?_
  split
  · exact triple_fail
  · refine triple_bind (triple_withdraw intent "cancelled" (by decide)) fun saved => ?_
    exact triple_bind (triple_recordBestEffort saved _ _) fun _ => triple_return

theorem triple_expireIntent (id : Nat) :
    IntentTriple g i .top (expireIntent id) (fun _ => .top) .top :=
  triple_bind (triple_getIntent id) fun intent => triple_withdraw intent "expired" (by decide)

theorem triple_expireDueIntents (now : Option Int) :
    IntentTriple g i .top (expireDueIntents now) (fun _ => .top) .top := by
  cases now with
  | some time => exact triple_expireDue time
  | none => exact triple_bind triple_currentTime fun time => triple_expireDue time

theorem triple_finish (intent : ApprovalIntent) (executor : Option IntentExecutor)
    (outcome : ExecutionOutcome) : IntentTriple g i (running i intent.id)
      (finish service intent executor outcome) (fun _ => .top) .top := by
  refine triple_bind triple_currentTime fun completedAt => ?_
  refine triple_ofExcept_bind fun integrity _ => ?_
  have hstatus : outcome.status = .completed ∨ outcome.status = .failed := by
    cases outcome with
    | completed => exact .inl rfl
    | failed reason => exact .inr rfl
  have hsave := triple_saveOutcome (g := g) (i := i) (receipted intent outcome completedAt
    (receiptDocument service intent outcome completedAt) integrity) hstatus
  refine triple_bind hsave fun saved => ?_
  exact triple_bind (triple_recordBestEffort saved _ _) fun _ => triple_return

theorem triple_runClaimed (intent : ApprovalIntent) (executor : Option IntentExecutor) :
    IntentTriple g i
      ((running i intent.id).and (notStarted i intent.id)) (runClaimed service intent executor)
      (fun _ => .top) .top := by
  refine triple_catch (triple_operation intent.id) (fun result => ?_) fun e => ?_
  · exact triple_bind (triple_finish service intent executor _) fun _ => triple_return
  · exact triple_bind (triple_finish service intent executor _) fun _ => triple_fail

theorem triple_execute (id : Nat) (executor : Option IntentExecutor) :
    IntentTriple g i .top (execute service id executor) (fun _ => .top) .top := by
  refine triple_bind (triple_getIntent id) fun intent => ?_
  split
  · exact triple_fail
  · refine triple_bind triple_currentTime fun time => ?_
    split
    · have hallowed : expired ∈ allowedTransitions .proposed := by decide
      exact triple_bind (triple_bind (triple_claim_top intent.id hallowed)
        fun _ => triple_return) fun _ => triple_fail
    · refine triple_ofExcept_bind fun _ _ => ?_
      refine triple_bind triple_currentTime fun startedAt => ?_
      have hallowed : executing ∈ allowedTransitions .proposed := by decide
      refine triple_bind (triple_claim intent.id hallowed) fun affected => ?_
      split
      · exact triple_bind (triple_getIntent intent.id) fun _ => triple_fail
      · rename_i hne
        exact triple_pre (triple_runClaimed service _ executor) fun _ _ h => h ⟨hne, rfl⟩

end Contract

/-! ## Runs -/

inductive IntentRequest where
  | propose (request : ProposeIntentInput)
  | cancel (id : Nat) (actor : Option IntentExecutor) (reason : Option String)
  | expireDue (now : Option Int)
  | expire (id : Nat)
  | execute (id : Nat) (executor : Option IntentExecutor)

inductive IntentResponse (ρ : Type) where
  | intent (intent : ApprovalIntent)
  | count (affected : Nat)
  | executed (intent : ApprovalIntent) (result : ρ)

def IntentRequest.program {ρ : Type} (service : ApprovalIntentService) :
    IntentRequest → IntentProgram ρ (IntentResponse ρ)
  | .propose request => do
      let intent ← Approvals.propose service request
      .done (.intent intent)
  | .cancel id actor reason => do
      let intent ← Approvals.cancel service id actor reason
      .done (.intent intent)
  | .expireDue now => do
      let affected ← expireDueIntents now
      .done (.count affected)
  | .expire id => do
      let intent ← expireIntent id
      .done (.intent intent)
  | .execute id executor => do
      let (intent, result) ← Approvals.execute service id executor
      .done (.executed intent result)

section Runs

variable {ι ρ : Type} [DecidableEq ι] {service : ApprovalIntentService}

variable (service) in
def intentPool (ρ : Type) (requests : ι → IntentRequest) :
    Pool (intentInterface ρ) Failure ι (IntentWorld ι) (IntentResponse ρ) where
  world := {}
  calls i := (requests i).program service

abbrev ContractsKept (c : Pool (intentInterface ρ) Failure ι (IntentWorld ι) (IntentResponse ρ)) :
    Prop :=
  Pool.AllSafe (intentSemantics ι ρ) (anyStep _) intentContract AllTracked
    (fun i => outcome (C := intentContract i) (fun _ => .top) .top) c

omit [DecidableEq ι] in
theorem triple_request {i : ι} (request : IntentRequest) :
    Triple (C := intentContract i) (intentSemantics ι ρ) (anyStep _) i .top
      (request.program service) (fun _ => .top) .top := by
  cases request with
  | propose request => exact triple_bind (triple_propose service request) fun _ => triple_return
  | cancel id actor reason =>
    exact triple_bind (triple_cancel service id actor reason) fun _ => triple_return
  | expireDue now => exact triple_bind (triple_expireDueIntents now) fun _ => triple_return
  | expire id => exact triple_bind (triple_expireIntent id) fun _ => triple_return
  | execute id executor =>
    exact triple_bind (triple_execute service id executor) fun _ => triple_return

variable {requests : ι → IntentRequest}
  {c c' : Pool (intentInterface ρ) Failure ι (IntentWorld ι) (IntentResponse ρ)}

theorem reach_tracked
    (hreach : Pool.Reach (intentSemantics ι ρ) (anyStep _) (intentPool service ρ requests) c) :
    ContractsKept c := by
  have hempty : AllTracked ({} : IntentWorld ι) := fun _ _ ht => by cases ht
  exact hreach.keeps intentContract_compatible hempty (fun i => triple_request (requests i))
    fun _ => trivial

theorem stored_grows (hkept : ContractsKept c)
    (hreach : Pool.Reach (intentSemantics ι ρ) (anyStep _) c c') {n : Nat} {t : Tracked ι}
    (ht : c.world.slots.get n = some t) :
    ∃ t', c'.world.slots.get n = some t' ∧ t.stored <+: t'.stored := by
  let Grown (w : IntentWorld ι) : Prop := ∃ t', w.slots.get n = some t' ∧ t.stored <+: t'.stored
  refine hreach.preserves (P := Grown) intentContract_compatible hkept ?_ (fun _ _ h => h)
    ⟨t, ht, prefix_refl _⟩
  rintro i w w' hguar ⟨t₁, ht₁, hgrown⟩
  obtain ⟨t₂, ht₂, hgrows⟩ := hguar n t₁ ht₁
  exact ⟨t₂, ht₂, hgrown.trans hgrows.stored⟩

theorem eq_of_terminal {stored' : List ApprovalIntentStatus}
    (hlast : stored.getLast? = some s) (hterminal : isTerminal s = true)
    (hgrown : stored <+: stored') (hfollows : FollowsTable stored') : stored' = stored := by
  obtain ⟨rest, rfl⟩ := hgrown
  obtain ⟨front, rfl⟩ := getLast?_eq_some_iff.mp hlast
  rw [append_assoc, singleton_append] at hfollows
  rw [hfollows.terminal_last front s rest rfl hterminal, append_nil]

/-- An intent follows the table of transitions exactly if no failed proposal has overwritten
another status than its own.  The operation is started at most once in any case, and a terminal
status stays unless it is overwritten. -/
theorem intent_follows_table_iff
    (hreach : Pool.Reach (intentSemantics ι ρ) (anyStep _) (intentPool service ρ requests) c)
    {n : Nat} {t : Tracked ι} (ht : c.world.slots.get n = some t) :
    (FollowsTable t.stored ↔ t.clobbered = false) ∧ t.starts ≤ 1 ∧
      t.stored.getLast? = some t.row.status ∧
      ∀ c', Pool.Reach (intentSemantics ι ρ) (anyStep _) c c' →
        ∃ t', c'.world.slots.get n = some t' ∧ t.stored <+: t'.stored ∧
          (isTerminal t.row.status = true → t'.clobbered = false →
            t'.row.status = t.row.status) := by
  have hkept := reach_tracked hreach
  have hinv := hkept.world_inv n t ht
  refine ⟨followsTable_iff.trans hinv.path, hinv.starts_le, hinv.last, fun c' hreach' => ?_⟩
  obtain ⟨t', ht', hgrown⟩ := stored_grows hkept hreach' ht
  refine ⟨t', ht', hgrown, fun hterminal hclobbered => ?_⟩
  have hinv' := (reach_tracked (hreach.trans hreach')).world_inv n t' ht'
  have hfollows := followsTable_iff.mpr (hinv'.path.mpr hclobbered)
  have hlast := hinv'.last
  rw [eq_of_terminal hinv.last hterminal hgrown hfollows, hinv.last] at hlast
  exact (some.inj hlast).symm

end Runs

/-! ## A proposal whose evidence fails -/

def exampleApprovals : ApprovalIntentService where
  sha256 := hexCode
  signing := { systemKey := "key", hmac := fun _ payload => payload }
  toIso := Audit.digits
  toUpperCase text := String.ofList (text.toList.map Char.toUpper)

def proposeAndExecute : Bool → IntentRequest
  | false => .propose
      { action := "access.role.assigned", actor := some { id := "maintainer-1" },
        resourceType := "user", resourceId := "user-7", reason := some "onboarding" }
  | true => .execute 0 (some { id := "maintainer-2", role := some "admin" })

/-- The intent is stored, its evidence is written, and it is executed. -/
def evidencedSchedule : List (Pool.Pick (intentSemantics Bool Unit)) :=
  [.call false .served, .call false .served, .call false .served, .call false .served,
    .call true .served, .call true .served, .call true .served, .call true .served,
    .call true (.resolved ()), .call true .served, .call true .served]

/-- The intent is executed while its evidence is being written, which then fails. -/
def unevidencedSchedule : List (Pool.Pick (intentSemantics Bool Unit)) :=
  [.call false .served, .call false .served, .call false .served,
    .call true .served, .call true .served, .call true .served, .call true .served,
    .call false (.rejected (.error "connection lost")), .call false .served,
    .call true (.resolved ()), .call true .served, .call true .served]

theorem evidenced_intent_is_completed : ∃ c t, Pool.Reach (intentSemantics Bool Unit) (anyStep _)
      (intentPool exampleApprovals Unit proposeAndExecute) c ∧
    c.world.slots.get 0 = some t ∧ t.stored = [.proposed, .executing, .completed] ∧
    FollowsTable t.stored ∧ t.starts ≤ 1 := by
  have hrun : (Pool.run (intentSemantics Bool Unit) (anyStep _) evidencedSchedule
      (intentPool exampleApprovals Unit proposeAndExecute)).map
        (fun c => (c.world.slots.get 0).map fun t => (t.stored, t.clobbered)) =
      some (some ([.proposed, .executing, .completed], false)) := by
    decide +kernel
  obtain ⟨c, hreach, hc⟩ := Pool.exists_reach_of_run hrun
  obtain ⟨t, ht, htracked⟩ := map_eq_some_iff.mp hc
  obtain ⟨hstored, hclobbered⟩ := Prod.mk.inj htracked
  have hfollows := intent_follows_table_iff hreach ht
  exact ⟨c, t, hreach, ht, hstored, hfollows.1.mpr hclobbered, hfollows.2.1⟩

/-- The failed proposal cancels the executing intent, which is then completed. -/
theorem failed_proposal_overwrites_execution :
    ∃ c t, Pool.Reach (intentSemantics Bool Unit) (anyStep _)
        (intentPool exampleApprovals Unit proposeAndExecute) c ∧ c.world.slots.get 0 = some t ∧
      t.stored = [.proposed, .executing, .cancelled, .completed] ∧ ¬ FollowsTable t.stored := by
  have hrun : (Pool.run (intentSemantics Bool Unit) (anyStep _) unevidencedSchedule
      (intentPool exampleApprovals Unit proposeAndExecute)).map
        (fun c => (c.world.slots.get 0).map fun t => t.stored) =
      some (some [.proposed, .executing, .cancelled, .completed]) := by
    decide +kernel
  obtain ⟨c, hreach, hc⟩ := Pool.exists_reach_of_run hrun
  obtain ⟨t, ht, hstored⟩ := map_eq_some_iff.mp hc
  refine ⟨c, t, hreach, ht, hstored, fun hfollows => ?_⟩
  rw [hstored] at hfollows
  have hlast := hfollows.terminal_last [.proposed, .executing] .cancelled [.completed] rfl rfl
  cases hlast

end Trellis.Approvals
