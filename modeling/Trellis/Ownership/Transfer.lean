import Trellis.Core.Failure
import Trellis.Core.Json
import Trellis.Core.Record

/-!
# Ownership transfers

`ownership-transfer.service.ts`: a transfer of a resource is initiated by its owner and then
accepted, cancelled or rejected, or it expires. The repository and the map in memory are the same
store; a call runs at one time.
-/

namespace Trellis.Ownership

open Core List Record

/-! ## Transfers -/

inductive TransferStatus where
  | pending
  | accepted
  | cancelled
  | expired
  | rejected
deriving DecidableEq

def TransferStatus.text : TransferStatus → String
  | .pending => "PENDING"
  | .accepted => "ACCEPTED"
  | .cancelled => "CANCELLED"
  | .expired => "EXPIRED"
  | .rejected => "REJECTED"

structure OwnershipTransfer where
  id : String
  resourceType : String
  resourceId : String
  currentOwnerId : String
  proposedOwnerId : String
  status : TransferStatus := .pending
  expiresAt : Int
  acceptedAt : Option Int := none
  cancelledAt : Option Int := none
  cancellationReason : Option String := none
  rejectedAt : Option Int := none
  rejectionReason : Option String := none
  createdAt : Int
  updatedAt : Int
deriving DecidableEq

/-- The transfers, each under its id, in the order of their insertion. -/
structure TransferStore where
  rows : Record OwnershipTransfer
  keyed : ∀ id transfer, rows.get id = some transfer → transfer.id = id

namespace TransferStore

def empty : TransferStore where
  rows := .empty
  keyed id transfer h := by
    rw [get_empty] at h
    cases h

def get (store : TransferStore) (id : String) : Option OwnershipTransfer :=
  store.rows.get id

def all (store : TransferStore) : List OwnershipTransfer :=
  store.rows.values

def save (store : TransferStore) (transfer : OwnershipTransfer) : TransferStore where
  rows := store.rows.set transfer.id transfer
  keyed id transfer' h := by
    by_cases hid : id = transfer.id
    · subst hid
      rw [get_set_self] at h
      cases h
      rfl
    · rw [get_set_of_ne _ _ hid] at h
      exact store.keyed id transfer' h

@[simp]
theorem get_empty (id : String) : empty.get id = none :=
  Record.get_empty id

theorem get_save (store : TransferStore) (transfer : OwnershipTransfer) (id : String) :
    (store.save transfer).get id = if id = transfer.id then some transfer else store.get id := by
  by_cases hid : id = transfer.id
  · subst hid
    rw [if_pos rfl]
    exact get_set_self _ _ _
  · rw [if_neg hid]
    exact get_set_of_ne _ _ hid

theorem mem_all_iff {store : TransferStore} {transfer : OwnershipTransfer} :
    transfer ∈ store.all ↔ store.get transfer.id = some transfer := by
  constructor
  · intro hmem
    obtain ⟨⟨id, t⟩, hentry, rfl⟩ := mem_map.mp hmem
    have hget := mem_entries_iff.mp hentry
    rw [store.keyed id t hget]
    exact hget
  · intro hget
    exact mem_map.mpr ⟨_, mem_entries_iff.mpr hget, rfl⟩

theorem nodup_all (store : TransferStore) : (store.all.map (·.id)).Nodup := by
  have hkeys : store.all.map (·.id) = store.rows.entries.map (·.1) := by
    rw [TransferStore.all, values, map_map]
    refine map_congr_left fun entry hentry => ?_
    exact store.keyed entry.1 entry.2 (mem_entries_iff.mp hentry)
  rw [hkeys]
  exact store.rows.nodup

end TransferStore

/-! ## The service -/

abbrev TransferResult (α : Type) : Type :=
  Except Failure α × TransferStore

variable (now : Int) (store : TransferStore) (transfer : OwnershipTransfer)

def isExpired : Bool :=
  transfer.expiresAt ≤ now

def getTransferById (id : String) : Except Failure OwnershipTransfer :=
  match store.get id with
  | some transfer => .ok transfer
  | none => .error (.notFound ("Ownership transfer '" ++ id ++ "' not found."))

/-- What `acceptTransfer`, `cancelTransfer` and `rejectTransfer` do with a transfer that they have
found: only a pending one is closed, and only by the right actor. -/
def closeFound (statusMessage actorMessage : String) (isActor : Bool)
    (close : OwnershipTransfer → OwnershipTransfer) : TransferResult OwnershipTransfer :=
  if transfer.status ≠ .pending then (.error (.badRequest statusMessage), store)
  else if !isActor then (.error (.forbidden actorMessage), store)
  else (.ok (close transfer), store.save (close transfer))

def acceptTransfer (transferId actorId : String) : TransferResult OwnershipTransfer :=
  match getTransferById store transferId with
  | .error e => (.error e, store)
  | .ok transfer =>
    if isExpired now transfer then
      (.error (.badRequest "Ownership transfer request has expired."),
        store.save { transfer with status := .expired })
    else
      closeFound store transfer ("Cannot accept transfer with status '" ++ transfer.status.text ++
          "'. Only PENDING transfers can be accepted.")
        "Only the proposed owner is authorized to accept this transfer."
        (transfer.proposedOwnerId = actorId)
        fun t => { t with status := .accepted, acceptedAt := some now, updatedAt := now }

def cancelTransfer (transferId actorId : String)
    (reason : Option String) : TransferResult OwnershipTransfer :=
  match getTransferById store transferId with
  | .error e => (.error e, store)
  | .ok transfer =>
    closeFound store transfer
      ("Cannot cancel transfer with status '" ++ transfer.status.text ++ "'.")
      "Only the current owner is authorized to cancel this transfer."
      (transfer.currentOwnerId = actorId)
      fun t =>
        { t with
          status := .cancelled
          cancelledAt := some now
          cancellationReason := some (reason.getD "Cancelled by initiator")
          updatedAt := now }

def rejectTransfer (transferId actorId : String)
    (reason : Option String) : TransferResult OwnershipTransfer :=
  match getTransferById store transferId with
  | .error e => (.error e, store)
  | .ok transfer =>
    closeFound store transfer
      ("Cannot reject transfer with status '" ++ transfer.status.text ++ "'.")
      "Only the proposed owner is authorized to reject this transfer."
      (transfer.proposedOwnerId = actorId)
      fun t =>
        { t with
          status := .rejected
          rejectedAt := some now
          rejectionReason := some (reason.getD "Rejected by proposed owner")
          updatedAt := now }

def refreshed : OwnershipTransfer :=
  if transfer.status = .pending ∧ isExpired now transfer = true then
    { transfer with status := .expired }
  else transfer

def refresh : TransferStore :=
  if transfer.status = .pending ∧ isExpired now transfer = true then
    store.save { transfer with status := .expired }
  else store

def getTransfer (transferId : String) : TransferResult OwnershipTransfer :=
  match getTransferById store transferId with
  | .error e => (.error e, store)
  | .ok transfer => (.ok (refreshed now transfer), refresh now store transfer)

inductive Direction where
  | incoming
  | outgoing
  | all

def Direction.admits (direction : Direction) (userId : String) (t : OwnershipTransfer) : Bool :=
  match direction with
  | .incoming => t.proposedOwnerId = userId
  | .outgoing => t.currentOwnerId = userId
  | .all => t.currentOwnerId = userId || t.proposedOwnerId = userId

def listTransfers (userId : String) (direction : Direction) :
    TransferResult (List OwnershipTransfer) :=
  (.ok ((store.all.map (refreshed now)).filter (direction.admits userId)),
    store.all.foldl (refresh now) store)

structure InitiateTransferDto where
  resourceType : String
  resourceId : String
  currentOwnerId : String
  proposedOwnerId : String
  expiresInHours : Option ℚ := none

def pendingByResource (resourceType resourceId : String) : List OwnershipTransfer :=
  store.all.filter fun t =>
    t.resourceType = resourceType ∧ t.resourceId = resourceId ∧ t.status = .pending

/-- `findPendingByResource`: any of the rows may be returned, and the map in memory returns the
first one, which is number zero. -/
def findPendingByResource (resourceType resourceId : String)
    (pick : Nat) : Option OwnershipTransfer :=
  let rows := pendingByResource store resourceType resourceId
  (rows.drop (pick % rows.length)).head?

def expiryOf (expiresInHours : Option ℚ) : Int :=
  let hours := match expiresInHours with
    | some hours => if 0 < hours then hours else 72
    | none => 72
  now + ⌊hours * 60 * 60 * 1000⌋

def newTransfer (dto : InitiateTransferDto) (random : String) : OwnershipTransfer where
  id := "ot_" ++ String.ofList (intText now) ++ "_" ++ random
  resourceType := dto.resourceType
  resourceId := dto.resourceId
  currentOwnerId := dto.currentOwnerId
  proposedOwnerId := dto.proposedOwnerId
  expiresAt := expiryOf now dto.expiresInHours
  createdAt := now
  updatedAt := now

def initiateTransfer (dto : InitiateTransferDto)
    (pick : Nat) (random : String) : TransferResult OwnershipTransfer :=
  if dto.currentOwnerId = dto.proposedOwnerId then
    (.error (.badRequest "Cannot transfer ownership to yourself."), store)
  else if dto.resourceType = "" ∨ dto.resourceId = "" then
    (.error (.badRequest "resourceType and resourceId are required."), store)
  else
    let existing := findPendingByResource store dto.resourceType dto.resourceId pick
    if existing.any fun t => !isExpired now t then
      (.error (.conflict ("A pending ownership transfer already exists for " ++
        dto.resourceType ++ ":" ++ dto.resourceId)), store)
    else (.ok (newTransfer now dto random), store.save (newTransfer now dto random))

/-! ## Calls -/

inductive TransferCall where
  | accept (transferId actorId : String)
  | cancel (transferId actorId : String) (reason : Option String)
  | reject (transferId actorId : String) (reason : Option String)
  | get (transferId : String)
  | list (userId : String) (direction : Direction)

def step : TransferCall → TransferStore
  | .accept transferId actorId => (acceptTransfer now store transferId actorId).2
  | .cancel transferId actorId reason => (cancelTransfer now store transferId actorId reason).2
  | .reject transferId actorId reason => (rejectTransfer now store transferId actorId reason).2
  | .get transferId => (getTransfer now store transferId).2
  | .list userId direction => (listTransfers now store userId direction).2

/-! ## What a call does -/

structure SameTransfer (t t' : OwnershipTransfer) : Prop where
  id : t'.id = t.id
  resourceType : t'.resourceType = t.resourceType
  resourceId : t'.resourceId = t.resourceId
  expiresAt : t'.expiresAt = t.expiresAt

/-- What a call does to one transfer: nothing, a pending one is decided, or `acceptTransfer` marks
one that has expired, whatever its status is. -/
inductive Change (now : Int) (call : TransferCall) (t : OwnershipTransfer) :
    OwnershipTransfer → Prop where
  | same : Change now call t t
  | closed (t' : OwnershipTransfer) (hpending : t.status = .pending)
      (hclosed : t'.status ≠ .pending) (hsame : SameTransfer t t') : Change now call t t'
  | late (actorId : String) (hcall : call = .accept t.id actorId)
      (hexpired : isExpired now t = true) : Change now call t { t with status := .expired }

variable {now : Int} {store store' : TransferStore} {call : TransferCall} {id : String}

/-- Every transfer of the store was changed in one of these ways. -/
def Changes (now : Int) (call : TransferCall) (store store' : TransferStore) : Prop :=
  ∀ id, (store.get id = none → store'.get id = none) ∧
    ∀ t, store.get id = some t → ∃ t', store'.get id = some t' ∧ Change now call t t'

theorem changes_refl : Changes now call store store :=
  fun _ => ⟨fun h => h, fun t h => ⟨t, h, .same⟩⟩

theorem changes_save {t t' : OwnershipTransfer} (hget : store.get id = some t) (hid : t'.id = t.id)
    (hchange : Change now call t t') : Changes now call store (store.save t') := by
  have htid : t.id = id := store.keyed id t hget
  intro id'
  rw [TransferStore.get_save, hid, htid]
  by_cases heq : id' = id
  · subst heq
    rw [if_pos rfl, hget]
    refine ⟨fun hnone => (by cases hnone), fun t₀ ht₀ => ?_⟩
    cases ht₀
    exact ⟨t', rfl, hchange⟩
  · rw [if_neg heq]
    exact ⟨fun h => h, fun t₀ h => ⟨t₀, h, .same⟩⟩

variable {t : OwnershipTransfer}

theorem changes_closeFound (hget : store.get id = some t) {statusMessage actorMessage : String}
    {isActor : Bool} {close : OwnershipTransfer → OwnershipTransfer}
    (hclosed : (close t).status ≠ .pending) (hsame : SameTransfer t (close t)) :
    Changes now call store (closeFound store t statusMessage actorMessage isActor close).2 := by
  unfold closeFound
  split_ifs with hstatus hactor
  · exact changes_refl
  · exact changes_refl
  · exact changes_save hget hsame.id (.closed _ (not_not.mp hstatus) hclosed hsame)

theorem get_of_getTransferById (h : getTransferById store id = .ok t) : store.get id = some t := by
  unfold getTransferById at h
  cases hget : store.get id with
  | none =>
    rw [hget] at h
    cases h
  | some t' =>
    rw [hget] at h
    cases h
    rfl

theorem changes_refresh (hget : store.get id = some t) :
    Changes now call store (refresh now store t) := by
  unfold refresh
  split_ifs with hexpired
  · exact changes_save hget rfl (.closed _ hexpired.1 (by simp) ⟨rfl, rfl, rfl, rfl⟩)
  · exact changes_refl

theorem get_refreshAll {ts : List OwnershipTransfer} (hnodup : (ts.map (·.id)).Nodup)
    (hts : ∀ t ∈ ts, store.get t.id = some t) (id : String) :
    (ts.foldl (refresh now) store).get id =
      if id ∈ ts.map (·.id) then (store.get id).map (refreshed now) else store.get id := by
  induction ts generalizing store with
  | nil => rfl
  | cons t rest ih =>
    rw [map_cons, nodup_cons] at hnodup
    have hget := hts t mem_cons_self
    have hfirst : ∀ id', (refresh now store t).get id' =
        if id' = t.id then some (refreshed now t) else store.get id' := by
      intro id'
      unfold refresh refreshed
      split_ifs with hexpired hid hid
      · rw [TransferStore.get_save, if_pos hid]
      · rw [TransferStore.get_save, if_neg hid]
      · rw [hid, hget]
      · rfl
    have hrest : ∀ t' ∈ rest, (refresh now store t).get t'.id = some t' := by
      intro t' ht'
      have hne : t'.id ≠ t.id := fun heq => hnodup.1 (heq ▸ mem_map_of_mem ht')
      rw [hfirst, if_neg hne]
      exact hts t' (mem_cons_of_mem t ht')
    rw [foldl_cons, ih hnodup.2 hrest, hfirst]
    by_cases hid : id = t.id
    · subst hid
      rw [if_neg hnodup.1, if_pos rfl, if_pos (by simp), hget]
      rfl
    · rw [if_neg hid]
      by_cases hmem : id ∈ rest.map (·.id)
      · rw [if_pos hmem, if_pos (by simp [hmem])]
      · rw [if_neg hmem, if_neg (by simp [hid, hmem])]

theorem change_refreshed (t : OwnershipTransfer) : Change now call t (refreshed now t) := by
  unfold refreshed
  split_ifs with hexpired
  · exact .closed _ hexpired.1 (by simp) ⟨rfl, rfl, rfl, rfl⟩
  · exact .same

theorem changes_list : Changes now call store (store.all.foldl (refresh now) store) := by
  intro id
  rw [get_refreshAll store.nodup_all (fun t ht => TransferStore.mem_all_iff.mp ht)]
  constructor
  · intro hnone
    split_ifs
    · rw [hnone]
      rfl
    · exact hnone
  · intro t ht
    split_ifs
    · rw [ht]
      exact ⟨_, rfl, change_refreshed t⟩
    · exact ⟨t, ht, .same⟩

theorem changes_step (now : Int) (store : TransferStore) (call : TransferCall) :
    Changes now call store (step now store call) := by
  cases call with
  | accept transferId actorId =>
    simp only [step, acceptTransfer]
    cases hfound : getTransferById store transferId with
    | error e => exact changes_refl
    | ok t =>
      have hget := get_of_getTransferById hfound
      have hid : t.id = transferId := store.keyed _ t hget
      simp only
      split_ifs with hexpired
      · exact changes_save hget rfl (.late actorId (by rw [hid]) hexpired)
      · exact changes_closeFound hget (by simp) ⟨rfl, rfl, rfl, rfl⟩
  | cancel transferId actorId reason =>
    simp only [step, cancelTransfer]
    cases hfound : getTransferById store transferId with
    | error e => exact changes_refl
    | ok t =>
      exact changes_closeFound (get_of_getTransferById hfound) (by simp) ⟨rfl, rfl, rfl, rfl⟩
  | reject transferId actorId reason =>
    simp only [step, rejectTransfer]
    cases hfound : getTransferById store transferId with
    | error e => exact changes_refl
    | ok t =>
      exact changes_closeFound (get_of_getTransferById hfound) (by simp) ⟨rfl, rfl, rfl, rfl⟩
  | get transferId =>
    simp only [step, getTransfer]
    cases hfound : getTransferById store transferId with
    | error e => exact changes_refl
    | ok t => exact changes_refresh (get_of_getTransferById hfound)
  | list userId direction => exact changes_list

end Trellis.Ownership
