import Trellis.Ownership.Transfer

/-!
# A transfer is decided once

`acceptTransfer` looks at the expiry before the status, so it marks a decided transfer as expired
once its time has passed. Every other call leaves a decided transfer alone.
-/

namespace Trellis.Ownership

open Core TransferStore

variable {now : Int} {store : TransferStore} {call : TransferCall} {id : String}

/-! ## The property and the condition -/

def TransferStore.statusOf (store : TransferStore) (id : String) : Option TransferStatus :=
  (store.get id).map (·.status)

def runCalls (store : TransferStore) (calls : List (Int × TransferCall)) : TransferStore :=
  calls.foldl (fun store call => step call.1 store call.2) store

/-- A status other than `PENDING` never changes along the calls. -/
def DecidedOnce (store : TransferStore) (calls : List (Int × TransferCall)) : Prop :=
  ∀ first next rest, calls = first ++ next ++ rest → ∀ id status,
    (runCalls store first).statusOf id = some status → status ≠ .pending →
      (runCalls store (first ++ next)).statusOf id = some status

def LateAccept (now : Int) (store : TransferStore) : TransferCall → Prop
  | .accept transferId _ => ∃ t, store.get transferId = some t ∧ isExpired now t = true ∧
      t.status ≠ .pending ∧ t.status ≠ .expired
  | _ => False

/-! ## One call -/

theorem runCalls_append (store : TransferStore) (calls calls' : List (Int × TransferCall)) :
    runCalls store (calls ++ calls') = runCalls (runCalls store calls) calls' :=
  List.foldl_append

theorem statusOf_step (hlate : ¬ LateAccept now store call) {status : TransferStatus}
    (hstatus : store.statusOf id = some status) (hdecided : status ≠ .pending) :
    (step now store call).statusOf id = some status := by
  obtain ⟨t, hget, rfl⟩ := Option.map_eq_some_iff.mp hstatus
  obtain ⟨t', hget', hchange⟩ := (changes_step now store call id).2 t hget
  rw [statusOf, hget']
  cases hchange with
  | same => rfl
  | closed _ hpending => exact (hdecided hpending).elim
  | late actorId hcall hexpired =>
    have hid : t.id = id := store.keyed id t hget
    by_contra hne
    refine hlate ?_
    rw [hcall]
    refine ⟨t, hid ▸ hget, hexpired, hdecided, fun heq => hne ?_⟩
    rw [heq]
    rfl

theorem statusOf_lateAccept (hlate : LateAccept now store call) :
    ∃ id status, store.statusOf id = some status ∧ status ≠ .pending ∧
      (step now store call).statusOf id ≠ some status := by
  cases call with
  | accept transferId actorId =>
    obtain ⟨t, hget, hexpired, hpending, hne⟩ := hlate
    have hid : t.id = transferId := store.keyed transferId t hget
    have hfound : getTransferById store transferId = .ok t := by
      unfold getTransferById
      rw [hget]
    have hstep : step now store (.accept transferId actorId) =
        store.save { t with status := .expired } := by
      simp only [step, acceptTransfer, hfound, hexpired, if_true]
    refine ⟨transferId, t.status, ?_, hpending, ?_⟩
    · rw [statusOf, hget]
      rfl
    · rw [hstep, statusOf, get_save, if_pos hid.symm]
      exact fun heq => hne (Option.some.inj heq).symm
  | cancel _ _ _ | reject _ _ _ | get _ | list _ _ => exact hlate.elim

/-! ## Sequences of calls -/

/-- Along a sequence of calls, at whatever times, decided transfers keep their status exactly if no
call accepts a transfer that has expired after it was decided otherwise. -/
theorem decided_once_iff (store : TransferStore) (calls : List (Int × TransferCall)) :
    DecidedOnce store calls ↔ ∀ first now call rest, calls = first ++ (now, call) :: rest →
        ¬ LateAccept now (runCalls store first) call := by
  constructor
  · intro honce first now call rest hcalls hlate
    obtain ⟨id, status, hstatus, hdecided, hne⟩ := statusOf_lateAccept hlate
    have hkeeps := honce first [(now, call)] rest (by simp [hcalls]) id status hstatus hdecided
    rw [runCalls_append] at hkeeps
    exact hne hkeeps
  · intro hnever first next rest hcalls id status hstatus hdecided
    induction next using List.reverseRecOn generalizing rest with
    | nil => rwa [List.append_nil]
    | append_singleton next call ih =>
      obtain ⟨now, call⟩ := call
      have hbefore := ih ((now, call) :: rest) (by rw [hcalls]; simp)
      rw [← List.append_assoc, runCalls_append]
      exact statusOf_step (hnever (first ++ next) now call rest (by rw [hcalls]; simp))
        hbefore hdecided

/-! ### A transfer that was rejected -/

def documentTransfer : OwnershipTransfer where
  id := "t"
  resourceType := "document"
  resourceId := "d"
  currentOwnerId := "a"
  proposedOwnerId := "b"
  expiresAt := 1000
  createdAt := 0
  updatedAt := 0

/-- The transfer is rejected, and after its expiry somebody tries to accept it. -/
theorem rejected_transfer_expires : ¬ DecidedOnce (TransferStore.empty.save documentTransfer)
    [(500, .reject "t" "b" none), (2000, .accept "t" "c")] := by
  intro honce
  have hkeeps := honce [(500, .reject "t" "b" none)] [(2000, .accept "t" "c")] [] rfl "t" .rejected
    (by decide) (by decide)
  revert hkeeps
  decide

end Trellis.Ownership
