import Trellis.Oracle.Submitter

/-!
# What the callers of the submitter know

The contract's answer is stored after it was given, and the errors of storing it, of waiting for
it and of broadcasting go through the same handlers. Here are the property, the condition under
which it holds, the invariant and what each call may rely on.
-/

namespace Trellis.Oracle

open Core SubmitterWorld

variable {ι : Type}

/-! ## The property -/

/-- The contract was called only while no transaction was live. -/
def OneLive (w : SubmitterWorld ι) : Prop :=
  ∀ live ∈ w.broadcasts, live = []

def Confirmed (id : String) (w : SubmitterWorld ι) : Prop :=
  ∃ row, w.rows id = some row ∧ row.status = .confirmed

/-! ## The condition -/

/-- The operation does not resolve, or the provider has no receipt. -/
def SubmitterChoice.fails : SubmitterChoice → Bool
  | .nothing | .rejected _ | .lost _ => true
  | .served _ | .estimated _ | .accepted _ => false

/-- A call begins only while no other is running; a retry only for a payload that is pending or
failed and has no monitor; and while a transaction is live, neither the repository nor the wait
for it fails. -/
def orderly (ι : Type) [DecidableEq ι] : Guard (submitterSemantics ι) :=
  fun _ op c w => match op with
    | .began id retry => w.running = none ∧ (retry = true → w.monitors = [] ∧
        ∀ row ∈ w.rows id, row.status = .pending ∨ row.status = .failed)
    | .findOne _ | .save _ | .waitForTransaction _ => SubmitterChoice.fails c = true → w.live = []
    | _ => True

/-! ## Transactions -/

namespace SubmitterWorld

variable {w w' : SubmitterWorld ι} {hash : String}

theorem mem_live : hash ∈ w.live ↔ hash ∈ w.returned ∧ w.reverted hash = false := by
  simp [live]

theorem reverted_iff : w.reverted hash = true ↔ ∃ receipt, w.receipts hash = some receipt ∧
    receipt.succeeded = false := by
  simp [reverted, Option.any_eq_true]

theorem reverted_of_no_live (hlive : w.live = []) (hreturned : hash ∈ w.returned) :
    w.reverted hash = true := by
  by_contra hne
  have hmem : hash ∈ w.live := mem_live.mpr ⟨hreturned, by simpa using hne⟩
  rw [hlive] at hmem
  cases hmem

def ReceiptsKept (w w' : SubmitterWorld ι) : Prop :=
  ∀ hash receipt, w.receipts hash = some receipt → w'.receipts hash = some receipt

theorem ReceiptsKept.reverted (h : w.ReceiptsKept w') (hreverted : w.reverted hash = true) :
    w'.reverted hash = true := by
  obtain ⟨receipt, hreceipt, hfailed⟩ := reverted_iff.mp hreverted
  exact reverted_iff.mpr ⟨receipt, h hash receipt hreceipt, hfailed⟩

theorem ReceiptsKept.live (h : w.ReceiptsKept w') (hreturned : w'.returned = w.returned)
    (hmem : hash ∈ w'.live) : hash ∈ w.live := by
  obtain ⟨hmem, hlive⟩ := mem_live.mp hmem
  refine mem_live.mpr ⟨hreturned ▸ hmem, ?_⟩
  by_contra hne
  rw [h.reverted (by simpa using hne)] at hlive
  cases hlive

end SubmitterWorld

/-! ## The invariant -/

def Settled (id : String) (w : SubmitterWorld ι) : Prop :=
  ∀ hash ∈ w.live, ∃ row, w.rows id = some row ∧ row.transactionHash = some hash ∧
    (row.status = .submitted ∨ row.status = .confirmed)

def Carries (id hash : String) (w : SubmitterWorld ι) : Prop :=
  ∃ row, w.rows id = some row ∧ row.transactionHash = some hash ∧ row.status ≠ .pending

/-- Between calls the row knows the live transaction; the statuses submitted and confirmed are
backed by a transaction, and the monitors wait for the transaction of the row. -/
structure SubmitterInv (id : String) (w : SubmitterWorld ι) : Prop where
  single : OneLive w
  keyed : ∀ row, w.rows id = some row → row.id = id
  settled : w.running = none → Settled id w
  submitted : ∀ row, w.rows id = some row → row.status = .submitted →
    ∃ hash ∈ w.returned, row.transactionHash = some hash
  confirmed : ∀ row, w.rows id = some row → row.status = .confirmed →
    ∃ hash ∈ w.returned, row.transactionHash = some hash ∧
      ∃ receipt, w.receipts hash = some receipt ∧ receipt.succeeded = true
  watched : ∀ m ∈ w.monitors, m.2 ∈ w.returned ∧ Carries id m.2 w

section Moves

variable (id : String) (w w' : SubmitterWorld ι)

structure Exclusive : Prop where
  running : w'.running = w.running
  returned : w'.returned = w.returned
  monitors : w'.monitors ⊆ w.monitors
  rows : w.monitors = [] → w'.rows id = w.rows id
  carried : ∀ hash, Carries id hash w → Carries id hash w'
  settled : Settled id w → Settled id w'

structure Undisturbed (i : ι) : Prop where
  monitors : ∀ hash, (i, hash) ∈ w.monitors → (i, hash) ∈ w'.monitors
  receipts : w.ReceiptsKept w'
  running : w.running = some i → Exclusive id w w'

end Moves

def submitterContract (id : String) (i : ι) : Contract (SubmitterWorld ι) where
  inv := SubmitterInv id
  rely w w' := Undisturbed id w w' i
  guar w w' := (Confirmed id w → Confirmed id w') ∧ ∀ j, j ≠ i → Undisturbed id w w' j

abbrev SubmitterFact (id : String) (i : ι) : Type :=
  Assertion (submitterContract id i)

variable {id hash : String} {i : ι} {w w' : SubmitterWorld ι}

theorem Undisturbed.refl (i : ι) : Undisturbed id w w i where
  monitors _ h := h
  receipts _ _ h := h
  running _ := ⟨rfl, rfl, fun _ h => h, fun _ => rfl, fun _ h => h, fun h => h⟩

theorem undisturbed_of_running (hrunning : w.running = some i ∨ w.running = none)
    (hmonitors : ∀ m ∈ w.monitors, m.1 ≠ i → m ∈ w'.monitors)
    (hreceipts : w'.receipts = w.receipts) {j : ι} (hj : j ≠ i) : Undisturbed id w w' j where
  monitors hash hmem := hmonitors _ hmem hj
  receipts hash receipt h := hreceipts ▸ h
  running hother := by
    rcases hrunning with hi | hnone
    · exact (hj (Option.some.inj (hother.symm.trans hi))).elim
    · rw [hnone] at hother
      cases hother

theorem not_confirmed_of_no_live (hinv : SubmitterInv id w) (hlive : w.live = []) :
    ¬ Confirmed id w := by
  rintro ⟨row, hrow, hstatus⟩
  obtain ⟨hash, hreturned, -, receipt, hreceipt, hsucceeded⟩ := hinv.confirmed row hrow hstatus
  obtain ⟨receipt', hreceipt', hfailed⟩ := reverted_iff.mp (reverted_of_no_live hlive hreturned)
  rw [hreceipt] at hreceipt'
  cases hreceipt'
  rw [hsucceeded] at hfailed
  cases hfailed

/-! ## The rows that are stored -/

theorem rows_stored {payload : SignedPayload} (hid : payload.id = id) :
    (w.stored payload).rows id = some payload := by
  rw [← hid]
  exact Function.update_self _ _ _

theorem SubmitterInv.stored (hinv : SubmitterInv id w) (hrunning : w.running = some i)
    (hmonitors : w.monitors = []) {payload : SignedPayload} (hid : payload.id = id)
    (hconfirmed : payload.status ≠ .confirmed) (hsubmitted : payload.status = .submitted →
      ∃ hash ∈ w.returned, payload.transactionHash = some hash) :
    SubmitterInv id (w.stored payload) where
  single := hinv.single
  keyed row hrow := by
    rw [rows_stored hid] at hrow
    cases hrow
    exact hid
  settled hnone := by
    have hsome : (w.stored payload).running = some i := hrunning
    rw [hnone] at hsome
    cases hsome
  submitted row hrow hstatus := by
    rw [rows_stored hid] at hrow
    cases hrow
    exact hsubmitted hstatus
  confirmed row hrow hstatus := by
    rw [rows_stored hid] at hrow
    cases hrow
    exact (hconfirmed hstatus).elim
  watched m hm := by
    have hnil : m ∈ ([] : List (ι × String)) := hmonitors ▸ hm
    cases hnil

/-- What a monitor stores: the outcome of its transaction. -/
structure Verdict (hash : String) (w : SubmitterWorld ι) (payload : SignedPayload) : Prop where
  hash_eq : payload.transactionHash = some hash
  outcome : (payload.status = .confirmed ∧
      ∃ receipt, w.receipts hash = some receipt ∧ receipt.succeeded = true) ∨
    (payload.status = .failed ∧ w.reverted hash = true)

section Verdicts

variable {payload : SignedPayload}

theorem Verdict.not_pending (h : Verdict hash w payload) : payload.status ≠ .pending := by
  rcases h.outcome with ⟨hstatus, -⟩ | ⟨hstatus, -⟩ <;> rw [hstatus] <;> decide

variable (hinv : SubmitterInv id w)
include hinv

variable (hwatch : (i, hash) ∈ w.monitors)
include hwatch

theorem SubmitterInv.hash_eq
    {row : SignedPayload} (hrow : w.rows id = some row) : row.transactionHash = some hash := by
  obtain ⟨row', hrow', hhash, -⟩ := (hinv.watched _ hwatch).2
  rw [hrow] at hrow'
  cases hrow'
  exact hhash

variable (hid : payload.id = id)
include hid

variable (h : Verdict hash w payload)
include h

theorem SubmitterInv.settled_verdict (hsettled : Settled id w) : Settled id (w.stored payload) := by
  intro hash' hlive
  obtain ⟨row, hrow, hhash, -⟩ := hsettled hash' hlive
  rw [hinv.hash_eq hwatch hrow] at hhash
  cases hhash
  refine ⟨payload, rows_stored hid, h.hash_eq, Or.inr ?_⟩
  rcases h.outcome with ⟨hstatus, -⟩ | ⟨-, hreverted⟩
  · exact hstatus
  · have hnot := (mem_live.mp hlive).2
    have hyes : (w.stored payload).reverted hash = true := hreverted
    rw [hyes] at hnot
    cases hnot

theorem SubmitterInv.carries_verdict
    {hash' : String} (hcarries : Carries id hash' w) : Carries id hash' (w.stored payload) := by
  obtain ⟨row, hrow, hhash, -⟩ := hcarries
  rw [hinv.hash_eq hwatch hrow] at hhash
  cases hhash
  exact ⟨payload, rows_stored hid, h.hash_eq, h.not_pending⟩

theorem SubmitterInv.verdict : SubmitterInv id (w.stored payload) where
  single := hinv.single
  keyed row hrow := by
    rw [rows_stored hid] at hrow
    cases hrow
    exact hid
  settled hnone := hinv.settled_verdict hwatch hid h (hinv.settled hnone)
  submitted row hrow hstatus := by
    rw [rows_stored hid] at hrow
    cases hrow
    rcases h.outcome with ⟨hconfirmed, -⟩ | ⟨hfailed, -⟩
    · rw [hstatus] at hconfirmed
      cases hconfirmed
    · rw [hstatus] at hfailed
      cases hfailed
  confirmed row hrow hstatus := by
    rw [rows_stored hid] at hrow
    cases hrow
    rcases h.outcome with ⟨-, hreceipt⟩ | ⟨hfailed, -⟩
    · exact ⟨hash, (hinv.watched _ hwatch).1, h.hash_eq, hreceipt⟩
    · rw [hstatus] at hfailed
      cases hfailed
  watched m hm :=
    ⟨(hinv.watched m hm).1, hinv.carries_verdict hwatch hid h (hinv.watched m hm).2⟩

theorem SubmitterInv.guar_verdict : (submitterContract id i).guar w (w.stored payload) := by
  refine ⟨?_, fun j _ => ⟨fun _ hmem => hmem, fun _ _ hreceipt => hreceipt, fun _ => ?_⟩⟩
  · rintro ⟨row, hrow, hstatus⟩
    obtain ⟨hash', -, hhash', receipt, hreceipt, hsucceeded⟩ := hinv.confirmed row hrow hstatus
    rw [hinv.hash_eq hwatch hrow] at hhash'
    cases hhash'
    rcases h.outcome with ⟨hconfirmed, -⟩ | ⟨-, hreverted⟩
    · exact ⟨payload, rows_stored hid, hconfirmed⟩
    · obtain ⟨receipt', hreceipt', hfailed⟩ := reverted_iff.mp hreverted
      rw [hreceipt] at hreceipt'
      cases hreceipt'
      rw [hsucceeded] at hfailed
      cases hfailed
  · refine ⟨rfl, rfl, fun _ hmem => hmem, fun hnone => ?_,
      fun _ hcarries => hinv.carries_verdict hwatch hid h hcarries,
      fun hsettled => hinv.settled_verdict hwatch hid h hsettled⟩
    rw [hnone] at hwatch
    cases hwatch

omit h

omit hid

omit hwatch

omit hinv

end Verdicts

/-! ## Mined transactions -/

theorem receiptsKept_mined (hash : String) (receipt : Receipt) (w : SubmitterWorld ι) :
    w.ReceiptsKept (w.mined hash receipt) := by
  intro hash' receipt' hreceipt'
  unfold mined
  by_cases hsome : (w.receipts hash).isSome = true
  · rw [if_pos hsome]
    exact hreceipt'
  · rw [if_neg hsome]
    have hne : hash' ≠ hash := by
      rintro rfl
      rw [hreceipt'] at hsome
      exact hsome rfl
    exact (Function.update_of_ne hne _ _).trans hreceipt'

theorem mined_eq (hash : String) (receipt : Receipt) (w : SubmitterWorld ι) :
    ∃ receipts, w.mined hash receipt = { w with receipts := receipts } := by
  by_cases hsome : (w.receipts hash).isSome = true
  · exact ⟨w.receipts, if_pos hsome⟩
  · exact ⟨_, if_neg hsome⟩

theorem settled_of_receiptsKept {receipts : String → Option Receipt}
    (hkept : w.ReceiptsKept { w with receipts := receipts }) (hsettled : Settled id w) :
    Settled id { w with receipts := receipts } :=
  fun hash hlive => hsettled hash (hkept.live rfl hlive)

theorem SubmitterInv.mined (hinv : SubmitterInv id w) (hash : String) (receipt : Receipt) :
    SubmitterInv id (w.mined hash receipt) := by
  have hkept := receiptsKept_mined hash receipt w
  obtain ⟨receipts, heq⟩ := mined_eq hash receipt w
  rw [heq] at hkept ⊢
  refine ⟨hinv.single, hinv.keyed, fun hnone => settled_of_receiptsKept hkept (hinv.settled hnone),
    hinv.submitted, fun row hrow hstatus => ?_, hinv.watched⟩
  obtain ⟨hash', hreturned, hhash, receipt', hreceipt, hsucceeded⟩ :=
    hinv.confirmed row hrow hstatus
  exact ⟨hash', hreturned, hhash, receipt', hkept hash' receipt' hreceipt, hsucceeded⟩

theorem undisturbed_mined (hash : String) (receipt : Receipt) (w : SubmitterWorld ι) (i : ι) :
    Undisturbed id w (w.mined hash receipt) i := by
  have hkept := receiptsKept_mined hash receipt w
  obtain ⟨receipts, heq⟩ := mined_eq hash receipt w
  rw [heq] at hkept ⊢
  exact ⟨fun _ hmem => hmem, hkept, fun _ => ⟨rfl, rfl, fun _ hmem => hmem, fun _ => rfl,
    fun _ h => h, settled_of_receiptsKept hkept⟩⟩

theorem submitter_compatible [DecidableEq ι] (id : String) :
    Pool.Compatible (submitterSemantics ι) (submitterContract id) (SubmitterInv id) where
  inv_eq _ := rfl
  guar_rely i _ _ _ hij hguar := hguar.2 i hij
  happen_inv e _ hinv := hinv.mined e.1 e.2
  happen_rely i e w _ := undisturbed_mined e.1 e.2 w i

/-! ## What a caller knows -/

section Assertions

variable (id) (i)

/-- The caller's call is running, and the row knows the live transaction. -/
def active : SubmitterFact id i where
  holds w := w.running = some i ∧ Settled id w
  stable _ _ hmove h :=
    have hkept := hmove.2.2.running h.1
    ⟨hkept.running.trans h.1, hkept.settled h.2⟩

/-- The caller's call is running, nobody waits, and at most one transaction is live. -/
def atMost (hash : Option String) : SubmitterFact id i where
  holds w := w.running = some i ∧ w.monitors = [] ∧ ∀ live ∈ w.live, hash = some live
  stable _ _ hmove h := by
    have hkept := hmove.2.2.running h.1
    refine ⟨hkept.running.trans h.1, ?_, fun live hlive => h.2.2 live ?_⟩
    · have hsubset := hkept.monitors
      rw [h.2.1] at hsubset
      exact List.eq_nil_of_subset_nil hsubset
    · exact hmove.2.2.receipts.live hkept.returned hlive

/-- The caller's call is running and the contract has returned the transaction. -/
def obtained (hash : String) : SubmitterFact id i where
  holds w := w.running = some i ∧ hash ∈ w.returned
  stable _ _ hmove h := by
    have hkept := hmove.2.2.running h.1
    refine ⟨hkept.running.trans h.1, ?_⟩
    rw [hkept.returned]
    exact h.2

/-- The caller's call is running, nobody waits, and the payload is not confirmed. -/
def unconfirmed : SubmitterFact id i where
  holds w := w.running = some i ∧ w.monitors = [] ∧ ¬ Confirmed id w
  stable _ _ hmove h := by
    have hkept := hmove.2.2.running h.1
    refine ⟨hkept.running.trans h.1, ?_, ?_⟩
    · have hsubset := hkept.monitors
      rw [h.2.1] at hsubset
      exact List.eq_nil_of_subset_nil hsubset
    · rintro ⟨row, hrow, hstatus⟩
      rw [hkept.rows h.2.1] at hrow
      exact h.2.2 ⟨row, hrow, hstatus⟩

/-- The caller's call is running and the row has the transaction. -/
def carried (hash : String) : SubmitterFact id i where
  holds w := w.running = some i ∧ Carries id hash w
  stable _ _ hmove h :=
    have hkept := hmove.2.2.running h.1
    ⟨hkept.running.trans h.1, hkept.carried hash h.2⟩

def watching (hash : String) : SubmitterFact id i where
  holds w := (i, hash) ∈ w.monitors
  stable _ _ hmove h := hmove.2.2.monitors hash h

def dead (hash : String) : SubmitterFact id i where
  holds w := w.reverted hash = true
  stable _ _ hmove h := hmove.2.2.receipts.reverted h

def known (hash : String) (receipt : Receipt) : SubmitterFact id i where
  holds w := w.receipts hash = some receipt
  stable _ _ hmove h := hmove.2.2.receipts hash receipt h

abbrev free : SubmitterFact id i :=
  atMost id i none

/-- The transaction is the only one that can be live, and it is not stored yet. -/
abbrev sent (hash : String) : SubmitterFact id i :=
  (atMost id i (some hash)).and ((obtained id i hash).and (unconfirmed id i))

abbrev ready (hash : String) : SubmitterFact id i :=
  (active id i).and ((obtained id i hash).and (carried id i hash))

/-- What a method leaves: it may leave a monitor only for the transaction of the row. -/
abbrev handed (submission : Submission) : SubmitterFact id i :=
  (active id i).and ((ready id i submission.transactionHash).when (submission.monitored = true))

end Assertions

theorem live_nil_of_free (h : free id i w) : w.live = [] := by
  rw [List.eq_nil_iff_forall_not_mem]
  intro hash hmem
  cases h.2.2 hash hmem

theorem active_of_free (h : free id i w) : active id i w := by
  refine ⟨h.1, fun hash hmem => ?_⟩
  rw [live_nil_of_free h] at hmem
  cases hmem

theorem free_of_no_live {hash : Option String} (h : atMost id i hash w) (hlive : w.live = []) :
    free id i w := by
  refine ⟨h.1, h.2.1, fun live hmem => ?_⟩
  rw [hlive] at hmem
  cases hmem

end Trellis.Oracle
