import Trellis.Payments.Submission

/-!
# Submitted operations

The service never consults `PAYMENT_OPERATION_STATE_MACHINE_DEF`: what keeps a submitted row
submitted is that a call which has loaded one returns without saving. A call that loaded the row
earlier still saves its copy.
-/

namespace Trellis.Payments

open Core Async Pool

variable {ι : Type}

/-! ## Rows and stale saves -/

/-- A row as the service writes it: a signature belongs to a created payment, and a
submitted row is signed. -/
def PaymentOperation.WellFormed (row : PaymentOperation) : Prop :=
  (truthy row.signedPayload = true → row.createdPayment.isSome = true) ∧
    (row.state = .submitted → truthy row.signedPayload = true)

section Guard

variable [DecidableEq ι]

/-- The step saves over a submitted row an entity that was loaded before the row's
last write. -/
def staleSave (i : ι) (op : Op) (c : Choice) (w : World ι) : Bool :=
  match op, c with
  | .save _, .serve => w.row.any (fun row => row.state = .submitted) && decide (i ∉ w.current)
  | _, _ => false

/-- Admits every step but a stale save over a submitted row. -/
def noStaleSave : Guard (paymentsSemantics ι) :=
  fun i op c w => staleSave i op c w = false

instance : ∀ (i : ι) op c w, Decidable (noStaleSave i op c w) :=
  fun i op c w => inferInstanceAs (Decidable (staleSave i op c w = false))

end Guard

/-! ## The contract of a call -/

/-- What others may do while call `i` waits: as long as its view of the row is up to
date, the row has not been written. -/
def KeepsView (i : ι) (w w' : World ι) : Prop :=
  i ∈ w'.current → i ∈ w.current ∧ w'.row = w.row

def KeepsSubmitted (w w' : World ι) : Prop :=
  ∀ row, w.row = some row → row.state = .submitted → w'.row = some row

def viewContract (i : ι) : Contract (World ι) where
  inv w := ∀ row, w.row = some row → row.WellFormed
  rely := KeepsView i
  guar w w' := (∀ j, j ≠ i → KeepsView j w w') ∧ KeepsSubmitted w w'

/-- Where the view of call `i` is up to date, the row is not submitted. -/
def unfinished (i : ι) : Assertion (viewContract i) where
  holds w := i ∈ w.current → ∀ row, w.row = some row → row.state ≠ .submitted
  stable w w' hmove h hmem row hrow := by
    rcases hmove.2.2 hmem with ⟨hcurrent, hsame⟩
    exact h hcurrent row (hsame ▸ hrow)

variable {w w' : World ι} {i : ι}

theorem guar_of_row_eq (hrow : w'.row = w.row)
    (hcurrent : ∀ j, j ≠ i → j ∈ w'.current → j ∈ w.current) : (viewContract i).guar w w' := by
  refine ⟨fun j hj hmem => ⟨hcurrent j hj hmem, hrow⟩, fun row h _ => ?_⟩
  rw [hrow]
  exact h

theorem guar_of_write (hcurrent : w'.current = [i])
    (hopen : ∀ row, w.row = some row → row.state ≠ .submitted) : (viewContract i).guar w w' := by
  refine ⟨fun j hj hmem => ?_, fun row h hstate => absurd hstate (hopen row h)⟩
  rw [hcurrent] at hmem
  exact absurd (List.mem_singleton.mp hmem) hj

theorem seenBy_guar (w : World ι) : (viewContract i).guar w (w.seenBy i) := by
  refine guar_of_row_eq rfl fun j hj hmem => ?_
  rcases List.mem_cons.mp hmem with h | h
  · exact absurd h hj
  · exact h

def loaded (i : ι) (operation : PaymentOperation) : Assertion (viewContract i) :=
  ((unfinished i).when (operation.state ≠ .submitted)).given operation.WellFormed

def loadedIfAny (i : ι) : Option PaymentOperation → Assertion (viewContract i)
  | none => .top
  | some operation => loaded i operation

theorem loadedIfAny_findOne {w : World ι} (p : PaymentOperation → Bool)
    (hinv : (viewContract i).inv w) : loadedIfAny i (w.findOne p) (w.seenBy i) := by
  rcases h : w.findOne p with _ | row
  · trivial
  · have hrow : w.row = some row := (Option.filter_eq_some_iff.mp h).1
    refine ⟨hinv row hrow, fun hstate _ row' hrow' => ?_⟩
    have hsame : some row = some row' := hrow.symm.trans hrow'
    cases hsame
    exact hstate

theorem findOne_keeps {r : Except Failure (Option PaymentOperation)}
    {p : PaymentOperation → Bool} (hinv : (viewContract i).inv w)
    (h : (w' = w ∧ ∃ e, r = .error e) ∨ (w' = w.seenBy i ∧ r = .ok (w.findOne p))) :
    (viewContract i).inv w' ∧ (viewContract i).guar w w' ∧ outcome (loadedIfAny i) .top r w' := by
  rcases h with ⟨rfl, e, rfl⟩ | ⟨rfl, rfl⟩
  · exact ⟨hinv, guar_of_row_eq rfl fun _ _ h => h, trivial⟩
  · exact ⟨hinv, seenBy_guar w, loadedIfAny_findOne p hinv⟩

def Op.isExternal : Op → Bool
  | .now | .retrieveRateLock _ | .createPayment _ _ | .signTransaction _ _
  | .submitTransaction _ _ | .getStatus _ _ => true
  | _ => false

variable {op : Op}

theorem perform_external {c : Choice} {r : Except Failure op.Res} (hop : op.isExternal = true)
    (h : World.perform i op c w = some (r, w')) : w'.row = w.row ∧ w'.current = w.current := by
  cases op <;> cases hop <;> cases c <;> cases h <;> exact ⟨rfl, rfl⟩

section Programs

variable [DecidableEq ι] {i : ι}

/-- Triples of the contract of call `i` that promise nothing about a rejection. -/
abbrev KeepsRow {α : Type} (P : Assertion (viewContract i)) (p : Program α)
    (R : α → Assertion (viewContract i)) : Prop :=
  Triple (paymentsSemantics ι) noStaleSave i P p R .top

/-! ## Operations -/

theorem triple_external {P : Assertion (viewContract i)} (hop : op.isExternal = true)
    (hP : ∀ w w', w'.row = w.row → w'.current = w.current → P w → P w') :
    Triple (paymentsSemantics ι) noStaleSave i P (ask op) (fun _ => P) P := by
  refine triple_call fun w c r w' hinv hw _ hperf => ?_
  rcases perform_external hop hperf with ⟨hrow, hcurrent⟩
  have hinv' : (viewContract i).inv w' := fun row h => hinv row (hrow ▸ h)
  have hw' : P w' := hP w w' hrow hcurrent hw
  refine ⟨hinv', guar_of_row_eq hrow fun j _ hmem => hcurrent ▸ hmem, ?_⟩
  cases r <;> exact hw'

theorem triple_external_unfinished (hop : op.isExternal = true) :
    Triple (paymentsSemantics ι) noStaleSave i (unfinished i)
      (ask op) (fun _ => unfinished i) (unfinished i) := by
  refine triple_external hop fun w w' hrow hcurrent hw hmem row h => ?_
  rw [hcurrent] at hmem
  rw [hrow] at h
  exact hw hmem row h

theorem keepsRow_findByPayment (paymentId ownerId : String) :
    KeepsRow (i := i) .top (ask (.findByPayment paymentId ownerId))
      (loadedIfAny i) :=
  triple_call fun _ _ _ _ hinv _ _ hperf => findOne_keeps hinv (perform_findByPayment hperf)

theorem keepsRow_findByKey (ownerId processorName idempotencyKey : String) : KeepsRow (i := i) .top
    (ask (.findByKey ownerId processorName idempotencyKey))
    (loadedIfAny i) :=
  triple_call fun _ _ _ _ hinv _ _ hperf => findOne_keeps hinv (perform_findByKey hperf)

theorem keepsRow_findById (operationId : String) :
    KeepsRow (i := i) .top (ask (.findById operationId))
      (loadedIfAny i) :=
  triple_call fun _ _ _ _ hinv _ _ hperf => findOne_keeps hinv (perform_findById hperf)

variable {operation : PaymentOperation}

/-- A call that has not seen a submitted row saves over none: either its view is up
to date, or the guard excludes the save. -/
theorem triple_save (hwf : operation.WellFormed) :
    Triple (paymentsSemantics ι) noStaleSave i (unfinished i) (ask (.save operation))
      (fun saved => ((unfinished i).when (operation.state ≠ .submitted)).given
        (∃ t, saved = { operation with updatedAt := t }))
      (unfinished i) := by
  refine triple_call fun w c r w' hinv hopen hguard hperf => ?_
  rcases perform_save hperf with ⟨rfl, e, rfl⟩ | ⟨rfl, rfl, rfl⟩
  · exact ⟨hinv, guar_of_row_eq rfl fun _ _ h => h, hopen⟩
  · have hrow : ∀ row, w.row = some row → row.state ≠ .submitted := by
      intro row hrow hstate
      by_cases hmem : i ∈ w.current
      · exact hopen hmem row hrow hstate
      · simp [noStaleSave, staleSave, hrow, hstate, hmem] at hguard
    refine ⟨?_, guar_of_write rfl hrow, ⟨w.clock, rfl⟩, ?_⟩
    · rintro _ ⟨⟩
      exact hwf
    · rintro hstate - _ ⟨⟩
      exact hstate

theorem keepsRow_save (hwf : operation.WellFormed) :
    KeepsRow (unfinished i) (ask (.save operation)) (fun _ => .top) :=
  triple_post (triple_save hwf) fun _ _ _ _ => trivial

theorem keepsRow_insert (hstate : operation.state = .creating)
    (hunsigned : operation.signedPayload = none) : KeepsRow (i := i) .top (ask (.insert operation))
      (fun inserted => (unfinished i).given inserted.WellFormed) := by
  refine triple_call fun w c r w' hinv _ _ hperf => ?_
  rcases perform_insert hperf with ⟨rfl, e, rfl⟩ | ⟨hnone, operationId, rfl, rfl⟩
  · exact ⟨hinv, guar_of_row_eq rfl fun _ _ h => h, trivial⟩
  · have hwf : ∀ row : PaymentOperation, row.state = operation.state →
        row.signedPayload = operation.signedPayload → row.WellFormed := by
      intro row hs hp
      simp [PaymentOperation.WellFormed, hs, hp, hstate, hunsigned]
    refine ⟨?_, guar_of_write rfl ?_, hwf _ rfl rfl, ?_⟩
    · rintro _ ⟨⟩
      exact hwf _ rfl rfl
    · intro row hrow
      rw [hnone] at hrow
      cases hrow
    · rintro - _ ⟨⟩
      simp [hstate]

theorem keepsRow_claim (operationId : String) (hash : Option String) : KeepsRow (unfinished i)
    (ask (.claim operationId hash))
    (fun _ => unfinished i) := by
  refine triple_call fun w c r w' hinv hopen _ hperf => ?_
  rcases perform_claim hperf with ⟨rfl, hr⟩ | ⟨row, hrow, hstate, rfl, rfl⟩
  · refine ⟨hinv, guar_of_row_eq rfl fun _ _ h => h, ?_⟩
    rcases hr with ⟨e, rfl⟩ | rfl
    · trivial
    · exact hopen
  · refine ⟨?_, guar_of_write rfl ?_, ?_⟩
    · rintro _ ⟨⟩
      exact ⟨(hinv row hrow).1, by simp⟩
    · intro row' hrow' hsubmitted
      rw [hrow] at hrow'
      cases hrow'
      rw [hstate] at hsubmitted
      cases hsubmitted
    · rintro - _ ⟨⟩
      simp

/-! ## Creating -/

theorem keepsRow_validateRateQuote (quoteId : String) :
    KeepsRow (i := i) .top (validateRateQuote quoteId) (fun _ => .top) := by
  refine triple_bind (triple_external rfl fun _ _ _ _ _ => trivial) fun quote => ?_
  cases quote with
  | none => exact triple_fail
  | some expiresAt =>
    exact triple_bind (triple_external rfl fun _ _ _ _ _ => trivial) fun now =>
      triple_ite (fun _ => triple_fail) fun _ => triple_return

theorem keepsRow_creationFailed (e : Failure) (hwf : operation.WellFormed) :
    KeepsRow (unfinished i) (creationFailed operation e) (fun _ => .top) := by
  refine triple_bind (keepsRow_save ?_) fun _ => triple_fail
  exact ⟨hwf.1, by simp⟩

variable {processor : PaymentProcessor} {request : PaymentRequest}

theorem keepsRow_finishCreation (hwf : operation.WellFormed) :
    KeepsRow (unfinished i) (finishCreation processor request operation) (fun _ => .top) := by
  refine triple_catch (triple_external_unfinished rfl) (fun created => ?_)
    fun e => keepsRow_creationFailed e hwf
  exact triple_catch (triple_save ⟨fun _ => rfl, by simp⟩) (fun _ => triple_return)
    fun e => keepsRow_creationFailed e ⟨fun _ => rfl, by simp⟩

theorem keepsRow_insertAndCreate {ownerId fingerprint : String} :
    KeepsRow (i := i) .top (insertAndCreate processor request ownerId fingerprint)
      (fun _ => .top) := by
  refine triple_catch (keepsRow_insert rfl rfl)
    (fun operation => triple_given fun hwf => keepsRow_finishCreation hwf) fun e => ?_
  refine triple_bind (keepsRow_findByKey _ _ _) fun existing => ?_
  cases existing with
  | none => exact triple_fail
  | some operation =>
    refine triple_ite (fun _ => triple_fail) fun _ => ?_
    split
    · exact triple_return
    · exact triple_fail

theorem keepsRow_restartCreation (hwf : operation.WellFormed) :
    KeepsRow (unfinished i) (restartCreation processor request operation) (fun _ => .top) := by
  refine triple_bind (triple_forget (triple_save ⟨hwf.1, by simp⟩))
    fun saved => triple_given fun ⟨t, hsaved⟩ => ?_
  subst hsaved
  refine triple_pre (keepsRow_finishCreation ⟨hwf.1, by simp⟩) fun w _ h => ?_
  exact h (by simp)

theorem keepsRow_createExisting {fingerprint : String} : KeepsRow (loaded i operation)
    (createExisting processor request fingerprint operation) (fun _ => .top) := by
  refine triple_given fun hwf => triple_ite (fun _ => triple_fail) fun _ => ?_
  split
  · exact triple_return
  · rename_i hnone
    have hstate : operation.state ≠ .submitted := by
      intro hsubmitted
      have hcreated := hwf.1 (hwf.2 hsubmitted)
      simp [hnone] at hcreated
    refine triple_pre ?_ fun w _ h => h hstate
    refine triple_ite (fun _ => ?_) fun _ => keepsRow_restartCreation hwf
    exact triple_bind (triple_forget (triple_external_unfinished rfl)) fun now =>
      triple_ite (fun _ => triple_fail) fun _ => keepsRow_restartCreation hwf

variable (cfg : ServiceConfig)

theorem keepsRow_createPayment (request : PaymentRequest)
    (selector : Option String) (ownerId : String) :
    KeepsRow (i := i) .top (createPayment cfg request selector ownerId) (fun _ => .top) := by
  have hcreate : KeepsRow (i := i) .top (createResolved cfg request selector ownerId)
      (fun _ => .top) := by
    refine triple_ofExcept_bind fun processor _ => ?_
    refine triple_bind (keepsRow_findByKey _ _ _) fun existing => ?_
    cases existing with
    | none => exact keepsRow_insertAndCreate
    | some operation => exact keepsRow_createExisting
  exact triple_ite (fun _ => triple_bind (keepsRow_validateRateQuote _) fun _ => hcreate)
    fun _ => hcreate

/-! ## Runs -/

theorem PaymentOperation.WellFormed.of_follows {new : PaymentOperation}
    (hwf : operation.WellFormed) (h : Follows operation new) : new.WellFormed := by
  rcases h.progress with ⟨hstate, hcreated⟩ | ⟨-, hsigned, hsigned'⟩
  · exact ⟨fun _ => h.createdPayment ▸ hcreated, by simp [hstate]⟩
  · exact ⟨fun _ => h.createdPayment ▸ hwf.1 hsigned', fun _ => hsigned⟩

def viewRules (i : ι) : CallRules cfg noStaleSave i (viewContract i) where
  Good := PaymentOperation.WellFormed
  ready := unfinished i
  claimed := unfinished i
  good := .of_follows
  findByPayment paymentId ownerId := by
    refine triple_post (keepsRow_findByPayment paymentId ownerId) fun found w _ h => ?_
    cases found with
    | none => trivial
    | some operation =>
      refine ⟨h.1, fun hunsigned => h.2 fun hsubmitted => ?_⟩
      rw [h.1.2 hsubmitted] at hunsigned
      cases hunsigned hsubmitted
  findById operationId := triple_post (keepsRow_findById operationId) fun _ _ _ _ => trivial
  sign _ _ := triple_external_unfinished rfl
  status _ _ := triple_external_unfinished rfl
  save hwf h := triple_weaken (triple_save (hwf.of_follows h)) (fun _ _ _ h => h.2) fun _ _ h => h
  claim operationId hash := triple_post (keepsRow_claim operationId hash) fun _ _ _ h _ => h
  submit _ _ := triple_external_unfinished rfl
  retry _ _ _ _ _ _ _ h := h

theorem keepsRow_request (request : Request) :
    KeepsRow (i := i) .top (request.program cfg) (fun _ => .top) := by
  cases request with
  | createPayment request selector ownerId =>
    exact triple_bind (keepsRow_createPayment cfg request selector ownerId) fun _ => triple_return
  | signTransaction created selector ownerId => exact (viewRules cfg i).triple_request rfl
  | submitTransaction signed selector ownerId => exact (viewRules cfg i).triple_request rfl
  | signAndSubmit created selector ownerId => exact (viewRules cfg i).triple_request rfl
  | resumePayment paymentId ownerId => exact (viewRules cfg i).triple_request rfl

end Programs

theorem compatible_viewContract [DecidableEq ι] : Pool.Compatible (paymentsSemantics ι) viewContract
    (fun w => ∀ row, w.row = some row → row.WellFormed) where
  inv_eq _ := rfl
  guar_rely i _ _ _ hij hguar := hguar.1 i hij
  happen_inv _ _ h := h
  happen_rely _ _ _ _ hmem := ⟨hmem, rfl⟩

/-- The call submits or resumes the payment of `row`. -/
def Request.submits (cfg : ServiceConfig) (row : PaymentOperation) : Request → Prop
  | .submitTransaction signed selector ownerId =>
    row.paymentId = some signed.paymentId ∧ row.ownerId = ownerId ∧
      ∃ processor, resolveOperationProcessor cfg row selector = .ok processor
  | .resumePayment paymentId ownerId => row.paymentId = some paymentId ∧ row.ownerId = ownerId
  | _ => False

theorem program_of_submits {cfg : ServiceConfig} {row : PaymentOperation}
    {request : Request} (hstate : row.state = .submitted) (hrequest : request.submits cfg row) :
    ∃ paymentId k, row.paymentId = some paymentId ∧
      request.program cfg = .await (.findByPayment paymentId row.ownerId) k ∧
      k (.ok (some row)) = .done (.submitted row.submittedTransaction) := by
  cases request with
  | submitTransaction signed selector ownerId =>
    rcases hrequest with ⟨hpayment, rfl, processor, hprocessor⟩
    refine ⟨signed.paymentId, _, hpayment, rfl, ?_⟩
    change (submitFound cfg signed selector row >>= fun transaction =>
      .done (Reply.submitted transaction)) = _
    simp [submitFound, hprocessor, hstate]
  | resumePayment paymentId ownerId =>
    rcases hrequest with ⟨hpayment, rfl⟩
    refine ⟨paymentId, _, hpayment, rfl, ?_⟩
    change (resumeFound cfg paymentId row.ownerId row >>= fun transaction =>
      .done (Reply.submitted transaction)) = _
    simp [resumeFound, hstate]
  | createPayment request selector ownerId => cases hrequest
  | signTransaction created selector ownerId => cases hrequest
  | signAndSubmit created selector ownerId => cases hrequest

theorem advance_submits [DecidableEq ι] {cfg : ServiceConfig} {row : PaymentOperation}
    {request : Request} {pool : PaymentsPool ι}
    (hrow : pool.world.row = some row) (hstate : row.state = .submitted)
    (hcall : pool.calls i = request.program cfg) (hrequest : request.submits cfg row) :
    ∃ pool', advance (paymentsSemantics ι) noStaleSave pool (.call i Choice.serve) =
        some pool' ∧ pool'.calls i = .done (.submitted row.submittedTransaction) := by
  rcases program_of_submits hstate hrequest with ⟨paymentId, k, hpayment, hprogram, hk⟩
  have hfound : (pool.world.findOne fun found =>
      found.paymentId = some paymentId ∧ found.ownerId = row.ownerId) = some row := by
    simp [World.findOne, hrow, hpayment]
  refine ⟨pool.resume i (k (.ok (some row))) (pool.world.seenBy i), ?_, ?_⟩
  · refine advance_of_await (hcall.trans hprogram) rfl ?_
    rw [← hfound]
    rfl
  · simp [resume, hk]

/-- Along every run in which no entity loaded earlier is saved over a submitted row,
the row stays as it is from the moment it is submitted, and every submission or
resumption of the payment that has not started by then resolves, once its read is
served, with the transaction the row holds. -/
theorem submitted_row_frozen [DecidableEq ι] (cfg : ServiceConfig) (requests : ι → Request)
    (start : Option PaymentOperation) (hstart : ∀ row, start = some row → row.WellFormed)
    (pool pool' : PaymentsPool ι) (row : PaymentOperation)
    (hreach : Pool.Reach (paymentsSemantics ι) noStaleSave (startPool cfg requests start) pool)
    (hrow : pool.world.row = some row) (hstate : row.state = .submitted)
    (hreach' : Pool.Reach (paymentsSemantics ι) noStaleSave pool pool') :
    pool'.world.row = some row ∧
      ∀ i, pool'.calls i = (requests i).program cfg → (requests i).submits cfg row →
        ∃ pool'', advance (paymentsSemantics ι) noStaleSave pool'
            (.call i Choice.serve) = some pool'' ∧
          pool''.calls i = .done (.submitted row.submittedTransaction) := by
  have hkept := hreach.keeps compatible_viewContract hstart
    (fun i => keepsRow_request cfg (requests i)) fun _ => trivial
  have hfrozen : pool'.world.row = some row := by
    refine hreach'.preserves (P := fun w : World ι => w.row = some row) compatible_viewContract
      hkept (fun i w w' hguar h => ?_)
      (fun _ _ h => h) hrow
    exact hguar.2 row h hstate
  exact ⟨hfrozen, fun i hcall hrequest => advance_submits hfrozen hstate hcall hrequest⟩

/-! ## A stale signing reopens the row -/

theorem wellFormed_custodialRow : ∀ row, some custodialRow = some row → row.WellFormed := by
  rintro _ ⟨⟩
  simp [PaymentOperation.WellFormed, custodialRow]

def custodialSubmittedRow : PaymentOperation :=
  { custodialRow with
    state := .submitted, signedPayload := some "signed-1", transactionHash := some "hash-1",
    submittedTransaction := some custodialSubmitted }

theorem custodial_submission_reaches : ∃ pool, Pool.Reach (paymentsSemantics (Fin 3)) noStaleSave
      (startPool custodialConfig custodialRequests (some custodialRow)) pool ∧
    pool.world.row = some custodialSubmittedRow := by
  exact exists_run custodialSubmission (·.world.row) (some custodialSubmittedRow) (by decide)
    fun _ _ hrow => hrow

/-- The condition is met by a run that does submit. -/
theorem custodial_row_frozen :
    ∃ pool : PaymentsPool (Fin 3), pool.world.row = some custodialSubmittedRow ∧
      ∀ pool', Pool.Reach (paymentsSemantics (Fin 3)) noStaleSave pool pool' →
        pool'.world.row = some custodialSubmittedRow := by
  rcases custodial_submission_reaches with ⟨pool, hreach, hrow⟩
  refine ⟨pool, hrow, fun pool' hreach' => ?_⟩
  exact (submitted_row_frozen custodialConfig custodialRequests (some custodialRow)
    wellFormed_custodialRow pool pool' custodialSubmittedRow hreach hrow rfl hreach').1

/-- Call 0 loads the row before call 1 signs and submits, and saves it afterwards: the
submitted row is `SIGNED` again and has lost its transaction. -/
theorem stale_signing_reopens : ∃ pool pool' : PaymentsPool (Fin 3),
    Pool.Reach (paymentsSemantics (Fin 3)) (anyStep _)
        (startPool custodialConfig custodialRequests (some custodialRow)) pool ∧
      pool.world.row = some custodialSubmittedRow ∧
      Pool.Reach (paymentsSemantics (Fin 3)) (anyStep _) pool pool' ∧
      pool'.world.row = some { custodialRow with
        state := .signed, signedPayload := some "signed-1" } := by
  have hrun : ((run (paymentsSemantics (Fin 3)) (anyStep _)
      (.call 0 Choice.serve :: custodialSubmission)
      (startPool custodialConfig custodialRequests (some custodialRow))).bind fun pool =>
        (run (paymentsSemantics (Fin 3)) (anyStep _)
          [.call 0 (Choice.signed custodialSigned), .call 0 Choice.serve] pool).map
            fun pool' => (pool.world.row, pool'.world.row)) =
      some (some custodialSubmittedRow, some { custodialRow with
        state := .signed, signedPayload := some "signed-1" }) := by
    decide
  exact exists_reach_of_run_run hrun

end Trellis.Payments
