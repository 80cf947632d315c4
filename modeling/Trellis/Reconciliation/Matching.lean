import Trellis.Reconciliation.Conservation

/-!
# Completeness of matching

A transaction is tried against the oldest invoice of its destination account only. A stored
transaction that matches that invoice has been credited to it, unless a `createInvoice` was cut
short in its loop; one that matches a later invoice only stays `UNMATCHED`.
-/

namespace Trellis.Reconciliation

open Core List World Async

/-! ## The property -/

def World.HasMatch (w : World) (t : StellarTransaction) : Prop :=
  ∃ invoice ∈ w.invoices, matchesInvoice t invoice = true

/-- Every stored transaction that matches a stored invoice has been credited to a matching one
and is not left `UNMATCHED`. -/
def MatchingComplete (w : World) : Prop :=
  ∀ t ∈ w.transactions, w.HasMatch t → t.status ≠ .unmatched ∧
    ∃ invoice ∈ w.invoices, matchesInvoice t invoice = true ∧
      w.credited invoice.invoiceId t.transactionId = true

/-- A call of `createInvoice` or `ingestTransaction`. -/
inductive Intake where
  | createInvoice (dto : CreateInvoiceDto)
  | ingestTransaction (dto : IngestTransactionDto)

def Intake.toRequest : Intake → Request
  | .createInvoice dto => .createInvoice dto
  | .ingestTransaction dto => .ingestTransaction dto

/-- The call stores its invoice and then rejects: the loop over the candidates was left. -/
def Intake.CutShort (cfg : ServiceConfig) (now : Nat) (w : World) : Intake → Prop
  | .createInvoice dto =>
    let result := Async.eval World.perform (Reconciliation.createInvoice cfg dto)
      { w with clock := now }
    result.1.isOk = false ∧ dto.invoiceId ∈ result.2.invoices.map (·.invoiceId)
  | .ingestTransaction _ => False

def intakes (cfg : ServiceConfig) : List (Nat × Intake) → World → World
  | [], w => w
  | (now, call) :: calls, w => intakes cfg calls (call.toRequest.run cfg now w)

def AnyCutShort (cfg : ServiceConfig) : List (Nat × Intake) → World → Prop
  | [], _ => False
  | (now, call) :: calls, w =>
    call.CutShort cfg now w ∨ AnyCutShort cfg calls (call.toRequest.run cfg now w)

variable {invoice : Invoice} {t : StellarTransaction}

theorem matchesInvoice_terms (h : matchesInvoice t invoice = true) :
    t.destinationAccount = invoice.destinationAccount ∧ t.assetCode = invoice.assetCode := by
  unfold matchesInvoice at h
  by_cases hdest : t.destinationAccount = invoice.destinationAccount
  · by_cases hasset : t.assetCode = invoice.assetCode
    · exact ⟨hdest, hasset⟩
    · simp [hdest, hasset] at h
  · simp [hdest] at h

variable {w : World}

theorem mem_selectTransactions_of (ht : t ∈ w.transactions) {destinationAccount assetCode : String}
    (hdest : t.destinationAccount = destinationAccount) (hasset : t.assetCode = assetCode)
    {statuses : List TransactionStatus} (hstatus : t.status ∈ statuses) :
    t ∈ w.selectTransactions destinationAccount assetCode statuses := by
  rw [selectTransactions, byObservedAt, (perm_insertionSort _ _).mem_iff, mem_filter]
  exact ⟨ht, decide_eq_true ⟨hdest, hasset, hstatus⟩⟩

/-! ## What one reconciliation does -/

/-- What `matchesInvoice` and the variance policy read of an invoice. -/
structure Invoice.SameTerms (invoice invoice' : Invoice) : Prop where
  invoiceId : invoice'.invoiceId = invoice.invoiceId
  destinationAccount : invoice'.destinationAccount = invoice.destinationAccount
  assetCode : invoice'.assetCode = invoice.assetCode
  paymentReference : invoice'.paymentReference = invoice.paymentReference
  expectedAmount : invoice'.expectedAmount = invoice.expectedAmount

theorem Invoice.SameTerms.matches {invoice' : Invoice} (h : invoice.SameTerms invoice')
    (t : StellarTransaction) : matchesInvoice t invoice' = matchesInvoice t invoice := by
  unfold matchesInvoice
  rw [h.destinationAccount, h.assetCode, h.paymentReference]

theorem Invoice.sameTerms_afterCredit (invoice : Invoice) (paid units : Nat) (isPaid : Bool) :
    invoice.SameTerms (invoice.afterCredit paid units isPaid) :=
  ⟨rfl, rfl, rfl, rfl, rfl⟩

variable {paid expected : Nat}

/-! ## The assignment -/

/-- The transaction was credited to the oldest invoice of its destination, which it matches. -/
def World.Settled (w : World) (t : StellarTransaction) : Prop :=
  ∃ invoice, w.oldest t.destinationAccount = some invoice ∧ matchesInvoice t invoice = true ∧
    w.credited invoice.invoiceId t.transactionId = true

/-- The transaction matches the oldest invoice, which is paid, and the variance of a paid invoice
cannot be evaluated: every credit throws. -/
def World.Stuck (cfg : ServiceConfig) (w : World) (t : StellarTransaction) : Prop :=
  ¬ cfg.VarianceReadable ∧ ∃ invoice expected paid,
    w.oldest t.destinationAccount = some invoice ∧ matchesInvoice t invoice = true ∧
      invoice.expectedAmount = fromUnits expected ∧ invoice.paidAmount = fromUnits paid ∧
      expected ≤ paid

/-- Every transaction that matches the oldest invoice is settled, or still `pending`, unless a
registration was cut short; then some transaction is stuck. -/
structure Assigned (cfg : ServiceConfig) (cut : Prop) (pending : List StellarTransaction)
    (w : World) : Prop extends World.WellFormed w where
  unmatched : ∀ t ∈ w.transactions, t.status = .unmatched → w.Fits t → cut ∨ t ∈ pending
  settled : ∀ t ∈ w.transactions, t.status ≠ .unmatched → w.Settled t
  stuck : cut → ∃ t ∈ w.transactions, t.status = .unmatched ∧ w.Stuck cfg t

/-- The oldest invoices keep their terms and lose no payment, and nothing credited is lost. -/
structure World.Keeps (w w' : World) : Prop where
  oldest_some : ∀ account invoice, w.oldest account = some invoice →
    ∃ invoice', w'.oldest account = some invoice' ∧ invoice.SameTerms invoice' ∧
      ∀ paid, invoice.paidAmount = fromUnits paid →
        ∃ paid', invoice'.paidAmount = fromUnits paid' ∧ paid ≤ paid'
  credited : ∀ invoiceId transactionId, w.credited invoiceId transactionId = true →
    w'.credited invoiceId transactionId = true

section Keeps

variable {cfg : ServiceConfig} {w w' : World} {t : StellarTransaction}

theorem World.Keeps.settled (h : w.Keeps w') (ht : w.Settled t) : w'.Settled t := by
  obtain ⟨invoice, holdest, hmatches, hcredited⟩ := ht
  obtain ⟨invoice', holdest', hterms, -⟩ := h.oldest_some _ _ holdest
  refine ⟨invoice', holdest', ?_, ?_⟩
  · rw [hterms.matches]
    exact hmatches
  · rw [hterms.invoiceId]
    exact h.credited _ _ hcredited

theorem World.Keeps.stuck (h : w.Keeps w') (ht : w.Stuck cfg t) : w'.Stuck cfg t := by
  obtain ⟨hcfg, invoice, expected, paid, holdest, hmatches, hexpected, hpaid, hfull⟩ := ht
  obtain ⟨invoice', holdest', hterms, hmore⟩ := h.oldest_some _ _ holdest
  obtain ⟨paid', hpaid', hle⟩ := hmore paid hpaid
  refine ⟨hcfg, invoice', expected, paid', holdest', ?_, ?_, hpaid', hfull.trans hle⟩
  · rw [hterms.matches]
    exact hmatches
  · rw [hterms.expectedAmount]
    exact hexpected

theorem World.keeps_audited (w : World) (audit : Audit) : w.Keeps (w.audited audit) where
  oldest_some _ invoice h := ⟨invoice, h, ⟨rfl, rfl, rfl, rfl, rfl⟩, fun paid hpaid =>
    ⟨paid, hpaid, le_rfl⟩⟩
  credited invoiceId transactionId h := by
    rw [credited_audited, h]
    rfl

theorem World.Keeps.trans {w'' : World} (h : w.Keeps w') (h' : w'.Keeps w'') : w.Keeps w'' where
  oldest_some account invoice holdest := by
    obtain ⟨invoice', holdest', hterms, hpaid⟩ := h.oldest_some account invoice holdest
    obtain ⟨invoice'', holdest'', hterms', hpaid'⟩ := h'.oldest_some account invoice' holdest'
    refine ⟨invoice'', holdest'', ?_, fun paid hp => ?_⟩
    · exact ⟨hterms'.invoiceId.trans hterms.invoiceId,
        hterms'.destinationAccount.trans hterms.destinationAccount,
        hterms'.assetCode.trans hterms.assetCode,
        hterms'.paymentReference.trans hterms.paymentReference,
        hterms'.expectedAmount.trans hterms.expectedAmount⟩
    · obtain ⟨paid', hp', hle⟩ := hpaid paid hp
      obtain ⟨paid'', hp'', hle'⟩ := hpaid' paid' hp'
      exact ⟨paid'', hp'', hle.trans hle'⟩
  credited _ _ hcredited := h'.credited _ _ (h.credited _ _ hcredited)

variable (hids : (w.invoices.map (·.invoiceId)).Nodup)
include hids

theorem oldest_afterCredit
    (hmem : invoice ∈ w.invoices) (paid units : Nat) (isPaid : Bool) (account : String) :
    (w.withInvoice (invoice.afterCredit paid units isPaid)).oldest account =
      (w.oldest account).map fun r => if r.invoiceId = invoice.invoiceId then
        invoice.afterCredit paid units isPaid else r := by
  have hkey : (invoice.afterCredit paid units isPaid).invoiceId = invoice.invoiceId := rfl
  exact find?_upsert hmem hkey hids _ rfl

theorem oldest_credited {account : String}
    (holdest : w.oldest account = some invoice) (paid units : Nat) (isPaid : Bool) :
    (w.withInvoice (invoice.afterCredit paid units isPaid)).oldest account =
      some (invoice.afterCredit paid units isPaid) := by
  rw [oldest_afterCredit hids (mem_of_find?_eq_some holdest), holdest, Option.map_some, if_pos rfl]

theorem World.keeps_credit
    (hmem : invoice ∈ w.invoices) (hpaid : invoice.paidAmount = fromUnits paid)
    (units : Nat) (isPaid : Bool) :
    w.Keeps (w.withInvoice (invoice.afterCredit paid units isPaid)) where
  oldest_some account found hfound := by
    rw [oldest_afterCredit hids hmem, hfound]
    by_cases hid : found.invoiceId = invoice.invoiceId
    · have hsame : found = invoice :=
        inj_on_of_nodup_map hids (mem_of_find?_eq_some hfound) hmem hid
      subst hsame
      refine ⟨_, congrArg some (if_pos rfl), found.sameTerms_afterCredit _ _ _, ?_⟩
      intro paid' hpaid'
      have heq : paid' = paid := fromUnits_injective (hpaid'.symm.trans hpaid)
      exact ⟨paid + units, rfl, by omega⟩
    · exact ⟨found, congrArg some (if_neg hid), ⟨rfl, rfl, rfl, rfl, rfl⟩,
        fun paid' hpaid' => ⟨paid', hpaid', le_rfl⟩⟩
  credited _ _ h := h

theorem World.fits_credit (hmem : invoice ∈ w.invoices) {isPaid : Bool}
    (h : (w.withInvoice (invoice.afterCredit paid units isPaid)).Fits t) : w.Fits t := by
  obtain ⟨found, hfound, hmatches⟩ := h
  rw [oldest_afterCredit hids hmem, Option.map_eq_some_iff] at hfound
  obtain ⟨old, hold, heq⟩ := hfound
  refine ⟨old, hold, ?_⟩
  by_cases hid : old.invoiceId = invoice.invoiceId
  · rw [if_pos hid] at heq
    have hsame : old = invoice :=
      inj_on_of_nodup_map hids (mem_of_find?_eq_some hold) hmem hid
    rw [← heq, (invoice.sameTerms_afterCredit paid units isPaid).matches] at hmatches
    rw [hsame]
    exact hmatches
  · rw [if_neg hid] at heq
    rw [heq]
    exact hmatches

omit hids

variable {r : Except Failure StellarTransaction}

theorem Reconciled.frame (hw : w.WellFormed) (h : Reconciled cfg w t r w') :
    w.Keeps w' ∧ ∀ t', w'.Fits t' → w.Fits t' := by
  cases h with
  | unmatched audit => exact ⟨w.keeps_audited audit, fun _ h => h⟩
  | credited invoice expected paid units isPaid audit holdest _ _ hpaid =>
    have hmem := mem_of_find?_eq_some holdest
    exact ⟨(keeps_credit hw.invoiceIds hmem hpaid units isPaid).trans (keeps_audited _ audit),
      fun _ h => fits_credit hw.invoiceIds hmem h⟩

end Keeps

/-! ## Steps -/

section Steps

variable {cfg : ServiceConfig} {cut : Prop} {pending : List StellarTransaction} {w w' : World}
  {t : StellarTransaction}

def StellarTransaction.marked (t : StellarTransaction) (status : TransactionStatus)
    (failureReason : Option String) : StellarTransaction :=
  { t with status := status, failureReason := failureReason }

theorem Assigned.save (h : Assigned cfg cut (t :: pending) w) (ht : t ∈ w.transactions)
    (htransactions : w'.transactions = w.transactions) (hkeeps : w.Keeps w') (hw' : w'.WellFormed)
    (hfits : ∀ r, w'.Fits r → w.Fits r) {status : TransactionStatus} (failureReason : Option String)
    (hunmatched : status = .unmatched → ¬ w.Fits t) (hsettled : status ≠ .unmatched → w'.Settled t)
    (hstuck : cut → ∃ r ∈ w.transactions, r.transactionId ≠ t.transactionId ∧
      r.status = .unmatched ∧ w.Stuck cfg r) :
    Assigned cfg cut pending (w'.withTransaction (t.marked status failureReason)) := by
  obtain ⟨units, hunits⟩ := h.transaction_amounts t ht
  have hwf := hw'.withTransaction (t := t.marked status failureReason) hunits
  -- a row afterwards is the saved one or another row of before
  have hrows : ∀ r ∈ (w'.withTransaction (t.marked status failureReason)).transactions,
      r = t.marked status failureReason ∨
        (r ∈ w.transactions ∧ r.transactionId ≠ t.transactionId) := by
    intro r hr
    rw [← htransactions]
    exact mem_upsert hw'.transactionIds hr
  refine ⟨hwf, fun r hr hstatus hr' => ?_, fun r hr hstatus => ?_, fun hcut => ?_⟩
  · rcases hrows r hr with rfl | ⟨hold, hne⟩
    · exact (hunmatched hstatus (hfits t hr')).elim
    · rcases h.unmatched r hold hstatus (hfits r hr') with hcut | hmem
      · exact .inl hcut
      · refine .inr ((mem_cons.mp hmem).resolve_left fun heq => hne ?_)
        rw [heq]
  · rcases hrows r hr with rfl | ⟨hold, -⟩
    · exact hsettled hstatus
    · exact hkeeps.settled (h.settled r hold hstatus)
  · obtain ⟨r, hr, hne, hstatus, hr'⟩ := hstuck hcut
    refine ⟨r, mem_upsert_of_ne ?_ hne, hstatus, hkeeps.stuck hr'⟩
    rw [htransactions]
    exact hr

theorem Reconciled.settled {r : Except Failure StellarTransaction} (hw : w.WellFormed)
    (h : Reconciled cfg w t r w') (hcredited : w.Fits t) : w'.Settled t := by
  cases h with
  | unmatched audit _ hfits => exact (hfits hcredited).elim
  | credited invoice expected paid units isPaid audit holdest hmatches _ hpaid _ hcredits =>
    refine ⟨invoice.afterCredit paid units isPaid,
      oldest_credited hw.invoiceIds holdest paid units isPaid, ?_, ?_⟩
    · rw [(invoice.sameTerms_afterCredit paid units isPaid).matches]
      exact hmatches
    · rw [credited_audited]
      exact Bool.or_eq_true_iff.mpr (.inr (by simp [hcredits, Invoice.afterCredit]))

variable {t' : StellarTransaction}

theorem Reconciled.ok_cases (h : Reconciled cfg w t (.ok t') w') :
    (∃ status, t' = t.marked status t.failureReason ∧ (status = .unmatched ↔ ¬ w.Fits t)) ∧
      ¬ w.Stuck cfg t := by
  generalize hr : (.ok t' : Except Failure StellarTransaction) = r at h
  cases h with
  | unmatched audit _ hfits =>
    cases hr
    refine ⟨⟨.unmatched, rfl, fun _ => hfits, fun _ => rfl⟩, ?_⟩
    rintro ⟨-, invoice, -, -, holdest, hmatches, -⟩
    exact hfits ⟨invoice, holdest, hmatches⟩
  | credited invoice expected paid units isPaid audit holdest hmatches hexpected hpaid _ _ hok =>
    obtain ⟨⟨status, hstatus, ht'⟩, hread⟩ := hok t' hr.symm
    have hfits : w.Fits t := ⟨invoice, holdest, hmatches⟩
    refine ⟨⟨status, ht', fun h => (hstatus h).elim, fun h => (h hfits).elim⟩, ?_⟩
    rintro ⟨hcfg, found, expected', paid', hfound, -, hexpected', hpaid', hfull⟩
    cases holdest.symm.trans hfound
    have hexp : expected' = expected := fromUnits_injective (hexpected'.symm.trans hexpected)
    have hpay : paid' = paid := fromUnits_injective (hpaid'.symm.trans hpaid)
    exact hcfg (hread (by omega))

variable {e : Failure}

theorem Reconciled.stuck_of_error (hw : w.WellFormed)
    (h : Reconciled cfg w t (.error e) w') : w.Fits t ∧ w'.Stuck cfg t := by
  generalize hr : (.error e : Except Failure StellarTransaction) = r at h
  cases h with
  | unmatched audit => cases hr
  | credited invoice expected paid units isPaid audit holdest hmatches hexpected hpaid _ _ _
      herror =>
    obtain ⟨hfull, hcfg⟩ := herror e hr.symm
    refine ⟨⟨invoice, holdest, hmatches⟩, hcfg, invoice.afterCredit paid units isPaid,
      expected, paid + units, oldest_credited hw.invoiceIds holdest paid units isPaid, ?_,
      hexpected, rfl, hfull⟩
    exact hmatches

/-- Reconciling the first of the pending transactions and saving it. -/
theorem Reconciled.assigned (h : Assigned cfg cut (t :: pending) w) (ht : t ∈ w.transactions)
    (hr : Reconciled cfg w t (.ok t') w') : Assigned cfg cut pending (w'.withTransaction t') := by
  obtain ⟨hkeeps, hfits⟩ := hr.frame h.toWellFormed
  obtain ⟨⟨status, rfl, hstatus⟩, hnot⟩ := hr.ok_cases
  refine h.save ht hr.transactions hkeeps (hr.wellFormed h.toWellFormed) hfits _ hstatus.mp
    (fun hne => ?_) fun hcut => ?_
  · exact hr.settled h.toWellFormed (by_contra fun hno => hne (hstatus.mpr hno))
  · obtain ⟨r, hrow, hunmatched, hstuck⟩ := h.stuck hcut
    refine ⟨r, hrow, fun hid => hnot ?_, hunmatched, hstuck⟩
    rw [← inj_on_of_nodup_map h.transactionIds hrow ht hid]
    exact hstuck

theorem Reconciled.assigned_cut (h : Assigned cfg cut (t :: pending) w)
    (ht : t ∈ w.transactions) (hstatus : t.status = .unmatched)
    (hr : Reconciled cfg w t (.error e) w') : Assigned cfg True [] w' := by
  refine ⟨hr.wellFormed h.toWellFormed, fun _ _ _ _ => .inl trivial, fun r hrow hne => ?_,
    fun _ => ?_⟩
  · rw [hr.transactions] at hrow
    exact (hr.frame h.toWellFormed).1.settled (h.settled r hrow hne)
  · refine ⟨t, ?_, hstatus, (hr.stuck_of_error h.toWellFormed).2⟩
    rw [hr.transactions]
    exact ht

theorem Assigned.audited (h : Assigned cfg cut pending w) (audit : Audit) :
    Assigned cfg cut pending (w.audited audit) where
  toWellFormed := h.toWellFormed.audited audit
  unmatched := h.unmatched
  settled t ht hstatus := (w.keeps_audited audit).settled (h.settled t ht hstatus)
  stuck := h.stuck

end Steps

/-! ## Calls -/

section Calls

variable {cfg : ServiceConfig} {cut : Prop} {w : World}

theorem reconcileCandidates_assigned (invoice : Invoice) (reason : String)
    (candidates : List StellarTransaction)
    (h : Assigned cfg cut (candidates.filter (matchesInvoice · invoice)) w)
    (hnodup : (candidates.map (·.transactionId)).Nodup)
    (hcandidates : ∀ t ∈ candidates, t ∈ w.transactions ∧ t.status = .unmatched) :
    ∃ r w', eval perform (reconcileCandidates cfg invoice reason candidates) w = (r, w') ∧
      w'.invoices.map (·.invoiceId) = w.invoices.map (·.invoiceId) ∧
      Assigned cfg (cut ∨ r.isOk = false) [] w' := by
  induction candidates generalizing w with
  | nil =>
    refine ⟨.ok (), w, rfl, rfl, ?_⟩
    simpa [Except.isOk, Except.toBool] using h
  | cons t candidates ih =>
    rw [map_cons, nodup_cons] at hnodup
    by_cases hmatches : matchesInvoice t invoice = true
    · rw [filter_cons, if_pos hmatches] at h
      obtain ⟨ht, hstatus⟩ := hcandidates t mem_cons_self
      obtain ⟨units, hunits⟩ := h.transaction_amounts t ht
      have hrec := reconcileTransaction_reconciled cfg h.invoice_amounts hunits (some reason)
      rcases heval : eval perform (reconcileTransaction cfg t (some reason)) w with ⟨r, w₁⟩
      rw [heval] at hrec
      have hids := hrec.invoiceIds
      simp only [reconcileCandidates, hmatches, if_true]
      rw [eval_bind, heval]
      cases r with
      | error e =>
        refine ⟨.error e, w₁, rfl, hids, ?_⟩
        have hcut := hrec.assigned_cut h ht hstatus
        simpa [Except.isOk, Except.toBool] using hcut
      | ok t' =>
        have hrest : ∀ r ∈ candidates, r ∈ (w₁.withTransaction t').transactions ∧
            r.status = .unmatched := by
          intro r hr
          obtain ⟨hstored, hunmatched⟩ := hcandidates r (mem_cons_of_mem _ hr)
          obtain ⟨⟨_, rfl, -⟩, -⟩ := hrec.ok_cases
          refine ⟨mem_upsert_of_ne ?_ fun hid => ?_, hunmatched⟩
          · rw [hrec.transactions]
            exact hstored
          · exact hnodup.1 (mem_map.mpr ⟨r, hr, hid⟩)
        obtain ⟨r, w', heval', hids', hassigned⟩ := ih (hrec.assigned h ht) hnodup.2 hrest
        exact ⟨r, w', heval', hids'.trans hids, hassigned⟩
    · rw [filter_cons, if_neg hmatches] at h
      simpa [reconcileCandidates, hmatches] using ih h hnodup.2 fun r hr =>
        hcandidates r (mem_cons_of_mem _ hr)

theorem Assigned.newInvoice (h : Assigned cfg cut [] w)
    (hnew : invoice.invoiceId ∉ w.invoices.map (·.invoiceId))
    (hexpected : invoice.expectedAmount = fromUnits expected)
    (hpaid : invoice.paidAmount = fromUnits paid) :
    Assigned cfg cut (((w.withInvoice invoice).selectTransactions invoice.destinationAccount
      invoice.assetCode [.unmatched]).filter (matchesInvoice · invoice))
      (w.withInvoice invoice) := by
  have hrows : (w.withInvoice invoice).invoices = w.invoices ++ [invoice] :=
    upsert_of_not_mem hnew
  have holdest : ∀ account found, w.oldest account = some found →
      (w.withInvoice invoice).oldest account = some found := by
    intro account found hfound
    rw [oldest, hrows, find?_append]
    exact Option.or_eq_some_iff.mpr (.inl hfound)
  have hkeeps : w.Keeps (w.withInvoice invoice) :=
    ⟨fun account found hfound => ⟨found, holdest account found hfound,
      ⟨rfl, rfl, rfl, rfl, rfl⟩, fun p hp => ⟨p, hp, le_rfl⟩⟩, fun _ _ h => h⟩
  refine ⟨h.toWellFormed.withInvoice invoice hexpected hpaid, fun t ht hstatus hfits => ?_,
    fun t ht hstatus => hkeeps.settled (h.settled t ht hstatus), fun hcut => ?_⟩
  · obtain ⟨found, hfound, hmatches⟩ := hfits
    rw [oldest, hrows, find?_append] at hfound
    rcases Option.or_eq_some_iff.mp hfound with hold | ⟨-, hlast⟩
    · -- an older invoice was there already
      refine .inl ((h.unmatched t ht hstatus ⟨found, hold, hmatches⟩).resolve_right ?_)
      exact not_mem_nil
    · have hsame : found = invoice := mem_singleton.mp (mem_of_find?_eq_some hlast)
      subst hsame
      refine .inr (mem_filter.mpr ⟨?_, hmatches⟩)
      obtain ⟨hdest, hasset⟩ := matchesInvoice_terms hmatches
      refine mem_selectTransactions_of ht hdest hasset ?_
      rw [hstatus]
      exact mem_singleton_self _
  · obtain ⟨t, ht, hstatus, hstuck⟩ := h.stuck hcut
    exact ⟨t, ht, hstatus, hkeeps.stuck hstuck⟩

theorem createInvoice_assigned (dto : CreateInvoiceDto) (h : Assigned cfg cut [] w) :
    ∃ r w', eval perform (createInvoice cfg dto) w = (r, w') ∧
      Assigned cfg (cut ∨ (r.isOk = false ∧ dto.invoiceId ∈ w'.invoices.map (·.invoiceId)))
        [] w' := by
  rcases eval_createInvoice cfg dto w with ⟨existing, heval⟩ | ⟨hnew, ⟨e, heval⟩ |
    ⟨invoice, expected, hid, hexpected, hpaid, heval⟩⟩
  · refine ⟨.ok existing, w, heval, ?_⟩
    simpa [Except.isOk, Except.toBool] using h
  · refine ⟨.error e, w, heval, ?_⟩
    simpa [hnew] using h
  · have hw := h.newInvoice (hid ▸ hnew) hexpected hpaid
    obtain ⟨r, w', heval', hids, hassigned⟩ := reconcileCandidates_assigned invoice
      "Invoice registered after payment" _ hw
      (nodup_selectTransactions hw.transactionIds _ _ _) fun t ht => by
        obtain ⟨hmem, hstatus⟩ := mem_selectTransactions ht
        exact ⟨hmem, mem_singleton.mp hstatus⟩
    have hstored : dto.invoiceId ∈ w'.invoices.map (·.invoiceId) := by
      rw [hids, ← hid]
      exact mem_map_of_mem (mem_upsert_self invoice w.invoices)
    rw [heval]
    cases r with
    | ok _ =>
      refine ⟨.ok invoice, w', eval_bind_of_ok heval', ?_⟩
      simpa [Except.isOk, Except.toBool] using hassigned
    | error e =>
      refine ⟨.error e, w', eval_bind_of_error heval', ?_⟩
      simpa [Except.isOk, Except.toBool, hstored] using hassigned

/-- A new transaction is pending until it is reconciled; that it threw does not matter, since it
is caught after the credit. -/
theorem storeAndReconcile_assigned (h : Assigned cfg cut [] w)
    (hnew : t.transactionId ∉ w.transactions.map (·.transactionId))
    (hunits : t.amount = fromUnits units) (hstatus : t.status = .unmatched) :
    Assigned cfg cut [] (eval perform (storeAndReconcile cfg t) w).2 := by
  have hrows : (w.withTransaction t).transactions = w.transactions ++ [t] :=
    upsert_of_not_mem hnew
  have ht : t ∈ (w.withTransaction t).transactions := mem_upsert_self t w.transactions
  have hother : cut → ∃ r ∈ (w.withTransaction t).transactions,
      r.transactionId ≠ t.transactionId ∧ r.status = .unmatched ∧
        (w.withTransaction t).Stuck cfg r := by
    intro hcut
    obtain ⟨r, hr, hunmatched, hstuck⟩ := h.stuck hcut
    refine ⟨r, ?_, fun hid => hnew (mem_map.mpr ⟨r, hr, hid⟩), hunmatched, hstuck⟩
    rw [hrows]
    exact mem_append_left _ hr
  have hw : Assigned cfg cut [t] (w.withTransaction t) := by
    refine ⟨h.toWellFormed.withTransaction hunits, fun r hr hr' hfits => ?_,
      fun r hr hne => ?_, fun hcut => ?_⟩
    · rcases mem_upsert h.transactionIds hr with rfl | ⟨hold, -⟩
      · exact .inr mem_cons_self
      · exact .inl ((h.unmatched r hold hr' hfits).resolve_right not_mem_nil)
    · rcases mem_upsert h.transactionIds hr with rfl | ⟨hold, -⟩
      · exact (hne hstatus).elim
      · exact h.settled r hold hne
    · obtain ⟨r, hr, -, hunmatched, hstuck⟩ := hother hcut
      exact ⟨r, hr, hunmatched, hstuck⟩
  have hrec := reconcileTransaction_reconciled cfg hw.invoice_amounts hunits none
  rcases heval : eval perform (reconcileTransaction cfg t none) (w.withTransaction t) with ⟨r, w'⟩
  rw [heval] at hrec
  unfold storeAndReconcile
  rw [eval_bind, eval_saveTransaction]
  simp only
  unfold reconcileIngested
  rw [eval_bind, eval_bind, eval_attempt, heval]
  cases r with
  | ok t' => exact hrec.assigned hw ht
  | error e =>
    obtain ⟨hkeeps, hfits⟩ := hrec.frame hw.toWellFormed
    have hw' := hrec.wellFormed hw.toWellFormed
    have hfit := (hrec.stuck_of_error hw.toWellFormed).1
    have hsettled := hrec.settled hw.toWellFormed hfit
    have hsaved : ∀ audit, Assigned cfg cut [] ((w'.audited audit).withTransaction
        (t.marked .failed (some e.text))) := by
      intro audit
      have hkeeps' := keeps_audited w' audit
      have hrows' : (w'.audited audit).transactions = (w.withTransaction t).transactions :=
        hrec.transactions
      refine hw.save ht hrows' (hkeeps.trans hkeeps') (hw'.audited audit) hfits _ (fun h => ?_)
        (fun _ => hkeeps'.settled hsettled) hother
      cases h
    exact hsaved _

theorem ingestTransaction_assigned (dto : IngestTransactionDto) (h : Assigned cfg cut [] w) :
    Assigned cfg cut [] (eval perform (ingestTransaction cfg dto) w).2 := by
  rcases eval_ingestTransaction cfg dto w with ⟨audit, -, heval⟩ | heval |
    ⟨t, units, hnew, hunits, hstatus, heval⟩
  · rw [heval]
    exact h.audited audit
  · rw [heval]
    exact h
  · rw [heval]
    exact storeAndReconcile_assigned h hnew hunits hstatus

end Calls

/-! ## Runs -/

section Runs

variable {cfg : ServiceConfig}

theorem Intake.run_assigned {cut : Prop} (now : Nat) (call : Intake) (h : Assigned cfg cut [] w) :
    Assigned cfg (cut ∨ call.CutShort cfg now w) [] (call.toRequest.run cfg now w) := by
  have hnow : Assigned cfg cut [] { w with clock := now } :=
    ⟨⟨h.invoiceIds, h.transactionIds, h.invoice_amounts, h.transaction_amounts⟩, h.unmatched,
      h.settled, h.stuck⟩
  cases call with
  | createInvoice dto =>
    obtain ⟨r, w', heval, hassigned⟩ := createInvoice_assigned dto hnow
    simp only [Intake.CutShort, Intake.toRequest, Request.run, heval]
    exact hassigned
  | ingestTransaction dto =>
    have hassigned := ingestTransaction_assigned dto hnow
    simp only [Intake.CutShort, or_false]
    exact hassigned

theorem intakes_assigned {cut : Prop} (calls : List (Nat × Intake)) (h : Assigned cfg cut [] w) :
    Assigned cfg (cut ∨ AnyCutShort cfg calls w) [] (intakes cfg calls w) := by
  induction calls generalizing cut w with
  | nil =>
    simp only [AnyCutShort, or_false]
    exact h
  | cons call calls ih =>
    obtain ⟨now, call⟩ := call
    have hrest := ih (call.run_assigned now h)
    rw [or_assoc] at hrest
    exact hrest

variable (cfg) in
theorem Assigned.empty : Assigned cfg False [] {} where
  toWellFormed := .empty
  unmatched _ h := (not_mem_nil h).elim
  settled _ h := (not_mem_nil h).elim
  stuck h := h.elim

end Runs

/-- After any sequence of `createInvoice` and `ingestTransaction` calls matching is complete if
and only if every transaction that matches some invoice matches the oldest invoice of its
destination account, and no registration was cut short. -/
theorem matching_complete_iff (cfg : ServiceConfig) (calls : List (Nat × Intake)) :
    MatchingComplete (intakes cfg calls {}) ↔
      (∀ t ∈ (intakes cfg calls {}).transactions, (intakes cfg calls {}).HasMatch t →
        (intakes cfg calls {}).Fits t) ∧ ¬ AnyCutShort cfg calls {} := by
  have h := intakes_assigned calls (Assigned.empty cfg)
  rw [false_or] at h
  constructor
  · intro hcomplete
    refine ⟨fun t ht hmatch => ?_, fun hcut => ?_⟩
    · obtain ⟨invoice, holdest, hmatches, -⟩ := h.settled t ht (hcomplete t ht hmatch).1
      exact ⟨invoice, holdest, hmatches⟩
    · obtain ⟨t, ht, hstatus, -, invoice, -, -, holdest, hmatches, -⟩ := h.stuck hcut
      have hmatch : (intakes cfg calls {}).HasMatch t :=
        ⟨invoice, mem_of_find?_eq_some holdest, hmatches⟩
      exact (hcomplete t ht hmatch).1 hstatus
  · rintro ⟨hfits, hcut⟩ t ht hmatch
    have hstatus : t.status ≠ .unmatched := fun hstatus =>
      hcut ((h.unmatched t ht hstatus (hfits t ht hmatch)).resolve_right not_mem_nil)
    obtain ⟨invoice, holdest, hmatches, hcredited⟩ := h.settled t ht hstatus
    exact ⟨hstatus, invoice, mem_of_find?_eq_some holdest, hmatches, hcredited⟩

/-! ### Two references on one account -/

def referencedInvoice (reference : String) : CreateInvoiceDto where
  invoiceId := reference
  expectedAmount := "10"
  destinationAccount := "GDEST"
  paymentReference := some reference

def secondPayment : IngestTransactionDto where
  transactionId := "tx"
  destinationAccount := "GDEST"
  amount := "10"
  memo := some "B"

def twoReferences : List (Nat × Intake) :=
  [(0, .createInvoice (referencedInvoice "A")), (0, .createInvoice (referencedInvoice "B")),
    (0, .ingestTransaction secondPayment)]

/-- The payment is compared with the first invoice only and stays unmatched. -/
theorem second_reference_left_unmatched : ¬ MatchingComplete (intakes {} twoReferences {}) := by
  have hleft : ∃ t ∈ (intakes {} twoReferences {}).transactions,
      (∃ invoice ∈ (intakes {} twoReferences {}).invoices, matchesInvoice t invoice = true) ∧
        t.status = .unmatched := by
    decide
  obtain ⟨t, ht, hmatch, hstatus⟩ := hleft
  intro hcomplete
  exact (hcomplete t ht hmatch).1 hstatus

end Trellis.Reconciliation
