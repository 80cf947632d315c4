import Trellis.Reconciliation.Service

/-!
# Conservation in reconciliation

An invoice's `paidAmount` against the transactions credited to it. The service adds the amount of
a transaction each time it credits it, and `manualReconcile` selects `PARTIAL` transactions again,
although those have been credited before.
-/

namespace Trellis.Reconciliation

open Core World List Audit
open Async hiding bind

/-! ## Credits -/

def unitsOf (amount : String) : Nat :=
  (toUnits "Stellar" amount).toOption.getD 0

@[simp]
theorem unitsOf_fromUnits (units : Nat) : unitsOf (fromUnits units) = units := by
  simp [unitsOf, toUnits_fromUnits, Except.toOption]

theorem fromUnits_injective : Function.Injective fromUnits :=
  Function.LeftInverse.injective unitsOf_fromUnits

/-- The audit records that its transaction was credited to its invoice. -/
def Audit.credits (audit : Audit) (invoiceId transactionId : String) : Bool :=
  audit.invoiceId = some invoiceId ∧ audit.transactionId = some transactionId ∧
    (audit.decision = .matched ∨ audit.decision = .partly)

/-- Some reconciliation credited the transaction to the invoice. -/
def World.credited (w : World) (invoiceId transactionId : String) : Bool :=
  w.audits.any (·.credits invoiceId transactionId)

/-- What a stored transaction contributes to an invoice: its amount, once, if it was
ever credited to it. -/
def World.contribution (w : World) (invoiceId : String) (t : StellarTransaction) : Nat :=
  if w.credited invoiceId t.transactionId then unitsOf t.amount else 0

/-- The sum of the distinct stored transactions credited to an invoice. -/
def World.creditedUnits (w : World) (invoiceId : String) : Nat :=
  (w.transactions.map (w.contribution invoiceId)).sum

/-- Crediting the transaction now would count nothing twice. -/
def World.Fresh (w : World) (t : StellarTransaction) : Prop :=
  unitsOf t.amount = 0 ∨ ∀ invoiceId, w.credited invoiceId t.transactionId = false

/-! ## The invariant -/

structure World.WellFormed (w : World) : Prop where
  invoiceIds : (w.invoices.map (·.invoiceId)).Nodup
  transactionIds : (w.transactions.map (·.transactionId)).Nodup
  invoice_amounts : ∀ invoice ∈ w.invoices, ∃ expected paid,
    invoice.expectedAmount = fromUnits expected ∧ invoice.paidAmount = fromUnits paid
  transaction_amounts : ∀ t ∈ w.transactions, ∃ units, t.amount = fromUnits units

structure Balanced (w : World) : Prop extends World.WellFormed w where
  credited_stored : ∀ invoiceId transactionId, w.credited invoiceId transactionId = true →
    invoiceId ∈ w.invoices.map (·.invoiceId) ∧ transactionId ∈ w.transactions.map (·.transactionId)
  unmatched_fresh : ∀ t ∈ w.transactions, t.status = .unmatched → w.Fresh t
  paid : ∀ invoice ∈ w.invoices, unitsOf invoice.paidAmount = w.creditedUnits invoice.invoiceId

@[simp]
theorem credited_withInvoice (w : World) (invoice : Invoice) :
    (w.withInvoice invoice).credited = w.credited :=
  rfl

theorem credited_audited (w : World) (audit : Audit) (invoiceId transactionId : String) :
    (w.audited audit).credited invoiceId transactionId =
      (w.credited invoiceId transactionId || audit.credits invoiceId transactionId) := by
  simp [audited, credited, any_append]

variable {t : StellarTransaction}

namespace World.WellFormed

variable {w : World}

theorem audited (h : w.WellFormed) (audit : Audit) : (w.audited audit).WellFormed :=
  ⟨h.invoiceIds, h.transactionIds, h.invoice_amounts, h.transaction_amounts⟩

theorem withInvoice (h : w.WellFormed) (invoice : Invoice) {expected paid : Nat}
    (hexpected : invoice.expectedAmount = fromUnits expected)
    (hpaid : invoice.paidAmount = fromUnits paid) : (w.withInvoice invoice).WellFormed :=
  { h with
    invoiceIds := nodup_upsert h.invoiceIds
    invoice_amounts found hfound := by
      rcases mem_upsert h.invoiceIds hfound with rfl | ⟨hold, -⟩
      · exact ⟨expected, paid, hexpected, hpaid⟩
      · exact h.invoice_amounts found hold }

theorem withTransaction (h : w.WellFormed) {units : Nat}
    (hunits : t.amount = fromUnits units) : (w.withTransaction t).WellFormed :=
  { h with
    transactionIds := nodup_upsert h.transactionIds
    transaction_amounts r hr := by
      rcases mem_upsert h.transactionIds hr with rfl | ⟨hold, -⟩
      · exact ⟨units, hunits⟩
      · exact h.transaction_amounts r hold }

end World.WellFormed

/-- The invoice `reconcileTransaction` selects. -/
def World.oldest (w : World) (destinationAccount : String) : Option Invoice :=
  w.invoices.find? (·.destinationAccount = destinationAccount)

/-- The transaction matches the invoice it is tried against. -/
def World.Fits (w : World) (t : StellarTransaction) : Prop :=
  ∃ invoice, w.oldest t.destinationAccount = some invoice ∧ matchesInvoice t invoice = true

/-- The variance policy can be evaluated: its limits are amounts. -/
def ServiceConfig.VarianceReadable (cfg : ServiceConfig) : Prop :=
  ∀ variance, cfg.variance = some variance →
    (toUnits "reconciliation" (variance.alertThreshold.getD "0.0100000")).isOk = true ∧
      (toUnits "reconciliation" (variance.autoReimbursementMaxLimit.getD "1.0000000")).isOk = true

/-! ## What the programs do -/

variable {cfg : ServiceConfig} {expected : Nat}

theorem evaluateVariance_ok (hcfg : cfg.VarianceReadable) (invoice : Invoice) (isPaid : Bool)
    {paid : Nat} (hexpected : invoice.expectedAmount = fromUnits expected)
    (hpaid : invoice.paidAmount = fromUnits paid) :
    evaluateVariance cfg invoice isPaid = .ok () := by
  unfold evaluateVariance
  split
  · rename_i variance hvariance
    rcases hcfg variance hvariance with ⟨halert, hcap⟩
    rcases ha : toUnits "reconciliation" (variance.alertThreshold.getD "0.0100000") with e | a
    · simp [ha, Except.isOk, Except.toBool] at halert
    rcases hc : toUnits "reconciliation" (variance.autoReimbursementMaxLimit.getD "1.0000000")
      with e | c
    · simp [hc, Except.isOk, Except.toBool] at hcap
    simp [VarianceConfig.evaluate, hexpected, hpaid, toUnits_fromUnits, ha, hc, Except.map,
      bind, Except.bind, pure, Except.pure]
  · rfl

/-- The invoice after a credit of `units` to what was paid before. -/
def Invoice.afterCredit (invoice : Invoice) (paid units : Nat) (isPaid : Bool) : Invoice :=
  { invoice with
    paidAmount := fromUnits (paid + units)
    status := if isPaid then .paid else .partly }

theorem eval_credit_outcome (cfg : ServiceConfig) (w : World) (t : StellarTransaction)
    (invoice : Invoice) (reason : Option String) {paid units : Nat}
    (hexpected : invoice.expectedAmount = fromUnits expected)
    (hpaid : invoice.paidAmount = fromUnits paid) (hunits : t.amount = fromUnits units)
    {isPaid : Bool} (hisPaid : isPaid = decide (paid + units ≥ expected)) :
    eval perform (credit cfg t invoice reason) w =
      ((evaluateVariance cfg (invoice.afterCredit paid units isPaid) isPaid).map fun _ =>
          { t with status := if isPaid then .matched else .partly },
        (w.withInvoice (invoice.afterCredit paid units isPaid)).audited
          (creditAudit t (invoice.afterCredit paid units isPaid) isPaid reason)) := by
  subst hisPaid
  unfold credit
  rw [hpaid, hunits, hexpected, toUnits_fromUnits, toUnits_fromUnits, toUnits_fromUnits]
  simp only [ofExcept_ok, done_bind]
  rw [← hexpected, eval_bind, eval_saveInvoice]
  unfold Invoice.afterCredit
  cases evaluateVariance cfg { invoice with
    paidAmount := fromUnits (paid + units)
    status := if decide (paid + units ≥ expected) = true then .paid else .partly }
    (decide (paid + units ≥ expected)) <;> rfl

theorem credits_creditAudit (t : StellarTransaction) (invoice : Invoice) (isPaid : Bool)
    (reason : Option String) (invoiceId transactionId : String) :
    (creditAudit t invoice isPaid reason).credits invoiceId transactionId =
      decide (invoiceId = invoice.invoiceId ∧ transactionId = t.transactionId) := by
  cases isPaid <;> simp [credits, creditAudit, eq_comm]

variable {w w' : World} {t : StellarTransaction} {paid units : Nat} {invoice : Invoice}

theorem readable_of_evaluateVariance (hexpected : invoice.expectedAmount = fromUnits expected)
    (hpaid : invoice.paidAmount = fromUnits paid)
    (hok : evaluateVariance cfg invoice true = .ok ()) : cfg.VarianceReadable := by
  intro variance hvariance
  unfold evaluateVariance at hok
  rw [hvariance] at hok
  simp only [VarianceConfig.evaluate, hexpected, hpaid, toUnits_fromUnits] at hok
  rcases halert : toUnits "reconciliation" (variance.alertThreshold.getD "0.0100000") with e | a
  · rw [halert] at hok
    cases hok
  rcases hcap : toUnits "reconciliation"
    (variance.autoReimbursementMaxLimit.getD "1.0000000") with e | c
  · rw [halert, hcap] at hok
    cases hok
  exact ⟨rfl, rfl⟩

/-- What a reconciliation of a stored transaction can do. -/
inductive Reconciled (cfg : ServiceConfig) (w : World) (t : StellarTransaction) :
    Except Failure StellarTransaction → World → Prop where
  | unmatched (audit : Audit) (hdecision : audit.decision = .unmatched) (hfits : ¬ w.Fits t) :
      Reconciled cfg w t (.ok { t with status := .unmatched }) (w.audited audit)
  | credited {r : Except Failure StellarTransaction} (invoice : Invoice)
      (expected paid units : Nat) (isPaid : Bool) (audit : Audit)
      (holdest : w.oldest t.destinationAccount = some invoice)
      (hmatches : matchesInvoice t invoice = true)
      (hexpected : invoice.expectedAmount = fromUnits expected)
      (hpaid : invoice.paidAmount = fromUnits paid)
      (hunits : t.amount = fromUnits units)
      (hcredits : ∀ invoiceId transactionId, audit.credits invoiceId transactionId =
        decide (invoiceId = invoice.invoiceId ∧ transactionId = t.transactionId))
      (hok : ∀ t', r = .ok t' → (∃ status, status ≠ .unmatched ∧
        t' = { t with status := status }) ∧ (expected ≤ paid + units → cfg.VarianceReadable))
      (herror : ∀ e, r = .error e → expected ≤ paid + units ∧ ¬ cfg.VarianceReadable) :
      Reconciled cfg w t r ((w.withInvoice (invoice.afterCredit paid units isPaid)).audited audit)

theorem credit_reconciled (cfg : ServiceConfig)
    (holdest : w.oldest t.destinationAccount = some invoice)
    (hmatches : matchesInvoice t invoice = true) (reason : Option String)
    (hexpected : invoice.expectedAmount = fromUnits expected)
    (hpaid : invoice.paidAmount = fromUnits paid) (hunits : t.amount = fromUnits units) :
    Reconciled cfg w t (eval perform (credit cfg t invoice reason) w).1
      (eval perform (credit cfg t invoice reason) w).2 := by
  obtain ⟨isPaid, hisPaid⟩ : ∃ isPaid, isPaid = decide (paid + units ≥ expected) := ⟨_, rfl⟩
  rw [eval_credit_outcome cfg w t invoice reason hexpected hpaid hunits hisPaid]
  refine .credited invoice expected paid units _ _ holdest hmatches hexpected hpaid hunits
    (credits_creditAudit _ _ _ _) ?_ ?_
  · intro t' ht'
    rcases hvariance : evaluateVariance cfg (invoice.afterCredit paid units isPaid) isPaid
      with e | u
    · rw [hvariance] at ht'
      cases ht'
    · rw [hvariance] at ht'
      refine ⟨⟨if isPaid then .matched else .partly, ?_, (Except.ok.inj ht').symm⟩, fun hfull => ?_⟩
      · cases isPaid <;> exact nofun
      · rw [hisPaid.trans (decide_eq_true hfull)] at hvariance
        have hexpected' : (invoice.afterCredit paid units true).expectedAmount =
          fromUnits expected := hexpected
        exact readable_of_evaluateVariance hexpected' rfl hvariance
  · intro e he
    refine ⟨?_, fun hcfg => ?_⟩
    · by_contra hfull
      rw [hisPaid.trans (decide_eq_false hfull)] at he
      cases he
    · rw [evaluateVariance_ok hcfg (invoice.afterCredit paid units isPaid) isPaid hexpected
        rfl] at he
      cases he

theorem reconcileTransaction_reconciled (cfg : ServiceConfig)
    (hinvoices : ∀ invoice ∈ w.invoices, ∃ expected paid,
      invoice.expectedAmount = fromUnits expected ∧ invoice.paidAmount = fromUnits paid)
    (hunits : t.amount = fromUnits units) (reason : Option String) :
    Reconciled cfg w t (eval perform (reconcileTransaction cfg t reason) w).1
      (eval perform (reconcileTransaction cfg t reason) w).2 := by
  have hfind : eval perform (reconcileTransaction cfg t reason) w =
      eval perform (reconcileWith cfg t reason (w.oldest t.destinationAccount)) w := rfl
  rw [hfind]
  cases holdest : w.oldest t.destinationAccount with
  | none =>
    refine .unmatched _ rfl ?_
    rintro ⟨invoice, hinvoice, -⟩
    cases holdest.symm.trans hinvoice
  | some invoice =>
    by_cases hmatches : matchesInvoice t invoice = true
    · obtain ⟨expected, paid, hexpected, hpaid⟩ :=
        hinvoices invoice (mem_of_find?_eq_some holdest)
      rw [reconcileWith, if_pos hmatches]
      exact credit_reconciled cfg holdest hmatches reason hexpected hpaid hunits
    · rw [reconcileWith, if_neg hmatches]
      refine .unmatched _ rfl ?_
      rintro ⟨found, hfound, hfits⟩
      cases holdest.symm.trans hfound
      exact hmatches hfits

/-! ## One reconciliation keeps the balance -/

variable {r : Except Failure StellarTransaction}

theorem Reconciled.invoiceIds (h : Reconciled cfg w t r w') :
    w'.invoices.map (·.invoiceId) = w.invoices.map (·.invoiceId) := by
  cases h with
  | unmatched audit => rfl
  | credited invoice expected paid units isPaid audit holdest =>
    have hkey : (invoice.afterCredit paid units isPaid).invoiceId ∈ w.invoices.map (·.invoiceId) :=
      mem_map.mpr ⟨invoice, mem_of_find?_eq_some holdest, rfl⟩
    exact map_key_upsert_of_mem hkey

theorem Reconciled.transactions (h : Reconciled cfg w t r w') :
    w'.transactions = w.transactions := by
  cases h <;> rfl

theorem Reconciled.wellFormed (hw : w.WellFormed) (h : Reconciled cfg w t r w') :
    w'.WellFormed := by
  cases h with
  | unmatched audit => exact hw.audited audit
  | credited invoice expected paid units isPaid audit _ _ hexpected =>
    have hwf := hw.withInvoice (invoice.afterCredit paid units isPaid) hexpected rfl
    exact hwf.audited audit

variable {invoiceId transactionId : String} {status : TransactionStatus}

theorem Reconciled.credited_other (h : Reconciled cfg w t r w')
    (hne : transactionId ≠ t.transactionId) :
    w'.credited invoiceId transactionId = w.credited invoiceId transactionId := by
  cases h with
  | unmatched audit hdecision =>
    rw [credited_audited]
    simp [credits, hdecision]
  | credited invoice expected paid units isPaid audit _ _ _ _ _ hcredits =>
    rw [credited_audited, hcredits]
    simp [hne]

theorem Reconciled.result (hcfg : cfg.VarianceReadable) (hfresh : w.Fresh t)
    (h : Reconciled cfg w t r w') :
    ∃ status, r = .ok { t with status := status } ∧ (status = .unmatched → w'.Fresh t) := by
  cases h with
  | unmatched audit hdecision =>
    refine ⟨.unmatched, rfl, fun _ => hfresh.imp_right fun huncredited invoiceId => ?_⟩
    rw [credited_audited, huncredited]
    simp [credits, hdecision]
  | credited invoice expected paid units isPaid audit _ _ _ _ _ _ hok herror =>
    cases r with
    | error e => exact absurd hcfg (herror e rfl).2
    | ok t' =>
      obtain ⟨⟨status, hstatus, rfl⟩, -⟩ := hok t' rfl
      exact ⟨status, rfl, fun h => absurd h hstatus⟩

theorem Reconciled.fresh_other {t' : StellarTransaction} (h : Reconciled cfg w t r w')
    (hne : t'.transactionId ≠ t.transactionId) (ht' : w.Fresh t') : w'.Fresh t' := by
  refine ht'.imp_right fun huncredited invoiceId => ?_
  rw [h.credited_other hne]
  exact huncredited invoiceId

theorem creditedUnits_withTransaction (hnodup : (w.transactions.map (·.transactionId)).Nodup)
    (ht : t ∈ w.transactions) (invoiceId : String) :
    (w.withTransaction { t with status := status }).creditedUnits invoiceId =
      w.creditedUnits invoiceId := by
  have hid : ({ t with status := status } : StellarTransaction).transactionId = t.transactionId :=
    rfl
  exact congrArg sum (map_upsert ht hid hnodup (w.contribution invoiceId) rfl)

variable {audit : Audit}

theorem contribution_audited (h : audit.credits invoiceId t.transactionId = false) :
    (w.audited audit).contribution invoiceId t = w.contribution invoiceId t := by
  rw [contribution, contribution, credited_audited, h, Bool.or_false]

theorem contribution_fresh (h : w.Fresh t)
    (invoiceId : String) : w.contribution invoiceId t = 0 := by
  unfold contribution
  rcases h with hzero | huncredited
  · simp [hzero]
  · simp [huncredited invoiceId]

theorem creditedUnits_reconciled (hw : Balanced w)
    (ht : t ∈ w.transactions) (hfresh : w.Fresh t) (h : Reconciled cfg w t r w')
    (invoiceId : String) :
    w'.creditedUnits invoiceId = w.creditedUnits invoiceId + w'.contribution invoiceId t := by
  have hsum : w'.creditedUnits invoiceId + w.contribution invoiceId t =
      w.creditedUnits invoiceId + w'.contribution invoiceId t := by
    unfold creditedUnits
    rw [h.transactions]
    refine sum_map_eq_off hw.transactionIds ht _ _ fun t' _ hne => ?_
    rw [contribution, h.credited_other hne, contribution]
  rw [contribution_fresh hfresh] at hsum
  exact hsum

theorem Reconciled.paid_eq (hw : Balanced w)
    (ht : t ∈ w.transactions) (hfresh : w.Fresh t) (h : Reconciled cfg w t r w') :
    ∀ invoice ∈ w'.invoices, unitsOf invoice.paidAmount = w'.creditedUnits invoice.invoiceId := by
  intro invoice hmem
  rw [creditedUnits_reconciled hw ht hfresh h]
  have hbefore := contribution_fresh hfresh invoice.invoiceId
  cases h with
  | unmatched audit hdecision =>
    have hcredits : audit.credits invoice.invoiceId t.transactionId = false := by
      simp [credits, hdecision]
    rw [contribution_audited hcredits, hbefore]
    exact hw.paid invoice hmem
  | credited credited expected paid units isPaid audit holdest _ _ hpaid hunits hcredits =>
    rcases mem_upsert hw.invoiceIds hmem with heq | ⟨hold, hne⟩
    · have hpaid' := hw.paid credited (mem_of_find?_eq_some holdest)
      subst heq
      rw [contribution, credited_audited, hcredits]
      simp [Invoice.afterCredit, ← hpaid', hpaid, hunits]
    · have hother : audit.credits invoice.invoiceId t.transactionId = false := by
        rw [hcredits, decide_eq_false_iff_not]
        exact fun h => hne h.1
      rw [contribution_audited hother, contribution, credited_withInvoice, ← contribution, hbefore]
      exact hw.paid invoice hold

variable (hw : Balanced w)
include hw

theorem Reconciled.credited_stored (ht : t ∈ w.transactions) (h : Reconciled cfg w t r w')
    (hcredited : w'.credited invoiceId transactionId = true) :
    invoiceId ∈ w.invoices.map (·.invoiceId) ∧
      transactionId ∈ w.transactions.map (·.transactionId) := by
  cases h with
  | unmatched audit hdecision =>
    rw [credited_audited] at hcredited
    refine hw.credited_stored _ _ ?_
    simpa [credits, hdecision] using hcredited
  | credited invoice expected paid units isPaid audit holdest _ _ _ _ hcredits =>
    rw [credited_audited, hcredits, Bool.or_eq_true, decide_eq_true_eq] at hcredited
    rcases hcredited with hbefore | ⟨rfl, rfl⟩
    · exact hw.credited_stored _ _ hbefore
    · exact ⟨mem_map_of_mem (mem_of_find?_eq_some holdest), mem_map_of_mem ht⟩

theorem Reconciled.balanced (ht : t ∈ w.transactions) (hfresh : w.Fresh t)
    (h : Reconciled cfg w t r w') (hstatus : status = .unmatched → w'.Fresh t) :
    Balanced (w'.withTransaction { t with status := status }) := by
  have htable := h.transactions
  have hids : (w'.withTransaction { t with status := status }).transactions.map
      (·.transactionId) = w.transactions.map (·.transactionId) := by
    have hmem : t.transactionId ∈ w.transactions.map (·.transactionId) := mem_map_of_mem ht
    simp only [withTransaction, htable]
    exact map_key_upsert_of_mem hmem
  obtain ⟨units, hunits⟩ := hw.transaction_amounts t ht
  refine ⟨(h.wellFormed hw.toWellFormed).withTransaction hunits, ?_, ?_, ?_⟩
  · intro invoiceId transactionId hcredited
    rw [hids]
    have hstored := h.credited_stored hw ht hcredited
    exact ⟨h.invoiceIds ▸ hstored.1, hstored.2⟩
  · intro t' ht' hstatus'
    simp only [withTransaction, htable] at ht'
    rcases mem_upsert hw.transactionIds ht' with rfl | ⟨hold, hne⟩
    · exact hstatus hstatus'
    · exact h.fresh_other hne (hw.unmatched_fresh t' hold hstatus')
  · intro invoice hmem
    rw [creditedUnits_withTransaction (htable ▸ hw.transactionIds) (htable ▸ ht)]
    exact h.paid_eq hw ht hfresh invoice hmem

/-! ## New rows -/

theorem Balanced.audited
    (haudit : ∀ invoiceId transactionId, audit.credits invoiceId transactionId = false) :
    Balanced (w.audited audit) := by
  have hcredited : (w.audited audit).credited = w.credited := by
    funext invoiceId transactionId
    rw [credited_audited, haudit, Bool.or_false]
  have hcontribution : (w.audited audit).contribution = w.contribution := by
    funext invoiceId t
    rw [contribution, contribution, hcredited]
  refine ⟨hw.toWellFormed.audited audit, ?_, ?_, ?_⟩
  · rw [hcredited]
    exact hw.credited_stored
  · intro t ht hstatus
    rw [World.Fresh, hcredited]
    exact hw.unmatched_fresh t ht hstatus
  · intro invoice hmem
    rw [creditedUnits, hcontribution]
    exact hw.paid invoice hmem

theorem Balanced.uncredited_invoice
    (hnew : invoiceId ∉ w.invoices.map (·.invoiceId)) (transactionId : String) :
    w.credited invoiceId transactionId = false := by
  by_contra h
  exact hnew (hw.credited_stored _ _ (Bool.eq_true_of_not_eq_false h)).1

theorem Balanced.uncredited_transaction
    (hnew : transactionId ∉ w.transactions.map (·.transactionId))
    (invoiceId : String) : w.credited invoiceId transactionId = false := by
  by_contra h
  exact hnew (hw.credited_stored _ _ (Bool.eq_true_of_not_eq_false h)).2

theorem Balanced.newInvoice (hnew : invoice.invoiceId ∉ w.invoices.map (·.invoiceId))
    (hexpected : invoice.expectedAmount = fromUnits expected)
    (hpaid : invoice.paidAmount = fromUnits 0) : Balanced (w.withInvoice invoice) := by
  have hrows : (w.withInvoice invoice).invoices = w.invoices ++ [invoice] :=
    upsert_of_not_mem hnew
  refine ⟨hw.toWellFormed.withInvoice invoice hexpected hpaid, ?_, hw.unmatched_fresh, ?_⟩
  · intro invoiceId transactionId hcredited
    rcases hw.credited_stored _ _ hcredited with ⟨hinvoice, htransaction⟩
    rw [hrows, map_append]
    exact ⟨mem_append_left _ hinvoice, htransaction⟩
  · intro invoice' hmem
    rcases mem_upsert hw.invoiceIds hmem with rfl | ⟨hold, -⟩
    · have hnone : w.contribution invoice'.invoiceId = fun _ => 0 := by
        funext t
        simp [contribution, hw.uncredited_invoice hnew]
      have hunits : (w.withInvoice invoice').creditedUnits invoice'.invoiceId = 0 := by
        change (w.transactions.map (w.contribution invoice'.invoiceId)).sum = 0
        rw [hnone]
        simp
      rw [hpaid, unitsOf_fromUnits, hunits]
    · exact hw.paid invoice' hold

theorem Balanced.newTransaction (hnew : t.transactionId ∉ w.transactions.map (·.transactionId))
    (hunits : t.amount = fromUnits units) : Balanced (w.withTransaction t) := by
  have hrows : (w.withTransaction t).transactions = w.transactions ++ [t] := upsert_of_not_mem hnew
  refine ⟨hw.toWellFormed.withTransaction hunits, ?_, ?_, ?_⟩
  · intro invoiceId transactionId hcredited
    rcases hw.credited_stored _ _ hcredited with ⟨hinvoice, htransaction⟩
    rw [hrows, map_append]
    exact ⟨hinvoice, mem_append_left _ htransaction⟩
  · intro r hr hstatus
    rcases mem_upsert hw.transactionIds hr with rfl | ⟨hold, -⟩
    · exact Or.inr (hw.uncredited_transaction hnew)
    · exact hw.unmatched_fresh r hold hstatus
  · intro invoice hmem
    have hzero : w.contribution invoice.invoiceId t = 0 := by
      simp [contribution, hw.uncredited_transaction hnew]
    change unitsOf invoice.paidAmount =
      ((w.withTransaction t).transactions.map (w.contribution invoice.invoiceId)).sum
    rw [hrows, map_append, sum_append, map_singleton, sum_singleton, hzero]
    exact hw.paid invoice hmem

omit hw

/-! ## Calls -/

theorem reconcileCandidates_balanced (hcfg : cfg.VarianceReadable)
    (invoice : Invoice) (reason : String) (candidates : List StellarTransaction)
    (hw : Balanced w) (hnodup : (candidates.map (·.transactionId)).Nodup)
    (hcandidates : ∀ t ∈ candidates, t ∈ w.transactions ∧
      (matchesInvoice t invoice = true → w.Fresh t)) :
    ∃ w', eval perform (reconcileCandidates cfg invoice reason candidates) w =
      (.ok (), w') ∧ Balanced w' := by
  induction candidates generalizing w with
  | nil => exact ⟨w, rfl, hw⟩
  | cons t candidates ih =>
    rw [map_cons, nodup_cons] at hnodup
    rcases hcandidates t mem_cons_self with ⟨ht, hfresh⟩
    by_cases hmatches : matchesInvoice t invoice = true
    · rcases hw.transaction_amounts t ht with ⟨units, hunits⟩
      have hrec := reconcileTransaction_reconciled cfg hw.invoice_amounts hunits (some reason)
      obtain ⟨status, hresult, hstatus⟩ := hrec.result hcfg (hfresh hmatches)
      generalize heval : eval perform (reconcileTransaction cfg t (some reason)) w = p
        at hrec hresult hstatus
      obtain ⟨result, w'⟩ := p
      cases hresult
      have hrest : ∀ r ∈ candidates,
          r ∈ (w'.withTransaction { t with status := status }).transactions ∧
          (matchesInvoice r invoice = true →
            (w'.withTransaction { t with status := status }).Fresh r) := by
        intro r hr
        have hne : r.transactionId ≠ t.transactionId := by
          intro hid
          exact hnodup.1 (hid ▸ mem_map_of_mem hr)
        rcases hcandidates r (mem_cons_of_mem _ hr) with ⟨hstored, hfresh'⟩
        refine ⟨?_, fun hm => ?_⟩
        · exact mem_upsert_of_ne (hrec.transactions ▸ hstored) hne
        · exact hrec.fresh_other hne (hfresh' hm)
      rcases ih (hrec.balanced hw ht (hfresh hmatches) hstatus) hnodup.2 hrest
        with ⟨w'', heval', hw''⟩
      refine ⟨w'', ?_, hw''⟩
      simp only [reconcileCandidates, hmatches, if_true]
      rw [eval_bind, heval]
      exact heval'
    · rcases ih hw hnodup.2 fun r hr => hcandidates r (mem_cons_of_mem _ hr) with ⟨w', heval, hw'⟩
      refine ⟨w', ?_, hw'⟩
      simpa [reconcileCandidates, hmatches] using heval

theorem mem_selectTransactions {destinationAccount assetCode : String}
    {statuses : List TransactionStatus}
    (h : t ∈ w.selectTransactions destinationAccount assetCode statuses) :
    t ∈ w.transactions ∧ t.status ∈ statuses := by
  rw [selectTransactions, byObservedAt, (perm_insertionSort _ _).mem_iff, mem_filter] at h
  exact ⟨h.1, (of_decide_eq_true h.2).2.2⟩

theorem nodup_selectTransactions
    (hids : (w.transactions.map (·.transactionId)).Nodup) (destinationAccount assetCode : String)
    (statuses : List TransactionStatus) :
    ((w.selectTransactions destinationAccount assetCode statuses).map (·.transactionId)).Nodup := by
  have hsub : ∀ p : StellarTransaction → Bool,
      ((w.transactions.filter p).map (·.transactionId)).Nodup := by
    intro p
    exact hids.sublist (filter_sublist.map _)
  exact ((perm_insertionSort _ _).map _).nodup_iff.mpr (hsub _)

theorem fromUnits_zero : fromUnits 0 = "0.0000000" := by
  decide

/-- What `createInvoice` does: it finds the invoice, rejects its amount, or stores it and goes
through the candidates. -/
theorem eval_createInvoice (cfg : ServiceConfig) (dto : CreateInvoiceDto) (w : World) :
    (∃ existing, eval perform (createInvoice cfg dto) w = (.ok existing, w)) ∨
      dto.invoiceId ∉ w.invoices.map (·.invoiceId) ∧
      ((∃ e, eval perform (createInvoice cfg dto) w = (.error e, w)) ∨
        ∃ invoice expected, invoice.invoiceId = dto.invoiceId ∧
          invoice.expectedAmount = fromUnits expected ∧ invoice.paidAmount = fromUnits 0 ∧
          eval perform (createInvoice cfg dto) w = eval perform
            (reconcileCandidates cfg invoice "Invoice registered after payment"
              ((w.withInvoice invoice).selectTransactions invoice.destinationAccount
                invoice.assetCode [.unmatched]) >>= fun _ => .done invoice)
            (w.withInvoice invoice)) := by
  have hfind : eval perform (createInvoice cfg dto) w =
      eval perform (createInvoiceWith cfg dto
        (w.invoices.find? (·.invoiceId = dto.invoiceId))) w := rfl
  rw [hfind]
  cases hfound : w.invoices.find? (·.invoiceId = dto.invoiceId) with
  | some existing => exact .inl ⟨existing, rfl⟩
  | none =>
    refine .inr ⟨not_mem_of_find?_eq_none hfound, ?_⟩
    rcases hamount : normalizeAmount "Stellar" dto.expectedAmount with e | expectedAmount
    · exact .inl ⟨e, by simp [createInvoiceWith, hamount]⟩
    · obtain ⟨expected, -, hexpected⟩ := normalizeAmount_ok hamount
      refine .inr ⟨newInvoice cfg dto expectedAmount, expected, rfl, hexpected,
        fromUnits_zero.symm, ?_⟩
      simp only [createInvoiceWith, hamount, ofExcept_ok, done_bind]
      rfl

theorem createInvoice_balanced (hcfg : cfg.VarianceReadable) (dto : CreateInvoiceDto)
    (hw : Balanced w) : Balanced (eval perform (createInvoice cfg dto) w).2 := by
  rcases eval_createInvoice cfg dto w with ⟨existing, heval⟩ | ⟨hnew, ⟨e, heval⟩ |
    ⟨invoice, expected, hid, hexpected, hpaid, heval⟩⟩
  · rw [heval]
    exact hw
  · rw [heval]
    exact hw
  · have hw' := hw.newInvoice (hid ▸ hnew) hexpected hpaid
    obtain ⟨w', heval', hw'⟩ := reconcileCandidates_balanced hcfg invoice
      "Invoice registered after payment" _ hw' (nodup_selectTransactions hw'.transactionIds _ _ _)
      fun t ht => by
        obtain ⟨hmem, hstatus⟩ := mem_selectTransactions ht
        exact ⟨hmem, fun _ => hw'.unmatched_fresh t hmem (mem_singleton.mp hstatus)⟩
    rw [heval, eval_bind_of_ok heval']
    exact hw'

theorem storeAndReconcile_balanced (hcfg : cfg.VarianceReadable) (hw : Balanced w)
    (hnew : t.transactionId ∉ w.transactions.map (·.transactionId))
    (hunits : t.amount = fromUnits units) (hstatus : t.status = .unmatched) :
    Balanced (eval perform (storeAndReconcile cfg t) w).2 := by
  have hw' := hw.newTransaction hnew hunits
  have ht : t ∈ (w.withTransaction t).transactions := mem_upsert_self t w.transactions
  have hfresh := hw'.unmatched_fresh t ht hstatus
  have hrec := reconcileTransaction_reconciled cfg hw'.invoice_amounts hunits none
  obtain ⟨status, hresult, hstatus'⟩ := hrec.result hcfg hfresh
  have hbalanced := hrec.balanced hw' ht hfresh hstatus'
  unfold storeAndReconcile reconcileIngested
  rw [eval_bind, eval_saveTransaction]
  simp only
  rw [eval_bind, eval_bind, eval_attempt, hresult]
  exact hbalanced

theorem eval_observedAtOf (dto : IngestTransactionDto) (w : World) :
    ∃ observedAt, eval perform (observedAtOf dto) w = (.ok observedAt, w) := by
  unfold observedAtOf
  split
  · exact ⟨_, rfl⟩
  · exact ⟨_, rfl⟩

theorem eval_ingestTransaction (cfg : ServiceConfig) (dto : IngestTransactionDto) (w : World) :
    (∃ audit : Audit, audit.decision = .retry ∧
        (eval perform (ingestTransaction cfg dto) w).2 = w.audited audit) ∨
      (eval perform (ingestTransaction cfg dto) w).2 = w ∨
      ∃ t units, t.transactionId ∉ w.transactions.map (·.transactionId) ∧
        t.amount = fromUnits units ∧ t.status = .unmatched ∧
        eval perform (ingestTransaction cfg dto) w =
          eval perform (storeAndReconcile cfg t) w := by
  have hfind : eval perform (ingestTransaction cfg dto) w =
      eval perform (ingestTransactionWith cfg dto
        (w.transactions.find? (·.transactionId = dto.transactionId))) w := rfl
  rw [hfind]
  cases hfound : w.transactions.find? (·.transactionId = dto.transactionId) with
  | some existing => exact .inl ⟨_, rfl, rfl⟩
  | none =>
    rcases hamount : normalizeAmount "Stellar" dto.amount with e | amount
    · exact .inr (.inl (by simp [ingestTransactionWith, hamount]))
    · obtain ⟨units, -, hunits⟩ := normalizeAmount_ok hamount
      obtain ⟨observedAt, heval⟩ := eval_observedAtOf dto w
      refine .inr (.inr ⟨newTransaction cfg dto amount observedAt, units,
        not_mem_of_find?_eq_none hfound, hunits, rfl, ?_⟩)
      simp only [ingestTransactionWith, hamount, ofExcept_ok, done_bind]
      exact eval_bind_of_ok heval

theorem ingestTransaction_balanced (hcfg : cfg.VarianceReadable) (dto : IngestTransactionDto)
    (hw : Balanced w) : Balanced (eval perform (ingestTransaction cfg dto) w).2 := by
  rcases eval_ingestTransaction cfg dto w with ⟨audit, hdecision, heval⟩ | heval |
    ⟨t, units, hnew, hunits, hstatus, heval⟩
  · rw [heval]
    exact hw.audited (by simp [credits, hdecision])
  · rw [heval]
    exact hw
  · rw [heval]
    exact storeAndReconcile_balanced hcfg hw hnew hunits hstatus

/-- The `PARTIAL` transactions that match the invoice a manual reconciliation is
asked for have no amount; other calls select none. -/
def Request.SelectsFresh (w : World) : Request → Prop
  | .manualReconcile invoiceId _ =>
    ∀ invoice ∈ w.invoices, invoice.invoiceId = invoiceId →
      ∀ t ∈ w.transactions, t.status = .partly → matchesInvoice t invoice = true →
        unitsOf t.amount = 0
  | _ => True

theorem getInvoice_world (invoiceId : String) (w : World) :
    (eval perform (getInvoice invoiceId) w).2 = w := by
  unfold getInvoice
  rw [eval_bind, eval_findInvoice]
  generalize w.invoices.find? (·.invoiceId = invoiceId) = found
  cases found with
  | none => rfl
  | some invoice => rfl

theorem manualReconcileWith_balanced (hcfg : cfg.VarianceReadable)
    (invoiceId : String) (note : Option String) (hw : Balanced w) (found : Option Invoice)
    (hfound : ∀ invoice, found = some invoice → ∀ t ∈ w.transactions,
      t.status = .partly → matchesInvoice t invoice = true → unitsOf t.amount = 0) :
    Balanced (eval perform (manualReconcileWith cfg invoiceId note found) w).2 := by
  cases found with
  | none => exact hw
  | some invoice =>
    have hcandidates : ∀ t ∈ w.selectTransactions invoice.destinationAccount
        invoice.assetCode [.unmatched, .partly],
        t ∈ w.transactions ∧ (matchesInvoice t invoice = true → w.Fresh t) := by
      intro t ht
      rcases mem_selectTransactions ht with ⟨hmem, hstatus⟩
      refine ⟨hmem, fun hmatches => ?_⟩
      rcases mem_pair.mp hstatus with hunmatched | hpartly
      · exact hw.unmatched_fresh t hmem hunmatched
      · exact Or.inl (hfound invoice rfl t hmem hpartly hmatches)
    rcases reconcileCandidates_balanced hcfg invoice (note.getD "Manual retry") _ hw
      (nodup_selectTransactions hw.transactionIds _ _ _) hcandidates with ⟨w', heval, hw'⟩
    unfold manualReconcileWith
    rw [eval_bind, eval_findTransactions]
    simp only
    rw [eval_bind, heval]
    simp only [getInvoice_world]
    exact hw'

theorem manualReconcile_balanced (hcfg : cfg.VarianceReadable)
    (invoiceId : String) (note : Option String) (hw : Balanced w)
    (hselects : (Request.manualReconcile invoiceId note).SelectsFresh w) :
    Balanced (eval perform (manualReconcile cfg invoiceId note) w).2 := by
  apply manualReconcileWith_balanced hcfg invoiceId note hw
  intro invoice hsome
  have hid : invoice.invoiceId = invoiceId := by
    simpa using find?_some hsome
  exact hselects invoice (mem_of_find?_eq_some hsome) hid

/-! ## Runs -/

theorem Balanced.at (hw : Balanced w) (now : Nat) : Balanced { w with clock := now } :=
  ⟨⟨hw.invoiceIds, hw.transactionIds, hw.invoice_amounts, hw.transaction_amounts⟩,
    hw.credited_stored, hw.unmatched_fresh, hw.paid⟩

theorem World.WellFormed.empty : World.WellFormed {} := by
  constructor <;> simp

theorem Balanced.empty : Balanced {} :=
  ⟨.empty, by simp [credited], by simp, by simp⟩

theorem Request.run_balanced (hcfg : cfg.VarianceReadable) (now : Nat) (request : Request)
    (hw : Balanced w) (hselects : request.SelectsFresh w) : Balanced (request.run cfg now w) := by
  cases request with
  | createInvoice dto => exact createInvoice_balanced hcfg dto (hw.at now)
  | ingestTransaction dto => exact ingestTransaction_balanced hcfg dto (hw.at now)
  | manualReconcile invoiceId note =>
    exact manualReconcile_balanced hcfg invoiceId note (hw.at now) hselects

/-- The worlds a sequence of calls leads to from the empty database, where no call
selects a `PARTIAL` transaction of positive amount. -/
inductive Run (cfg : ServiceConfig) : World → Prop where
  | start : Run cfg {}
  | call {w : World} (hrun : Run cfg w) (now : Nat) (request : Request)
      (hselects : request.SelectsFresh w) : Run cfg (request.run cfg now w)

theorem Run.balanced (hcfg : cfg.VarianceReadable) (hrun : Run cfg w) : Balanced w := by
  induction hrun with
  | start => exact Balanced.empty
  | call _ now request hselects ih => exact request.run_balanced hcfg now ih hselects

/-- After any such sequence the `paidAmount` of every invoice is the sum of the
distinct stored transactions credited to it. -/
theorem paid_eq_credited {cfg : ServiceConfig} (hcfg : cfg.VarianceReadable) {w : World}
    (hrun : Run cfg w) {invoice : Invoice} (hinvoice : invoice ∈ w.invoices) :
    toUnits "Stellar" invoice.paidAmount = .ok (w.creditedUnits invoice.invoiceId) := by
  have hw := hrun.balanced hcfg
  rcases hw.invoice_amounts invoice hinvoice with ⟨_, paid, _, hpaid⟩
  have hcredited := hw.paid invoice hinvoice
  rw [hpaid, unitsOf_fromUnits] at hcredited
  rw [hpaid, toUnits_fromUnits, hcredited]

def sampleInvoice : CreateInvoiceDto where
  invoiceId := "INV-1"
  expectedAmount := "100"
  destinationAccount := "G1"

def samplePayment : IngestTransactionDto where
  transactionId := "tx-1"
  amount := "40"
  destinationAccount := "G1"

def partlyPaid : World :=
  (Request.ingestTransaction samplePayment).run {} 2
    ((Request.createInvoice sampleInvoice).run {} 1 {})

theorem partlyPaid_balanced : ∃ invoice ∈ partlyPaid.invoices,
    toUnits "Stellar" invoice.paidAmount = .ok (partlyPaid.creditedUnits "INV-1") := by
  have hrun : Run {} partlyPaid :=
    (Run.start.call 1 (.createInvoice sampleInvoice) trivial).call 2
      (.ingestTransaction samplePayment) trivial
  have hmem : ∃ invoice ∈ partlyPaid.invoices, invoice.invoiceId = "INV-1" := by
    decide
  rcases hmem with ⟨invoice, hinvoice, hid⟩
  refine ⟨invoice, hinvoice, ?_⟩
  have hpaid := paid_eq_credited (fun _ h => by cases h) hrun hinvoice
  rwa [hid] at hpaid

/-- A manual retry then credits the same payment again: 80 paid by one transaction of
40. -/
theorem manual_retry_credits_twice :
    let w := (Request.manualReconcile "INV-1" none).run {} 3 partlyPaid
    (w.invoices.map fun invoice => toUnits "Stellar" invoice.paidAmount) = [.ok 800000000] ∧
      w.creditedUnits "INV-1" = 400000000 := by
  decide

end Trellis.Reconciliation
