import Trellis.Reconciliation.Horizon

/-!
# Every payment once

Each ingested record either stores a new row and is handed to reconciliation, or finds a row with
its hash. A second record with the same hash is therefore never handed over, and neither is a
record whose row was stored by a save that failed.
-/

namespace Trellis.Reconciliation

open Core List PollWorld HorizonStream Async World

/-! ## The books -/

variable {record : HorizonRecord}

section Books

/-- Where a poll starts: the stream, the ids that were stored before, and the cursor. -/
structure Opening where
  stream : HorizonStream
  initial : List String
  cursor : Option String

/-- Every stored id was there before, belongs to a record that was handed over or lost, or is
pending; the cursor has not moved, and the hashes `kept` are stored. -/
structure Books (o : Opening) (kept pending : List String) (w : PollWorld) : Prop where
  cursor_eq : w.cursor = o.cursor
  kept_stored : kept ⊆ w.tables.ids
  stored : w.tables.ids.Perm
    (pending ++ (o.initial ++ (w.handed ++ w.lost).filterMap (·.ingestedHash)))
  nodup : w.tables.ids.Nodup
  hashed : ∀ record ∈ w.handed ++ w.lost,
    record ∈ o.stream.records ∧ ∃ hash, record.ingestedHash = some hash

variable {o : Opening} {kept pending : List String} {w w' : PollWorld}

theorem Books.congr (h : Books o kept pending w)
    (hids : w'.tables.ids = w.tables.ids) (hcursor : w'.cursor = w.cursor)
    (hhanded : w'.handed = w.handed) (hlost : w'.lost = w.lost) : Books o kept pending w' where
  cursor_eq := hcursor.trans h.cursor_eq
  kept_stored := by
    rw [hids]
    exact h.kept_stored
  stored := by
    rw [hids, hhanded, hlost]
    exact h.stored
  nodup := by
    rw [hids]
    exact h.nodup
  hashed := by
    rw [hhanded, hlost]
    exact h.hashed

/-- An operation that stores no new row and does not begin a reconciliation. -/
def IsQuiet (op : Op) (w : PollWorld) : Prop :=
  match op with
  | .saveTransaction t => t.transactionId ∈ w.tables.ids
  | .findOldestInvoice _ => False
  | _ => True

variable {op : Op}

theorem ids_perform_quiet (hop : IsQuiet op w) : (perform op w.tables).2.ids = w.tables.ids := by
  cases op with
  | saveTransaction t => exact map_key_upsert_of_mem hop
  | findOldestInvoice _ => exact hop.elim
  | findInvoice _ | saveInvoice _ | findTransaction _ | findTransactions _ _ _ | saveAudit _
  | findAudits _ | now => rfl

theorem handOver_quiet (hop : IsQuiet op w) : w.handOver record op = w := by
  cases op with
  | findOldestInvoice _ => exact hop.elim
  | findInvoice _ | saveInvoice _ | findTransaction _ | findTransactions _ _ _ | saveAudit _
  | findAudits _ | saveTransaction _ | now => rfl

theorem Books.store_quiet (h : Books o kept pending w)
    (record : HorizonRecord) (op : Op) (hop : IsQuiet op w) (c : PollChoice) :
    Books o kept pending (w.store record op c).2 := by
  have hids := ids_perform_quiet hop
  unfold store
  rw [handOver_quiet hop]
  cases c with
  | rejected e => exact h
  | lost e =>
    refine h.congr hids rfl rfl ?_
    cases op with
    | saveTransaction t => exact if_pos hop
    | findOldestInvoice _ => exact hop.elim
    | findInvoice _ | saveInvoice _ | findTransaction _ | findTransactions _ _ _
    | saveAudit _ | findAudits _ | now => rfl
  | served _ | status _ | malformed _ => exact h.congr hids rfl rfl rfl

variable {record : HorizonRecord} {hash : String}

theorem Books.store_new (h : Books o kept [] w)
    (hrecord : record ∈ o.stream.records) (hhash : record.ingestedHash = some hash)
    {t : StellarTransaction} (ht : t.transactionId = hash) (hnew : hash ∉ w.tables.ids)
    (c : PollChoice) :
    match w.store record (.saveTransaction t) c with
    | (.ok _, w') => Books o (hash :: kept) [hash] w'
    | (.error _, w') => Books o kept [] w' := by
  subst ht
  have hids : (perform (.saveTransaction t) w.tables).2.ids =
      w.tables.ids ++ [t.transactionId] := by
    have hrows : (perform (.saveTransaction t) w.tables).2.transactions =
        w.tables.transactions ++ [t] := upsert_of_not_mem hnew
    rw [ids, hrows, map_append]
    rfl
  have hnodup : (w.tables.ids ++ [t.transactionId]).Nodup :=
    h.nodup.append (nodup_singleton _) (disjoint_singleton.mpr hnew)
  have hkept : t.transactionId :: kept ⊆ w.tables.ids ++ [t.transactionId] := by
    refine cons_subset.mpr ⟨mem_append_right _ mem_cons_self, ?_⟩
    exact List.Subset.trans h.kept_stored (subset_append_left _ _)
  have hstored : (w.tables.ids ++ [t.transactionId]).Perm (t.transactionId ::
      (o.initial ++ (w.handed ++ w.lost).filterMap (·.ingestedHash))) :=
    (perm_append_singleton _ _).trans (h.stored.cons _)
  have hserved : Books o (t.transactionId :: kept) [t.transactionId]
      { w with tables := (perform (.saveTransaction t) w.tables).2 } :=
    ⟨h.cursor_eq, by rw [hids]; exact hkept, by rw [hids]; exact hstored,
      by rw [hids]; exact hnodup, h.hashed⟩
  cases c with
  | rejected e => exact h
  | served _ | status _ | malformed _ => exact hserved
  | lost e =>
    change Books o kept [] { w with
      tables := (perform (.saveTransaction t) w.tables).2
      lost := if t.transactionId ∈ w.tables.ids then w.lost else record :: w.lost }
    rw [if_neg hnew]
    refine ⟨h.cursor_eq, ?_, ?_, hserved.nodup, fun r hr => ?_⟩
    · exact List.Subset.trans (subset_cons_self _ _) hserved.kept_stored
    · -- the new id stands for the record that was lost
      refine hserved.stored.trans ?_
      simp only [nil_append, filterMap_append, filterMap_cons, hhash, singleton_append]
      rw [← append_assoc, ← append_assoc]
      exact perm_middle.symm
    · rcases mem_append.mp hr with hold | hr
      · exact h.hashed r (mem_append_left _ hold)
      · rcases mem_cons.mp hr with rfl | hold
        · exact ⟨hrecord, _, hhash⟩
        · exact h.hashed r (mem_append_right _ hold)

theorem Books.store_handOver (h : Books o kept [hash] w)
    (hrecord : record ∈ o.stream.records) (hhash : record.ingestedHash = some hash)
    (destinationAccount : String) (c : PollChoice) : Books o kept []
      (w.store record (.findOldestInvoice destinationAccount) c).2 := by
  have hhanded : Books o kept [] { w with handed := record :: w.handed } := by
    refine ⟨h.cursor_eq, h.kept_stored, h.stored.trans ?_, h.nodup, fun r hr => ?_⟩
    · simp only [nil_append, cons_append, filterMap_cons, hhash]
      exact perm_middle.symm
    · rcases mem_cons.mp hr with rfl | hold
      · exact ⟨hrecord, hash, hhash⟩
      · exact h.hashed r hold
  cases c with
  | rejected e => exact hhanded
  | lost e => exact hhanded.congr rfl rfl rfl rfl
  | served _ | status _ | malformed _ => exact hhanded.congr rfl rfl rfl rfl

end Books

/-! ## One ingestion -/

def storeSemantics (record : HorizonRecord) :
    Semantics reconciliationInterface Failure Unit PollWorld where
  Choice := PollChoice
  perform _ op c w := some (PollWorld.store record op c
    { w with operations := w.operations + 1 })
  Event := Empty
  happen e := e.elim

variable {w : PollWorld}

section Ingestion

variable {o : Opening} {kept pending : List String} {record : HorizonRecord} {hash : String}

abbrev PollFact : Type :=
  Assertion (Contract.solo fun _ : PollWorld => True)

variable (o kept pending) in
abbrev books : PollFact :=
  .solo (Books o kept pending)

variable (h : Books o kept pending w)
include h

theorem Books.counted : Books o kept pending { w with operations := w.operations + 1 } :=
  h.congr rfl rfl rfl rfl

theorem Books.keep {kept' : List String}
    (hkept : kept' ⊆ kept) : Books o kept' pending w :=
  ⟨h.cursor_eq, List.Subset.trans hkept h.kept_stored, h.stored, h.nodup, h.hashed⟩

omit h

variable {P E : PollFact}

variable (record) in
abbrev StoreTriple {α : Type} (P : PollFact)
    (p : Program α) (R : α → PollFact)
    (E : PollFact) : Prop :=
  Triple (storeSemantics record) (anyStep _) () P p R E

variable (o kept pending record) in
/-- The program hands over what is pending, or rejects with the books in order. -/
abbrev KeepsBooks {α : Type} (p : Program α) (φ : α → Prop) : Prop :=
  StoreTriple record (books o kept pending) p
    (fun a => (books o kept []).given (φ a))
    (books o kept [])

theorem triple_store {op : Op} {R : op.Res → PollFact}
    (h : ∀ w c r w', P w → store record op c { w with operations := w.operations + 1 } =
      (r, w') → outcome (ε := Failure) R E r w') : StoreTriple record P (ask op) R E :=
  triple_call fun w c r w' _ hP _ hperf =>
    ⟨trivial, trivial, h w c r w' hP (Option.some.inj hperf)⟩

theorem triple_quiet (op : Op)
    (hop : ∀ w, Books o kept pending w → IsQuiet op w) :
    StoreTriple record (books o kept pending) (ask op)
      (fun _ => books o kept pending)
      (books o kept pending) := by
  refine triple_store fun w c r w' hbooks hstore => ?_
  have hafter := hbooks.counted.store_quiet record op (hop _ hbooks.counted) c
  rw [hstore] at hafter
  cases r with
  | ok a => exact hafter
  | error e => exact hafter

theorem triple_leaveUnmatched (t : StellarTransaction) (invoiceId reason : Option String) :
    KeepsBooks o kept [] record (leaveUnmatched t invoiceId reason)
      (·.transactionId = t.transactionId) :=
  triple_bind (triple_quiet (.saveAudit _) fun _ _ => trivial) fun _ =>
    triple_done fun _ _ h => ⟨rfl, h⟩

variable (cfg : ServiceConfig)

theorem triple_credit (t : StellarTransaction) (invoice : Invoice) (reason : Option String) :
    KeepsBooks o kept [] record (credit cfg t invoice reason)
      (·.transactionId = t.transactionId) := by
  refine triple_ofExcept (fun _ _ h => h) fun paidBefore _ => ?_
  refine triple_ofExcept (fun _ _ h => h) fun amount _ => ?_
  refine triple_ofExcept (fun _ _ h => h) fun expectedUnits _ => ?_
  refine triple_bind (triple_quiet (.saveInvoice _) fun _ _ => trivial) fun _ => ?_
  refine triple_bind (triple_quiet (.saveAudit _) fun _ _ => trivial) fun _ => ?_
  exact triple_ofExcept (fun _ _ h => h) fun _ _ => triple_done fun _ _ h => ⟨rfl, h⟩

variable (hrecord : record ∈ o.stream.records) (hhash : record.ingestedHash = some hash)
include hrecord hhash

theorem triple_reconcileTransaction (t : StellarTransaction) (reason : Option String) :
    KeepsBooks o kept [hash] record (reconcileTransaction cfg t reason)
      (·.transactionId = t.transactionId) := by
  have hfind : StoreTriple record (books o kept [hash])
      (findOldestInvoice t.destinationAccount) (fun _ => books o kept [])
      (books o kept []) := by
    refine triple_store fun w c r w' hbooks hstore => ?_
    have hafter := hbooks.counted.store_handOver hrecord hhash t.destinationAccount c
    rw [hstore] at hafter
    cases r with
    | ok a => exact hafter
    | error e => exact hafter
  refine triple_bind hfind fun invoice => ?_
  cases invoice with
  | none => exact triple_leaveUnmatched t none reason
  | some invoice =>
    exact triple_ite (fun _ => triple_credit cfg t invoice reason)
      fun _ => triple_leaveUnmatched t _ reason

theorem triple_reconcileIngested (saved : StellarTransaction) :
    KeepsBooks o kept [hash] record (reconcileIngested cfg saved)
      (·.transactionId = saved.transactionId) := by
  refine triple_catch (triple_reconcileTransaction cfg hrecord hhash saved none)
    (fun reconciled => triple_done fun _ _ h => h) fun e => ?_
  exact triple_bind (triple_quiet (.saveAudit _) fun _ _ => trivial) fun _ =>
    triple_done fun _ _ h => ⟨rfl, h⟩

variable (o kept hash) in
/-- The books are in order and the hash is not stored. -/
abbrev unstored : PollFact :=
  .solo fun w => Books o kept [] w ∧ hash ∉ w.tables.ids

theorem triple_storeAndReconcile {t : StellarTransaction} (ht : t.transactionId = hash) :
    StoreTriple record (unstored o kept hash) (storeAndReconcile cfg t)
      (fun _ => books o (hash :: kept) [])
      (books o kept []) := by
  have hsave : StoreTriple record (unstored o kept hash) (saveTransaction t)
      (fun saved => (books o (hash :: kept) [hash]).given (saved = t))
      (books o kept []) := by
    refine triple_store fun w c r w' hP hstore => ?_
    have hafter := hP.1.counted.store_new hrecord hhash ht hP.2 c
    rw [hstore] at hafter
    cases r with
    | error e => exact hafter
    | ok a =>
      refine ⟨?_, hafter⟩
      cases c with
      | rejected e | lost e => cases hstore
      | served _ | status _ | malformed _ =>
        cases hstore
        rfl
  refine triple_bind hsave fun saved => ?_
  refine triple_given fun hsaved => ?_
  subst hsaved
  refine triple_error (triple_bind (triple_reconcileIngested cfg hrecord hhash saved)
    fun reconciled => ?_) fun w _ h => h.keep (subset_cons_self _ _)
  refine triple_given fun hid => triple_quiet (.saveTransaction reconciled) fun w h => ?_
  exact h.kept_stored (by rw [hid, ht]; exact mem_cons_self)

/-- What one ingestion does: it resolves with the hash stored, and keeps the books in any
case. -/
theorem triple_ingestTransaction : StoreTriple record (books o kept [])
    (ingestTransaction cfg (record.toDto hash))
    (fun _ => books o (hash :: kept) [])
    (books o kept []) := by
  let R : Option StellarTransaction → PollFact :=
    fun found => found.elim (unstored o kept hash) fun _ => books o (hash :: kept) []
  have hfind : StoreTriple record (books o kept []) (findTransaction hash) R
      (books o kept []) := by
    refine triple_store fun w c r w' hbooks hstore => ?_
    have hafter := hbooks.counted.store_quiet record (.findTransaction hash) trivial c
    rw [hstore] at hafter
    cases r with
    | error e => exact hafter
    | ok found =>
      obtain ⟨hfound, hids⟩ : w.tables.transactions.find? (·.transactionId = hash) = found ∧
          w'.tables.ids = w.tables.ids := by
        cases c with
        | rejected e | lost e => cases hstore
        | served _ | status _ | malformed _ =>
          cases hstore
          exact ⟨rfl, rfl⟩
      cases found with
      | some t =>
        refine ⟨hafter.cursor_eq, ?_, hafter.stored, hafter.nodup, hafter.hashed⟩
        refine cons_subset.mpr ⟨?_, hafter.kept_stored⟩
        have hid : t.transactionId = hash := by simpa using find?_some hfound
        rw [hids, ← hid]
        exact mem_map_of_mem (mem_of_find?_eq_some hfound)
      | none =>
        refine ⟨hafter, fun hmem => ?_⟩
        rw [hids] at hmem
        exact not_mem_of_find?_eq_none hfound hmem
  refine triple_bind hfind fun found => ?_
  cases found with
  | some existing =>
    refine triple_error (E := books o (hash :: kept) [])
      (triple_bind (triple_quiet (.saveAudit _) fun _ _ => trivial)
        fun _ => triple_done fun _ _ h => h) fun w _ h => h.keep (subset_cons_self _ _)
  | none =>
    refine triple_ofExcept (fun _ _ h => h.1) fun amount _ => ?_
    have hnow : StoreTriple record (unstored o kept hash)
        (observedAtOf (record.toDto hash))
        (fun _ => unstored o kept hash)
        (books o kept []) := by
      refine triple_store fun w c r w' hP hstore => ?_
      have hafter := hP.1.counted.store_quiet record .now trivial c
      have hids : (store record .now c
          { w with operations := w.operations + 1 }).2.tables.ids = w.tables.ids := by
        cases c <;> rfl
      rw [hstore] at hafter hids
      cases r with
      | ok _ => exact ⟨hafter, hids ▸ hP.2⟩
      | error _ => exact hafter
    exact triple_bind hnow fun observedAt =>
      triple_storeAndReconcile cfg hrecord hhash rfl

end Ingestion

/-! ## One poll -/

def pollSemantics (stream : HorizonStream) : Semantics pollInterface Failure Unit PollWorld where
  Choice := PollChoice
  perform _ op c w := some (PollWorld.perform stream c op
    { w with operations := w.operations + 1 })
  Event := Empty
  happen e := e.elim

def hashesOf (records : List HorizonRecord) : List String :=
  records.filterMap (·.ingestedHash)

section Poll

variable {stream : HorizonStream} {initial : List String} {cursor : Option String}
  {kept : List String} {seen rest : List HorizonRecord} {token : String}

theorem HorizonStream.after_token (hrecords : stream.records = seen ++ record :: rest)
    (htoken : record.pagingToken = .str token) : stream.after (some token) = rest := by
  have hnodup := stream.tokens_nodup
  rw [hrecords, filterMap_append, filterMap_cons, htoken] at hnodup
  have hseen : ∀ r ∈ seen, decide (r.pagingToken ≠ .str token) = true := by
    intro r hr
    refine decide_eq_true fun heq => ?_
    have hmem : token ∈ seen.filterMap (·.pagingToken.text?) :=
      mem_filterMap.mpr ⟨r, hr, by rw [heq]; rfl⟩
    exact disjoint_of_nodup_append hnodup hmem mem_cons_self
  rw [after, hrecords, dropWhile_append_of_pos hseen, dropWhile_cons_of_neg (by simp [htoken])]
  rfl

theorem HorizonStream.token_ne_empty (hrecord : record ∈ stream.records)
    (htoken : record.pagingToken = .str token) : token ≠ "" := by
  rintro rfl
  exact stream.tokens_truthy (mem_filterMap.mpr ⟨record, hrecord, by rw [htoken]; rfl⟩)

variable (stream initial) in
/-- The hashes of all records up to the cursor are stored. -/
structure Covered (w : PollWorld) : Prop where
  covered : ∃ done, stream.records = done ++ stream.after w.cursor ∧
    Books ⟨stream, initial, w.cursor⟩ (hashesOf done) [] w
  cursor_truthy : w.cursor ≠ some ""

variable (stream) in
/-- The loop has come to the records after `seen`; the cursor may be behind it. -/
structure Reached (cursor : Option String) (seen : List HorizonRecord) : Prop where
  behind : ∃ done, done <+: seen ∧ stream.records = done ++ stream.after cursor
  truthy : cursor ≠ some ""

theorem Reached.covered (h : Reached stream cursor seen)
    (hbooks : Books ⟨stream, initial, cursor⟩ (hashesOf seen) [] w) : Covered stream initial w := by
  obtain ⟨done, hbegin, hrecords⟩ := h.behind
  have hcursor := hbooks.cursor_eq
  subst hcursor
  have hsub : hashesOf done ⊆ hashesOf seen := (hbegin.sublist.filterMap _).subset
  exact ⟨⟨done, hrecords, hbooks.keep hsub⟩, h.truthy⟩

variable (stream initial) in
abbrev covered : PollFact :=
  .solo (Covered stream initial)

variable (stream) in
abbrev PollTriple {α : Type} (P : PollFact)
    (p : PollProgram α) (R : α → PollFact)
    (E : PollFact) : Prop :=
  Triple (pollSemantics stream) (anyStep _) () P p R E

theorem triple_getCursor : PollTriple stream (books ⟨stream, initial, cursor⟩ kept [])
    (askPoll .getCursor)
    (fun found : Option String =>
      (books ⟨stream, initial, cursor⟩ kept []).given (found = cursor))
    (books ⟨stream, initial, cursor⟩ kept []) := by
  refine triple_call fun w c r w' _ hbooks _ hperf => ?_
  cases hperf
  exact ⟨trivial, trivial, hbooks.cursor_eq, hbooks.counted⟩

theorem triple_setCursor (token : String) : PollTriple stream (books ⟨stream, initial, cursor⟩ kept [])
    (askPoll (.setCursor token))
    (fun _ : Unit => books ⟨stream, initial, some token⟩ kept [])
    (books ⟨stream, initial, cursor⟩ kept []) := by
  refine triple_call fun w c r w' _ hbooks _ hperf => ?_
  cases hperf
  exact ⟨trivial, trivial, rfl, hbooks.kept_stored, hbooks.stored, hbooks.nodup, hbooks.hashed⟩

theorem triple_fetch (cursor' : Option String) :
    PollTriple stream (books ⟨stream, initial, cursor⟩ kept []) (askPoll (.fetch cursor'))
      (fun _ : Nat => books ⟨stream, initial, cursor⟩ kept [])
      (books ⟨stream, initial, cursor⟩ kept []) := by
  refine triple_call fun w c r w' _ hbooks _ hperf => ?_
  cases c <;> cases hperf <;> exact ⟨trivial, trivial, hbooks.counted⟩

theorem triple_json (cursor' : Option String) :
    PollTriple stream (books ⟨stream, initial, cursor⟩ kept []) (askPoll (.json cursor'))
      (fun payload : Payload => (books ⟨stream, initial, cursor⟩ kept []).given
        (∀ page, payload = .records page → page <+: stream.after cursor'))
      (books ⟨stream, initial, cursor⟩ kept []) := by
  refine triple_call fun w c r w' _ hbooks _ hperf => ?_
  have hafter := hbooks.counted
  cases c with
  | rejected e | lost e =>
    cases hperf
    exact ⟨trivial, trivial, hafter⟩
  | malformed missing =>
    cases missing <;> cases hperf <;>
      exact ⟨trivial, trivial, fun _ h => Payload.noConfusion h, hafter⟩
  | served limit =>
    cases hperf
    exact ⟨trivial, trivial, fun _ h => by cases h; exact take_prefix _ _, hafter⟩
  | status code =>
    cases hperf
    exact ⟨trivial, trivial, fun _ h => by cases h; exact prefix_rfl, hafter⟩

theorem triple_saveRetryAudit (audit : Audit) : PollTriple stream (covered stream initial)
    (askPoll (.saveAudit audit))
    (fun _ : Audit => covered stream initial) (covered stream initial) := by
  refine triple_call fun w c r w' _ hcovered _ hperf => ?_
  obtain ⟨⟨done, hrecords, hbooks⟩, htruthy⟩ := hcovered
  cases c <;> cases hperf <;>
    exact ⟨trivial, trivial, ⟨done, hrecords, hbooks.congr rfl rfl rfl rfl⟩, htruthy⟩

theorem triple_advanceCursor
    (hrecords : stream.records = seen ++ record :: rest) (hreached : Reached stream cursor seen) :
    PollTriple stream
      (books ⟨stream, initial, cursor⟩ (hashesOf (seen ++ [record])) []) (advanceCursor record)
      (fun _ => .solo fun w => ∃ cursor', Reached stream cursor' (seen ++ [record]) ∧
        Books ⟨stream, initial, cursor'⟩ (hashesOf (seen ++ [record])) [] w)
      (covered stream initial) := by
  obtain ⟨done, hbegin, hdone⟩ := hreached.behind
  have hbehind : Reached stream cursor (seen ++ [record]) :=
    ⟨⟨done, hbegin.trans (prefix_append _ _), hdone⟩, hreached.truthy⟩
  cases htoken : record.pagingToken with
  | str token =>
    have hmoved : Reached stream (some token) (seen ++ [record]) := by
      refine ⟨⟨seen ++ [record], prefix_rfl, ?_⟩, fun h => ?_⟩
      · rw [after_token hrecords htoken, hrecords, append_assoc]
        rfl
      · have hmem : record ∈ stream.records := by
          rw [hrecords]
          exact mem_append_right _ mem_cons_self
        exact token_ne_empty hmem htoken (Option.some.inj h)
    unfold advanceCursor
    rw [htoken]
    exact triple_weaken (triple_setCursor token) (fun _ _ _ h => ⟨_, hmoved, h⟩)
      fun _ _ h => hbehind.covered h
  | undefined | null | num _ | other _ =>
    unfold advanceCursor
    rw [htoken]
    exact triple_done fun _ _ h => ⟨cursor, hbehind, h⟩

theorem triple_ingestRecord {hash : String} (hrecord : record ∈ stream.records)
    (hhash : record.ingestedHash = some hash) (cfg : ServiceConfig) :
    PollTriple stream (books ⟨stream, initial, cursor⟩ kept [])
      (ingestRecord cfg record hash) (fun _ => books ⟨stream, initial, cursor⟩ (hash :: kept) [])
      (books ⟨stream, initial, cursor⟩ kept []) := by
  refine triple_lift (fun op c r w w' hperf => ⟨c, trivial, ?_⟩)
    (triple_ingestTransaction cfg hrecord hhash)
  cases r with
  | ok _ => exact hperf
  | error _ => exact hperf

theorem hashesOf_snoc (seen : List HorizonRecord) (record : HorizonRecord) :
    hashesOf (seen ++ [record]) = hashesOf seen ++ record.ingestedHash.toList := by
  cases hhash : record.ingestedHash <;> simp [hashesOf, hhash]

variable (cfg : ServiceConfig)

theorem triple_ingestRecords (page : List HorizonRecord) :
    ∀ (seen rest : List HorizonRecord) (cursor : Option String) (ingested : Nat),
      stream.records = seen ++ (page ++ rest) → Reached stream cursor seen → PollTriple stream
        (books ⟨stream, initial, cursor⟩ (hashesOf seen) []) (ingestRecords cfg page ingested)
        (fun _ => covered stream initial) (covered stream initial) := by
  induction page with
  | nil =>
    intro seen rest cursor ingested _ hreached
    exact triple_done fun _ _ h => hreached.covered h
  | cons record page ih =>
    intro seen rest cursor ingested hrecords hreached
    have hmem : record ∈ stream.records := by
      rw [hrecords]
      exact mem_append_right _ (mem_append_left _ mem_cons_self)
    -- the cursor moves past the record, and the loop goes on behind it
    have hnext : ∀ count, PollTriple stream
        (books ⟨stream, initial, cursor⟩ (hashesOf (seen ++ [record])) [])
        (advanceCursor record >>= fun _ => ingestRecords cfg page count)
        (fun _ => covered stream initial) (covered stream initial) := by
      intro count
      refine triple_bind (triple_advanceCursor hrecords hreached) fun _ => ?_
      refine triple_choose fun w _ hafter => ?_
      obtain ⟨cursor', hreached', hbooks⟩ := hafter
      refine ⟨books ⟨stream, initial, cursor'⟩ _ [], hbooks, ?_⟩
      refine ih (seen ++ [record]) rest cursor' count ?_ hreached'
      rw [hrecords, append_assoc]
      rfl
    cases hhash : record.ingestedHash with
    | none =>
      rw [ingestRecords, hhash]
      refine triple_pre (hnext ingested) fun w _ h => ?_
      rw [hashesOf_snoc, hhash, Option.toList_none, append_nil]
      exact h
    | some hash =>
      rw [ingestRecords, hhash]
      refine triple_bind (triple_error (triple_ingestRecord hmem hhash cfg) fun _ _ h =>
        hreached.covered h) fun _ => ?_
      refine triple_pre (hnext (ingested + 1)) fun w _ h => h.keep ?_
      rw [hashesOf_snoc, hhash]
      exact (perm_append_singleton _ _).subset

theorem triple_pollPage {done : List HorizonRecord}
    (hrecords : stream.records = done ++ stream.after cursor) (htruthy : cursor ≠ some "") :
    PollTriple stream (books ⟨stream, initial, cursor⟩ (hashesOf done) []) (pollPage cfg cursor)
      (fun _ => covered stream initial) (covered stream initial) := by
  have hreached : Reached stream cursor done :=
    ⟨⟨done, prefix_rfl, hrecords⟩, htruthy⟩
  refine triple_bind (triple_error (triple_fetch cursor)
    fun _ _ h => hreached.covered h) fun status => ?_
  refine triple_ite (fun _ => ?_) fun _ => triple_throw fun _ _ h => hreached.covered h
  refine triple_bind (triple_error (triple_json cursor)
    fun _ _ h => hreached.covered h) fun payload => ?_
  refine triple_given fun hpage => ?_
  cases payload with
  | missing => exact triple_done fun _ _ h => hreached.covered h
  | notArray => exact triple_throw fun _ _ h => hreached.covered h
  | records page =>
    obtain ⟨rest, hrest⟩ := hpage page rfl
    refine triple_ingestRecords cfg page done rest cursor 0 ?_ hreached
    rw [hrest]
    exact hrecords

theorem triple_pollHorizon (account : Option String) : PollTriple stream (covered stream initial)
    (pollHorizon cfg account) (fun _ => covered stream initial)
    (covered stream initial) := by
  refine triple_ite (fun _ => ?_) fun _ => triple_done fun _ _ h => h
  refine triple_choose fun w _ hcovered => ?_
  obtain ⟨⟨done, hrecords, hbooks⟩, htruthy⟩ := hcovered
  have hreached : Reached stream w.cursor done :=
    ⟨⟨done, prefix_rfl, hrecords⟩, htruthy⟩
  refine ⟨books ⟨stream, initial, w.cursor⟩ (hashesOf done) [], hbooks, ?_⟩
  refine triple_bind (triple_error triple_getCursor
    fun _ _ h => hreached.covered h) fun cursor => ?_
  refine triple_given fun hcursor => ?_
  have hsame : cursor.filter (· ≠ "") = w.cursor := by
    rw [hcursor]
    cases hfound : w.cursor with
    | none => rfl
    | some token =>
      have hne : token ≠ "" := fun h => htruthy (by rw [hfound, h])
      simp [hne]
  rw [hsame]
  exact triple_catch (triple_pollPage cfg hrecords htruthy) (fun _ => triple_done fun _ _ h => h)
    fun _ => triple_bind (triple_saveRetryAudit _) fun _ => triple_done fun _ _ h => h

theorem covered_polls (account : Option String) (outcomes : Nat → PollChoice) (times : List Nat)
    (h : Covered stream initial w) :
    Covered stream initial (polls stream cfg account outcomes times w) := by
  induction times generalizing w with
  | nil => exact h
  | cons now times ih =>
    refine ih ?_
    obtain ⟨⟨done, hrecords, hbooks⟩, htruthy⟩ := h
    have hstart : Covered stream initial
        { w with tables := { w.tables with clock := now } } :=
      ⟨⟨done, hrecords, hbooks.congr rfl rfl rfl rfl⟩, htruthy⟩
    have hpoll := (triple_pollHorizon cfg account).safe trivial hstart
    have hperform : ∀ op w, (pollSemantics stream).perform () op (outcomes w.operations) w =
        some (scripted stream outcomes op w) := fun _ _ => rfl
    have hafter := hpoll.eval hperform (fun _ _ => trivial) trivial
    revert hafter
    cases (eval (scripted stream outcomes) (pollHorizon cfg account)
      { w with tables := { w.tables with clock := now } }).1 with
    | ok _ => exact id
    | error _ => exact id

theorem Covered.stored_of_passed (h : Covered stream initial w) (hpassed : stream.Passed w.cursor) :
    Books ⟨stream, initial, w.cursor⟩ (hashesOf stream.records) [] w := by
  obtain ⟨⟨done, hrecords, hbooks⟩, -⟩ := h
  have hnone : stream.after w.cursor = [] := by
    rcases eq_nil_or_concat stream.records with hnil | ⟨front, last, hlast⟩
    · rw [hnil] at hrecords
      exact (append_eq_nil_iff.mp hrecords.symm).2
    · rw [concat_eq_append] at hlast
      obtain ⟨token, htoken, hcursor⟩ := hpassed last (by rw [hlast]; simp)
      rw [hcursor]
      exact after_token hlast htoken
  rw [hnone, append_nil] at hrecords
  rw [hrecords]
  exact hbooks

end Poll

/-! ## Exactly once -/

/-- A service that starts to poll: nothing was handed over yet, and none of the payments is
stored. -/
structure PollWorld.Fresh (stream : HorizonStream) (w : PollWorld) : Prop where
  cursor_eq : w.cursor = none
  handed_eq : w.handed = []
  lost_eq : w.lost = []
  nodup : w.tables.ids.Nodup
  unstored : ∀ hash ∈ hashesOf stream.records, hash ∉ w.tables.ids

section ExactlyOnce

variable {stream : HorizonStream} {initial : List String} {cursor : Option String}
  {w : PollWorld}

theorem PollWorld.Fresh.covered (h : w.Fresh stream) : Covered stream w.tables.ids w := by
  refine ⟨⟨[], ?_, rfl, nil_subset _, ?_, h.nodup, ?_⟩, ?_⟩
  · rw [h.cursor_eq]
    rfl
  · rw [h.handed_eq, h.lost_eq]
    simp
  · rw [h.handed_eq, h.lost_eq]
    intro record hrecord
    cases hrecord
  · rw [h.cursor_eq]
    exact nofun

theorem HorizonRecord.isPayment_of_hash {hash : String}
    (hhash : record.ingestedHash = some hash) : record.isPayment = true := by
  unfold HorizonRecord.ingestedHash at hhash
  split at hhash
  · assumption
  · cases hhash

variable (h : Books ⟨stream, initial, cursor⟩ (hashesOf stream.records) [] w)
include h

theorem Books.nodup_hashes : (hashesOf (w.handed ++ w.lost)).Nodup :=
  ((h.stored.nodup_iff.mp h.nodup).sublist (sublist_append_right _ _))

variable (hfresh : ∀ hash ∈ hashesOf stream.records, hash ∉ initial)
include hfresh

theorem Books.handed_or_lost
    {hash : String} (hrecord : record ∈ stream.records) (hhash : record.ingestedHash = some hash) :
    ∃ r ∈ w.handed ++ w.lost, r.ingestedHash = some hash := by
  have hmem : hash ∈ hashesOf stream.records := mem_filterMap.mpr ⟨record, hrecord, hhash⟩
  have hstored : hash ∈ initial ++ hashesOf (w.handed ++ w.lost) :=
    h.stored.subset (h.kept_stored hmem)
  rcases mem_append.mp hstored with hold | hnew
  · exact (hfresh hash hmem hold).elim
  · exact mem_filterMap.mp hnew

theorem Books.exactlyOnce (hdistinct : stream.DistinctHashes)
    (hlost : w.lost = []) : ExactlyOnce stream w.handed := by
  intro record hrecord hpayment
  obtain ⟨hash, hhash⟩ := hdistinct.hashed record hrecord hpayment
  obtain ⟨r, hr, hrhash⟩ := h.handed_or_lost hfresh hrecord hhash
  have hnodup := h.nodup_hashes
  have hsame : r = record :=
    eq_of_nodup_filterMap hdistinct.nodup (h.hashed r hr).1 hrecord hrhash hhash
  rw [hlost, append_nil] at hr hnodup
  rw [hsame] at hr
  rw [count_eq_one_of_nodup_filterMap hnodup hr hhash,
    count_eq_one_of_nodup_filterMap hdistinct.nodup hrecord hhash]

omit hfresh

theorem Books.distinct_of_exactlyOnce
    (honce : ExactlyOnce stream w.handed) : stream.DistinctHashes ∧ w.lost = [] := by
  have hnodup := h.nodup_hashes
  have hhanded : ∀ record ∈ stream.records, record.isPayment = true → record ∈ w.handed := by
    intro record hrecord hpayment
    rw [← count_pos_iff, honce record hrecord hpayment]
    exact count_pos_iff.mpr hrecord
  -- the records handed over are the hashed records of the stream, in some order
  have hperm : w.handed.Perm (stream.records.filter (·.ingestedHash.isSome)) := by
    refine perm_iff_count.mpr fun record => ?_
    by_cases hhash : record.ingestedHash.isSome = true
    · have hfilter : (stream.records.filter (·.ingestedHash.isSome)).count record =
          stream.records.count record := count_filter hhash
      rw [hfilter]
      by_cases hrecord : record ∈ stream.records
      · obtain ⟨hash, hhash⟩ := Option.isSome_iff_exists.mp hhash
        exact honce record hrecord (HorizonRecord.isPayment_of_hash hhash)
      · rw [count_eq_zero.mpr hrecord, count_eq_zero]
        exact fun hmem => hrecord (h.hashed record (mem_append_left _ hmem)).1
    · have hnone : record ∉ stream.records.filter (·.ingestedHash.isSome) :=
        fun hmem => hhash (mem_filter.mp hmem).2
      rw [count_eq_zero.mpr hnone, count_eq_zero]
      intro hmem
      obtain ⟨hash, hsome⟩ := (h.hashed record (mem_append_left _ hmem)).2
      exact hhash (by rw [hsome]; rfl)
  refine ⟨⟨fun record hrecord hpayment => ?_, ?_⟩, ?_⟩
  · exact (h.hashed record (mem_append_left _ (hhanded record hrecord hpayment))).2
  · have hfilter : (stream.records.filter (·.ingestedHash.isSome)).filterMap (·.ingestedHash) =
        hashesOf stream.records := by
      rw [filterMap_filter, hashesOf]
      congr 1
      funext record
      cases record.ingestedHash <;> rfl
    change (hashesOf stream.records).Nodup
    rw [← hfilter]
    refine (hperm.filterMap _).nodup_iff.mp (hnodup.sublist ?_)
    exact (sublist_append_left _ _).filterMap _
  · refine eq_nil_iff_forall_not_mem.mpr fun record hlost => ?_
    obtain ⟨hrecord, hash, hhash⟩ := h.hashed record (mem_append_right _ hlost)
    have hmem := hhanded record hrecord (HorizonRecord.isPayment_of_hash hhash)
    rw [hashesOf, filterMap_append] at hnodup
    exact disjoint_of_nodup_append hnodup (mem_filterMap.mpr ⟨record, hmem, hhash⟩)
      (mem_filterMap.mpr ⟨record, hlost, hhash⟩)

omit h

end ExactlyOnce

/-- Once the cursor has passed the stream, every payment was handed to reconciliation exactly
once if and only if their hashes are distinct and no answer to the save of a new row was
lost. -/
theorem polls_exactly_once_iff (stream : HorizonStream) (cfg : ServiceConfig)
    (account : Option String) (outcomes : Nat → PollChoice) (times : List Nat)
    (start : PollWorld) (hstart : start.Fresh stream) (hpassed : stream.Passed
      (PollWorld.polls stream cfg account outcomes times start).cursor) :
    ExactlyOnce stream (PollWorld.polls stream cfg account outcomes times start).handed ↔
      stream.DistinctHashes ∧
        (PollWorld.polls stream cfg account outcomes times start).lost = [] := by
  have hbooks := (covered_polls cfg account outcomes times hstart.covered).stored_of_passed hpassed
  constructor
  · exact hbooks.distinct_of_exactlyOnce
  · rintro ⟨hdistinct, hlost⟩
    exact hbooks.exactlyOnce hstart.unstored hdistinct hlost

/-! ### Two streams -/

def paymentRecord (hash token : String) : HorizonRecord where
  type := .str "payment"
  transactionHash := .str hash
  receiver := .str "GDEST"
  amount := .str "10.0000000"
  assetType := .str "native"
  pagingToken := .str token

def twoTransactions : HorizonStream where
  records := [paymentRecord "aa" "1", paymentRecord "bb" "2"]
  tokens_nodup := by decide
  tokens_truthy := by decide

def oneTransaction : HorizonStream where
  records := [paymentRecord "aa" "1", paymentRecord "aa" "2"]
  tokens_nodup := by decide
  tokens_truthy := by decide

def singlePages : Nat → PollChoice :=
  fun _ => .served 1

/-- Two polls over two transactions hand both payments over. -/
theorem polls_two_transactions : ExactlyOnce twoTransactions
    (PollWorld.polls twoTransactions {} (some "GDEST") singlePages [0, 0] {}).handed := by
  refine (polls_exactly_once_iff twoTransactions {} (some "GDEST") singlePages [0, 0] {}
    ⟨rfl, rfl, rfl, nodup_nil, fun _ _ => not_mem_nil⟩ ?_).mpr ⟨⟨?_, by decide⟩, rfl⟩
  · intro last hlast
    cases hlast
    exact ⟨"2", rfl, rfl⟩
  · intro record hrecord _
    rcases mem_cons.mp hrecord with rfl | hrecord
    · exact ⟨"aa", rfl⟩
    · rw [mem_singleton.mp hrecord]
      exact ⟨"bb", rfl⟩

/-- The second payment of one transaction is taken for a duplicate: the cursor passes both
records and only the first is handed over. -/
theorem second_operation_not_reconciled : oneTransaction.Passed
      (PollWorld.polls oneTransaction {} (some "GDEST") singlePages [0, 0] {}).cursor ∧
    ¬ ExactlyOnce oneTransaction
      (PollWorld.polls oneTransaction {} (some "GDEST") singlePages [0, 0] {}).handed := by
  refine ⟨fun last hlast => ?_, fun honce => ?_⟩
  · cases hlast
    exact ⟨"2", rfl, rfl⟩
  · have hcount := honce (paymentRecord "aa" "2") (by decide) rfl
    revert hcount
    decide

end Trellis.Reconciliation
