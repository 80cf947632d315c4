import Trellis.Oracle.SubmissionBatch

/-!
# Selected payloads

`getPayloadsForBatching` selects pending payloads whose signature is empty, and `processBatch`
marks every payload without a signature as failed, so nothing that is selected is submitted.
-/

namespace Trellis.Oracle

open Core List Async

/-- A selection and the batch of its ids; the payloads that had expired at the selection are
marked beside. -/
def selectAndProcess (cfg : BatchServiceConfig) (limit : Option Int) : BatchProgram Selection := do
  let selection ← selectPayloads cfg limit
  let _ ← Async.both batchTurns (markExpired selection)
    ((BatchCall.processBatch (selection.selected.map (·.id))).program cfg)
  .done selection

def selectionPool (cfg : BatchServiceConfig) (limit : Option Int) (w : BatchWorld Unit) :
    Pool batchInterface Failure Unit (BatchWorld Unit) Selection where
  world := w
  calls _ := selectAndProcess cfg limit

/-- The selected payloads are submitted, and none of them is in flight. -/
def SelectedSubmitted (selection : Selection) (w : BatchWorld Unit) : Prop :=
  ∀ p ∈ selection.selected,
    (∃ row, w.row p.id = some row ∧ row.status = .submitted) ∧ p.id ∉ w.inFlight

/-! ## The invariant -/

section Invariant

variable (rows : List SignedPayload)

/-- A payload as the service has it: it has the signature of its row in the beginning, and without
one it is not submitted. -/
def Original (payload : SignedPayload) : Prop :=
  ∀ row ∈ rows, row.id = payload.id → payload.signature = row.signature ∧
    (payload.signature = "" → payload.status = .submitted → row.status = .submitted)

def AllOriginal (w : BatchWorld Unit) : Prop :=
  ∀ row ∈ w.rows, Original rows row

/-- The contract of programs that store only such payloads. -/
def originalContract : Contract (BatchWorld Unit) where
  inv := AllOriginal rows
  rely _ _ := True
  guar _ _ := True

end Invariant

variable {rows : List SignedPayload} {w : BatchWorld Unit}

theorem original_beside :
    (originalContract rows).Beside (originalContract rows) (originalContract rows) where
  left := ⟨rfl, fun _ _ h => h, fun _ _ h => h⟩
  right := ⟨rfl, fun _ _ h => h, fun _ _ h => h⟩
  left_rely _ _ _ := trivial
  right_rely _ _ _ := trivial
  guar_refl _ := trivial

variable {payload : SignedPayload}

theorem AllOriginal.stored (hinv : AllOriginal rows w)
    (hpayload : Original rows payload) (time : Int) : AllOriginal rows (w.stored payload time) := by
  intro row hrow
  obtain ⟨old, hold, rfl⟩ := mem_map.mp hrow
  by_cases hid : old.id = payload.id
  · rw [if_pos hid]
    exact hpayload
  · rw [if_neg hid]
    exact hinv old hold

theorem Original.failed (h : Original rows payload) (message : Option String) (attempts : Int) :
    Original rows { payload with
      status := .failed, errorMessage := message, submissionAttempts := attempts } := by
  intro row hrow hid
  exact ⟨(h row hrow hid).1, fun _ hstatus => (by cases hstatus)⟩

theorem Original.submitted (h : Original rows payload)
    (hsigned : payload.signature ≠ "") (hash : String) (time attempts : Int) :
    Original rows { payload with
      status := .submitted, transactionHash := some hash, submittedAt := some time
      submissionAttempts := attempts } := by
  intro row hrow hid
  exact ⟨(h row hrow hid).1, fun hunsigned => (hsigned hunsigned).elim⟩

/-! ## Programs -/

section Triples

def BatchOp.storesNothing : BatchOp → Bool
  | .save _ => false
  | _ => true

variable {op : BatchOp}

theorem perform_rows {ι : Type} [DecidableEq ι] {w w' : BatchWorld ι} {i : ι}
    (hop : op.storesNothing = true) {c : BatchChoice} {r : Except Failure op.Res}
    (h : w.perform i op c = some (r, w')) : w'.rows = w.rows := by
  cases op with
  | find query =>
    rcases perform_find h with ⟨_, -, -, rfl⟩ | ⟨_, -, rfl⟩
    · rfl
    · rfl
  | save payload => cases hop
  | _ => cases c <;> cases h <;> rfl

/-- The program keeps the rows as they may be, and what it resolves to satisfies `R`. -/
abbrev KeepsOriginal {α : Type} (rows : List SignedPayload) (p : BatchProgram α)
    (R : α → Prop) : Prop :=
  Triple (batchSemantics Unit) (anyStep _) () (C := originalContract rows) .top p
    (fun a => .pure (R a)) .top

variable {α : Type} {R : α → Prop} {p : BatchProgram α}

theorem keeps_bind {β : Type} {f : α → BatchProgram β} {R' : β → Prop} (hp : KeepsOriginal rows p R)
    (hf : ∀ a, R a → KeepsOriginal rows (f a) R') : KeepsOriginal rows (p >>= f) R' :=
  triple_bind hp fun a => triple_pure fun ha => hf a ha

theorem keeps_done {a : α} (h : R a) : KeepsOriginal rows (.done a) R :=
  triple_done fun _ _ _ => h

theorem keeps_attempt (hp : KeepsOriginal rows p R) : KeepsOriginal rows p.attempt fun _ => True :=
  triple_attempt hp (fun _ _ _ _ => trivial) fun _ _ _ _ => trivial

theorem keeps_op (hop : op.storesNothing = true) {R : op.Res → Prop}
    (hR : ∀ (w : BatchWorld Unit) c a w', AllOriginal rows w →
      w.perform () op c = some (.ok a, w') → R a) : KeepsOriginal rows (askBatch op) R := by
  refine triple_call fun w c r w' hinv _ _ hperf => ⟨?_, trivial, ?_⟩
  · change AllOriginal rows w'
    rw [AllOriginal, perform_rows hop hperf]
    exact hinv
  · cases r with
    | ok a => exact hR w c a w' hinv hperf
    | error e => trivial

theorem keeps_idle (hop : op.storesNothing = true) :
    KeepsOriginal rows (askBatch op) fun _ => True :=
  keeps_op hop fun _ _ _ _ _ _ => trivial

theorem keeps_find (query : PayloadQuery) : KeepsOriginal rows (askBatch (.find query))
    fun found : List SignedPayload => ∀ p ∈ found, Original rows p := by
  refine keeps_op rfl fun w c found w' hinv hperf p hp => ?_
  rcases perform_find hperf with ⟨_, hfound, hanswer, -⟩ | ⟨_, herror, -⟩
  · cases hfound
    exact hinv p ((subperm_of_answer hanswer).subset hp)
  · cases herror

theorem keeps_findOne (id : String) : KeepsOriginal rows (askBatch (.findOne id))
    fun found : Option SignedPayload => ∀ p, found = some p → Original rows p := by
  refine keeps_op rfl fun w c found w' hinv hperf p hp => ?_
  cases c with
  | served time =>
    cases hperf
    exact hinv p (mem_of_find?_eq_some hp)
  | _ => cases hperf

theorem keeps_save (h : Original rows payload) :
    KeepsOriginal rows (askBatch (.save payload)) fun _ => True := by
  refine triple_call fun w c r w' hinv _ _ hperf => ⟨?_, trivial, ?_⟩
  · cases c with
    | served time =>
      cases hperf
      exact AllOriginal.stored hinv h time
    | lost e =>
      cases hperf
      exact AllOriginal.stored hinv h 0
    | rejected e =>
      cases hperf
      exact hinv
    | transaction _ _ | turn _ => cases hperf
  · cases r <;> trivial

theorem keeps_allSettled {ps : List (BatchProgram α)}
    (h : ∀ p ∈ ps, KeepsOriginal rows p fun _ => True) :
    KeepsOriginal rows (allSettled batchTurns ps) fun _ => True := by
  induction ps with
  | nil => exact keeps_done trivial
  | cons p ps ih =>
    have hboth := triple_both (E := .top) original_beside (t := batchTurns)
      (fun c w r w' hperf => by cases c <;> cases hperf; rfl)
      (h p mem_cons_self) (ih fun q hq => h q (mem_cons_of_mem p hq))
    refine triple_bind (triple_pre hboth fun _ _ _ => ⟨trivial, trivial⟩) fun results => ?_
    cases results.2 with
    | ok rest => exact triple_done fun _ _ _ => trivial
    | error e => exact triple_throw fun _ _ _ => trivial

/-! ## The methods -/

theorem keeps_markAsFailed (id message : String) (attempts : Int) :
    KeepsOriginal rows (markAsFailed id message attempts) fun _ => True := by
  refine keeps_bind (keeps_attempt (R := fun _ => True) ?_) fun _ _ => keeps_done trivial
  refine keeps_bind (keeps_findOne id) fun found hfound => ?_
  cases found with
  | none => exact keeps_done trivial
  | some payload => exact keeps_save ((hfound payload rfl).failed _ _)

theorem keeps_markAll (failures : List (String × String)) :
    KeepsOriginal rows (markAll failures) fun _ => True := by
  refine keeps_bind (keeps_allSettled fun p hp => ?_) fun _ _ => keeps_done trivial
  obtain ⟨failure, -, rfl⟩ := mem_map.mp hp
  exact keeps_markAsFailed failure.1 failure.2 1

def Submittable (rows : List SignedPayload) (payload : SignedPayload) : Prop :=
  Original rows payload ∧ payload.signature ≠ ""

theorem keeps_submitInBatch (h : Submittable rows payload) :
    KeepsOriginal rows (submitInBatch payload) fun _ => True := by
  refine keeps_bind (keeps_idle rfl) fun transaction _ => ?_
  refine keeps_bind (keeps_save ?_) fun _ _ => keeps_done trivial
  exact h.1.submitted h.2 transaction.1 transaction.2 (payload.submissionAttempts + 1)

variable {payloads : List SignedPayload}

theorem keeps_validateLoop (now : Int) {valid : List SignedPayload}
    (hpayloads : ∀ p ∈ payloads, Original rows p) (hvalid : ∀ p ∈ valid, Submittable rows p) :
    KeepsOriginal rows (validateLoop now payloads valid)
      fun found => ∀ p ∈ found, Submittable rows p := by
  induction payloads generalizing valid with
  | nil => exact keeps_done hvalid
  | cons payload rest ih =>
    have hrest : ∀ p ∈ rest, Original rows p := fun p hp =>
      hpayloads p (mem_cons_of_mem payload hp)
    have hmark (message : String) : KeepsOriginal rows
        (markAsFailed payload.id message 1 >>= fun _ => validateLoop now rest valid)
        fun found => ∀ p ∈ found, Submittable rows p :=
      keeps_bind (keeps_markAsFailed _ _ _) fun _ _ => ih hrest hvalid
    refine triple_ite (fun _ => hmark _) fun _ => triple_ite (fun _ => ih hrest hvalid) fun _ => ?_
    refine triple_ite (fun _ => hmark _) fun hsigned => ?_
    refine keeps_bind (keeps_idle rfl) fun inFlight _ => ?_
    refine triple_ite (fun _ => ih hrest hvalid) fun _ => ?_
    refine keeps_bind (keeps_idle rfl) fun _ _ => ih hrest fun p hp => ?_
    rcases mem_append.mp hp with hp | hp
    · exact hvalid p hp
    · obtain rfl := mem_singleton.mp hp
      exact ⟨hpayloads p mem_cons_self, hsigned⟩

theorem keeps_validatePayloadsForBatch (ids : List String) :
    KeepsOriginal rows (validatePayloadsForBatch ids)
      fun found => ∀ p ∈ found, Submittable rows p := by
  have hnil : ∀ p ∈ [], Submittable rows p := fun p hp => (not_mem_nil hp).elim
  refine triple_ite (fun _ => keeps_done hnil) fun _ => ?_
  refine keeps_bind (keeps_find _) fun payloads hpayloads => ?_
  exact keeps_bind (keeps_idle rfl) fun now _ => keeps_validateLoop now hpayloads hnil

variable (cfg : BatchServiceConfig)

theorem keeps_processOne (h : Submittable rows payload) :
    KeepsOriginal rows (processOne cfg payload) fun _ => True := by
  refine keeps_bind (keeps_attempt (keeps_submitInBatch h)) fun answer _ => ?_
  cases answer with
  | ok hash => exact keeps_done trivial
  | error e =>
    cases hmessage : e.message? with
    | none =>
      simp only [hmessage]
      exact triple_fail
    | some message =>
      simp only [hmessage]
      exact keeps_bind (keeps_markAsFailed _ _ _) fun _ _ => keeps_done trivial

theorem keeps_processSequentially (h : ∀ p ∈ payloads, Submittable rows p) :
    KeepsOriginal rows (processSequentially cfg payloads) fun _ => True := by
  induction payloads with
  | nil => exact keeps_done trivial
  | cons payload rest ih =>
    refine keeps_bind (keeps_processOne cfg (h payload mem_cons_self)) fun result _ => ?_
    refine keeps_bind (keeps_idle rfl) fun _ _ => ?_
    refine keeps_bind (ih fun p hp => h p (mem_cons_of_mem payload hp)) fun results _ => ?_
    exact keeps_done trivial

theorem keeps_processPayloads (h : ∀ p ∈ payloads, Submittable rows p) :
    KeepsOriginal rows (processPayloads cfg payloads) fun _ => True := by
  refine triple_ite (fun _ => ?_) fun _ => ?_
  · exact keeps_bind (keeps_processSequentially cfg h) fun _ _ => keeps_done trivial
  · refine keeps_bind (keeps_allSettled fun p hp => ?_) fun _ _ => keeps_done trivial
    obtain ⟨payload, hpayload, rfl⟩ := mem_map.mp hp
    exact keeps_submitInBatch (h payload hpayload)

theorem keeps_processBatch (ids : List String) :
    KeepsOriginal rows ((BatchCall.processBatch ids).program cfg) fun _ => True := by
  refine keeps_bind (R := fun _ => True) ?_ fun outcome _ => keeps_markAll outcome.failures
  refine keeps_bind (keeps_validatePayloadsForBatch ids) fun payloads hpayloads => ?_
  refine triple_ite (fun _ => keeps_done trivial) fun _ => ?_
  refine keeps_bind (keeps_processPayloads cfg hpayloads) fun outcome _ => ?_
  cases outcome.results with
  | error e => exact keeps_done trivial
  | ok results => exact keeps_bind (keeps_idle rfl) fun _ _ => keeps_done trivial

/-! ## The selection -/

theorem triple_alone (hop : op.storesNothing = true) {P : BatchWorld Unit → Prop}
    {R : op.Res → BatchWorld Unit → Prop}
    (hR : ∀ w c a w', P w → w.perform () op c = some (.ok a, w') → w'.rows = w.rows → R a w') :
    Triple (batchSemantics Unit) (anyStep _) () (C := Contract.solo (AllOriginal rows)) (.solo P)
      (askBatch op) (fun a => .solo (R a)) .top := by
  refine triple_call fun w c r w' hinv hP _ hperf => ?_
  have hrows := perform_rows hop hperf
  refine ⟨?_, trivial, ?_⟩
  · change AllOriginal rows w'
    rw [AllOriginal, hrows]
    exact hinv
  · cases r with
    | ok a => exact hR w c a w' hP hperf hrows
    | error e => trivial

def Unsigned (rows payloads : List SignedPayload) : Prop :=
  ∀ p ∈ payloads, p ∈ rows ∧ p.status = .pending ∧ p.signature = ""

theorem triple_pendingUnsigned (take : Int) :
    Triple (batchSemantics Unit) (anyStep _) () (C := Contract.solo (AllOriginal rows))
      (.solo fun w => w.rows = rows)
      (askBatch (.find (.pendingUnsigned take)))
      (fun found : List SignedPayload => .solo fun _ => Unsigned rows found) .top := by
  refine triple_alone rfl fun w c found w' hw hperf _ p hp => ?_
  rcases perform_find hperf with ⟨_, hfound, hanswer, -⟩ | ⟨_, herror, -⟩
  · cases hfound
    have hmem := (subperm_of_answer hanswer).subset hp
    rw [hw] at hmem
    exact ⟨hmem, pending_of_answer hanswer hp⟩
  · cases herror

theorem triple_alone_idle (hop : op.storesNothing = true) {φ : Prop} :
    Triple (batchSemantics Unit) (anyStep _) () (C := Contract.solo (AllOriginal rows))
      (.solo fun _ => φ) (askBatch op) (fun _ => .solo fun _ => φ) .top :=
  triple_alone hop fun _ _ _ _ hφ _ _ => hφ

theorem triple_selectPayloads (limit : Option Int) :
    Triple (batchSemantics Unit) (anyStep _) () (C := Contract.solo (AllOriginal rows))
      (.solo fun w => w.rows = rows) (selectPayloads cfg limit)
      (fun selection => .solo fun _ => Unsigned rows selection.selected) .top := by
  refine triple_bind (triple_alone rfl (R := fun _ w => w.rows = rows) ?_) fun now => ?_
  · exact fun w c a w' hw _ hrows => hrows.trans hw
  refine triple_bind (triple_pendingUnsigned _) fun payloads => ?_
  refine triple_bind (triple_alone_idle rfl) fun inFlight => ?_
  have hselected : ∀ {valid : SignedPayload → Bool} {n : Nat}, Unsigned rows payloads →
      Unsigned rows ((payloads.filter valid).take n) := fun hfound p hp =>
    hfound p (mem_of_mem_filter (mem_of_mem_take hp))
  refine triple_ite (fun _ => ?_) fun _ => triple_done fun _ _ => hselected
  exact triple_bind (triple_alone_idle rfl) fun _ => triple_done fun _ _ => hselected

theorem triple_selectAndProcess (limit : Option Int) :
    Triple (batchSemantics Unit) (anyStep _) () (C := Contract.solo (AllOriginal rows))
      (.solo fun w => w.rows = rows) (selectAndProcess cfg limit)
      (fun selection => .solo fun _ => Unsigned rows selection.selected) .top := by
  have hwithin : (originalContract rows).Within (Contract.solo (AllOriginal rows)) :=
    ⟨rfl, fun _ _ h => h.elim, fun _ _ h => h⟩
  refine triple_bind (triple_selectPayloads cfg limit) fun selection => ?_
  refine triple_bind (R := fun _ => .solo fun _ => Unsigned rows selection.selected) ?_
    fun _ => triple_done fun _ _ h => h
  have hmark : KeepsOriginal rows (markExpired selection) fun _ => True := keeps_markAll _
  have hboth := triple_both (E := .top) original_beside (t := batchTurns)
    (fun c w r w' hperf => by cases c <;> cases hperf; rfl) hmark
    (keeps_processBatch cfg (selection.selected.map (·.id)))
  have hframed := triple_within hwithin
    (K := .solo fun _ => Unsigned rows selection.selected) (fun _ _ _ h => h) hboth
  exact triple_pre (triple_post hframed fun _ _ _ h => h.2) fun _ _ h => ⟨⟨trivial, trivial⟩, h⟩

end Triples

/-! ## Runs -/

theorem allOriginal_of_nodup (hnodup : (w.rows.map (·.id)).Nodup) : AllOriginal w.rows w := by
  intro payload hpayload row hrow hid
  obtain rfl := inj_on_of_nodup_map hnodup hrow hpayload hid
  exact ⟨rfl, fun _ h => h⟩

/-- In every run that ends, the selected payloads are submitted and out of flight exactly where
nothing was selected, whatever else happens. -/
theorem selected_submitted_iff {cfg : BatchServiceConfig} {limit : Option Int}
    (hnodup : (w.rows.map (·.id)).Nodup)
    {c : Pool batchInterface Failure Unit (BatchWorld Unit) Selection} {selection : Selection}
    (hreach : Pool.Reach (batchSemantics Unit) (anyStep _) (selectionPool cfg limit w) c)
    (hend : c.calls () = .done selection) :
    SelectedSubmitted selection c.world ↔ selection.selected = [] := by
  constructor
  · intro hsubmitted
    have hcompatible : Pool.Compatible (batchSemantics Unit)
        (fun _ => Contract.solo (AllOriginal w.rows)) (AllOriginal w.rows) :=
      ⟨fun _ => rfl, fun i j _ _ hij => (hij rfl).elim, fun e => e.elim, fun _ e => e.elim⟩
    have hinv := allOriginal_of_nodup hnodup
    have hsafe := hreach.keeps hcompatible hinv (fun _ => triple_selectAndProcess cfg limit)
      fun _ => rfl
    have hunsigned : Unsigned w.rows selection.selected :=
      hsafe.ended hcompatible (r := .ok selection) hend
    rw [eq_nil_iff_forall_not_mem]
    intro p hp
    obtain ⟨hmem, hpending, hempty⟩ := hunsigned p hp
    obtain ⟨⟨row, hrow, hstatus⟩, -⟩ := hsubmitted p hp
    have hid : row.id = p.id := by simpa using find?_some hrow
    obtain ⟨hsignature, hnot⟩ :=
      hsafe.world_inv row (mem_of_find?_eq_some hrow) p hmem hid.symm
    have := hnot (hsignature.trans hempty) hstatus
    rw [hpending] at this
    cases this
  · intro hnone p hp
    rw [hnone] at hp
    cases hp

/-! ### A signed and an unsigned payload -/

def plainBatches : BatchServiceConfig where
  toLowerCase message := message

def batchPayload (signature : String) : SignedPayload where
  id := "p"
  payloadHash := "h"
  signature := signature
  expiresAt := 1000

/-- How the call has ended: the selected ids, the status of the payload and what is in flight. -/
def selectionEnd (c : Pool batchInterface Failure Unit (BatchWorld Unit) Selection) :
    Option (List String) × Option PayloadStatus × List String :=
  (match c.calls () with
    | .done selection => some (selection.selected.map (·.id))
    | _ => none, (c.world.row "p").map (·.status), c.world.inFlight)

theorem done_of_selectionEnd {c : Pool batchInterface Failure Unit (BatchWorld Unit) Selection}
    {ids : List String} {rest : Option PayloadStatus × List String}
    (h : selectionEnd c = (some ids, rest)) :
    ∃ selection, c.calls () = .done selection ∧ selection.selected.map (·.id) = ids := by
  have hids := congrArg Prod.fst h
  unfold selectionEnd at hids
  cases hcall : c.calls () with
  | done selection =>
    rw [hcall] at hids
    exact ⟨selection, rfl, Option.some.inj hids⟩
  | fail e =>
    rw [hcall] at hids
    cases hids
  | await op k =>
    rw [hcall] at hids
    cases hids

/-- A payload with a signature is not selected. -/
theorem signed_payload_not_selected : ∃ c selection, Pool.Reach (batchSemantics Unit) (anyStep _)
      (selectionPool plainBatches none { rows := [batchPayload "s"] }) c ∧
    c.calls () = .done selection ∧ SelectedSubmitted selection c.world := by
  have hrun : (Pool.run (batchSemantics Unit) (anyStep _) (replicate 4 (.call () (.served 0)))
      (selectionPool plainBatches none { rows := [batchPayload "s"] })).map selectionEnd =
        some (some [], some .pending, []) := by
    decide +kernel
  obtain ⟨c, hreach, hobserved⟩ := Pool.exists_reach_of_run hrun
  obtain ⟨selection, hend, hids⟩ := done_of_selectionEnd hobserved
  refine ⟨c, selection, hreach, hend, ?_⟩
  exact (selected_submitted_iff (by decide) hreach hend).mpr (map_eq_nil_iff.mp hids)

/-- A payload without a signature is selected, marked as failed, and stays in flight. -/
theorem selected_payload_fails : ∃ c selection, Pool.Reach (batchSemantics Unit) (anyStep _)
      (selectionPool plainBatches none { rows := [batchPayload ""] }) c ∧
    c.calls () = .done selection ∧ ¬ SelectedSubmitted selection c.world := by
  have hrun : (Pool.run (batchSemantics Unit) (anyStep _) (replicate 8 (.call () (.served 0)))
      (selectionPool plainBatches none { rows := [batchPayload ""] })).map selectionEnd =
        some (some ["p"], some .failed, ["p"]) := by
    decide +kernel
  obtain ⟨c, hreach, hobserved⟩ := Pool.exists_reach_of_run hrun
  obtain ⟨selection, hend, hids⟩ := done_of_selectionEnd hobserved
  refine ⟨c, selection, hreach, hend, fun hsubmitted => ?_⟩
  have hmem : "p" ∈ selection.selected.map (·.id) := by
    rw [hids]
    exact mem_cons_self
  obtain ⟨p, hp, hid⟩ := mem_map.mp hmem
  have hflight : c.world.inFlight = ["p"] := congrArg (fun x => x.2.2) hobserved
  have hout := (hsubmitted p hp).2
  rw [hflight, hid] at hout
  exact hout mem_cons_self

end Trellis.Oracle
