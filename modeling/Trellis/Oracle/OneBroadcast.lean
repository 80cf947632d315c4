import Trellis.Oracle.SubmitterInvariant

/-!
# One live broadcast per payload

A second broadcast follows from a failed save, from a monitor that gives up, from a retry of a
payload that is on its way, and from two calls that both find the payload pending.
-/

namespace Trellis.Oracle

open Core Async SubmitterWorld List Or

variable {ι : Type} {id hash : String} {i : ι} {w w' : SubmitterWorld ι}

/-! ## Operations -/

theorem free_of_pending (hinv : SubmitterInv id w) (hactive : active id i w) {row : SignedPayload}
    (hrow : w.rows id = some row) (hstatus : row.status = .pending) : free id i w := by
  refine ⟨hactive.1, ?_, fun live hlive => ?_⟩
  · rw [eq_nil_iff_forall_not_mem]
    intro m hm
    obtain ⟨row', hrow', -, hnot⟩ := (hinv.watched m hm).2
    rw [hrow] at hrow'
    cases hrow'
    exact hnot hstatus
  · obtain ⟨row', hrow', -, hway⟩ := hactive.2 live hlive
    rw [hrow] at hrow'
    cases hrow'
    rw [hstatus] at hway
    rcases hway with h | h <;> cases h

theorem ready_of_submitted (hinv : SubmitterInv id w) (hactive : active id i w)
    {row : SignedPayload} (hrow : w.rows id = some row) (hstatus : row.status = .submitted) :
    ready id i (row.transactionHash.getD "") w := by
  obtain ⟨hash, hreturned, hhash⟩ := hinv.submitted row hrow hstatus
  rw [hhash]
  refine ⟨hactive, ⟨hactive.1, hreturned⟩, hactive.1, row, hrow, hhash, ?_⟩
  rw [hstatus]
  decide

theorem dead_of_failure (hinv : SubmitterInv id w) (hwatch : watching id i hash w)
    (hlive : w.live = []) : ((watching id i hash).and (dead id i hash)) w :=
  ⟨hwatch, reverted_of_no_live hlive (hinv.watched _ hwatch).1⟩

variable {payload : SignedPayload}

theorem handed_of_ready (h : ready id i hash w) :
    handed id i { transactionHash := hash, payload := payload, monitored := true } w :=
  ⟨h.1, fun _ => h⟩

theorem SubmitterInv.returned (hinv : SubmitterInv id w) (hrunning : w.running = some i)
    (hmonitors : w.monitors = []) (hsingle : OneLive w.called) :
    SubmitterInv id { w.called with returned := hash :: w.returned } where
  single := hsingle
  keyed := hinv.keyed
  settled hnone := by
    have hsome : w.running = none := hnone
    rw [hrunning] at hsome
    cases hsome
  submitted row hrow hstatus := by
    obtain ⟨hash', hmem, hhash⟩ := hinv.submitted row hrow hstatus
    exact ⟨hash', mem_cons_of_mem _ hmem, hhash⟩
  confirmed row hrow hstatus := by
    obtain ⟨hash', hmem, hreceipt⟩ := hinv.confirmed row hrow hstatus
    exact ⟨hash', mem_cons_of_mem _ hmem, hreceipt⟩
  watched m hm := by
    have hnil : m ∈ ([] : List (ι × String)) := hmonitors ▸ hm
    cases hnil

theorem guar_refl (i : ι) (w : SubmitterWorld ι) : (submitterContract id i).guar w w :=
  ⟨fun h => h, fun j _ => Undisturbed.refl j⟩

theorem guar_stored (hrunning : w.running = some i) (hconfirmed : ¬ Confirmed id w)
    (payload : SignedPayload) : (submitterContract id i).guar w (w.stored payload) := by
  refine ⟨fun h => (hconfirmed h).elim, fun j hj => ?_⟩
  refine undisturbed_of_running (inl hrunning) (fun m hm _ => ?_) ?_ hj
  · exact hm
  · rfl

section Triples

variable [DecidableEq ι]

/-- A triple of a caller in an orderly interleaving. -/
abbrev SubmitterTriple {α : Type} (P : SubmitterFact id i)
    (p : SubmitterProgram α) (R : α → SubmitterFact id i)
    (E : SubmitterFact id i) : Prop :=
  Triple (submitterSemantics ι) (orderly ι) i P p R E

/-- The operations that leave the world alone, whatever comes of them. -/
def SubmitterOp.isStill : SubmitterOp → Bool
  | .findOne _ | .estimateGas _ | .waitForTransaction _ | .now | .sleep _ => true
  | _ => false

variable {op : SubmitterOp}

theorem perform_still (hop : op.isStill = true) {c : SubmitterChoice}
    {r : Except Failure op.Res} (h : w.perform i op c = some (r, w')) : w' = w := by
  cases op with
  | findOne _ | estimateGas _ | now | sleep _ => cases c <;> cases h <;> rfl
  | waitForTransaction hash =>
    cases c with
    | served time =>
      obtain ⟨receipt, -, heq⟩ := Option.map_eq_some_iff.mp h
      cases heq
      rfl
    | _ => cases h <;> rfl
  | _ => cases hop

variable {P : SubmitterFact id i}

theorem triple_still (hop : op.isStill = true) {R : op.Res → SubmitterFact id i}
    {E : SubmitterFact id i} (hpost : ∀ w c r, SubmitterInv id w → P w → orderly ι i op c w →
      perform i op c w = some (r, w) → outcome R E r w) :
    SubmitterTriple P (askSubmitter op) R E := by
  refine triple_call fun w c r w' hinv hP hg hperf => ?_
  obtain rfl := perform_still hop hperf
  exact ⟨hinv, ⟨fun h => h, fun j _ => Undisturbed.refl j⟩, hpost w' c r hinv hP hg hperf⟩

theorem triple_keep (hop : op.isStill = true) :
    SubmitterTriple P (askSubmitter op) (fun _ => P) P := by
  refine triple_still hop fun w c r _ hP _ _ => ?_
  cases r <;> exact hP

theorem triple_now {P E : SubmitterFact id i} :
    SubmitterTriple P (askSubmitter .now) (fun _ => P) E := by
  refine triple_still rfl fun w c r _ hP _ hperf => ?_
  cases c with
  | served time =>
    cases hperf
    exact hP
  | _ => cases hperf

theorem perform_save {c : SubmitterChoice} {r : Except Failure (SubmitterOp.save payload).Res}
    (h : w.perform i (.save payload) c = some (r, w')) : (w' = w.stored payload ∨ w' = w) ∧
      ((r = .ok () ∧ w' = w.stored payload) ∨ ∃ e, r = .error e ∧ c.fails = true) := by
  cases c with
  | served time =>
    cases h
    exact ⟨inl rfl, inl ⟨rfl, rfl⟩⟩
  | lost e =>
    cases h
    exact ⟨inl rfl, inr ⟨e, rfl, rfl⟩⟩
  | rejected e =>
    cases h
    exact ⟨inr rfl, inr ⟨e, rfl, rfl⟩⟩
  | estimated _ | accepted _ | nothing => cases h

theorem triple_store (hstatus : payload.status = .pending ∨ payload.status = .failed)
    (hid : payload.id = id) :
    SubmitterTriple (free id i) (askSubmitter (.save payload)) (fun _ => free id i)
      (active id i) := by
  refine triple_call fun w c r w' hinv hfree _ hperf => ?_
  have hlive := live_nil_of_free hfree
  have hout : ∀ v : SubmitterWorld ι, free id i v → outcome (C := submitterContract id i)
      (fun _ => free id i) (active id i) r v := by
    intro v hv
    cases r with
    | ok _ => exact hv
    | error e => exact active_of_free hv
  rcases (perform_save hperf).1 with rfl | rfl
  · refine ⟨hinv.stored hfree.1 hfree.2.1 hid ?_ ?_,
      guar_stored hfree.1 (not_confirmed_of_no_live hinv hlive) payload, hout _ hfree⟩
    · rcases hstatus with h | h <;> rw [h] <;> decide
    · intro hsubmitted
      rcases hstatus with h | h <;> rw [hsubmitted] at h <;> cases h
  · exact ⟨hinv, guar_refl i w', hout _ hfree⟩

theorem triple_save_sent (hid : payload.id = id)
    (hstatus : payload.status = .submitted) (hhash : payload.transactionHash = some hash) :
    SubmitterTriple (sent id i hash) (askSubmitter (.save payload)) (fun _ => ready id i hash)
      (free id i) := by
  refine triple_call fun w c r w' hinv hsent hg hperf => ?_
  obtain ⟨hmost, hobtained, hunconfirmed⟩ := hsent
  have hstored : SubmitterInv id (w.stored payload) := by
    refine hinv.stored hmost.1 hmost.2.1 hid ?_ fun _ => ⟨hash, hobtained.2, hhash⟩
    rw [hstatus]
    decide
  have hguar := guar_stored hmost.1 hunconfirmed.2.2 payload
  obtain ⟨hworld, hresult⟩ := perform_save hperf
  rcases hresult with ⟨rfl, rfl⟩ | ⟨e, rfl, hfails⟩
  · have hcarries : Carries id hash (w.stored payload) := by
      refine ⟨payload, rows_stored hid, hhash, ?_⟩
      rw [hstatus]
      decide
    refine ⟨hstored, hguar, ⟨hmost.1, fun live hlive => ?_⟩, hobtained, hmost.1, hcarries⟩
    obtain ⟨row, hrow, hrowHash, -⟩ := hcarries
    rw [rows_stored hid] at hrow
    cases hrow
    exact ⟨payload, rows_stored hid, hrowHash.trans (hmost.2.2 live hlive), inl hstatus⟩
  · have hfree := free_of_no_live hmost (hg hfails)
    rcases hworld with rfl | rfl
    · exact ⟨hstored, hguar, hfree⟩
    · exact ⟨hinv, guar_refl i w', hfree⟩

/-! ## Submissions -/

theorem triple_contract (args : ContractArgs) (gasLimit : Int) : SubmitterTriple (free id i)
    (askSubmitter (.submitPayload args gasLimit))
    (fun hash : String => sent id i hash) (free id i) := by
  refine triple_call fun w c r w' hinv hfree _ hperf => ?_
  have hlive := live_nil_of_free hfree
  have hsingle : OneLive w.called := by
    intro live hmem
    rcases mem_cons.mp hmem with rfl | hmem
    · exact hlive
    · exact hinv.single live hmem
  have hguar : ∀ v : SubmitterWorld ι, v.rows = w.rows → v.monitors = w.monitors →
      v.receipts = w.receipts → (submitterContract id i).guar w v := by
    intro v hrows hmonitors hreceipts
    refine ⟨fun h => (not_confirmed_of_no_live hinv hlive h).elim, fun j hj => ?_⟩
    exact undisturbed_of_running (inl hfree.1) (fun m hm _ => hmonitors ▸ hm) hreceipts hj
  cases c with
  | accepted hash =>
    have hperf' : (if hash ∈ w.returned then none else
        some (Except.ok hash, { w.called with returned := hash :: w.returned })) =
          some (r, w') := hperf
    by_cases hold : hash ∈ w.returned
    · rw [if_pos hold] at hperf'
      cases hperf'
    · rw [if_neg hold] at hperf'
      cases hperf'
      refine ⟨hinv.returned hfree.1 hfree.2.1 hsingle, hguar _ rfl rfl rfl, ?_, ?_, ?_⟩
      · refine ⟨hfree.1, hfree.2.1, fun live hmem => ?_⟩
        obtain ⟨hmem, hnot⟩ := mem_live.mp hmem
        rcases mem_cons.mp hmem with rfl | hmem
        · rfl
        · have hmem : live ∈ w.live := mem_live.mpr ⟨hmem, hnot⟩
          rw [hlive] at hmem
          cases hmem
      · exact ⟨hfree.1, mem_cons_self⟩
      · have hnot : ¬ Confirmed id w := not_confirmed_of_no_live hinv hlive
        exact ⟨hfree.1, hfree.2.1, hnot⟩
  | rejected e | lost e =>
    cases hperf
    exact ⟨⟨hsingle, hinv.keyed, hinv.settled, hinv.submitted, hinv.confirmed, hinv.watched⟩,
      hguar _ rfl rfl rfl, hfree⟩
  | served _ | estimated _ | nothing => cases hperf

theorem triple_estimateGas (payload : SignedPayload) :
    SubmitterTriple P (estimateGas payload) (fun _ => P) P := by
  refine triple_catch (R := fun _ => P) (E := P) ?_ (fun _ => ?_) fun _ => ?_
  · exact triple_ofExcept (fun _ _ h => h) fun args _ => triple_keep rfl
  · exact triple_done fun _ _ h => h
  · exact triple_done fun _ _ h => h

theorem triple_broadcastPayload (cfg : SubmitterConfig) (payload : SignedPayload) :
    SubmitterTriple (free id i) (broadcastPayload cfg payload)
      (fun hash : String => sent id i hash) (free id i) := by
  refine triple_bind (triple_estimateGas payload) fun gas => ?_
  exact triple_ofExcept (fun _ _ h => h) fun args _ => triple_contract args _

variable {cfg : SubmitterConfig}

theorem triple_retryOrFail (hid : payload.id = id) (attempt : Nat) (e : Failure)
    {retry : SignedPayload → SubmitterProgram Submission}
    (hretry : ∀ payload, payload.id = id → SubmitterTriple (free id i)
      (retry payload) (handed id i) (active id i)) : SubmitterTriple (free id i)
      (retryOrFail cfg payload attempt e retry) (handed id i) (active id i) := by
  unfold retryOrFail
  cases e.message? with
  | none => exact triple_throw fun _ _ => active_of_free
  | some message =>
    refine triple_ite (fun _ => ?_) fun _ => ?_
    · exact triple_bind (triple_store (inr rfl) hid) fun _ =>
        triple_throw fun _ _ => active_of_free
    · exact triple_bind (triple_error (triple_keep rfl) fun _ _ => active_of_free)
        fun _ => hretry _ hid

theorem triple_submitAttempts (left attempt : Nat) (lastError : Failure) (hid : payload.id = id) :
    SubmitterTriple (free id i)
      (submitAttempts cfg left attempt lastError payload) (handed id i) (active id i) := by
  induction left generalizing attempt lastError payload with
  | zero => exact triple_throw fun _ _ => active_of_free
  | succ left ih =>
    refine triple_catch (triple_broadcastPayload cfg payload) (fun hash => ?_) fun e => ?_
    · refine triple_bind triple_now fun now => ?_
      refine triple_catch (triple_save_sent ?_ rfl rfl) (fun _ => ?_) fun e => ?_
      · exact hid
      · exact triple_done fun _ _ => handed_of_ready
      · refine triple_retryOrFail ?_ attempt e fun _ hid => ih _ _ hid
        exact hid
    · exact triple_retryOrFail hid attempt e fun _ hid => ih _ _ hid

theorem triple_submitPending (hid : payload.id = id) :
    SubmitterTriple (free id i) (submitPending cfg payload) (handed id i) (active id i) := by
  refine triple_ite (fun _ => triple_throw fun _ _ => active_of_free) fun _ => ?_
  refine triple_bind triple_now fun now => triple_ite (fun _ => ?_) fun _ => ?_
  · exact triple_bind (triple_store (inr rfl) hid) fun _ =>
      triple_throw fun _ _ => active_of_free
  · exact triple_submitAttempts _ 1 _ hid

def foundActive (id : String) (i : ι) : Option SignedPayload → SubmitterFact id i
  | none => active id i
  | some payload => ((active id i).and (((free id i).when (payload.status = .pending)).and
        ((ready id i (payload.transactionHash.getD "")).when
          (payload.status = .submitted)))).given (payload.id = id)

theorem triple_find_active : SubmitterTriple (active id i)
    (askSubmitter (.findOne id)) (foundActive id i)
    (active id i) := by
  refine triple_still rfl fun w c r hinv hactive _ hperf => ?_
  cases c with
  | served time =>
    cases hperf
    cases hrow : w.rows id with
    | none => exact hactive
    | some row =>
      exact ⟨hinv.keyed row hrow, hactive, free_of_pending hinv hactive hrow,
        ready_of_submitted hinv hactive hrow⟩
  | rejected e | lost e =>
    cases hperf
    exact hactive
  | estimated _ | accepted _ | nothing => cases hperf

theorem triple_submitFound (cfg : SubmitterConfig) (payload : SignedPayload) :
    SubmitterTriple (foundActive id i (some payload))
      (submitFound cfg payload) (handed id i) (active id i) := by
  refine triple_given fun hid => ?_
  unfold submitFound
  cases hstatus : payload.status with
  | pending => exact triple_pre (triple_submitPending hid) fun w _ h => h.2.1 rfl
  | failed => exact triple_throw fun _ _ h => h.1
  | confirmed =>
    cases payload.transactionHash.filter (· ≠ "") with
    | none => exact triple_throw fun _ _ h => h.1
    | some hash => exact triple_done fun _ _ h => ⟨h.1, fun hnot => (by cases hnot)⟩
  | submitted =>
    cases hfilter : payload.transactionHash.filter (· ≠ "") with
    | none => exact triple_throw fun _ _ h => h.1
    | some hash =>
      refine triple_done fun w _ h => ?_
      have hready := h.2.2 rfl
      rw [(Option.filter_eq_some_iff.mp hfilter).1] at hready
      exact handed_of_ready hready

theorem triple_submitPayload (cfg : SubmitterConfig) :
    SubmitterTriple (active id i) (submitPayload cfg id) (handed id i) (active id i) := by
  refine triple_ite (fun _ => ?_) fun _ => triple_throw fun _ _ h => h
  refine triple_bind triple_find_active fun found => ?_
  cases found with
  | none => exact triple_throw fun _ _ h => h
  | some payload => exact triple_submitFound cfg payload

theorem triple_retrySubmission (cfg : SubmitterConfig) :
    SubmitterTriple (free id i) (retrySubmission cfg id) (handed id i) (active id i) := by
  refine triple_bind (R := fun found : Option SignedPayload =>
    (free id i).given (∀ payload, found = some payload → payload.id = id)) ?_ fun found => ?_
  · refine triple_still rfl fun w c r hinv hfree _ hperf => ?_
    cases c with
    | served time =>
      cases hperf
      exact ⟨hinv.keyed, hfree⟩
    | rejected e | lost e =>
      cases hperf
      exact active_of_free hfree
    | estimated _ | accepted _ | nothing => cases hperf
  · refine triple_given fun hkeyed => ?_
    cases found with
    | none => exact triple_throw fun _ _ => active_of_free
    | some payload =>
      refine triple_ite (fun _ => triple_throw fun _ _ => active_of_free) fun _ => ?_
      refine triple_bind (triple_store (inl rfl) (hkeyed payload rfl)) fun _ => ?_
      exact triple_pre (triple_submitPayload cfg) fun _ _ => active_of_free

/-! ## Monitors -/

theorem triple_wait : SubmitterTriple (watching id i hash) (askSubmitter (.waitForTransaction hash))
    (fun answer : Option Receipt => match answer with
      | none => (watching id i hash).and (dead id i hash)
      | some receipt => (watching id i hash).and (known id i hash receipt))
    ((watching id i hash).and (dead id i hash)) := by
  refine triple_still rfl fun w c r hinv hwatch hg hperf => ?_
  cases c with
  | served time =>
    obtain ⟨receipt, hreceipt, heq⟩ := Option.map_eq_some_iff.mp hperf
    cases heq
    exact ⟨hwatch, hreceipt⟩
  | nothing =>
    cases hperf
    exact dead_of_failure hinv hwatch (hg rfl)
  | rejected e | lost e =>
    cases hperf
    exact dead_of_failure hinv hwatch (hg rfl)
  | estimated _ | accepted _ => cases hperf

theorem triple_find_watched {K : SubmitterFact id i} :
    SubmitterTriple ((watching id i hash).and K) (askSubmitter (.findOne id))
      (fun found : Option SignedPayload => ((watching id i hash).and K).given
        (∀ payload, found = some payload → payload.id = id ∧ payload.transactionHash = some hash))
      ((watching id i hash).and (dead id i hash)) := by
  refine triple_still rfl fun w c r hinv hP hg hperf => ?_
  cases c with
  | served time =>
    cases hperf
    exact ⟨fun payload hrow => ⟨hinv.keyed payload hrow, hinv.hash_eq hP.1 hrow⟩, hP⟩
  | rejected e | lost e =>
    cases hperf
    exact dead_of_failure hinv hP.1 (hg rfl)
  | estimated _ | accepted _ | nothing => cases hperf

theorem triple_save_verdict {K : SubmitterFact id i}
    (hid : payload.id = id) (hverdict : ∀ w, K w → Verdict hash w payload) :
    SubmitterTriple ((watching id i hash).and K)
      (askSubmitter (.save payload)) (fun _ => watching id i hash)
      ((watching id i hash).and (dead id i hash)) := by
  refine triple_call fun w c r w' hinv hP hg hperf => ?_
  obtain ⟨hwatch, hK⟩ := hP
  have hstored := hinv.verdict hwatch hid (hverdict w hK)
  have hguar := hinv.guar_verdict hwatch hid (hverdict w hK)
  obtain ⟨hworld, hresult⟩ := perform_save hperf
  rcases hresult with ⟨rfl, rfl⟩ | ⟨e, rfl, hfails⟩
  · exact ⟨hstored, hguar, hwatch⟩
  · have hdead := dead_of_failure hinv hwatch (hg hfails)
    rcases hworld with rfl | rfl
    · exact ⟨hstored, hguar, hdead⟩
    · exact ⟨hinv, guar_refl i w', hdead⟩

theorem triple_confirmTransaction : SubmitterTriple (watching id i hash)
    (confirmTransaction id hash) (fun _ => watching id i hash)
    ((watching id i hash).and (dead id i hash)) := by
  refine triple_bind triple_wait fun answer => ?_
  cases answer with
  | none => exact triple_throw fun _ _ h => h
  | some receipt =>
    refine triple_bind triple_find_watched fun found => triple_given fun hfound => ?_
    cases found with
    | none => exact triple_done fun _ _ h => h.1
    | some payload =>
      obtain ⟨hid, hhash⟩ := hfound payload rfl
      cases hreceipt : receipt.succeeded with
      | true =>
        refine triple_bind triple_now fun now => ?_
        refine triple_save_verdict ?_ fun w hknown => ⟨hhash, inl ⟨rfl, ?_⟩⟩
        · exact hid
        · exact ⟨receipt, hknown, hreceipt⟩
      | false =>
        refine triple_save_verdict ?_ fun w hknown => ⟨hhash, inr ⟨rfl, ?_⟩⟩
        · exact hid
        · exact reverted_iff.mpr ⟨receipt, hknown, hreceipt⟩

theorem triple_monitorTransaction : SubmitterTriple (watching id i hash)
    (monitorTransaction id hash) (fun _ => watching id i hash) (watching id i hash) := by
  refine triple_catch triple_confirmTransaction (fun _ => triple_done fun _ _ h => h) fun e => ?_
  refine triple_error (E := (watching id i hash).and (dead id i hash)) ?_ fun _ _ h => h.1
  refine triple_bind triple_find_watched fun found => triple_given fun hfound => ?_
  cases found with
  | none => exact triple_done fun _ _ h => h.1
  | some payload =>
    obtain ⟨hid, hhash⟩ := hfound payload rfl
    refine triple_save_verdict ?_ fun w hdead => ⟨hhash, inr ⟨rfl, hdead⟩⟩
    exact hid

/-! ## Calls -/

theorem triple_began (retry : Bool) : SubmitterTriple (.top : SubmitterFact id i)
    (askSubmitter (.began id retry))
    (fun _ => (active id i).and ((free id i).when (retry = true))) .top := by
  refine triple_call fun w c r w' hinv _ hg hperf => ?_
  cases c with
  | served time =>
    cases hperf
    obtain ⟨hidle, hretry⟩ := hg
    have hsettled : Settled id w := hinv.settled hidle
    refine ⟨⟨hinv.single, hinv.keyed, fun _ => hsettled, hinv.submitted, hinv.confirmed,
      hinv.watched⟩, ⟨fun h => h, fun j hj => ?_⟩, ⟨rfl, hsettled⟩, fun h => ?_⟩
    · refine undisturbed_of_running (inr hidle) (fun m hm _ => ?_) ?_ hj
      · exact hm
      · rfl
    · obtain ⟨hnobody, hended⟩ := hretry h
      refine ⟨rfl, hnobody, fun live hlive => ?_⟩
      obtain ⟨row, hrow, -, hway⟩ := hsettled live hlive
      rcases hended row hrow with h | h <;> rw [h] at hway <;> rcases hway with h | h <;> cases h
  | _ => cases hperf

theorem triple_finished_none : SubmitterTriple (active id i)
    (askSubmitter (.finished none)) (fun _ => .top) .top := by
  refine triple_call fun w c r w' hinv hactive _ hperf => ?_
  cases c with
  | served time =>
    cases hperf
    refine ⟨⟨hinv.single, hinv.keyed, fun _ => hactive.2, hinv.submitted, hinv.confirmed,
      hinv.watched⟩, ⟨fun h => h, fun j hj => ?_⟩, trivial⟩
    refine undisturbed_of_running (inl hactive.1) (fun m hm _ => ?_) ?_ hj
    · exact hm
    · rfl
  | _ => cases hperf

theorem triple_finished_some : SubmitterTriple (ready id i hash)
    (askSubmitter (.finished (some hash)))
    (fun _ => watching id i hash) .top := by
  refine triple_call fun w c r w' hinv hready _ hperf => ?_
  cases c with
  | served time =>
    cases hperf
    obtain ⟨hactive, hobtained, hcarried⟩ := hready
    refine ⟨⟨hinv.single, hinv.keyed, fun _ => hactive.2, hinv.submitted, hinv.confirmed,
      fun m hm => ?_⟩, ⟨fun h => h, fun j hj => ?_⟩, mem_cons_self⟩
    · rcases mem_cons.mp hm with rfl | hm
      · exact ⟨hobtained.2, hcarried.2⟩
      · exact hinv.watched m hm
    · refine undisturbed_of_running (inl hactive.1) (fun m hm _ => ?_) ?_ hj
      · exact mem_cons_of_mem _ hm
      · rfl
  | _ => cases hperf

theorem triple_stopped : SubmitterTriple (watching id i hash)
    (askSubmitter .stopped) (fun _ => .top) .top := by
  refine triple_call fun w c r w' hinv hwatch _ hperf => ?_
  cases c with
  | served time =>
    cases hperf
    have hkept : ∀ m ∈ w.monitors, m.1 ≠ i → m ∈ w.monitors.filter fun m => m.1 ≠ i := by
      intro m hm hother
      exact mem_filter.mpr ⟨hm, by simpa using hother⟩
    refine ⟨⟨hinv.single, hinv.keyed, hinv.settled, hinv.submitted, hinv.confirmed,
      fun m hm => hinv.watched m (mem_of_mem_filter hm)⟩, ⟨fun h => h, fun j hj => ?_⟩, trivial⟩
    refine ⟨fun hash' hmem => hkept _ hmem hj, fun _ _ h => h, fun _ => ?_⟩
    refine ⟨rfl, rfl, fun m hm => mem_of_mem_filter hm, fun _ => rfl, fun _ h => h, fun h => h⟩
  | _ => cases hperf

theorem triple_leaveMonitor : SubmitterTriple (ready id i hash) (leaveMonitor id hash)
    (fun _ => .top) .top := by
  refine triple_bind triple_finished_some fun _ => ?_
  exact triple_catch triple_monitorTransaction (fun _ => triple_stopped) fun _ => triple_stopped

theorem triple_method (cfg : SubmitterConfig) (call : SubmitterCall) : SubmitterTriple
    ((active id i).and ((free id i).when (decide (call = .retry) = true)))
    (call.method cfg id) (handed id i) (active id i) := by
  cases call with
  | submit => exact triple_pre (triple_submitPayload cfg) fun _ _ h => h.1
  | retry => exact triple_pre (triple_retrySubmission cfg) fun _ _ h => h.2 rfl

theorem triple_submitterCall (cfg : SubmitterConfig) (call : SubmitterCall) :
    SubmitterTriple (.top : SubmitterFact id i) (call.program cfg id) (fun _ => .top) .top := by
  refine triple_bind (triple_began _) fun _ => ?_
  refine triple_catch (triple_method cfg call) (fun submission => ?_) fun _ => triple_finished_none
  cases hmonitored : submission.monitored with
  | true =>
    simp only [hmonitored]
    exact triple_pre triple_leaveMonitor fun w _ h => h.2 hmonitored
  | false =>
    simp only [hmonitored]
    exact triple_pre triple_finished_none fun w _ h => h.1

end Triples

/-! ## Runs -/

structure Fresh (id : String) (w : SubmitterWorld ι) : Prop where
  keyed : ∀ row, w.rows id = some row → row.id = id
  status : ∀ row, w.rows id = some row → row.status = .pending ∨ row.status = .failed
  returned : w.returned = []
  broadcasts : w.broadcasts = []
  running : w.running = none
  monitors : w.monitors = []

theorem Fresh.inv (h : Fresh id w) : SubmitterInv id w where
  single live hmem := by
    rw [h.broadcasts] at hmem
    cases hmem
  keyed := h.keyed
  settled _ hash hlive := by
    have hmem := (mem_live.mp hlive).1
    rw [h.returned] at hmem
    cases hmem
  submitted row hrow hstatus := by
    rcases h.status row hrow with hrow | hrow <;> rw [hstatus] at hrow <;> cases hrow
  confirmed row hrow hstatus := by
    rcases h.status row hrow with hrow | hrow <;> rw [hstatus] at hrow <;> cases hrow
  watched m hm := by
    rw [h.monitors] at hm
    cases hm

/-- In every orderly interleaving the contract is called only while no returned transaction is
live, and a payload that was confirmed stays confirmed. -/
theorem one_live_broadcast_of_orderly [DecidableEq ι] {cfg : SubmitterConfig}
    {calls : ι → SubmitterCall} (hfresh : Fresh id w)
    {c c' : Pool submitterInterface Failure ι (SubmitterWorld ι) Unit}
    (hreach : Pool.Reach (submitterSemantics ι) (orderly ι) (submitterPool cfg id calls w) c)
    (hlater : Pool.Reach (submitterSemantics ι) (orderly ι) c c') :
    OneLive c'.world ∧ (Confirmed id c.world → Confirmed id c'.world) := by
  have hcompatible := submitter_compatible (ι := ι) id
  have hsafe := hreach.keeps hcompatible hfresh.inv (fun i => triple_submitterCall cfg (calls i))
    fun _ => trivial
  refine ⟨(hlater.safe hcompatible hsafe).world_inv.single, fun hconfirmed => ?_⟩
  refine hlater.preserves hcompatible hsafe (fun i v v' hguar => hguar.1) (fun e v h => ?_)
    hconfirmed
  obtain ⟨receipts, heq⟩ := mined_eq e.1 e.2 v
  have hhappen : (submitterSemantics ι).happen e v = { v with receipts := receipts } := heq
  rw [hhappen]
  exact h

/-! ### A payload that is confirmed -/

instance [DecidableEq ι] : ∀ (i : ι) op c w, Decidable (orderly ι i op c w) := fun _ op c w =>
  match op with
  | .began id retry => inferInstanceAs (Decidable (w.running = none ∧ (retry = true →
      w.monitors = [] ∧ ∀ row ∈ w.rows id, row.status = .pending ∨ row.status = .failed)))
  | .findOne _ | .save _ | .waitForTransaction _ =>
    inferInstanceAs (Decidable (SubmitterChoice.fails c = true → w.live = []))
  | .estimateGas _ | .submitPayload _ _ | .now | .sleep _ | .finished _ | .stopped =>
    inferInstanceAs (Decidable True)

def plainSubmitter : SubmitterConfig where
  toLowerCase message := message

def pendingPayload : SignedPayload where
  id := "p"
  payloadHash := "h"
  signature := "s"
  expiresAt := 1000

def pendingWorld : SubmitterWorld ι where
  rows id := if id = "p" then some pendingPayload else none

theorem fresh_pendingWorld : Fresh "p" (pendingWorld : SubmitterWorld ι) where
  keyed row hrow := by
    cases hrow
    rfl
  status row hrow := by
    cases hrow
    exact inl rfl
  returned := rfl
  broadcasts := rfl
  running := rfl
  monitors := rfl

def observed (c : Pool submitterInterface Failure ι (SubmitterWorld ι) Unit) :
    Option PayloadStatus × List (List String) :=
  ((c.world.rows "p").map (·.status), c.world.broadcasts)

def submission (i : ι) [DecidableEq ι] (hash : String) : List (Pool.Pick (submitterSemantics ι)) :=
  [.call i (.served 0), .call i (.served 0), .call i (.served 0), .call i (.estimated 21000),
    .call i (.accepted hash), .call i (.served 0), .call i (.served 0), .call i (.served 0)]

theorem confirmed_of_observed {c : Pool submitterInterface Failure ι (SubmitterWorld ι) Unit}
    {broadcasts : List (List String)} (h : observed c = (some .confirmed, broadcasts)) :
    Confirmed "p" c.world := by
  obtain ⟨row, hrow, hstatus⟩ := Option.map_eq_some_iff.mp (congrArg Prod.fst h)
  exact ⟨row, hrow, hstatus⟩

/-- A payload is submitted, mined and confirmed, and another call leaves it so. -/
theorem submitted_payload_confirmed :
    ∃ c c', Pool.Reach (submitterSemantics (Fin 2)) (orderly (Fin 2))
        (submitterPool plainSubmitter "p" (fun _ => .submit) pendingWorld) c ∧
      Pool.Reach (submitterSemantics (Fin 2)) (orderly (Fin 2)) c c' ∧
      Confirmed "p" c.world ∧ OneLive c'.world ∧ Confirmed "p" c'.world := by
  have hrun : ((Pool.run (submitterSemantics (Fin 2)) (orderly (Fin 2))
      (submission 0 "t" ++ .event ("t", ⟨true, 7⟩) :: replicate 5 (.call 0 (.served 0)))
      (submitterPool plainSubmitter "p" (fun _ => .submit) pendingWorld)).bind fun c₁ =>
        (Pool.run (submitterSemantics (Fin 2)) (orderly (Fin 2))
          (replicate 3 (.call 1 (.served 0))) c₁).map fun c₂ =>
            (observed c₁, observed c₂)) =
      some ((some .confirmed, [[]]), (some .confirmed, [[]])) := by
    decide +kernel
  obtain ⟨c, c', hreach, hconfirmed, hlater, -⟩ := Pool.exists_reach_of_run_run hrun
  have hlaw := one_live_broadcast_of_orderly fresh_pendingWorld hreach hlater
  exact ⟨c, c', hreach, hlater, confirmed_of_observed hconfirmed, hlaw.1,
    hlaw.2 (confirmed_of_observed hconfirmed)⟩

/-! ### A save that fails -/

/-- The contract has returned a transaction, its row cannot be stored, and the next attempt of the
same call broadcasts again. -/
theorem failed_save_broadcasts_twice : ∃ c, Pool.Reach (submitterSemantics Unit) (anyStep _)
      (submitterPool plainSubmitter "p" (fun _ => .submit) pendingWorld) c ∧
    c.world.receipts "t" = none ∧ ¬ OneLive c.world := by
  refine Pool.exists_run
    ((submission () "t").take 6 ++ [.call () (.rejected (.error "connection timeout")), .call ()
      (.served 0), .call () (.estimated 21000), .call () (.accepted "u")])
    (fun c => (c.world.broadcasts, c.world.receipts "t")) ([["t"], []], none) (by decide +kernel)
    fun c hreach hobserved => ?_
  have hbroadcasts : c.world.broadcasts = [["t"], []] := congrArg Prod.fst hobserved
  refine ⟨congrArg Prod.snd hobserved, fun hlaw => ?_⟩
  have hnil : ["t"] = [] := by
    apply hlaw
    rw [hbroadcasts]
    exact mem_cons_self
  cases hnil

end Trellis.Oracle
