import Trellis.PauseControl.Invariant
import Trellis.Audit.EvidenceRules

/-!
# The calls of the pause service keep their contracts

One rule per function of the service, from the single save up to a whole call between the marks
of its start and of its end.
-/

namespace Trellis.PauseControl

open Core Option List PauseWorld
open Trellis.Audit (applyWithEvidence KeepsAssertions triple_applyWithEvidence)

section Contract

variable {ι : Type} [DecidableEq ι] {requests : ι → PauseRequest} {scope : String} {i j : ι}
  {w w' : PauseWorld ι}

/-! ## The functions of the service -/

/-- Every row that was found is active in the scope, still exists, and is one of those known
before. -/
def foundIn (i : ι) (scope : String) (O : Nat → Prop) (found : Option PauseScope) :
    PauseFact requests i where
  holds w := ∀ pause ∈ found, isActiveIn scope pause = true ∧ O pause.id ∧
    (known i pause.id scope : PauseFact requests i) w
  stable w w' hmove h pause hpause :=
    ⟨(h pause hpause).1, (h pause hpause).2.1, (known i pause.id scope).stable w w' hmove
      (h pause hpause).2.2⟩

section Administration

variable (hadmin : (requests i).administered = some scope) {Q : WithTop Int → Prop}
  {O : Nat → Prop}

variable (Q O) in
/-- What is known after an active row of the scope was looked for: the row that was found is the
only active one, so that it covers every standing activation. -/
def looked (found : Option PauseScope) : PauseFact requests i :=
  (administering hadmin (fun e => Q e ∧ ∃ pause ∈ found, e ≤ expiry pause.expiresAt)
    (fun n => ∃ pause ∈ found, n = pause.id)).and (foundIn i scope O found)

theorem triple_findActive : PauseTriple requests i (administering hadmin Q O)
    (findActive scope) (looked hadmin Q O) .top := by
  refine triple_post (triple_read (.findActive scope) (R := looked hadmin Q O) rfl
    (fun _ => rfl) fun w (found : Option PauseScope) hinv hP _ hanswer => ?_) fun _ _ _ h => h.2
  obtain ⟨hopen, hQ, hO⟩ := hP
  obtain ⟨pick, hpick⟩ : ∃ pick, pickFrom pick (w.pauses.select (isActiveIn scope)) = found := by
    rcases hanswer with ⟨pick, hpick⟩ | ⟨_, hcontra⟩
    · exact ⟨pick, some.inj hpick⟩
    · cases hcontra
  -- a row of the scope that is active is the one that was found
  have honly : ∀ n pause, w.pauses.get n = some pause → isActiveIn scope pause = true →
      ∃ pause' ∈ found, w.pauses.get n = some pause' ∧ n = pause'.id := by
    intro n pause hget hactive
    have hmem : pause ∈ w.pauses.select (isActiveIn scope) :=
      w.pauses.mem_select.mpr ⟨n, hget, hactive⟩
    cases found with
    | none =>
      rw [pickFrom_eq_none.mp hpick] at hmem
      cases hmem
    | some pause' =>
      obtain ⟨n', hget', hactive'⟩ := w.pauses.mem_select.mp (mem_of_pickFrom hpick)
      obtain rfl := hinv.unique scope n n' pause pause' hget hget' hactive hactive'
      exact ⟨pause', rfl, hget', (hinv.ids n pause' hget').symm⟩
  refine ⟨⟨hopen, fun e he hlt => ⟨hQ e he hlt, ?_⟩, fun n pause hget hactive => ?_⟩, ?_⟩
  · obtain ⟨n, pause, hget, hactive, hle⟩ := hinv.covered scope e he hlt
    obtain ⟨pause', hpause', hget', -⟩ := honly n pause hget hactive
    obtain rfl := some.inj (hget.symm.trans hget')
    exact ⟨pause, hpause', hle⟩
  · obtain ⟨pause', hpause', -, hid⟩ := honly n pause hget hactive
    exact ⟨pause', hpause', hid⟩
  · intro pause hpause
    obtain rfl := mem_def.mp hpause
    obtain ⟨n, hget, hactive⟩ := w.pauses.mem_select.mp (mem_of_pickFrom hpick)
    obtain rfl := hinv.ids n pause hget
    exact ⟨hactive, hO pause.id pause hget hactive, pause, hget, (isActiveIn_iff.mp hactive).1⟩

theorem triple_savePause (pause : PauseScope) (hscope : pause.scope = scope)
    (hcover : ∀ e, Q e → pause.active = true ∧ e ≤ expiry pause.expiresAt) : PauseTriple requests i
      ((administering hadmin Q (· = pause.id)).and (known i pause.id scope)) (savePause pause)
      (fun _ => (administering hadmin Q (· = pause.id)).and
        ((pausing hadmin (expiry pause.expiresAt)).when (pause.active = true))) .top := by
  refine triple_op rfl (fun w hinv hP _ => ?_) (fun w a hinv hP _ _ _ => ?_)
    fun _ _ _ _ _ _ => trivial
  · obtain ⟨⟨hopen, hQ, hO⟩, stored, hstored, hstoredScope⟩ := hP
    have hwrites : WritesIn scope w (w.effect i (.save pause)) :=
      writesIn_save hstored hstoredScope hscope
    refine ⟨hwrites.inv hinv (m := pause.id) (fun n p hget => ?_) (fun n p hget hactive => ?_)
      (fun e he hlt => ?_), hwrites.known,
      fun j hj => hwrites.tolerated hinv hadmin hopen hj⟩
    · rcases get_save_cases hget with ⟨rfl, rfl⟩ | ⟨-, hold⟩
      · rfl
      · exact hinv.ids n p hold
    · rcases get_save_cases hget with ⟨rfl, rfl⟩ | ⟨-, hold⟩
      · rfl
      · exact hO n p hold hactive
    · obtain ⟨hactive, hle⟩ := hcover e (hQ e he hlt)
      exact ⟨pause.id, pause, get_save_self hstored, isActiveIn_iff.mpr ⟨hscope, hactive⟩, hle⟩
  · obtain ⟨⟨hopen, hQ, hO⟩, stored, hstored, hstoredScope⟩ := hP
    refine ⟨⟨hopen, hQ, fun n p hget hactive => ?_⟩, fun hactive => ⟨hopen, fun _ => ?_⟩⟩
    · rcases get_save_cases hget with ⟨rfl, rfl⟩ | ⟨-, hold⟩
      · rfl
      · exact hO n p hold hactive
    · exact ⟨pause.id, pause, get_save_self hstored, isActiveIn_iff.mpr ⟨hscope, hactive⟩, rfl⟩

theorem triple_insertPause {pause : PauseFields} (hscope : pause.scope = scope)
    (hactive : pause.active = true) (hcover : ∀ e, Q e → e ≤ expiry pause.expiresAt) :
    PauseTriple requests i (administering hadmin Q fun _ => False) (insertPause pause)
      (fun _ => (administering hadmin Q fun _ => True).and
        (pausing hadmin (expiry pause.expiresAt))) .top := by
  have hin : ∀ n, isActiveIn scope { toPauseFields := pause, id := n } = true :=
    fun n => isActiveIn_iff.mpr ⟨hscope, hactive⟩
  refine triple_op rfl (fun w hinv hP _ => ?_) (fun w a hinv hP _ _ _ => ?_)
    fun _ _ _ _ _ _ => trivial
  · obtain ⟨hopen, hQ, hO⟩ := hP
    have hwrites : WritesIn scope w (w.effect i (.insert pause)) := writesIn_insert hscope
    refine ⟨hwrites.inv hinv (m := w.pauses.next) (fun n p hget => ?_)
      (fun n p hget hactive' => ?_) (fun e he hlt => ?_), hwrites.known,
      fun j hj => hwrites.tolerated hinv hadmin hopen hj⟩
    · rcases w.pauses.get_push_cases hget with ⟨rfl, rfl⟩ | hold
      · rfl
      · exact hinv.ids n p hold
    · rcases w.pauses.get_push_cases hget with ⟨rfl, -⟩ | hold
      · rfl
      · exact (hO n p hold hactive').elim
    · exact ⟨w.pauses.next, _, w.pauses.get_push_self _, hin _, hcover e (hQ e he hlt)⟩
  · obtain ⟨hopen, hQ, -⟩ := hP
    refine ⟨⟨hopen, hQ, fun _ _ _ _ => trivial⟩, hopen, fun _ => ?_⟩
    exact ⟨w.pauses.next, _, w.pauses.get_push_self _, hin _, rfl⟩

end Administration

variable {P : PauseFact requests i}

theorem triple_entry (entry : PauseAuditEntry) :
    PauseTriple requests i P (createAuditEntry entry) (fun _ => P) .top :=
  triple_post (triple_skip (.createAuditEntry entry) rfl fun _ => rfl) fun _ _ _ h => h

theorem triple_time : PauseTriple requests i P currentTime (fun _ => P) .top :=
  triple_post (triple_skip .now rfl fun _ => rfl) fun _ _ _ h => h

theorem keepsAssertions (audit : AdminAudit) :
    KeepsAssertions (pauseSemantics ι) (pauseGuard requests) i (pauseContract requests i)
      audit.service where
  record _ input :=
    triple_error (triple_skip (.recordSensitiveAction input) rfl fun _ => rfl) fun _ _ h => h.1
  delay _ ms :=
    triple_error (triple_skip (.delay ms) rfl fun _ => rfl) fun _ _ h => h.1

section Administration

variable {α : Type} (hadmin : (requests i).administered = some scope) {Q : WithTop Int → Prop}
  {O : Nat → Prop} {R : α → PauseFact requests i} {p : PauseProgram α}

theorem triple_found {pause : PauseScope} (h : isActiveIn scope pause = true → O pause.id →
      PauseTriple requests i
        ((administering hadmin Q (· = pause.id)).and (known i pause.id scope)) p R .top) :
    PauseTriple requests i (looked hadmin Q O (some pause)) p R .top := by
  refine triple_choose fun w _ hP => ?_
  obtain ⟨⟨hopen, hQ, honly⟩, hfound⟩ := hP
  obtain ⟨hactive, hO, hknown⟩ := hfound pause rfl
  refine ⟨(administering hadmin Q (· = pause.id)).and (known i pause.id scope),
    ⟨⟨hopen, fun e he hlt => (hQ e he hlt).1, fun n p hget hp => ?_⟩, hknown⟩, h hactive hO⟩
  obtain ⟨found, hmem, hn⟩ := honly n p hget hp
  rw [some.inj hmem]
  exact hn

theorem triple_notFound
    (h : PauseTriple requests i (administering hadmin Q fun _ => False) p R .top) :
    PauseTriple requests i (looked hadmin Q O none) p R .top := by
  refine triple_pre h fun w _ hP => ?_
  obtain ⟨⟨hopen, hQ, honly⟩, -⟩ := hP
  refine ⟨hopen, fun e he hlt => (hQ e he hlt).1, fun n p hget hp => ?_⟩
  obtain ⟨_, hnone, -⟩ := honly n p hget hp
  cases hnone

end Administration

section Activation

variable {opts : ActivatePauseOpts}
  (hadmin : (requests i).administered = some opts.scope.value) {Q : WithTop Int → Prop}

theorem triple_applyActivatePause (hQ : ∀ e, Q e → e ≤ expiry opts.expiresAt) :
    PauseTriple requests i (administering hadmin Q fun _ => True) (applyActivatePause opts)
      (fun _ => (administering hadmin Q fun _ => True).and
        (pausing hadmin (expiry opts.expiresAt))) .top := by
  refine triple_bind (triple_findActive hadmin) fun found => ?_
  cases found with
  | some existing =>
    refine triple_found hadmin fun hactive _ => ?_
    obtain ⟨hscope, hactive⟩ := isActiveIn_iff.mp hactive
    have hsave := triple_savePause hadmin (Q := Q) ({ existing with
      reason := opts.reason, activatedBy := opts.actorId, activatedByRole := some opts.actorRole,
      expiresAt := opts.expiresAt,
      environment := opts.environment }) hscope fun e he => ⟨hactive, hQ e he⟩
    refine triple_bind (triple_post hsave (fun _ w _ h => ?_)) fun updated =>
      triple_bind (triple_entry _) fun _ => triple_done fun _ _ h => h
    exact ⟨⟨h.1.1, h.1.2.1, fun _ _ _ _ => trivial⟩, h.2 hactive⟩
  | none =>
    refine triple_notFound hadmin (triple_bind (triple_insertPause hadmin rfl rfl hQ)
      fun saved => ?_)
    exact triple_bind (triple_entry _) fun _ => triple_done fun _ _ h => h

theorem triple_revertActivation {before : PauseSnapshot}
    (hQ : ∀ e, Q e → ∃ pause ∈ before.pause, e ≤ expiry pause.expiresAt) :
    PauseTriple requests i (administering hadmin Q fun _ => True)
      (revertActivation opts.scope.value before) (fun _ => .top) .top := by
  refine triple_bind (triple_findActive hadmin) fun found => ?_
  cases found with
  | none => exact triple_return
  | some current =>
    refine triple_found hadmin fun hactive _ => ?_
    obtain ⟨hscope, hactive⟩ := isActiveIn_iff.mp hactive
    obtain ⟨pause⟩ := before
    cases pause with
    | some previous =>
      have hsave := triple_savePause hadmin (Q := Q) ({ current with
        reason := previous.reason, activatedBy := previous.activatedBy,
        activatedByRole := previous.activatedByRole, environment := previous.environment,
        expiresAt := previous.expiresAt }) hscope fun e he => ?_
      · exact triple_bind hsave fun _ => triple_post (triple_entry _) fun _ _ _ _ => trivial
      · obtain ⟨pause, hpause, hle⟩ := hQ e he
        obtain rfl := some.inj hpause
        exact ⟨hactive, hle⟩
    | none =>
      refine triple_bind triple_time fun resumedAt => ?_
      have hsave := triple_savePause hadmin (Q := Q) ({ current with
        active := false, resumedBy := some "system", resumedByRole := some "system",
        resumeReason := some rollbackReason, resumedAt := some resumedAt }) hscope fun e he => ?_
      · exact triple_bind hsave fun _ => triple_post (triple_entry _) fun _ _ _ _ => trivial
      · obtain ⟨_, hnone, -⟩ := hQ e he
        cases hnone

end Activation

theorem triple_activatePause (service : PauseControlService) {opts : ActivatePauseOpts}
    (hadmin : (requests i).administered = some opts.scope.value) :
    PauseTriple requests i (administering hadmin (· ≤ expiry opts.expiresAt) fun _ => True)
      (activatePause service opts) (fun _ => pausing hadmin (expiry opts.expiresAt)) .top := by
  unfold activatePause
  split
  · exact triple_post (triple_applyActivatePause hadmin fun _ he => he) fun _ _ _ h => h.2
  · rename_i audit _
    -- the snapshot covers what stands, so that putting it back covers it again
    let Q (before : PauseSnapshot) (e : WithTop Int) : Prop :=
      e ≤ expiry opts.expiresAt ∧ ∃ pause ∈ before.pause, e ≤ expiry pause.expiresAt
    let B (before : PauseSnapshot) : PauseFact requests i :=
      administering hadmin (Q before) fun _ => True
    have hsnapshot :
      PauseTriple requests i (administering hadmin (· ≤ expiry opts.expiresAt) fun _ => True)
        (snapshotActive opts.scope.value) B .top := by
      refine triple_bind (triple_findActive hadmin) fun found => triple_done fun w _ h => ?_
      exact ⟨h.1.1, h.1.2.1, fun _ _ _ _ => trivial⟩
    refine triple_applyWithEvidence (keepsAssertions audit) (B := B)
      (A := fun before _ => (B before).and (pausing hadmin (expiry opts.expiresAt))) hsnapshot
      (fun before => triple_applyActivatePause hadmin fun e he => he.1)
      (fun before result => ?_) (fun before result => ?_) fun _ _ _ _ h => h.2
    · exact triple_bind (triple_post (triple_skip (.findActive opts.scope.value) rfl
        fun _ => rfl) fun _ _ _ h => h) fun _ => triple_done fun _ _ h => h
    · exact triple_pre (triple_revertActivation hadmin fun e he => he.2) fun _ _ h => h.1

section Resume

variable {args : ResumePauseArgs} (hadmin : (requests i).administered = some args.scope.value)
  {O : Nat → Prop}

/-- Nothing of the scope stands, and the row is the only one that may be active. -/
def resuming (n : Nat) : PauseFact requests i :=
  (administering hadmin (fun _ => False) (· = n)).and (known i n args.scope.value)

theorem triple_applyResumePause : PauseTriple requests i (administering hadmin (fun _ => False) O)
    (applyResumePause args) (fun _ => administering hadmin (fun _ => False) O) .top := by
  refine triple_bind (triple_findActive hadmin) fun found => ?_
  cases found with
  | none =>
    refine triple_notFound hadmin (triple_done fun w _ h => ?_)
    exact ⟨h.1, h.2.1, fun n p hget hp => (h.2.2 n p hget hp).elim⟩
  | some pause =>
    refine triple_found hadmin fun hactive hO => ?_
    obtain ⟨hscope, -⟩ := isActiveIn_iff.mp hactive
    refine triple_bind triple_time fun resumedAt => ?_
    have hsave := triple_savePause hadmin (Q := fun _ => False) ({ pause with
      active := false, resumedBy := some args.actorId, resumedByRole := some args.actorRole,
      resumeReason := some args.reason, resumedAt := some resumedAt }) hscope fun _ he => he.elim
    refine triple_bind hsave fun saved => ?_
    refine triple_bind (triple_entry _) fun _ => triple_done fun w _ h => ?_
    refine ⟨h.1.1, h.1.2.1, fun n p hget hp => ?_⟩
    rw [show n = pause.id from h.1.2.2 n p hget hp]
    exact hO

variable {n : Nat}

theorem triple_findById : PauseTriple requests i (P.and (known i n scope)) (findById n)
    (fun found => ((P.and (known i n scope)).given
      (∀ pause ∈ found, pause.id = n ∧ pause.scope = scope))) .top := by
  refine triple_post (triple_read (.findById n) (R := fun (found : Option PauseScope) =>
    .pure (∀ pause ∈ found, pause.id = n ∧ pause.scope = scope)) rfl (fun _ => rfl)
    fun w (found : Option PauseScope) hinv hP _ hanswer => ?_) fun _ _ _ h => ⟨h.2, h.1⟩
  intro pause hpause
  obtain rfl := mem_def.mp hpause
  have hget : w.pauses.get n = some pause := by
    rcases hanswer with ⟨pick, hpick⟩ | ⟨_, hcontra⟩
    · exact some.inj hpick
    · cases hcontra
  obtain ⟨stored, hstored, hscope⟩ := hP.2
  obtain rfl := some.inj (hget.symm.trans hstored)
  exact ⟨hinv.ids n pause hget, hscope⟩

theorem triple_revertResume {before : PauseSnapshot}
    (hbefore : ∀ pause ∈ before.pause, pause.id = n) :
    PauseTriple requests i (resuming hadmin n) (revertResume before) (fun _ => .top) .top := by
  obtain ⟨pause⟩ := before
  cases pause with
  | none => exact triple_return
  | some previous =>
    obtain rfl := hbefore previous rfl
    refine triple_bind triple_findById fun found => ?_
    refine triple_given fun hfound => ?_
    cases found with
    | none => exact triple_return
    | some row =>
      obtain ⟨hid, hscope⟩ := hfound row rfl
      have hsave := triple_savePause hadmin (Q := fun _ => False) ({ row with
        active := true, resumedBy := none, resumedByRole := none, resumeReason := none,
        resumedAt := none }) hscope fun _ he => he.elim
      refine triple_bind (triple_pre hsave fun w _ h => ?_) fun _ =>
        triple_post (triple_entry _) fun _ _ _ _ => trivial
      rw [hid]
      exact h

theorem triple_resumePause (service : PauseControlService) : PauseTriple requests i
    (administering hadmin (fun _ => False) fun _ => True) (resumePause service args)
    (fun _ => .top) .top := by
  unfold resumePause
  split
  · exact triple_post (triple_applyResumePause hadmin) fun _ _ _ _ => trivial
  · rename_i audit _
    refine triple_bind (triple_findActive hadmin) fun found => ?_
    cases found with
    | none => exact triple_return
    | some active =>
      refine triple_found hadmin fun _ _ => ?_
      let B (before : PauseSnapshot) : PauseFact requests i :=
        (resuming hadmin active.id).given (∀ pause ∈ before.pause, pause.id = active.id)
      have hsnapshot : PauseTriple requests i
          (resuming hadmin active.id) (snapshotActive args.scope.value (some active.id)) B
          .top := by
        refine triple_bind triple_findById fun found => triple_done fun w _ h => ?_
        exact ⟨fun pause hpause => (h.1 pause hpause).1, h.2⟩
      refine triple_applyWithEvidence (keepsAssertions audit) (B := B) (A := fun before _ =>
        B before) hsnapshot (fun before => ?_) (fun before _ => ?_) (fun before _ => ?_)
        fun _ _ _ _ _ => trivial
      · refine triple_given fun hbefore => ?_
        refine triple_post (triple_frame (fun w w' hguar hknown => ?_)
          (triple_applyResumePause hadmin)) fun _ _ _ h => ⟨hbefore, h⟩
        obtain ⟨pause, hget, hscope⟩ := hknown
        obtain ⟨pause', hget', hscope'⟩ := hguar.1 _ pause hget
        exact ⟨pause', hget', hscope'.trans hscope⟩
      · exact triple_bind (triple_post (triple_skip (.findById active.id) rfl
          fun _ => rfl) fun _ _ _ h => h) fun _ => triple_done fun _ _ h => h
      · exact triple_given fun hbefore => triple_revertResume hadmin hbefore

end Resume

/-! ## Readers -/

section Readers

variable {P : PauseFact requests i}

def loaded (i : ι) (pauses : List PauseScope) : PauseFact requests i where
  holds w := ∀ pause ∈ pauses, (known i pause.id pause.scope : PauseFact requests i) w
  stable w w' hmove h pause hpause :=
    (known i pause.id pause.scope).stable w w' hmove (h pause hpause)

theorem loaded_of_perm {pauses : List PauseScope} {p : PauseScope → Bool}
    (hinv : PauseInv requests w) (hperm : pauses.Perm (w.pauses.select p)) :
    (loaded i pauses : PauseFact requests i) w := by
  intro pause hpause
  obtain ⟨n, hget, -⟩ := w.pauses.mem_select.mp (hperm.mem_iff.mp hpause)
  obtain rfl := hinv.ids n pause hget
  exact ⟨pause, hget, rfl⟩

theorem triple_isExpired (pause : PauseScope) : PauseTriple requests i P (isExpired pause)
    (fun expired => P.and ((overdue i pause).when (expired = true))) (rejectedOp i) := by
  unfold isExpired
  split
  · refine triple_done fun w _ hP => ⟨hP, fun hfalse => ?_⟩
    cases hfalse
  · rename_i expiresAt hexpires
    refine triple_bind (triple_error (triple_read .now (R := fun (now : Int) =>
      (overdue i pause).when (expiresAt ≤ now)) rfl (fun _ => rfl)
      fun w (now : Int) _ _ hin hanswer hover => ?_) fun _ _ h => h.2)
      fun now => triple_done fun w _ h => ⟨h.1, fun hover => h.2 (of_decide_eq_true hover)⟩
    obtain rfl : w.clock = now := by
      rcases hanswer with ⟨pick, hpick⟩ | ⟨_, hcontra⟩
      · exact some.inj hpick
      · cases hcontra
    refine ⟨expiresAt, hexpires, hover, fun scope hscope e he => ?_⟩
    exact lt_of_le_of_lt (WithTop.coe_le_coe.mpr hover) (hin scope hscope e he)

theorem triple_expirePause (hreader : (requests i).administered = none) (pause : PauseScope) :
    PauseTriple requests i ((P.and (overdue i pause)).and (known i pause.id pause.scope))
      (expirePause pause)
      (fun _ => P) (rejectedOp i) := by
  refine triple_bind (triple_error (triple_skip .now rfl fun _ => rfl)
    fun _ _ h => h.2) fun resumedAt => ?_
  refine triple_bind (R := fun _ => P) (triple_weaken (triple_gentle (.save { pause with
    active := false, resumeReason := some "Auto-expired",
    resumedAt := some resumedAt }) (R := fun _ => .top) rfl (fun w hinv hP hadmissible => ?_)
    fun _ _ _ _ _ _ => trivial) (fun _ _ _ h => h.1.1.1) fun _ _ h => h.2) fun _ => ?_
  · obtain ⟨⟨-, time, htime, hover, -⟩, stored, hstored, hscope⟩ := hP
    have hsame := hadmissible hreader stored hstored
    exact expire_keeps hinv hstored hscope rfl (hsame.trans htime) hover
  · exact triple_error (triple_skip (.createAuditEntry _) rfl fun _ => rfl) fun _ _ h => h.2

theorem triple_checkPauses {scope : String} (hcheck : requests i = .check scope)
    (pauses : List PauseScope) : PauseTriple requests i
      ((expecting i scope fun e => ∃ pause ∈ pauses, e ≤ expiry pause.expiresAt).and
        (loaded i pauses)) (checkPauses pauses)
      (fun status => expecting i scope fun _ => status.paused = true) (rejectedOp i) := by
  have hreader : (requests i).administered = none := by
    rw [hcheck]
    rfl
  induction pauses with
  | nil =>
    refine triple_done fun w _ h e he => ?_
    obtain ⟨pause, hpause, -⟩ := h.1 e he
    cases hpause
  | cons pause rest ih =>
    refine triple_bind (triple_isExpired pause) fun expired => ?_
    cases expired with
    | false => exact triple_done fun _ _ _ _ _ => rfl
    | true =>
      refine triple_bind (triple_pre (triple_expirePause hreader pause) fun w _ h => ?_) fun _ => ih
      obtain ⟨⟨hexpecting, hloaded⟩, hoverdue⟩ := h
      refine ⟨⟨⟨fun e he => ?_, fun p hp => hloaded p (mem_cons_of_mem _ hp)⟩,
        hoverdue rfl⟩, hloaded pause mem_cons_self⟩
      -- the row that was over covers nothing that the check has to respect
      obtain ⟨time, htime, -, hlt⟩ := hoverdue rfl
      have hscope : scope ∈ (requests i).checks := by
        rw [hcheck]
        rfl
      obtain ⟨p, hp, hle⟩ := hexpecting e he
      rcases mem_cons.mp hp with rfl | hp
      · rw [htime] at hle
        exact absurd (hlt scope hscope e he) (not_lt.mpr hle)
      · exact ⟨p, hp, hle⟩

theorem triple_isOperationPaused {scope : String} (hcheck : requests i = .check scope) :
    PauseTriple requests i .top (isOperationPaused scope)
      (fun status => expecting i scope fun _ => status.paused = true) (rejectedOp i) := by
  refine triple_bind (triple_weaken (triple_read (.findPaused scope)
    (R := fun (pauses : List PauseScope) => (expecting i scope fun e =>
      ∃ pause ∈ pauses, e ≤ expiry pause.expiresAt).and (loaded i pauses)) rfl (fun _ => rfl)
    fun w (pauses : List PauseScope) hinv _ hin hanswer => ?_) (fun _ _ _ h => h.2)
    fun _ _ h => h.2) fun pauses => triple_checkPauses hcheck pauses
  have hperm : pauses.Perm (w.pauses.select fun pause =>
      isActiveIn scope pause || isActiveIn PausableScope.all.value pause) := by
    rcases hanswer with ⟨pick, hpick⟩ | ⟨_, hcontra⟩
    · exact mem_permutations'.mp (mem_of_pickFrom hpick)
    · cases hcontra
  refine ⟨fun e he => ?_, loaded_of_perm hinv hperm⟩
  have hlt : (w.clock : WithTop Int) < e := by
    refine hin scope ?_ e he
    rw [hcheck]
    rfl
  obtain ⟨n, pause, hget, hactive, hle⟩ :=
    hinv.covered scope e (expected_subset_standing _ he) hlt
  refine ⟨pause, hperm.mem_iff.mpr (w.pauses.mem_select.mpr ⟨n, hget, ?_⟩), hle⟩
  rw [hactive, Bool.true_or]

theorem triple_collectActive (hreader : (requests i).administered = none)
    (pauses active : List PauseScope) : PauseTriple requests i
      (loaded i pauses) (collectActive pauses active) (fun _ => .top) (rejectedOp i) := by
  induction pauses generalizing active with
  | nil => exact triple_return
  | cons pause rest ih =>
    refine triple_bind (triple_isExpired pause) fun expired => ?_
    cases expired with
    | false =>
      exact triple_pre (ih _) fun w _ h p hp => h.1 p (mem_cons_of_mem _ hp)
    | true =>
      refine triple_bind (triple_pre (triple_expirePause hreader pause) fun w _ h => ?_)
        fun _ => ih active
      obtain ⟨hloaded, hoverdue⟩ := h
      exact ⟨⟨fun p hp => hloaded p (mem_cons_of_mem _ hp), hoverdue rfl⟩,
        hloaded pause mem_cons_self⟩

theorem triple_getActivePauses (hreader : (requests i).administered = none) :
    PauseTriple requests i .top getActivePauses (fun _ => .top) (rejectedOp i) := by
  refine triple_bind (triple_weaken (triple_read .findAllActive
    (R := fun (pauses : List PauseScope) => loaded i pauses) rfl (fun _ => rfl)
    fun w (pauses : List PauseScope) hinv _ _ hanswer => ?_) (fun _ _ _ h => h.2)
    fun _ _ h => h.2) fun pauses => triple_collectActive hreader pauses []
  have hperm : pauses.Perm (w.pauses.select (·.active)) := by
    rcases hanswer with ⟨pick, hpick⟩ | ⟨_, hcontra⟩
    · exact mem_permutations'.mp (mem_of_pickFrom hpick)
    · cases hcontra
  exact loaded_of_perm hinv hperm

end Readers

/-! ## The start and the end of a call -/

variable {request : PauseRequest}

theorem administered_of_resumed (h : request.resumed = some scope) :
    request.administered = some scope := by
  cases request with
  | resume args => exact h
  | activate _ | check _ | list => cases h

theorem started_keeps (hinv : PauseInv requests w)
    (hadmissible : Admissible requests i w .started) : PauseInv requests (w.effect i .started) ∧
      (pauseContract requests i).guar w (w.effect i .started) := by
  have hfree : ∀ scope, (requests i).administered = some scope →
      Free requests scope w.history := fun scope hscope => hadmissible.1 scope hscope
  constructor
  · refine ⟨hinv.ids, hinv.unique, fun scope e he hlt => ?_,
      fun scope j hj j' hj' hadmin hadmin' => ?_,
      hinv.answered.cons fun _ _ _ hevent => by cases hevent⟩
    · refine hinv.covered scope e ?_ hlt
      simp only [effect, log, standing] at he
      split at he
      · cases he
      · exact he
    · -- a call that was open before administers another scope
      rcases mem_cons.mp hj with rfl | hold
      · rcases mem_cons.mp hj' with rfl | hold'
        · rfl
        · exact absurd hadmin' (hfree scope hadmin j' hold')
      · rcases mem_cons.mp hj' with rfl | hold'
        · exact absurd hadmin (hfree scope hadmin' j hold)
        · exact hinv.exclusive scope j hold j' hold' hadmin hadmin'
  · refine guar_log rfl fun j scope _ hopen hadmin => if_neg fun hresumed => ?_
    exact hfree scope (administered_of_resumed hresumed) j hopen hadmin

variable (requests) in
structure Settles (i : ι) (outcome : Except Failure PauseResponse) (w : PauseWorld ι) : Prop where
  activated : ∀ opts response, requests i = .activate opts → outcome = .ok response →
    i ∈ openCalls w.history ∧ ((w.clock : WithTop Int) < expiry opts.expiresAt →
      ∃ n pause, w.pauses.get n = some pause ∧ isActiveIn opts.scope.value pause = true ∧
        expiry pause.expiresAt = expiry opts.expiresAt)
  checked : ∀ scope, requests i = .check scope → expected requests scope i w.history ≠ [] →
    isPaused outcome = true ∨ .rejected i ∈ w.history

omit [DecidableEq ι] in
variable (requests scope) in
theorem standing_settled (i : ι) (outcome : Except Failure PauseResponse)
    (history : List (PauseEvent ι)) :
    standing requests scope (.settled i outcome :: history) = standing requests scope history ∨
      ∃ opts response, requests i = .activate opts ∧ outcome = .ok response ∧
        opts.scope.value = scope ∧ standing requests scope (.settled i outcome :: history) =
          expiry opts.expiresAt :: standing requests scope history := by
  simp only [standing]
  split
  · rename_i opts response hrequest
    split
    · rename_i hscope
      exact .inr ⟨opts, response, hrequest, rfl, hscope, rfl⟩
    · exact .inl rfl
  · exact .inl rfl

theorem settled_keeps {outcome : Except Failure PauseResponse} (hinv : PauseInv requests w)
    (hsettles : Settles requests i outcome w) : PauseInv requests (w.effect i (.settled outcome)) ∧
      (pauseContract requests i).guar w (w.effect i (.settled outcome)) := by
  have hopen : ∀ j, j ∈ openCalls (w.effect i (.settled outcome)).history →
      j ∈ openCalls w.history := fun j hj => (mem_filter.mp hj).1
  constructor
  · refine ⟨hinv.ids, hinv.unique, fun scope e he hlt => ?_, fun scope j hj j' hj' =>
      hinv.exclusive scope j (hopen j hj) j' (hopen j' hj'), hinv.answered.cons ?_⟩
    · rcases standing_settled requests scope i outcome w.history with
        hsame | ⟨opts, response, hi, hok, rfl, hcons⟩
      · exact hinv.covered scope e (hsame ▸ he) hlt
      · rcases mem_cons.mp (hcons ▸ he) with rfl | he
        · obtain ⟨n, pause, hget, hactive, hexpiry⟩ :=
            (hsettles.activated opts response hi hok).2 hlt
          exact ⟨n, pause, hget, hactive, hexpiry.ge⟩
        · exact hinv.covered _ e he hlt
    · intro k outcome' scope hevent hk hexpected
      cases hevent
      exact hsettles.checked scope hk hexpected
  · refine guar_log rfl fun j scope hj hopenj hadmin => ?_
    rcases standing_settled requests scope i outcome w.history with
      hsame | ⟨opts, response, hi, hok, rfl, -⟩
    · exact hsame
    · have hadmini : (requests i).administered = some opts.scope.value := by
        rw [hi]
        rfl
      have hopeni := (hsettles.activated opts response hi hok).1
      exact absurd (hinv.exclusive _ j hopenj i hopeni hadmin hadmini) hj

def ended (R : PauseResponse → PauseFact requests i)
    (E : PauseFact requests i) : Except Failure PauseResponse → PauseFact requests i
  | .ok response => R response
  | .error _ => E

theorem triple_observed {service : PauseControlService} {B E : PauseFact requests i}
    {R : PauseResponse → PauseFact requests i}
    (hstart : ∀ w, PauseInv requests w → Admissible requests i w .started → B (w.effect i .started))
    (hbody : PauseTriple requests i B (request.program service) R E)
    (hend : ∀ outcome w, ended R E outcome w → Settles requests i outcome w) :
    PauseTriple requests i .top (request.observed service) (fun _ => .top) .top := by
  have hstarted : PauseTriple requests i .top
      (ask .started) (fun _ => B) .top := by
    refine triple_call fun w c r w' hinv _ hguard hperf => ?_
    obtain ⟨rfl, rfl⟩ := Prod.mk.inj (some.inj ((perform_started i c w).symm.trans hperf))
    obtain ⟨hinv', hguar⟩ := started_keeps hinv hguard.1
    exact ⟨hinv', hguar, hstart w hinv hguard.1⟩
  refine triple_bind hstarted fun _ => ?_
  refine triple_bind (R := ended R E) (triple_attempt hbody (fun _ _ _ h => h)
    fun _ _ _ h => h) fun outcome => ?_
  have hsettled : PauseTriple requests i (ended R E outcome)
      (ask (.settled outcome)) (fun _ => .top) .top := by
    refine triple_call fun w c r w' hinv hP _ hperf => ?_
    obtain ⟨rfl, rfl⟩ := Prod.mk.inj (some.inj ((perform_settled i outcome c w).symm.trans hperf))
    obtain ⟨hinv', hguar⟩ := settled_keeps hinv (hend outcome w hP)
    exact ⟨hinv', hguar, trivial⟩
  refine triple_bind hsettled fun _ => ?_
  cases outcome with
  | ok response => exact triple_return
  | error e => exact triple_fail

end Contract

end Trellis.PauseControl
