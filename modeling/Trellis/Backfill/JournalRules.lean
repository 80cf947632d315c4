import Trellis.Backfill.World

/-!
# What keeps the undo journal good

A world and a journal fit when the journal can undo what the job did to the world.
{lit}`JournalRules` lists what has to be known of an adapter and a checkpoint store, one rule per
operation; then the stored journal fits the world along every history of runs, rollbacks and
crashes.
-/

namespace Trellis.Backfill

open Core

variable {R V X : Type}

/-! ## The rules -/

/-- How the operations of an adapter treat journals that fit its data. -/
structure JournalRules (A : AdapterModel R V X) (G : ApplyGuard A) (adapter : Adapter R V) where
  /-- The journal can undo what the job did. -/
  Fits : List (JournalEntry V) → X → Prop
  /-- What is known of the records of a page that are still to come. -/
  Fresh : List R → X → Prop
  /-- Writing the first record leaves the others alone. -/
  Apart : R → List R → Prop
  /-- The entry of the record is not needed. -/
  Droppable : String → X → Prop
  fits_happen : ∀ e x journal, Fits journal x → Fits journal (A.happen e x)
  fresh_happen : ∀ e x records, Fresh records x → Fresh records (A.happen e x)
  droppable_happen : ∀ e x recordId, Droppable recordId x → Droppable recordId (A.happen e x)
  fresh_cons : ∀ record rest x, Fresh (record :: rest) x → Fresh rest x ∧ Apart record rest
  fits_journal : ∀ record rest change journal x, adapter.plan record = .ok (some change) →
    Fresh (record :: rest) x → (∀ entry ∈ journal, entry.recordId ≠ change.recordId) →
      Fits journal x → Fits (journal ++ [⟨change.recordId, change.undo⟩]) x
  fits_drop : ∀ journal recordId x, Fits journal x → Droppable recordId x →
    Fits (journal.filter (·.recordId ≠ recordId)) x
  scan_spec : ∀ c x page, A.scan c x = some (.ok page) → Fresh page.records x
  apply_spec : ∀ record rest change checkpoint c x r x',
    adapter.plan record = .ok (some change) → Apart record rest →
      change.recordId ∈ checkpoint.journalIds → G change c ⟨some checkpoint, x⟩ →
        Fits checkpoint.journal x → Fresh rest x → A.apply record change c x = some (r, x') →
            Fits checkpoint.journal x' ∧ Fresh rest x' ∧
              (r = .ok .conflict → Droppable change.recordId x')
  restore_spec : ∀ older entry c x r x',
    A.restore entry.recordId entry.undo c x = some (r, x') → Fits (older ++ [entry]) x →
      Fits (older ++ [entry]) x' ∧ (r = .ok () → Fits older x')

namespace JournalRules

variable {A : AdapterModel R V X} {G : ApplyGuard A} {adapter : Adapter R V}
  (L : JournalRules A G adapter)

/-! ## The contract of an attempt -/

structure Sound (checkpoint : Checkpoint V) (w : JobWorld V X) : Prop where
  fits : L.Fits checkpoint.journal w.data
  rolledBack : checkpoint.status = .rolledBack → checkpoint.journal = []

structure Open (checkpoint : Checkpoint V) (w : JobWorld V X) : Prop where
  fits : L.Fits checkpoint.journal w.data
  status_ne : checkpoint.status ≠ .rolledBack

variable {L} in
variable {w : JobWorld V X}

variable {checkpoint : Checkpoint V}

theorem Open.sound (h : L.Open checkpoint w) : L.Sound checkpoint w :=
  ⟨h.fits, fun hstatus => absurd hstatus h.status_ne⟩

/-- The store holds a sound checkpoint, or none and there is nothing to undo. -/
def StoreSound (w : JobWorld V X) : Prop :=
  match w.stored with
  | none => L.Fits [] w.data
  | some checkpoint => L.Sound checkpoint w

variable {L} in
theorem StoreSound.sound (h : L.StoreSound w)
    (hstored : w.stored = some checkpoint) : L.Sound checkpoint w := by
  rw [StoreSound, hstored] at h
  exact h

variable {L} in
theorem StoreSound.fits_nil (h : L.StoreSound w) (hstored : w.stored = none) :
    L.Fits [] w.data := by
  rw [StoreSound, hstored] at h
  exact h

theorem storeSound_of_some
    (hstored : w.stored = some checkpoint) (h : L.Sound checkpoint w) : L.StoreSound w := by
  rw [StoreSound, hstored]
  exact h

theorem storeSound_of_keeps {w w' : JobWorld V X} (hstored : w'.stored = w.stored)
    (hkeeps : ∀ journal, L.Fits journal w.data → L.Fits journal w'.data) (h : L.StoreSound w) :
    L.StoreSound w' := by
  rw [StoreSound] at h ⊢
  rw [hstored]
  cases hw : w.stored with
  | none =>
    rw [hw] at h
    exact hkeeps _ h
  | some checkpoint =>
    rw [hw] at h
    exact ⟨hkeeps _ h.fits, h.rolledBack⟩

/-- The store stays sound; the rest of the system only moves by events. -/
def contract : Contract (JobWorld V X) where
  inv := L.StoreSound
  rely w w' := ∃ e, w' = (jobSemantics A).happen e w
  guar _ _ := True

/-- The job keeps its contract, from `P` to `Q` where it resolves and to `E` where it fails. -/
abbrev Keeps {α : Type} (P : Assertion L.contract) (p : Program R V α)
    (Q : α → Assertion L.contract) (E : Assertion L.contract) : Prop :=
  Triple (jobSemantics A) (onApply G) () P p Q E

def steady (P : JobWorld V X → Prop) (hP : ∀ e w, P w → P ((jobSemantics A).happen e w)) :
    Assertion L.contract where
  holds := P
  stable := by
    rintro w w' ⟨-, -, e, rfl⟩ h
    exact hP e w h

def opened (checkpoint : Checkpoint V) : Assertion L.contract :=
  L.steady (L.Open checkpoint) fun e w h => ⟨L.fits_happen e w.data _ h.fits, h.status_ne⟩

def saved (checkpoint : Checkpoint V) : Assertion L.contract :=
  L.steady (fun w => w.stored = some checkpoint) fun _ _ h => h

def fitting (journal : List (JournalEntry V)) : Assertion L.contract :=
  L.steady (fun w => L.Fits journal w.data) fun e w h => L.fits_happen e w.data journal h

def fresh (records : List R) : Assertion L.contract :=
  L.steady (fun w => L.Fresh records w.data) fun e w h => L.fresh_happen e w.data records h

def droppable (recordId : String) : Assertion L.contract :=
  L.steady (fun w => L.Droppable recordId w.data) fun e w h =>
    L.droppable_happen e w.data recordId h

/-- A run is working on a checkpoint, saved another one last, and has records to come. -/
def working (checkpoint committed : Checkpoint V) (records : List R) : Assertion L.contract :=
  ((L.opened checkpoint).and (L.opened committed)).and (L.fresh records)

/-- What is known after a part of the `try` block. -/
def after (records : List R) : Progress V → Assertion L.contract
  | .going checkpoint committed => L.working checkpoint committed records
  | .halted committed _ => L.opened committed

variable {L}

/-! ## The operations -/

theorem save_triple {P : Assertion L.contract}
    (hsound : ∀ w, L.contract.inv w → P w → L.Sound checkpoint w)
    (hkeeps : ∀ w stored, P w → P { w with stored }) :
    L.Keeps P (save checkpoint) (fun _ => P.and (L.saved checkpoint)) P := by
  refine triple_call fun w c r w' hinv hP _ hperf => ?_
  rcases save_cases hperf with rfl | ⟨rfl, e, rfl⟩
  · have hcheckpoint := hsound w hinv hP
    refine ⟨⟨hcheckpoint.fits, hcheckpoint.rolledBack⟩, trivial, ?_⟩
    cases r with
    | ok _ => exact ⟨hkeeps w _ hP, rfl⟩
    | error e => exact hkeeps w _ hP
  · exact ⟨hinv, trivial, hP⟩

variable {checkpoint committed : Checkpoint V}

theorem persist_triple (records : List R) {scanned : Nat} :
    L.Keeps (L.working checkpoint committed records) (persist checkpoint committed scanned)
      (fun progress => match progress with
        | .going checkpoint' committed' =>
          ((L.working checkpoint' committed' records).and (L.saved committed')).given
            (checkpoint' = checkpoint ∧ committed' = { checkpoint with scanned })
        | .halted committed' _ => L.opened committed') .top := by
  refine triple_bind (R := fun saved => saved.toOption.elim (L.opened committed) fun _ =>
    (L.working checkpoint committed records).and (L.saved { checkpoint with scanned })) ?_ ?_
  · refine triple_attempt (save_triple (L := L) ?_ ?_) (fun _ _ _ h => h) fun _ _ _ h => h.1.2
    · exact fun w _ h => ⟨h.1.1.fits, h.1.1.sound.rolledBack⟩
    · exact fun w _ h => ⟨⟨⟨h.1.1.fits, h.1.1.status_ne⟩, ⟨h.1.2.fits, h.1.2.status_ne⟩⟩, h.2⟩
  · intro saved
    cases saved with
    | error e => exact triple_done fun _ _ h => h
    | ok _ =>
      refine triple_done fun w _ h => ?_
      have hnext : L.Open { checkpoint with scanned } w := ⟨h.1.1.1.fits, h.1.1.1.status_ne⟩
      exact ⟨⟨rfl, rfl⟩, ⟨⟨h.1.1.1, hnext⟩, h.1.2⟩, h.2⟩

/-! ## One change -/

def applying (committed : Checkpoint V) (rest : List R) : Assertion L.contract :=
  ((L.opened committed).and (L.saved committed)).and (L.fresh rest)

variable {change : Change V} {rest : List R} {record : R} {committed : Checkpoint V}

variable (hplan : adapter.plan record = .ok (some change))
include hplan

theorem apply_triple
    (hapart : L.Apart record rest) (hmem : change.recordId ∈ committed.journalIds) :
    L.Keeps (applying (L := L) committed rest) (apply record change)
      (fun answer => match answer with
        | .conflict => (applying (L := L) committed rest).and (L.droppable change.recordId)
        | .written => applying (L := L) committed rest) (applying (L := L) committed rest) := by
  refine triple_call fun w c r w' hinv h hguard hperf => ?_
  obtain ⟨⟨hopen, hsaved⟩, hfresh⟩ := h
  obtain ⟨stored, x⟩ := w
  obtain rfl : stored = some committed := hsaved
  obtain ⟨c, x', rfl, happly, rfl⟩ := apply_cases hperf
  obtain ⟨hfits, hfresh', hdrop⟩ := L.apply_spec record rest change committed c x r x'
    hplan hapart hmem hguard hopen.fits hfresh happly
  have hopen' : L.Open committed ⟨some committed, x'⟩ := ⟨hfits, hopen.status_ne⟩
  have hholds : applying (L := L) committed rest ⟨some committed, x'⟩ :=
    ⟨⟨hopen', rfl⟩, hfresh'⟩
  refine ⟨hopen'.sound, trivial, ?_⟩
  match r, hdrop with
  | .ok .written, _ => exact hholds
  | .ok .conflict, hdrop => exact ⟨hholds, hdrop rfl⟩
  | .error e, _ => exact hholds

/-- What is known once a change was applied: the journal of the checkpoint is the stored one,
and after a conflict the entry of the record is not needed. -/
def applied (change : Change V) (committed : Checkpoint V) (rest : List R)
    (result : ApplyOutcome × Checkpoint V) : Assertion L.contract :=
  ((applying (L := L) committed rest).and
    ((L.droppable change.recordId).when (result.1 = .conflict))).given
      (result.2.journal = committed.journal ∧ result.2.status = committed.status)

theorem applyAttempts_triple
    (hapart : L.Apart record rest) (hmem : change.recordId ∈ committed.journalIds)
    (hjournal : checkpoint.journal = committed.journal)
    (hstatus : checkpoint.status = committed.status) (attempts : Nat) (lastError : String) :
    L.Keeps (applying (L := L) committed rest)
      (applyAttempts record change checkpoint attempts lastError)
      (applied (L := L) change committed rest) .top := by
  induction attempts generalizing lastError with
  | zero => exact triple_done fun _ _ h => ⟨⟨hjournal, hstatus⟩, h, fun hc => by cases hc⟩
  | succ attempts ih =>
    refine triple_bind (R := fun answer => match answer with
      | .ok .conflict => (applying (L := L) committed rest).and (L.droppable change.recordId)
      | _ => applying (L := L) committed rest)
      (triple_attempt (apply_triple hplan hapart hmem) ?_ fun _ _ _ h => h) ?_
    · rintro (_ | _) w _ h
      · exact h
      · exact h
    · intro answer
      match answer with
      | .ok .conflict => exact triple_done fun _ _ h => ⟨⟨hjournal, hstatus⟩, h.1, fun _ => h.2⟩
      | .ok .written =>
        exact triple_done fun _ _ h => ⟨⟨hjournal, hstatus⟩, h, fun hc => by cases hc⟩
      | .error e => exact ih e.text

/-! ## Records and pages -/

omit hplan in
theorem Open.of_journal_eq {checkpoint checkpoint' : Checkpoint V}
    (h : L.Open checkpoint w) (hjournal : checkpoint'.journal = checkpoint.journal)
    (hstatus : checkpoint'.status ≠ .rolledBack) : L.Open checkpoint' w := by
  refine ⟨?_, hstatus⟩
  rw [hjournal]
  exact h.fits

theorem Open.journalChange (h : L.Open checkpoint w) (hfresh : L.Fresh (record :: rest) w.data) :
    L.Open (checkpoint.journalChange change) w := by
  refine ⟨?_, by simpa using h.status_ne⟩
  rcases checkpoint.journalChange_cases change with ⟨-, hsame⟩ | ⟨hnone, hnew⟩
  · rw [hsame]
    exact h.fits
  · rw [hnew]
    exact L.fits_journal record rest change _ w.data hplan hfresh hnone h.fits

omit hplan in
theorem open_settle {result : ApplyOutcome × Checkpoint V} (diffLimit : Nat)
    (h : applied (L := L) change committed rest result w) :
    L.Open (settle change diffLimit result) w := by
  obtain ⟨⟨hjournal, hstatus⟩, ⟨⟨hopen, -⟩, -⟩, hdrop⟩ := h
  have hopen' : L.Open result.2 w :=
    hopen.of_journal_eq hjournal (by rw [hstatus]; exact hopen.status_ne)
  obtain ⟨outcome, checkpoint⟩ := result
  cases outcome with
  | applied =>
    exact hopen'.of_journal_eq (by simp [settle]) (by simpa [settle] using hopen'.status_ne)
  | failed => exact hopen'
  | conflict => exact ⟨L.fits_drop _ _ w.data hopen'.fits (hdrop rfl), hopen'.status_ne⟩

variable {options : RunOptions}

theorem applyAndSettle_triple (hmem : change.recordId ∈ committed.journalIds)
    (hjournal : checkpoint.journal = committed.journal)
    (hstatus : checkpoint.status = committed.status) :
    L.Keeps ((L.working checkpoint committed (record :: rest)).and (L.saved committed))
      (applyAndSettle options record change checkpoint committed) (L.after rest) .top := by
  refine triple_choose fun w hinv h => ?_
  obtain ⟨⟨⟨-, hopen⟩, hfresh⟩, hsaved⟩ := h
  obtain ⟨hrest, hapart⟩ := L.fresh_cons record rest w.data hfresh
  refine ⟨applying (L := L) committed rest, ?_,
    triple_bind (applyAttempts_triple hplan hapart hmem hjournal hstatus _ _) fun result => ?_⟩
  · exact ⟨⟨hopen, hsaved⟩, hrest⟩
  · exact triple_done fun w _ h => ⟨⟨open_settle _ h, h.2.1.1.1⟩, h.2.1.2⟩

variable {batchStartScanned : Nat}

theorem journalAndApply_triple : L.Keeps (L.working checkpoint committed (record :: rest))
      (journalAndApply options batchStartScanned record change checkpoint committed)
      (L.after rest) .top := by
  refine triple_bind (triple_pre (persist_triple (record :: rest)) ?_) ?_
  · exact fun w _ h => ⟨⟨h.1.1.journalChange hplan h.2, h.1.2⟩, h.2⟩
  · intro progress
    match progress with
    | .halted committed e => exact triple_done fun _ _ h => h
    | .going checkpoint' committed' =>
      refine triple_given fun heq => ?_
      obtain ⟨rfl, rfl⟩ := heq
      exact applyAndSettle_triple hplan (checkpoint.mem_journalIds_journalChange change) rfl rfl

omit hplan

theorem processRecord_triple : L.Keeps (L.working checkpoint committed (record :: rest))
    (processRecord adapter options batchStartScanned record checkpoint committed)
    (L.after rest) .top := by
  dsimp only [processRecord]
  -- Records that are not written leave the journal and the status alone.
  have hskip : ∀ checkpoint' : Checkpoint V, checkpoint'.journal = checkpoint.journal →
      checkpoint'.status = checkpoint.status →
        L.Keeps (L.working checkpoint committed (record :: rest))
          (.done (.going checkpoint' committed)) (L.after rest) .top := by
    intro checkpoint' hjournal hstatus
    refine triple_done fun w _ h => ?_
    have hopen := h.1.1.of_journal_eq hjournal (by rw [hstatus]; exact h.1.1.status_ne)
    exact ⟨⟨hopen, h.1.2⟩, (L.fresh_cons record rest w.data h.2).1⟩
  split
  · exact hskip _ rfl rfl
  · exact hskip _ rfl rfl
  · rename_i change hplan
    split
    · exact hskip _ (by simp) (by simp)
    · refine triple_pre (journalAndApply_triple hplan) fun w _ h => ?_
      exact ⟨⟨h.1.1.of_journal_eq rfl h.1.1.status_ne, h.1.2⟩, h.2⟩

theorem processRecords_triple (records : List R) (checkpoint committed : Checkpoint V) :
    L.Keeps (L.working checkpoint committed records)
      (processRecords adapter options batchStartScanned records checkpoint committed)
      (L.after []) .top := by
  induction records generalizing checkpoint committed with
  | nil => exact triple_done fun _ _ h => h
  | cons record rest ih =>
    refine triple_bind processRecord_triple fun progress => ?_
    match progress with
    | .halted committed e => exact triple_done fun _ _ h => h
    | .going checkpoint committed => exact ih checkpoint committed

theorem failRun_triple {e : Failure} :
    L.Keeps (L.opened committed) (failRun committed e) (fun _ => .top) .top := by
  refine triple_bind (R := fun _ => .top) (triple_attempt (save_triple (L := L) ?_ ?_)
    (fun _ _ _ _ => trivial) fun _ _ _ _ => trivial) fun _ => triple_fail
  · exact fun w _ h => ⟨h.fits, fun hstatus => by cases hstatus⟩
  · exact fun w _ h => ⟨h.fits, h.status_ne⟩

theorem Open.turnPage (h : L.Open checkpoint w)
    (nextCursor : Option String) : L.Open (turnPage checkpoint nextCursor) w := by
  refine h.of_journal_eq rfl ?_
  unfold Backfill.turnPage
  split
  · simp
  · exact h.status_ne

theorem scan_triple {cursor : Option String} {limit : Nat} :
    L.Keeps ((L.opened checkpoint).and (L.opened committed)) (scan cursor limit)
      (fun page => L.working checkpoint committed page.records) (L.opened committed) := by
  refine triple_call fun w c r w' hinv h _ hperf => ?_
  obtain ⟨c, hscan, rfl⟩ := scan_cases hperf
  refine ⟨hinv, trivial, ?_⟩
  cases r with
  | ok page => exact ⟨h, L.scan_spec c w'.data page hscan⟩
  | error e => exact h.2

theorem processPages_triple (pages : Nat) (checkpoint committed : Checkpoint V) :
    L.Keeps ((L.opened checkpoint).and (L.opened committed))
      (processPages adapter options pages checkpoint committed) (fun _ => .top) .top := by
  induction pages generalizing checkpoint committed with
  | zero => exact triple_return
  | succ pages ih =>
    refine triple_bind (R := fun page => match page with
      | .ok page => L.working checkpoint committed page.records
      | .error _ => L.opened committed)
      (triple_attempt scan_triple (fun _ _ _ h => h) fun _ _ _ h => h) fun page => ?_
    cases page with
    | error e => exact failRun_triple
    | ok page =>
      refine triple_bind (processRecords_triple page.records checkpoint committed)
        fun progress => ?_
      match progress with
      | .halted committed e => exact failRun_triple
      | .going checkpoint committed =>
        refine triple_bind (triple_pre (persist_triple []) fun w _ h =>
          ⟨⟨h.1.1.turnPage page.nextCursor, h.1.2⟩, h.2⟩) fun saved => ?_
        match saved with
        | .halted committed e => exact failRun_triple
        | .going checkpoint committed =>
          dsimp only
          split
          · exact triple_return
          · exact triple_pre (ih checkpoint committed) fun w _ h => h.2.1.1

/-! ## Attempts -/

theorem load_triple {P : Assertion L.contract} :
    L.Keeps P load (fun found => P.and (L.steady (fun w => w.stored = found)
      fun _ _ h => h)) P := by
  refine triple_call fun w c r w' hinv h _ hperf => ?_
  obtain ⟨rfl, hfound⟩ := load_cases hperf
  refine ⟨hinv, trivial, ?_⟩
  cases r with
  | ok found => exact ⟨h, (hfound found rfl).symm⟩
  | error e => exact h

variable {jobId : String}

theorem checkExisting_ok {existing : Checkpoint V}
    (h : checkExisting jobId options existing = .ok ()) : existing.status ≠ .rolledBack := by
  intro hstatus
  simp [checkExisting, hstatus] at h

theorem run_triple {authorized : Bool} {pages : Nat} :
    L.Keeps .top (run adapter authorized jobId options pages) (fun _ => .top) .top := by
  unfold run
  split
  · refine triple_bind load_triple fun found => ?_
    cases found with
    | none =>
      refine triple_pre (processPages_triple _ _ _) fun w hinv h => ?_
      have hfits : L.Fits [] w.data := hinv.fits_nil h.2
      exact ⟨⟨hfits, by simp [freshCheckpoint]⟩, ⟨hfits, by simp [freshCheckpoint]⟩⟩
    | some existing =>
      refine triple_ofExcept_bind fun _ hok => ?_
      split
      · exact triple_return
      · refine triple_pre (processPages_triple _ _ _) fun w hinv h => ?_
        have hopen : L.Open existing w := ⟨(hinv.sound h.2).fits, checkExisting_ok hok⟩
        exact ⟨hopen.of_journal_eq rfl (by simp), hopen.of_journal_eq rfl (by simp)⟩
  · exact triple_fail

theorem restore_triple {older : List (JournalEntry V)}
    {entry : JournalEntry V} (hjournal : checkpoint.journal = older ++ [entry]) :
    L.Keeps (L.saved checkpoint) (restore entry.recordId entry.undo)
      (fun _ => L.fitting older) .top := by
  refine triple_call fun w c r w' hinv hsaved _ hperf => ?_
  have hsound := hinv.sound hsaved
  have hfits : L.Fits (older ++ [entry]) w.data := by
    rw [← hjournal]
    exact hsound.fits
  obtain ⟨c, x, hrestore, rfl⟩ := restore_cases hperf
  obtain ⟨hfits', hrestored⟩ := L.restore_spec older entry c w.data r x hrestore hfits
  refine ⟨L.storeSound_of_some hsaved ⟨?_, hsound.rolledBack⟩, trivial, ?_⟩
  · rw [hjournal]
    exact hfits'
  · cases r with
    | ok _ => exact hrestored rfl
    | error e => trivial

theorem save_fitting_triple (checkpoint : Checkpoint V)
    (hrolled : checkpoint.status = .rolledBack → checkpoint.journal = []) :
    L.Keeps (L.fitting checkpoint.journal) (save checkpoint)
      (fun _ => L.saved checkpoint) .top := by
  refine triple_post (save_triple (L := L) (fun w _ h => ⟨h, hrolled⟩) fun _ _ h => h)
    fun _ _ _ h => h.2

theorem restoreAll_triple (checkpoint : Checkpoint V) (entries : List (JournalEntry V))
    (hstatus : checkpoint.status = .rolledBack → entries = []) :
    L.Keeps (L.saved { checkpoint with journal := entries.reverse }) (restoreAll checkpoint entries)
      (fun _ => L.saved { checkpoint with journal := [] }) .top := by
  induction entries with
  | nil => exact triple_done fun _ _ h => h
  | cons entry older ih =>
    have hne : checkpoint.status ≠ .rolledBack := fun h => by cases hstatus h
    refine triple_bind (restore_triple (List.reverse_cons)) fun _ => ?_
    refine triple_bind (save_fitting_triple { checkpoint with journal := older.reverse }
      fun h => absurd h hne) fun _ => ?_
    exact ih fun h => absurd h hne

theorem rollback_triple {authorized : Bool} :
    L.Keeps .top (rollback authorized jobId : Program R V _) (fun _ => .top) .top := by
  unfold rollback
  split
  · refine triple_bind load_triple fun found => ?_
    cases found with
    | none => exact triple_fail
    | some checkpoint =>
      refine triple_choose fun w hinv h => ?_
      have hsound := hinv.sound h.2
      have hloop := restoreAll_triple (L := L) checkpoint checkpoint.journal.reverse
        fun hs => by rw [hsound.rolledBack hs, List.reverse_nil]
      rw [List.reverse_reverse] at hloop
      refine ⟨_, h.2, triple_bind hloop fun _ => ?_⟩
      refine triple_bind (R := fun _ => .top) ?_ fun _ => triple_return
      refine triple_pre (triple_post (save_fitting_triple _ fun _ => rfl) fun _ _ _ _ => trivial) ?_
      exact fun w hinv hsaved => (hinv.sound hsaved).fits
  · exact triple_fail

theorem starts_triple {p : Program R V (Checkpoint V)} (hp : Starts adapter jobId p) :
    L.Keeps .top p (fun _ => .top) .top := by
  cases hp with
  | run authorized options pages => exact run_triple
  | rollback authorized => exact rollback_triple

variable (L) in
theorem reach_sound {s s' : JobSession R V X}
    (hreach : Session.Reach (jobSemantics A) (onApply G) (Starts adapter jobId) s s')
    (hstart : Starts adapter jobId s.current) (hsound : L.StoreSound s.world) :
    L.StoreSound s'.world := by
  have hhappen : ∀ e w, L.contract.inv w →
      L.contract.inv ((jobSemantics A).happen e w) ∧ L.contract.rely w
        ((jobSemantics A).happen e w) := by
    intro e w hinv
    have hstored : ((jobSemantics A).happen e w).stored = w.stored := rfl
    exact ⟨L.storeSound_of_keeps hstored (fun journal => L.fits_happen e w.data journal) hinv,
      e, rfl⟩
  have hsafe := hreach.safe hhappen (fun p w hp hinv => (starts_triple hp).safe hinv trivial)
    ⟨hsound, (starts_triple hstart).safe hsound trivial⟩
  exact hsafe.world_inv

end JournalRules
end Trellis.Backfill
