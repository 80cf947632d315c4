import Trellis.Backfill.JournalRules

/-!
# The write-ahead journal

An adapter is known here only by its documented contract: an `apply` that answers with a conflict
has written nothing, and one that throws may or may not have written.
-/

namespace Trellis.Backfill

open Core List

/-! ## An adapter by its contract -/

/-- The records that a call of `apply` has written and no call of `restore` has put back. -/
structure Touched where
  written : List String

def Touched.write (x : Touched) (recordId : String) : Touched :=
  ⟨recordId :: x.written⟩

def Touched.putBack (x : Touched) (recordId : String) : Touched :=
  ⟨x.written.filter (· ≠ recordId)⟩

/-- What an adapter does with a call; `lost` is an effect whose caller only sees an error. -/
inductive CallChoice (R : Type) where
  | page (page : Page R)
  | served
  | conflicted
  | rejected (e : Failure)
  | lost (e : Failure)

variable {R V : Type}

def applyContract (change : Change V) :
    CallChoice R → Touched → Option (Except Failure ApplyAnswer × Touched)
  | .served, x => some (.ok .written, x.write change.recordId)
  | .conflicted, x => some (.ok .conflict, x)
  | .rejected e, x => some (.error e, x)
  | .lost e, x => some (.error e, x.write change.recordId)
  | .page _, _ => none

def restoreContract (recordId : String) :
    CallChoice R → Touched → Option (Except Failure Unit × Touched)
  | .served, x => some (.ok (), x.putBack recordId)
  | .rejected e, x => some (.error e, x)
  | .lost e, x => some (.error e, x.putBack recordId)
  | _, _ => none

/-- A call of `scan`; any page may be the answer. -/
def scanContract : CallChoice R → Touched → Option (Except Failure (Page R))
  | .page page, _ => some (.ok page)
  | .rejected e, _ => some (.error e)
  | _, _ => none

variable (R V) in
def contractAdapter : AdapterModel R V Touched where
  Choice := CallChoice R
  scan := scanContract
  apply _ change := applyContract change
  restore recordId _ := restoreContract recordId
  Event := Empty
  happen e := e.elim

/-- No conflict is answered for a record that the job has written and not put back. -/
def noLateConflict : ApplyGuard (contractAdapter R V)
  | change, .conflicted, w => change.recordId ∉ w.data.written
  | _, _, _ => True

/-- Every record that the job has written and not put back has an entry in the stored
journal. -/
def Journaled (w : JobWorld V Touched) : Prop :=
  ∀ recordId ∈ w.data.written, ∃ checkpoint, w.stored = some checkpoint ∧
    recordId ∈ checkpoint.journalIds

/-! ## The journal covers what was written -/

def Covers (journal : List (JournalEntry V)) (x : Touched) : Prop :=
  ∀ recordId ∈ x.written, recordId ∈ journal.map (·.recordId)

theorem Covers.mono {journal journal' : List (JournalEntry V)} {x x' : Touched}
    (h : Covers journal x) (hwritten : ∀ recordId ∈ x'.written, recordId ∈ x.written)
    (hjournal : ∀ entry ∈ journal, entry ∈ journal') : Covers journal' x' := by
  intro recordId hmem
  rcases mem_map.mp (h recordId (hwritten recordId hmem)) with ⟨entry, hentry, rfl⟩
  exact mem_map_of_mem (hjournal entry hentry)

variable {journal : List (JournalEntry V)} {recordId : String} {x : Touched}

theorem Covers.write (h : Covers journal x) (hmem : recordId ∈ journal.map (·.recordId)) :
    Covers journal (x.write recordId) := by
  intro other hother
  rcases mem_cons.mp hother with rfl | hother
  · exact hmem
  · exact h other hother

theorem Covers.drop (h : Covers journal x) (hdrop : recordId ∉ x.written) :
    Covers (journal.filter (·.recordId ≠ recordId)) x := by
  intro other hother
  rcases mem_map.mp (h other hother) with ⟨entry, hentry, rfl⟩
  refine mem_map_of_mem (mem_filter.mpr ⟨hentry, ?_⟩)
  have hne : entry.recordId ≠ recordId := by
    rintro rfl
    exact hdrop hother
  simpa using hne

theorem Covers.putBack (h : Covers journal x) : Covers journal (x.putBack recordId) :=
  h.mono (fun _ hmem => (mem_filter.mp hmem).1) fun _ hmem => hmem

theorem Covers.putBack_last {older : List (JournalEntry V)} {entry : JournalEntry V}
    (h : Covers (older ++ [entry]) x) : Covers older (x.putBack entry.recordId) := by
  intro other hother
  obtain ⟨hmem, hne⟩ := mem_filter.mp hother
  have hne' : other ≠ entry.recordId := by simpa using hne
  simpa [hne'] using h other hmem

/-! ## The rules -/

theorem applyContract_cases {change : Change V} {c : CallChoice R} {x x' : Touched}
    {r : Except Failure ApplyAnswer} (h : applyContract change c x = some (r, x')) :
    (c = .conflicted ∧ x' = x) ∨ (r ≠ .ok .conflict ∧ (x' = x ∨ x' = x.write change.recordId)) := by
  cases c with
  | served =>
    cases h
    exact .inr ⟨nofun, .inr rfl⟩
  | conflicted =>
    cases h
    exact .inl ⟨rfl, rfl⟩
  | rejected e =>
    cases h
    exact .inr ⟨nofun, .inl rfl⟩
  | lost e =>
    cases h
    exact .inr ⟨nofun, .inr rfl⟩
  | page page => cases h

theorem restoreContract_cases {c : CallChoice R} {x x' : Touched}
    {r : Except Failure Unit} (h : restoreContract recordId c x = some (r, x')) :
    x' = x.putBack recordId ∨ (x' = x ∧ ∃ e, r = .error e) := by
  cases c with
  | served =>
    cases h
    exact .inl rfl
  | rejected e =>
    cases h
    exact .inr ⟨rfl, e, rfl⟩
  | lost e =>
    cases h
    exact .inl rfl
  | conflicted => cases h
  | page page => cases h

def coverRules (adapter : Adapter R V) :
    JournalRules (contractAdapter R V) noLateConflict adapter where
  Fits := Covers
  Fresh _ _ := True
  Apart _ _ := True
  Droppable recordId x := recordId ∉ x.written
  fits_happen e := e.elim
  fresh_happen e := e.elim
  droppable_happen e := e.elim
  fresh_cons _ _ _ _ := ⟨trivial, trivial⟩
  fits_journal record rest change journal x _ _ _ h :=
    h.mono (fun _ hmem => hmem) fun _ hmem => List.mem_append_left _ hmem
  fits_drop journal recordId x h hdrop := h.drop hdrop
  scan_spec _ _ _ _ := trivial
  apply_spec record rest change checkpoint c x r x' _ _ hmem hguard h _ happly := by
    rcases applyContract_cases happly with ⟨rfl, rfl⟩ | ⟨hne, hx⟩
    · exact ⟨h, trivial, fun _ => hguard⟩
    · refine ⟨?_, trivial, fun hr => absurd hr hne⟩
      rcases hx with rfl | rfl
      · exact h
      · exact h.write hmem
  restore_spec older entry c x r x' hrestore h := by
    rcases restoreContract_cases hrestore with rfl | ⟨rfl, e, rfl⟩
    · exact ⟨h.putBack, fun _ => h.putBack_last⟩
    · exact ⟨h, nofun⟩

theorem journaled_of_storeSound {adapter : Adapter R V} {w : JobWorld V Touched}
    (h : (coverRules adapter).StoreSound w) : Journaled w := by
  intro recordId hmem
  cases hstored : w.stored with
  | none =>
    have hnone : recordId ∈ [] := h.fits_nil hstored recordId hmem
    cases hnone
  | some checkpoint => exact ⟨checkpoint, rfl, (h.sound hstored).fits recordId hmem⟩

/-- In every history of a job in which no conflict is answered for a record that the job has
written and not put back, every such record has an entry in the stored journal. -/
theorem unrestored_writes_are_journaled (adapter : Adapter R V) (jobId : String)
    (authorized : Bool) (options : RunOptions) (pages : Nat) {s : JobSession R V Touched}
    (hreach : Session.Reach (jobSemantics (contractAdapter R V)) (onApply noLateConflict)
      (Starts adapter jobId) (newJob adapter authorized jobId options pages ⟨[]⟩) s) :
    Journaled s.world := by
  have hstart : (coverRules adapter).StoreSound
      (newJob adapter authorized jobId options pages ⟨[]⟩).world := by
    intro recordId hmem
    cases hmem
  exact journaled_of_storeSound
    ((coverRules adapter).reach_sound hreach (.run authorized options pages) hstart)

/-! ## A write that is retried -/

abbrev ChannelRow : Type :=
  String × Option String

def channelAdapter : Adapter ChannelRow (Option String) where
  recordId := Prod.fst
  plan
    | (_, some _) => .ok none
    | (recordId, none) => .ok (some
        { recordId, field := "channels", before := none, after := some "email" })

abbrev ChannelPick : Type :=
  Session.Pick (jobSemantics (contractAdapter ChannelRow (Option String)))
    (Starts channelAdapter "channels-1")

def stores : ChannelPick :=
  .perform .served

def answers (c : CallChoice ChannelRow) : ChannelPick :=
  .perform (.adapter c)

/-- The job finds one row that needs the change and saves its journal entry. -/
def journaledRow : List ChannelPick :=
  [stores, answers (.page ⟨[("n1", none)], none⟩), stores]

instance : ∀ i op c w, Decidable
    (onApply (noLateConflict (R := ChannelRow) (V := Option String)) i op c w) :=
  fun _ (op : Op ChannelRow (Option String)) c w => match op, c with
    | .apply _ change, .adapter .conflicted =>
      inferInstanceAs (Decidable (change.recordId ∉ w.data.written))
    | .apply _ _, .adapter .served | .apply _ _, .adapter (.rejected _)
    | .apply _ _, .adapter (.lost _) | .apply _ _, .adapter (.page _)
    | .apply _ _, .served | .apply _ _, .rejected _ | .apply _ _, .lost _
    | .load, _ | .save _, _ | .scan _ _, _ | .restore _ _, _ => isTrue trivial

/-- What is seen of a job: the records that were written and the ones in the journal. -/
def seen (s : JobSession ChannelRow (Option String) Touched) : List String × Option (List String) :=
  (s.world.data.written, s.world.stored.map Checkpoint.journalIds)

/-- The write times out but took place, and the retry writes again. -/
theorem retried_write_is_journaled : ∃ s,
    Session.Reach (jobSemantics (contractAdapter ChannelRow (Option String)))
      (onApply noLateConflict) (Starts channelAdapter "channels-1")
      (newJob channelAdapter true "channels-1" {} 1 ⟨[]⟩) s ∧
    seen s = (["n1", "n1"], some ["n1"]) ∧ Journaled s.world := by
  refine Session.exists_run
    (journaledRow ++ [answers (.lost (.error "timeout")), answers .served, stores]) seen
    (["n1", "n1"], some ["n1"]) (by decide +kernel) fun s hreach hseen => ⟨hseen, ?_⟩
  exact unrestored_writes_are_journaled channelAdapter "channels-1" true {} 1 hreach

/-- The write times out but took place; the guard of the retry matches no row, and the job
drops the entry of the record it has written. -/
theorem retried_write_loses_its_entry : ∃ s,
    Session.Reach (jobSemantics (contractAdapter ChannelRow (Option String))) (anyStep _)
      (Starts channelAdapter "channels-1")
      (newJob channelAdapter true "channels-1" {} 1 ⟨[]⟩) s ∧
    seen s = (["n1"], some []) ∧ ¬Journaled s.world := by
  refine Session.exists_run
    (journaledRow ++ [answers (.lost (.error "timeout")), answers .conflicted, stores]) seen
    (["n1"], some []) (by decide +kernel) fun s _ hseen => ⟨hseen, fun hjournaled => ?_⟩
  injection hseen with hwritten hjournal
  have hmem : "n1" ∈ s.world.data.written := by
    rw [hwritten]
    exact mem_singleton.mpr rfl
  rcases hjournaled "n1" hmem with ⟨checkpoint, hstored, hid⟩
  rw [hstored] at hjournal
  injection hjournal with hnil
  rw [hnil] at hid
  cases hid

end Trellis.Backfill
