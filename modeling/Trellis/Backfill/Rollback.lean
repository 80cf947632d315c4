import Trellis.Backfill.JournalRules

/-!
# Rolling a backfill back

The adapter is a table here. `apply` writes `change.after` where the record equals
`change.before`, `restore` writes `undo.before` where it equals `undo.after`, and others may edit
any record at any time.
-/

namespace Trellis.Backfill

open Core Function List

/-! ## The table -/

/-- A table, and for each record that the job has written and nobody has edited since the
value it had immediately before the job's write. -/
structure Table (V : Type) where
  value : String → Option V
  overwritten : String → Option V

structure Row (V : Type) where
  id : String
  value : V

variable {V : Type}

/-- The adapter of a table: `next` says what the value of a record should become. -/
def tableAdapter (next : V → Except Failure (Option V)) (field : String) : Adapter (Row V) V where
  recordId := Row.id
  plan row :=
    match next row.value with
    | .error e => .error e
    | .ok none => .ok none
    | .ok (some after) => .ok (some { recordId := row.id, field, before := row.value, after })

namespace Table

def write (t : Table V) (change : Change V) : Table V where
  value := Function.update t.value change.recordId (some change.after)
  overwritten := Function.update t.overwritten change.recordId (some change.before)

def edit (t : Table V) (recordId : String) (v : Option V) : Table V where
  value := Function.update t.value recordId v
  overwritten := Function.update t.overwritten recordId none

variable [DecidableEq V]

def apply (t : Table V) (change : Change V) : ApplyAnswer × Table V :=
  if t.value change.recordId = some change.before then (.written, t.write change)
  else (.conflict, t)

def restore (t : Table V) (recordId : String) (undo : Undo V) : Table V :=
  if t.value recordId = some undo.after then
    { t with value := Function.update t.value recordId (some undo.before) }
  else t

end Table

/-- What the table does with a call; `lost` is an effect whose caller only sees an error. -/
inductive TableChoice (V : Type) where
  | page (page : Page (Row V))
  | served
  | rejected (e : Failure)
  | lost (e : Failure)

structure Edit (V : Type) where
  recordId : String
  value : Option V

section Model

variable [DecidableEq V]

/-- A page holds different records, each with its current value. -/
def Current (t : Table V) (records : List (Row V)) : Prop :=
  (records.map Row.id).Nodup ∧ ∀ row ∈ records, t.value row.id = some row.value

instance (t : Table V) (records : List (Row V)) : Decidable (Current t records) :=
  inferInstanceAs (Decidable (_ ∧ _))

def scanTable : TableChoice V → Table V → Option (Except Failure (Page (Row V)))
  | .page page, t => if Current t page.records then some (.ok page) else none
  | .rejected e, _ => some (.error e)
  | _, _ => none

def applyTable (change : Change V) :
    TableChoice V → Table V → Option (Except Failure ApplyAnswer × Table V)
  | .served, t => some (.ok (t.apply change).1, (t.apply change).2)
  | .rejected e, t => some (.error e, t)
  | .lost e, t => some (.error e, (t.apply change).2)
  | .page _, _ => none

def restoreTable (recordId : String) (undo : Undo V) :
    TableChoice V → Table V → Option (Except Failure Unit × Table V)
  | .served, t => some (.ok (), t.restore recordId undo)
  | .rejected e, t => some (.error e, t)
  | .lost e, t => some (.error e, t.restore recordId undo)
  | .page _, _ => none

variable (V) in
def tableModel : AdapterModel (Row V) V (Table V) where
  Choice := TableChoice V
  scan := scanTable
  apply _ change := applyTable change
  restore := restoreTable
  Event := Edit V
  happen e t := t.edit e.recordId e.value

/-- The entries of the record in the stored journal are the undo data of the change. -/
def OwnUndo (change : Change V) (w : JobWorld V (Table V)) : Prop :=
  ∀ entry ∈ (w.stored.elim [] Checkpoint.journal), entry.recordId = change.recordId →
    entry.undo = change.undo

/-- The record holds what it held before the job's last write, if there was one. -/
def Untouched (recordId : String) (t : Table V) : Prop :=
  t.overwritten recordId = none ∨ t.overwritten recordId = t.value recordId

/-- A call of `apply` that writes finds the undo data of its own change in the journal, and one
that answers a conflict is not about a record that still holds what the job wrote. -/
def undoAtHand : ApplyGuard (tableModel V)
  | change, .served, w =>
    (w.data.value change.recordId = some change.before → OwnUndo change w) ∧
      (w.data.value change.recordId ≠ some change.before → Untouched change.recordId w.data)
  | change, .lost _, w => w.data.value change.recordId = some change.before → OwnUndo change w
  | _, _, _ => True

/-- After a completed rollback every record that the job wrote and nobody edited afterwards
holds the value it had immediately before the job's write. -/
def Restored (w : JobWorld V (Table V)) : Prop :=
  ∀ checkpoint, w.stored = some checkpoint → checkpoint.status = .rolledBack →
    ∀ recordId b, w.data.overwritten recordId = some b → w.data.value recordId = some b

end Model

/-! ## The journal can undo the writes -/

/-- A record that the job wrote holds its old value or what an entry says the job wrote, and
every entry of the record goes back to the old value. -/
structure Undoes (journal : List (JournalEntry V)) (t : Table V) : Prop where
  covered : ∀ recordId b, t.overwritten recordId = some b → t.value recordId = some b ∨
    ∃ a, ⟨recordId, ⟨b, a⟩⟩ ∈ journal ∧ t.value recordId = some a
  agree : ∀ entry ∈ journal, ∀ b, t.overwritten entry.recordId = some b → entry.undo.before = b

/-- A record to come was read as it is, unless somebody has edited it. -/
structure ReadAsIs (records : List (Row V)) (t : Table V) : Prop where
  nodup : (records.map Row.id).Nodup
  value_eq : ∀ row ∈ records, ∀ b, t.overwritten row.id = some b → t.value row.id = some row.value

def PutBack (recordId : String) (t : Table V) : Prop :=
  ∀ b, t.overwritten recordId = some b → t.value recordId = some b

variable {t : Table V}

theorem Undoes.edit {journal : List (JournalEntry V)} (h : Undoes journal t)
    (recordId : String) (v : Option V) : Undoes journal (t.edit recordId v) := by
  constructor
  · intro other b hb
    by_cases hid : other = recordId
    · subst hid
      simp [Table.edit] at hb
    · simp only [Table.edit, update_of_ne hid] at hb ⊢
      exact h.covered other b hb
  · intro entry hentry b hb
    by_cases hid : entry.recordId = recordId
    · simp [Table.edit, hid] at hb
    · simp only [Table.edit, update_of_ne hid] at hb
      exact h.agree entry hentry b hb

variable {records : List (Row V)}

theorem ReadAsIs.edit (h : ReadAsIs records t)
    (recordId : String) (v : Option V) : ReadAsIs records (t.edit recordId v) := by
  refine ⟨h.nodup, fun row hrow b hb => ?_⟩
  by_cases hid : row.id = recordId
  · simp [Table.edit, hid] at hb
  · simp only [Table.edit, update_of_ne hid] at hb ⊢
    exact h.value_eq row hrow b hb

theorem PutBack.edit {other : String} (h : PutBack other t)
    (recordId : String) (v : Option V) : PutBack other (t.edit recordId v) := by
  intro b hb
  by_cases hid : other = recordId
  · simp [Table.edit, hid] at hb
  · simp only [Table.edit, update_of_ne hid] at hb ⊢
    exact h b hb

variable {row : Row V}

theorem Undoes.journal {journal : List (JournalEntry V)}
    {rest : List (Row V)} (h : Undoes journal t) (hread : ReadAsIs (row :: rest) t)
    (hnone : ∀ entry ∈ journal, entry.recordId ≠ row.id) (after : V) :
    Undoes (journal ++ [⟨row.id, ⟨row.value, after⟩⟩]) t := by
  constructor
  · intro recordId b hb
    rcases h.covered recordId b hb with hold | ⟨a, hmem, hvalue⟩
    · exact .inl hold
    · exact .inr ⟨a, mem_append_left _ hmem, hvalue⟩
  · intro entry hentry b hb
    rcases mem_append.mp hentry with hentry | hentry
    · exact h.agree entry hentry b hb
    · obtain rfl := mem_singleton.mp hentry
      -- Without an entry of its own the record holds its old value, which the scan has read.
      have hold : t.value row.id = some b := by
        rcases h.covered row.id b hb with hold | ⟨a, hmem, -⟩
        · exact hold
        · exact absurd rfl (hnone _ hmem)
      have hread' := hread.value_eq row mem_cons_self b hb
      rw [hold] at hread'
      exact (Option.some.inj hread').symm

variable {recordId : String}

theorem Undoes.drop {journal : List (JournalEntry V)} (h : Undoes journal t)
    (hback : PutBack recordId t) : Undoes (journal.filter (·.recordId ≠ recordId)) t := by
  constructor
  · intro other b hb
    by_cases hid : other = recordId
    · subst hid
      exact .inl (hback b hb)
    · rcases h.covered other b hb with hold | ⟨a, hmem, hvalue⟩
      · exact .inl hold
      · exact .inr ⟨a, mem_filter.mpr ⟨hmem, by simpa using hid⟩, hvalue⟩
  · intro entry hentry
    exact h.agree entry (mem_filter.mp hentry).1

variable {change : Change V}

theorem Undoes.write {journal : List (JournalEntry V)}
    (h : Undoes journal t) (hmem : change.recordId ∈ journal.map (·.recordId))
    (hown : ∀ entry ∈ journal, entry.recordId = change.recordId → entry.undo = change.undo) :
    Undoes journal (t.write change) := by
  constructor
  · intro recordId b hb
    by_cases hid : recordId = change.recordId
    · subst hid
      simp only [Table.write, update_self, Option.some.injEq] at hb ⊢
      subst hb
      rcases mem_map.mp hmem with ⟨entry, hentry, hentryId⟩
      have hentryEq : entry = ⟨change.recordId, ⟨change.before, change.after⟩⟩ := by
        have hundo := hown entry hentry hentryId
        obtain ⟨recordId, undo⟩ := entry
        cases hentryId
        cases hundo
        rfl
      rw [hentryEq] at hentry
      exact .inr ⟨change.after, hentry, rfl⟩
    · simp only [Table.write, update_of_ne hid] at hb ⊢
      exact h.covered recordId b hb
  · intro entry hentry b hb
    by_cases hid : entry.recordId = change.recordId
    · simp only [Table.write, hid, update_self, Option.some.injEq] at hb
      rw [hown entry hentry hid]
      exact hb
    · simp only [Table.write, update_of_ne hid] at hb
      exact h.agree entry hentry b hb

theorem ReadAsIs.write (h : ReadAsIs records t) (hapart : change.recordId ∉ records.map Row.id) :
    ReadAsIs records (t.write change) := by
  refine ⟨h.nodup, fun row hrow b hb => ?_⟩
  have hid : row.id ≠ change.recordId := by
    intro heq
    exact hapart (heq ▸ mem_map_of_mem hrow)
  simp only [Table.write, update_of_ne hid] at hb ⊢
  exact h.value_eq row hrow b hb

section Rules

variable [DecidableEq V] {older : List (JournalEntry V)} {entry : JournalEntry V}

theorem Undoes.restore (h : Undoes (older ++ [entry]) t) :
    Undoes older (t.restore entry.recordId entry.undo) := by
  have hlast : entry ∈ older ++ [entry] := mem_append_right _ (mem_singleton.mpr rfl)
  unfold Table.restore
  split
  · rename_i hafter
    refine ⟨fun recordId b hb => ?_, fun other hother b hb =>
      h.agree other (mem_append_left _ hother) b hb⟩
    by_cases hid : recordId = entry.recordId
    · subst hid
      simp only [update_self]
      exact .inl (congrArg some (h.agree entry hlast b hb))
    · simp only [update_of_ne hid]
      rcases h.covered recordId b hb with hold | ⟨a, hmem, hvalue⟩
      · exact .inl hold
      · rcases mem_append.mp hmem with hmem | hmem
        · exact .inr ⟨a, hmem, hvalue⟩
        · exact absurd (congrArg JournalEntry.recordId (mem_singleton.mp hmem)) hid
  · rename_i hafter
    refine ⟨fun recordId b hb => ?_, fun other hother b hb =>
      h.agree other (mem_append_left _ hother) b hb⟩
    rcases h.covered recordId b hb with hold | ⟨a, hmem, hvalue⟩
    · exact .inl hold
    · rcases mem_append.mp hmem with hmem | hmem
      · exact .inr ⟨a, hmem, hvalue⟩
      · -- This is the entry being restored, and its record does not hold what it wrote.
        obtain rfl := mem_singleton.mp hmem
        exact absurd hvalue hafter

theorem Undoes.append_of_restore (h : Undoes (older ++ [entry]) t) :
    Undoes (older ++ [entry]) (t.restore entry.recordId entry.undo) := by
  refine ⟨fun recordId b hb => ?_, fun other hother b hb => ?_⟩
  · rcases h.restore.covered recordId b hb with hold | ⟨a, hmem, hvalue⟩
    · exact .inl hold
    · exact .inr ⟨a, mem_append_left _ hmem, hvalue⟩
  · refine h.agree other hother b ?_
    unfold Table.restore at hb
    split at hb <;> exact hb

/-! ## The rules -/

variable {next : V → Except Failure (Option V)} {field : String}

omit [DecidableEq V] in
theorem tableAdapter_plan (h : (tableAdapter next field).plan row = .ok (some change)) :
    change.recordId = row.id ∧ change.before = row.value := by
  simp only [tableAdapter] at h
  split at h
  · cases h
  · cases h
  · cases h
    exact ⟨rfl, rfl⟩

theorem table_apply_cases (t : Table V) (change : Change V) :
    (t.value change.recordId = some change.before ∧ t.apply change = (.written, t.write change)) ∨
      (t.value change.recordId ≠ some change.before ∧ t.apply change = (.conflict, t)) := by
  unfold Table.apply
  split
  · rename_i hvalue
    exact .inl ⟨hvalue, rfl⟩
  · rename_i hvalue
    exact .inr ⟨hvalue, rfl⟩

variable {c : TableChoice V} {t' : Table V}

/-- An admitted call of `apply` leaves the table as it is, which is not about to lose undo data
if a conflict is answered, or writes a change whose undo data are stored. -/
theorem applyTable_cases {stored : Option (Checkpoint V)} {r : Except Failure ApplyAnswer}
    (hguard : undoAtHand change c ⟨stored, t⟩) (h : applyTable change c t = some (r, t')) :
    (t' = t ∧ (r = .ok .conflict → Untouched change.recordId t)) ∨
      (t' = t.write change ∧ r ≠ .ok .conflict ∧ OwnUndo change ⟨stored, t⟩) := by
  cases c with
  | page page => cases h
  | rejected e =>
    cases h
    exact .inl ⟨rfl, nofun⟩
  | served =>
    rcases table_apply_cases t change with ⟨hvalue, happly⟩ | ⟨hvalue, happly⟩
    · rw [applyTable, happly] at h
      cases h
      exact .inr ⟨rfl, nofun, hguard.1 hvalue⟩
    · rw [applyTable, happly] at h
      cases h
      exact .inl ⟨rfl, fun _ => hguard.2 hvalue⟩
  | lost e =>
    rcases table_apply_cases t change with ⟨hvalue, happly⟩ | ⟨hvalue, happly⟩
    · rw [applyTable, happly] at h
      cases h
      exact .inr ⟨rfl, nofun, hguard hvalue⟩
    · rw [applyTable, happly] at h
      cases h
      exact .inl ⟨rfl, nofun⟩

theorem restoreTable_cases {undo : Undo V} {r : Except Failure Unit}
    (h : restoreTable recordId undo c t = some (r, t')) :
    t' = t.restore recordId undo ∨ (t' = t ∧ ∃ e, r = .error e) := by
  cases c with
  | page page => cases h
  | served =>
    cases h
    exact .inl rfl
  | rejected e =>
    cases h
    exact .inr ⟨rfl, e, rfl⟩
  | lost e =>
    cases h
    exact .inl rfl

omit [DecidableEq V] in
theorem Untouched.putBack (h : Untouched recordId t) : PutBack recordId t := by
  intro b hb
  rcases h with hnone | hsame
  · rw [hnone] at hb
    cases hb
  · rw [← hsame]
    exact hb

theorem readAsIs_of_scan {page : Page (Row V)}
    (h : scanTable c t = some (.ok page)) : ReadAsIs page.records t := by
  cases c with
  | page page' =>
    simp only [scanTable] at h
    split at h
    · rename_i hcurrent
      cases h
      exact ⟨hcurrent.1, fun row hrow _ _ => hcurrent.2 row hrow⟩
    · cases h
  | served => cases h
  | rejected e => cases h
  | lost e => cases h

def undoRules (next : V → Except Failure (Option V)) (field : String) :
    JournalRules (tableModel V) undoAtHand (tableAdapter next field) where
  Fits := Undoes
  Fresh := ReadAsIs
  Apart row rest := row.id ∉ rest.map Row.id
  Droppable := PutBack
  fits_happen e _ _ h := h.edit e.recordId e.value
  fresh_happen e _ _ h := h.edit e.recordId e.value
  droppable_happen e _ _ h := h.edit e.recordId e.value
  fresh_cons row rest t h := by
    have hnodup := List.nodup_cons.mp h.nodup
    exact ⟨⟨hnodup.2, fun other hother => h.value_eq other (List.mem_cons_of_mem _ hother)⟩,
      hnodup.1⟩
  fits_journal row rest change journal t hplan hread hnone h := by
    obtain ⟨hid, hbefore⟩ := tableAdapter_plan hplan
    rw [Change.undo, hid, hbefore]
    rw [hid] at hnone
    exact h.journal hread hnone change.after
  fits_drop _ _ _ h hback := h.drop hback
  scan_spec _ _ _ h := readAsIs_of_scan h
  apply_spec row rest change checkpoint c t r t' hplan hapart hmem hguard h hread happly := by
    rcases applyTable_cases hguard happly with ⟨rfl, hconflict⟩ | ⟨rfl, hne, hown⟩
    · exact ⟨h, hread, fun hr => (hconflict hr).putBack⟩
    · obtain ⟨hid, -⟩ := tableAdapter_plan hplan
      exact ⟨h.write hmem hown, hread.write (by rw [hid]; exact hapart), fun hr => absurd hr hne⟩
  restore_spec older entry c t r t' hrestore h := by
    rcases restoreTable_cases hrestore with rfl | ⟨rfl, e, rfl⟩
    · exact ⟨h.append_of_restore, fun _ => h.restore⟩
    · exact ⟨h, nofun⟩

theorem restored_of_storeSound
    {w : JobWorld V (Table V)} (h : (undoRules next field).StoreSound w) : Restored w := by
  intro checkpoint hstored hstatus recordId b hb
  have hsound := h.sound hstored
  have hfits : Undoes [] w.data := by
    rw [← hsound.rolledBack hstatus]
    exact hsound.fits
  rcases hfits.covered recordId b hb with hold | ⟨a, hmem, -⟩
  · exact hold
  · cases hmem

/-- In every history of a job over any table, with edits by others at any time, in which a
write finds its own undo data in the journal and no conflict is answered for a record that
still holds what the job wrote, a completed rollback restores what the job overwrote. -/
theorem rollback_restores (next : V → Except Failure (Option V)) (field jobId : String)
    (authorized : Bool) (options : RunOptions) (pages : Nat) (value : String → Option V)
    {s : JobSession (Row V) V (Table V)}
    (hreach : Session.Reach (jobSemantics (tableModel V)) (onApply undoAtHand)
      (Starts (tableAdapter next field) jobId)
      (newJob (tableAdapter next field) authorized jobId options pages ⟨value, fun _ => none⟩) s) :
    Restored s.world := by
  have hstart : (undoRules next field).StoreSound
      (newJob (tableAdapter next field) authorized jobId options pages
        (⟨value, fun _ => none⟩ : Table V)).world :=
    ⟨(fun _ _ hb => by cases hb), (fun _ hentry => by cases hentry)⟩
  exact restored_of_storeSound
    ((undoRules next field).reach_sound hreach (.run authorized options pages) hstart)

end Rules

/-! ## An edit between two attempts -/

def roundUp (n : Nat) : Except Failure (Option Nat) :=
  .ok (if n % 2 = 1 then some (n + 1) else none)

def roundingJob : JobSession (Row Nat) Nat (Table Nat) :=
  newJob (tableAdapter roundUp "amount") true "rounding-1" {} 1
    ⟨fun recordId => if recordId = "x" then some 1 else none, fun _ => none⟩

abbrev RoundingPick : Type :=
  Session.Pick (jobSemantics (tableModel Nat)) (Starts (tableAdapter roundUp "amount") "rounding-1")

def storeServes : RoundingPick :=
  .perform .served

def tableAnswers (c : TableChoice Nat) : RoundingPick :=
  .perform (.adapter c)

def journalAt (v : Nat) : List RoundingPick :=
  [storeServes, tableAnswers (.page ⟨[⟨"x", v⟩], none⟩), storeServes]

def applyAndRollBack : List RoundingPick :=
  [tableAnswers .served, storeServes, .restart _ (.rollback true), storeServes,
    tableAnswers .served, storeServes, storeServes]

/-- The attempt crashes, somebody sets the record to 5, and the job is run again. -/
def crashEditResume : List RoundingPick :=
  [.event ⟨"x", some 5⟩, .restart _ (.run true {} 1)]

instance (change : Change Nat) (w : JobWorld Nat (Table Nat)) : Decidable (OwnUndo change w) :=
  inferInstanceAs (Decidable (∀ entry ∈ _, _))

instance (recordId : String) (t : Table Nat) : Decidable (Untouched recordId t) :=
  inferInstanceAs (Decidable (_ ∨ _))

instance : ∀ i op c w, Decidable (onApply (undoAtHand (V := Nat)) i op c w) :=
  fun _ (op : Op (Row Nat) Nat) c w => match op, c with
    | .apply _ change, .adapter .served =>
      inferInstanceAs (Decidable ((w.data.value change.recordId = some change.before →
        OwnUndo change w) ∧ (w.data.value change.recordId ≠ some change.before →
          Untouched change.recordId w.data)))
    | .apply _ change, .adapter (.lost _) =>
      inferInstanceAs (Decidable (w.data.value change.recordId = some change.before →
        OwnUndo change w))
    | .apply _ _, .adapter (.rejected _) | .apply _ _, .adapter (.page _)
    | .apply _ _, .served | .apply _ _, .rejected _ | .apply _ _, .lost _
    | .load, _ | .save _, _ | .scan _ _, _ | .restore _ _, _ => isTrue trivial

def outcomeOf (s : JobSession (Row Nat) Nat (Table Nat)) :
    Option Status × Option Nat × Option Nat :=
  (s.world.stored.map Checkpoint.status, s.world.data.value "x", s.world.data.overwritten "x")

theorem unedited_record_is_restored : ∃ s,
    Session.Reach (jobSemantics (tableModel Nat)) (onApply undoAtHand)
      (Starts (tableAdapter roundUp "amount") "rounding-1") roundingJob s ∧
    outcomeOf s = (some .rolledBack, some 1, some 1) ∧ Restored s.world := by
  refine Session.exists_run (journalAt 1 ++ applyAndRollBack) outcomeOf
    (some .rolledBack, some 1, some 1) (by decide +kernel) fun s hreach houtcome => ⟨houtcome, ?_⟩
  exact rollback_restores roundUp "amount" "rounding-1" true {} 1 _ hreach

/-- The first attempt journals 1 and 2 and crashes before its write; the record is set to 5, the
second attempt keeps the old entry and writes 6, and the rollback has nothing to match. -/
theorem edited_record_is_not_restored : ∃ s,
    Session.Reach (jobSemantics (tableModel Nat)) (anyStep _)
      (Starts (tableAdapter roundUp "amount") "rounding-1") roundingJob s ∧
    outcomeOf s = (some .rolledBack, some 6, some 5) ∧ ¬Restored s.world := by
  refine Session.exists_run (journalAt 1 ++ crashEditResume ++ journalAt 5 ++ applyAndRollBack)
    outcomeOf (some .rolledBack, some 6, some 5) (by decide +kernel)
    fun s _ houtcome => ⟨houtcome, fun hrestored => ?_⟩
  injection houtcome with hstatus hvalues
  injection hvalues with hvalue hoverwritten
  rcases Option.map_eq_some_iff.mp hstatus with ⟨checkpoint, hstored, hrolled⟩
  have hold := hrestored checkpoint hstored hrolled "x" 5 hoverwritten
  rw [hvalue] at hold
  cases hold

end Trellis.Backfill
