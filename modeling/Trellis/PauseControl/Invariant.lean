import Trellis.PauseControl.Runs

/-!
# The invariant of the pause table

An activation that stands and is not over is covered by an active row of its scope. What a call
knows about the scope it administers survives the others, because they do not administer that
scope and a reader only ends rows that are over.
-/

namespace Trellis.PauseControl

open Core List PauseWorld

/-! ## Histories -/

section Histories

variable {ι : Type} {requests : ι → PauseRequest} {scope : String}

theorem standing_settled_subset (i : ι) (outcome : Except Failure PauseResponse)
    (history : List (PauseEvent ι)) :
    standing requests scope history ⊆ standing requests scope (.settled i outcome :: history) := by
  intro e he
  simp only [standing]
  split
  · split
    · exact mem_cons_of_mem _ he
    · exact he
  · exact he

variable {newer older : List (PauseEvent ι)}

theorem standing_append_subset
    (hnewer : ∀ j start, .started j start ∈ newer → (requests j).resumed ≠ some scope) :
    standing requests scope older ⊆ standing requests scope (newer ++ older) := by
  induction newer with
  | nil => exact List.Subset.refl _
  | cons event newer ih =>
    have ih := ih fun j start hj => hnewer j start (mem_cons_of_mem _ hj)
    cases event with
    | started j start =>
      have hresumed := hnewer j start mem_cons_self
      simp only [cons_append, standing, if_neg hresumed]
      exact ih
    | rejected j => exact ih
    | settled j outcome => exact List.Subset.trans ih (standing_settled_subset j outcome _)

theorem mem_standing_activation {i : ι} {opts : ActivatePauseOpts} {pause : PauseResponse}
    {earlier : List (PauseEvent ι)} (hi : requests i = .activate opts) : expiry opts.expiresAt ∈
      standing requests opts.scope.value (.settled i (.ok pause) :: earlier) := by
  simp [standing, hi]

variable [DecidableEq ι] {k : ι}

theorem expected_subset_standing (history : List (PauseEvent ι)) :
    expected requests scope k history ⊆ standing requests scope history := by
  induction history with
  | nil => exact List.Subset.refl _
  | cons event history ih =>
    cases event with
    | started i time =>
      simp only [expected, standing]
      split
      · exact List.Subset.refl _
      · split
        · exact append_subset.mpr ⟨filter_sublist.subset, ih⟩
        · exact ih
    | rejected i => exact ih
    | settled i outcome => exact List.Subset.trans ih (standing_settled_subset i outcome history)

theorem expected_append_subset
    (hnewer : ∀ j start, .started j start ∈ newer → (requests j).resumed ≠ some scope) :
    expected requests scope k older ⊆ expected requests scope k (newer ++ older) := by
  induction newer with
  | nil => exact List.Subset.refl _
  | cons event newer ih =>
    have ih := ih fun j start hj => hnewer j start (mem_cons_of_mem _ hj)
    cases event with
    | started j start =>
      have hresumed := hnewer j start mem_cons_self
      simp only [cons_append, expected, if_neg hresumed]
      split
      · exact List.Subset.trans ih (subset_append_right _ _)
      · exact ih
    | rejected j => exact ih
    | settled j outcome => exact ih

variable {event : PauseEvent ι}

theorem expected_cons_subset (history : List (PauseEvent ι))
    (hevent : event.caller = k → event = .rejected k) :
    expected requests scope k (event :: history) ⊆ expected requests scope k history := by
  cases event with
  | started i time =>
    have hi : i ≠ k := fun hik => by cases hevent hik
    simp only [expected, if_neg hi]
    split
    · exact nil_subset _
    · exact List.Subset.refl _
  | rejected i => exact List.Subset.refl _
  | settled i outcome => exact List.Subset.refl _

variable {history : List (PauseEvent ι)}

theorem mem_openCalls_cons (hevent : event.caller = k → event = .rejected k)
    (hk : k ∈ openCalls history) : k ∈ openCalls (event :: history) := by
  cases event with
  | started i time => exact mem_cons_of_mem _ hk
  | rejected i => exact hk
  | settled i outcome =>
    have hi : k ≠ i := fun hki => by cases hevent hki.symm
    exact mem_filter.mpr ⟨hk, by simp [hi]⟩

variable (requests) in
/-- Every check that has ended returned `paused = true` if there was something to respect. -/
def Answered (history : List (PauseEvent ι)) : Prop :=
  ∀ later earlier k outcome scope, history = later ++ .settled k outcome :: earlier →
    requests k = .check scope → expected requests scope k earlier ≠ [] →
    isPaused outcome = true ∨ .rejected k ∈ earlier

theorem Answered.cons (h : Answered requests history)
    (hevent : ∀ k outcome scope, event = .settled k outcome → requests k = .check scope →
      expected requests scope k history ≠ [] →
      isPaused outcome = true ∨ .rejected k ∈ history) : Answered requests (event :: history) := by
  intro later earlier k outcome scope hsplit hk hexpected
  cases later with
  | nil =>
    obtain ⟨rfl, rfl⟩ := cons.inj hsplit
    exact hevent k outcome scope rfl hk hexpected
  | cons first later =>
    obtain ⟨-, hrest⟩ := cons.inj hsplit
    exact h later earlier k outcome scope hrest hk hexpected

theorem Answered.neverLost (h : Answered requests history) : NeverLost requests history := by
  intro later during between earlier i opts pause k time outcome hsplit hi hk htime hresumed
  have hbetween : expiry opts.expiresAt ∈ standing requests opts.scope.value
      (between ++ .settled i (.ok pause) :: earlier) :=
    standing_append_subset (fun j start hj => hresumed j start (mem_append_right _ hj))
      (mem_standing_activation hi)
  have hstart : expiry opts.expiresAt ∈ expected requests opts.scope.value k
      (.started k time :: (between ++ .settled i (.ok pause) :: earlier)) := by
    have hnone : (requests k).resumed ≠ some opts.scope.value := by
      rw [hk]
      nofun
    simp only [expected, if_neg hnone, if_true]
    exact mem_append_left _ (mem_filter.mpr ⟨hbetween, by simpa using htime⟩)
  have hend := expected_append_subset
    (fun j start hj => hresumed j start (mem_append_left _ hj)) hstart
  rcases h _ _ k outcome _ hsplit hk (ne_nil_of_mem hend) with hpaused | hrejected
  · exact .inl hpaused
  · right
    rw [hsplit]
    exact mem_append_right _ (mem_cons_of_mem _ hrejected)

end Histories

/-! ## The invariant and the moves of others -/

section Contract

variable {ι : Type} [DecidableEq ι] (requests : ι → PauseRequest)

/-- What holds of the table and the history in every state. -/
structure PauseInv (w : PauseWorld ι) : Prop where
  ids : ∀ n pause, w.pauses.get n = some pause → pause.id = n
  unique : ∀ scope n n' pause pause', w.pauses.get n = some pause →
    w.pauses.get n' = some pause' → isActiveIn scope pause = true →
    isActiveIn scope pause' = true → n = n'
  covered : ∀ scope, ∀ e ∈ standing requests scope w.history, (w.clock : WithTop Int) < e →
    ∃ n pause, w.pauses.get n = some pause ∧ isActiveIn scope pause = true ∧
      e ≤ expiry pause.expiresAt
  exclusive : ∀ scope, ∀ i ∈ openCalls w.history, ∀ j ∈ openCalls w.history,
    (requests i).administered = some scope → (requests j).administered = some scope → i = j
  answered : Answered requests w.history

/-- A move that leaves a scope alone: no row of it becomes active, and a row of it that is not
over stays active with its expiry. -/
structure Untouched (scope : String) (w w' : PauseWorld ι) : Prop where
  standing : standing requests scope w'.history = standing requests scope w.history
  active : ∀ n pause', w'.pauses.get n = some pause' → isActiveIn scope pause' = true →
    ∃ pause, w.pauses.get n = some pause ∧ isActiveIn scope pause = true
  kept : ∀ n pause, w.pauses.get n = some pause → isActiveIn scope pause = true →
    (w.clock : WithTop Int) < expiry pause.expiresAt →
    ∃ pause', w'.pauses.get n = some pause' ∧ isActiveIn scope pause' = true ∧
      pause'.expiresAt = pause.expiresAt

def RowsKept (w w' : PauseWorld ι) : Prop :=
  ∀ n pause, w.pauses.get n = some pause →
    ∃ pause', w'.pauses.get n = some pause' ∧ pause'.scope = pause.scope

/-- What call `i` tolerates: the scope that it administers is left alone while it is in
progress. -/
structure Tolerated (i : ι) (w w' : PauseWorld ι) : Prop where
  clock : w.clock ≤ w'.clock
  known : RowsKept w w'
  logged : w'.history = w.history ∨
    ∃ event, (event.caller = i → event = .rejected i) ∧ w'.history = event :: w.history
  scopes : ∀ scope, i ∈ openCalls w.history → (requests i).administered = some scope →
    Untouched requests scope w w'

def pauseContract (i : ι) : Contract (PauseWorld ι) where
  inv := PauseInv requests
  rely := Tolerated requests i
  guar w w' := RowsKept w w' ∧ ∀ j, j ≠ i → Tolerated requests j w w'

abbrev PauseFact (i : ι) : Type :=
  Assertion (pauseContract requests i)

abbrev PauseTriple {α : Type} (i : ι) (P : PauseFact requests i)
    (p : PauseProgram α) (R : α → PauseFact requests i)
    (E : PauseFact requests i) : Prop :=
  Triple (pauseSemantics ι) (pauseGuard requests) i P p R E

variable {requests} {scope : String} {i j : ι} {w w' : PauseWorld ι}

omit [DecidableEq ι] in
theorem Untouched.of_pauses_eq (hpauses : w'.pauses = w.pauses)
    (hstanding : PauseControl.standing requests scope w'.history =
      PauseControl.standing requests scope w.history) : Untouched requests scope w w' where
  standing := hstanding
  active n pause' hget hactive := ⟨pause', by rw [← hpauses]; exact hget, hactive⟩
  kept n pause hget hactive _ := ⟨pause, by rw [hpauses]; exact hget, hactive, rfl⟩

theorem Tolerated.refl (i : ι) (w : PauseWorld ι) : Tolerated requests i w w where
  clock := le_refl _
  known _ pause hget := ⟨pause, hget, rfl⟩
  logged := .inl rfl
  scopes _ _ _ := .of_pauses_eq rfl rfl

theorem Tolerated.log_rejected (h : Tolerated requests j w w')
    (hhistory : w'.history = w.history) (i : ι) :
    Tolerated requests j w (w'.log (.rejected i)) :=
  { h with
    logged := by
      refine .inr ⟨.rejected i, fun hcaller => ?_, ?_⟩
      · rw [show i = j from hcaller]
      · rw [log, hhistory]
    scopes scope hopen hadmin :=
      ⟨(h.scopes scope hopen hadmin).standing, (h.scopes scope hopen hadmin).active,
        (h.scopes scope hopen hadmin).kept⟩ }

theorem PauseInv.log_rejected (h : PauseInv requests w) (i : ι) :
    PauseInv requests (w.log (.rejected i)) :=
  { h with answered := h.answered.cons fun _ _ _ hevent => by cases hevent }

theorem guar_log {event : PauseEvent ι} (hcaller : event.caller = i)
    (hstanding : ∀ j scope, j ≠ i → j ∈ openCalls w.history →
      (requests j).administered = some scope →
      standing requests scope (event :: w.history) = standing requests scope w.history) :
    (pauseContract requests i).guar w (w.log event) :=
  ⟨fun _ pause hget => ⟨pause, hget, rfl⟩, fun j hj =>
    { clock := le_refl _
      known := fun _ pause hget => ⟨pause, hget, rfl⟩
      logged := .inr ⟨event, fun hj' => absurd (hj'.symm.trans hcaller) hj, rfl⟩
      scopes := fun scope hopen hadmin => .of_pauses_eq rfl (hstanding j scope hj hopen hadmin) }⟩

variable {time : Int}

theorem PauseInv.advance (h : PauseInv requests w) (htime : w.clock ≤ time) :
    PauseInv requests { w with clock := time } :=
  { h with
    covered scope e he hlt :=
      h.covered scope e he (lt_of_le_of_lt (WithTop.coe_le_coe.mpr htime) hlt) }

theorem pauseContract_compatible :
    Pool.Compatible (pauseSemantics ι) (pauseContract requests) (PauseInv requests) where
  inv_eq _ := rfl
  guar_rely i _ _ _ hij h := h.2 i hij
  happen_inv _ _ h := h.advance (Int.le_add_of_nonneg_right (Int.natCast_nonneg _))
  happen_rely _ _ _ _ :=
    { clock := Int.le_add_of_nonneg_right (Int.natCast_nonneg _)
      known := fun _ pause hget => ⟨pause, hget, rfl⟩
      logged := .inl rfl
      scopes := fun _ _ _ => .of_pauses_eq rfl rfl }

/-! ### Assertions -/

def known (i : ι) (n : Nat) (scope : String) : PauseFact requests i where
  holds w := ∃ pause, w.pauses.get n = some pause ∧ pause.scope = scope
  stable w w' hmove := by
    rintro ⟨pause, hget, hscope⟩
    obtain ⟨pause', hget', hscope'⟩ := hmove.2.2.known n pause hget
    exact ⟨pause', hget', hscope'.trans hscope⟩

def rejectedOp (i : ι) : PauseFact requests i where
  holds w := .rejected i ∈ w.history
  stable w w' hmove h := by
    rcases hmove.2.2.logged with hsame | ⟨event, -, hcons⟩
    · rw [hsame]
      exact h
    · rw [hcons]
      exact List.mem_cons_of_mem _ h

/-- Everything that the call has to respect satisfies `Q`. -/
def expecting (i : ι) (scope : String) (Q : WithTop Int → Prop) : PauseFact requests i where
  holds w := ∀ e ∈ expected requests scope i w.history, Q e
  stable w w' hmove h e he := by
    rcases hmove.2.2.logged with hsame | ⟨event, hevent, hcons⟩
    · rw [hsame] at he
      exact h e he
    · rw [hcons] at he
      exact h e (expected_cons_subset _ hevent he)

theorem Tolerated.stays_open (h : Tolerated requests i w w')
    (hadmin : (requests i).administered = some scope) (hopen : i ∈ openCalls w.history) :
    i ∈ openCalls w'.history ∧ Untouched requests scope w w' := by
  refine ⟨?_, h.scopes scope hopen hadmin⟩
  rcases h.logged with hsame | ⟨event, hevent, hcons⟩
  · rw [hsame]
    exact hopen
  · rw [hcons]
    exact mem_openCalls_cons hevent hopen

theorem Tolerated.lt_of_lt {e : WithTop Int} (h : Tolerated requests i w w')
    (hlt : (w'.clock : WithTop Int) < e) : (w.clock : WithTop Int) < e :=
  lt_of_le_of_lt (WithTop.coe_le_coe.mpr h.clock) hlt

/-- The call is in progress; every standing activation of its scope that is not over satisfies
`Q`, and every active row of the scope satisfies `O`. -/
def administering (hadmin : (requests i).administered = some scope) (Q : WithTop Int → Prop)
    (O : Nat → Prop) : PauseFact requests i where
  holds w := i ∈ openCalls w.history ∧
    (∀ e ∈ standing requests scope w.history, (w.clock : WithTop Int) < e → Q e) ∧
    ∀ n pause, w.pauses.get n = some pause → isActiveIn scope pause = true → O n
  stable w w' hmove := by
    rintro ⟨hopen, hstanding, honly⟩
    obtain ⟨hopen', huntouched⟩ := hmove.2.2.stays_open hadmin hopen
    refine ⟨hopen', fun e he hlt => ?_, fun n pause' hget' hactive' => ?_⟩
    · rw [huntouched.standing] at he
      exact hstanding e he (hmove.2.2.lt_of_lt hlt)
    · obtain ⟨pause, hget, hactive⟩ := huntouched.active n pause' hget' hactive'
      exact honly n pause hget hactive

/-- The call is in progress and its scope is paused until `e`. -/
def pausing (hadmin : (requests i).administered = some scope) (e : WithTop Int) :
    PauseFact requests i where
  holds w := i ∈ openCalls w.history ∧ ((w.clock : WithTop Int) < e →
    ∃ n pause, w.pauses.get n = some pause ∧ isActiveIn scope pause = true ∧
      expiry pause.expiresAt = e)
  stable w w' hmove := by
    rintro ⟨hopen, hpaused⟩
    obtain ⟨hopen', huntouched⟩ := hmove.2.2.stays_open hadmin hopen
    refine ⟨hopen', fun hlt => ?_⟩
    have hlt := hmove.2.2.lt_of_lt hlt
    obtain ⟨n, pause, hget, hactive, hexpiry⟩ := hpaused hlt
    obtain ⟨pause', hget', hactive', hsame⟩ :=
      huntouched.kept n pause hget hactive (by rw [hexpiry]; exact hlt)
    exact ⟨n, pause', hget', hactive', by rw [hsame]; exact hexpiry⟩

/-- The time of the row was over at an instant at which nothing that the call has to respect
was. -/
def overdue (i : ι) (pause : PauseScope) : PauseFact requests i where
  holds w := ∃ time, pause.expiresAt = some time ∧ time ≤ w.clock ∧
    ∀ scope ∈ (requests i).checks, ∀ e ∈ expected requests scope i w.history,
      (time : WithTop Int) < e
  stable w w' hmove := by
    rintro ⟨time, hexpires, hle, hlt⟩
    refine ⟨time, hexpires, hle.trans hmove.2.2.clock, fun scope hscope => ?_⟩
    have hexpecting : expecting i scope (fun e => (time : WithTop Int) < e) w := hlt scope hscope
    exact (expecting i scope _).stable w w' hmove hexpecting

/-! ### Changes of the table -/

variable {pause : PauseScope}

omit [DecidableEq ι] in
theorem isActiveIn_iff :
    isActiveIn scope pause = true ↔ pause.scope = scope ∧ pause.active = true := by
  simp [isActiveIn]

structure WritesIn (scope : String) (w w' : PauseWorld ι) : Prop where
  clock : w'.clock = w.clock
  history : w'.history = w.history
  known : RowsKept w w'
  others : ∀ n pause, pause.scope ≠ scope →
    (w'.pauses.get n = some pause ↔ w.pauses.get n = some pause)

variable (h : WritesIn scope w w')
include h

omit [DecidableEq ι] in
theorem WritesIn.untouched {other : String} (hne : other ≠ scope) :
    Untouched requests other w w' where
  standing := by rw [h.history]
  active n pause' hget hactive := by
    have hscope : pause'.scope ≠ scope := by
      rw [(isActiveIn_iff.mp hactive).1]
      exact hne
    exact ⟨pause', (h.others n pause' hscope).mp hget, hactive⟩
  kept n pause hget hactive _ := by
    have hscope : pause.scope ≠ scope := by
      rw [(isActiveIn_iff.mp hactive).1]
      exact hne
    exact ⟨pause, (h.others n pause hscope).mpr hget, hactive, rfl⟩

theorem WritesIn.tolerated (hinv : PauseInv requests w)
    (hadmin : (requests i).administered = some scope) (hopen : i ∈ openCalls w.history)
    (hj : j ≠ i) : Tolerated requests j w w' where
  clock := h.clock.ge
  known := h.known
  logged := .inl h.history
  scopes other hopenj hadminj := by
    by_cases hother : other = scope
    · subst hother
      exact absurd (hinv.exclusive other j hopenj i hopen hadminj hadmin) hj
    · exact h.untouched hother

/-- The invariant after a change of rows of one scope, of which at most one is active. -/
theorem WritesIn.inv (hinv : PauseInv requests w) {m : Nat}
    (hids : ∀ n pause, w'.pauses.get n = some pause → pause.id = n)
    (honly : ∀ n pause, w'.pauses.get n = some pause → isActiveIn scope pause = true → n = m)
    (hcovered : ∀ e ∈ standing requests scope w.history, (w.clock : WithTop Int) < e →
      ∃ n pause, w'.pauses.get n = some pause ∧ isActiveIn scope pause = true ∧
        e ≤ expiry pause.expiresAt) : PauseInv requests w' where
  ids := hids
  unique other n n' pause pause' hget hget' hactive hactive' := by
    by_cases hother : other = scope
    · subst hother
      rw [honly n pause hget hactive, honly n' pause' hget' hactive']
    · have huntouched : Untouched requests other w w' := h.untouched hother
      obtain ⟨old, hold, holdActive⟩ := huntouched.active n pause hget hactive
      obtain ⟨old', hold', holdActive'⟩ := huntouched.active n' pause' hget' hactive'
      exact hinv.unique other n n' old old' hold hold' holdActive holdActive'
  covered other e he hlt := by
    rw [h.history] at he
    rw [h.clock] at hlt
    by_cases hother : other = scope
    · subst hother
      exact hcovered e he hlt
    · have huntouched : Untouched requests other w w' := h.untouched hother
      obtain ⟨n, pause, hget, hactive, hle⟩ := hinv.covered other e he hlt
      obtain ⟨pause', hget', hactive', hsame⟩ :=
        huntouched.kept n pause hget hactive (lt_of_lt_of_le hlt hle)
      exact ⟨n, pause', hget', hactive', by rw [hsame]; exact hle⟩
  exclusive := by
    rw [h.history]
    exact hinv.exclusive
  answered := by
    rw [h.history]
    exact hinv.answered

omit h

variable {n : Nat}

omit [DecidableEq ι] in
theorem get_save_cases {pause' : PauseScope}
    (h : (w.effect i (.save pause)).pauses.get n = some pause') :
    (n = pause.id ∧ pause' = pause) ∨ (n ≠ pause.id ∧ w.pauses.get n = some pause') := by
  rcases w.pauses.get_modify_cases h with ⟨rfl, -, -, rfl⟩ | hold
  · exact .inl ⟨rfl, rfl⟩
  · exact .inr hold

variable {stored : PauseScope}

omit [DecidableEq ι] in
theorem get_save_self (h : w.pauses.get pause.id = some stored) :
    (w.effect i (.save pause)).pauses.get pause.id = some pause :=
  w.pauses.get_modify_self _ h

omit [DecidableEq ι] in
theorem get_save_of_ne (h : n ≠ pause.id) :
    (w.effect i (.save pause)).pauses.get n = w.pauses.get n :=
  w.pauses.get_modify_of_ne _ h

omit [DecidableEq ι] in
theorem known_save (hstored : w.pauses.get pause.id = some stored)
    (hscope : stored.scope = pause.scope) : RowsKept w (w.effect i (.save pause)) := by
  intro n old hold
  by_cases hn : n = pause.id
  · subst hn
    obtain rfl := Option.some.inj (hstored.symm.trans hold)
    exact ⟨pause, get_save_self hstored, hscope.symm⟩
  · exact ⟨old, (get_save_of_ne hn).trans hold, rfl⟩

omit [DecidableEq ι] in
theorem writesIn_save
    (hstored : w.pauses.get pause.id = some stored) (hscope : stored.scope = scope)
    (hpause : pause.scope = scope) : WritesIn scope w (w.effect i (.save pause)) where
  clock := rfl
  history := rfl
  known := known_save hstored (hscope.trans hpause.symm)
  others n old hold := by
    by_cases hn : n = pause.id
    · subst hn
      rw [get_save_self hstored, hstored]
      constructor
      · intro heq
        rw [← Option.some.inj heq] at hold
        exact absurd hpause hold
      · intro heq
        rw [← Option.some.inj heq] at hold
        exact absurd hscope hold
    · rw [get_save_of_ne hn]

omit [DecidableEq ι] in
theorem writesIn_insert {pause : PauseFields} (hpause : pause.scope = scope) :
    WritesIn scope w (w.effect i (.insert pause)) where
  clock := rfl
  history := rfl
  known n old hold := ⟨old, w.pauses.get_push_of_some _ hold, rfl⟩
  others n old hold := by
    constructor
    · intro hget
      rcases w.pauses.get_push_cases hget with ⟨-, rfl⟩ | hold'
      · exact absurd hpause hold
      · exact hold'
    · exact w.pauses.get_push_of_some _

/-- A reader ends a row whose time is over. -/
theorem expire_keeps (hinv : PauseInv requests w) (hstored : w.pauses.get pause.id = some stored)
    (hscope : stored.scope = pause.scope) (hinactive : pause.active = false)
    (htime : stored.expiresAt = some time) (hover : time ≤ w.clock) :
    PauseInv requests (w.effect i (.save pause)) ∧
      ∀ j, Tolerated requests j w (w.effect i (.save pause)) := by
  -- a row that is not over is another one
  have hother : ∀ n old, w.pauses.get n = some old →
      (w.clock : WithTop Int) < expiry old.expiresAt → n ≠ pause.id := by
    rintro n old hold hlt rfl
    obtain rfl := Option.some.inj (hstored.symm.trans hold)
    rw [htime] at hlt
    exact absurd hlt (not_lt.mpr (WithTop.coe_le_coe.mpr hover))
  have huntouched : ∀ scope, Untouched requests scope w (w.effect i (.save pause)) := by
    intro scope
    refine ⟨rfl, fun n pause' hget hactive => ?_, fun n old hold hactive hlt => ?_⟩
    · rcases get_save_cases hget with ⟨-, rfl⟩ | ⟨-, hold⟩
      · rw [(isActiveIn_iff.mp hactive).2] at hinactive
        cases hinactive
      · exact ⟨pause', hold, hactive⟩
    · exact ⟨old, (get_save_of_ne (hother n old hold hlt)).trans hold, hactive, rfl⟩
  constructor
  · refine ⟨fun n pause' hget => ?_, fun scope n n' p p' hget hget' hactive hactive' => ?_,
      fun scope e he hlt => ?_, hinv.exclusive, hinv.answered⟩
    · rcases get_save_cases hget with ⟨rfl, rfl⟩ | ⟨-, hold⟩
      · rfl
      · exact hinv.ids n pause' hold
    · obtain ⟨old, hold, holdActive⟩ := (huntouched scope).active n p hget hactive
      obtain ⟨old', hold', holdActive'⟩ := (huntouched scope).active n' p' hget' hactive'
      exact hinv.unique scope n n' old old' hold hold' holdActive holdActive'
    · obtain ⟨n, old, hold, hactive, hle⟩ := hinv.covered scope e he hlt
      obtain ⟨pause', hget, hactive', hsame⟩ :=
        (huntouched scope).kept n old hold hactive (lt_of_lt_of_le hlt hle)
      exact ⟨n, pause', hget, hactive', by rw [hsame]; exact hle⟩
  · intro j
    exact ⟨le_refl _, known_save hstored hscope, .inl rfl, fun scope _ _ => huntouched scope⟩

/-! ### The operations -/

variable {P : PauseFact requests i}

theorem triple_op {op : PauseOp} {E : PauseFact requests i}
    {R : op.Res → PauseFact requests i} (hop : op.isMark = false)
    (hkeeps : ∀ w, PauseInv requests w → P w → Admissible requests i w op →
      PauseInv requests (w.effect i op) ∧ (pauseContract requests i).guar w (w.effect i op))
    (hresult : ∀ w a, PauseInv requests w → P w → Admissible requests i w op → InTime requests i w →
      ((∃ pick, w.answer pick op = some a) ∨ ∃ input, op = .recordSensitiveAction input) →
      R a (w.effect i op))
    (herror : ∀ w w', PauseInv requests w → P w → Admissible requests i w op →
      (w' = w ∨ w' = w.effect i op) → E (w'.log (.rejected i))) :
    PauseTriple requests i P (ask op) R E := by
  refine triple_call fun w c r w' hinv hP hguard hperf => ?_
  obtain ⟨hinv', hguar⟩ := hkeeps w hinv hP hguard.1
  rcases perform_cases hop hperf with
    ⟨a, rfl, rfl, hanswer⟩ | ⟨e, rfl, hw' | hw'⟩
  · exact ⟨hinv', hguar, hresult w a hinv hP hguard.1 hguard.2 hanswer⟩
  · subst hw'
    have hself : Tolerated requests i w w := .refl i w
    refine ⟨PauseInv.log_rejected hinv i, ⟨hself.known, fun j _ => ?_⟩, ?_⟩
    · exact (Tolerated.refl j w).log_rejected rfl i
    · exact herror w w hinv hP hguard.1 (.inl rfl)
  · subst hw'
    refine ⟨hinv'.log_rejected i, ⟨hguar.1, fun j hj => ?_⟩, ?_⟩
    · exact (hguar.2 j hj).log_rejected (history_effect hop i w) i
    · exact herror w _ hinv hP hguard.1 (.inr rfl)

theorem triple_gentle (op : PauseOp) {R : op.Res → PauseFact requests i} (hop : op.isMark = false)
    (hkeeps : ∀ w, PauseInv requests w → P w → Admissible requests i w op →
      PauseInv requests (w.effect i op) ∧ ∀ j, Tolerated requests j w (w.effect i op))
    (hresult : ∀ w a, PauseInv requests w → P w → InTime requests i w →
      ((∃ pick, w.answer pick op = some a) ∨ ∃ input, op = .recordSensitiveAction input) →
      R a (w.effect i op)) :
    PauseTriple requests i P (ask op) (fun a => P.and (R a)) (P.and (rejectedOp i)) := by
  refine triple_op hop (fun w hinv hP hadmissible => ?_)
    (fun w a hinv hP hadmissible hin hanswer => ?_) (fun w w' hinv hP hadmissible hw' => ?_)
  · obtain ⟨hinv', htolerated⟩ := hkeeps w hinv hP hadmissible
    exact ⟨hinv', (htolerated i).known, fun j _ => htolerated j⟩
  · obtain ⟨hinv', htolerated⟩ := hkeeps w hinv hP hadmissible
    exact ⟨P.stable w _ ⟨hinv, hinv', htolerated i⟩ hP, hresult w a hinv hP hin hanswer⟩
  · have hmove : PauseInv requests w' ∧ Tolerated requests i w w' ∧ w'.history = w.history := by
      rcases hw' with rfl | rfl
      · exact ⟨hinv, .refl i w', rfl⟩
      · obtain ⟨hinv', htolerated⟩ := hkeeps w hinv hP hadmissible
        exact ⟨hinv', htolerated i, history_effect hop i w⟩
    obtain ⟨hinv', htolerated, hhistory⟩ := hmove
    refine ⟨P.stable w _ ⟨hinv, ?_, ?_⟩ hP, mem_cons_self⟩
    · exact PauseInv.log_rejected hinv' i
    · exact htolerated.log_rejected hhistory i

theorem triple_read (op : PauseOp) {R : op.Res → PauseFact requests i} (hop : op.isMark = false)
    (hread : ∀ w : PauseWorld ι, w.effect i op = w)
    (hresult : ∀ w a, PauseInv requests w → P w → InTime requests i w →
      ((∃ pick, w.answer pick op = some a) ∨ ∃ input, op = .recordSensitiveAction input) → R a w) :
    PauseTriple requests i P (ask op) (fun a => P.and (R a)) (P.and (rejectedOp i)) := by
  refine triple_gentle op hop (fun w hinv _ _ => ?_) (fun w a hinv hP hin hanswer => ?_)
  · rw [hread]
    exact ⟨hinv, fun j => .refl j w⟩
  · rw [hread]
    exact hresult w a hinv hP hin hanswer

theorem triple_skip (op : PauseOp)
    (hop : op.isMark = false) (hread : ∀ w : PauseWorld ι, w.effect i op = w) :
    PauseTriple requests i P (ask op) (fun _ => P) (P.and (rejectedOp i)) :=
  triple_weaken (triple_read op (R := fun _ => .top) hop hread fun _ _ _ _ _ _ => trivial)
    (fun _ _ _ h => h.1) fun _ _ h => h

end Contract

end Trellis.PauseControl
