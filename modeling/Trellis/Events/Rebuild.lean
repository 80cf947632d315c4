import Trellis.Events.Reference

/-!
# Rebuilds that are interrupted

Attempts to rebuild one projection, one after the other, each of which may be stopped between any
two operations. The checkpoint and the published projection survive; with each of them the world
remembers the events it was computed from.
-/

namespace Trellis.Events

open Core

variable {S : Type}

/-! ## The world -/

/-- An event source: what it may deliver after a position. -/
structure SourceModel where
  Choice : Type
  deliver : Choice → Int → Option (List StoredEvent)

/-- The stored checkpoint, the published projection and the one before it.  `lineage` and
`publishedFrom` are the events that the checkpoint and the published state were computed
from; `base` and `incoming` are those that the current attempt builds on and reads. -/
structure ReplayWorld (S : Type) where
  checkpoint : Option (ProjectionCheckpoint S) := none
  active : Option (PublishedProjection S) := none
  previous : Option (PublishedProjection S) := none
  lineage : List StoredEvent := []
  publishedFrom : List StoredEvent := []
  base : List StoredEvent := []
  incoming : List StoredEvent := []

namespace ReplayWorld

/-- The events behind the current attempt up to a position. -/
def behind (w : ReplayWorld S) (sequence : Int) : List StoredEvent :=
  w.base ++ w.incoming.takeWhile (·.sequence ≤ sequence)

/-- An attempt reads a source after a position, which is 0 if it does not resume. -/
def opened (w : ReplayWorld S) (afterSequence : Int) (events : List StoredEvent) : ReplayWorld S :=
  { w with
    base := if afterSequence = 0 then [] else w.lineage
    incoming := fresh afterSequence events }

def saved (w : ReplayWorld S) (checkpoint : ProjectionCheckpoint S) : ReplayWorld S :=
  { w with checkpoint := some checkpoint, lineage := w.behind checkpoint.sequence }

def swapped (w : ReplayWorld S) (next : PublishedProjection S) : ReplayWorld S :=
  { w with
    active := some next, previous := w.active.or w.previous,
    publishedFrom := w.behind next.sequence }

def cleared (w : ReplayWorld S) : ReplayWorld S :=
  { w with checkpoint := none, lineage := [] }

end ReplayWorld

/-- What is chosen for an operation: it is served, it is rejected, it takes effect and its
answer is lost, or the source delivers. -/
inductive ReplayChoice (source : SourceModel) where
  | served
  | rejected (e : Failure)
  | lost (e : Failure)
  | deliver (c : source.Choice)

def performReplay (source : SourceModel) : (op : ReplayOp S) → ReplayChoice source →
    ReplayWorld S → Option (Except ReplayFailure op.Res × ReplayWorld S)
  | .load, .served, w => some (.ok w.checkpoint, w)
  | .readSource afterSequence, .deliver c, w =>
    (source.deliver c afterSequence).map fun events => (.ok events, w.opened afterSequence events)
  | .save checkpoint, .served, w => some (.ok (), w.saved checkpoint)
  | .save checkpoint, .lost e, w => some (.error (.rejected e), w.saved checkpoint)
  | .swap next, .served, w => some (.ok w.active, w.swapped next)
  | .swap next, .lost e, w => some (.error (.rejected e), w.swapped next)
  | .clear, .served, w => some (.ok (), w.cleared)
  | .clear, .lost e, w => some (.error (.rejected e), w.cleared)
  | _, .rejected e, w => some (.error (.rejected e), w)
  | _, _, _ => none

variable (S) in
def replaySemantics (source : SourceModel) :
    Semantics (replayInterface S) ReplayFailure Unit (ReplayWorld S) where
  Choice := ReplayChoice source
  perform _ op c w := performReplay source op c w
  Event := Empty
  happen e := e.elim

inductive Attempts (engine : Engine) (projection : ProjectionDefinition S) :
    ReplayProgram S ReplayReport → Prop
  | attempt (options : ReplayOptions) :
      Attempts engine projection (rebuild engine projection options)

abbrev ReplaySession (S : Type) : Type :=
  Session (replayInterface S) ReplayFailure (ReplayWorld S) ReplayReport

/-! ## Derived states -/

section Derived

variable (engine : Engine) (projection : ProjectionDefinition S)

/-- A state and a position that a list of events stands for. -/
structure Derived (events : List StoredEvent) (state : S) (sequence : Int) : Prop where
  state_eq : state = referenceFold engine projection events
  sequence_eq : sequence = lastSequence 0 events

/-- The checkpoint and the publication are derived from events with a property. -/
structure WorldDerived (P : List StoredEvent → Prop) (w : ReplayWorld S) : Prop where
  stored : ∀ checkpoint, w.checkpoint = some checkpoint →
    Derived engine projection w.lineage checkpoint.state checkpoint.sequence ∧
      0 < checkpoint.sequence ∧ P w.lineage
  published : ∀ next, w.active = some next →
    Derived engine projection w.publishedFrom next.state next.sequence ∧ P w.publishedFrom

structure LoopInv (base : List StoredEvent) (afterSequence : Int) (events : List StoredEvent)
    (progress : Progress S) : Prop where
  state_eq : progress.state = referenceFold engine projection (base ++ fresh afterSequence events)
  last_eq : progress.lastSequence = lastSequence afterSequence (fresh afterSequence events)
  hash_eq : progress.lastHash = trackHash none (fresh afterSequence events)
  fresh_ne : progress.progressed = true → fresh afterSequence events ≠ []

/-- A property of the events behind an attempt that every accepted event keeps. -/
def Grows (P : List StoredEvent → Prop) (base : List StoredEvent) (afterSequence : Int)
    (delivered : List StoredEvent) : Prop :=
  ∀ events event rest lastHash, delivered = events ++ event :: rest →
    lastSequence afterSequence (fresh afterSequence events) < event.sequence →
      tamperCheck engine (trackHash none (fresh afterSequence events)) event = .ok lastHash →
        P (base ++ fresh afterSequence events) → P (base ++ fresh afterSequence events ++ [event])

end Derived

variable {engine : Engine} {projection : ProjectionDefinition S} {options : ReplayOptions}
  {base delivered : List StoredEvent} {afterSequence : Int} {event : StoredEvent}
  {progress' : Progress S} {progress : Progress S} {events : List StoredEvent}

theorem LoopInv.repeats (h : LoopInv engine projection base afterSequence events progress)
    (hstep : Repeats event progress progress') :
    LoopInv engine projection base afterSequence (events ++ [event]) progress' := by
  have hle : event.sequence ≤ lastSequence afterSequence (fresh afterSequence events) := by
    rw [← h.last_eq]
    exact hstep.le_last
  have hfresh := fresh_concat_of_le hle
  constructor
  · rw [hfresh, hstep.state, h.state_eq]
  · rw [hfresh, hstep.lastSequence, h.last_eq]
  · rw [hfresh, hstep.lastHash, h.hash_eq]
  · rw [hfresh, hstep.progressed]
    exact h.fresh_ne

theorem tamperCheck_ok {lastHash lastHash' : Option String}
    (h : tamperCheck engine lastHash event = .ok lastHash') :
    lastHash' = if truthy event.hash then event.hash else lastHash := by
  simp only [tamperCheck] at h
  split at h
  · rename_i htruthy
    rw [if_pos htruthy]
    split at h
    · cases h
    · split at h
      · cases h
      · exact (Except.ok.inj h).symm
  · rename_i htruthy
    rw [if_neg htruthy]
    exact (Except.ok.inj h).symm

theorem LoopInv.accepts (h : LoopInv engine projection base afterSequence events progress)
    (hstep : Accepts engine projection event progress progress') :
    LoopInv engine projection base afterSequence (events ++ [event]) progress' := by
  have hlt : lastSequence afterSequence (fresh afterSequence events) < event.sequence := by
    rw [← h.last_eq]
    exact hstep.last_lt
  have hfresh := fresh_concat_of_lt hlt
  constructor
  · rw [hfresh, ← List.append_assoc, referenceFold_concat, ← h.state_eq, hstep.state]
  · rw [hfresh, lastSequence_concat, hstep.lastSequence]
  · rw [hfresh, trackHash_concat, ← h.hash_eq, tamperCheck_ok hstep.checked]
  · rw [hfresh]
    simp

theorem LoopInv.saved (h : LoopInv engine projection base afterSequence events progress) :
    LoopInv engine projection base afterSequence events progress.saved :=
  ⟨h.state_eq, h.last_eq, h.hash_eq, h.fresh_ne⟩

/-! ## The loop -/

/-- The current attempt builds on `base`, which ends at its start position, and reads
`delivered`. -/
structure Reading (base : List StoredEvent) (afterSequence : Int) (delivered : List StoredEvent)
    (w : ReplayWorld S) : Prop where
  base_eq : w.base = base
  incoming_eq : w.incoming = fresh afterSequence delivered
  after_eq : afterSequence = lastSequence 0 base
  after_nonneg : 0 ≤ afterSequence

section Reading

variable {w : ReplayWorld S} {events rest : List StoredEvent} {progress : Progress S}

variable (h : Reading base afterSequence delivered w)
include h

theorem Reading.behind_eq (hdelivered : delivered = events ++ rest)
    (hinv : LoopInv engine projection base afterSequence events progress) :
    w.behind progress.lastSequence = base ++ fresh afterSequence events := by
  unfold ReplayWorld.behind
  rw [h.base_eq, h.incoming_eq, hinv.last_eq, hdelivered, takeWhile_fresh]

variable (hinv : LoopInv engine projection base afterSequence events progress)
include hinv

theorem Reading.derived :
    Derived engine projection (base ++ fresh afterSequence events) progress.state
      progress.lastSequence := by
  refine ⟨hinv.state_eq, ?_⟩
  rw [hinv.last_eq, lastSequence_append, ← h.after_eq]

theorem Reading.last_pos
    (hprogressed : progress.progressed = true) : 0 < progress.lastSequence := by
  obtain ⟨event, hevent⟩ := List.exists_mem_of_ne_nil _ (hinv.fresh_ne hprogressed)
  have hlt := lt_of_mem_fresh hevent
  have hle := (le_lastSequence_fresh afterSequence events).2 event hevent
  have hnonneg := h.after_nonneg
  rw [hinv.last_eq]
  omega

omit hinv

omit h

variable {P : List StoredEvent → Prop}

variable (h : Reading base afterSequence delivered w)
include h

theorem Reading.saved_derived (hdelivered : delivered = events ++ rest)
    (hinv : LoopInv engine projection base afterSequence events progress)
    (hprogressed : progress.progressed = true) (hP : P (base ++ fresh afterSequence events))
    (hw : WorldDerived engine projection P w) :
    WorldDerived engine projection P (w.saved (checkpointOf projection progress)) := by
  constructor
  · intro checkpoint hcheckpoint
    obtain rfl := Option.some.inj hcheckpoint
    have hlineage : (w.saved (checkpointOf projection progress)).lineage =
        base ++ fresh afterSequence events := h.behind_eq hdelivered hinv
    rw [hlineage]
    exact ⟨h.derived hinv, h.last_pos hinv hprogressed, hP⟩
  · exact hw.published

theorem Reading.swapped_derived (hdelivered : delivered = events ++ rest)
    (hinv : LoopInv engine projection base afterSequence events progress)
    (hP : P (base ++ fresh afterSequence events)) (hw : WorldDerived engine projection P w) :
    WorldDerived engine projection P (w.swapped (publication engine projection progress)) := by
  constructor
  · exact hw.stored
  · intro next hnext
    obtain rfl := Option.some.inj hnext
    have hfrom : (w.swapped (publication engine projection progress)).publishedFrom =
        base ++ fresh afterSequence events := h.behind_eq hdelivered hinv
    rw [hfrom]
    exact ⟨h.derived hinv, hP⟩

theorem Reading.of_saved (checkpoint : ProjectionCheckpoint S) :
    Reading base afterSequence delivered (w.saved checkpoint) :=
  ⟨h.base_eq, h.incoming_eq, h.after_eq, h.after_nonneg⟩

omit h

theorem WorldDerived.cleared (hw : WorldDerived engine projection P w) :
    WorldDerived engine projection P w.cleared :=
  ⟨nofun, hw.published⟩

end Reading

/-! ## Operations -/

section Operations

variable {source : SourceModel} {c : ReplayChoice source} {w w' : ReplayWorld S}

theorem performReplay_error {op : ReplayOp S} {e : ReplayFailure}
    (h : performReplay source op c w = some (.error e, w')) : ∃ e', e = .rejected e' := by
  cases op <;> cases c
  case readSource.deliver =>
    obtain ⟨events, -, heq⟩ := Option.map_eq_some_iff.mp h
    cases heq
  all_goals cases h
  all_goals exact ⟨_, rfl⟩

theorem performReplay_readSource {afterSequence : Int} {r : Except ReplayFailure (List StoredEvent)}
    (h : performReplay source (.readSource afterSequence : ReplayOp S) c w = some (r, w')) :
    (∃ d events, c = .deliver d ∧ source.deliver d afterSequence = some events ∧
        r = .ok events ∧ w' = w.opened afterSequence events) ∨
      ∃ e, r = .error (.rejected e) ∧ w' = w := by
  cases c with
  | served => cases h
  | rejected e =>
    cases h
    exact .inr ⟨e, rfl, rfl⟩
  | lost e => cases h
  | deliver d =>
    obtain ⟨events, hevents, heq⟩ := Option.map_eq_some_iff.mp h
    cases heq
    exact .inl ⟨d, events, rfl, hevents, rfl, rfl⟩

/-- What an operation on the stores leaves. -/
def ReplayWorld.written (w : ReplayWorld S) : ReplayOp S → ReplayWorld S
  | .save checkpoint => w.saved checkpoint
  | .swap next => w.swapped next
  | .clear => w.cleared
  | .load | .readSource _ => w

theorem performReplay_written {op : ReplayOp S} {r : Except ReplayFailure op.Res}
    (hop : ∀ n, op ≠ .readSource n) (h : performReplay source op c w = some (r, w')) :
    w' = w.written op ∨ w' = w ∧ ∃ e, r = .error (.rejected e) := by
  cases op with
  | readSource n => exact absurd rfl (hop n)
  | _ =>
    cases c <;> cases h
    all_goals first | exact .inl rfl | exact .inr ⟨rfl, _, rfl⟩

end Operations

/-! ## The loop -/

variable {w : ReplayWorld S}

section Loop

variable {source : SourceModel} {g : Guard (replaySemantics S source)} {P : List StoredEvent → Prop}
  {Rejects : Prop}

/-- Where an operation is rejected, `Rejects` holds. -/
def RejectsOnly (g : Guard (replaySemantics S source)) (Rejects : Prop) : Prop :=
  ∀ op c w e w', g () op c w → performReplay source op c w = some (.error e, w') → Rejects

theorem safe_store_bind (hrejects : RejectsOnly g Rejects) {α : Type}
    {Q : Except ReplayFailure α → ReplayWorld S → Prop}
    (hQ : ∀ e w, Rejects → Q (.error (.rejected e)) w) {op : ReplayOp S}
    (hop : ∀ n, op ≠ .readSource n) {f : op.Res → ReplayProgram S α}
    (hw : WorldDerived engine projection P w)
    (hwritten : WorldDerived engine projection P (w.written op))
    (hnext : ∀ a c, performReplay source op c w = some (.ok a, w.written op) →
      Safe (replaySemantics S source) g () (Contract.solo (WorldDerived engine projection P))
        Q (f a) (w.written op)) :
    Safe (replaySemantics S source) g () (Contract.solo (WorldDerived engine projection P))
      Q (Async.call (I := replayInterface S) op >>= f) w := by
  refine safe_solo_call_bind fun _ c r w' hg hperf => ?_
  rcases performReplay_written hop hperf with rfl | ⟨rfl, e, rfl⟩
  · refine ⟨hwritten, ?_⟩
    cases r with
    | ok a => exact hnext a c hperf
    | error e =>
      obtain ⟨e', rfl⟩ := performReplay_error hperf
      exact hQ e' _ (hrejects _ _ _ _ _ hg hperf)
  · exact ⟨hw, hQ e _ (hrejects _ _ _ _ _ hg hperf)⟩

variable (engine projection options P Rejects base afterSequence delivered) in
/-- How the loop can end: after a part of the delivery, which is all of it if there is no
limit; at a poison event; or with an abort at an event. -/
def LoopOutcome : Except ReplayFailure (LoopEnd S) → ReplayWorld S → Prop
  | .ok (.exhausted progress), w => ∃ events rest, delivered = events ++ rest ∧
      (options.limit = none → rest = []) ∧
        LoopInv engine projection base afterSequence events progress ∧
          P (base ++ fresh afterSequence events) ∧ Reading base afterSequence delivered w
  | .ok (.halted _), _ => options.onPoisonEvent = .halt
  | .error (.aborted _ report), _ => ∃ events event rest progress,
      delivered = events ++ event :: rest ∧ P (base ++ fresh afterSequence events) ∧
        LoopInv engine projection base afterSequence events progress ∧
          AbortCause engine event progress report
  | .error (.rejected _), _ => Rejects

theorem replayLoop_safe (hrejects : RejectsOnly g Rejects)
    (hgrows : Grows engine P base afterSequence delivered) {events rest : List StoredEvent}
    (hdelivered : delivered = events ++ rest)
    (hinv : LoopInv engine projection base afterSequence events progress)
    (hP : P (base ++ fresh afterSequence events))
    (hreading : Reading base afterSequence delivered w)
    (hw : WorldDerived engine projection P w) :
    Safe (replaySemantics S source) g () (Contract.solo (WorldDerived engine projection P))
      (LoopOutcome engine projection options base delivered afterSequence P Rejects)
      (replayLoop engine projection options rest progress) w := by
  -- the invariant speaks about the part of the delivery before `rest`
  induction rest generalizing events progress w with
  | nil => exact safe_solo_done ⟨events, [], hdelivered, fun _ => rfl, hinv, hP, hreading⟩
  | cons event rest ih =>
    have hnext : delivered = (events ++ [event]) ++ rest := by simp [hdelivered]
    simp only [replayLoop]
    split
    · rename_i hlimit
      refine safe_solo_done ⟨events, event :: rest, hdelivered, fun hnone => ?_, hinv, hP, hreading⟩
      simp [limitReached, hnone] at hlimit
    · rcases replayStep_cases engine projection options event progress with
        ⟨progress', hstep, hrepeats⟩ | ⟨progress', hstep, haccepts⟩ |
          ⟨message, report, hstep, hcause⟩ | ⟨report, hstep, hpolicy⟩
      · have hinv' := hinv.repeats hrepeats
        have hle : event.sequence ≤ lastSequence afterSequence (fresh afterSequence events) :=
          hinv.last_eq ▸ hrepeats.le_last
        rw [hstep]
        exact ih hnext hinv' (by rw [fresh_concat_of_le hle]; exact hP) hreading hw
      · have hinv' := hinv.accepts haccepts
        have hlt : lastSequence afterSequence (fresh afterSequence events) < event.sequence :=
          hinv.last_eq ▸ haccepts.last_lt
        have hP' : P (base ++ fresh afterSequence (events ++ [event])) := by
          rw [fresh_concat_of_lt hlt, ← List.append_assoc]
          exact hgrows events event rest _ hdelivered hlt (hinv.hash_eq ▸ haccepts.checked) hP
        rcases hstep with hstep | hstep
        · rw [hstep]
          exact ih hnext hinv' hP' hreading hw
        · rw [hstep]
          have hsaved := hreading.saved_derived hnext hinv' haccepts.progressed hP' hw
          exact safe_store_bind hrejects (fun _ _ h => h) (by nofun) hw hsaved fun _ _ _ =>
            ih hnext hinv'.saved hP' (hreading.of_saved _) hsaved
      · rw [hstep]
        exact safe_solo_fail ⟨events, event, rest, progress, hdelivered, hP, hinv, hcause⟩
      · rw [hstep]
        exact safe_solo_done hpolicy

end Loop

/-! ## The attempt -/

section Attempt

variable {source : SourceModel} {g : Guard (replaySemantics S source)} {P : List StoredEvent → Prop}
  {Rejects : Prop} {Delivery : List StoredEvent → Int → List StoredEvent → Prop}

variable (engine projection options P Rejects Delivery) in
def RebuildOutcome : Except ReplayFailure ReplayReport → ReplayWorld S → Prop
  | .ok report, w => options.onPoisonEvent = .halt ∨ options.dryRun = true ∨
      report.outcome = .published ∧ (∃ next, w.active = some next) ∧
        ∃ base afterSequence events rest, Delivery base afterSequence (events ++ rest) ∧
          (options.limit = none → rest = []) ∧ w.publishedFrom = base ++ fresh afterSequence events
  | .error (.aborted _ report), _ => ∃ base afterSequence events event rest progress,
      Delivery base afterSequence (events ++ event :: rest) ∧
        P (base ++ fresh afterSequence events) ∧
          LoopInv engine projection base afterSequence events progress ∧
            AbortCause engine event progress report
  | .error (.rejected _), _ => Rejects

variable (engine projection P) in
def Delivers (g : Guard (replaySemantics S source))
    (Delivery : List StoredEvent → Int → List StoredEvent → Prop) : Prop :=
  ∀ w afterSequence d events, WorldDerived engine projection P w →
    g () (.readSource afterSequence) (.deliver d) w → source.deliver d afterSequence = some events →
        afterSequence = lastSequence 0 (w.opened afterSequence events).base →
          P (w.opened afterSequence events).base →
            Delivery (w.opened afterSequence events).base afterSequence events

theorem conclude_safe (hrejects : RejectsOnly g Rejects)
    (hdelivery : Delivery base afterSequence delivered) {ended : LoopEnd S}
    (hended : LoopOutcome engine projection options base delivered afterSequence P Rejects
      (.ok ended) w) (hw : WorldDerived engine projection P w) :
    Safe (replaySemantics S source) g () (Contract.solo (WorldDerived engine projection P))
      (RebuildOutcome engine projection options P Rejects Delivery)
      (conclude engine projection options ended) w := by
  cases ended with
  | halted report => exact safe_solo_done (.inl hended)
  | exhausted progress =>
    obtain ⟨events, rest, hdelivered, hlimit, hinv, hP, hreading⟩ := hended
    simp only [conclude]
    split
    · rename_i hdry
      exact safe_solo_done (.inr (.inl hdry))
    · have hswapped := hreading.swapped_derived hdelivered hinv hP hw
      refine safe_store_bind hrejects (fun _ _ h => h) (by nofun) hw hswapped fun _ _ _ => ?_
      refine safe_store_bind hrejects (fun _ _ h => h) (by nofun) hswapped hswapped.cleared
        fun _ _ _ => safe_solo_done (.inr (.inr ⟨rfl, ⟨_, rfl⟩, base, afterSequence, events, rest,
          hdelivered ▸ hdelivery, hlimit, hreading.behind_eq hdelivered hinv⟩))

variable {checkpoint : Option (ProjectionCheckpoint S)}

theorem loopInv_start
    (hstate : (startProgress projection checkpoint).state = referenceFold engine projection base) :
    LoopInv engine projection base (startProgress projection checkpoint).lastSequence []
      (startProgress projection checkpoint) := by
  refine ⟨?_, rfl, rfl, nofun⟩
  rw [hstate, fresh, List.append_nil]

variable (hdelivers : Delivers engine projection P g Delivery)
  (hgrows : ∀ base afterSequence delivered, Delivery base afterSequence delivered →
    Grows engine P base afterSequence delivered) (hnil : P [])
include hdelivers hgrows hnil

theorem rebuildFrom_safe (hrejects : RejectsOnly g Rejects)
    (hcheckpoint : checkpoint = none ∨ checkpoint = w.checkpoint)
    (hw : WorldDerived engine projection P w) :
    Safe (replaySemantics S source) g () (Contract.solo (WorldDerived engine projection P))
      (RebuildOutcome engine projection options P Rejects Delivery)
      (rebuildFrom engine projection options checkpoint) w := by
  refine safe_solo_call_bind fun _ c r w' hg hperf => ?_
  rcases performReplay_readSource hperf with ⟨d, events, rfl, hevents, rfl, rfl⟩ | ⟨e, rfl, rfl⟩
  · have hw' : WorldDerived engine projection P
        (w.opened (startProgress projection checkpoint).lastSequence events) :=
      ⟨hw.stored, hw.published⟩
    refine ⟨hw', ?_⟩
    -- the attempt starts from nothing or from the events behind the stored checkpoint
    obtain ⟨hlast, hnonneg, hstate, hP⟩ : (startProgress projection checkpoint).lastSequence =
          lastSequence 0 (w.opened (startProgress projection checkpoint).lastSequence events).base ∧
        0 ≤ (startProgress projection checkpoint).lastSequence ∧
          (startProgress projection checkpoint).state = referenceFold engine projection
            (w.opened (startProgress projection checkpoint).lastSequence events).base ∧
              P (w.opened (startProgress projection checkpoint).lastSequence events).base := by
      cases checkpoint with
      | none => exact ⟨rfl, le_refl _, rfl, hnil⟩
      | some stored =>
        obtain ⟨hderived, hpos, hP⟩ :=
          hw.stored stored (hcheckpoint.resolve_left nofun).symm
        have hbase : (w.opened (startProgress projection (some stored)).lastSequence
            events).base = w.lineage := if_neg hpos.ne'
        rw [hbase]
        exact ⟨hderived.sequence_eq, hpos.le, hderived.state_eq, hP⟩
    have hdelivery := hdelivers w _ d events hw hg hevents hlast hP
    have hinv := loopInv_start hstate
    refine safe_solo_bind hw' (replayLoop_safe hrejects (hgrows _ _ _ hdelivery) rfl hinv
      (by simpa [fresh] using hP) ⟨rfl, rfl, hlast, hnonneg⟩ hw') ?_ ?_
    · exact fun ended w'' hw'' hended => conclude_safe hrejects hdelivery hended hw''
    · intro e w'' _ he
      cases e with
      | rejected e => exact he
      | aborted message report =>
        obtain ⟨events', event, rest, progress, rfl, hP', hinv, hcause⟩ := he
        exact ⟨_, _, events', event, rest, progress, hdelivery, hP', hinv, hcause⟩
  · exact ⟨hw, hrejects _ _ _ _ _ hg hperf⟩

/-- An attempt keeps checkpoints and publications derived from their events. -/
theorem rebuild_safe (hrejects : RejectsOnly g Rejects)
    (hw : WorldDerived engine projection P w) :
    Safe (replaySemantics S source) g () (Contract.solo (WorldDerived engine projection P))
      (RebuildOutcome engine projection options P Rejects Delivery)
      (rebuild engine projection options) w := by
  simp only [rebuild]
  split
  · exact rebuildFrom_safe hdelivers hgrows hnil hrejects (.inl rfl) hw
  · refine safe_store_bind hrejects (fun _ _ h => h) (by nofun) hw hw fun checkpoint c hperf => ?_
    have hloaded : checkpoint = w.checkpoint := by
      cases c <;> cases hperf
      rfl
    exact rebuildFrom_safe hdelivers hgrows hnil hrejects (.inr hloaded) hw

def SomeOutcome (engine : Engine) (projection : ProjectionDefinition S)
    (P : List StoredEvent → Prop) (Delivery : List StoredEvent → Int → List StoredEvent → Prop)
    (r : Except ReplayFailure ReplayReport) (w : ReplayWorld S) : Prop :=
  ∃ options, RebuildOutcome engine projection options P True Delivery r w

/-- Along every history of attempts that are stopped anywhere and started again, checkpoints
and publications are derived from their events. -/
theorem reach_derived {program : ReplayProgram S ReplayReport}
    (hprogram : Attempts engine projection program) {s : ReplaySession S}
    (hreach : Session.Reach (replaySemantics S source) g (Attempts engine projection)
      ⟨{}, program⟩ s) :
    Session.IsSafe (replaySemantics S source) g (Contract.solo (WorldDerived engine projection P))
        (SomeOutcome engine projection P Delivery) s := by
  have hstart : ∀ p w, Attempts engine projection p → WorldDerived engine projection P w →
      Safe (replaySemantics S source) g () (Contract.solo (WorldDerived engine projection P))
        (SomeOutcome engine projection P Delivery) p w := by
    rintro p w ⟨options⟩ hw
    refine safe_mono (rebuild_safe hdelivers hgrows hnil (fun _ _ _ _ _ _ _ => trivial) hw) ?_
    exact fun r w' _ hr => ⟨options, hr⟩
  refine Session.Reach.safe (fun e => e.elim) hstart hreach ⟨?_, ?_⟩
  · exact ⟨nofun, nofun⟩
  · exact hstart program {} hprogram ⟨nofun, nofun⟩

end Attempt

end Trellis.Events
