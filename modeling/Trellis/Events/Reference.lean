import Trellis.Events.Replay

/-!
# What a replay computes

The reference fold of a list of events, and what one step of the replay loop can do: repeat an
event that was applied, accept a new event as the reference step does, abort or halt.
-/

namespace Trellis.Events

open Core List

variable {S : Type} (engine : Engine) (projection : ProjectionDefinition S)

/-! ## The reference fold -/

/-- The state after an event: an event that is not handled and a poison event leave it. -/
def referenceStep (state : S) (event : StoredEvent) : S :=
  match projection.handles event.eventName with
  | none => state
  | some targetVersion =>
    match prepare engine event targetVersion with
    | .error _ => state
    | .ok (prepared, _) =>
      match projection.apply state ⟨prepared, event.sequence⟩ with
      | .ok next => next
      | .error _ => state

def referenceFold (events : List StoredEvent) : S :=
  events.foldl (referenceStep engine projection) projection.initialState

theorem referenceFold_concat (events : List StoredEvent) (event : StoredEvent) :
    referenceFold engine projection (events ++ [event]) =
      referenceStep engine projection (referenceFold engine projection events) event := by
  simp [referenceFold]

def lastSequence : Int → List StoredEvent → Int
  | start, [] => start
  | _, event :: events => lastSequence event.sequence events

theorem lastSequence_append (start : Int) (events rest : List StoredEvent) :
    lastSequence start (events ++ rest) = lastSequence (lastSequence start events) rest := by
  induction events generalizing start with
  | nil => rfl
  | cons event events ih => exact ih event.sequence

theorem lastSequence_concat (start : Int) (events : List StoredEvent) (event : StoredEvent) :
    lastSequence start (events ++ [event]) = event.sequence :=
  lastSequence_append start events [event]

/-! ## New events -/

/-- The events of a delivery that are beyond every event before them. -/
def fresh : Int → List StoredEvent → List StoredEvent
  | _, [] => []
  | last, event :: events =>
    if last < event.sequence then event :: fresh event.sequence events else fresh last events

theorem fresh_append (last : Int) (events rest : List StoredEvent) : fresh last (events ++ rest) =
    fresh last events ++ fresh (lastSequence last (fresh last events)) rest := by
  induction events generalizing last with
  | nil => rfl
  | cons event events ih =>
    simp only [cons_append, fresh]
    split
    · simp [ih, lastSequence]
    · exact ih last

variable {event : StoredEvent} {events : List StoredEvent} {last : Int}

theorem fresh_concat_of_lt (h : lastSequence last (fresh last events) < event.sequence) :
    fresh last (events ++ [event]) = fresh last events ++ [event] := by
  rw [fresh_append]
  simp [fresh, h]

theorem fresh_concat_of_le (h : event.sequence ≤ lastSequence last (fresh last events)) :
    fresh last (events ++ [event]) = fresh last events := by
  rw [fresh_append]
  simp [fresh, not_lt.mpr h]

theorem lt_of_mem_fresh (h : event ∈ fresh last events) : last < event.sequence := by
  induction events generalizing last with
  | nil => cases h
  | cons first events ih =>
    simp only [fresh] at h
    split at h
    · rename_i hlt
      rcases mem_cons.mp h with rfl | h
      · exact hlt
      · exact hlt.trans (ih h)
    · exact ih h

theorem mem_of_mem_fresh (h : event ∈ fresh last events) : event ∈ events := by
  induction events generalizing last with
  | nil => cases h
  | cons first events ih =>
    simp only [fresh] at h
    split at h
    · rcases mem_cons.mp h with rfl | h
      · exact mem_cons_self
      · exact mem_cons_of_mem _ (ih h)
    · exact mem_cons_of_mem _ (ih h)

theorem le_lastSequence_fresh (last : Int) (events : List StoredEvent) :
    last ≤ lastSequence last (fresh last events) ∧
      ∀ event ∈ fresh last events, event.sequence ≤ lastSequence last (fresh last events) := by
  induction events generalizing last with
  | nil => exact ⟨le_refl _, nofun⟩
  | cons first events ih =>
    simp only [fresh]
    split
    · rename_i hlt
      obtain ⟨hfirst, hrest⟩ := ih first.sequence
      refine ⟨hlt.le.trans hfirst, fun event hevent => ?_⟩
      rcases mem_cons.mp hevent with rfl | hevent
      · exact hfirst
      · exact hrest event hevent
    · exact ih last

theorem takeWhile_fresh (last : Int) (events rest : List StoredEvent) :
    (fresh last (events ++ rest)).takeWhile (·.sequence ≤ lastSequence last (fresh last events)) =
      fresh last events := by
  rw [fresh_append, takeWhile_append_of_pos]
  · have hnone : ∀ l : List StoredEvent,
        (∀ event ∈ l, lastSequence last (fresh last events) < event.sequence) →
          l.takeWhile (·.sequence ≤ lastSequence last (fresh last events)) = [] := by
      intro l hl
      cases l with
      | nil => rfl
      | cons event l =>
        have hlt := hl event mem_cons_self
        simp [not_le.mpr hlt]
    rw [hnone _ fun event hevent => lt_of_mem_fresh hevent, append_nil]
  · intro event hevent
    simpa using (le_lastSequence_fresh last events).2 event hevent

/-! ## One step of the loop -/

def trackHash (lastHash : Option String) (events : List StoredEvent) : Option String :=
  events.foldl (fun last event => if truthy event.hash then event.hash else last) lastHash

theorem trackHash_concat (lastHash : Option String) (events : List StoredEvent)
    (event : StoredEvent) : trackHash lastHash (events ++ [event]) =
      if truthy event.hash then event.hash else trackHash lastHash events := by
  simp [trackHash]

structure Repeats (event : StoredEvent) (progress progress' : Progress S) : Prop where
  le_last : event.sequence ≤ progress.lastSequence
  state : progress'.state = progress.state
  lastSequence : progress'.lastSequence = progress.lastSequence
  lastHash : progress'.lastHash = progress.lastHash
  progressed : progress'.progressed = progress.progressed

structure Accepts (event : StoredEvent) (progress progress' : Progress S) : Prop where
  last_lt : progress.lastSequence < event.sequence
  checked : tamperCheck engine progress.lastHash event = .ok progress'.lastHash
  state : progress'.state = referenceStep engine projection progress.state event
  lastSequence : progress'.lastSequence = event.sequence
  progressed : progress'.progressed = true

inductive AbortCause (event : StoredEvent) (progress : Progress S) (report : ReplayReport) : Prop
  | regression (hlt : event.sequence < progress.lastSequence)
      (hprogressed : progress.progressed = true)
      (herror : report.error = some "sequence regression")
  | tampered (hlt : progress.lastSequence < event.sequence) (message reason : String)
      (hcheck : tamperCheck engine progress.lastHash event = .error (message, reason))
      (herror : report.error = some reason)

variable {engine projection} {options : ReplayOptions}

theorem applyWithRetry_succ (state : S) (event : StoredEvent) (attempts : Nat) (e : Failure) :
    applyWithRetry projection state event (attempts + 1) e =
      (projection.apply state event).mapError EventError.other := by
  induction attempts generalizing e with
  | zero =>
    unfold applyWithRetry
    cases projection.apply state event <;> rfl
  | succ attempts ih =>
    rw [applyWithRetry]
    cases happly : projection.apply state event with
    | ok next => rfl
    | error e' =>
      simp only
      rw [ih, happly]

variable {targetVersion : String}

variable (hhandles : projection.handles event.eventName = some targetVersion)
include hhandles

theorem referenceStep_eq (state : S) : referenceStep engine projection state event =
    match applyEvent engine projection options event targetVersion state with
    | .ok next => next
    | .error _ => state := by
  obtain ⟨attempts, hattempts⟩ : ∃ n, applyAttempts options = n + 1 :=
    ⟨(max 1 options.maxApplyAttempts).toNat - 1, by unfold applyAttempts; omega⟩
  simp only [applyEvent, hattempts, applyWithRetry_succ, referenceStep, hhandles]
  cases prepare engine event targetVersion with
  | error e => rfl
  | ok prepared =>
    simp only
    cases projection.apply state ⟨prepared.1, event.sequence⟩ <;> rfl

omit hhandles

theorem moveOn_cases (options : ReplayOptions) (event : StoredEvent) (progress : Progress S) :
    ∃ progress', (moveOn options event progress = .next progress' ∨
        moveOn options event progress = .checkpoint progress') ∧
      progress'.state = progress.state ∧ progress'.lastHash = progress.lastHash ∧
        progress'.progressed = progress.progressed ∧ progress'.lastSequence = event.sequence := by
  unfold moveOn
  simp only
  split
  · exact ⟨_, .inr rfl, rfl, rfl, rfl, rfl⟩
  · exact ⟨_, .inl rfl, rfl, rfl, rfl, rfl⟩

variable (engine : Engine)

theorem handleEvent_cases (options : ReplayOptions) (progress : Progress S)
    (hhandles : projection.handles event.eventName = some targetVersion) :
    (∃ progress', (handleEvent engine projection options event targetVersion progress =
          .next progress' ∨ handleEvent engine projection options event targetVersion progress =
            .checkpoint progress') ∧
        progress'.state = referenceStep engine projection progress.state event ∧
          progress'.lastHash = progress.lastHash ∧ progress'.progressed = progress.progressed ∧
              progress'.lastSequence = event.sequence) ∨
      (∃ report, handleEvent engine projection options event targetVersion progress =
          .halt report ∧ options.onPoisonEvent = .halt) := by
  simp only [handleEvent]
  split
  · rename_i state happly
    left
    obtain ⟨progress', hresult, hstate, hrest⟩ := moveOn_cases options event
      { progress with
        state := state
        report := { countUpcast engine event targetVersion progress.report with
          applied := (countUpcast engine event targetVersion progress.report).applied + 1 } }
    refine ⟨progress', hresult, ?_, hrest⟩
    rw [hstate, referenceStep_eq hhandles, happly]
  · rename_i e happly
    split
    · rename_i hpolicy
      exact .inr ⟨_, rfl, hpolicy⟩
    · left
      obtain ⟨progress', hresult, hstate, hrest⟩ := moveOn_cases options event
        { progress with report := { countUpcast engine event targetVersion progress.report with
          poisonEvents :=
            (countUpcast engine event targetVersion progress.report).poisonEvents ++
              [⟨event.sequence, event.eventId, event.eventName, event.schemaVersion, e.reason⟩] } }
      refine ⟨progress', hresult, ?_, hrest⟩
      rw [hstate, referenceStep_eq hhandles, happly]

theorem newEvent_cases (projection : ProjectionDefinition S) (options : ReplayOptions)
    {progress : Progress S} (hlt : progress.lastSequence < event.sequence) :
    (∃ progress', (newEvent engine projection options event progress = .next progress' ∨
          newEvent engine projection options event progress = .checkpoint progress') ∧
        Accepts engine projection event progress progress') ∨
      (∃ message report, newEvent engine projection options event progress =
          .abort message report ∧ AbortCause engine event progress report) ∨
        (∃ report, newEvent engine projection options event progress = .halt report ∧
          options.onPoisonEvent = .halt) := by
  simp only [newEvent]
  split
  · rename_i message reason hcheck
    exact .inr (.inl ⟨_, _, rfl, .tampered hlt message reason hcheck rfl⟩)
  · rename_i lastHash hcheck
    split
    · rename_i hhandles
      refine .inl ⟨_, .inl rfl, hlt, hcheck, ?_, rfl, rfl⟩
      simp only [referenceStep, hhandles]
    · rename_i targetVersion hhandles
      rcases handleEvent_cases engine options { progress with lastHash, progressed := true }
        hhandles with ⟨progress', hresult, hstate, hhash, hprogressed, hsequence⟩ | hhalt
      · exact .inl ⟨progress', hresult, hlt, by rw [hhash]; exact hcheck, hstate, hsequence,
          hprogressed⟩
      · exact .inr (.inr hhalt)

theorem replayStep_cases (projection : ProjectionDefinition S)
    (options : ReplayOptions) (event : StoredEvent) (progress : Progress S) :
    (∃ progress', replayStep engine projection options event progress = .next progress' ∧
        Repeats event progress progress') ∨
      (∃ progress', (replayStep engine projection options event progress = .next progress' ∨
            replayStep engine projection options event progress = .checkpoint progress') ∧
          Accepts engine projection event progress progress') ∨
        (∃ message report, replayStep engine projection options event progress =
            .abort message report ∧ AbortCause engine event progress report) ∨
          (∃ report, replayStep engine projection options event progress = .halt report ∧
            options.onPoisonEvent = .halt) := by
  simp only [replayStep]
  split
  · rename_i hle
    split
    · exact .inl ⟨_, rfl, hle, rfl, rfl, rfl, rfl⟩
    · rename_i hregress
      obtain ⟨hne, hprogressed⟩ := not_or.mp hregress
      exact .inr (.inr (.inl ⟨_, _, rfl, .regression (lt_of_le_of_ne hle hne)
        (Bool.eq_true_of_not_eq_false hprogressed) rfl⟩))
  · rename_i hlt
    have hlt' : progress.countRead.lastSequence < event.sequence := not_le.mp hlt
    rcases newEvent_cases engine projection options hlt' with
      ⟨progress', hresult, haccepts⟩ | ⟨message, report, hresult, hcause⟩ | hhalt
    · exact .inr (.inl ⟨progress', hresult, haccepts.last_lt, haccepts.checked, haccepts.state,
        haccepts.lastSequence, haccepts.progressed⟩)
    · refine .inr (.inr (.inl ⟨message, report, hresult, ?_⟩))
      cases hcause with
      | regression hlt hprogressed herror => exact .regression hlt hprogressed herror
      | tampered hlt message reason hcheck herror =>
        exact .tampered hlt message reason hcheck herror
    · exact .inr (.inr (.inr hhalt))

end Trellis.Events
