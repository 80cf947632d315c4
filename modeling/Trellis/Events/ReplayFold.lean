import Trellis.Events.Rebuild

/-!
# A rebuild computes the reference fold

The events of a stream have strictly increasing positive sequences. A source delivers the stream
from any place before the position it is asked for, each event any number of times in a row. An
attempt that is served to its end publishes the fold of the whole stream.
-/

namespace Trellis.Events

open Core List

variable {S : Type}

/-! ## Streams -/

structure EventStream where
  events : List StoredEvent
  increasing : events.Pairwise (·.sequence < ·.sequence)
  positive : ∀ event ∈ events, 0 < event.sequence

def arraySource (events : List StoredEvent) (afterSequence : Int) : List StoredEvent :=
  events.filter (afterSequence < ·.sequence)

/-- Each event is delivered once and then again, as often as `copies` says. -/
def redeliver (copies : Int → Nat) (events : List StoredEvent) : List StoredEvent :=
  events.flatMap fun event => List.replicate (copies event.sequence + 1) event

/-- How a source delivers a stream: how many events it leaves out at the front, and how often
it repeats the others. -/
structure StreamDelivery where
  dropped : Nat
  copies : Int → Nat

/-- A source of a stream.  It may leave out events up to the position it is asked for. -/
def streamSource (stream : EventStream) : SourceModel where
  Choice := StreamDelivery
  deliver c afterSequence :=
    if ∀ event ∈ stream.events.take c.dropped, event.sequence ≤ afterSequence then
      some (redeliver c.copies (stream.events.drop c.dropped))
    else none

theorem lastSequence_eq_or_mem (start : Int) (events : List StoredEvent) :
    (events = [] ∧ lastSequence start events = start) ∨
      ∃ event ∈ events, lastSequence start events = event.sequence := by
  induction events generalizing start with
  | nil => exact .inl ⟨rfl, rfl⟩
  | cons event events ih =>
    right
    rcases ih event.sequence with ⟨-, hlast⟩ | ⟨event', hmem, hlast⟩
    · exact ⟨event, mem_cons_self, hlast⟩
    · exact ⟨event', mem_cons_of_mem _ hmem, hlast⟩

variable {events : List StoredEvent}

theorem le_lastSequence_of_increasing (hincreasing : events.Pairwise (·.sequence < ·.sequence))
    (start : Int) : ∀ event ∈ events, event.sequence ≤ lastSequence start events := by
  induction hincreasing generalizing start with
  | nil => nofun
  | cons hfirst _ ih =>
    rename_i first rest _
    intro event hevent
    rcases mem_cons.mp hevent with rfl | hevent
    · rcases lastSequence_eq_or_mem event.sequence rest with ⟨-, hlast⟩ | ⟨other, hmem, hlast⟩
      · exact hlast.ge
      · exact (hfirst other hmem).le.trans hlast.ge
    · exact ih first.sequence event hevent

theorem fresh_replicate (last : Int) (event : StoredEvent) (n : Nat) :
    fresh last (replicate (n + 1) event) = if last < event.sequence then [event] else [] := by
  have hrepeat : ∀ last n, event.sequence ≤ last → fresh last (replicate n event) = [] := by
    intro last n hle
    induction n with
    | zero => rfl
    | succ n ih => simp [replicate_succ, fresh, not_lt.mpr hle, ih]
  rw [replicate_succ, fresh]
  split
  · rw [hrepeat _ n (le_refl _)]
  · rename_i hlt
    exact hrepeat last n (not_lt.mp hlt)

theorem fresh_redeliver
    (hincreasing : events.Pairwise (·.sequence < ·.sequence)) (copies : Int → Nat) (last : Int) :
    fresh last (redeliver copies events) = events.filter (last < ·.sequence) := by
  induction hincreasing generalizing last with
  | nil => rfl
  | cons hfirst _ ih =>
    rename_i first rest _
    have hcons : redeliver copies (first :: rest) =
        replicate (copies first.sequence + 1) first ++ redeliver copies rest := by
      simp [redeliver]
    rw [hcons, fresh_append, fresh_replicate, filter_cons]
    by_cases hlt : last < first.sequence
    · -- everything after the first event is beyond both positions
      have hall : ∀ bound, bound ≤ first.sequence → rest.filter (bound < ·.sequence) = rest := by
        intro bound hbound
        refine filter_eq_self.mpr fun event hevent => ?_
        have hevent' := hfirst event hevent
        simpa using lt_of_le_of_lt hbound hevent'
      simp only [hlt, if_true, decide_true, lastSequence, ih, hall _ hlt.le,
        hall _ (le_refl _), singleton_append]
    · simp [hlt, lastSequence, ih]

variable {event : StoredEvent}

theorem mem_redeliver {copies : Int → Nat}
    (h : event ∈ redeliver copies events) : event ∈ events := by
  obtain ⟨event', hmem, heq⟩ := mem_flatMap.mp h
  rwa [eq_of_mem_replicate heq]

theorem redeliver_pairwise (hincreasing : events.Pairwise (·.sequence < ·.sequence))
    (copies : Int → Nat) : (redeliver copies events).Pairwise (·.sequence ≤ ·.sequence) := by
  refine pairwise_flatMap.mpr ⟨fun event _ => ?_, ?_⟩
  · exact pairwise_replicate.mpr (.inr (le_refl _))
  · refine hincreasing.imp fun hlt x hx y hy => ?_
    rw [eq_of_mem_replicate hx, eq_of_mem_replicate hy]
    exact hlt.le

/-! ## Deliveries of a stream -/

/-- The new events of a delivery complete a part of the stream. -/
structure Completes (stream : EventStream) (base : List StoredEvent) (afterSequence : Int)
    (delivered : List StoredEvent) : Prop where
  complete : base ++ fresh afterSequence delivered = stream.events
  sorted : delivered.Pairwise (·.sequence ≤ ·.sequence)
  mem_stream : ∀ event ∈ delivered, event ∈ stream.events

variable {engine : Engine} {projection : ProjectionDefinition S} {stream : EventStream}
  {base delivered : List StoredEvent} {afterSequence : Int}

theorem EventStream.filter_after (stream : EventStream) (hbase : base <+: stream.events) :
    base ++ stream.events.filter (lastSequence 0 base < ·.sequence) = stream.events := by
  obtain ⟨rest, hrest⟩ := hbase
  have hincreasing := stream.increasing
  have hpositive := stream.positive
  rw [← hrest] at hincreasing hpositive ⊢
  obtain ⟨hbase, -, hcross⟩ := pairwise_append.mp hincreasing
  have hnone : base.filter (lastSequence 0 base < ·.sequence) = [] := by
    refine filter_eq_nil_iff.mpr fun event hevent => ?_
    simpa using le_lastSequence_of_increasing hbase 0 event hevent
  have hall : rest.filter (lastSequence 0 base < ·.sequence) = rest := by
    refine filter_eq_self.mpr fun event hevent => ?_
    rcases lastSequence_eq_or_mem 0 base with ⟨-, hlast⟩ | ⟨event', hmem, hlast⟩
    · simpa [hlast] using hpositive event (mem_append_right _ hevent)
    · simpa [hlast] using hcross event' hmem event hevent
  rw [filter_append, hnone, hall, nil_append]

theorem completes_of_deliver {d : StreamDelivery} (hbase : base <+: stream.events)
    (hafter : afterSequence = lastSequence 0 base)
    (h : (streamSource stream).deliver d afterSequence = some delivered) :
    Completes stream base afterSequence delivered := by
  simp only [streamSource, Option.ite_none_right_eq_some, Option.some.injEq] at h
  obtain ⟨hdropped, rfl⟩ := h
  have hincreasing := stream.increasing.sublist (drop_sublist d.dropped stream.events)
  constructor
  · have hfront : (stream.events.take d.dropped).filter (afterSequence < ·.sequence) = [] := by
      refine filter_eq_nil_iff.mpr fun event hevent => ?_
      simpa using hdropped event hevent
    have hsplit : (stream.events.drop d.dropped).filter (afterSequence < ·.sequence) =
        stream.events.filter (afterSequence < ·.sequence) := by
      conv_rhs => rw [← take_append_drop d.dropped stream.events]
      rw [filter_append, hfront, nil_append]
    rw [fresh_redeliver hincreasing, hsplit, hafter, stream.filter_after hbase]
  · exact redeliver_pairwise hincreasing d.copies
  · exact fun event hevent => mem_of_mem_drop (mem_redeliver hevent)

variable {events rest : List StoredEvent}

theorem Completes.concat_prefix (h : Completes stream base afterSequence (events ++ event :: rest))
    (hlt : lastSequence afterSequence (fresh afterSequence events) < event.sequence) :
    base ++ fresh afterSequence events ++ [event] <+: stream.events := by
  have hsplit : fresh afterSequence (events ++ event :: rest) = fresh afterSequence events ++
      [event] ++ fresh event.sequence rest := by
    rw [append_cons, fresh_append, fresh_concat_of_lt hlt, lastSequence_concat]
  refine ⟨fresh event.sequence rest, ?_⟩
  rw [← h.complete, hsplit]
  simp

theorem Completes.grows (h : Completes stream base afterSequence delivered) :
    Grows engine (· <+: stream.events) base afterSequence delivered := by
  intro events event rest lastHash hdelivered hlt _ _
  subst hdelivered
  exact h.concat_prefix hlt

theorem Completes.not_regression {progress : Progress S}
    (h : Completes stream base afterSequence (events ++ event :: rest))
    (hinv : LoopInv engine projection base afterSequence events progress)
    (hprogressed : progress.progressed = true) : progress.lastSequence ≤ event.sequence := by
  rcases lastSequence_eq_or_mem afterSequence (fresh afterSequence events) with
    ⟨hnil, -⟩ | ⟨event', hmem, hlast⟩
  · exact absurd hnil (hinv.fresh_ne hprogressed)
  · rw [hinv.last_eq, hlast]
    exact (pairwise_append.mp h.sorted).2.2 event' (mem_of_mem_fresh hmem) event mem_cons_self

/-! ## The published state -/

/-- Deliveries of the source, one for each position, that are possible. -/
structure Deliveries (stream : EventStream) where
  choose : Int → StreamDelivery
  events : Int → List StoredEvent
  possible : ∀ afterSequence, (streamSource stream).deliver (choose afterSequence) afterSequence =
      some (events afterSequence)

def Deliveries.answer (deliveries : Deliveries stream) :
    ReplayOp S → ReplayWorld S → ReplayChoice (streamSource stream)
  | .readSource afterSequence, _ => .deliver (deliveries.choose afterSequence)
  | _, _ => .served

def Deliveries.serve (deliveries : Deliveries stream) :
    (op : ReplayOp S) → ReplayWorld S → Except ReplayFailure op.Res × ReplayWorld S
  | .load, w => (.ok w.checkpoint, w)
  | .readSource afterSequence, w =>
    (.ok (deliveries.events afterSequence), w.opened afterSequence
      (deliveries.events afterSequence))
  | .save checkpoint, w => (.ok (), w.saved checkpoint)
  | .swap next, w => (.ok w.active, w.swapped next)
  | .clear, w => (.ok (), w.cleared)

theorem Deliveries.perform_answer (deliveries : Deliveries stream) (op : ReplayOp S)
    (w : ReplayWorld S) : performReplay (streamSource stream) op (deliveries.answer op w) w =
      some (deliveries.serve op w) := by
  cases op with
  | readSource afterSequence =>
    simp only [performReplay, answer, serve, deliveries.possible]
    rfl
  | load => rfl
  | save checkpoint => rfl
  | swap next => rfl
  | clear => rfl

def servedOnly (stream : EventStream) : Guard (replaySemantics S (streamSource stream)) :=
  fun _ _ c _ => match c with
    | .served | .deliver _ => True
    | .rejected _ | .lost _ => False

theorem servedOnly_rejects : RejectsOnly (S := S) (servedOnly stream) False := by
  intro op c w e w' hg h
  cases c with
  | rejected e => exact hg
  | lost e => exact hg
  | served => cases op <;> cases h
  | deliver d =>
    cases op with
    | readSource afterSequence =>
      obtain ⟨events, -, heq⟩ := Option.map_eq_some_iff.mp h
      cases heq
    | load => cases h
    | save checkpoint => cases h
    | swap next => cases h
    | clear => cases h

theorem stream_delivers (g : Guard (replaySemantics S (streamSource stream))) :
    Delivers engine projection (· <+: stream.events) g (Completes stream) :=
  fun _ _ _ _ _ _ hdeliver hafter hbase => completes_of_deliver hbase hafter hdeliver

theorem not_abortCause (hplain : ∀ event ∈ stream.events, event.hash = none) {progress : Progress S}
    {report : ReplayReport} (h : Completes stream base afterSequence (events ++ event :: rest))
    (hinv : LoopInv engine projection base afterSequence events progress) :
    ¬ AbortCause engine event progress report := by
  intro hcause
  cases hcause with
  | regression hlt hprogressed _ =>
    exact absurd (h.not_regression hinv hprogressed) (not_le.mpr hlt)
  | tampered _ message reason hcheck _ =>
    have hhash := hplain event (h.mem_stream event (by simp))
    simp [tamperCheck, hhash, truthy] at hcheck

/-- The state and the position that are published are those of the whole stream. -/
def PublishesStream (engine : Engine) (projection : ProjectionDefinition S)
    (stream : EventStream) : Except ReplayFailure ReplayReport → ReplayWorld S → Prop
  | .ok report, w => report.outcome = .published ∧ ∃ next, w.active = some next ∧
      next.state = referenceFold engine projection stream.events ∧
        next.sequence = lastSequence 0 stream.events
  | .error _, _ => False

theorem publishesStream_of_outcome (hplain : ∀ event ∈ stream.events, event.hash = none)
    {options : ReplayOptions} (hpolicy : options.onPoisonEvent = .skip)
    (hdry : options.dryRun = false) (hlimit : options.limit = none)
    {r : Except ReplayFailure ReplayReport} {w : ReplayWorld S}
    (hw : WorldDerived engine projection (· <+: stream.events) w)
    (hr : RebuildOutcome engine projection options (· <+: stream.events) False
      (Completes stream) r w) : PublishesStream engine projection stream r w := by
  cases r with
  | ok report =>
    rcases hr with hhalt | hdry' | ⟨houtcome, ⟨next, hnext⟩, base, afterSequence, events, rest,
      hcompletes, hrest, hfrom⟩
    · simp [hpolicy] at hhalt
    · simp [hdry] at hdry'
    · obtain rfl := hrest hlimit
      rw [append_nil] at hcompletes
      have hderived := (hw.published next hnext).1
      rw [hfrom, hcompletes.complete] at hderived
      exact ⟨houtcome, next, hnext, hderived.state_eq, hderived.sequence_eq⟩
  | error e =>
    cases e with
    | rejected e => exact hr
    | aborted message report =>
      obtain ⟨base, afterSequence, events, event, rest, progress, hcompletes, -, hinv, hcause⟩ := hr
      exact not_abortCause hplain hcompletes hinv hcause

/-- However many attempts were stopped before, and wherever, an attempt that is served to its
end publishes the reference fold of the whole stream. -/
theorem rebuild_publishes_referenceFold (engine : Engine) (projection : ProjectionDefinition S)
    (stream : EventStream) (hplain : ∀ event ∈ stream.events, event.hash = none)
    {program : ReplayProgram S ReplayReport} (hprogram : Attempts engine projection program)
    {s : ReplaySession S}
    (hreach : Session.Reach (replaySemantics S (streamSource stream)) (anyStep _)
      (Attempts engine projection) ⟨{}, program⟩ s)
    (options : ReplayOptions) (hpolicy : options.onPoisonEvent = .skip)
    (hdry : options.dryRun = false) (hlimit : options.limit = none)
    (deliveries : Deliveries stream) : PublishesStream engine projection stream
      ((rebuild engine projection options).eval deliveries.serve s.world).1
      ((rebuild engine projection options).eval deliveries.serve s.world).2 := by
  have hgrows : ∀ base afterSequence delivered, Completes stream base afterSequence delivered →
      Grows engine (· <+: stream.events) base afterSequence delivered :=
    fun _ _ _ h => h.grows
  have hworld := (reach_derived (stream_delivers _) hgrows nil_prefix hprogram hreach).world_inv
  have hsafe : Safe (replaySemantics S (streamSource stream)) (servedOnly stream) ()
      (Contract.solo (WorldDerived engine projection (· <+: stream.events)))
      (PublishesStream engine projection stream) (rebuild engine projection options) s.world := by
    refine safe_mono (rebuild_safe (stream_delivers _) hgrows nil_prefix servedOnly_rejects
      hworld) fun r w hw hr => ?_
    exact publishesStream_of_outcome hplain hpolicy hdry hlimit hw hr
  have hperform : ∀ op w, (replaySemantics S (streamSource stream)).perform () op
      (deliveries.answer op w) w = some (deliveries.serve op w) :=
    deliveries.perform_answer
  have hserved : ∀ op w, servedOnly (S := S) stream () op (deliveries.answer op w) w := by
    intro op w
    cases op <;> exact trivial
  exact hsafe.eval hperform hserved hworld

def paymentCount : ProjectionDefinition Nat where
  name := "payment-count"
  version := 1
  handles eventName := if eventName = "payment.completed" then some "1.0" else none
  initialState := 0
  apply count _ := .ok (count + 1)
  view count := .int count

def defaultEngine : Engine where
  sha256 := hexCode
  schemas := defaultSchemas
  upcasters := []

def storedPayment (sequence : Int) : StoredEvent where
  eventId := "e"
  eventName := "payment.completed"
  schemaVersion := "1.0"
  timestamp := "2026-01-01T00:00:00.000Z"
  producer := "payments"
  payload := .obj [("transactionId", .str "t1"), ("amount", .int 5), ("currency", .str "XLM")]
  sequence := sequence

def threePayments : EventStream where
  events := [storedPayment 1, storedPayment 2, storedPayment 4]
  increasing := by decide
  positive := by decide

def twice : Deliveries threePayments where
  choose _ := ⟨0, fun _ => 1⟩
  events _ := redeliver (fun _ => 1) threePayments.events
  possible _ := rfl

/-- An attempt loads no checkpoint, reads the stream, and stores two checkpoints. -/
def stoppedHistory : List (Session.Pick (replaySemantics Nat (streamSource threePayments))
    (Attempts defaultEngine paymentCount)) :=
  [.perform .served, .perform (.deliver ⟨0, fun _ => 0⟩), .perform .served, .perform .served]

/-- An attempt that stores a checkpoint after every event is stopped after the second one;
the next attempt publishes all three payments. -/
theorem stopped_rebuild_publishes : ∃ s : ReplaySession Nat,
    s.world.checkpoint.map (fun checkpoint => (checkpoint.sequence, checkpoint.state)) =
        some (2, 2) ∧ PublishesStream defaultEngine paymentCount threePayments
        ((rebuild defaultEngine paymentCount { onPoisonEvent := .skip }).eval twice.serve s.world).1
        ((rebuild defaultEngine paymentCount { onPoisonEvent := .skip }).eval twice.serve
          s.world).2 := by
  have hattempt : Attempts defaultEngine paymentCount
      (rebuild defaultEngine paymentCount { checkpointEvery := 1, onPoisonEvent := .skip }) :=
    .attempt _
  have hrun : (Session.run (anyStep _) stoppedHistory
      ⟨{}, rebuild defaultEngine paymentCount { checkpointEvery := 1, onPoisonEvent := .skip }⟩).map
        (fun s => s.world.checkpoint.map fun checkpoint =>
          (checkpoint.sequence, checkpoint.state)) = some (some (2, 2)) := by
    decide +kernel
  obtain ⟨s, hreach, hcheckpoint⟩ := Session.exists_reach_of_run hrun
  exact ⟨s, hcheckpoint, rebuild_publishes_referenceFold defaultEngine paymentCount threePayments
    (by decide) hattempt hreach _ rfl rfl rfl twice⟩

end Trellis.Events
