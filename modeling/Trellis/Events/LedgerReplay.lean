import Trellis.Events.CanonicalForms
import Trellis.Events.ReplayChain

/-!
# Replaying an exported ledger

The entries of a {lit}`TamperEvidentLedger` are read as stored events.  The engine computes
their hashes again, with its own canonical form of the payload.
-/

namespace Trellis.Events

open Core List

variable {S : Type} {sha256 : HexDigest}

def StoredEvent.ofEntry (entry : LedgerEntry) : StoredEvent where
  eventId := entry.eventId
  eventName := entry.eventName
  schemaVersion := entry.schemaVersion
  timestamp := entry.timestamp
  producer := entry.producer
  payload := .obj entry.payload
  previousHash := entry.previousHash
  hash := some entry.hash
  sequence := entry.sequence

variable {entries : List LedgerEntry} {n : Int}

theorem le_of_numbered (h : Numbered n entries) : ∀ entry ∈ entries, n ≤ entry.sequence := by
  induction entries generalizing n with
  | nil => nofun
  | cons first rest ih =>
    intro entry hentry
    rcases mem_cons.mp hentry with rfl | hentry
    · exact h.1.ge
    · have hle := ih h.2 entry hentry
      omega

theorem pairwise_of_numbered (h : Numbered n entries) :
    entries.Pairwise fun entry entry' => entry.sequence < entry'.sequence := by
  induction entries generalizing n with
  | nil => exact .nil
  | cons first rest ih =>
    refine .cons (fun entry hentry => ?_) (ih h.2)
    have hle := le_of_numbered h.2 entry hentry
    have hfirst := h.1
    omega

variable (sha256) in
/-- The events of a ledger after calls of `append`. -/
def exportedStream (calls : List (String × LedgerEntryInput)) : EventStream where
  events := (appended sha256 calls).map .ofEntry
  increasing := List.pairwise_map.mpr (pairwise_of_numbered (linked_appended sha256 calls).1)
  positive event hevent := by
    obtain ⟨entry, hentry, rfl⟩ := List.mem_map.mp hevent
    have hle := le_of_numbered (linked_appended sha256 calls).1 entry hentry
    exact Int.lt_of_add_one_le hle

variable (calls : List (String × LedgerEntryInput))

variable (sha256) in
theorem exported_hashed :
    ∀ event ∈ (exportedStream sha256 calls).events, truthy event.hash = true := by
  intro event hevent
  obtain ⟨entry, hentry, rfl⟩ := mem_map.mp hevent
  have hhash := (linked_appended sha256 calls).2.hash_eq entry hentry
  have hne := sha256.digest_ne (entryText entry.sequence entry.previousHash
    (sha256.digest (canonicalPayload entry.payload)))
  simp only [StoredEvent.ofEntry, hhash]
  exact decide_eq_true hne

/-- The engine computes the hash of the ledger exactly if `undefined` occurs nowhere in the
payload. -/
theorem ledgerHash_ofEntry (hinj : Function.Injective sha256.digest) {entry : LedgerEntry}
    (hhash : entry.hash = entry.expectedHash sha256) :
    ledgerHash sha256 (.ofEntry entry) = entry.hash ↔ isDefined (.obj entry.payload) = true := by
  rw [← canonicalPayload_eq_iff, hhash]
  constructor
  · intro h
    have htext := String.ofList_inj.mp (hinj h)
    have hpayload := append_cancel_left htext
    exact (hinj (String.toList_inj.mp (cons.inj hpayload).2)).symm
  · intro h
    simp only [LedgerEntry.expectedHash, ledgerHash, computeEntryHash, StoredEvent.ofEntry, h]

theorem append_payloads (entries : List LedgerEntry) (now : String) (input : LedgerEntryInput) :
    (append sha256 entries now input).map (·.payload) =
      entries.map (·.payload) ++ [input.payload] := by
  simp [append]

variable (sha256) in
theorem appended_payloads : (appended sha256 calls).map (·.payload) = calls.map (·.2.payload) := by
  induction calls using reverseRecOn with
  | nil => rfl
  | append_singleton calls call ih =>
    simp only [appended, foldl_append, foldl_cons, foldl_nil] at ih ⊢
    rw [append_payloads, ih, map_append, map_cons, map_nil]

/-- A ledger that is cut off is the ledger of the earlier calls, and verifies. -/
theorem cut_ledger_verifies (n : Nat) :
    (appended sha256 calls).take n = appended sha256 (calls.take n) ∧
      (verify sha256 ((appended sha256 calls).take n)).valid = true := by
  have htake : (appended sha256 calls).take n = appended sha256 (calls.take n) := by
    induction calls using reverseRecOn with
    | nil => simp [appended]
    | append_singleton calls call ih =>
      have hlength : (appended sha256 calls).length = calls.length := by
        simpa using congrArg length (appended_payloads sha256 calls)
      have hlast : appended sha256 (calls ++ [call]) =
          append sha256 (appended sha256 calls) call.1 call.2 := by
        simp [appended]
      by_cases hn : n ≤ calls.length
      · rw [take_append_of_le_length hn, ← ih, hlast, append,
          take_append_of_le_length (hlength ▸ hn)]
      · rw [take_of_length_le, take_of_length_le] <;> simp [hlast, append] <;> omega
  rw [htake]
  exact ⟨rfl, verify_valid_iff_linked.mpr (linked_appended sha256 _)⟩

variable (sha256) in
theorem defined_entries_iff :
    (∀ entry ∈ appended sha256 calls, isDefined (.obj entry.payload) = true) ↔
      ∀ call ∈ calls, isDefined (.obj call.2.payload) = true := by
  have hmap : ∀ {α : Type} (f : α → Record) (l : List α), (∀ a ∈ l, isDefined (.obj (f a)) = true) ↔
        ∀ payload ∈ l.map f, isDefined (.obj payload) = true := by simp
  rw [hmap (fun entry : LedgerEntry => entry.payload), appended_payloads,
    ← hmap (fun call : String × LedgerEntryInput => call.2.payload)]

theorem unbroken_exported (hinj : Function.Injective sha256.digest)
    {calls : List (String × LedgerEntryInput)}
    (hdefined : ∀ call ∈ calls, isDefined (.obj call.2.payload) = true) :
    Unbroken sha256 (exportedStream sha256 calls).events := by
  have hchained := (linked_appended sha256 calls).2
  constructor
  · exact (isChain_map StoredEvent.ofEntry).mpr hchained.isChain
  · intro event hevent
    obtain ⟨entry, hentry, rfl⟩ := mem_map.mp hevent
    have hentry' := (defined_entries_iff sha256 calls).mpr hdefined entry hentry
    rw [(ledgerHash_ofEntry hinj (hchained.hash_eq entry hentry)).mpr hentry']
    rfl

variable {events : List StoredEvent}

theorem Unbroken.of_prefix {events' : List StoredEvent} (h : Unbroken sha256 events)
    (hpart : events' <+: events) : Unbroken sha256 events' := by
  constructor
  · exact List.IsChain.prefix h.links hpart
  · exact fun event hevent => h.hashes event (hpart.subset hevent)

variable {event : StoredEvent} {engine : Engine}

theorem tamperCheck_passes {lastHash : Option String}
    (hlink : lastHash ≠ none → event.previousHash = lastHash)
    (hown : event.hash = some (ledgerHash engine.sha256 event)) :
    ∃ lastHash', tamperCheck engine lastHash event = .ok lastHash' := by
  simp only [tamperCheck]
  split_ifs with htruthy hbroken hdiffer
  · exact absurd (hlink hbroken.1) hbroken.2
  · exact absurd hown hdiffer
  · exact ⟨_, rfl⟩
  · exact ⟨_, rfl⟩

theorem tamperCheck_of_unbroken {base : List StoredEvent}
    (hhashed : ∀ other ∈ events, truthy other.hash = true)
    (h : Unbroken engine.sha256 (base ++ events ++ [event])) :
    ∃ lastHash, tamperCheck engine (trackHash none events) event = .ok lastHash := by
  have hown := h.hashes event (by simp)
  refine tamperCheck_passes (fun hne => ?_) hown
  cases hlast : events.getLast? with
  | none =>
    rw [getLast?_eq_none_iff.mp hlast] at hne
    exact absurd rfl hne
  | some last =>
    have hmem := mem_of_getLast? hlast
    have hchain := (isChain_append.mp h.links).2.2
    rw [trackHash_getLast hlast (hhashed last hmem)]
    refine hchain last ?_ event rfl
    rw [getLast?_append, hlast]
    rfl

/-- No attempt at a stream, in any history, ends with a mismatch. -/
def ReplaysClean (sha256 : HexDigest) (stream : EventStream) : Prop :=
  ∀ (S : Type) (engine : Engine) (projection : ProjectionDefinition S)
    (program : ReplayProgram S ReplayReport) (s : ReplaySession S) (message : String)
    (report : ReplayReport), engine.sha256 = sha256 → Attempts engine projection program →
      Session.Reach (replaySemantics S (streamSource stream)) (anyStep _)
        (Attempts engine projection) ⟨{}, program⟩ s → s.current = .fail (.aborted message report) →
          report.error ≠ some "ledger chain mismatch" ∧ report.error ≠ some "ledger hash mismatch"

theorem replaysClean_of_unbroken {stream : EventStream}
    (hhashed : ∀ event ∈ stream.events, truthy event.hash = true)
    (hunbroken : Unbroken sha256 stream.events) : ReplaysClean sha256 stream := by
  intro S engine projection program s message report hengine hprogram hreach hcurrent
  subst hengine
  obtain ⟨hworld, hsafe⟩ := reach_derived (stream_delivers _) (fun _ _ _ h => h.grows)
    nil_prefix hprogram hreach
  rw [hcurrent] at hsafe
  obtain ⟨options, base, afterSequence, events, event, rest, progress, hcompletes, -, hinv,
    hcause⟩ := hsafe s.world .refl hworld
  cases hcause with
  | regression _ _ herror =>
    rw [herror]
    exact ⟨by decide, by decide⟩
  | tampered hlt message reason hcheck _ =>
    -- the event is the next one of the chain, so it passes
    rw [hinv.last_eq] at hlt
    have hnext : Unbroken engine.sha256 (base ++ fresh afterSequence events ++ [event]) :=
      hunbroken.of_prefix (hcompletes.concat_prefix hlt)
    have hhashed' : ∀ other ∈ fresh afterSequence events, truthy other.hash = true :=
      fun other hother => hhashed other
        (hcompletes.mem_stream other (mem_append_left _ (mem_of_mem_fresh hother)))
    obtain ⟨lastHash, hok⟩ := tamperCheck_of_unbroken hhashed' hnext
    rw [hinv.hash_eq, hok] at hcheck
    cases hcheck

/-- An export passes the checks of the engine exactly if `undefined` occurs in no payload. -/
theorem export_replays_iff_defined (hinj : Function.Injective sha256.digest)
    (calls : List (String × LedgerEntryInput)) :
    ((∀ entry ∈ appended sha256 calls, ledgerHash sha256 (.ofEntry entry) = entry.hash) ∧
        ReplaysClean sha256 (exportedStream sha256 calls)) ↔
      ∀ call ∈ calls, isDefined (.obj call.2.payload) = true := by
  have hhash : ∀ entry ∈ appended sha256 calls, entry.hash = entry.expectedHash sha256 :=
    (linked_appended sha256 calls).2.hash_eq
  constructor
  · rintro ⟨hhashes, -⟩
    refine (defined_entries_iff sha256 calls).mp fun entry hentry => ?_
    exact (ledgerHash_ofEntry hinj (hhash entry hentry)).mp (hhashes entry hentry)
  · intro hdefined
    constructor
    · intro entry hentry
      exact (ledgerHash_ofEntry hinj (hhash entry hentry)).mpr
        ((defined_entries_iff sha256 calls).mpr hdefined entry hentry)
    · exact replaysClean_of_unbroken (exported_hashed sha256 calls)
        (unbroken_exported hinj hdefined)

/-! ## Exports -/

def appendCall (payload : Record) : String × LedgerEntryInput :=
  ("2026-01-01T00:00:00.000Z", { paymentCompleted with payload })

theorem nested_export_replays : ReplaysClean hexCode (exportedStream hexCode
    [appendCall [("items", .arr [.null, .obj [("b", .int 1), ("a", .str "x")]])], appendCall []]) :=
  ((export_replays_iff_defined hexCode_injective _).mpr (by decide)).2

variable {rest : List StoredEvent}

theorem replayLoop_refuses {projection : ProjectionDefinition S} {options : ReplayOptions}
    {progress : Progress S} {message reason : String} (hlimit : options.limit = none)
    (hlt : progress.lastSequence < event.sequence)
    (hcheck : tamperCheck engine progress.lastHash event = .error (message, reason)) :
    ∃ report, replayLoop engine projection options (event :: rest) progress =
      .fail (.aborted message report) ∧ report.error = some reason := by
  have hcheck' : tamperCheck engine progress.countRead.lastHash event =
      .error (message, reason) := hcheck
  have hle : ¬ event.sequence ≤ progress.countRead.lastSequence := not_le.mpr hlt
  refine ⟨finish engine projection progress.countRead .aborted (some reason), ?_, rfl⟩
  simp only [replayLoop, limitReached, hlimit, Option.any_none, Bool.false_eq_true, if_false,
    replayStep, hle, newEvent, hcheck']

/-- The attempt reads the stream at once and refuses its first event. -/
theorem not_replaysClean {stream : EventStream} (hevents : stream.events = event :: rest)
    (hhashed : truthy event.hash = true) (hdiffer : event.hash ≠ some (ledgerHash hexCode event)) :
    ¬ ReplaysClean hexCode stream := by
  intro hclean
  obtain ⟨message, hcheck⟩ : ∃ message, tamperCheck defaultEngine none event =
      .error (message, "ledger hash mismatch") := by
    simp [tamperCheck, hhashed, hdiffer, defaultEngine]
  obtain ⟨report, hloop, herror⟩ := @replayLoop_refuses Nat event defaultEngine rest paymentCount
    { resume := false } (startProgress paymentCount none) _ _ rfl
    (stream.positive event (by simp [hevents])) hcheck
  have hdeliver : (streamSource stream).deliver ⟨0, fun _ => 0⟩ 0 = some (event :: rest) := by
    simp [streamSource, redeliver, hevents]
  refine (hclean Nat defaultEngine paymentCount _ _ message report rfl
    (.attempt { resume := false }) (.single (.perform _ (ReplayOp.readSource 0) _
      (@ReplayChoice.deliver (streamSource _) ⟨0, fun _ => 0⟩) (.ok (event :: rest)) _ rfl trivial
      (by simp only [replaySemantics, performReplay, hdeliver]; rfl))) ?_).2 herror
  exact congrArg (· >>= conclude defaultEngine paymentCount { resume := false }) hloop

/-- A ledger with the payload `a: undefined` is in order for itself; its export does not have
the hash that the engine computes, and a rebuild over it is aborted. -/
theorem undefined_member_is_refused :
    (verify hexCode (appended hexCode [appendCall [("a", .undefined)]])).valid = true ∧
      (∃ entry ∈ appended hexCode [appendCall [("a", .undefined)]],
        ledgerHash hexCode (.ofEntry entry) ≠ entry.hash) ∧
        ¬ ReplaysClean hexCode (exportedStream hexCode [appendCall [("a", .undefined)]]) := by
  have hchained := (linked_appended hexCode [appendCall [("a", .undefined)]]).2
  have hdiffer : ∀ entry ∈ appended hexCode [appendCall [("a", .undefined)]],
      ledgerHash hexCode (.ofEntry entry) ≠ entry.hash := by
    intro entry hentry heq
    have hdefined := (ledgerHash_ofEntry hexCode_injective (hchained.hash_eq entry hentry)).mp heq
    obtain rfl := mem_singleton.mp hentry
    cases hdefined
  refine ⟨verify_valid_iff_linked.mpr (linked_appended hexCode _),
    ⟨_, mem_cons_self, hdiffer _ mem_cons_self⟩, fun hclean => ?_⟩
  refine not_replaysClean rfl (exported_hashed hexCode [_] _ mem_cons_self) ?_ hclean
  exact fun heq => hdiffer _ mem_cons_self (Option.some.inj heq).symm

end Trellis.Events
