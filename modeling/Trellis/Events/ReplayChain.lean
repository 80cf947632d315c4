import Trellis.Events.ReplayFold

/-!
# The chain behind a published projection

Within one attempt the engine compares the hash of each event with the one before it; the last
hash is not part of the checkpoint, so the first event after a resume is compared with nothing.
-/

namespace Trellis.Events

open Core List Option

variable {S : Type}

/-- One unbroken chain: each event links to the one before it, and each hash is the hash of
its event. -/
structure Unbroken (sha256 : HexDigest) (events : List StoredEvent) : Prop where
  links : events.IsChain fun event next => next.previousHash = event.hash
  hashes : ∀ event ∈ events, event.hash = some (ledgerHash sha256 event)

def hashedSource : SourceModel where
  Choice := List StoredEvent
  deliver events _ := if ∀ event ∈ events, truthy event.hash = true then some events else none

/-- The first new event after a resume links to the last event behind the checkpoint. -/
def linkedResume : Guard (replaySemantics S hashedSource) := fun _ op c w =>
  match op, c with
  | .readSource afterSequence, .deliver events => afterSequence ≠ 0 →
      ∀ last ∈ w.lineage.getLast?, ∀ first ∈ (fresh afterSequence events).head?,
        first.previousHash = last.hash
  | _, _ => True

/-- The events of a delivery carry hashes, and the first new one links to the base. -/
structure LinkedDelivery (base : List StoredEvent) (afterSequence : Int)
    (delivered : List StoredEvent) : Prop where
  hashed : ∀ event ∈ delivered, truthy event.hash = true
  linked : ∀ last ∈ base.getLast?, ∀ first ∈ (fresh afterSequence delivered).head?,
    first.previousHash = last.hash

variable {engine : Engine} {projection : ProjectionDefinition S} {base delivered : List StoredEvent}
  {afterSequence : Int}

theorem tamperCheck_hashed {lastHash lastHash' : Option String} {event : StoredEvent}
    (hhash : truthy event.hash = true) (h : tamperCheck engine lastHash event = .ok lastHash') :
    (lastHash ≠ none → event.previousHash = lastHash) ∧
      event.hash = some (ledgerHash engine.sha256 event) := by
  simp only [tamperCheck, hhash, if_true] at h
  split at h
  · cases h
  · rename_i hlink
    split at h
    · cases h
    · rename_i hown
      exact ⟨fun hne => not_not.mp fun hnot => hlink ⟨hne, hnot⟩, not_not.mp hown⟩

theorem trackHash_getLast {events : List StoredEvent} {last : StoredEvent}
    (hlast : events.getLast? = some last) (hhash : truthy last.hash = true)
    (start : Option String) : trackHash start events = last.hash := by
  obtain ⟨front, rfl⟩ := getLast?_eq_some_iff.mp hlast
  rw [trackHash_concat, if_pos hhash]

theorem ne_none_of_truthy {text : Option String} (h : truthy text = true) : text ≠ none := by
  rintro rfl
  simp [truthy] at h

theorem LinkedDelivery.grows (h : LinkedDelivery base afterSequence delivered) :
    Grows engine (Unbroken engine.sha256) base afterSequence delivered := by
  intro events event rest lastHash hdelivered hlt hcheck hunbroken
  have hhash := h.hashed event (by simp [hdelivered])
  obtain ⟨hlink, hown⟩ := tamperCheck_hashed hhash hcheck
  refine ⟨isChain_append.mpr ⟨hunbroken.links, isChain_singleton _, ?_⟩, ?_⟩
  · intro last hlast first hfirst
    obtain rfl := some.inj hfirst
    -- the event before is one of this attempt, or the last one behind the checkpoint
    cases hfresh : (fresh afterSequence events).getLast? with
    | some newest =>
      have hmem : newest ∈ events := mem_of_mem_fresh (mem_of_getLast? hfresh)
      have hnewest := h.hashed newest (by simp [hdelivered, hmem])
      rw [trackHash_getLast hfresh hnewest] at hlink
      rw [mem_def, getLast?_append, hfresh] at hlast
      obtain rfl := some.inj hlast
      exact hlink (ne_none_of_truthy hnewest)
    | none =>
      have hnil := getLast?_eq_none_iff.mp hfresh
      rw [hnil, append_nil] at hlast
      refine h.linked last hlast event ?_
      have hassoc : delivered = (events ++ [event]) ++ rest := by simp [hdelivered]
      rw [hassoc, fresh_append, fresh_concat_of_lt hlt, hnil]
      rfl
  · intro other hother
    rcases mem_append.mp hother with hother | hother
    · exact hunbroken.hashes other hother
    · obtain rfl := mem_singleton.mp hother
      exact hown

theorem linkedResume_delivers :
    Delivers (S := S) engine projection (Unbroken engine.sha256) linkedResume LinkedDelivery := by
  intro w afterSequence d events _ hguard hdeliver _ _
  simp only [hashedSource, ite_none_right_eq_some] at hdeliver
  obtain ⟨hhashed, hevents⟩ := hdeliver
  obtain rfl : d = events := some.inj hevents
  refine ⟨hhashed, fun last hlast => ?_⟩
  by_cases hzero : afterSequence = 0
  · simp [ReplayWorld.opened, hzero] at hlast
  · simp only [ReplayWorld.opened, hzero, if_false] at hlast
    exact hguard hzero last hlast

/-- If the first new event after every resume links to the last event before the checkpoint,
a published state comes from one unbroken chain. -/
theorem published_unbroken (engine : Engine) (projection : ProjectionDefinition S)
    {program : ReplayProgram S ReplayReport} (hprogram : Attempts engine projection program)
    {s : ReplaySession S} (hreach : Session.Reach (replaySemantics S hashedSource) linkedResume
      (Attempts engine projection) ⟨{}, program⟩ s)
    {next : PublishedProjection S} (hactive : s.world.active = some next) :
    Derived engine projection s.world.publishedFrom next.state next.sequence ∧
      Unbroken engine.sha256 s.world.publishedFrom := by
  have hnil : Unbroken engine.sha256 [] := ⟨.nil, nofun⟩
  have hsafe := reach_derived linkedResume_delivers (fun _ _ _ h => h.grows) hnil hprogram hreach
  exact hsafe.world_inv.published next hactive

/-! ## Histories -/

def sealedEvent (sha256 : HexDigest) (sequence : Int) (previousHash : Option String) :
    StoredEvent :=
  let event : StoredEvent :=
    { storedPayment sequence with payload := .obj [], previousHash := previousHash }
  { event with hash := some (ledgerHash sha256 event) }

/-- Store a checkpoint after every event, and go on after poison events. -/
def everyEvent : ReplayOptions :=
  { checkpointEvery := 1, onPoisonEvent := .skip }

/-- One attempt is stopped after its first checkpoint; the next one resumes after it, reads
the second event and publishes. -/
def resumedHistory (engine : Engine) (first second : StoredEvent) :
    List (Session.Pick (replaySemantics Nat hashedSource) (Attempts engine paymentCount)) :=
  [.perform .served, .perform (.deliver [first, second]), .perform .served,
    .restart (rebuild engine paymentCount everyEvent) (.attempt _), .perform .served,
    .perform (.deliver (arraySource [first, second] 1)), .perform .served, .perform .served,
    .perform .served]

/-- How the attempt ended, and the links and hashes behind the published state. -/
def chainObserved (s : ReplaySession Nat) :
    Option ReplayOutcome × List (Option String × Option String) :=
  (match s.current with
    | .done report => some report.outcome
    | _ => none, s.world.publishedFrom.map fun event => (event.previousHash, event.hash))

instance : ∀ i op c w, Decidable (linkedResume (S := S) i op c w)
  | _, .readSource afterSequence, .deliver events, w =>
    inferInstanceAs (Decidable (afterSequence ≠ 0 → ∀ last ∈ w.lineage.getLast?,
      ∀ first ∈ (fresh afterSequence events).head?, first.previousHash = last.hash))
  | _, .readSource _, .served, _ | _, .readSource _, .rejected _, _
  | _, .readSource _, .lost _, _ | _, .load, _, _ | _, .save _, _, _ | _, .swap _, _, _
  | _, .clear, _, _ => isTrue trivial

/-- A digest of one digit, for histories that are computed. -/
def checksum : HexDigest where
  digest text := String.ofList [Nat.digitChar (text.length % 16)]
  hex text c hc := by
    rw [String.toList_ofList, List.mem_singleton] at hc
    subst hc
    exact isHexDigit_digitChar text.length
  digest_ne text h := by
    have hchars := congrArg String.toList h
    simp at hchars

def checksumEngine : Engine :=
  { defaultEngine with sha256 := checksum }

/-- Two linked events, the second one read after a resume, are published as one chain. -/
theorem resumed_chain_is_unbroken : ∃ s : ReplaySession Nat, chainObserved s = (some .published,
      [(none, (sealedEvent checksum 1 none).hash), ((sealedEvent checksum 1 none).hash,
          (sealedEvent checksum 2 (sealedEvent checksum 1 none).hash).hash)]) ∧
    Unbroken checksum s.world.publishedFrom := by
  have hrun : (Session.run linkedResume (resumedHistory checksumEngine (sealedEvent checksum 1 none)
        (sealedEvent checksum 2 (sealedEvent checksum 1 none).hash))
      ⟨{}, rebuild checksumEngine paymentCount everyEvent⟩).map
        (fun s => (chainObserved s, s.world.active.isSome)) =
      some ((some .published, [(none, (sealedEvent checksum 1 none).hash),
        ((sealedEvent checksum 1 none).hash,
          (sealedEvent checksum 2 (sealedEvent checksum 1 none).hash).hash)]), true) := by
    decide +kernel
  obtain ⟨s, hreach, hobserved⟩ := Session.exists_reach_of_run hrun
  obtain ⟨hchain, hactive⟩ := Prod.mk.inj hobserved
  obtain ⟨next, hnext⟩ := isSome_iff_exists.mp hactive
  exact ⟨s, hchain, (published_unbroken checksumEngine paymentCount (.attempt _) hreach hnext).2⟩

/-- Each event has the right hash, but the second one does not follow the first.  Read in one
attempt the two would be refused; after a resume they are published. -/
theorem broken_chain_is_published : ∃ s : ReplaySession Nat,
    Session.Reach (replaySemantics Nat hashedSource) (anyStep _)
        (Attempts defaultEngine paymentCount)
        ⟨{}, rebuild defaultEngine paymentCount everyEvent⟩ s ∧
      (chainObserved s).1 = some .published ∧
        ¬ Unbroken defaultEngine.sha256 s.world.publishedFrom := by
  refine Session.exists_run
    (resumedHistory defaultEngine (sealedEvent hexCode 1 none) (sealedEvent hexCode 2 (some "0")))
    chainObserved (some .published, [(none, (sealedEvent hexCode 1 none).hash),
      (some "0", (sealedEvent hexCode 2 (some "0")).hash)]) (by decide +kernel)
    fun s _ hobserved => ⟨congrArg Prod.fst hobserved, fun hunbroken => ?_⟩
  obtain ⟨-, hfrom⟩ := Prod.mk.inj hobserved
  have hlinks : (s.world.publishedFrom.map fun event => (event.previousHash, event.hash)).IsChain
      fun event next => next.1 = event.2 :=
    (isChain_map _).mpr hunbroken.links
  rw [hfrom, isChain_pair] at hlinks
  have hdiffer : some "0" ≠ (sealedEvent hexCode 1 none).hash := by decide +kernel
  exact hdiffer hlinks

end Trellis.Events
