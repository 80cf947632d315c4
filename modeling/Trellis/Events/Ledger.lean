import Trellis.Core.HashChain
import Trellis.Core.Json

/-!
# The tamper-evident ledger

`TamperEvidentLedger` of `domain-event-schema.ts`: entries are chained by hashes over their
position, the hash before them and the canonical text of their payload.
-/

namespace Trellis.Events

open Core List

/-! ## Canonical text -/

namespace Ledger

mutual

/-- `canonicalize`; `JSON.stringify(undefined)` is no text. -/
def canonicalChars : Value → Option (List Char)
  | .arr items => some ('[' :: (commaSeparated (canonicalItems items) ++ [']']))
  | .obj members => some ('{' :: (commaSeparated ((sortMembers (canonicalMembers members)).map
      fun m => memberText m.1 (m.2.getD "undefined".toList)) ++ ['}']))
  | v => primitiveText v

/-- The items of an array; `join` writes nothing for `undefined`. -/
def canonicalItems : List Value → List (List Char)
  | [] => []
  | v :: vs => (canonicalChars v).getD [] :: canonicalItems vs

def canonicalMembers : List (String × Value) → List (String × Option (List Char))
  | [] => []
  | (key, v) :: ms => (key, canonicalChars v) :: canonicalMembers ms

end

theorem canonicalMembers_eq_map (members : List (String × Value)) :
    canonicalMembers members = members.map fun m => (m.1, canonicalChars m.2) := by
  induction members with
  | nil => rfl
  | cons m ms ih => rw [canonicalMembers, ih, map_cons]

end Ledger

abbrev Record : Type :=
  List (String × Value)

def canonicalPayload (payload : Record) : String :=
  String.ofList ((Ledger.canonicalChars (.obj payload)).getD [])

/-! ## The ledger -/

structure LedgerEntryInput where
  eventName : String
  schemaVersion : String
  producer : String
  payload : Record
  timestamp : Option String := none

structure LedgerEntry where
  sequence : Int
  eventId : String
  eventName : String
  schemaVersion : String
  producer : String
  timestamp : String
  payload : Record
  previousHash : Option String
  hash : String

structure LedgerVerificationResult where
  valid : Bool
  entriesChecked : Nat
  brokenAtSequence : Option Int := none
  reason : Option String := none

variable (sha256 : HexDigest)

def entryText (sequence : Int) (previousHash : Option String) (payloadHash : String) : String :=
  String.ofList (intText sequence ++ ':' :: (previousHash.getD "").toList ++
    ':' :: payloadHash.toList)

def computeEntryHash (sequence : Int) (previousHash : Option String) (payloadHash : String) :
    String :=
  sha256.digest (entryText sequence previousHash payloadHash)

def LedgerEntry.expectedHash (entry : LedgerEntry) : String :=
  computeEntryHash sha256 entry.sequence entry.previousHash
    (sha256.digest (canonicalPayload entry.payload))

/-- `append`, at a time written as `now`. -/
def append (entries : List LedgerEntry) (now : String) (input : LedgerEntryInput) :
    List LedgerEntry :=
  let sequence : Int := entries.length + 1
  let previousHash := entries.getLast?.map (·.hash)
  let timestamp := input.timestamp.getD now
  let canonical := canonicalPayload input.payload
  entries ++ [{
    sequence := sequence
    eventId := sha256.digest (String.ofList (intText sequence ++ ':' :: input.eventName.toList ++
      ':' :: timestamp.toList ++ ':' :: canonical.toList))
    eventName := input.eventName
    schemaVersion := input.schemaVersion
    producer := input.producer
    timestamp := timestamp
    payload := input.payload
    previousHash := previousHash
    hash := computeEntryHash sha256 sequence previousHash (sha256.digest canonical) }]

def appended (calls : List (String × LedgerEntryInput)) : List LedgerEntry :=
  calls.foldl (fun entries call => append sha256 entries call.1 call.2) []

/-- The loop of `verify`; `total` is the number of all entries. -/
def verifyFrom (total : Nat) : Option String → Int → List LedgerEntry → LedgerVerificationResult
  | _, _, [] => { valid := true, entriesChecked := total }
  | previousHash, expectedSequence, entry :: rest =>
    if entry.sequence ≠ expectedSequence then
      { valid := false, entriesChecked := total, brokenAtSequence := some entry.sequence
        reason := some (String.ofList ("sequence gap: expected ".toList ++
          intText expectedSequence ++ ", got ".toList ++ intText entry.sequence)) }
    else if entry.previousHash ≠ previousHash then
      { valid := false, entriesChecked := total, brokenAtSequence := some entry.sequence
        reason := some "previous hash mismatch" }
    else if entry.expectedHash sha256 ≠ entry.hash then
      { valid := false, entriesChecked := total, brokenAtSequence := some entry.sequence
        reason := some "chain hash mismatch" }
    else verifyFrom total (some entry.hash) (expectedSequence + 1) rest

def verify (entries : List LedgerEntry) : LedgerVerificationResult :=
  verifyFrom sha256 entries.length none 1 entries

/-! ## What `verify` accepts -/

def Numbered : Int → List LedgerEntry → Prop
  | _, [] => True
  | n, entry :: rest => entry.sequence = n ∧ Numbered (n + 1) rest

abbrev Chained (previousHash : Option String) (entries : List LedgerEntry) : Prop :=
  Linked LedgerEntry.previousHash LedgerEntry.hash (LedgerEntry.expectedHash sha256)
    previousHash entries

variable {sha256} {entries : List LedgerEntry} {previousHash : Option String} {n : Int}

theorem verifyFrom_valid_iff {total : Nat} :
    (verifyFrom sha256 total previousHash n entries).valid = true ↔
      Numbered n entries ∧ Chained sha256 previousHash entries := by
  induction entries generalizing previousHash n with
  | nil => simp [verifyFrom, Numbered, Linked]
  | cons entry rest ih =>
    unfold verifyFrom
    split
    · rename_i hsequence
      simp [Numbered, hsequence]
    · rename_i hsequence
      split
      · rename_i hprevious
        simp [Linked, hprevious]
      · rename_i hprevious
        split
        · rename_i hhash
          simp [Linked, Ne.symm hhash]
        · rename_i hhash
          rw [ih]
          have hsequence' : entry.sequence = n := not_not.mp hsequence
          have hprevious' : entry.previousHash = previousHash := not_not.mp hprevious
          have hhash' : entry.hash = entry.expectedHash sha256 := (not_not.mp hhash).symm
          constructor
          · rintro ⟨hnumbered, hchained⟩
            exact ⟨⟨hsequence', hnumbered⟩, hprevious', hhash', hchained⟩
          · rintro ⟨⟨-, hnumbered⟩, -, -, hchained⟩
            exact ⟨hnumbered, hchained⟩

theorem verify_valid_iff_linked :
    (verify sha256 entries).valid = true ↔ Numbered 1 entries ∧ Chained sha256 none entries :=
  verifyFrom_valid_iff

theorem numbered_concat {entry : LedgerEntry} : Numbered n (entries ++ [entry]) ↔
      Numbered n entries ∧ entry.sequence = n + entries.length := by
  induction entries generalizing n with
  | nil => simp [Numbered]
  | cons first rest ih =>
    simp only [cons_append, Numbered, ih, length_cons, and_assoc]
    have hshift : n + 1 + (rest.length : Int) = n + ((rest.length + 1 : Nat) : Int) := by
      push_cast
      omega
    rw [hshift]

theorem append_linked (hnumbered : Numbered 1 entries)
    (hchained : Chained sha256 none entries) (now : String) (input : LedgerEntryInput) :
    Numbered 1 (append sha256 entries now input) ∧
      Chained sha256 none (append sha256 entries now input) := by
  constructor
  · refine numbered_concat.mpr ⟨hnumbered, ?_⟩
    exact Int.add_comm _ _
  · refine linked_concat.mpr ⟨hchained, ?_, rfl⟩
    exact (lastHash_eq_getLast entries).symm

variable (sha256) in
theorem linked_appended (calls : List (String × LedgerEntryInput)) :
    Numbered 1 (appended sha256 calls) ∧ Chained sha256 none (appended sha256 calls) := by
  have hfold : ∀ entries, Numbered 1 entries → Chained sha256 none entries →
      Numbered 1 (calls.foldl (fun entries call => append sha256 entries call.1 call.2) entries) ∧
        Chained sha256 none
          (calls.foldl (fun entries call => append sha256 entries call.1 call.2) entries) := by
    induction calls with
    | nil => exact fun entries hnumbered hchained => ⟨hnumbered, hchained⟩
    | cons call calls ih =>
      intro entries hnumbered hchained
      obtain ⟨hnumbered', hchained'⟩ := append_linked hnumbered hchained call.1 call.2
      exact ih _ hnumbered' hchained'
  exact hfold [] trivial trivial

/-! ## What a hash covers -/

/-- What `verify` looks at in an entry. -/
structure SameCovered (entry entry' : LedgerEntry) : Prop where
  sequence : entry.sequence = entry'.sequence
  payload : canonicalPayload entry.payload = canonicalPayload entry'.payload
  previousHash : entry.previousHash = entry'.previousHash
  hash : entry.hash = entry'.hash

variable (sha256) in
def IsLink (previousHash : Option String) : Prop :=
  previousHash = none ∨ ∃ text, previousHash = some (sha256.digest text)

theorem isLink_of_chained (h : Chained sha256 none entries) {entry : LedgerEntry}
    (hentry : entry ∈ entries) : IsLink sha256 entry.previousHash := by
  rcases h.link_cases hentry with hnone | ⟨entry', hentry', hlink⟩
  · exact .inl hnone
  · rw [h.hash_eq entry' hentry'] at hlink
    exact .inr ⟨_, hlink⟩

theorem IsLink.colon_notMem
    (h : IsLink sha256 previousHash) : ':' ∉ (previousHash.getD "").toList := by
  rcases h with rfl | ⟨text, rfl⟩
  · simp
  · exact sha256.colon_notMem text

theorem IsLink.getD_inj {previousHash previousHash' : Option String}
    (h : IsLink sha256 previousHash) (h' : IsLink sha256 previousHash')
    (heq : previousHash.getD "" = previousHash'.getD "") : previousHash = previousHash' := by
  rcases h with rfl | ⟨text, rfl⟩
  · rcases h' with rfl | ⟨text', rfl⟩
    · rfl
    · exact absurd heq.symm (sha256.digest_ne text')
  · rcases h' with rfl | ⟨text', rfl⟩
    · exact absurd heq (sha256.digest_ne text)
    · exact congrArg some heq

theorem expectedHash_inj (hinj : Function.Injective sha256.digest) {entry entry' : LedgerEntry}
    (hlink : IsLink sha256 entry.previousHash) (hlink' : IsLink sha256 entry'.previousHash)
    (h : entry.expectedHash sha256 = entry'.expectedHash sha256) :
    canonicalPayload entry.payload = canonicalPayload entry'.payload ∧
      entry.previousHash = entry'.previousHash := by
  have htext := congrArg String.toList (hinj h)
  simp only [entryText, String.toList_ofList, append_assoc, cons_append] at htext
  obtain ⟨-, hrest⟩ := append_separator_inj (colon_notMem_intText _) (colon_notMem_intText _) htext
  obtain ⟨hprevious, hpayload⟩ := append_separator_inj hlink.colon_notMem hlink'.colon_notMem hrest
  exact ⟨hinj (String.toList_inj.mp hpayload),
    hlink.getD_inj hlink' (String.toList_inj.mp hprevious)⟩

variable {entries entries' : List LedgerEntry}

theorem numbered_sequences (h : Numbered n entries) (h' : Numbered n entries')
    (hlength : entries.length = entries'.length) :
    List.Forall₂ (fun e e' : LedgerEntry => e.sequence = e'.sequence) entries entries' := by
  induction entries generalizing n entries' with
  | nil =>
    obtain rfl := length_eq_zero_iff.mp hlength.symm
    exact .nil
  | cons entry rest ih =>
    cases entries' with
    | nil => cases hlength
    | cons entry' rest' =>
      exact .cons (h.1.trans h'.1.symm) (ih h.2 h'.2 (Nat.succ.inj hlength))

theorem sameCovered_of_chained (hinj : Function.Injective sha256.digest)
    (hnumbered : Numbered 1 entries)
    (hnumbered' : Numbered 1 entries') (hchained : Chained sha256 none entries)
    (hchained' : Chained sha256 none entries') (hlength : entries.length = entries'.length)
    (hlast : entries.getLast?.map (·.hash) = entries'.getLast?.map (·.hash)) :
    List.Forall₂ SameCovered entries entries' := by
  have hagree := (hchained.commit hchained'
    (fun e he e' he' hdigest => expectedHash_inj hinj (isLink_of_chained hchained he)
      (isLink_of_chained hchained' he') hdigest) hlength hlast).1
  have hsequences := numbered_sequences hnumbered hnumbered' hlength
  rw [forall₂_iff_zip] at hagree hsequences ⊢
  refine ⟨hlength, fun {e e'} hzip => ?_⟩
  obtain ⟨hpayload, hprevious, hhash⟩ := hagree.2 hzip
  exact ⟨hsequences.2 hzip, hpayload, hprevious, hhash⟩

theorem chained_of_sameCovered (h : List.Forall₂ SameCovered entries entries')
    (hnumbered : Numbered n entries') (hchained : Chained sha256 previousHash entries') :
    Numbered n entries ∧ Chained sha256 previousHash entries := by
  induction h generalizing previousHash n with
  | nil => exact ⟨trivial, trivial⟩
  | @cons entry entry' rest rest' hsame _ ih =>
    obtain ⟨hsequence, hnumbered⟩ := hnumbered
    obtain ⟨hlink, hhash, hchained⟩ := hchained
    have hexpected : entry.expectedHash sha256 = entry'.expectedHash sha256 := by
      simp only [LedgerEntry.expectedHash, hsame.sequence, hsame.payload, hsame.previousHash]
    rw [← hsame.hash] at hchained
    obtain ⟨hnumberedRest, hchainedRest⟩ := ih hnumbered hchained
    refine ⟨⟨hsame.sequence.trans hsequence, hnumberedRest⟩, hsame.previousHash.trans hlink, ?_,
      hchainedRest⟩
    rw [hsame.hash, hhash, hexpected]

/-- Of a list with the length and the last hash of a ledger built by appends, `verify` returns
`valid = false` exactly when an entry differs in its sequence, its previous hash, its hash or
the canonical text of its payload. -/
theorem verify_fails_iff_covered_differs (hinj : Function.Injective sha256.digest)
    (calls : List (String × LedgerEntryInput)) (modified : List LedgerEntry)
    (hlength : modified.length = (appended sha256 calls).length)
    (hlast : modified.getLast?.map (·.hash) = (appended sha256 calls).getLast?.map (·.hash)) :
    (verify sha256 modified).valid = false ↔
      ¬List.Forall₂ SameCovered modified (appended sha256 calls) := by
  obtain ⟨hnumbered, hchained⟩ := linked_appended sha256 calls
  rw [← Bool.not_eq_true, verify_valid_iff_linked, not_iff_not]
  constructor
  · rintro ⟨hnumbered', hchained'⟩
    exact sameCovered_of_chained hinj hnumbered' hnumbered hchained' hchained hlength hlast
  · intro hsame
    exact chained_of_sameCovered hsame hnumbered hchained

/-! ## A payment in the ledger -/

def paymentCompleted : LedgerEntryInput where
  eventName := "payment.completed"
  schemaVersion := "1.0"
  producer := "payments"
  payload := [("transactionId", .str "t1"), ("amount", .int 5), ("currency", .str "XLM")]

def paymentLedger : List LedgerEntry :=
  appended hexCode [("2026-01-01T00:00:00.000Z", paymentCompleted)]

theorem changed_amount_is_detected : (verify hexCode (paymentLedger.map fun entry =>
      { entry with payload := [("transactionId", .str "t1"), ("amount", .int 4),
        ("currency", .str "XLM")] })).valid = false := by
  have hlast : ∀ entries : List LedgerEntry, (entries.map fun entry =>
      { entry with payload := [("transactionId", .str "t1"), ("amount", .int 4),
        ("currency", .str "XLM")] }).getLast?.map (·.hash) = entries.getLast?.map (·.hash) := by
    intro entries
    rw [getLast?_map, Option.map_map]
    rfl
  refine (verify_fails_iff_covered_differs hexCode_injective
    [("2026-01-01T00:00:00.000Z", paymentCompleted)] _ (length_map _) (hlast _)).mpr
    fun hsame => ?_
  cases hsame with
  | cons hsame _ =>
    have htext := hsame.payload
    revert htext
    decide +kernel

/-- Another producer is not: the list differs, its last hash does not, and `verify` accepts
it. -/
theorem changed_producer_is_accepted :
    ∃ modified : List LedgerEntry, modified.length = paymentLedger.length ∧
      modified.map (·.producer) ≠ paymentLedger.map (·.producer) ∧
      modified.getLast?.map (·.hash) = paymentLedger.getLast?.map (·.hash) ∧
      (verify hexCode modified).valid = true := by
  obtain ⟨hnumbered, hchained⟩ := linked_appended hexCode
    [("2026-01-01T00:00:00.000Z", paymentCompleted)]
  have hsame : List.Forall₂ SameCovered
      (paymentLedger.map fun entry => { entry with producer := "attacker" }) paymentLedger := by
    rw [forall₂_map_left_iff, forall₂_same]
    exact fun entry _ => ⟨rfl, rfl, rfl, rfl⟩
  refine ⟨paymentLedger.map fun entry => { entry with producer := "attacker" },
    length_map _, by decide, ?_,
    verify_valid_iff_linked.mpr (chained_of_sameCovered hsame hnumbered hchained)⟩
  rfl

end Trellis.Events
