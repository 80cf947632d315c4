import Trellis.Snapshot.Service

/-!
# What a valid snapshot proves

Whoever can write the map of the snapshots can change everything in it, but cannot compute a
signature that the service has not issued. Without an expected signature a valid snapshot is one
of those that were signed. With one, `verifySnapshot` compares two texts that the writer may both
know.
-/

namespace Trellis.Snapshot

open Core List

/-! ## Modifications without the key -/

structure SnapshotStore where
  snapshots : List SnapshotRecord := []
  created : List SnapshotRecord := []

variable (cfg : SnapshotConfig)

/-- A signature that nobody without the key has computed: what it signs was signed. -/
def Unforged (created : List SnapshotRecord) (signature : String) : Prop :=
  ∀ text, sign cfg text = signature → ∃ record ∈ created, record.integrityHash = text

def SnapshotStore.replace (σ : SnapshotStore) (record : SnapshotRecord) : SnapshotStore :=
  { σ with snapshots := σ.snapshots.map fun r => if r.id = record.id then record else r }

/-- A snapshot is created under an id of its own, or a stored one is modified without the key. -/
inductive SnapshotStep (cfg : SnapshotConfig) : SnapshotStore → SnapshotStore → Prop where
  | create (σ : SnapshotStore) (dto : RequestSnapshotDto) (inputs : SnapshotInputs)
      (record : SnapshotRecord) (hcreate : createSnapshot cfg dto inputs = .ok record)
      (hfresh : record.id ∉ σ.snapshots.map (·.id)) :
      SnapshotStep cfg σ ⟨σ.snapshots ++ [record], σ.created ++ [record]⟩
  | tamper (σ : SnapshotStore) (record : SnapshotRecord) (hmem : record ∈ σ.snapshots)
      (payload : Value) (integrityHash : String) (recordCount : Nat) (signature : String)
      (hunforged : Unforged cfg σ.created signature) : SnapshotStep cfg σ (σ.replace
        { record with
          payload, integrityHash, recordCount, signature })

def SnapshotStore.canonical (σ : SnapshotStore) (id : String) : Option String :=
  (σ.snapshots.find? (·.id = id)).bind fun record => canonicalise cfg record.payload

/-- However the stored records are modified without the key, a valid result for the record says
that its payload has the canonical text that was signed. -/
def SoundFor (σ : SnapshotStore) (record : SnapshotRecord)
    (expectedSignature : Option String) : Prop :=
  ∀ σ', Relation.ReflTransGen (SnapshotStep cfg) σ σ' → σ'.created = σ.created →
    ∀ result, verifySnapshot cfg σ'.snapshots ⟨record.id, expectedSignature⟩ = .ok result →
      result.valid = true → σ'.canonical cfg record.id = canonicalise cfg record.payload

def OnlySigned (created : List SnapshotRecord) (record : SnapshotRecord) : Prop :=
  ∀ other ∈ created, canonicalise cfg other.payload = canonicalise cfg record.payload

/-- Without an expected signature nothing else was signed, and an expected signature is that of a
text that was never signed. -/
def Trusted (created : List SnapshotRecord) (record : SnapshotRecord) : Option String → Prop
  | none => OnlySigned cfg created record
  | some signature =>
    if signature = "" then OnlySigned cfg created record else ¬ Unforged cfg created signature

/-! ## The invariant -/

variable {cfg : SnapshotConfig} {σ σ' : SnapshotStore} {record : SnapshotRecord}

/-- The record is as `createSnapshot` makes it. -/
structure Signed (cfg : SnapshotConfig) (record : SnapshotRecord) : Prop where
  hash : ∃ text, canonicalise cfg record.payload = some text ∧
    record.integrityHash = cfg.sha256.digest text
  signature : record.signature = sign cfg record.integrityHash
  count : record.recordCount = countRecords record.payload

theorem signed_of_create {dto : RequestSnapshotDto} {inputs : SnapshotInputs}
    (h : createSnapshot cfg dto inputs = .ok record) : Signed cfg record := by
  unfold createSnapshot at h
  cases hmanifest : captureRestoreManifest inputs with
  | error e =>
    rw [hmanifest] at h
    cases h
  | ok manifest =>
    rw [hmanifest] at h
    simp only [bind, Except.bind] at h
    split at h
    · cases h
    · rename_i integrityHash hhash
      cases h
      refine ⟨?_, rfl, rfl⟩
      unfold hashOf at hhash
      split at hhash
      · rename_i text htext
        cases hhash
        exact ⟨text, htext, rfl⟩
      · cases hhash

/-- The stored records are those that were created, each under its id, with signatures that nobody
without the key has computed. -/
structure StoreInv (cfg : SnapshotConfig) (σ : SnapshotStore) : Prop where
  ids : σ.snapshots.map (·.id) = σ.created.map (·.id)
  nodup : (σ.created.map (·.id)).Nodup
  signed : ∀ record ∈ σ.created, Signed cfg record
  unforged : ∀ record ∈ σ.snapshots, Unforged cfg σ.created record.signature

theorem Unforged.mono {created created' : List SnapshotRecord} {signature : String}
    (h : Unforged cfg created signature) (hsub : ∀ r ∈ created, r ∈ created') :
    Unforged cfg created' signature := by
  intro text htext
  obtain ⟨r, hr, hhash⟩ := h text htext
  exact ⟨r, hsub r hr, hhash⟩

theorem Signed.unforged (hhmac : Function.Injective cfg.hmac.digest) (h : Signed cfg record)
    {created : List SnapshotRecord} (hmem : record ∈ created) :
    Unforged cfg created record.signature := by
  intro text htext
  rw [h.signature] at htext
  exact ⟨record, hmem, (hhmac htext).symm⟩

theorem replace_ids (σ : SnapshotStore) (record : SnapshotRecord) :
    (σ.replace record).snapshots.map (·.id) = σ.snapshots.map (·.id) := by
  unfold SnapshotStore.replace
  rw [map_map]
  refine map_congr_left fun r _ => ?_
  by_cases hid : r.id = record.id
  · simp [hid]
  · simp [hid]

theorem SnapshotStep.inv (hhmac : Function.Injective cfg.hmac.digest)
    (hstep : SnapshotStep cfg σ σ')
    (h : StoreInv cfg σ) : StoreInv cfg σ' := by
  cases hstep with
  | create dto inputs record hcreate hfresh =>
    have hsigned := signed_of_create hcreate
    refine ⟨?_, ?_, fun r hr => ?_, fun r hr => ?_⟩
    · rw [map_append, map_append, h.ids]
    · rw [map_append]
      rw [h.ids] at hfresh
      exact nodup_append.mpr ⟨h.nodup, nodup_singleton _, fun a ha b hb => by
        rw [mem_singleton.mp hb]
        rintro rfl
        exact hfresh ha⟩
    · rcases mem_append.mp hr with hr | hr
      · exact h.signed r hr
      · rw [mem_singleton.mp hr]
        exact hsigned
    · rcases mem_append.mp hr with hr | hr
      · exact (h.unforged r hr).mono fun x hx => mem_append_left _ hx
      · rw [mem_singleton.mp hr]
        exact hsigned.unforged hhmac (mem_append_right _ mem_cons_self)
  | tamper record hmem payload integrityHash recordCount signature hunforged =>
    refine ⟨(replace_ids _ _).trans h.ids, h.nodup, h.signed, fun r hr => ?_⟩
    obtain ⟨r', hr', rfl⟩ := mem_map.mp hr
    by_cases hid : r'.id = record.id
    · rw [if_pos hid]
      exact hunforged
    · rw [if_neg hid]
      exact h.unforged r' hr'

theorem reach_inv (hhmac : Function.Injective cfg.hmac.digest)
    (hreach : Relation.ReflTransGen (SnapshotStep cfg) σ σ') (h : StoreInv cfg σ) :
    StoreInv cfg σ' := by
  induction hreach with
  | refl => exact h
  | tail _ hstep ih => exact hstep.inv hhmac ih

theorem storeInv_start : StoreInv cfg {} := by
  constructor <;> simp

/-! ## Verification -/

theorem verifyRecord_valid_iff {dto : VerifySnapshotDto} :
    (∃ result, verifyRecord cfg dto record = .ok result ∧ result.valid = true) ↔
      ∃ text, canonicalise cfg record.payload = some text ∧
        cfg.sha256.digest text = record.integrityHash ∧
        countRecords record.payload = record.recordCount ∧
        comparedSignature cfg dto.expectedSignature (cfg.sha256.digest text) =
          record.signature := by
  unfold verifyRecord
  cases hcanonical : canonicalise cfg record.payload with
  | none => simp [hashOf, bind, Except.bind]
  | some text => simp [hashOf, bind, Except.bind, and_assoc]

theorem verifySnapshot_of_find {snapshots : List SnapshotRecord} {dto : VerifySnapshotDto}
    (hfind : snapshots.find? (·.id = dto.snapshotId) = some record) :
    verifySnapshot cfg snapshots dto = verifyRecord cfg dto record := by
  unfold verifySnapshot
  rw [hfind]

theorem StoreInv.find (h : StoreInv cfg σ) (hmem : record ∈ σ.created) :
    ∃ stored, σ.snapshots.find? (·.id = record.id) = some stored ∧ stored ∈ σ.snapshots ∧
      stored.id = record.id := by
  have hid : record.id ∈ σ.snapshots.map (·.id) := by
    rw [h.ids]
    exact mem_map_of_mem hmem
  obtain ⟨r, hr, hrid⟩ := mem_map.mp hid
  cases hfind : σ.snapshots.find? (·.id = record.id) with
  | none =>
    have hnot := find?_eq_none.mp hfind r hr
    simp [hrid] at hnot
  | some stored =>
    refine ⟨stored, rfl, mem_of_find?_eq_some hfind, ?_⟩
    simpa using find?_some hfind

theorem find_replace {stored : SnapshotRecord} {id : String}
    (hfind : σ.snapshots.find? (·.id = id) = some stored) (hid : record.id = id) :
    (σ.replace record).snapshots.find? (·.id = id) = some record := by
  have hstored : stored.id = id := by simpa using find?_some hfind
  have hsame : (fun r : SnapshotRecord =>
      decide ((if r.id = record.id then record else r).id = id)) = fun r => decide (r.id = id) := by
    funext r
    by_cases hr : r.id = record.id
    · simp [hr]
    · simp [hr]
  change (σ.snapshots.map fun r => if r.id = record.id then record else r).find? _ = _
  rw [find?_map]
  change ((σ.snapshots.find? fun r =>
    decide ((if r.id = record.id then record else r).id = id)).map _) = _
  rw [hsame, hfind]
  simp [hstored, hid]

/-- The stored record with another payload, a hash and a count that fit it, and a signature. -/
def SnapshotRecord.withPayload (cfg : SnapshotConfig) (stored : SnapshotRecord) (payload : Value)
    (text signature : String) : SnapshotRecord :=
  { stored with
    payload, integrityHash := cfg.sha256.digest text, recordCount := countRecords payload,
    signature }

theorem sound_tampered (h : StoreInv cfg σ) (hmem : record ∈ σ.created)
    {expectedSignature : Option String} (hsound : SoundFor cfg σ record expectedSignature)
    {payload : Value} {text signature : String} (htext : canonicalise cfg payload = some text)
    (hunforged : Unforged cfg σ.created signature)
    (hcompared : comparedSignature cfg expectedSignature (cfg.sha256.digest text) = signature) :
    some text = canonicalise cfg record.payload := by
  obtain ⟨stored, hfind, hstored, hid⟩ := h.find hmem
  have hfind' : (σ.replace (stored.withPayload cfg payload text signature)).snapshots.find?
      (·.id = record.id) = some (stored.withPayload cfg payload text signature) :=
    find_replace hfind hid
  have hresult : ∃ result, verifyRecord cfg ⟨record.id, expectedSignature⟩
      (stored.withPayload cfg payload text signature) = .ok result ∧ result.valid = true :=
    verifyRecord_valid_iff.mpr ⟨text, htext, rfl, rfl, hcompared⟩
  obtain ⟨result, hverify, hvalid⟩ := hresult
  have hcanonical := hsound _ (.single (.tamper σ stored hstored payload (cfg.sha256.digest text)
    (countRecords payload) signature hunforged)) rfl result
    ((verifySnapshot_of_find hfind').trans hverify) hvalid
  rw [← htext, ← hcanonical]
  exact (congrArg (Option.bind · fun r => canonicalise cfg r.payload) hfind').symm

theorem exists_other_text (cfg : SnapshotConfig) (signed : Option String) :
    ∃ payload text, canonicalise cfg payload = some text ∧ some text ≠ signed := by
  have hempty : canonicalise cfg (.obj []) = some "\x7b\x7d" := rfl
  have hmember : canonicalise cfg (.obj [("a", .null)]) = some "\x7b\"a\":null\x7d" := rfl
  by_cases hsigned : signed = some "\x7b\x7d"
  · refine ⟨.obj [("a", .null)], _, hmember, ?_⟩
    rw [hsigned]
    decide
  · exact ⟨.obj [], _, hempty, fun h => hsigned h.symm⟩

theorem exists_signed (hsha : Function.Injective cfg.sha256.digest) (h : StoreInv cfg σ)
    {stored : SnapshotRecord} (hstored : stored ∈ σ.snapshots) {text : String}
    (htext : canonicalise cfg stored.payload = some text)
    (hsignature : sign cfg (cfg.sha256.digest text) = stored.signature) :
    ∃ other ∈ σ.created, canonicalise cfg other.payload = canonicalise cfg stored.payload := by
  obtain ⟨other, hother, hhash⟩ := h.unforged stored hstored _ hsignature
  obtain ⟨text', htext', hhash'⟩ := (h.signed other hother).hash
  rw [hhash'] at hhash
  exact ⟨other, hother, by rw [htext', htext, hsha hhash]⟩

/-- A valid result says that the payload is the one that was signed exactly where nothing else was
signed and no signature is expected, or a signature is expected that nobody can store. -/
theorem verification_sound_iff (hsha : Function.Injective cfg.sha256.digest)
    (hhmac : Function.Injective cfg.hmac.digest)
    (hreach : Relation.ReflTransGen (SnapshotStep cfg) {} σ) (hmem : record ∈ σ.created)
    (expectedSignature : Option String) :
    SoundFor cfg σ record expectedSignature ↔ Trusted cfg σ.created record expectedSignature := by
  have hinv := reach_inv hhmac hreach storeInv_start
  -- without an expected signature the recomputed one is compared
  have hrecomputed : ∀ e : Option String, (∀ hash, comparedSignature cfg e hash = sign cfg hash) →
      (SoundFor cfg σ record e ↔ OnlySigned cfg σ.created record) := by
    intro e he
    constructor
    · intro hsound other hother
      have hsigned := hinv.signed other hother
      obtain ⟨text, htext, hhash⟩ := hsigned.hash
      rw [htext]
      refine sound_tampered hinv hmem hsound htext (hsigned.unforged hhmac hother) ?_
      rw [he, hsigned.signature, hhash]
    · intro honly σ' hreach' hcreated result hverify hvalid
      have hinv' := reach_inv hhmac hreach' hinv
      obtain ⟨stored, hfind, hstored, -⟩ := hinv'.find (hcreated ▸ hmem)
      rw [verifySnapshot_of_find hfind] at hverify
      obtain ⟨text, htext, -, -, hsignature⟩ := verifyRecord_valid_iff.mp ⟨result, hverify, hvalid⟩
      rw [he] at hsignature
      obtain ⟨other, hother, hsame⟩ := exists_signed hsha hinv' hstored htext hsignature
      rw [SnapshotStore.canonical, hfind, ← honly other (hcreated ▸ hother), hsame]
      rfl
  cases expectedSignature with
  | none => exact hrecomputed none fun _ => rfl
  | some signature =>
    by_cases hempty : signature = ""
    · subst hempty
      exact hrecomputed (some "") fun _ => rfl
    · have hcompared : ∀ hash, comparedSignature cfg (some signature) hash = signature :=
        fun _ => if_neg hempty
      rw [Trusted, if_neg hempty]
      constructor
      · intro hsound hunforged
        obtain ⟨payload, text, htext, hother⟩ :=
          exists_other_text cfg (canonicalise cfg record.payload)
        exact hother (sound_tampered hinv hmem hsound htext hunforged (hcompared _))
      · intro hforged σ' hreach' hcreated result hverify hvalid
        have hinv' := reach_inv hhmac hreach' hinv
        obtain ⟨stored, hfind, hstored, -⟩ := hinv'.find (hcreated ▸ hmem)
        rw [verifySnapshot_of_find hfind] at hverify
        obtain ⟨text, -, -, -, hsignature⟩ :=
          verifyRecord_valid_iff.mp ⟨result, hverify, hvalid⟩
        rw [hcompared] at hsignature
        refine absurd ?_ hforged
        rw [hsignature, ← hcreated]
        exact hinv'.unforged stored hstored

/-! ### A snapshot of the agents -/

/-- A hash that writes its input in hexadecimal digits, and keys in the order of insertion. -/
def plainSnapshots : SnapshotConfig where
  sha256 := hexCode
  hmac := hexCode
  toLowerCase key := key
  keyOrder _ _ := true

def plainInputs : SnapshotInputs where
  id := "s"
  capturedAt := "t"
  createdAt := "t"
  tableCount _ := some 0
  activeSearchRecords := 0

theorem exists_agents_snapshot :
    ∃ record, createSnapshot plainSnapshots { scope := "agents" } plainInputs = .ok record :=
  ⟨_, rfl⟩

theorem only_snapshot_sound :
    ∃ σ record, Relation.ReflTransGen (SnapshotStep plainSnapshots) {} σ ∧ record ∈ σ.created ∧
      SoundFor plainSnapshots σ record none := by
  obtain ⟨record, hcreate⟩ := exists_agents_snapshot
  have hreach : Relation.ReflTransGen (SnapshotStep plainSnapshots) {} ⟨[record], [record]⟩ :=
    .single (.create {} { scope := "agents" } plainInputs record hcreate not_mem_nil)
  refine ⟨⟨[record], [record]⟩, record, hreach, mem_cons_self, ?_⟩
  refine (verification_sound_iff hexCode_injective hexCode_injective hreach mem_cons_self
    none).mpr fun other hother => ?_
  rw [mem_singleton.mp hother]

/-- The snapshot is valid with another payload where its own signature is expected. -/
theorem modified_payload_valid :
    ∃ record, createSnapshot plainSnapshots { scope := "agents" } plainInputs = .ok record ∧
      ¬ SoundFor plainSnapshots ⟨[record], [record]⟩ record (some record.signature) := by
  obtain ⟨record, hcreate⟩ := exists_agents_snapshot
  refine ⟨record, hcreate, fun hsound => ?_⟩
  have hsigned := signed_of_create hcreate
  have hunforged : Unforged plainSnapshots [record] record.signature :=
    hsigned.unforged hexCode_injective mem_cons_self
  have hinv : StoreInv plainSnapshots ⟨[record], [record]⟩ := by
    refine ⟨rfl, nodup_singleton _, fun r hr => ?_, fun r hr => ?_⟩
    · rw [mem_singleton.mp hr]
      exact hsigned
    · rw [mem_singleton.mp hr]
      exact hunforged
  have hcompared : ∀ hash,
      comparedSignature plainSnapshots (some record.signature) hash = record.signature := by
    refine fun hash => if_neg ?_
    rw [hsigned.signature]
    exact hexCode.digest_ne _
  obtain ⟨payload, text, htext, hother⟩ :=
    exists_other_text plainSnapshots (canonicalise plainSnapshots record.payload)
  exact hother (sound_tampered hinv mem_cons_self hsound htext hunforged (hcompared _))

end Trellis.Snapshot
