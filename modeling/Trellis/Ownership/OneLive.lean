import Trellis.Ownership.Transfer

/-!
# One live transfer per resource

A transfer that has expired stays pending until somebody looks at it. `initiateTransfer` looks at
one pending transfer of the resource only, and does not see a live one behind it.
-/

namespace Trellis.Ownership

open Core TransferStore List

/-! ## The property and the condition -/

inductive OwnershipCall where
  | initiate (dto : InitiateTransferDto) (pick : Nat) (random : String)
  | existing (call : TransferCall)

def stepAny (now : Int) (store : TransferStore) : OwnershipCall → TransferStore
  | .initiate dto pick random => (initiateTransfer now store dto pick random).2
  | .existing call => step now store call

def runAny (store : TransferStore) (calls : List (Int × OwnershipCall)) : TransferStore :=
  calls.foldl (fun store call => stepAny call.1 store call.2) store

def Live (now : Int) (t : OwnershipTransfer) : Prop :=
  t.status = .pending ∧ now < t.expiresAt

def SameResource (t t' : OwnershipTransfer) : Prop :=
  t.resourceType = t'.resourceType ∧ t.resourceId = t'.resourceId

def OneLive (store : TransferStore) (now : Int) : Prop :=
  ∀ t t', store.get t.id = some t → store.get t'.id = some t' → Live now t → Live now t' →
    SameResource t t' → t.id = t'.id

/-- At no time after some of the calls has a resource two live transfers. -/
def AlwaysOneLive (calls : List (Int × OwnershipCall)) : Prop :=
  ∀ first rest, calls = first ++ rest → ∀ now, (∀ call ∈ first, call.1 ≤ now) →
    OneLive (runAny .empty first) now

/-- `initiateTransfer` creates a transfer. -/
def Creates (now : Int) (store : TransferStore) (dto : InitiateTransferDto) (pick : Nat) : Prop :=
  dto.currentOwnerId ≠ dto.proposedOwnerId ∧ dto.resourceType ≠ "" ∧ dto.resourceId ≠ "" ∧
    ∀ t ∈ findPendingByResource store dto.resourceType dto.resourceId pick, isExpired now t = true

/-- A live transfer is created while another one of the resource is live: the row that was found
has expired. -/
def Shadowed (now : Int) (store : TransferStore) : OwnershipCall → Prop
  | .initiate dto pick random => Creates now store dto pick ∧
      Live now (newTransfer now dto random) ∧
      ∃ t, store.get t.id = some t ∧ Live now t ∧ SameResource t (newTransfer now dto random) ∧
        t.id ≠ (newTransfer now dto random).id
  | .existing _ => False

/-! ## One call -/

variable {now : Int} {store : TransferStore}

theorem initiate_of_creates {dto : InitiateTransferDto} {pick : Nat}
    (h : Creates now store dto pick) (random : String) :
    (initiateTransfer now store dto pick random).2 = store.save (newTransfer now dto random) := by
  obtain ⟨howner, htype, hid, hexpired⟩ := h
  have hnone : (findPendingByResource store dto.resourceType dto.resourceId pick).any
      (fun t => !isExpired now t) = false := by
    cases hfound : findPendingByResource store dto.resourceType dto.resourceId pick with
    | none => rfl
    | some t => simp [hexpired t hfound]
  unfold initiateTransfer
  rw [if_neg howner, if_neg (by simp [htype, hid])]
  simp [hnone]

theorem initiate_of_not_creates {dto : InitiateTransferDto} {pick : Nat}
    (h : ¬ Creates now store dto pick) (random : String) :
    (initiateTransfer now store dto pick random).2 = store := by
  unfold initiateTransfer
  split_ifs with howner hempty
  · rfl
  · rfl
  · have hlive : (findPendingByResource store dto.resourceType dto.resourceId pick).any
        (fun t => !isExpired now t) = true := by
      by_contra hnone
      refine h ⟨howner, fun ht => hempty (Or.inl ht), fun hi => hempty (Or.inr hi), ?_⟩
      intro t ht
      by_contra hexpired
      refine hnone ?_
      rw [Option.mem_def.mp ht]
      simpa using hexpired
    simp [hlive]

theorem live_of_step {call : TransferCall} {t : OwnershipTransfer} {time : Int}
    (hget : (step now store call).get t.id = some t) (hlive : Live time t) :
    ∃ t₀, store.get t₀.id = some t₀ ∧ Live time t₀ ∧ SameResource t₀ t ∧ t₀.id = t.id := by
  cases hbefore : store.get t.id with
  | none =>
    rw [(changes_step now store call t.id).1 hbefore] at hget
    cases hget
  | some t₀ =>
    obtain ⟨t', hget', hchange⟩ := (changes_step now store call t.id).2 t₀ hbefore
    rw [hget] at hget'
    cases hget'
    cases hchange with
    | same => exact ⟨t, hbefore, hlive, ⟨rfl, rfl⟩, rfl⟩
    | closed _ _ hclosed => exact (hclosed hlive.1).elim
    | late _ _ _ => cases hlive.1

theorem oneLive_step {call : OwnershipCall} (hone : OneLive store now)
    (hshadow : ¬ Shadowed now store call) : OneLive (stepAny now store call) now := by
  cases call with
  | existing call =>
    intro t t' hget hget' hlive hlive' hsame
    obtain ⟨t₀, hget₀, hlive₀, hsame₀, hid₀⟩ := live_of_step hget hlive
    obtain ⟨t₁, hget₁, hlive₁, hsame₁, hid₁⟩ := live_of_step hget' hlive'
    have hresource : SameResource t₀ t₁ :=
      ⟨(hsame₀.1.trans hsame.1).trans hsame₁.1.symm, (hsame₀.2.trans hsame.2).trans hsame₁.2.symm⟩
    rw [← hid₀, ← hid₁]
    exact hone t₀ t₁ hget₀ hget₁ hlive₀ hlive₁ hresource
  | initiate dto pick random =>
    by_cases hcreates : Creates now store dto pick
    · have hnew : ∀ t t', (store.save (newTransfer now dto random)).get t.id = some t →
          t' = newTransfer now dto random → Live now t → Live now t' → SameResource t t' →
          t.id = t'.id := by
        rintro t t' hget rfl hlive hlive' hsame
        by_contra hne
        rw [get_save, if_neg hne] at hget
        exact hshadow ⟨hcreates, hlive', t, hget, hlive, hsame, hne⟩
      intro t t' hget hget' hlive hlive' hsame
      change (initiateTransfer now store dto pick random).2.get _ = _ at hget hget'
      rw [initiate_of_creates hcreates] at hget hget'
      by_cases hid' : t'.id = (newTransfer now dto random).id
      · rw [get_save, if_pos hid'] at hget'
        cases hget'
        exact hnew t _ hget rfl hlive hlive' hsame
      · by_cases hid : t.id = (newTransfer now dto random).id
        · rw [get_save, if_pos hid] at hget
          cases hget
          exact (hnew t' _ hget' rfl hlive' hlive ⟨hsame.1.symm, hsame.2.symm⟩).symm
        · rw [get_save, if_neg hid] at hget
          rw [get_save, if_neg hid'] at hget'
          exact hone t t' hget hget' hlive hlive' hsame
    · change OneLive (initiateTransfer now store dto pick random).2 now
      rw [initiate_of_not_creates hcreates]
      exact hone

theorem not_oneLive_of_shadowed {call : OwnershipCall} (h : Shadowed now store call) :
    ¬ OneLive (stepAny now store call) now := by
  cases call with
  | existing call => exact h.elim
  | initiate dto pick random =>
    obtain ⟨hcreates, hlive, t, hget, hlive', hsame, hne⟩ := h
    intro hone
    change OneLive (initiateTransfer now store dto pick random).2 now at hone
    rw [initiate_of_creates hcreates] at hone
    refine hne (hone t (newTransfer now dto random) ?_ ?_ hlive' hlive hsame)
    · rw [get_save, if_neg hne]
      exact hget
    · rw [get_save, if_pos rfl]

theorem OneLive.later {later : Int} (h : OneLive store now) (hle : now ≤ later) :
    OneLive store later := by
  intro t t' hget hget' hlive hlive' hsame
  exact h t t' hget hget' ⟨hlive.1, hle.trans_lt hlive.2⟩ ⟨hlive'.1, hle.trans_lt hlive'.2⟩ hsame

/-! ## Sequences of calls -/

theorem runAny_concat (calls : List (Int × OwnershipCall)) (call : Int × OwnershipCall) :
    runAny store (calls ++ [call]) = stepAny call.1 (runAny store calls) call.2 := by
  rw [runAny, foldl_append]
  rfl

/-- Along calls at times that do not decrease no resource has two live transfers exactly if no
transfer is initiated behind an expired one while another one is live. -/
theorem always_one_live_iff {calls : List (Int × OwnershipCall)}
    (htimes : calls.Pairwise fun call call' => call.1 ≤ call'.1) :
    AlwaysOneLive calls ↔ ∀ first now call rest, calls = first ++ (now, call) :: rest →
      ¬ Shadowed now (runAny .empty first) call := by
  constructor
  · intro halways first now call rest hcalls hshadow
    have hbefore : ∀ call' ∈ first ++ [(now, call)], call'.1 ≤ now := by
      intro call' hmem
      rw [hcalls] at htimes
      rcases mem_append.mp hmem with hmem | hmem
      · exact (pairwise_append.mp htimes).2.2 call' hmem (now, call) mem_cons_self
      · rw [mem_singleton.mp hmem]
    have hone := halways (first ++ [(now, call)]) rest (by rw [hcalls]; simp) now hbefore
    rw [runAny_concat] at hone
    exact not_oneLive_of_shadowed hshadow hone
  · intro hnever first
    induction first using reverseRecOn with
    | nil =>
      intro rest _ now _ t t' hget
      cases hget
    | append_singleton first call ih =>
      obtain ⟨now, call⟩ := call
      intro rest hcalls later hlater
      have hcalls' : calls = first ++ (now, call) :: rest := by rw [hcalls]; simp
      have hbefore : ∀ call' ∈ first, call'.1 ≤ now := by
        intro call' hmem
        rw [hcalls'] at htimes
        exact (pairwise_append.mp htimes).2.2 call' hmem (now, call) mem_cons_self
      have hone := ih ((now, call) :: rest) hcalls' now hbefore
      rw [runAny_concat]
      refine (oneLive_step hone (hnever first now call rest hcalls')).later ?_
      exact hlater (now, call) (mem_append_right _ mem_cons_self)

/-! ### Three transfers of one document -/

def documentRequest (expiresInHours : Option ℚ) : InitiateTransferDto where
  resourceType := "document"
  resourceId := "d"
  currentOwnerId := "a"
  proposedOwnerId := "b"
  expiresInHours := expiresInHours

/-- A transfer is initiated for an hour, a second one when it has expired and a third one right
after, where `findOne` returns the first. -/
def staleCalls : List (Int × OwnershipCall) :=
  [(0, .initiate (documentRequest (some 1)) 0 "x"),
    (3600000, .initiate (documentRequest none) 0 "y"),
    (3600001, .initiate (documentRequest none) 0 "z")]

/-- The expired transfer is found in place of the live one. -/
theorem stale_transfer_hides_live : ¬ AlwaysOneLive staleCalls := by
  intro halways
  have hone := halways staleCalls [] rfl 3600001 (by decide)
  have hids := hone (newTransfer 3600000 (documentRequest none) "y")
    (newTransfer 3600001 (documentRequest none) "z") (by decide +kernel) (by decide +kernel)
    ⟨rfl, by decide +kernel⟩ ⟨rfl, by decide +kernel⟩ ⟨rfl, rfl⟩
  revert hids
  decide +kernel

/-- The first two of the calls leave one live transfer. -/
theorem renewed_transfer_only_live :
    (staleCalls.take 2).Pairwise (fun call call' => call.1 ≤ call'.1) ∧
      AlwaysOneLive (staleCalls.take 2) := by
  have htimes : (staleCalls.take 2).Pairwise (fun call call' => call.1 ≤ call'.1) := by decide
  refine ⟨htimes, (always_one_live_iff htimes).mpr ?_⟩
  intro first now call rest hcalls hshadow
  match first, hcalls with
  | [], hcalls =>
    cases hcalls
    obtain ⟨_, _, t, hget, _⟩ := hshadow
    cases hget
  | [_], hcalls =>
    cases hcalls
    obtain ⟨_, _, t, hget, hlive, _⟩ := hshadow
    have hstore : runAny .empty [(0, .initiate (documentRequest (some 1)) 0 "x")] =
        empty.save (newTransfer 0 (documentRequest (some 1)) "x") := rfl
    rw [hstore, get_save] at hget
    split_ifs at hget with hid
    · cases hget
      exact absurd hlive.2 (by decide +kernel)
    · cases hget
  | _ :: _ :: _, hcalls => simp [staleCalls] at hcalls

end Trellis.Ownership
