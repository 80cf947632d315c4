import Trellis.Auth.TwoFactor
import Trellis.Core.Pool

/-!
# What the second factor bounds

A one-time password and a backup code work once, and wrong codes are locked out, where the calls
for a user do not overlap. A used password is forgotten after a minute, too early for one used
before its own step.
-/

namespace Trellis.Auth

open Core List Option

variable {cfg : TwoFactorConfig} {ι : Type} {dtos : ι → TwoFactorVerifyDto}
  {w w' initial : TwoFactorWorld} {history : List (ι × Except AuthFailure Unit)}
  {dto : TwoFactorVerifyDto} {twoFactor : TwoFactorAuth} {now : Int}
  {r : Except AuthFailure Unit}

/-- The backup code of a request, which counts if there is no password. -/
def presentedBackup (dto : TwoFactorVerifyDto) : Option String :=
  if presented dto = none then dto.backupCode.filter (· ≠ "") else none

variable (cfg) in
/-- What a call does: it fails and keeps the codes, or it accepts a password and remembers it, or
it accepts a backup code and removes it. -/
inductive Checked (dto : TwoFactorVerifyDto) (twoFactor : TwoFactorAuth) (now : Int)
    (used : String → Option Int) :
    Except AuthFailure Unit → List String → (String → Option Int) → Prop where
  | failed (e : AuthFailure) : Checked dto twoFactor now used (.error e) twoFactor.backupCodes used
  | totp (token : String) (hpresented : presented dto = some token)
      (hunused : (used (replayKey cfg token)).any (now < ·) = false)
      (hverified : totpVerify cfg twoFactor.secret token now = true) :
      Checked dto twoFactor now used (.ok ()) twoFactor.backupCodes
        (Function.update used (replayKey cfg token) (some (now + 60 * 1000)))
  | backup (code : String) (hpresented : presentedBackup dto = some code)
      (hmem : cfg.hashBackupCode code ∈ twoFactor.backupCodes) :
      Checked dto twoFactor now used (.ok ())
        (twoFactor.backupCodes.erase (cfg.hashBackupCode code)) used

theorem checked_judge (dto : TwoFactorVerifyDto) (twoFactor : TwoFactorAuth) (now : Int)
    (used : String → Option Int) :
    ((judge cfg dto twoFactor now used).1.settle twoFactor).1.secret = twoFactor.secret ∧
      Checked cfg dto twoFactor now used ((judge cfg dto twoFactor now used).1.settle twoFactor).2
        ((judge cfg dto twoFactor now used).1.settle twoFactor).1.backupCodes
        (judge cfg dto twoFactor now used).2 := by
  have hrejected : ((rejected twoFactor now).settle twoFactor).1.secret = twoFactor.secret ∧
      Checked cfg dto twoFactor now used ((rejected twoFactor now).settle twoFactor).2
        ((rejected twoFactor now).settle twoFactor).1.backupCodes used := by
    unfold rejected
    split <;> exact ⟨rfl, .failed _⟩
  unfold judge
  split
  · exact ⟨rfl, .failed _⟩
  split
  · rename_i _ token hpresented
    split
    · exact ⟨rfl, .failed _⟩
    split
    · rename_i hunused hverified
      exact ⟨rfl, .totp _ hpresented (by simpa using hunused) hverified⟩
    · exact hrejected
  · rename_i code hcode hbackup
    have hpresented : presentedBackup dto = some code := by
      rw [presentedBackup, if_pos hcode, hbackup]
    dsimp only
    split
    · rename_i hmem
      exact ⟨rfl, .backup code hpresented hmem⟩
    · exact hrejected
  · exact ⟨rfl, .failed _⟩

theorem Judged.checked (h : Judged cfg dto twoFactor now w r w') :
    ∃ twoFactor', w'.row = some twoFactor' ∧ twoFactor'.secret = twoFactor.secret ∧
      Checked cfg dto twoFactor now w.used r twoFactor'.backupCodes w'.used := by
  obtain ⟨hrow, rfl⟩ := Prod.mk.inj h.settled
  rw [h.used]
  exact ⟨_, hrow, checked_judge dto twoFactor now w.used⟩

/-! ## One-time passwords -/

inductive CodeRequest where
  | verify (dto : TwoFactorVerifyDto)
  | recover (backupCode : String)

variable (cfg) in
def CodeRequest.program : CodeRequest → TwoFactorProgram Unit
  | .verify dto => verifyTwoFactorCode dto
  | .recover backupCode => initiateBackupCodeRecovery cfg backupCode

/-- The password of a step is a text as long as its number. -/
def sampleCodes : TwoFactorConfig where
  userId := "u"
  totp _ step := String.ofList (replicate step.toNat 'a' ++ replicate (-step).toNat 'b')
  hashBackupCode code := code
  hashRecoveryCode code := code

theorem totp_injective (secret : String) : Function.Injective (sampleCodes.totp secret) := by
  intro step step' h
  have hcount (c : Char) := congrArg (count c) (String.ofList_injective h)
  have ha := hcount 'a'
  have hb := hcount 'b'
  simp [count_replicate] at ha hb
  omega

def sampleWorld : TwoFactorWorld where
  row := some { secret := "k", backupCodes := ["B1", "B2"] }
  wallet := some { recoveryEnabled := true, recoveryCodeHash := ["R1"] }

def codePool (requests : ι → CodeRequest) :
    Pool twoFactorInterface AuthFailure ι TwoFactorWorld Unit where
  world := sampleWorld
  calls i := (requests i).program sampleCodes

/-- No password is presented before its own step begins. -/
def Punctual : Guard (twoFactorSemantics cfg ι) := fun _ op now _ =>
  match op with
  | .judge dto twoFactor =>
    ∀ step, presented dto = some (cfg.totp twoFactor.secret step) → 30000 * step ≤ now
  | _ => True

variable (cfg) in
/-- The password is remembered until its window is over. -/
def Remembered (token : String) (w : TwoFactorWorld) : Prop :=
  ∃ twoFactor step exp, w.row = some twoFactor ∧ token = cfg.totp twoFactor.secret step ∧
    w.used (replayKey cfg token) = some exp ∧ 30000 * (step + 2) ≤ exp

variable (cfg) in
/-- The hash of the backup code that a request presents, and whether it is one of the wallet. -/
def CodeRequest.consumes : CodeRequest → Option (Bool × String)
  | .verify dto => (presentedBackup dto).map fun code => (false, cfg.hashBackupCode code)
  | .recover backupCode => some (true, cfg.hashRecoveryCode backupCode)

/-- The hashes that are left, in the row of the user or in the wallet. -/
def TwoFactorWorld.codes (w : TwoFactorWorld) : Bool → List String
  | false => (w.row.map (·.backupCodes)).getD []
  | true => (w.wallet.map (·.recoveryCodeHash)).getD []

/-- No hash is added, and a code that is accepted was there and is no more. -/
def Consumes (consumed : Option (Bool × String)) (w : TwoFactorWorld)
    (r : Except AuthFailure Unit) (w' : TwoFactorWorld) : Prop :=
  (∀ s, (w'.codes s).Sublist (w.codes s)) ∧ (r = .ok () → ∀ s hash, consumed = some (s, hash) →
    hash ∈ w.codes s ∧ hash ∉ w'.codes s)

theorem Judged.consumes (h : Judged cfg dto twoFactor now w r w') (hnodup : (w.codes false).Nodup) :
    Consumes ((CodeRequest.verify dto).consumes cfg) w r w' := by
  obtain ⟨twoFactor', hrow', -, hchecked⟩ := h.checked
  have hcodes : w.codes false = twoFactor.backupCodes := by
    simp [TwoFactorWorld.codes, h.found]
  have hcodes' : w'.codes false = twoFactor'.backupCodes := by
    simp [TwoFactorWorld.codes, hrow']
  have hwallet : w'.codes true = w.codes true := by
    simp [TwoFactorWorld.codes, h.wallet]
  rw [hcodes] at hnodup
  simp only [Consumes, Bool.forall_bool, hcodes, hcodes', hwallet, CodeRequest.consumes]
  generalize twoFactor'.backupCodes = codes, w'.used = used at hchecked
  cases hchecked with
  | failed e => simp
  | totp token hpresented hunused hverified => simp [presentedBackup, hpresented]
  | backup code hpresented hmem =>
    simp [hpresented, hmem, erase_sublist, hnodup.not_mem_erase]

theorem consumes_of_runs {request : CodeRequest} {g : Guard (twoFactorSemantics cfg ι)} {i : ι}
    (hnodup : (w.codes false).Nodup)
    (hrun : Runs (twoFactorSemantics cfg ι) g i (request.program cfg) w r w') :
    Consumes (request.consumes cfg) w r w' := by
  cases request with
  | verify dto =>
    obtain ⟨⟨e, rfl⟩, rfl⟩ | ⟨twoFactor, now, -, hjudged⟩ := judged_of_runs hrun
    · simp [Consumes]
    · exact hjudged.consumes hnodup
  | recover backupCode =>
    refine Safe.runs (C := Contract.solo fun _ => True) (Q := Consumes _ w)
      (fun e => Empty.elim e) trivial ?_ hrun
    have hsame : ∀ e, Consumes ((CodeRequest.recover backupCode).consumes cfg) w (.error e) w :=
      fun e => ⟨fun _ => .refl _, nofun⟩
    refine safe_solo_call_bind fun _ _ a w₁ _ hfind => ⟨trivial, ?_⟩
    cases hfind
    dsimp only
    split
    · exact safe_solo_fail (hsame _)
    · rename_i wallet hfound
      obtain ⟨hwallet, -⟩ := filter_eq_some_iff.mp hfound
      split
      · refine safe_solo_call_bind fun _ _ a w₁ _ haudit => ⟨trivial, ?_⟩
        cases haudit
        exact safe_solo_fail (hsame _)
      · rename_i hmem
        refine safe_solo_call_bind fun _ _ a w₁ _ hsave => ⟨trivial, ?_⟩
        cases hsave
        refine safe_solo_call_bind fun _ _ a w₁ _ haudit => ⟨trivial, ?_⟩
        cases haudit
        refine safe_solo_done ?_
        simpa [Consumes, CodeRequest.consumes, TwoFactorWorld.codes, hwallet] using hmem

/-- If later times are `d` apart from all but the next few, few fall in one period of length
`d`. -/
theorem length_window_le {times : List Int} {d : Int} {n : Nat} (start : Int)
    (hspaced : ∀ k m a b, k + n < m → times[k]? = some a → times[m]? = some b → b + d ≤ a) :
    (times.filter fun t => start ≤ t ∧ t < start + d).length ≤ n + 1 := by
  induction times with
  | nil => simp
  | cons a times ih =>
    by_cases hin : start ≤ a ∧ a < start + d
    · -- what is far enough behind the latest time lies before the period
      have hbehind : (times.drop n).filter (fun t => start ≤ t ∧ t < start + d) = [] := by
        refine filter_eq_nil_iff.mpr fun b hb => ?_
        obtain ⟨m, hm⟩ := mem_iff_getElem?.mp hb
        rw [getElem?_drop] at hm
        have hle := hspaced 0 (n + m + 1) a b (by omega) rfl hm
        simp only [decide_eq_true_eq]
        omega
      have hsplit := congrArg (filter fun t => start ≤ t ∧ t < start + d) (take_append_drop n times)
      rw [filter_append, hbehind, append_nil] at hsplit
      rw [filter_cons_of_pos (by simpa using hin), length_cons, ← hsplit]
      have hle := (length_filter_le (fun t => start ≤ t ∧ t < start + d) (times.take n)).trans
        (length_take_le n times)
      omega
    · rw [filter_cons_of_neg (by simpa using hin)]
      exact ih fun k m a b hkm ha hb => hspaced (k + 1) (m + 1) a b (by omega) ha hb

variable (cfg) in
/-- The request carries a code that is wrong at `now` and is not remembered as used. -/
def Wrong (dto : TwoFactorVerifyDto) (twoFactor : TwoFactorAuth) (now : Int)
    (used : String → Option Int) : Prop :=
  match presented dto with
  | some token => totpVerify cfg twoFactor.secret token now = false ∧
      (used (replayKey cfg token)).any (now < ·) = false
  | none => ∃ code, dto.backupCode.filter (· ≠ "") = some code ∧
      cfg.hashBackupCode code ∉ twoFactor.backupCodes

/-- The clock does not go back, and codes are wrong. -/
def Guesses : Guard (twoFactorSemantics cfg ι) := fun _ op now w =>
  match op with
  | .judge dto twoFactor => (∀ t ∈ w.passes, t ≤ now) ∧ Wrong cfg dto twoFactor now w.used
  | _ => True

theorem judge_of_wrong {used : String → Option Int} (hlock : lockout twoFactor now = none)
    (h : Wrong cfg dto twoFactor now used) :
    judge cfg dto twoFactor now used = (rejected twoFactor now, used) := by
  unfold Wrong at h
  unfold judge
  rw [hlock]
  cases hpresented : presented dto with
  | some token =>
    rw [hpresented] at h
    simp [h.1, h.2]
  | none =>
    rw [hpresented] at h
    obtain ⟨code, hcode, hmem⟩ := h
    simp only [hcode, if_neg hmem]

/-- The passes so far, the latest first: any six of them span a lockout, and those that the counter
does not count end before the lockout does. -/
structure Bounded (w : TwoFactorWorld) : Prop where
  spaced : ∀ k m a b, k + 4 < m → w.passes[k]? = some a → w.passes[m]? = some b →
    b + lockoutDurationMs ≤ a
  locked : ∀ twoFactor, w.row = some twoFactor → ∀ k a, twoFactor.failedAttempts ≤ k →
    w.passes[k]? = some a → ∃ l, twoFactor.lockedUntil = some l ∧ a + lockoutDurationMs ≤ l
  counted : ∀ twoFactor, w.row = some twoFactor → w.passes ≠ [] →
    twoFactor.failedAttempts < max2faAttempts

theorem Bounded.judged (h : Bounded w) (hjudged : Judged cfg dto twoFactor now w r w')
    (hclock : ∀ t ∈ w.passes, t ≤ now) (hwrong : Wrong cfg dto twoFactor now w.used) :
    Bounded w' := by
  obtain ⟨hrow', -⟩ := Prod.mk.inj hjudged.settled
  have hlocked := h.locked twoFactor hjudged.found
  have hpasses := hjudged.passes
  cases hlock : lockout twoFactor now with
  | some l =>
    have hsame : w'.row = w.row := by
      rw [hrow', hjudged.found]
      simp [judge, hlock]
    simp only [hlock, isSome_some, if_true] at hpasses
    exact ⟨hpasses ▸ h.spaced, hsame ▸ hpasses ▸ h.locked, hsame ▸ hpasses ▸ h.counted⟩
  | none =>
    rw [judge_of_wrong hlock hwrong] at hrow'
    simp only [hlock, isSome_none, Bool.false_eq_true, if_false] at hpasses
    have hover : ∀ k a, twoFactor.failedAttempts ≤ k → w.passes[k]? = some a →
        a + lockoutDurationMs ≤ now := by
      intro k a hk ha
      obtain ⟨l, hl, hle⟩ := hlocked k a hk ha
      have hend : l ≤ now := by simpa [lockout, hl] using hlock
      omega
    have hspaced : ∀ k m a b, k + 4 < m → w'.passes[k]? = some a → w'.passes[m]? = some b →
        b + lockoutDurationMs ≤ a := by
      intro k m a b hkm ha hb
      obtain ⟨m, rfl⟩ : ∃ m', m = m' + 1 := ⟨m - 1, by omega⟩
      rw [hpasses, getElem?_cons_succ] at hb
      cases k with
      | zero =>
        obtain rfl : now = a := by simpa [hpasses] using ha
        have hcounted := h.counted twoFactor hjudged.found (ne_nil_of_mem (mem_of_getElem? hb))
        exact hover m b (by unfold max2faAttempts at hcounted; omega) hb
      | succ k =>
        rw [hpasses, getElem?_cons_succ] at ha
        exact h.spaced k m a b (by omega) ha hb
    by_cases hlast : max2faAttempts ≤ twoFactor.failedAttempts + 1
    · simp only [rejected, if_pos hlast] at hrow'
      refine ⟨hspaced, fun _ hfound k a _ ha => ?_, fun _ hfound _ => ?_⟩
      · cases hrow'.symm.trans hfound
        refine ⟨_, rfl, Int.add_le_add_right ?_ _⟩
        rcases mem_cons.mp (hpasses ▸ mem_of_getElem? ha) with rfl | hold
        · exact Int.le_refl _
        · exact hclock a hold
      · cases hrow'.symm.trans hfound
        exact Nat.zero_lt_succ 4
    · simp only [rejected, if_neg hlast] at hrow'
      refine ⟨hspaced, fun _ hfound k a hk ha => ?_, fun _ hfound _ => ?_⟩
      · cases hrow'.symm.trans hfound
        cases k with
        | zero => exact absurd hk (Nat.not_succ_le_zero _)
        | succ k =>
          rw [hpasses, getElem?_cons_succ] at ha
          exact hlocked k a (Nat.le_of_succ_le_succ hk) ha
      · cases hrow'.symm.trans hfound
        exact Nat.not_le.mp hlast

end Trellis.Auth
