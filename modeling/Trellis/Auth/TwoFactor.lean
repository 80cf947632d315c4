import Trellis.Core.Serial
import Trellis.Core.Text

/-!
# Two-factor codes

`EnhancedAuthService.verifyTwoFactorCode` for one user and
`SessionRecoveryService.initiateBackupCodeRecovery` for one wallet. The row is read, judged
together with the memory of used codes in one synchronous stretch, and saved as a whole. One-time
passwords and hashes are parameters.
-/

namespace Trellis.Auth

open Core List

inductive AuthFailure where
  | badRequest (message : String)
  | unauthorized (message : String)
  | notFound (message : String)
deriving DecidableEq

def max2faAttempts : Nat := 5

def lockoutDurationMs : Int := 15 * 60 * 1000

structure TwoFactorAuth where
  secret : String
  backupCodes : List String
  failedAttempts : Nat := 0
  lockedUntil : Option Int := none
deriving DecidableEq

structure TwoFactorVerifyDto where
  code : Option String := none
  backupCode : Option String := none

/-- The one-time password of a request, `code.trim()`. -/
def presented (dto : TwoFactorVerifyDto) : Option String :=
  (dto.code.filter (· ≠ "")).map trim

structure RecoveryWallet where
  recoveryEnabled : Bool
  recoveryCodeHash : List String
deriving DecidableEq

/-- The user, the one-time password of each step for a secret, and the two hashes. -/
structure TwoFactorConfig where
  userId : String
  totp : String → Int → String
  hashBackupCode : String → String
  hashRecoveryCode : String → String

/-- What becomes of the row that was read: the call throws, or it saves a row and then throws or
returns. -/
inductive Verdict where
  | thrown (e : AuthFailure)
  | saved (twoFactor : TwoFactorAuth) (outcome : Except AuthFailure Unit)

def lockout (twoFactor : TwoFactorAuth) (now : Int) : Option Int :=
  twoFactor.lockedUntil.filter (now < ·)

def lockedFor (text : String) : AuthFailure :=
  .unauthorized ("Account locked due to too many failed 2FA attempts. Try again in " ++ text)

def rejected (twoFactor : TwoFactorAuth) (now : Int) : Verdict :=
  if max2faAttempts ≤ twoFactor.failedAttempts + 1 then
    .saved { twoFactor with failedAttempts := 0, lockedUntil := some (now + lockoutDurationMs) }
      (.error (lockedFor "15 minutes."))
  else
    .saved { twoFactor with failedAttempts := twoFactor.failedAttempts + 1 }
      (.error (.unauthorized "Invalid two-factor authentication code"))

def accepted (twoFactor : TwoFactorAuth) : Verdict :=
  .saved { twoFactor with failedAttempts := 0, lockedUntil := none } (.ok ())

section Config

variable (cfg : TwoFactorConfig)

/-- `speakeasy.totp.verify` with a window of one step of thirty seconds. -/
def totpVerify (secret token : String) (now : Int) : Bool :=
  [-1, 0, 1].any fun skew => token = cfg.totp secret (now / 30000 + skew)

def replayKey (token : String) : String :=
  "totp:used:" ++ cfg.userId ++ ":" ++ token

/-- The synchronous part of `verifyTwoFactorCode`; `used` is `usedTotpTokens`. -/
def judge (dto : TwoFactorVerifyDto) (twoFactor : TwoFactorAuth) (now : Int)
    (used : String → Option Int) : Verdict × (String → Option Int) :=
  match lockout twoFactor now with
  | some lockedUntil =>
    (.thrown (lockedFor (toString (-((now - lockedUntil) / 60000)) ++ " minute(s).")), used)
  | none =>
    match presented dto, dto.backupCode.filter (· ≠ "") with
    | some token, _ =>
      if (used (replayKey cfg token)).any (now < ·) then
        (.thrown (.unauthorized "TOTP token has already been used"), used)
      else if totpVerify cfg twoFactor.secret token now then
        (accepted twoFactor, Function.update used (replayKey cfg token) (some (now + 60 * 1000)))
      else (rejected twoFactor now, used)
    | none, some backupCode =>
      let candidate := cfg.hashBackupCode backupCode
      if candidate ∈ twoFactor.backupCodes then
        (accepted { twoFactor with backupCodes := twoFactor.backupCodes.erase candidate }, used)
      else (rejected twoFactor now, used)
    | none, none => (.thrown (.badRequest "A TOTP code or backup code is required"), used)

/-! ## Awaited operations -/

inductive TwoFactorOp where
  | findEnabled
  | judge (dto : TwoFactorVerifyDto) (twoFactor : TwoFactorAuth)
  | save (twoFactor : TwoFactorAuth)
  | findWallet
  | saveWallet (wallet : RecoveryWallet)
  | auditRecoveryAttempt (success : Bool)

abbrev TwoFactorOp.Res : TwoFactorOp → Type
  | .findEnabled => Option TwoFactorAuth
  | .judge _ _ => Verdict
  | .findWallet => Option RecoveryWallet
  | .save _ | .saveWallet _ | .auditRecoveryAttempt _ => Unit

abbrev twoFactorInterface : Interface :=
  ⟨TwoFactorOp, TwoFactorOp.Res⟩

abbrev TwoFactorProgram (α : Type) : Type :=
  Async twoFactorInterface AuthFailure α

abbrev askTwoFactor (op : TwoFactorOp) : TwoFactorProgram op.Res :=
  .call (I := twoFactorInterface) op

def verifyTwoFactorCode (dto : TwoFactorVerifyDto) : TwoFactorProgram Unit := do
  match ← askTwoFactor .findEnabled with
  | none => .fail (.badRequest "Two-factor authentication not enabled")
  | some twoFactor => do
    match ← askTwoFactor (.judge dto twoFactor) with
    | .thrown e => .fail e
    | .saved twoFactor outcome => do
      let () ← askTwoFactor (.save twoFactor)
      .ofExcept outcome

/-- `initiateBackupCodeRecovery` without the session and the challenge that it returns. -/
def initiateBackupCodeRecovery (backupCode : String) : TwoFactorProgram Unit := do
  match (← askTwoFactor .findWallet).filter (·.recoveryEnabled) with
  | none => .fail (.unauthorized "Recovery not enabled for this wallet")
  | some wallet =>
    if cfg.hashRecoveryCode backupCode ∉ wallet.recoveryCodeHash then do
      let () ← askTwoFactor (.auditRecoveryAttempt false)
      .fail (.unauthorized "Invalid recovery code")
    else do
      let () ← askTwoFactor (.saveWallet { wallet with
        recoveryCodeHash := wallet.recoveryCodeHash.filter (· ≠ cfg.hashRecoveryCode backupCode) })
      let () ← askTwoFactor (.auditRecoveryAttempt true)
      .done ()

/-! ## The world -/

/-- The enabled two-factor row of the user, the wallet, the used codes with the instants until
which they are remembered, and, for no code to read, the times at which calls got past the lockout
check, the latest first. -/
structure TwoFactorWorld where
  row : Option TwoFactorAuth
  wallet : Option RecoveryWallet := none
  used : String → Option Int := fun _ => none
  passes : List Int := []

def TwoFactorWorld.perform (w : TwoFactorWorld) :
    (op : TwoFactorOp) → Int → Except AuthFailure op.Res × TwoFactorWorld
  | .findEnabled, _ => (.ok w.row, w)
  | .judge dto twoFactor, now =>
    let verdict := Auth.judge cfg dto twoFactor now w.used
    (.ok verdict.1, { w with
      used := verdict.2
      passes := if (lockout twoFactor now).isSome then w.passes else now :: w.passes })
  | .save twoFactor, _ => (.ok (), { w with row := some twoFactor })
  | .findWallet, _ => (.ok w.wallet, w)
  | .saveWallet wallet, _ => (.ok (), { w with wallet := some wallet })
  | .auditRecoveryAttempt _, _ => (.ok (), w)

/-- The outside chooses the time at which an operation is performed. -/
def twoFactorSemantics (ι : Type) : Semantics twoFactorInterface AuthFailure ι TwoFactorWorld where
  Choice := Int
  perform _ op now w := some (w.perform cfg op now)
  Event := Empty
  happen e := e.elim

/-! ## One call alone -/

variable {cfg} {ι : Type} {g : Guard (twoFactorSemantics cfg ι)} {i : ι} {w w' : TwoFactorWorld}
  {r : Except AuthFailure Unit}

def Verdict.settle (verdict : Verdict) (twoFactor : TwoFactorAuth) :
    TwoFactorAuth × Except AuthFailure Unit :=
  match verdict with
  | .thrown e => (twoFactor, .error e)
  | .saved twoFactor' outcome => (twoFactor', outcome)

variable (cfg) in
/-- The row was judged at `now`, and the call has left what the verdict says. -/
structure Judged (dto : TwoFactorVerifyDto) (twoFactor : TwoFactorAuth) (now : Int)
    (w : TwoFactorWorld) (r : Except AuthFailure Unit) (w' : TwoFactorWorld) : Prop where
  found : w.row = some twoFactor
  settled : (w'.row, r) = Prod.map some id
    ((judge cfg dto twoFactor now w.used).1.settle twoFactor)
  used : w'.used = (judge cfg dto twoFactor now w.used).2
  passes : w'.passes = if (lockout twoFactor now).isSome then w.passes else now :: w.passes
  wallet : w'.wallet = w.wallet

/-- A call that nobody disturbs finds no row, or judges the row at one time. -/
theorem judged_of_runs {dto : TwoFactorVerifyDto}
    (hrun : Runs (twoFactorSemantics cfg ι) g i (verifyTwoFactorCode dto) w r w') :
    (∃ e, r = .error e) ∧ w' = w ∨ ∃ twoFactor, ∃ now : Int, g i (.judge dto twoFactor) now w ∧
      Judged cfg dto twoFactor now w r w' := by
  refine Safe.runs (C := Contract.solo fun _ => True) (Q := fun r w' =>
    (∃ e, r = .error e) ∧ w' = w ∨ ∃ twoFactor, ∃ now : Int, g i (.judge dto twoFactor) now w ∧
      Judged cfg dto twoFactor now w r w') (fun e => Empty.elim e) trivial ?_ hrun
  refine safe_solo_call_bind fun _ c a w₁ _ hfind => ⟨trivial, ?_⟩
  cases hfind
  cases hrow : w.row with
  | none => exact safe_solo_fail (.inl ⟨⟨_, rfl⟩, rfl⟩)
  | some twoFactor =>
    refine safe_solo_call_bind fun _ now a w₁ hg hjudge => ⟨trivial, ?_⟩
    cases hjudge
    cases hverdict : (judge cfg dto twoFactor now w.used).1 with
    | thrown e =>
      refine safe_solo_fail (.inr ⟨twoFactor, now, hg, hrow, ?_, rfl, rfl, rfl⟩)
      rw [hverdict, hrow]
      rfl
    | saved twoFactor' outcome =>
      refine safe_solo_call_bind fun _ _ a w₁ _ hsave => ⟨trivial, ?_⟩
      cases hsave
      cases outcome with
      | ok _ =>
        refine safe_solo_done (.inr ⟨twoFactor, now, hg, hrow, ?_, rfl, rfl, rfl⟩)
        rw [hverdict]
        rfl
      | error e =>
        refine safe_solo_fail (.inr ⟨twoFactor, now, hg, hrow, ?_, rfl, rfl, rfl⟩)
        rw [hverdict]
        rfl

end Config

end Trellis.Auth
