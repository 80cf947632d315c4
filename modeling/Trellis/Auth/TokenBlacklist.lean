import Trellis.Core.Store

/-!
# Revoked tokens

`TokenBlacklistService`: a revocation is written to Redis with a lifetime in whole seconds, and to
the map of the process where Redis fails; a lookup that Redis answers does not see the map.
-/

namespace Trellis.Auth

open Core List

/-- The keys in Redis and the entries of `local`, with the instants at which they expire. -/
structure Blacklist where
  redis : String → Option Int := fun _ => none
  locally : String → Option Int := fun _ => none

def blacklistKey (jti : String) : String :=
  "token-blacklist:" ++ jti

inductive BlacklistCall where
  | revoke (jti : String) (expiresAt : Int)
  | isRevoked (jti : String)
  | cleanup

structure BlacklistStep where
  call : BlacklistCall
  now : Int
  fails : Bool := false

namespace Blacklist

def revoke (client : Bool) (jti : String) (expiresAt now : Int) (fails : Bool) (s : Blacklist) :
    Blacklist :=
  let ttlSeconds := max 1 ((expiresAt - now) / 1000)
  if client && !fails then
    { s with redis := Function.update s.redis (blacklistKey jti) (some (now + ttlSeconds * 1000)) }
  else { s with locally := Function.update s.locally jti (some expiresAt) }

def isRevoked (client : Bool) (jti : String) (now : Int) (fails : Bool) (s : Blacklist) :
    Bool × Blacklist :=
  if client && !fails then ((s.redis (blacklistKey jti)).any (now < ·), s)
  else
    match s.locally jti with
    | none => (false, s)
    | some exp =>
      if now > exp then (false, { s with locally := Function.update s.locally jti none })
      else (true, s)

def cleanup (now : Int) (s : Blacklist) : Blacklist :=
  { s with locally := fun jti => (s.locally jti).filter (now ≤ ·) }

/-- One call; the answer is that of `isRevoked`. -/
def step (client : Bool) (st : BlacklistStep) (s : Blacklist) : Option Bool × Blacklist :=
  match st.call with
  | .revoke jti expiresAt => (none, s.revoke client jti expiresAt st.now st.fails)
  | .isRevoked jti => Prod.map some id (s.isRevoked client jti st.now st.fails)
  | .cleanup => (none, s.cleanup st.now)

end Blacklist

/-- With a Redis client, a lookup that Redis answers before the end of an earlier revocation
returns true. -/
def StaysRevoked (steps : List BlacklistStep) : Prop :=
  ∀ earlier revocation between lookup later jti expiresAt,
    steps = earlier ++ revocation :: (between ++ lookup :: later) →
    revocation.call = .revoke jti expiresAt → lookup.call = .isRevoked jti →
    lookup.now < expiresAt → lookup.fails = false →
    ((final (Blacklist.step true) (earlier ++ revocation :: between) {}).isRevoked true jti
      lookup.now lookup.fails).1 = true

/-- A revocation reaches Redis and has a lifetime of whole seconds. -/
def BlacklistStep.Stored (st : BlacklistStep) : Prop :=
  ∀ jti expiresAt, st.call = .revoke jti expiresAt →
    st.fails = false ∧ (expiresAt - st.now) % 1000 = 0

/-- A later revocation of the same token does not end earlier. -/
def BlacklistStep.Prolongs (st st' : BlacklistStep) : Prop :=
  ∀ jti e e', st.call = .revoke jti e → st'.call = .revoke jti e' → e ≤ e'

namespace Blacklist

variable {jti : String} {expiresAt : Int} {st : BlacklistStep} {s : Blacklist}

/-- Redis knows the token as revoked until `expiresAt` at least. -/
def Covers (s : Blacklist) (jti : String) (expiresAt : Int) : Prop :=
  ∃ t, s.redis (blacklistKey jti) = some t ∧ expiresAt ≤ t

theorem covers_revoke (hst : st.Stored) (hcall : st.call = .revoke jti expiresAt) :
    (step true st s).2.Covers jti expiresAt := by
  obtain ⟨hfails, hwhole⟩ := hst jti expiresAt hcall
  refine ⟨st.now + max 1 ((expiresAt - st.now) / 1000) * 1000, ?_, by omega⟩
  simp [step, revoke, hcall, hfails]

/-- A step keeps what Redis knows, unless it revokes the token for a shorter time. -/
theorem Covers.step (h : s.Covers jti expiresAt) (hst : st.Stored)
    (hlonger : ∀ e, st.call = .revoke jti e → expiresAt ≤ e) :
    (Blacklist.step true st s).2.Covers jti expiresAt := by
  cases hcall : st.call with
  | revoke jti' e =>
    by_cases hsame : jti' = jti
    · subst hsame
      obtain ⟨t, ht, hle⟩ := covers_revoke (s := s) hst hcall
      exact ⟨t, ht, Int.le_trans (hlonger e hcall) hle⟩
    · have hkey : blacklistKey jti ≠ blacklistKey jti' := by
        simpa [blacklistKey] using Ne.symm hsame
      simpa [Blacklist.step, hcall, revoke, (hst jti' e hcall).1, Covers, hkey] using h
  | isRevoked jti' =>
    unfold Blacklist.step isRevoked
    simp only [hcall]
    repeat' split
    all_goals exact h
  | cleanup => simpa [Blacklist.step, hcall, cleanup, Covers] using h

theorem Covers.final (steps : List BlacklistStep) (h : s.Covers jti expiresAt)
    (hsteps : ∀ st ∈ steps, st.Stored)
    (hlonger : ∀ st ∈ steps, ∀ e, st.call = .revoke jti e → expiresAt ≤ e) :
    (Core.final (Blacklist.step true) steps s).Covers jti expiresAt := by
  induction steps generalizing s with
  | nil => exact h
  | cons st steps ih =>
    simp only [forall_mem_cons] at hsteps hlonger
    exact ih (h.step hsteps.1 hlonger.1) hsteps.2 hlonger.2

end Blacklist

variable {steps : List BlacklistStep}

/-- A revoked token stays revoked where Redis accepts every revocation, lifetimes are whole
seconds, and no revocation of a token ends before an earlier one of it. -/
theorem revoked_stays_revoked (hstored : ∀ st ∈ steps, st.Stored)
    (hprolongs : steps.Pairwise BlacklistStep.Prolongs) : StaysRevoked steps := by
  rintro earlier revocation between lookup later jti expiresAt rfl hrevoke - hbefore hserved
  simp only [mem_append, mem_cons, pairwise_append, pairwise_cons] at hstored hprolongs
  rw [final_append, hserved]
  obtain ⟨t, ht, hle⟩ := (Blacklist.covers_revoke
    (s := final (Blacklist.step true) earlier {}) (hstored revocation (by simp)) hrevoke).final
    between (fun st hst => hstored st (by simp [hst]))
    fun st hst e hcall => hprolongs.2.1.1 st (.inl hst) jti _ e hrevoke hcall
  simp [Blacklist.isRevoked, ht, Int.lt_of_lt_of_le hbefore hle]

def lookedUp : List BlacklistStep :=
  [{ call := .revoke "t" 5000, now := 0 }, { call := .isRevoked "t", now := 4999 }]

theorem lookedUp_revoked : StaysRevoked lookedUp :=
  revoked_stays_revoked (by simp [lookedUp, BlacklistStep.Stored])
    (by simp [lookedUp, BlacklistStep.Prolongs])

/-- A revocation that Redis does not accept is not seen by a lookup, and one of a second and a
half is forgotten after a second. -/
theorem failed_write_is_forgotten :
    ¬ StaysRevoked [{ call := .revoke "t" 60000, now := 0, fails := true },
      { call := .isRevoked "t", now := 1 }] ∧
    ¬ StaysRevoked [{ call := .revoke "t" 1500, now := 0 },
      { call := .isRevoked "t", now := 1200 }] := by
  constructor <;> intro h <;>
    exact absurd (h [] _ [] _ [] "t" _ rfl rfl rfl (by decide) rfl) (by decide)

end Trellis.Auth
