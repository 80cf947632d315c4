import Trellis.DistributedLock.Lease

/-!
# Mutual exclusion of locks

Every call keeps a contract: it makes a lock of a token, or sends its release, only if
the token is its own.
-/

namespace Trellis.DistributedLock

open Core

variable {N : Nat} {ι : Type}

/-! ## The contract of a caller -/

/-- What caller `i` relies on: nobody else claims its tokens. -/
def tokenContract (i : ι) : Contract (World N ι) where
  inv := LockInv
  rely w w' := w.Grows w' ∧
    ∀ token, w.owners.get token = some i → w.Unclaimed token → w'.Unclaimed token
  guar w w' := w.Grows w' ∧
    ∀ token j, j ≠ i → w.owners.get token = some j → w.Unclaimed token → w'.Unclaimed token

theorem guar_of_unclaimed {i : ι} {w w' : World N ι} (hgrows : w.Grows w')
    (h : ∀ token, w.owners.get token ≠ none → w.Unclaimed token → w'.Unclaimed token) :
    (tokenContract i).guar w w' := by
  refine ⟨hgrows, fun token j _ howner => h token ?_⟩
  rw [howner]
  exact Option.some_ne_none j

/-- No node executes an extension that makes it forget the key earlier. -/
def noShorterLease (N : Nat) (ι : Type) : Guard (redlockSemantics N ι) :=
  fun _ op _ w => match op with
    | .deliver message node => w.shortens message node = false
    | _ => True

abbrev Fact (N : Nat) (i : ι) : Type :=
  Assertion (tokenContract (N := N) i)

abbrev Keeps (i : ι) {α : Type} (P : Fact N i) (p : Program N α) (R : α → Fact N i) : Prop :=
  Triple (redlockSemantics N ι) (noShorterLease N ι) i P p R .top

section Assertions

variable (i : ι)

def owns (token : Token) : Fact N i where
  holds w := w.owners.get token = some i ∧ w.Unclaimed token
  stable _ _ hmove h :=
    ⟨hmove.2.2.1.owners token i h.1, hmove.2.2.2 token h.1 h.2⟩

def grown (P : World N ι → Prop) (hP : ∀ w w', w.Grows w' → P w → P w') : Fact N i where
  holds := P
  stable w w' hmove := hP w w' hmove.2.2.1

/-- It is `start` or later. -/
def since (start : ℤ) : Fact N i :=
  grown i (fun w => start ≤ w.clock) fun _ _ hgrows h => le_trans h hgrows.clock

/-- The command was sent at `start` or later. -/
def sentAs (start : ℤ) (command : Command) (message : Nat) : Fact N i :=
  grown i (fun w => ∃ b, w.messages.get message = some b ∧ b.command = command ∧
      start ≤ b.sentAt) fun _ _ hgrows h => by
    rcases h with ⟨b, hb, hcommand, hstart⟩
    rcases hgrows.messages message b hb with ⟨b', hb', hgrows'⟩
    exact ⟨b', hb', hgrows'.command.trans hcommand, hstart.trans_eq hgrows'.sentAt.symm⟩

/-- The command was sent at `start` or later, and so many nodes have executed it with
success. -/
def voted (start : ℤ) (command : Command) (votes : Nat) : Fact N i :=
  grown i (fun w => ∃ message b, w.messages.get message = some b ∧ b.command = command ∧
      start ≤ b.sentAt ∧ votes ≤ b.voters.card) fun _ _ hgrows h => by
    rcases h with ⟨message, b, hb, hcommand, hstart, hvotes⟩
    rcases hgrows.messages message b hb with ⟨b', hb', hgrows'⟩
    exact ⟨message, b', hb', hgrows'.command.trans hcommand,
      hstart.trans_eq hgrows'.sentAt.symm, hvotes.trans hgrows'.card_voters⟩

/-- A quorum has leased the key to the token until that time, if there is one. -/
def backed (key : String) (token : Token) (expiresAt : Option ℤ) : Fact N i :=
  grown i (fun w => ∀ e ∈ expiresAt, w.Backed key token e)
    fun _ _ hgrows h e he => hgrows.backed (h e he)

def lockIs (lock : Nat) (key : String) (token : Token) : Fact N i :=
  grown i (fun w => ∃ l, w.locks.get lock = some l ∧ l.key = key ∧ l.token = token)
    fun _ _ hgrows h => by
      rcases h with ⟨l, hl, hkey, htoken⟩
      rcases hgrows.locks lock l hl with ⟨l', hl', hgrows'⟩
      exact ⟨l', hl', hgrows'.key.trans hkey, hgrows'.token.trans htoken⟩

def isReleased (token : Token) : Fact N i :=
  grown i (fun w => ∃ id l, w.locks.get id = some l ∧ l.token = token ∧ l.released = true)
    fun _ _ hgrows h => by
      rcases h with ⟨id, l, hl, htoken, hreleased⟩
      rcases hgrows.locks id l hl with ⟨l', hl', hgrows'⟩
      exact ⟨id, l', hl', hgrows'.token.trans htoken, hgrows'.released hreleased⟩

end Assertions

/-! ## Operations -/

section Operations

variable {i : ι} {P : Fact N i}

theorem keeps_now : Keeps i P now fun t => P.and (since i t) := by
  refine triple_call fun w c r w' hinv hP _ hperf => ?_
  cases hperf
  exact ⟨hinv, guar_of_unclaimed (.refl _) fun _ _ h => h, hP, le_refl _⟩

theorem keeps_randomBytes : Keeps i P randomBytes (owns i) := by
  refine triple_call fun w c r w' hinv _ _ hperf => ?_
  cases hperf
  rcases hinv.draw i with ⟨hinv', hunclaimed⟩
  refine ⟨hinv', guar_of_unclaimed (grows_draw w i) fun _ _ h => h, ?_, hunclaimed⟩
  exact w.owners.get_push_self i

variable {command : Command}

theorem keeps_send {R : Nat → Fact N i} (hsend : ∀ w, LockInv w → P w → LockInv (w.send command) ∧
      (tokenContract i).guar w (w.send command) ∧ R w.messages.next (w.send command)) :
    Keeps i P (Async.call (I := redlockInterface N) (.send command) : Program N Nat) R := by
  refine triple_call fun w c r w' hinv hP _ hperf => ?_
  cases hperf
  exact hsend w hinv hP

variable {message : Nat}

theorem perform_collect {heard : Finset (Fin N)} {r : Except Failure Nat}
    {w w' : World N ι} (h : World.perform i heard (.collect message) w = some (r, w')) :
    w' = w ∧ r = .ok heard.card ∧ ∃ b, w.messages.get message = some b ∧ heard ⊆ b.voters := by
  cases hb : w.messages.get message with
  | none => simp [World.perform, hb] at h
  | some b =>
    simp only [World.perform, hb] at h
    split at h
    · rename_i hheard
      cases h
      exact ⟨rfl, rfl, b, rfl, fun n hn => mem_voters.mpr (hheard n hn)⟩
    · cases h

theorem keeps_collect {start : ℤ} : Keeps i (P.and (sentAs i start command message))
    (Async.call (I := redlockInterface N) (.collect message) : Program N Nat)
    fun votes => P.and (voted i start command votes) := by
  refine triple_call fun w c r w' hinv hP _ hperf => ?_
  rcases perform_collect (i := i) hperf with ⟨rfl, rfl, b, hb, hheard⟩
  rcases hP with ⟨hP, b', hb', hcommand, hstart⟩
  rw [hb] at hb'
  cases hb'
  exact ⟨hinv, guar_of_unclaimed (.refl _) fun _ _ h => h, hP, message, b, hb, hcommand, hstart,
    Finset.card_le_card hheard⟩

theorem keeps_onAllNodes (R : Fact N i) (start : ℤ) (hstart : ∀ w, P w → start ≤ w.clock)
    (hsend : ∀ w, LockInv w → P w → LockInv (w.send command) ∧
      (tokenContract i).guar w (w.send command) ∧ R (w.send command)) :
    Keeps i P (onAllNodes command) fun votes => R.and (voted i start command votes) := by
  refine triple_bind (R := fun message => R.and (sentAs i start command message))
    (keeps_send fun w hinv hP => ?_) fun _ => keeps_collect
  rcases hsend w hinv hP with ⟨hinv', hguar, hR⟩
  refine ⟨hinv', hguar, hR, ⟨command, w.clock, fun _ => none⟩, ?_, rfl, hstart w hP⟩
  exact w.messages.get_push_self _

theorem guar_send {w : World N ι} (hcommand : ∀ key token, command ≠ .release key token) :
    (tokenContract i).guar w (w.send command) := by
  refine guar_of_unclaimed (grows_send w command) fun token _ h => ⟨h.1, live_send h.2 ?_⟩
  intro key
  exact hcommand key token

variable {token : Token} {key : String}

theorem keeps_releaseRaw (hP : ∀ w, LockInv w → P w → token < w.owners.next ∧
      (∀ id lock, w.locks.get id = some lock → lock.released = false → lock.token ≠ token) ∧
      ∀ j, j ≠ i → w.owners.get token = some j → ¬w.Unclaimed token) :
    Keeps i P (releaseRaw key token) fun _ => .top := by
  have hsend : ∀ w, LockInv w → P w → LockInv (w.send (.release key token)) ∧
      (tokenContract i).guar w (w.send (.release key token)) := by
    intro w hinv hPw
    rcases hP w hinv hPw with ⟨htoken, hlocks, hother⟩
    refine ⟨hinv.send htoken ?_, grows_send w _, ?_⟩
    · intro key' token' heq
      cases heq
      exact hlocks
    · intro token' j hj howner hunclaimed
      have hne : token' ≠ token := by
        rintro rfl
        exact hother j hj howner hunclaimed
      refine ⟨hunclaimed.1, live_send hunclaimed.2 ?_⟩
      intro key' heq
      cases heq
      exact hne rfl
  have hcollect : ∀ message, Keeps (N := N) i .top
      (Async.call (I := redlockInterface N) (.collect message) : Program N Nat) fun _ => .top := by
    intro message
    refine triple_call fun w c r w' hinv _ _ hperf => ?_
    rcases perform_collect (i := i) hperf with ⟨rfl, rfl, _⟩
    exact ⟨hinv, guar_of_unclaimed (.refl _) fun _ _ h => h, trivial⟩
  have hanswers : Keeps i P (onAllNodes (.release key token)) fun _ => .top := by
    refine triple_bind (R := fun _ => .top) (keeps_send fun w hinv hPw => ?_) hcollect
    rcases hsend w hinv hPw with ⟨hinv', hguar⟩
    exact ⟨hinv', hguar, trivial⟩
  exact triple_bind hanswers fun _ => triple_return

theorem keeps_newLock {lock : Lock} (start ttlMs : ℤ) (votes : Nat)
    (hexpires : lock.expiresAt ≤ start + ttlMs) (hvotes : quorum N ≤ votes) : Keeps (N := N) i
      ((owns i lock.token).and (voted i start (.set lock.key lock.token ttlMs) votes))
      (newLock lock) fun _ => .top := by
  refine triple_call fun w c r w' hinv hP _ hperf => ?_
  cases hperf
  rcases hP with ⟨⟨howner, hunclaimed⟩, message, b, hb, hcommand, hstart, hcard⟩
  have hbacked : w.Backed lock.key lock.token lock.expiresAt :=
    ⟨message, b, ttlMs, hb, Or.inl hcommand, hvotes.trans hcard, by omega⟩
  refine ⟨hinv.newLock (w.owners.lt_next howner) hunclaimed hbacked,
    ⟨grows_newLock w lock, ?_⟩, trivial⟩
  intro token j hj howner' hunclaimed'
  refine ⟨?_, hunclaimed'.2⟩
  intro id l hl
  rcases w.locks.get_push_cases hl with ⟨_, rfl⟩ | hold
  · rintro rfl
    rw [howner] at howner'
    cases howner'
    exact hj rfl
  · exact hunclaimed'.1 id l hold

variable {lock : Nat}

theorem keeps_readLock :
    Keeps i P (readLock lock) fun this => lockIs i lock this.key this.token := by
  refine triple_call fun w c r w' hinv _ _ hperf => ?_
  rcases Option.map_eq_some_iff.mp hperf with ⟨l, hl, heq⟩
  cases heq
  exact ⟨hinv, guar_of_unclaimed (.refl _) fun _ _ h => h, l, hl, rfl, rfl⟩

theorem keeps_setExpiresAt {expiresAt : ℤ} :
    Keeps (N := N) i ((lockIs i lock key token).and (backed i key token (some expiresAt)))
      (setExpiresAt lock expiresAt) fun _ => .top := by
  refine triple_call fun w c r w' hinv hP _ hperf => ?_
  cases hperf
  rcases hP with ⟨⟨l, hl, rfl, rfl⟩, hbacked⟩
  have hgrows : ∀ lock : Lock, lock.Grows { lock with expiresAt } :=
    fun _ => ⟨rfl, rfl, fun h => h⟩
  refine ⟨hinv.modifyLock hgrows ?_, guar_of_unclaimed (grows_modifyLock hgrows w lock)
    fun _ _ => unclaimed_modifyLock hgrows, trivial⟩
  intro l' hl' _
  rw [hl] at hl'
  cases hl'
  exact hbacked expiresAt rfl

theorem keeps_setReleased :
    Keeps (N := N) i (lockIs i lock key token) (setReleased lock) fun _ => isReleased i token := by
  refine triple_call fun w c r w' hinv hP _ hperf => ?_
  cases hperf
  rcases hP with ⟨l, hl, _, rfl⟩
  have hgrows : ∀ lock : Lock, lock.Grows { lock with released := true } :=
    fun _ => ⟨rfl, rfl, fun _ => rfl⟩
  refine ⟨hinv.modifyLock hgrows ?_, guar_of_unclaimed (grows_modifyLock hgrows w lock)
    fun _ _ => unclaimed_modifyLock hgrows, lock, _, w.locks.get_modify_self _ hl, rfl, rfl⟩
  intro l' _ hreleased
  cases hreleased

theorem keeps_deliver {node : Fin N} : Keeps i P (deliver message node) fun _ => .top := by
  refine triple_call fun w c r w' hinv _ hguard hperf => ?_
  have hshort : w.shortens message node = false := hguard
  cases hb : w.messages.get message with
  | none => simp [redlockSemantics, World.perform, hb] at hperf
  | some b =>
    simp only [redlockSemantics, World.perform, hb] at hperf
    split at hperf
    · rename_i hnone
      cases hperf
      refine ⟨hinv.deliver hb hnone hshort, ?_, trivial⟩
      exact guar_of_unclaimed (grows_deliver hb hnone) fun _ _ h =>
        ⟨h.1, live_deliver hb h.2⟩
    · cases hperf

end Operations

/-! ## Calls -/

section Calls

variable {i : ι} (options : RedlockOptions) {ttlMs : ℤ}

theorem drift_nonneg (httl : 0 < ttlMs) : 0 ≤ options.drift ttlMs := by
  have hproduct : (0 : ℚ) ≤ ttlMs * options.driftFactor :=
    mul_nonneg (by exact_mod_cast httl.le) options.driftFactor_nonneg
  have hfloor := Int.floor_nonneg.mpr hproduct
  unfold RedlockOptions.drift
  omega

theorem keeps_acquireOnce (key : String) (httl : 0 < ttlMs) :
    Keeps (N := N) i .top (acquireOnce options key ttlMs) fun _ => .top := by
  have hdrift := drift_nonneg options httl
  refine triple_bind keeps_randomBytes fun token => ?_
  refine triple_bind keeps_now fun start => ?_
  refine triple_bind (keeps_onAllNodes (owns i token) start (fun w hP => hP.2)
    fun w hinv hP => ?_) fun votes => ?_
  · rcases hP with ⟨⟨howner, hunclaimed⟩, _⟩
    refine ⟨hinv.send (w.owners.lt_next howner) (fun _ _ h => by cases h),
      guar_send (fun _ _ h => by cases h), howner, hunclaimed.1, live_send hunclaimed.2 ?_⟩
    intro key' h
    cases h
  · refine triple_bind keeps_now fun current => ?_
    split
    · rename_i hquorum
      refine triple_bind (triple_pre (keeps_newLock start ttlMs votes ?_ hquorum.1)
        fun w _ hP => hP.1) fun lock => triple_return
      simp only
      omega
    · refine triple_bind (keeps_releaseRaw fun w _ hP => ?_) fun _ => triple_return
      rcases hP with ⟨⟨⟨howner, hunclaimed⟩, _⟩, _⟩
      refine ⟨w.owners.lt_next howner, fun id lock hlock _ => hunclaimed.1 id lock hlock, ?_⟩
      intro j hj howner'
      rw [howner] at howner'
      cases howner'
      exact absurd rfl hj

theorem keeps_acquireLoop (key : String) (httl : 0 < ttlMs) (turns : Nat) : Keeps (N := N) i .top
    (acquireLoop options key ttlMs turns) fun _ => .top := by
  induction turns with
  | zero => exact triple_return
  | succ turns ih =>
    refine triple_bind (keeps_acquireOnce options key httl) fun lock => ?_
    cases lock with
    | some lock => exact triple_return
    | none => exact ih

theorem keeps_acquire (name : String) (ttlMs : ℤ) (retryCount : Nat) :
    Keeps (N := N) i .top (acquire options name ttlMs retryCount) fun _ => .top := by
  unfold acquire
  split
  · exact triple_fail
  · rename_i httl
    exact keeps_acquireLoop options _ (not_le.mp httl) _

theorem keeps_extendRaw {lock : Nat} {key : String} {token : Token} :
    Keeps (N := N) i (lockIs i lock key token) (extendRaw options key token ttlMs)
      fun expiresAt => (lockIs i lock key token).and (backed i key token expiresAt) := by
  refine triple_bind keeps_now fun start => ?_
  refine triple_bind (keeps_onAllNodes (lockIs i lock key token) start (fun w hP => hP.2)
    fun w hinv hP => ?_) fun votes => ?_
  · rcases hP with ⟨⟨l, hl, hkey, htoken⟩, _⟩
    refine ⟨hinv.send ?_ (fun _ _ h => by cases h), guar_send (fun _ _ h => by cases h), l, hl,
      hkey, htoken⟩
    rw [Command.token, ← htoken]
    exact hinv.lock_tokens lock l hl
  · refine triple_bind keeps_now fun current => ?_
    split
    · rename_i hquorum
      refine triple_done fun w hinv hP => ⟨hP.1.1, ?_⟩
      intro e he
      cases he
      rcases hP with ⟨⟨_, message, b, hb, hcommand, hstart, hcard⟩, _⟩
      have hpos : 0 < b.voters.card := by
        have hone : 0 < quorum N := Nat.succ_pos _
        omega
      rcases Finset.card_pos.mp hpos with ⟨n, hn⟩
      have httl := hinv.extend_pos message b key token ttlMs n hb hcommand (mem_voters.mp hn)
      have hdrift := drift_nonneg options httl
      exact ⟨message, b, ttlMs, hb, Or.inr hcommand, hquorum.1.trans hcard, by omega⟩
    · exact triple_done fun w _ hP => ⟨hP.1.1, fun e he => by cases he⟩

theorem keeps_extend (lock : Nat) (ttlMs : ℤ) :
    Keeps (N := N) i .top (Lock.extend options lock ttlMs) fun _ => .top := by
  refine triple_bind keeps_readLock fun this => ?_
  split
  · exact triple_return
  · refine triple_bind (keeps_extendRaw options) fun expiresAt => ?_
    cases expiresAt with
    | none => exact triple_return
    | some expiresAt => exact triple_bind keeps_setExpiresAt fun _ => triple_return

theorem keeps_release (lock : Nat) : Keeps (N := N) i .top (Lock.release lock) fun _ => .top := by
  refine triple_bind keeps_readLock fun this => ?_
  split
  · exact triple_return
  · refine triple_bind keeps_setReleased fun _ => keeps_releaseRaw fun w hinv hP => ?_
    rcases hP with ⟨id, l, hl, htoken, hreleased⟩
    refine ⟨?_, ?_, ?_⟩
    · rw [← htoken]
      exact hinv.lock_tokens id l hl
    · -- the only lock with this token is the released one
      intro id' l' hl' hunreleased heq
      have hid := hinv.unique id id' l l' hl hl' (by rw [htoken, heq])
      rw [← hid, hl] at hl'
      cases hl'
      rw [hreleased] at hunreleased
      cases hunreleased
    · intro j _ _ hunclaimed
      exact hunclaimed.1 id l hl htoken

theorem keeps_deliverAll (deliveries : List (Nat × Fin N)) :
    Keeps (N := N) i .top (deliverAll deliveries) fun _ => .top := by
  induction deliveries with
  | nil => exact triple_return
  | cons delivery rest ih => exact triple_bind keeps_deliver fun _ => ih

theorem keeps_request (request : Request N) :
    Keeps (N := N) i .top (request.program options) fun _ => .top := by
  cases request with
  | acquire name ttlMs retryCount =>
    exact triple_bind (keeps_acquire options name ttlMs retryCount) fun _ => triple_return
  | extend lock ttlMs => exact triple_bind (keeps_extend options lock ttlMs) fun _ => triple_return
  | release lock => exact keeps_release lock
  | network deliveries => exact keeps_deliverAll deliveries

end Calls

/-! ## Runs -/

theorem compatible_tokenContract :
    Pool.Compatible (redlockSemantics N ι) (tokenContract (N := N)) LockInv where
  inv_eq _ := rfl
  guar_rely i j w w' hne hguar :=
    ⟨hguar.1, fun token howner => hguar.2 token i hne howner⟩
  happen_inv ms w hinv := hinv.tick ms
  happen_rely i ms w _ := by
    refine ⟨⟨?_, fun _ _ h => h, fun _ b h => ⟨b, h, .refl b⟩, fun _ l h => ⟨l, h, .refl l⟩⟩,
      fun _ _ h => h⟩
    simp only [redlockSemantics]
    omega

/-- In every run in which no node executes an extension that shortens its key, no two
locks for one key with different tokens are valid at the same time. -/
theorem locks_exclude_each_other [DecidableEq ι] (options : RedlockOptions) (now : ℤ)
    (requests : ι → Request N) {c : RedlockPool N ι}
    (hreach : Pool.Reach (redlockSemantics N ι) (noShorterLease N ι)
      (startPool options now requests) c) {id id' : Nat} {lock lock' : Lock}
    (hlock : c.world.locks.get id = some lock) (hlock' : c.world.locks.get id' = some lock')
    (hkey : lock.key = lock'.key) (htoken : lock.token ≠ lock'.token) :
    ¬(lock.isValid c.world.clock = true ∧ lock'.isValid c.world.clock = true) := by
  rintro ⟨hvalid, hvalid'⟩
  have hkept := hreach.keeps compatible_tokenContract (LockInv.start now)
    (fun i => keeps_request options (requests i)) fun _ => trivial
  exact htoken (hkept.world_inv.exclusive hlock hlock' hkey hvalid hvalid')

/-! ## Two clients and one node -/

instance : ∀ i op heard w, Decidable (noShorterLease N ι i op heard w) :=
  fun _ (op : Op N) _ w => match op with
    | .deliver message node => inferInstanceAs (Decidable (w.shortens message node = false))
    | .randomBytes | .now | .send _ | .collect _ | .newLock _ | .readLock _ | .setExpiresAt _ _
    | .setReleased _ => isTrue trivial

def defaultOptions : RedlockOptions where
  driftFactor_nonneg := by norm_num

/-- Two clients that lock the same name for ten seconds, an extension of the first lock
by one millisecond, and the deliveries of three commands. -/
def twoClients : Fin 4 → Request 1
  | 0 => .acquire "job" 10000 0
  | 1 => .acquire "job" 10000 0
  | 2 => .extend 0 1
  | 3 => .network [(0, 0), (1, 0), (2, 0)]

def firstLocks (c : RedlockPool 1 (Fin 4)) : ℤ × Option Lock × Option Lock :=
  (c.world.clock, c.world.locks.get 0, c.world.locks.get 1)

abbrev Turn : Type :=
  Pool.Pick (redlockSemantics 1 (Fin 4))

def turn (i : Fin 4) (heard : Finset (Fin 1)) : Turn :=
  .call i heard

def wait (ms : Nat) : Turn :=
  .event ms

def acquires (i : Fin 4) : List Turn :=
  [turn i ∅, turn i ∅, turn i ∅, turn 3 ∅, turn i {0}, turn i ∅, turn i ∅]

def extendsFirst : List Turn :=
  [turn 2 ∅, turn 2 ∅, turn 2 ∅, turn 3 ∅, turn 2 {0}, turn 2 ∅]

def lockFrom (start : ℤ) (token : Token) : Lock where
  key := "trellis:lock:job"
  token := token
  expiresAt := start + 9898

/-- When the first lock has run out, the second client gets its own, and they are not both
valid. -/
theorem second_lock_after_expiry : ∃ c, Pool.Reach (redlockSemantics 1 (Fin 4))
      (noShorterLease 1 (Fin 4)) (startPool defaultOptions 0 twoClients) c ∧
    firstLocks c = (10000, some (lockFrom 0 0), some (lockFrom 10000 1)) ∧
      ¬((lockFrom 0 0).isValid c.world.clock = true ∧
        (lockFrom 10000 1).isValid c.world.clock = true) := by
  refine Pool.exists_run (acquires 0 ++ wait 10000 :: acquires 1) firstLocks
    (10000, some (lockFrom 0 0), some (lockFrom 10000 1)) (by decide +kernel)
    fun c hreach hlocks => ?_
  refine ⟨hlocks, ?_⟩
  exact locks_exclude_each_other defaultOptions 0 twoClients hreach
    (congrArg (fun x => x.2.1) hlocks) (congrArg (fun x => x.2.2) hlocks) rfl (by decide)

/-- An extension by one millisecond fails and leaves the first lock valid, but the node
forgets its key; the second client gets a lock of its own. -/
theorem short_extension_admits_second_lock : ∃ c, Pool.Reach (redlockSemantics 1 (Fin 4))
      (anyStep _) (startPool defaultOptions 0 twoClients) c ∧
    firstLocks c = (2, some (lockFrom 0 0), some (lockFrom 2 1)) ∧
      (lockFrom 0 0).isValid 2 = true ∧ (lockFrom 2 1).isValid 2 = true ∧
        (lockFrom 0 0).token ≠ (lockFrom 2 1).token := by
  refine Pool.exists_run (acquires 0 ++ extendsFirst ++ wait 2 :: acquires 1) firstLocks
    (2, some (lockFrom 0 0), some (lockFrom 2 1)) (by decide +kernel) fun c hreach hlocks => ?_
  exact ⟨hlocks, by decide, by decide, by decide⟩

end Trellis.DistributedLock
