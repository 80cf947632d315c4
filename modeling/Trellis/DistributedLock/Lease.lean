import Trellis.DistributedLock.Redlock

/-!
# Leases on the nodes

A node that has set or extended a key keeps the token until the command's `ttl` after it was sent,
unless the token is released or an extension shortens the key. A lock that has not been released
is backed by such leases on a quorum of nodes.
-/

namespace Trellis.DistributedLock

open Core Expiring Broadcast Finset Command

variable {N : Nat} {ι : Type}

/-! ## Tokens and leases -/

def Command.token : Command → Token
  | set _ token _ => token
  | extend _ token _ => token
  | release _ token => token

/-- The command, where it succeeds, makes a node keep the token for `ttlMs`. -/
def Command.Leases (command : Command) (key : String) (token : Token) (ttlMs : ℤ) : Prop :=
  command = .set key token ttlMs ∨ command = .extend key token ttlMs

def World.Live (w : World N ι) (token : Token) : Prop :=
  ∀ id b key, w.messages.get id = some b → b.command ≠ .release key token

/-- The token belongs to no lock and no release of it has been sent. -/
def World.Unclaimed (w : World N ι) (token : Token) : Prop :=
  (∀ id lock, w.locks.get id = some lock → lock.token ≠ token) ∧ w.Live token

/-- The nodes that have executed the command with success. -/
def Broadcast.voters (b : Broadcast N) : Finset (Fin N) :=
  Finset.univ.filter fun n => b.replies n = some true

variable {b : Broadcast N}

theorem mem_voters {n : Fin N} : n ∈ b.voters ↔ b.replies n = some true := by
  simp [voters]

/-- Some command that leases the key to the token until `expiresAt` or longer has
succeeded on a quorum of nodes. -/
def World.Backed (w : World N ι) (key : String) (token : Token) (expiresAt : ℤ) : Prop :=
  ∃ id b ttlMs, w.messages.get id = some b ∧ b.command.Leases key token ttlMs ∧
    quorum N ≤ b.voters.card ∧ expiresAt ≤ b.sentAt + ttlMs

structure LockInv (w : World N ι) : Prop where
  sent : ∀ id b, w.messages.get id = some b → b.sentAt ≤ w.clock
  message_tokens : ∀ id b, w.messages.get id = some b → b.command.token < w.owners.next
  lock_tokens : ∀ id lock, w.locks.get id = some lock → lock.token < w.owners.next
  unique : ∀ id id' lock lock', w.locks.get id = some lock → w.locks.get id' = some lock' →
    lock.token = lock'.token → id = id'
  leases : ∀ id b key token ttlMs n, w.messages.get id = some b →
    b.command.Leases key token ttlMs → b.replies n = some true → w.Live token →
      w.clock < b.sentAt + ttlMs →
        ∃ deadline, w.cells n key = some ⟨token, deadline⟩ ∧ b.sentAt + ttlMs ≤ deadline
  extend_pos : ∀ id b key token ttlMs n, w.messages.get id = some b →
    b.command = .extend key token ttlMs → b.replies n = some true → 0 < ttlMs
  backed : ∀ id lock, w.locks.get id = some lock → lock.released = false →
    w.Live lock.token ∧ w.Backed lock.key lock.token lock.expiresAt

/-! ## Two valid locks -/

variable {b b' : Broadcast N}

theorem exists_common_voter (h : quorum N ≤ b.voters.card) (h' : quorum N ≤ b'.voters.card) :
    ∃ n, b.replies n = some true ∧ b'.replies n = some true := by
  have hcard : (univ : Finset (Fin N)).card < b.voters.card + b'.voters.card := by
    rw [card_univ, Fintype.card_fin]
    unfold quorum at h h'
    omega
  rcases inter_nonempty_of_card_lt_card_add_card (subset_univ b.voters)
    (subset_univ b'.voters) hcard with ⟨n, hn⟩
  rw [mem_inter, mem_voters, mem_voters] at hn
  exact ⟨n, hn⟩

/-- A node cannot hold the key for two tokens. -/
theorem LockInv.exclusive {w : World N ι} (hw : LockInv w) {id id' : Nat} {lock lock' : Lock}
    (hlock : w.locks.get id = some lock) (hlock' : w.locks.get id' = some lock')
    (hkey : lock.key = lock'.key) (hvalid : lock.isValid w.clock = true)
    (hvalid' : lock'.isValid w.clock = true) : lock.token = lock'.token := by
  simp only [Lock.isValid, Bool.and_eq_true, Bool.not_eq_true', decide_eq_true_eq] at hvalid hvalid'
  rcases hw.backed id lock hlock hvalid.1 with ⟨hlive, m, b, ttlMs, hb, hleases, hq, hexp⟩
  rcases hw.backed id' lock' hlock' hvalid'.1 with
    ⟨hlive', m', b', ttlMs', hb', hleases', hq', hexp'⟩
  rcases exists_common_voter hq hq' with ⟨n, hn, hn'⟩
  rcases hw.leases m b _ _ _ n hb hleases hn hlive (by omega) with ⟨d, hcell, _⟩
  rcases hw.leases m' b' _ _ _ n hb' hleases' hn' hlive' (by omega) with ⟨d', hcell', _⟩
  rw [hkey, hcell'] at hcell
  injection hcell with hentry
  injection hentry with htoken
  exact htoken.symm

/-! ## Worlds that grow -/

/-- A command keeps its text, and a success is never taken back. -/
structure Broadcast.Grows (b b' : Broadcast N) : Prop where
  command : b'.command = b.command
  sentAt : b'.sentAt = b.sentAt
  replies : ∀ n, b.replies n = some true → b'.replies n = some true

/-- A lock keeps its key and token, and is never un-released. -/
structure Lock.Grows (lock lock' : Lock) : Prop where
  key : lock'.key = lock.key
  token : lock'.token = lock.token
  released : lock.released = true → lock'.released = true

structure World.Grows (w w' : World N ι) : Prop where
  clock : w.clock ≤ w'.clock
  owners : ∀ token i, w.owners.get token = some i → w'.owners.get token = some i
  messages : ∀ id b, w.messages.get id = some b → ∃ b', w'.messages.get id = some b' ∧ b.Grows b'
  locks : ∀ id lock, w.locks.get id = some lock →
    ∃ lock', w'.locks.get id = some lock' ∧ lock.Grows lock'

theorem Broadcast.Grows.refl (b : Broadcast N) : b.Grows b :=
  ⟨rfl, rfl, fun _ h => h⟩

theorem Lock.Grows.refl (lock : Lock) : lock.Grows lock :=
  ⟨rfl, rfl, fun h => h⟩

theorem World.Grows.refl (w : World N ι) : w.Grows w :=
  ⟨le_refl _, fun _ _ h => h, fun _ b h => ⟨b, h, .refl b⟩, fun _ lock h => ⟨lock, h, .refl lock⟩⟩

theorem Broadcast.Grows.card_voters (h : b.Grows b') : b.voters.card ≤ b'.voters.card := by
  apply card_le_card
  intro n hn
  rw [mem_voters] at hn ⊢
  exact h.replies n hn

variable {token : Token} {key : String}

theorem World.Grows.backed {w w' : World N ι} (h : w.Grows w')
    {expiresAt : ℤ} (hbacked : w.Backed key token expiresAt) : w'.Backed key token expiresAt := by
  rcases hbacked with ⟨id, b, ttlMs, hb, hleases, hquorum, hexpires⟩
  rcases h.messages id b hb with ⟨b', hb', hgrows⟩
  refine ⟨id, b', ttlMs, hb', ?_, hquorum.trans hgrows.card_voters, ?_⟩
  · rw [hgrows.command]
    exact hleases
  · rw [hgrows.sentAt]
    exact hexpires

theorem World.Grows.live {w w' : World N ι} (h : w.Grows w')
    (hlive : w'.Live token) : w.Live token := by
  intro id b key hb
  rcases h.messages id b hb with ⟨b', hb', hgrows⟩
  rw [← hgrows.command]
  exact hlive id b' key hb'

/-! ## Drawing tokens and sending commands -/

section Moves

variable {w : World N ι}

theorem LockInv.start (now : ℤ) : LockInv (World.start now : World N ι) := by
  constructor <;> intros <;> simp_all [World.start, Slots.empty]

theorem LockInv.tick (hw : LockInv w) (ms : Nat) : LockInv { w with clock := w.clock + ms } :=
  { hw with
    sent id b hb := by
      have hsent := hw.sent id b hb
      simp only
      omega
    leases id b key token ttlMs n hb hleases hreply hlive hclock := by
      simp only at hclock
      exact hw.leases id b key token ttlMs n hb hleases hreply hlive (by omega) }

theorem LockInv.draw (hw : LockInv w) (i : ι) :
    LockInv { w with owners := w.owners.push i } ∧ w.Unclaimed w.owners.next := by
  constructor
  · exact
      { sent := hw.sent
        message_tokens := fun id b hb => Nat.lt_succ_of_lt (hw.message_tokens id b hb)
        lock_tokens := fun id lock hlock => Nat.lt_succ_of_lt (hw.lock_tokens id lock hlock)
        unique := hw.unique
        leases := hw.leases
        extend_pos := hw.extend_pos
        backed := hw.backed }
  · constructor
    · intro id lock hlock heq
      have hlt := hw.lock_tokens id lock hlock
      rw [heq] at hlt
      exact Nat.lt_irrefl _ hlt
    · intro id b key hb heq
      have hlt := hw.message_tokens id b hb
      rw [heq] at hlt
      exact Nat.lt_irrefl _ hlt

theorem grows_draw (w : World N ι) (i : ι) : w.Grows { w with owners := w.owners.push i } where
  clock := le_refl _
  owners _ _ h := w.owners.get_push_of_some i h
  messages _ b h := ⟨b, h, .refl b⟩
  locks _ lock h := ⟨lock, h, .refl lock⟩

theorem grows_send (w : World N ι) (command : Command) : w.Grows (w.send command) where
  clock := le_refl _
  owners _ _ h := h
  messages _ b h := ⟨b, w.messages.get_push_of_some _ h, .refl b⟩
  locks _ lock h := ⟨lock, h, .refl lock⟩

variable {command : Command}

theorem live_send (h : w.Live token)
    (hcommand : ∀ key, command ≠ .release key token) : (w.send command).Live token := by
  intro id b key hb
  rcases w.messages.get_push_cases hb with ⟨_, rfl⟩ | hold
  · exact hcommand key
  · exact h id b key hold

theorem LockInv.send (hw : LockInv w) (htoken : command.token < w.owners.next)
    (hrelease : ∀ key token, command = .release key token → ∀ id lock,
      w.locks.get id = some lock → lock.released = false → lock.token ≠ token) :
    LockInv (w.send command) :=
  { hw with
    sent id b hb := by
      rcases w.messages.get_push_cases hb with ⟨_, rfl⟩ | hold
      · exact le_refl _
      · exact hw.sent id b hold
    message_tokens id b hb := by
      rcases w.messages.get_push_cases hb with ⟨_, rfl⟩ | hold
      · exact htoken
      · exact hw.message_tokens id b hold
    leases id b key token ttlMs n hb hleases hreply hlive hclock := by
      rcases w.messages.get_push_cases hb with ⟨_, rfl⟩ | hold
      · cases hreply
      · exact hw.leases id b key token ttlMs n hold hleases hreply
          ((grows_send w _).live hlive) hclock
    extend_pos id b key token ttlMs n hb hextend hreply := by
      rcases w.messages.get_push_cases hb with ⟨_, rfl⟩ | hold
      · cases hreply
      · exact hw.extend_pos id b key token ttlMs n hold hextend hreply
    backed id lock hlock hreleased := by
      rcases hw.backed id lock hlock hreleased with ⟨hlive, hbacked⟩
      refine ⟨live_send hlive ?_, (grows_send w command).backed hbacked⟩
      intro key heq
      exact hrelease key lock.token heq id lock hlock hreleased rfl }

/-! ## Commands that are executed -/

theorem execute_keeps {now deadline : ℤ}
    (hnow : now < deadline) (hrelease : ∀ key, command ≠ .release key token)
    (hextend : ∀ key ttlMs, command = .extend key token ttlMs → deadline ≤ now + ttlMs) :
    ∃ deadline', (command.execute now (some ⟨token, deadline⟩)).2 = some ⟨token, deadline'⟩ ∧
      deadline ≤ deadline' := by
  have hread : read now (some (mk token deadline)) = some token :=
    read_of_lt hnow
  cases command with
  | set key other ttlMs => exact ⟨deadline, by simp [execute, hread], le_refl _⟩
  | extend key other ttlMs =>
    by_cases htoken : token = other
    · subst htoken
      exact ⟨now + ttlMs, by simp [execute, hread], hextend key ttlMs rfl⟩
    · exact ⟨deadline, by simp [execute, hread, htoken], le_refl _⟩
  | release key other =>
    by_cases htoken : token = other
    · subst htoken
      exact absurd rfl (hrelease key)
    · exact ⟨deadline, by simp [execute, hread, htoken], le_refl _⟩

theorem execute_leases {now ttlMs : ℤ} {cell : Cell} (hleases : command.Leases key token ttlMs)
    (hreply : (command.execute now cell).1 = true) :
    (command.execute now cell).2 = some ⟨token, now + ttlMs⟩ := by
  rcases hleases with rfl | rfl
  · by_cases hread : read now cell = none
    · simp [execute, hread]
    · simp [execute, hread] at hreply
  · by_cases hread : read now cell = some token
    · simp [execute, hread]
    · simp [execute, hread] at hreply

theorem held_of_extend {now ttlMs : ℤ} {cell : Cell}
    (hreply : ((extend key token ttlMs).execute now cell).1 = true) :
    ∃ deadline, cell = some ⟨token, deadline⟩ ∧ now < deadline := by
  by_cases hread : read now cell = some token
  · exact eq_some_of_read hread
  · simp [execute, hread] at hreply

/-- Executing the command would make the node forget the key earlier: it is an
extension by less than the key has left. -/
def World.shortens (w : World N ι) (message : Nat) (node : Fin N) : Bool :=
  match w.messages.get message with
  | some ⟨.extend key token ttlMs, _, _⟩ =>
    match w.cells node key with
    | some e => Expiring.read w.clock (some e) = some token ∧ w.clock + ttlMs < e.deadline
    | none => false
  | _ => false

variable {node : Fin N} {message : Nat}

theorem le_of_not_shortens {ttlMs deadline : ℤ} (hb : w.messages.get message = some b)
    (hcommand : b.command = .extend key token ttlMs)
    (hcell : w.cells node key = some ⟨token, deadline⟩) (hclock : w.clock < deadline)
    (h : w.shortens message node = false) : deadline ≤ w.clock + ttlMs := by
  rcases b with ⟨command, sentAt, replies⟩
  cases hcommand
  have hread : read w.clock (some (mk token deadline)) = some token :=
    read_of_lt hclock
  simp only [World.shortens, hb, hcell, hread, true_and, decide_eq_false_iff_not, not_lt] at h
  exact h

/-! ## Deliveries -/

theorem cells_deliver_self (w : World N ι) (message : Nat) (b : Broadcast N) (node : Fin N) :
    (w.deliver message b node).cells node b.command.key =
      (b.command.execute w.clock (w.cells node b.command.key)).2 := by
  simp [World.deliver, World.write]

theorem cells_deliver_of_ne (w : World N ι) (message : Nat) (b : Broadcast N) {node n : Fin N}
    (h : ¬(n = node ∧ key = b.command.key)) :
    (w.deliver message b node).cells n key = w.cells n key := by
  by_cases hn : n = node
  · subst hn
    have hkey : key ≠ b.command.key := fun hkey => h ⟨rfl, hkey⟩
    simp [World.deliver, World.write, hkey]
  · simp [World.deliver, World.write, hn]

theorem messages_deliver_cases {message id : Nat} (hb : w.messages.get message = some b)
    (h : (w.deliver message b node).messages.get id = some b') : (id = message ∧ b' = b.answer node
        (b.command.execute w.clock (w.cells node b.command.key)).1) ∨
      w.messages.get id = some b' := by
  rcases w.messages.get_modify_cases h with ⟨rfl, a, ha, rfl⟩ | ⟨_, hold⟩
  · rw [hb] at ha
    cases ha
    exact Or.inl ⟨rfl, rfl⟩
  · exact Or.inr hold

theorem grows_deliver (hb : w.messages.get message = some b) (hreply : b.replies node = none) :
    w.Grows (w.deliver message b node) where
  clock := le_refl _
  owners _ _ h := h
  messages id b' hb' := by
    by_cases hid : id = message
    · subst hid
      rw [hb] at hb'
      cases hb'
      refine ⟨_, w.messages.get_modify_self _ hb, rfl, rfl, fun n hn => ?_⟩
      by_cases hnode : n = node
      · subst hnode
        rw [hreply] at hn
        cases hn
      · simpa [answer, hnode] using hn
    · refine ⟨b', ?_, .refl b'⟩
      exact (w.messages.get_modify_of_ne _ hid).trans hb'
  locks _ lock h := ⟨lock, h, .refl lock⟩

theorem command_deliver {message id : Nat} (hb : w.messages.get message = some b)
    (h : (w.deliver message b node).messages.get id = some b') :
    ∃ a, w.messages.get id = some a ∧ b'.command = a.command ∧ b'.sentAt = a.sentAt := by
  rcases messages_deliver_cases hb h with ⟨rfl, rfl⟩ | hold
  · exact ⟨b, hb, rfl, rfl⟩
  · exact ⟨b', hold, rfl, rfl⟩

theorem live_deliver (hb : w.messages.get message = some b) (h : w.Live token) :
    (w.deliver message b node).Live token := by
  intro id b' key hb'
  rcases command_deliver hb hb' with ⟨a, ha, hcommand, _⟩
  rw [hcommand]
  exact h id a key ha

theorem lease_deliver {node n : Fin N} {deadline : ℤ} (hb : w.messages.get message = some b)
    (hshort : w.shortens message node = false) (hlive : w.Live token)
    (hclock : w.clock < deadline) (hcell : w.cells n key = some ⟨token, deadline⟩) :
    ∃ deadline', (w.deliver message b node).cells n key = some ⟨token, deadline'⟩ ∧
      deadline ≤ deadline' := by
  by_cases hsame : n = node ∧ key = b.command.key
  · rcases hsame with ⟨rfl, rfl⟩
    rw [cells_deliver_self, hcell]
    apply execute_keeps hclock
    · intro key
      exact hlive message b key hb
    · intro key' ttlMs hextend
      have hkey : b.command.key = key' := by
        rw [hextend]
        rfl
      rw [hkey] at hcell
      exact le_of_not_shortens hb hextend hcell hclock hshort
  · rw [cells_deliver_of_ne w message b hsame]
    exact ⟨deadline, hcell, le_refl _⟩

/-- Executing a command keeps the invariant, unless it shortens a lease. -/
theorem LockInv.deliver (hw : LockInv w)
    (hb : w.messages.get message = some b) (hnone : b.replies node = none)
    (hshort : w.shortens message node = false) : LockInv (w.deliver message b node) := by
  have hgrows := grows_deliver hb hnone
  constructor
  · intro id b' hb'
    rcases command_deliver hb hb' with ⟨a, ha, _, hsentAt⟩
    rw [hsentAt]
    exact hw.sent id a ha
  · intro id b' hb'
    rcases command_deliver hb hb' with ⟨a, ha, hcommand, _⟩
    rw [hcommand]
    exact hw.message_tokens id a ha
  · exact hw.lock_tokens
  · exact hw.unique
  · intro id b' key token ttlMs n hb' hleases hreply hlive hclock
    have hold : ∀ a, w.messages.get id = some a → a.command.Leases key token ttlMs →
        a.replies n = some true → w.clock < a.sentAt + ttlMs →
          ∃ deadline, (w.deliver message b node).cells n key = some ⟨token, deadline⟩ ∧
            a.sentAt + ttlMs ≤ deadline := by
      intro a ha haleases hareply haclock
      rcases hw.leases id a key token ttlMs n ha haleases hareply (hgrows.live hlive) haclock
        with ⟨deadline, hcell, hle⟩
      rcases lease_deliver hb hshort (hgrows.live hlive) (by omega) hcell
        with ⟨deadline', hcell', hle'⟩
      exact ⟨deadline', hcell', by omega⟩
    rcases messages_deliver_cases hb hb' with ⟨rfl, rfl⟩ | hbefore
    · by_cases hn : n = node
      · -- the node that executes the command now
        subst hn
        have hsuccess : (b.command.execute w.clock (w.cells n b.command.key)).1 = true := by
          simpa [answer] using hreply
        have hkey : key = b.command.key := by
          rcases hleases with h | h
          · exact (congrArg Command.key h).symm
          · exact (congrArg Command.key h).symm
        have hlease := execute_leases hleases hsuccess
        have hsent := hw.sent id b hb
        refine ⟨w.clock + ttlMs, ?_, ?_⟩
        · rw [hkey, cells_deliver_self]
          exact hlease
        · simp only [answer]
          omega
      · have hbefore : b.replies n = some true := by
          simpa [answer, hn] using hreply
        exact hold b hb hleases hbefore hclock
    · exact hold b' hbefore hleases hreply hclock
  · intro id b' key token ttlMs n hb' hextend hreply
    rcases messages_deliver_cases hb hb' with ⟨rfl, rfl⟩ | hbefore
    · by_cases hn : n = node
      · subst hn
        have hcommand : b.command = .extend key token ttlMs := hextend
        have hsuccess : (b.command.execute w.clock (w.cells n b.command.key)).1 = true := by
          simpa [answer] using hreply
        rw [hcommand] at hsuccess
        rcases held_of_extend hsuccess with ⟨deadline, hcell, hdeadline⟩
        have hle := le_of_not_shortens hb hcommand hcell hdeadline hshort
        omega
      · have hbefore : b.replies n = some true := by
          simpa [answer, hn] using hreply
        exact hw.extend_pos id b key token ttlMs n hb hextend hbefore
    · exact hw.extend_pos id b' key token ttlMs n hbefore hextend hreply
  · intro id lock hlock hreleased
    rcases hw.backed id lock hlock hreleased with ⟨hlive, hbacked⟩
    exact ⟨live_deliver hb hlive, hgrows.backed hbacked⟩

/-! ## Lock objects -/

theorem grows_newLock (w : World N ι) (lock : Lock) :
    w.Grows { w with locks := w.locks.push lock } where
  clock := le_refl _
  owners _ _ h := h
  messages _ b h := ⟨b, h, .refl b⟩
  locks _ l h := ⟨l, w.locks.get_push_of_some lock h, .refl l⟩

theorem LockInv.newLock (hw : LockInv w) {lock : Lock} (htoken : lock.token < w.owners.next)
    (hunclaimed : w.Unclaimed lock.token) (hbacked : w.Backed lock.key lock.token lock.expiresAt) :
    LockInv { w with locks := w.locks.push lock } :=
  { hw with
    lock_tokens id l hl := by
      rcases w.locks.get_push_cases hl with ⟨_, rfl⟩ | hold
      · exact htoken
      · exact hw.lock_tokens id l hold
    unique id id' l l' hl hl' heq := by
      rcases w.locks.get_push_cases hl with ⟨hid, rfl⟩ | hold
      · rcases w.locks.get_push_cases hl' with ⟨hid', _⟩ | hold'
        · rw [hid, hid']
        · exact absurd heq.symm (hunclaimed.1 id' l' hold')
      · rcases w.locks.get_push_cases hl' with ⟨_, rfl⟩ | hold'
        · exact absurd heq (hunclaimed.1 id l hold)
        · exact hw.unique id id' l l' hold hold' heq
    backed id l hl hreleased := by
      rcases w.locks.get_push_cases hl with ⟨_, rfl⟩ | hold
      · exact ⟨hunclaimed.2, hbacked⟩
      · exact hw.backed id l hold hreleased }

variable {f : Lock → Lock}

variable (hf : ∀ lock : Lock, lock.Grows (f lock))
include hf

theorem grows_modifyLock (w : World N ι) (id : Nat) :
    w.Grows { w with locks := w.locks.modify id f } where
  clock := le_refl _
  owners _ _ h := h
  messages _ b h := ⟨b, h, .refl b⟩
  locks n l h := by
    by_cases hn : n = id
    · subst hn
      exact ⟨f l, w.locks.get_modify_self f h, hf l⟩
    · exact ⟨l, (w.locks.get_modify_of_ne f hn).trans h, .refl l⟩

theorem unclaimed_modifyLock {id : Nat}
    (h : w.Unclaimed token) : World.Unclaimed { w with locks := w.locks.modify id f } token := by
  refine ⟨?_, h.2⟩
  intro n l hl
  rcases w.locks.get_modify_cases hl with ⟨_, a, ha, rfl⟩ | ⟨_, hold⟩
  · rw [(hf a).token]
    exact h.1 id a ha
  · exact h.1 n l hold

theorem LockInv.modifyLock (hw : LockInv w) {id : Nat}
    (hbacked : ∀ lock, w.locks.get id = some lock → (f lock).released = false →
      w.Backed lock.key lock.token (f lock).expiresAt) :
    LockInv { w with locks := w.locks.modify id f } :=
  { hw with
    lock_tokens n l hl := by
      rcases w.locks.get_modify_cases hl with ⟨_, a, ha, rfl⟩ | ⟨_, hold⟩
      · rw [(hf a).token]
        exact hw.lock_tokens id a ha
      · exact hw.lock_tokens n l hold
    unique n n' l l' hl hl' heq := by
      have hbefore : ∀ n l, (w.locks.modify id f).get n = some l →
          ∃ a, w.locks.get n = some a ∧ l.token = a.token := by
        intro n l hl
        rcases w.locks.get_modify_cases hl with ⟨rfl, a, ha, rfl⟩ | ⟨_, hold⟩
        · exact ⟨a, ha, (hf a).token⟩
        · exact ⟨l, hold, rfl⟩
      rcases hbefore n l hl with ⟨a, ha, htoken⟩
      rcases hbefore n' l' hl' with ⟨a', ha', htoken'⟩
      exact hw.unique n n' a a' ha ha' (by rw [← htoken, ← htoken', heq])
    backed n l hl hreleased := by
      rcases w.locks.get_modify_cases hl with ⟨_, a, ha, rfl⟩ | ⟨_, hold⟩
      · have hbefore : a.released = false := by
          by_contra htrue
          rw [(hf a).released (Bool.eq_true_of_not_eq_false htrue)] at hreleased
          cases hreleased
        rw [(hf a).key, (hf a).token]
        exact ⟨(hw.backed id a ha hbefore).1, hbacked a ha hreleased⟩
      · exact hw.backed n l hold hreleased }

end Moves

end Trellis.DistributedLock
