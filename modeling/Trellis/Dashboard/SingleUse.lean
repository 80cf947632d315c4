import Trellis.Core.Share
import Trellis.Dashboard.Ticket

/-!
# Tickets are used once

A ticket has two copies: Redis gives one to one caller, the memory of the issuing instance gives
the other. A ticket is used once in every run in which the copy in memory is accepted only where
Redis neither has given the ticket away nor holds it.
-/

namespace Trellis.Dashboard

open Core Function TicketState List Async

variable {ι π : Type}

/-! ## The property and the condition -/

def Accepts (calls : ι → TicketCall)
    (c : Pool ticketInterface Failure ι (TicketWorld ι π) TicketAnswer) (ticket : String) (i : ι) :
    Prop :=
  calls i = .validate ticket ∧ ∃ data, c.calls i = .done (.validated data) ∧ data ≠ .null

/-- The copy in memory is accepted only where Redis neither holds the ticket nor has given it to a
caller. -/
def exclusive [DecidableEq ι] [DecidableEq π] (process : ι → π) : Guard (ticketSemantics process) :=
  fun i op c w => match op, (c : TicketChoice) with
    | .checkMemory ticket rawPayload, .served time =>
      isTruthyText rawPayload = false →
      ((w ticket).payloadAt (process i) rawPayload time).isSome = true →
        (w ticket).redis = none ∧ (w ticket).given = []
    | _, _ => True

/-- A client that reads and deletes a ticket in one command. -/
def TicketConfig.takesAtOnce (cfg : TicketConfig) : Bool :=
  match cfg.redis with
  | some client => client.eval || client.getdel || !client.get
  | none => true

/-! ## One ticket -/

structure Untouched (s : TicketState ι π) : Prop where
  redis : s.redis = none
  memory : ∀ p, s.memory p = none
  given : s.given = []
  accepted : s.accepted = []

/-- The ticket is in one memory at most, Redis has given it away once at most, and whoever has
accepted it got it from Redis, or nobody can get it any more. -/
structure TicketOk (s : TicketState ι π) : Prop where
  unissued : s.stage = .unissued → Untouched s
  minted : ∀ i, s.stage = .minted i → Untouched s
  offered : ∀ i, s.stage = .offered i → ∀ p, s.memory p = none
  given_one : ∀ i ∈ s.given, ∀ j ∈ s.given, i = j
  held : s.redis ≠ none → s.given = [] ∧ s.accepted = []
  memory_one : ∀ p p', s.memory p ≠ none → s.memory p' ≠ none → p = p'
  accepted : ∀ i ∈ s.accepted, i ∈ s.given ∨
    (s.given = [] ∧ s.redis = none ∧ s.stage = .issued ∧ ∀ p, s.memory p = none)
  accepted_one : ∀ i ∈ s.accepted, ∀ j ∈ s.accepted, i = j

variable {s : TicketState ι π} {i : ι}

theorem TicketOk.of_none (hmemory : ∀ p, s.memory p = none) (hgiven : s.given = [])
    (haccepted : s.accepted = []) (hunissued : s.stage = .unissued → Untouched s)
    (hminted : ∀ i, s.stage = .minted i → Untouched s) : TicketOk s := by
  have hnobody : ∀ i, i ∉ s.given ∧ i ∉ s.accepted := by
    rw [hgiven, haccepted]
    exact fun _ => ⟨not_mem_nil, not_mem_nil⟩
  exact
    { unissued := hunissued
      minted := hminted
      offered := fun _ _ => hmemory
      given_one := fun i hi => ((hnobody i).1 hi).elim
      held := fun _ => ⟨hgiven, haccepted⟩
      memory_one := fun p _ hp => (hp (hmemory p)).elim
      accepted := fun i hi => ((hnobody i).2 hi).elim
      accepted_one := fun i hi => ((hnobody i).2 hi).elim }

theorem Untouched.ok (h : Untouched s) : TicketOk s :=
  .of_none h.memory h.given h.accepted (fun _ => h) fun _ _ => h

theorem Untouched.offer (h : Untouched s) (redis : Option String) :
    TicketOk { s with redis := redis, stage := .offered i } :=
  .of_none h.memory h.given h.accepted nofun nofun

theorem TicketOk.drop (h : TicketOk s) : TicketOk { s with redis := none } :=
  { h with
    unissued hstage := { h.unissued hstage with redis := rfl }
    minted i hstage := { h.minted i hstage with redis := rfl }
    held hredis := (hredis rfl).elim
    accepted i hi := (h.accepted i hi).imp_right fun ⟨hgiven, _, hrest⟩ => ⟨hgiven, rfl, hrest⟩ }

theorem TicketOk.shrink (h : TicketOk s) {memory : π → Option (String × Int)}
    (hmemory : ∀ p, memory p ≠ none → s.memory p ≠ none) :
    TicketOk { s with memory := memory } := by
  have hnone : ∀ p, s.memory p = none → memory p = none := fun p hp => by
    by_contra hsome
    exact hmemory p hsome hp
  exact
    { unissued := fun hstage =>
        { h.unissued hstage with memory := fun p => hnone p ((h.unissued hstage).memory p) }
      minted := fun i hstage =>
        { h.minted i hstage with memory := fun p => hnone p ((h.minted i hstage).memory p) }
      offered := fun i hstage p => hnone p (h.offered i hstage p)
      given_one := h.given_one
      held := h.held
      memory_one := fun p p' hp hp' => h.memory_one p p' (hmemory p hp) (hmemory p' hp')
      accepted := fun i hi => (h.accepted i hi).imp_right fun ⟨hgiven, hredis, hstage, hall⟩ =>
        ⟨hgiven, hredis, hstage, fun p => hnone p (hall p)⟩
      accepted_one := h.accepted_one }

theorem TicketOk.give (h : TicketOk s) (hredis : s.redis ≠ none) :
    TicketOk { s with redis := none, given := i :: s.given } := by
  obtain ⟨hgiven, haccepted⟩ := h.held hredis
  exact
    { unissued := fun hstage => (hredis (h.unissued hstage).redis).elim
      minted := fun j hstage => (hredis (h.minted j hstage).redis).elim
      offered := h.offered
      given_one := by
        rw [hgiven]
        intro j hj k hk
        rw [mem_singleton.mp hj, mem_singleton.mp hk]
      held := fun hnone => (hnone rfl).elim
      memory_one := h.memory_one
      accepted := fun j hj => by
        have hnone : j ∈ s.accepted := hj
        rw [haccepted] at hnone
        cases hnone
      accepted_one := h.accepted_one }

def InCreation (s : TicketState ι π) (i : ι) : Prop :=
  s.stage = .minted i ∨ s.stage = .offered i

variable (h : TicketOk s)
include h

theorem TicketOk.memory_of_creation (hstage : InCreation s i) (p : π) : s.memory p = none := by
  rcases hstage with hminted | hoffered
  · exact (h.minted i hminted).memory p
  · exact h.offered i hoffered p

theorem TicketOk.remember [DecidableEq π] (hstage : InCreation s i) (p : π) (entry : String × Int) :
    TicketOk { s with memory := update s.memory p (some entry), stage := .issued } :=
  { h with
    unissued hissued := by cases hissued
    minted _ hissued := by cases hissued
    offered _ hissued := by cases hissued
    memory_one := by
      have honly : ∀ q, update s.memory p (some entry) q ≠ none → q = p := by
        intro q hq
        by_contra hne
        rw [update_of_ne hne] at hq
        exact hq (h.memory_of_creation hstage q)
      intro q q' hq hq'
      rw [honly q hq, honly q' hq']
    accepted j hj := by
      rcases h.accepted j hj with hgiven | ⟨-, -, hissued, -⟩
      · exact Or.inl hgiven
      · rcases hstage with hminted | hoffered
        · rw [hissued] at hminted
          cases hminted
        · rw [hissued] at hoffered
          cases hoffered }

theorem TicketOk.accept (hgiven : i ∈ s.given) :
    TicketOk { s with accepted := i :: s.accepted } := by
  have hsome : s.given ≠ [] := ne_nil_of_mem hgiven
  have hall : ∀ j ∈ i :: s.accepted, j ∈ s.given := by
    intro j hj
    rcases mem_cons.mp hj with rfl | hj
    · exact hgiven
    · exact (h.accepted j hj).resolve_right fun hnone => hsome hnone.1
  exact
    { unissued := fun hstage => (hsome (h.unissued hstage).given).elim
      minted := fun j hstage => (hsome (h.minted j hstage).given).elim
      offered := h.offered
      given_one := h.given_one
      held := fun hredis => (hsome (h.held hredis).1).elim
      memory_one := h.memory_one
      accepted := fun j hj => Or.inl (hall j hj)
      accepted_one := fun j hj k hk => h.given_one j (hall j hj) k (hall k hk) }

theorem TicketOk.acceptCopy [DecidableEq π] {p : π} (hmemory : s.memory p ≠ none)
    (hredis : s.redis = none) (hgiven : s.given = []) :
    TicketOk { s.forget p with accepted := i :: s.accepted } := by
  have haccepted : s.accepted = [] := by
    refine eq_nil_iff_forall_not_mem.mpr fun j hj => ?_
    rcases h.accepted j hj with hmem | ⟨-, -, -, hnone⟩
    · rw [hgiven] at hmem
      cases hmem
    · exact hmemory (hnone p)
  have hstage : s.stage = .issued := by
    cases hstage : s.stage with
    | unissued => exact (hmemory ((h.unissued hstage).memory p)).elim
    | minted j => exact (hmemory ((h.minted j hstage).memory p)).elim
    | offered j => exact (hmemory (h.offered j hstage p)).elim
    | issued => rfl
  have hforgotten : ∀ q, (s.forget p).memory q = none := by
    intro q
    by_cases hq : q = p
    · subst hq
      exact update_self q none s.memory
    · by_contra hsome
      have hother : s.memory q ≠ none := by
        intro hnone
        refine hsome ?_
        change update s.memory p none q = none
        rw [update_of_ne hq]
        exact hnone
      exact hq (h.memory_one q p hother hmemory)
  have hstage' : ({ s.forget p with accepted := i :: s.accepted } : TicketState ι π).stage =
      .issued := hstage
  have hredis' : ({ s.forget p with accepted := i :: s.accepted } : TicketState ι π).redis =
      none := hredis
  exact
    { unissued := fun hother => by cases hstage'.symm.trans hother
      minted := fun j hother => by cases hstage'.symm.trans hother
      offered := fun _ _ => hforgotten
      given_one := h.given_one
      held := fun hother => (hother hredis').elim
      memory_one := fun q _ hq => (hq (hforgotten q)).elim
      accepted := fun _ _ => Or.inr ⟨hgiven, hredis, hstage, hforgotten⟩
      accepted_one := by
        rw [haccepted]
        intro j hj k hk
        rw [mem_singleton.mp hj, mem_singleton.mp hk] }

omit h

/-! ## Contracts -/

section Contracts

variable [DecidableEq ι]

/-- What a caller has to do with a ticket: it creates it, or Redis has given it the ticket. -/
structure TicketShare where
  minted : Bool
  offered : Bool
  given : Bool

def TicketState.shareOf (s : TicketState ι π) (i : ι) : TicketShare where
  minted := s.stage = .minted i
  offered := s.stage = .offered i
  given := i ∈ s.given

def KeepsAccepted (w w' : TicketWorld ι π) : Prop :=
  ∀ ticket, ∀ i ∈ (w ticket).accepted, i ∈ (w' ticket).accepted

abbrev ticketContract (i : ι) : Contract (TicketWorld ι π) :=
  shareContract (fun w => ∀ ticket, TicketOk (w ticket)) (fun i w ticket => (w ticket).shareOf i)
    KeepsAccepted i

abbrev TicketFact (π : Type) (i : ι) : Type :=
  Assertion (ticketContract (π := π) i)

theorem ticket_compatible [DecidableEq π] (process : ι → π) :
    Pool.Compatible (ticketSemantics process) (ticketContract (π := π))
      (fun w => ∀ ticket, TicketOk (w ticket)) := by
  have hexpire : ∀ (w : TicketWorld ι π) t ticket, update w t { w t with redis := none } ticket =
        if ticket = t then { w ticket with redis := none } else w ticket := by
    intro w t ticket
    by_cases ht : ticket = t
    · subst ht
      simp
    · simp [ht]
  refine shareContract_compatible (fun e w hw ticket => ?_) fun e w hw => ⟨fun i => ?_, ?_⟩
  · cases e with
    | expire t =>
      change TicketOk (update w t { w t with redis := none } ticket)
      rw [hexpire]
      split_ifs
      · exact (hw ticket).drop
      · exact hw ticket
    | cleanup p now =>
      refine (hw ticket).shrink fun q hq hnone => hq ?_
      by_cases hp : q = p
      · subst hp
        simp [hnone]
      · simpa [hp] using hnone
  · cases e with
    | expire t =>
      funext ticket
      change (update w t { w t with redis := none } ticket).shareOf i = _
      rw [hexpire]
      split_ifs <;> rfl
    | cleanup p now => rfl
  · intro ticket i hi
    cases e with
    | expire t =>
      change i ∈ (update w t { w t with redis := none } ticket).accepted
      rw [hexpire]
      split_ifs <;> exact hi
    | cleanup p now => exact hi

/-! ## Operations -/

variable [DecidableEq π] {process : ι → π} {ticket : String}

abbrev TicketTriple (process : ι → π) (i : ι) {α : Type}
    (P : TicketFact π i) (p : Async ticketInterface Failure α)
    (R : α → TicketFact π i) (E : TicketFact π i) :
    Prop :=
  Triple (ticketSemantics process) (exclusive process) i P p R E

theorem triple_ticket {op : TicketOp} {P E : TicketFact π i} {R : op.Res → TicketFact π i}
    (hstep : ∀ w c r w', (∀ t, TicketOk (w t)) → P w → exclusive process i op c w →
      TicketWorld.perform process i op c w = some (r, w') → ∃ t s, w' = update w t s ∧ TicketOk s ∧
        (∀ j, j ≠ i → s.shareOf j = (w t).shareOf j) ∧ (∀ j ∈ (w t).accepted, j ∈ s.accepted) ∧
        outcome R E r w') : TicketTriple process i P (ask op) R E := by
  refine triple_call fun w c r w' hinv hP hg hperf => ?_
  obtain ⟨t, s, rfl, hok, hshare, haccepted, hr⟩ := hstep w c r w' hinv hP hg hperf
  refine ⟨fun ticket => ?_, ⟨fun j hj => ?_, fun ticket j hj => ?_⟩, hr⟩
  · by_cases ht : ticket = t
    · subst ht
      rwa [update_self]
    · rw [update_of_ne ht]
      exact hinv ticket
  · funext ticket
    change (update w t s ticket).shareOf j = (w ticket).shareOf j
    by_cases ht : ticket = t
    · subst ht
      rw [update_self]
      exact hshare j hj
    · rw [update_of_ne ht]
  · by_cases ht : ticket = t
    · subst ht
      rw [update_self]
      exact haccepted j hj
    · rw [update_of_ne ht]
      exact hj

omit [DecidableEq ι] [DecidableEq π] in
theorem update_same (w : TicketWorld ι π) (t : String) : w = update w t (w t) :=
  (update_eq_self t w).symm

def creates (i : ι) (ticket : String) : TicketFact π i :=
  .share fun share => (share ticket).minted = true ∨ (share ticket).offered = true

def mints (i : ι) (ticket : String) : TicketFact π i :=
  .share fun share => (share ticket).minted = true

def wasGiven (i : ι) (ticket : String) : TicketFact π i :=
  .share fun share => (share ticket).given = true

def hasAccepted (i : ι) (ticket : String) : TicketFact π i :=
  .grown (fun w => i ∈ (w ticket).accepted) fun _ _ hgrows h => hgrows ticket i h

theorem triple_newTicket : TicketTriple process i .top (ask .newTicket)
    (fun ticket : String × Int => mints i ticket.1) .top := by
  refine triple_ticket fun w c r w' hinv _ _ hperf => ?_
  cases c with
  | minted random time =>
    have hminted : (if (w ("wst_" ++ random)).stage = .unissued then
        some (Except.ok ("wst_" ++ random, time), update w ("wst_" ++ random)
          { w ("wst_" ++ random) with stage := .minted i }) else none) = some (r, w') := hperf
    split_ifs at hminted with hstage
    cases hminted
    have huntouched := (hinv ("wst_" ++ random)).unissued hstage
    refine ⟨_, _, rfl, ?_, fun j hj => ?_, fun _ h => h, ?_⟩
    · exact Untouched.ok
        ⟨huntouched.redis, huntouched.memory, huntouched.given, huntouched.accepted⟩
    · have hne : ¬ i = j := fun h => hj h.symm
      simp [shareOf, hstage, hne]
    · change (shareOf (update w ("wst_" ++ random) _ ("wst_" ++ random)) i).minted = true
      simp [shareOf]
  | served _ | rejected _ | lost _ => cases hperf

theorem triple_redisSet (payload : String) : TicketTriple process i (mints i ticket)
    (ask (.redisSet ticket payload))
    (fun _ => creates i ticket) (creates i ticket) := by
  refine triple_ticket fun w c r w' hinv hmints _ hperf => ?_
  have hstage : (w ticket).stage = .minted i := by
    simpa [mints, Assertion.share, shareOf] using hmints
  have huntouched := (hinv ticket).minted i hstage
  have hresult : ∃ redis, w' = update w ticket
      { w ticket with redis := redis, stage := .offered i } := by
    cases c with
    | served _ | lost _ =>
      cases hperf
      exact ⟨some payload, rfl⟩
    | rejected _ =>
      cases hperf
      exact ⟨(w ticket).redis, rfl⟩
    | minted _ _ => cases hperf
  obtain ⟨redis, rfl⟩ := hresult
  refine ⟨ticket, _, rfl, huntouched.offer redis, fun j hj => ?_, fun _ h => h, ?_⟩
  · have hne : ¬ i = j := fun h => hj h.symm
    simp [shareOf, hstage, hne]
  · have hcreates : creates i ticket (update w ticket
        { w ticket with redis := redis, stage := .offered i }) := by
      refine Or.inr ?_
      simp [shareOf]
    cases r <;> exact hcreates

theorem triple_remember (payload : String) : TicketTriple process i (creates i ticket)
    (ask (.remember ticket payload)) (fun _ => .top) .top := by
  refine triple_ticket fun w c r w' hinv hcreates _ hperf => ?_
  have hstage : InCreation (w ticket) i := by
    simpa [creates, Assertion.share, shareOf, InCreation] using hcreates
  cases c with
  | served time =>
    cases hperf
    refine ⟨ticket, _, rfl, (hinv ticket).remember hstage (process i) _, fun j hj => ?_,
      fun _ h => h, trivial⟩
    have hne : ¬ i = j := fun h => hj h.symm
    rcases hstage with hstage | hstage <;> simp [shareOf, hstage, hne]
  | minted _ _ | rejected _ | lost _ => cases hperf

theorem triple_createTicket (cfg : TicketConfig) (userId : String) (metadata : Record Value) :
    TicketTriple process i .top (createTicket cfg userId metadata) (fun _ => .top) .top := by
  refine triple_bind triple_newTicket fun minted => ?_
  refine triple_ite (fun _ => triple_catch (triple_redisSet _) (fun _ => ?_) fun _ => ?_)
    fun _ => ?_
  · exact triple_bind (triple_remember _) fun _ => triple_return
  · exact triple_bind (triple_remember _) fun _ => triple_return
  · exact triple_bind (triple_pre (triple_remember _) fun _ _ h => Or.inl h) fun _ => triple_return

/-! ## Validation -/

theorem triple_redisTake : TicketTriple process i .top (ask (.redisTake ticket))
    (fun found : Option String => (wasGiven i ticket).when (found ≠ none)) .top := by
  refine triple_ticket fun w c r w' hinv _ _ hperf => ?_
  cases c with
  | served time =>
    cases hredis : (w ticket).redis with
    | some payload =>
      simp only [TicketWorld.perform, hredis] at hperf
      cases hperf
      have hsome : (w ticket).redis ≠ none := by simp [hredis]
      refine ⟨ticket, _, rfl, (hinv ticket).give hsome, fun j hj => ?_, fun _ h => h, fun _ => ?_⟩
      · simp [shareOf, hj]
      · change (shareOf (update w ticket _ ticket) i).given = true
        simp [shareOf]
    | none =>
      simp only [TicketWorld.perform, hredis] at hperf
      cases hperf
      exact ⟨ticket, _, update_same w ticket, hinv ticket, fun _ _ => rfl, fun _ h => h,
        fun hne => (hne rfl).elim⟩
  | rejected e =>
    cases hperf
    exact ⟨ticket, _, update_same w ticket, hinv ticket, fun _ _ => rfl, fun _ h => h, trivial⟩
  | lost e =>
    cases hperf
    exact ⟨ticket, _, rfl, (hinv ticket).drop, fun _ _ => rfl, fun _ h => h, trivial⟩
  | minted _ _ => cases hperf

theorem triple_lookUp {client : RedisClient}
    (hclient : (client.eval || client.getdel || !client.get) = true) :
    TicketTriple process i .top (lookUp client ticket)
      (fun rawPayload => (wasGiven i ticket).when (rawPayload ≠ none)) .top := by
  have hnone : ∀ {P : TicketFact π i}, TicketTriple process i P (.done none)
      (fun rawPayload : Option String => (wasGiven i ticket).when (rawPayload ≠ none)) .top :=
    triple_done fun _ _ _ hne => (hne rfl).elim
  refine triple_ite (fun _ => ?_) fun htake => ?_
  · exact triple_catch triple_redisTake (fun _ => triple_done fun _ _ h => h) fun _ => hnone
  · have hget : client.get = false := by
      rw [Bool.or_eq_true, Bool.not_eq_true'] at hclient
      exact hclient.resolve_left htake
    rw [hget, if_neg (by simp)]
    exact hnone

omit [DecidableEq ι] [DecidableEq π] in
theorem isSome_payloadAt_memory {p : π} {rawPayload : Option String} {time : Int}
    (hraw : isTruthyText rawPayload = false)
    (h : (s.payloadAt p rawPayload time).isSome = true) : s.memory p ≠ none := by
  intro hnone
  simp [payloadAt, hraw, hnone] at h

theorem isSome_of_isTruthyText {text : Option String} (h : isTruthyText text = true) :
    text ≠ none := by
  rintro rfl
  cases h

omit [DecidableEq ι] in
theorem TicketOk.forget (h : TicketOk s) (p : π) : TicketOk (s.forget p) := by
  refine h.shrink fun q hq hnone => hq ?_
  by_cases hp : q = p
  · subst hp
    exact update_self q none s.memory
  · rw [update_of_ne hp]
    exact hnone

theorem triple_checkMemory (rawPayload : Option String) : TicketTriple process i
    ((wasGiven i ticket).when (rawPayload ≠ none))
    (ask (.checkMemory ticket rawPayload))
    (fun payload : Option String => (hasAccepted i ticket).when (payload ≠ none)) .top := by
  refine triple_ticket fun w c r w' hinv hgiven hg hperf => ?_
  cases c with
  | served time =>
    have hserved : some (Except.ok ((w ticket).payloadAt (process i) rawPayload time),
        update w ticket ((w ticket).checked i (process i) rawPayload time)) = some (r, w') := hperf
    cases hserved
    cases hpayload : (w ticket).payloadAt (process i) rawPayload time with
    | none =>
      have hchecked : (w ticket).checked i (process i) rawPayload time =
          (w ticket).forget (process i) := by
        unfold checked
        rw [hpayload]
      refine ⟨ticket, _, rfl, ?_⟩
      rw [hchecked]
      exact ⟨(hinv ticket).forget (process i), fun _ _ => rfl, fun _ h => h,
        fun hne => (hne rfl).elim⟩
    | some payload =>
      have hchecked : (w ticket).checked i (process i) rawPayload time =
          { (w ticket).forget (process i) with accepted := i :: (w ticket).accepted } := by
        unfold checked
        rw [hpayload]
      refine ⟨ticket, _, rfl, ?_⟩
      rw [hchecked]
      refine ⟨?_, fun _ _ => rfl, fun _ h => mem_cons_of_mem i h, fun _ => ?_⟩
      · by_cases hraw : isTruthyText rawPayload = true
        · have hmine := hgiven (isSome_of_isTruthyText hraw)
          have hmem : i ∈ (w ticket).given := by
            simpa [wasGiven, Assertion.share, shareOf] using hmine
          exact ((hinv ticket).forget (process i)).accept hmem
        · have hraw' : isTruthyText rawPayload = false := by simpa using hraw
          have hsome : ((w ticket).payloadAt (process i) rawPayload time).isSome = true := by
            rw [hpayload]
            rfl
          obtain ⟨hredis, hnone⟩ := hg hraw' hsome
          exact (hinv ticket).acceptCopy (isSome_payloadAt_memory hraw' hsome) hredis hnone
      · change i ∈ (update w ticket _ ticket).accepted
        rw [update_self]
        exact mem_cons_self
  | minted _ _ | rejected _ | lost _ => cases hperf

theorem triple_validateAndConsumeTicket {cfg : TicketConfig} (hcfg : cfg.takesAtOnce = true) :
    TicketTriple process i .top (validateAndConsumeTicket cfg ticket)
      (fun data => (hasAccepted i ticket).when (data ≠ .null)) .top := by
  have hlookup : TicketTriple process i .top (redisPayload cfg ticket)
      (fun rawPayload => (wasGiven i ticket).when (rawPayload ≠ none)) .top := by
    unfold TicketConfig.takesAtOnce at hcfg
    unfold redisPayload
    cases hredis : cfg.redis with
    | some client =>
      rw [hredis] at hcfg
      exact triple_lookUp hcfg
    | none => exact triple_done fun _ _ _ hne => (hne rfl).elim
  refine triple_ite (fun _ => triple_done fun _ _ _ hne => (hne rfl).elim) fun _ => ?_
  refine triple_bind hlookup fun rawPayload => ?_
  refine triple_bind (triple_checkMemory rawPayload) fun payload => ?_
  cases payload with
  | none => exact triple_done fun _ _ _ hne => (hne rfl).elim
  | some text => exact triple_done fun _ _ h _ => h (by simp)

/-! ## Runs -/

def ticketAnswered (i : ι) : TicketCall → TicketAnswer → TicketFact π i
  | .validate ticket, .validated data => (hasAccepted i ticket).when (data ≠ .null)
  | _, _ => .top

theorem triple_ticketCall {cfg : TicketConfig} (hcfg : cfg.takesAtOnce = true) (call : TicketCall) :
    TicketTriple process i .top (call.program cfg) (ticketAnswered i call) .top := by
  cases call with
  | create userId metadata =>
    refine triple_bind (triple_createTicket cfg userId metadata) fun ticket => ?_
    exact triple_done fun _ _ h => h
  | validate ticket =>
    refine triple_bind (triple_validateAndConsumeTicket hcfg) fun data => ?_
    exact triple_done fun _ _ h => h

theorem ticket_accepted_once {cfg : TicketConfig} (hcfg : cfg.takesAtOnce = true)
    {calls : ι → TicketCall} {c : Pool ticketInterface Failure ι (TicketWorld ι π) TicketAnswer}
    (hreach : Pool.Reach (ticketSemantics process) (exclusive process) (ticketPool cfg calls) c)
    (ticket : String) (i j : ι) (hi : Accepts calls c ticket i) (hj : Accepts calls c ticket j) :
    i = j := by
  have hstart : ∀ t, TicketOk ((ticketPool cfg calls : Pool ticketInterface Failure ι
      (TicketWorld ι π) TicketAnswer).world t) :=
    fun t => Untouched.ok ⟨rfl, fun _ => rfl, rfl, rfl⟩
  have hsafe := hreach.keeps (ticket_compatible process) hstart
    (fun k => triple_ticketCall hcfg (calls k)) fun _ => trivial
  have haccepted : ∀ k, Accepts calls c ticket k → k ∈ (c.world ticket).accepted := by
    rintro k ⟨hcall, data, hdone, hdata⟩
    have hanswer := hsafe.ended (ticket_compatible process) (r := .ok (.validated data)) hdone
    rw [hcall] at hanswer
    exact hanswer hdata
  exact (hsafe.world_inv ticket).accepted_one i (haccepted i hi) j (haccepted j hj)

end Contracts

/-! ### One instance -/

instance [DecidableEq ι] [DecidableEq π] (process : ι → π) :
    ∀ i op c w, Decidable (exclusive process i op c w) := fun i op c w =>
  match op, c with
  | .checkMemory ticket rawPayload, .served time =>
    inferInstanceAs (Decidable (isTruthyText rawPayload = false →
      ((w ticket).payloadAt (process i) rawPayload time).isSome = true →
        (w ticket).redis = none ∧ (w ticket).given = []))
  | .checkMemory _ _, .minted _ _ | .checkMemory _ _, .rejected _ | .checkMemory _ _, .lost _ =>
    inferInstanceAs (Decidable True)
  | .newTicket, _ | .redisSet _ _, _ | .remember _ _, _ | .redisTake _, _ | .redisGet _, _
  | .redisDel _, _ => inferInstanceAs (Decidable True)

def plainTickets : TicketConfig where
  parse _ := some (.obj [])

def createAndUse (i : Fin 3) : TicketCall :=
  if i = 0 then .create "u" .empty else .validate "wst_1"

/-- Whether a call has returned data, if it has returned. -/
def returnedData (c : Pool ticketInterface Failure ι (TicketWorld ι π) TicketAnswer) (i : ι) :
    Option Bool :=
  match c.calls i with
  | .done (.validated .null) => some false
  | .done (.validated _) => some true
  | _ => none

theorem accepts_of_returnedData {calls : ι → TicketCall} {ticket : String} {i : ι}
    {c : Pool ticketInterface Failure ι (TicketWorld ι π) TicketAnswer}
    (hcall : calls i = .validate ticket) (h : returnedData c i = some true) :
    Accepts calls c ticket i := by
  refine ⟨hcall, ?_⟩
  unfold returnedData at h
  split at h
  · cases h
  · rename_i data hnull hdone
    exact ⟨data, hdone, fun heq => hnull heq⟩
  · cases h

/-- On one instance the first of two validations accepts the ticket, and the second one finds
nothing. -/
theorem ticket_used_once :
    ∃ c, Pool.Reach (ticketSemantics fun _ : Fin 3 => ()) (exclusive fun _ => ())
        (ticketPool plainTickets createAndUse) c ∧ Accepts createAndUse c "wst_1" 1 ∧
      ∀ i, Accepts createAndUse c "wst_1" i → i = 1 := by
  refine Pool.exists_run
    (.call 0 (.minted "1" 0) :: [0, 0, 1, 1, 2, 2].map fun i => .call i (.served 0))
    (fun c => (returnedData c 1, returnedData c 2)) (some true, some false) (by decide +kernel)
    fun c hreach hobserved => ?_
  have haccepts : Accepts createAndUse c "wst_1" 1 :=
    accepts_of_returnedData rfl (congrArg Prod.fst hobserved)
  exact ⟨haccepts, fun i hi => ticket_accepted_once rfl hreach "wst_1" i 1 hi haccepts⟩

/-! ### Two instances -/

/-- The second validation runs on the instance that has issued the ticket, the first one on another
instance. -/
def onInstance (i : Fin 3) : Bool :=
  i = 1

/-- One instance accepts the ticket from Redis; the one that has issued it finds nothing there and
accepts its own copy. -/
theorem ticket_accepted_twice : ∃ c, Pool.Reach (ticketSemantics onInstance) (anyStep _)
      (ticketPool plainTickets createAndUse) c ∧ Accepts createAndUse c "wst_1" 1 ∧
    Accepts createAndUse c "wst_1" 2 := by
  refine Pool.exists_run
    (.call 0 (.minted "1" 0) :: [0, 0, 1, 1, 2, 2].map fun i => .call i (.served 0))
    (fun c => (returnedData c 1, returnedData c 2)) (some true, some true) (by decide +kernel)
    fun c hreach hobserved => ?_
  exact ⟨accepts_of_returnedData rfl (congrArg Prod.fst hobserved),
    accepts_of_returnedData rfl (congrArg Prod.snd hobserved)⟩

end Trellis.Dashboard
