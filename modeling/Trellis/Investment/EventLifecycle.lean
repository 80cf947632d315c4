import Trellis.Investment.Completion

/-!
# The lifecycle of a rebalancing event

None of the methods looks at the status of the event it changes.  The log of a run shows what
follows: the order of the statuses of an event and of its trades.
-/

namespace Trellis.Investment

open Trellis.Core Trellis.Portfolio Trellis.Trading RebalanceWorld List Function

/-! ## Sequences of calls -/

/-- A call of one of the four methods; executions are not dry runs. -/
inductive RebalanceCall where
  | trigger (portfolioId : String) (kind : RebalanceTrigger) (reason : Option String)
  | approve (id : Nat)
  | cancel (id : Nat) (reason : String)
  | execute (id : Nat) (actualCost : Option ℚ) (slippage : ℚ)

def RebalanceCall.program (cfg : RebalanceConfig) :
    RebalanceCall → RebalanceProgram RebalancingEvent
  | .trigger portfolioId kind reason => triggerRebalancing portfolioId kind reason
  | .approve id => approveRebalancing id
  | .cancel id reason => cancelRebalancing id reason
  | .execute id actualCost slippage => executeRebalancing cfg
      { eventId := id, actualCost := actualCost, slippage := slippage, dryRun := false }

structure RebalanceStep where
  call : RebalanceCall
  script : Script

def RebalanceStep.apply (cfg : RebalanceConfig) (w : RebalanceWorld) (step : RebalanceStep) :
    RebalanceWorld :=
  let w' := (Async.eval (RebalanceWorld.perform step.script) (step.call.program cfg) w).2
  { w' with call := w.call + 1 }

/-- The world after a sequence of calls, from tables without events. -/
def rebalanceRun (cfg : RebalanceConfig) (portfolios : List PortfolioRow)
    (assets : List PortfolioAsset) (steps : List RebalanceStep) : RebalanceWorld :=
  steps.foldl (RebalanceStep.apply cfg) { portfolios := portfolios, assets := assets }

/-! ## The property -/

def RebalanceStatus.isTerminal : RebalanceStatus → Bool
  | .completed | .failed | .cancelled => true
  | .pending | .inProgress => false

/-- What may follow what: the trades of an event are of one call, none follows a failure or a
cancellation, and no other status follows one that ends the event. -/
def Lawful : Entry → Entry → Prop
  | .trade id call _, .trade id' call' _ => id = id' → call = call'
  | .status id status, .trade id' _ _ => id = id' → status ≠ .failed ∧ status ≠ .cancelled
  | .status id status, .status id' status' =>
    id = id' → status.isTerminal = true → status' = status
  | _, _ => True

/-! ## The condition -/

def RebalanceWorld.Open (w : RebalanceWorld) (id : Nat) : Prop :=
  ∀ event, w.events id = some event → event.status.isTerminal = false

def RebalanceWorld.Untraded (w : RebalanceWorld) (id : Nat) : Prop :=
  ∀ call request, Entry.trade id call request ∉ w.log

structure Script.Quiet (script : Script) : Prop where
  stored : ∀ event e, event.status = .completed → script.fault (.saveEvent event) ≠ some (.lost e)
  audited : ∀ portfolioId id, script.fault (.recordVerification (.success portfolioId id)) = none
  announced : ∀ userId portfolioId message,
    script.fault (.dispatch userId (.success portfolioId message)) = none

/-- A call changes an event only while it is open, executes it only once, and is not disturbed
after its end. -/
def Admissible (w : RebalanceWorld) (step : RebalanceStep) : Prop :=
  match step.call with
  | .trigger _ _ _ => True
  | .approve id | .cancel id _ => w.Open id
  | .execute id _ _ => w.Open id ∧ w.Untraded id ∧ step.script.Quiet

/-- Every call of the sequence is admissible where it is made. -/
def AllAdmissible (cfg : RebalanceConfig) : RebalanceWorld → List RebalanceStep → Prop
  | _, [] => True
  | w, step :: steps => Admissible w step ∧ AllAdmissible cfg (step.apply cfg w) steps

/-! ## The invariant -/

def Entry.eventId? : Entry → Option Nat
  | .status id _ | .trade id _ _ => some id
  | .allocation _ _ => none

/-- The log is lawful, and the table knows how each event ended. -/
structure EventInv (w : RebalanceWorld) : Prop where
  lawful : w.log.Pairwise Lawful
  ended : ∀ id status, Entry.status id status ∈ w.log → status.isTerminal = true →
    ∃ event, w.events id = some event ∧ event.status = status
  ids : ∀ id event, w.events id = some event → event.id = id
  fresh : ∀ id, w.inserted ≤ id → w.events id = none
  logged : ∀ entry ∈ w.log, ∀ id, entry.eventId? = some id → id < w.inserted

structure Unfinished (id : Nat) (w : RebalanceWorld) : Prop where
  known : id < w.inserted
  running : ∀ status, Entry.status id status ∈ w.log → status.isTerminal = false

namespace EventInv

variable {w : RebalanceWorld} {id : Nat} {event : RebalancingEvent}

variable (hinv : EventInv w)
include hinv

theorem unfinished (hopen : w.Open id) (hevent : w.events id = some event) : Unfinished id w where
  known := by
    by_contra hunknown
    have hnone := hinv.fresh id (not_lt.mp hunknown)
    rw [hevent] at hnone
    cases hnone
  running status hmem := by
    by_contra hended
    obtain ⟨event', hevent', hstatus⟩ := hinv.ended id status hmem (by simpa using hended)
    have hrunning := hopen event' hevent'
    rw [hstatus] at hrunning
    exact hended hrunning

/-- Storing an event that has not ended; an inserted one gets the next id. -/
theorem store {n : Nat} (hle : w.inserted ≤ n) (hlt : event.id < n)
    (hrunning : ∀ status, Entry.status event.id status ∈ w.log → status.isTerminal = false) :
    EventInv { w.storeEvent event with inserted := n } where
  lawful := by
    refine pairwise_append.mpr ⟨hinv.lawful, pairwise_singleton _ _, ?_⟩
    intro entry hentry entry' hentry'
    rw [mem_singleton.mp hentry']
    cases entry with
    | status id' status =>
      rintro rfl hterminal
      rw [hrunning status hentry] at hterminal
      cases hterminal
    | trade _ _ _ => trivial
    | allocation _ _ => trivial
  ended id' status hmem hterminal := by
    by_cases heq : id' = event.id
    · subst heq
      rcases mem_append.mp hmem with hold | hnew
      · rw [hrunning status hold] at hterminal
        cases hterminal
      · cases mem_singleton.mp hnew
        exact ⟨event, update_self _ _ _, rfl⟩
    · rcases mem_append.mp hmem with hold | hnew
      · obtain ⟨event', hevent', hstatus⟩ := hinv.ended id' status hold hterminal
        exact ⟨event', (update_of_ne heq _ _).trans hevent', hstatus⟩
      · cases mem_singleton.mp hnew
        exact (heq rfl).elim
  ids id' event' hevent' := by
    by_cases heq : id' = event.id
    · subst heq
      cases (update_self _ _ _).symm.trans hevent'
      rfl
    · exact hinv.ids id' event' ((update_of_ne heq _ _).symm.trans hevent')
  fresh id' hle' := by
    have heq : id' ≠ event.id := (hlt.trans_le hle').ne'
    exact (update_of_ne heq _ _).trans (hinv.fresh id' (hle.trans hle'))
  logged entry hentry id' hsome := by
    rcases mem_append.mp hentry with hold | hnew
    · exact (hinv.logged entry hold id' hsome).trans_le hle
    · cases mem_singleton.mp hnew
      cases hsome
      exact hlt

theorem storeEvent (hid : event.id = id) (hrunning : Unfinished id w) :
    EventInv (w.storeEvent event) := by
  subst hid
  exact hinv.store le_rfl hrunning.known hrunning.running

theorem insertEvent (script : Script) : EventInv (w.serve script (.insertEvent event)).2 :=
  hinv.store (Nat.le_succ _) (Nat.lt_succ_self _) fun _ hmem =>
    (Nat.lt_irrefl _ (hinv.logged _ hmem _ rfl)).elim

theorem append {entries : List Entry} {portfolios : List PortfolioRow}
    (hlawful : (w.log ++ entries).Pairwise Lawful)
    (hstatus : ∀ id status, Entry.status id status ∉ entries)
    (hknown : ∀ entry ∈ entries, ∀ id, entry.eventId? = some id → id < w.inserted) :
    EventInv { w with portfolios := portfolios, log := w.log ++ entries } :=
  { hinv with
    lawful := hlawful
    ended id status hmem hterminal := by
      have hold := (mem_append.mp hmem).resolve_right (hstatus id status)
      exact hinv.ended id status hold hterminal
    logged entry hentry id hsome := by
      rcases mem_append.mp hentry with hold | hnew
      · exact hinv.logged entry hold id hsome
      · exact hknown entry hnew id hsome }

omit hinv

end EventInv

/-! ## An execution -/

def rebalanceSemantics : Semantics rebalanceInterface Failure Unit RebalanceWorld where
  Choice := Script
  perform _ op script w := some (w.perform script op)
  Event := Empty
  happen e := e.elim

def quietGuard : Guard rebalanceSemantics :=
  fun _ _ script _ => script.Quiet

abbrev eventContract : Contract RebalanceWorld :=
  Contract.solo EventInv

/-- The event has not ended, and the trades submitted for it are those of the running call. -/
structure Working (id call : Nat) (w : RebalanceWorld) : Prop extends Unfinished id w where
  running_call : w.call = call
  own : ∀ call' request, Entry.trade id call' request ∈ w.log → call' = call

def working (id call : Nat) : Assertion eventContract :=
  .solo (Working id call)

def RebalanceOp.isIdle : RebalanceOp → Bool
  | .findPortfolio _ | .findAssets _ | .findEvent _ | .dispatch _ _ | .recordVerification _
  | .now => true
  | _ => false

variable {op : RebalanceOp}

theorem serve_idle (hop : op.isIdle = true) (script : Script) (w : RebalanceWorld) :
    (w.serve script op).2 = w := by
  cases op <;> first | rfl | cases hop

variable {id call : Nat} {w : RebalanceWorld} {event : RebalancingEvent}

theorem Working.append (hworking : Working id call w) {entries : List Entry}
    {portfolios : List PortfolioRow} (hstatus : ∀ id status, Entry.status id status ∉ entries)
    (hown : ∀ call' request, Entry.trade id call' request ∈ entries → call' = call) :
    Working id call { w with portfolios := portfolios, log := w.log ++ entries } :=
  { hworking with
    running status hmem :=
      hworking.running status ((mem_append.mp hmem).resolve_right (hstatus id status))
    own call' request hmem := by
      rcases mem_append.mp hmem with hold | hnew
      · exact hworking.own call' request hold
      · exact hown call' request hnew }

theorem Working.storeEvent (hworking : Working id call w)
    (hstatus : event.status.isTerminal = false) : Working id call (w.storeEvent event) :=
  { hworking with
    running status hmem := by
      rcases mem_append.mp hmem with hold | hnew
      · exact hworking.running status hold
      · cases mem_singleton.mp hnew
        exact hstatus
    own call' request hmem := by
      rcases mem_append.mp hmem with hold | hnew
      · exact hworking.own call' request hold
      · cases mem_singleton.mp hnew }

section Triples

variable {g : Guard rebalanceSemantics} {P : Assertion eventContract}

abbrev EventTriple (g : Guard rebalanceSemantics) {α : Type} (P : Assertion eventContract)
    (p : RebalanceProgram α) (R : α → Assertion eventContract) (E : Assertion eventContract) :
    Prop :=
  Triple rebalanceSemantics g () P p R E

theorem triple_event_op {R : op.Res → Assertion eventContract} {E : Assertion eventContract}
    (h : ∀ (w : RebalanceWorld) script, EventInv w → P w → g () op script w →
      EventInv (w.perform script op).2 ∧
        outcome R E (w.perform script op).1 (w.perform script op).2) :
    EventTriple g P (askRebalance op) R E := by
  refine triple_call fun w script r w' hinv hP hg hperf => ?_
  obtain ⟨hinv', hr⟩ := h w script hinv hP hg
  have hperform : w.perform script op = (r, w') := Option.some.inj hperf
  rw [hperform] at hinv' hr
  exact ⟨hinv', trivial, hr⟩

/-- An operation that may fail, with or without its effect. -/
theorem triple_effect {P' : Assertion eventContract} (hweak : ∀ w, P w → P' w)
    (h : ∀ (w : RebalanceWorld) script, EventInv w → P w →
      EventInv (w.serve script op).2 ∧ P' (w.serve script op).2) :
    EventTriple g P (askRebalance op) (fun _ => P') P' := by
  refine triple_event_op fun w script hinv hP _ => ?_
  have hafter : EventInv (w.perform script op).2 ∧ P' (w.perform script op).2 := by
    rcases perform_world script op w with hsame | hserve
    · rw [hsame]
      exact ⟨hinv, hweak w hP⟩
    · rw [hserve]
      exact h w script hinv hP
  refine ⟨hafter.1, ?_⟩
  cases (w.perform script op).1 <;> exact hafter.2

theorem triple_idle_op (hop : op.isIdle = true) :
    EventTriple g P (askRebalance op) (fun _ => P) P := by
  refine triple_effect (fun _ h => h) fun w script hinv hP => ?_
  rw [serve_idle hop]
  exact ⟨hinv, hP⟩

theorem triple_quiet_op {E : Assertion eventContract} (hop : op.isIdle = true)
    (hquiet : ∀ script : Script, script.Quiet → script.failureOf op = none)
    (hok : ∀ script (w : RebalanceWorld), ∃ a w', w.serve script op = (.ok a, w')) :
    EventTriple quietGuard P (askRebalance op) (fun _ => P) E := by
  refine triple_event_op fun w script hinv hP hscript => ?_
  obtain ⟨a, w', hserve⟩ := hok script w
  have hsame := serve_idle hop script w
  rw [perform_ok_iff.mpr ⟨hquiet script hscript, hserve⟩]
  rw [hserve] at hsame
  cases hsame
  exact ⟨hinv, hP⟩

theorem triple_executeBatch (start : Nat) (requests : List TradeRequest) :
    EventTriple g (working id call) (askRebalance (.executeBatch id start requests))
      (fun _ => working id call) (working id call) := by
  refine triple_effect (fun _ h => h) fun w script hinv hworking => ?_
  have hstatus : ∀ id' status,
      Entry.status id' status ∉ requests.map (Entry.trade id w.call) := by simp
  have hown : ∀ call' request,
      Entry.trade id call' request ∈ requests.map (Entry.trade id w.call) → call' = call := by
    intro call' request hmem
    obtain ⟨_, -, heq⟩ := mem_map.mp hmem
    cases heq
    exact hworking.running_call
  have hlawful : (w.log ++ requests.map (Entry.trade id w.call)).Pairwise Lawful := by
    refine pairwise_append.mpr ⟨hinv.lawful, ?_, ?_⟩
    · exact pairwise_map.mpr (pairwise_of_forall fun _ _ _ => rfl)
    · intro entry hentry entry' hentry'
      obtain ⟨request, -, rfl⟩ := mem_map.mp hentry'
      cases entry with
      | status id' status =>
        rintro rfl
        have hrunning := hworking.running status hentry
        cases status <;> simp_all [RebalanceStatus.isTerminal]
      | trade id' call' request' =>
        rintro rfl
        exact (hworking.own call' request' hentry).trans hworking.running_call.symm
      | allocation _ _ => trivial
  refine ⟨EventInv.append hinv hlawful hstatus fun entry hmem id' hsome => ?_,
    hworking.append hstatus hown⟩
  obtain ⟨_, -, rfl⟩ := mem_map.mp hmem
  cases hsome
  exact hworking.known

theorem triple_savePortfolio_event (portfolio : PortfolioRow) : EventTriple g (working id call)
    (askRebalance (.savePortfolio portfolio))
    (fun _ => working id call) (working id call) := by
  refine triple_effect (fun _ h => h) fun w script hinv hworking => ?_
  refine ⟨EventInv.append hinv ?_ (by simp) ?_, Working.append hworking (by simp) (by simp)⟩
  · refine pairwise_append.mpr ⟨hinv.lawful, pairwise_singleton _ _, ?_⟩
    intro entry _ entry' hentry'
    rw [mem_singleton.mp hentry']
    cases entry <;> trivial
  · intro entry hmem id' hsome
    cases mem_singleton.mp hmem
    cases hsome

theorem triple_save_running (hid : event.id = id) (hstatus : event.status.isTerminal = false) :
    EventTriple g (working id call) (askRebalance (.saveEvent event))
      (fun _ => working id call) (working id call) :=
  triple_effect (fun _ h => h) fun _ _ hinv hworking =>
    ⟨hinv.storeEvent hid hworking.toUnfinished, hworking.storeEvent hstatus⟩

theorem triple_save_end (hid : event.id = id) :
    EventTriple g (.solo (Unfinished id)) (askRebalance (.saveEvent event)) (fun _ => .top) .top :=
  triple_effect (fun _ _ => trivial) fun _ _ hinv hrunning =>
    ⟨hinv.storeEvent hid hrunning, trivial⟩

theorem triple_save_completed (hid : event.id = id) (hstatus : event.status = .completed) :
    EventTriple quietGuard (working id call) (askRebalance (.saveEvent event))
      (fun _ => .top) (working id call) := by
  refine triple_event_op fun w script hinv hworking hquiet => ?_
  rcases hfault : script.fault (.saveEvent event) with - | e | e
  · have hserve : w.perform script (.saveEvent event) = (.ok (), w.storeEvent event) := by
      simp [perform, Script.failureOf, hfault, serve]
    rw [hserve]
    exact ⟨hinv.storeEvent hid hworking.toUnfinished, trivial⟩
  · have hreject : w.perform script (.saveEvent event) = (.error e, w) := by
      simp [perform, Script.failureOf, hfault]
    rw [hreject]
    exact ⟨hinv, hworking⟩
  · exact (hquiet.stored event e hstatus hfault).elim

variable {portfolio : PortfolioRow} {args : Execution} {cfg : RebalanceConfig}

variable (hid : event.id = id)
include hid

theorem triple_executeBatches (batches : List (List RebalanceTrade)) (start : Nat) :
    EventTriple g (working id call) (executeBatches event batches start)
      (fun _ => working id call) (working id call) := by
  subst hid
  induction batches generalizing start with
  | nil => exact triple_done fun _ _ h => h
  | cons batch rest ih => exact triple_bind (triple_executeBatch start _) fun _ => ih _

theorem triple_tradeEvent : EventTriple g (working id call) (tradeEvent args event portfolio)
    (fun completed => (working id call).given
      (completed.id = id ∧ completed.status = .completed)) (working id call) := by
  refine triple_bind (triple_executeBatches hid _ 0) fun _ => ?_
  refine triple_bind (triple_idle_op rfl) fun rebalanced => ?_
  refine triple_bind (triple_savePortfolio_event _) fun _ => ?_
  refine triple_bind (triple_idle_op rfl) fun executed => ?_
  refine triple_bind (triple_idle_op rfl) fun completed => ?_
  exact triple_done fun _ _ h => ⟨⟨hid, rfl⟩, h⟩

theorem triple_finishEvent (hstatus : event.status = .completed) :
    EventTriple quietGuard (working id call) (finishEvent event portfolio)
      (fun _ => .top) (working id call) := by
  refine triple_bind (triple_save_completed hid hstatus) fun _ => ?_
  refine triple_bind (triple_quiet_op rfl ?_ fun _ _ => ⟨_, _, rfl⟩) fun _ =>
    triple_quiet_op rfl ?_ fun _ _ => ⟨_, _, rfl⟩
  · exact fun script hquiet => hquiet.audited _ _
  · exact fun script hquiet => hquiet.announced _ _ _

theorem triple_save_failed : EventTriple g (working id call) (askRebalance (.saveEvent event))
    (fun _ => .top) .top :=
  triple_pre (triple_save_end hid) fun _ _ h => h.toUnfinished

theorem triple_failEvent (e : Failure) :
    EventTriple g (working id call) (failEvent event portfolio e) (fun _ => .top) .top := by
  refine triple_bind (triple_save_failed hid) fun _ => ?_
  exact triple_bind (triple_idle_op rfl) fun _ => triple_fail

theorem triple_completeEvent :
    EventTriple quietGuard (working id call) (completeEvent args event portfolio)
      (fun _ => .top) .top := by
  refine triple_catch (triple_tradeEvent hid) (fun completed => triple_given fun h => ?_)
    fun e => triple_failEvent hid e
  exact triple_catch (triple_finishEvent h.1 h.2) (fun _ => triple_return)
    fun e => triple_failEvent h.1 e

theorem triple_refuseSlippage (error : String) :
    EventTriple g (working id call) (refuseSlippage args event portfolio error)
      (fun _ => .top) .top := by
  refine triple_bind (triple_save_failed hid) fun _ => ?_
  refine triple_bind (triple_idle_op rfl) fun _ => ?_
  exact triple_bind (triple_idle_op rfl) fun _ => triple_fail

theorem triple_executeEvent : EventTriple quietGuard (working id call)
    (executeEvent cfg args event portfolio) (fun _ => .top) .top := by
  unfold executeEvent
  split
  · exact triple_refuseSlippage hid _
  · refine triple_ite (fun _ => triple_return) fun _ => ?_
    refine triple_bind (triple_forget (triple_save_running hid rfl)) fun _ => ?_
    exact triple_completeEvent hid

omit hid

/-- The event that is found has not ended if it is open; what else holds of the world stays. -/
theorem triple_findEvent (Q : RebalanceWorld → Prop) :
    EventTriple g (.solo fun w => w.Open id ∧ Q w) (findEvent id)
      (fun found => Assertion.given (.solo fun w => Unfinished id w ∧ Q w) (found.1.id = id))
      .top := by
  have hquery : EventTriple g (.solo fun w => w.Open id ∧ Q w)
      (askRebalance (.findEvent id))
      (fun row : Option (RebalancingEvent × Option PortfolioRow) => Assertion.solo fun w =>
        ∀ found, row = some found → found.1.id = id ∧ Unfinished id w ∧ Q w) .top := by
    refine triple_event_op fun w script hinv hready _ => ?_
    rcases hperform : w.perform script (.findEvent id) with ⟨r, w'⟩
    obtain rfl : w' = w := by
      have hworld := congrArg Prod.snd hperform
      rcases perform_world script (.findEvent id) w with hsame | hserve
      · exact hworld.symm.trans hsame
      · exact hworld.symm.trans hserve
    refine ⟨hinv, ?_⟩
    cases r with
    | error e => trivial
    | ok row =>
      intro found hfound
      obtain ⟨-, hserve⟩ := perform_ok_iff.mp hperform
      cases hserve
      obtain ⟨event, hevent, rfl⟩ := Option.map_eq_some_iff.mp hfound
      exact ⟨hinv.ids id event hevent, hinv.unfinished hready.1 hevent, hready.2⟩
  refine triple_bind hquery fun row => ?_
  cases row with
  | none => exact triple_fail
  | some found => exact triple_done fun w _ h => h found rfl

def ready (id call : Nat) : Assertion eventContract :=
  .solo fun w => w.Open id ∧ w.Untraded id ∧ w.call = call

theorem triple_executeRebalancing (hid : args.eventId = id) :
    EventTriple quietGuard (ready id call) (executeRebalancing cfg args) (fun _ => .top) .top := by
  subst hid
  refine triple_bind (triple_findEvent fun w => w.Untraded args.eventId ∧ w.call = call)
    fun found => triple_given fun hsame => ?_
  obtain ⟨event, portfolio⟩ := found
  cases portfolio with
  | none => exact triple_fail
  | some portfolio =>
    refine triple_bind (triple_forget (triple_idle_op rfl)) fun _ => ?_
    refine triple_pre (triple_executeEvent hsame) fun w _ h => ⟨h.1, h.2.2, ?_⟩
    exact fun call' request hmem => (h.2.1 call' request hmem).elim

theorem triple_changeEvent {change : RebalancingEvent → RebalancingEvent}
    (hchange : ∀ event, (change event).id = event.id) :
    EventTriple g (.solo fun w => w.Open id ∧ True) (changeEvent id change)
      (fun _ => .top) .top := by
  refine triple_bind (triple_findEvent fun _ => True) fun found => triple_given fun hid => ?_
  exact triple_bind (triple_pre (triple_save_end ((hchange _).trans hid)) fun _ _ h => h.1)
    fun _ => triple_return

theorem triple_findPortfolio (portfolioId : String) :
    EventTriple g .top (findPortfolio portfolioId) (fun _ => .top) .top := by
  refine triple_bind (triple_idle_op rfl) fun row => ?_
  cases row with
  | none => exact triple_fail
  | some portfolio => exact triple_ite (fun _ => triple_fail) fun _ => triple_return

theorem triple_triggerRebalancing (portfolioId : String) (kind : RebalanceTrigger)
    (reason : Option String) : EventTriple g .top (triggerRebalancing portfolioId kind reason)
      (fun _ => .top) .top := by
  refine triple_bind (triple_findPortfolio portfolioId) fun portfolio => ?_
  refine triple_bind (R := fun _ => .top) ?_ fun trades => ?_
  · refine triple_bind (triple_findPortfolio portfolioId) fun _ => ?_
    exact triple_bind (triple_idle_op rfl) fun _ => triple_return
  · exact triple_effect (fun _ h => h) fun _ script hinv _ => ⟨hinv.insertEvent script, trivial⟩

end Triples

/-! ## Calls -/

variable {cfg : RebalanceConfig} {script : Script}

theorem inv_eval {α : Type} {g : Guard rebalanceSemantics} {P : Assertion eventContract}
    {p : RebalanceProgram α} (h : EventTriple g P p (fun _ => .top) .top)
    (hg : ∀ op w, g () op script w) (hinv : EventInv w) (hP : P w) :
    EventInv (Async.eval (perform script) p w).2 := by
  have hperform : ∀ op w, rebalanceSemantics.perform () op script w =
      some (perform script op w) := fun _ _ => rfl
  have htriple : EventTriple g P p (fun _ => .solo EventInv) (.solo EventInv) :=
    triple_weaken h (fun _ _ hinv _ => hinv) fun _ hinv _ => hinv
  have hafter := (htriple.safe hinv hP).eval hperform hg hinv
  revert hafter
  cases (Async.eval (perform script) p w).1 <;> exact fun h => h

/-! ## Runs -/

theorem inv_apply {step : RebalanceStep} (hinv : EventInv w) (hstep : Admissible w step) :
    EventInv (step.apply cfg w) := by
  suffices hworld : EventInv (Async.eval (perform step.script) (step.call.program cfg) w).2 from
    ⟨hworld.lawful, hworld.ended, hworld.ids, hworld.fresh, hworld.logged⟩
  obtain ⟨call, script⟩ := step
  cases call with
  | trigger portfolioId kind reason =>
    exact inv_eval (triple_triggerRebalancing portfolioId kind reason)
      (g := anyStep _) (fun _ _ => trivial) hinv trivial
  | approve id | cancel id _ =>
    simp only [RebalanceCall.program, approveRebalancing, cancelRebalancing]
    refine inv_eval (triple_changeEvent ?_) (g := anyStep _) (fun _ _ => trivial) hinv
      ⟨hstep, trivial⟩
    exact fun _ => rfl
  | execute id actualCost slippage =>
    exact inv_eval (triple_executeRebalancing rfl) (fun _ _ => hstep.2.2) hinv
      ⟨hstep.1, hstep.2.1, rfl⟩

theorem inv_foldl {steps : List RebalanceStep} (hinv : EventInv w)
    (hsteps : AllAdmissible cfg w steps) : EventInv (steps.foldl (RebalanceStep.apply cfg) w) := by
  induction steps generalizing w with
  | nil => exact hinv
  | cons step steps ih => exact ih (inv_apply hinv hsteps.1) hsteps.2

/-- In every sequence of admissible calls the trades of an event are submitted by one call, none
after it failed or was cancelled, and the statuses that end an event stay. -/
theorem lifecycle_of_admissible (cfg : RebalanceConfig) (portfolios : List PortfolioRow)
    (assets : List PortfolioAsset) (steps : List RebalanceStep)
    (hsteps : AllAdmissible cfg { portfolios := portfolios, assets := assets } steps) :
    (rebalanceRun cfg portfolios assets steps).log.Pairwise Lawful := by
  refine (inv_foldl ?_ hsteps).lawful
  exact ⟨List.Pairwise.nil, fun _ _ h => (not_mem_nil h).elim, fun _ _ h => (by cases h),
    fun _ _ => rfl, fun _ h => (not_mem_nil h).elim⟩

/-! ### An event that is executed -/

def filledTrades : Script where
  trade _ := .ok
    { success := true, executedQuantity := 50, executedPrice := 1, status := .confirmed,
      timestamp := 0, clientRequestId := none }

theorem quiet_filledTrades : filledTrades.Quiet :=
  ⟨fun _ _ _ h => (by cases h), fun _ _ => rfl, fun _ _ _ => rfl⟩

def emptyPortfolio : PortfolioRow where
  id := "p"
  userId := "u"
  name := "n"
  totalValue := 100
  targetAllocation := some (.ofList [("XLM", 50)])

def noLumens : PortfolioAsset where
  id := "a"
  portfolioId := "p"
  ticker := "XLM"
  currentPrice := some 1

def lumensRequest : TradeRequest where
  portfolioId := "p"
  ticker := "XLM"
  action := .buy
  quantity := 50
  price := 1

def usualCalls : List RebalanceStep :=
  [⟨.trigger "p" .manual none, filledTrades⟩, ⟨.approve 0, filledTrades⟩,
    ⟨.execute 0 none 0, filledTrades⟩]

instance (w : RebalanceWorld) (id : Nat) : Decidable (w.Open id) :=
  inferInstanceAs (Decidable (∀ event ∈ w.events id, event.status.isTerminal = false))

theorem untraded_of_log {w : RebalanceWorld} {id : Nat} (log : List Entry) (hlog : w.log = log)
    (hnone : ∀ entry ∈ log, ∀ call request, entry ≠ Entry.trade id call request) :
    w.Untraded id := by
  intro call request hmem
  rw [hlog] at hmem
  exact hnone _ hmem call request rfl

theorem usual_lifecycle :
    (rebalanceRun plainNumbers [emptyPortfolio] [noLumens] usualCalls).log.Pairwise Lawful ∧
      Entry.trade 0 2 lumensRequest ∈
        (rebalanceRun plainNumbers [emptyPortfolio] [noLumens] usualCalls).log := by
  refine ⟨lifecycle_of_admissible plainNumbers [emptyPortfolio] [noLumens] usualCalls ?_,
    by decide +kernel⟩
  refine ⟨trivial, ?_, ⟨?_, ?_, quiet_filledTrades⟩, trivial⟩
  · show RebalanceWorld.Open _ 0
    decide +kernel
  · show RebalanceWorld.Open _ 0
    decide +kernel
  · apply untraded_of_log [.status 0 .pending, .status 0 .inProgress]
    · decide +kernel
    · simp

/-! ### An event that is executed twice -/

theorem executed_twice_trades_twice : ¬ (rebalanceRun plainNumbers [emptyPortfolio] [noLumens]
    [⟨.trigger "p" .manual none, filledTrades⟩, ⟨.execute 0 none 0, filledTrades⟩,
      ⟨.execute 0 none 0, filledTrades⟩]).log.Pairwise Lawful := by
  intro hlawful
  have hlog : [Entry.trade 0 1 lumensRequest, .trade 0 2 lumensRequest].Sublist
      (rebalanceRun plainNumbers [emptyPortfolio] [noLumens]
        [⟨.trigger "p" .manual none, filledTrades⟩, ⟨.execute 0 none 0, filledTrades⟩,
          ⟨.execute 0 none 0, filledTrades⟩]).log := by
    decide +kernel
  have hpair := rel_of_pairwise_cons (hlawful.sublist hlog) mem_cons_self
  have hcall : 1 = 2 := hpair rfl
  cases hcall

end Trellis.Investment
