import Trellis.Investment.Rebalancing

/-!
# Completed events and their trades

`executeRebalancing` looks at no result of its trades: a trade that returns `success = false` is
not an exception, so the event is stored as completed and its allocation as the portfolio's.
-/

namespace Trellis.Investment

open Trellis.Core Trellis.Portfolio Trellis.Trading RebalanceWorld Async List

/-! ## The property -/

def executed (cfg : RebalanceConfig) (script : Script) (args : Execution) (w : RebalanceWorld) :
    RebalanceWorld :=
  (Async.eval (RebalanceWorld.perform script) (executeRebalancing cfg args) { w with log := [] }).2

def StoresCompleted (w : RebalanceWorld) : Prop :=
  ∃ id, Entry.status id .completed ∈ w.log

def WritesAllocation (w : RebalanceWorld) : Prop :=
  ∃ portfolioId allocation, Entry.allocation portfolioId allocation ∈ w.log

/-- A call that stores the status completed and writes the allocation has had `success = true`
from every trade of the event. -/
def CompletedOnlyIfTraded (cfg : RebalanceConfig) (script : Script) (args : Execution)
    (w : RebalanceWorld) : Prop :=
  StoresCompleted (executed cfg script args w) → WritesAllocation (executed cfg script args w) →
    ∀ event, w.events args.eventId = some event → ∀ k < event.trades.length,
      ∃ result, script.trade k = .ok result ∧ result.success = true

def NoException (script : Script) (event : RebalancingEvent) : Prop :=
  ∀ k < event.trades.length, ∃ result, script.trade k = .ok result

def rebalancedPortfolio (script : Script) (event : RebalancingEvent) (portfolio : PortfolioRow) :
    PortfolioRow :=
  { portfolio with
    currentAllocation := event.allocationAfter, lastRebalanceDate := some script.time }

def completedEvent (script : Script) (args : Execution) (event : RebalancingEvent) :
    RebalancingEvent :=
  { event with
    status := .completed, actualCost := some (args.cost event),
    executionSlippage := some args.slippage, executedAt := some script.time,
    completedAt := some script.time }

/-- The call finds its event and gets to its trades, and apart from them nothing fails before the
status completed is stored. -/
structure Unhindered (script : Script) (args : Execution) (w : RebalanceWorld)
    (event : RebalancingEvent) (portfolio : PortfolioRow) : Prop where
  event_found : w.events args.eventId = some event
  portfolio_found : w.portfolio event.portfolioId = some portfolio
  slippage : args.slippage ≤ 2 / 100
  not_dry : args.dryRun = false
  find : script.fault (.findEvent args.eventId) = none
  announce : script.fault (.dispatch portfolio.userId (.started event.portfolioId
    ("Rebalancing execution started for portfolio " ++ portfolio.name))) = none
  start : script.fault (.saveEvent { event with status := .inProgress }) = none
  save : script.fault (.savePortfolio (rebalancedPortfolio script event portfolio)) = none
  complete : ∀ e, script.fault (.saveEvent (completedEvent script args event)) ≠ some (.rejected e)

/-! ## The trades -/

variable {α β : Type}

theorem mapM_ok_iff {ε : Type} {f : α → Except ε β} {l : List α} :
    (∃ bs, l.mapM f = .ok bs) ↔ ∀ a ∈ l, ∃ b, f a = .ok b := by
  induction l with
  | nil => exact ⟨fun _ a ha => (not_mem_nil ha).elim, fun _ => ⟨[], rfl⟩⟩
  | cons a l ih =>
    rw [forall_mem_cons, ← ih, mapM_cons]
    cases hf : f a with
    | error e =>
      constructor
      · rintro ⟨bs, hbs⟩
        cases hbs
      · rintro ⟨⟨b, hb⟩, -⟩
        cases hb
    | ok b =>
      cases hrest : l.mapM f with
      | error e =>
        constructor
        · rintro ⟨bs, hbs⟩
          cases hbs
        · rintro ⟨-, bs, hbs⟩
          cases hbs
      | ok bs => exact ⟨fun _ => ⟨⟨b, rfl⟩, bs, rfl⟩, fun _ => ⟨b :: bs, rfl⟩⟩

theorem flatten_batchesOfThree (l : List α) : (batchesOfThree l).flatten = l := by
  induction l using batchesOfThree.induct with
  | case1 => rfl
  | case2 a => rfl
  | case3 a b => rfl
  | case4 a b c rest ih => simp [batchesOfThree, ih]

variable {script : Script} {args : Execution}

/-- The loop logs trades of the event only, and resolves where none of them throws. -/
theorem eval_executeBatches (script : Script) (event : RebalancingEvent)
    (batches : List (List RebalanceTrade)) (start : Nat) (w : RebalanceWorld) :
    ∃ (outcome : Except Failure Unit) (requests : List TradeRequest),
      eval (perform script) (executeBatches event batches start) w =
        (outcome, { w with log := w.log ++ requests.map (Entry.trade event.id w.call) }) ∧
      (outcome = .ok () ↔ ∀ k ∈ range' start batches.flatten.length,
        ∃ result, script.trade k = .ok result) := by
  induction batches generalizing start w with
  | nil =>
    refine ⟨.ok (), [], ?_, ?_⟩
    · simp [executeBatches]
    · simp
  | cons batch rest ih =>
    let requests := batch.map (requestOf event.portfolioId)
    let w₁ : RebalanceWorld :=
      { w with log := w.log ++ requests.map (Entry.trade event.id w.call) }
    have hbatch : eval (perform script)
        (askRebalance (.executeBatch event.id start requests)) w =
          ((range' start requests.length).mapM script.trade, w₁) := by
      rw [eval_call]
      rfl
    have hlength : requests.length = batch.length := length_map _
    have hsplit : (∀ k ∈ range' start (batch :: rest).flatten.length,
        ∃ result, script.trade k = .ok result) ↔
        (∀ k ∈ range' start requests.length, ∃ result, script.trade k = .ok result) ∧
        ∀ k ∈ range' (start + batch.length) rest.flatten.length,
          ∃ result, script.trade k = .ok result := by
      rw [flatten_cons, length_append, ← range'_append_1, hlength, forall_mem_append]
    cases houtcome : (range' start requests.length).mapM script.trade with
    | ok results =>
      rw [houtcome] at hbatch
      obtain ⟨outcome, more, heval, hiff⟩ := ih (start + batch.length) w₁
      refine ⟨outcome, requests ++ more, ?_, ?_⟩
      · rw [executeBatches, eval_bind_of_ok hbatch, heval]
        simp [w₁]
      · rw [hsplit, hiff]
        exact ⟨fun h => ⟨mapM_ok_iff.mp ⟨results, houtcome⟩, h⟩, fun h => h.2⟩
    | error e =>
      rw [houtcome] at hbatch
      refine ⟨.error e, requests, ?_, ?_⟩
      · rw [executeBatches, eval_bind_of_error hbatch]
      · rw [hsplit]
        refine ⟨(by simp), fun h => ?_⟩
        obtain ⟨results, hok⟩ := mapM_ok_iff.mpr h.1
        rw [houtcome] at hok
        cases hok

theorem eval_trades (script : Script) (event : RebalancingEvent) (w : RebalanceWorld) :
    ∃ (outcome : Except Failure Unit) (requests : List TradeRequest), eval (perform script)
        (executeBatches event (batchesOfThree event.trades) 0) w =
          (outcome, { w with log := w.log ++ requests.map (Entry.trade event.id w.call) }) ∧
      (outcome = .ok () ↔ NoException script event) := by
  obtain ⟨outcome, requests, heval, hiff⟩ := eval_executeBatches script event
    (batchesOfThree event.trades) 0 w
  refine ⟨outcome, requests, heval, ?_⟩
  rw [hiff, flatten_batchesOfThree]
  refine ⟨fun h k hk => h k ?_, fun h k hk => h k ?_⟩
  · exact mem_range'_1.mpr ⟨Nat.zero_le k, by omega⟩
  · have hbounds := mem_range'_1.mp hk
    omega

theorem eval_now (w : RebalanceWorld) :
    eval (perform script) (askRebalance .now) w = (.ok script.time, w) :=
  rfl

variable {op : RebalanceOp} {w w' w₁ : RebalanceWorld} {event : RebalancingEvent}
  {portfolio : PortfolioRow}

theorem eval_call_ok_iff {a : op.Res} : eval (perform script) (askRebalance op) w = (.ok a, w') ↔
    script.failureOf op = none ∧ w.serve script op = (.ok a, w') := by
  rw [eval_call, perform_ok_iff]

theorem failureOf_eq_none (hfault : script.fault op = none) : script.failureOf op = none := by
  cases op with
  | executeBatch _ _ _ | now => rfl
  | _ => exact hfault

theorem eval_call_of_fault {fault : Fault} (w : RebalanceWorld)
    (hfault : script.failureOf op = some fault) :
    ∃ e w', eval (perform script) (askRebalance op) w = (.error e, w') := by
  rw [eval_call, perform, hfault]
  cases fault <;> exact ⟨_, _, rfl⟩

/-- What has to go well for the event to be completed. -/
def Traded (script : Script) (event : RebalancingEvent) (portfolio : PortfolioRow) : Prop :=
  NoException script event ∧
    script.fault (.savePortfolio (rebalancedPortfolio script event portfolio)) = none

theorem eval_tradeEvent (script : Script) (args : Execution) (event : RebalancingEvent)
    (portfolio : PortfolioRow) (w : RebalanceWorld) :
    (∃ w', eval (perform script) (tradeEvent args event portfolio) w =
      (.ok (completedEvent script args event), w') ∧ WritesAllocation w' ∧
        Traded script event portfolio) ∨
    ∃ e w', eval (perform script) (tradeEvent args event portfolio) w = (.error e, w') ∧
      ¬ Traded script event portfolio := by
  obtain ⟨outcome, requests, hbatches, hiff⟩ := eval_trades script event w
  let w₁ : RebalanceWorld :=
    { w with log := w.log ++ requests.map (Entry.trade event.id w.call) }
  cases outcome with
  | error e =>
    refine Or.inr ⟨e, w₁, eval_bind_of_error hbatches, fun h => ?_⟩
    cases hiff.mpr h.1
  | ok _ =>
    let save := RebalanceOp.savePortfolio (rebalancedPortfolio script event portfolio)
    cases hsave : script.failureOf save with
    | some fault =>
      obtain ⟨e, w₂, hcall⟩ := eval_call_of_fault w₁ hsave
      refine Or.inr ⟨e, w₂, ?_, fun h => nomatch hsave.symm.trans h.2⟩
      refine (eval_bind_of_ok hbatches).trans ?_
      exact (eval_bind_of_ok (eval_now _)).trans (eval_bind_of_error hcall)
    | none =>
      refine Or.inl ⟨(w₁.serve script save).2, ?_, ?_, hiff.mp rfl, hsave⟩
      · refine (eval_bind_of_ok hbatches).trans ?_
        refine (eval_bind_of_ok (eval_now _)).trans ?_
        exact eval_bind_of_ok (eval_call_ok_iff.mpr ⟨hsave, rfl⟩)
      · exact ⟨portfolio.id, event.allocationAfter, mem_append_right _ mem_cons_self⟩

/-! ## The status completed -/

def RebalanceOp.completes : RebalanceOp → Bool
  | .saveEvent event | .insertEvent event => event.status = .completed
  | _ => false

abbrev NeverCompletes {α : Type} (p : RebalanceProgram α) : Prop :=
  Async.Awaits (fun op : RebalanceOp => op.completes = false) p

theorem storesCompleted_of_perform (hop : op.completes = false)
    (h : StoresCompleted (w.perform script op).2) : StoresCompleted w := by
  obtain ⟨id, hmem⟩ := h
  rcases log_perform script op w with hsame | hmore
  · rw [hsame] at hmem
    exact ⟨id, hmem⟩
  · rw [hmore] at hmem
    refine ⟨id, (mem_append.mp hmem).resolve_right fun hentry => ?_⟩
    cases op <;> simp_all [RebalanceOp.entries, RebalanceOp.completes]

variable {p : RebalanceProgram α}

theorem StoresCompleted.mono (h : StoresCompleted w) (hlog : w.log <+: w'.log) :
    StoresCompleted w' := by
  obtain ⟨id, hmem⟩ := h
  exact ⟨id, hlog.subset hmem⟩

theorem storesCompleted_eval_iff (hp : NeverCompletes p) :
    StoresCompleted (eval (perform script) p w).2 ↔ StoresCompleted w := by
  have htrans : ∀ {w₁ w₂ w₃ : RebalanceWorld}, (StoresCompleted w₂ → StoresCompleted w₁) →
      (StoresCompleted w₃ → StoresCompleted w₂) → StoresCompleted w₃ → StoresCompleted w₁ :=
    fun h h' h₃ => h (h' h₃)
  refine ⟨?_, fun h => h.mono (log_prefix_eval script p w)⟩
  exact eval_rel_of_awaits (R := fun w w' => StoresCompleted w' → StoresCompleted w)
    (fun _ h => h) htrans (fun op w hop => storesCompleted_of_perform hop) hp w

theorem awaits_executeBatches (event : RebalancingEvent) (batches : List (List RebalanceTrade))
    (start : Nat) : NeverCompletes (executeBatches event batches start) := by
  induction batches generalizing start with
  | nil => trivial
  | cons batch rest ih => exact awaits_bind (awaits_call rfl) fun _ => ih _

theorem awaits_tradeEvent (event : RebalancingEvent) (portfolio : PortfolioRow) :
    NeverCompletes (tradeEvent args event portfolio) := by
  refine awaits_bind (awaits_executeBatches event _ 0) fun _ => ?_
  refine awaits_bind (awaits_call rfl) fun _ => ?_
  refine awaits_bind (awaits_call rfl) fun _ => ?_
  refine awaits_bind (awaits_call rfl) fun _ => ?_
  exact awaits_bind (awaits_call rfl) fun _ => trivial

theorem awaits_failEvent (event : RebalancingEvent) (portfolio : PortfolioRow) (e : Failure) :
    NeverCompletes (failEvent event portfolio e) := by
  refine awaits_bind (awaits_call rfl) fun _ => ?_
  exact awaits_bind (awaits_call rfl) fun _ => trivial

theorem awaits_refuseSlippage (event : RebalancingEvent) (portfolio : PortfolioRow)
    (error : String) : NeverCompletes (refuseSlippage args event portfolio error) := by
  refine awaits_bind (awaits_call rfl) fun _ => ?_
  refine awaits_bind (awaits_call rfl) fun _ => ?_
  exact awaits_bind (awaits_call rfl) fun _ => trivial

/-! ## The end of a call -/

variable {completed : RebalancingEvent}

theorem WritesAllocation.mono (h : WritesAllocation w) (hlog : w.log <+: w'.log) :
    WritesAllocation w' := by
  obtain ⟨id, allocation, hmem⟩ := h
  exact ⟨id, allocation, hlog.subset hmem⟩

def Completes (w : RebalanceWorld) : Prop :=
  StoresCompleted w ∧ WritesAllocation w

theorem storesCompleted_finishEvent_iff (hstatus : completed.status = .completed)
    (hnot : ¬ StoresCompleted w) :
    StoresCompleted (eval (perform script) (finishEvent completed portfolio) w).2 ↔
      ∀ e, script.fault (.saveEvent completed) ≠ some (.rejected e) := by
  constructor
  · intro h e hfault
    have hfinish : eval (perform script) (finishEvent completed portfolio) w = (.error e, w) := by
      refine eval_bind_of_error ((eval_call (I := rebalanceInterface) _ w).trans ?_)
      simp only [perform, Script.failureOf, hfault]
      rfl
    rw [hfinish] at h
    exact hnot h
  · intro hfault
    have hworld : (w.perform script (.saveEvent completed)).2 = w.storeEvent completed := by
      rcases hfailure : script.fault (.saveEvent completed) with - | e | e
      · simp [perform, Script.failureOf, hfailure, serve]
      · exact (hfault e hfailure).elim
      · simp [perform, Script.failureOf, hfailure, serve]
    have hsaved : StoresCompleted (w.perform script (.saveEvent completed)).2 := by
      rw [hworld]
      exact ⟨completed.id, mem_append_right _ (by rw [hstatus]; exact mem_cons_self)⟩
    have hcall : eval (perform script) (askRebalance (.saveEvent completed)) w =
        w.perform script (.saveEvent completed) := eval_call _ w
    rw [← hcall] at hsaved
    exact hsaved.mono (log_prefix_bind script _ _ w)

theorem storesCompleted_completeEvent_ok
    (htrade : eval (perform script) (tradeEvent args event portfolio) w = (.ok completed, w₁)) :
    StoresCompleted (eval (perform script) (completeEvent args event portfolio) w).2 ↔
      StoresCompleted (eval (perform script) (finishEvent completed portfolio) w₁).2 := by
  rw [completeEvent, eval_bind, eval_attempt, htrade]
  simp only [eval_bind, eval_attempt]
  rcases hfinish : eval (perform script) (finishEvent completed portfolio) w₁ with ⟨outcome, w₂⟩
  rw [hfinish]
  cases outcome with
  | error e => exact storesCompleted_eval_iff (awaits_failEvent completed portfolio e)
  | ok _ => exact Iff.rfl

theorem storesCompleted_completeEvent_iff (hnot : ¬ StoresCompleted w) :
    StoresCompleted (eval (perform script) (completeEvent args event portfolio) w).2 ↔
      Traded script event portfolio ∧
      ∀ e, script.fault (.saveEvent (completedEvent script args event)) ≠ some (.rejected e) := by
  have hkeeps : ¬ StoresCompleted (eval (perform script) (tradeEvent args event portfolio) w).2 :=
    mt (storesCompleted_eval_iff (awaits_tradeEvent event portfolio)).mp hnot
  rcases eval_tradeEvent script args event portfolio w with
    ⟨w₁, htrade, -, htraded⟩ | ⟨e, w₁, htrade, hnever⟩
  · rw [htrade] at hkeeps
    rw [storesCompleted_completeEvent_ok htrade, storesCompleted_finishEvent_iff rfl hkeeps]
    exact (and_iff_right htraded).symm
  · rw [htrade] at hkeeps
    rw [completeEvent, eval_bind, eval_attempt, htrade]
    refine ⟨fun h => ?_, fun h => (hnever h.1).elim⟩
    exact (hkeeps ((storesCompleted_eval_iff (awaits_failEvent event portfolio e)).mp h)).elim

theorem writesAllocation_completeEvent (args : Execution) (w : RebalanceWorld)
    (htraded : Traded script event portfolio) :
    WritesAllocation (eval (perform script) (completeEvent args event portfolio) w).2 := by
  have hprefix : (eval (perform script) (tradeEvent args event portfolio).attempt w).2.log <+:
      (eval (perform script) (completeEvent args event portfolio) w).2.log :=
    log_prefix_bind script _ _ w
  rcases eval_tradeEvent script args event portfolio w with
    ⟨w₁, htrade, hwrites, -⟩ | ⟨e, w₁, -, hnever⟩
  · rw [eval_attempt, htrade] at hprefix
    exact hwrites.mono hprefix
  · exact (hnever htraded).elim

/-! ## A whole call -/

variable {cfg : RebalanceConfig}

theorem validateSlippage_eq_none_iff {slippage : ℚ} :
    validateSlippage cfg slippage = none ↔ slippage ≤ 2 / 100 := by
  rw [validateSlippage]
  split_ifs with hlimit
  · simpa using hlimit
  · simpa using not_lt.mp hlimit

theorem storesCompleted_of_bind {f : α → RebalanceProgram β} (hp : NeverCompletes p)
    (hnot : ¬ StoresCompleted w) (h : StoresCompleted (eval (perform script) (p >>= f) w).2) :
    ∃ a w₁, eval (perform script) p w = (.ok a, w₁) ∧ ¬ StoresCompleted w₁ ∧
      StoresCompleted (eval (perform script) (f a) w₁).2 := by
  have hnot₁ : ¬ StoresCompleted (eval (perform script) p w).2 :=
    mt (storesCompleted_eval_iff hp).mp hnot
  rcases heval : eval (perform script) p w with ⟨outcome, w₁⟩
  rw [heval] at hnot₁
  cases outcome with
  | ok a =>
    rw [eval_bind_of_ok heval] at h
    exact ⟨a, w₁, heval, hnot₁, h⟩
  | error e =>
    rw [eval_bind_of_error heval] at h
    exact (hnot₁ h).elim

theorem executeEvent_eq (hslippage : args.slippage ≤ 2 / 100) (hdry : args.dryRun = false) :
    executeEvent cfg args event portfolio = (do
      askRebalance (.saveEvent { event with status := .inProgress })
      completeEvent args { event with status := .inProgress } portfolio) := by
  simp [executeEvent, validateSlippage_eq_none_iff.mpr hslippage, hdry]

theorem of_storesCompleted_executeEvent (hnot : ¬ StoresCompleted w)
    (h : StoresCompleted (eval (perform script) (executeEvent cfg args event portfolio) w).2) :
    args.slippage ≤ 2 / 100 ∧ args.dryRun = false := by
  rw [executeEvent] at h
  split at h
  · exact (hnot ((storesCompleted_eval_iff (awaits_refuseSlippage event portfolio _)).mp h)).elim
  · rename_i hslippage
    refine ⟨validateSlippage_eq_none_iff.mp hslippage, eq_false_of_ne_true fun hdry => hnot ?_⟩
    rwa [if_pos hdry] at h

variable {id : Nat}

theorem eval_findEvent_ok_iff {found : Option PortfolioRow} :
    eval (perform script) (findEvent id) w = (.ok (event, found), w') ↔
      script.fault (.findEvent id) = none ∧ w.events id = some event ∧
        found = w.portfolio event.portfolioId ∧ w' = w := by
  constructor
  · intro h
    obtain ⟨row, w₁, hcall, h⟩ := eval_bind_ok h
    obtain ⟨hfault, hserve⟩ := eval_call_ok_iff.mp hcall
    cases hevent : w.events id with
    | none =>
      rw [serve, hevent] at hserve
      cases hserve
      cases h
    | some event =>
      rw [serve, hevent] at hserve
      cases hserve
      cases h
      exact ⟨hfault, rfl, rfl, rfl⟩
  · rintro ⟨hfault, hevent, rfl, hworld⟩
    cases hworld
    have hcall : eval (perform script) (askRebalance (.findEvent id)) w =
        (.ok (some (event, w.portfolio event.portfolioId)), w) := by
      refine eval_call_ok_iff.mpr ⟨hfault, ?_⟩
      rw [serve, hevent]
      rfl
    exact eval_bind_of_ok hcall

theorem not_storesCompleted_start (w : RebalanceWorld) : ¬ StoresCompleted { w with log := [] } :=
  fun h => not_mem_nil h.choose_spec

theorem completes_of_unhindered (cfg : RebalanceConfig)
    (hcall : Unhindered script args w event portfolio) (htrades : NoException script event) :
    Completes (executed cfg script args w) := by
  have hfind := (eval_findEvent_ok_iff (w := { w with log := [] })).mpr
    ⟨hcall.find, hcall.event_found, hcall.portfolio_found.symm, rfl⟩
  have heval : executed cfg script args w = (eval (perform script)
      (completeEvent args { event with status := .inProgress } portfolio)
      (storeEvent { w with log := [] } { event with status := .inProgress })).2 := by
    refine congrArg Prod.snd ((eval_bind_of_ok hfind).trans ?_)
    refine (eval_bind_of_ok (eval_call_ok_iff.mpr ⟨failureOf_eq_none hcall.announce, rfl⟩)).trans ?_
    rw [executeEvent_eq hcall.slippage hcall.not_dry]
    exact eval_bind_of_ok (eval_call_ok_iff.mpr ⟨failureOf_eq_none hcall.start, rfl⟩)
  have hnot : ¬ StoresCompleted
      (storeEvent { w with log := [] } { event with status := .inProgress }) := by
    simp [StoresCompleted, storeEvent]
  rw [heval]
  exact ⟨(storesCompleted_completeEvent_iff hnot).mpr ⟨⟨htrades, hcall.save⟩, hcall.complete⟩,
    writesAllocation_completeEvent args _ ⟨htrades, hcall.save⟩⟩

theorem awaits_findEvent (id : Nat) : NeverCompletes (findEvent id) := by
  refine awaits_bind (awaits_call rfl) fun found => ?_
  cases found <;> trivial

theorem storesCompleted_iff (cfg : RebalanceConfig) (script : Script) (args : Execution)
    (w : RebalanceWorld) : StoresCompleted (executed cfg script args w) ↔
      ∃ event portfolio, Unhindered script args w event portfolio ∧ NoException script event := by
  constructor
  · intro h
    obtain ⟨⟨event, found⟩, w₁, hfind, hnot, h⟩ :=
      storesCompleted_of_bind (awaits_findEvent args.eventId) (not_storesCompleted_start w) h
    obtain ⟨hfault, hevent, hfound, rfl⟩ := eval_findEvent_ok_iff.mp hfind
    cases found with
    | none => exact (hnot h).elim
    | some portfolio =>
      obtain ⟨_, w₂, hannounce, hnot₂, h⟩ := storesCompleted_of_bind (awaits_call rfl) hnot h
      obtain ⟨hslippage, hdry⟩ := of_storesCompleted_executeEvent hnot₂ h
      rw [executeEvent_eq hslippage hdry] at h
      obtain ⟨_, w₃, hstart, hnot₃, h⟩ := storesCompleted_of_bind (awaits_call rfl) hnot₂ h
      obtain ⟨⟨htrades, hsave⟩, hstored⟩ := (storesCompleted_completeEvent_iff hnot₃).mp h
      exact ⟨event, portfolio, ⟨hevent, hfound.symm, hslippage, hdry, hfault,
        (eval_call_ok_iff.mp hannounce).1, (eval_call_ok_iff.mp hstart).1, hsave, hstored⟩, htrades⟩
  · rintro ⟨event, portfolio, hcall, htrades⟩
    exact (completes_of_unhindered cfg hcall htrades).1

/-- A completed event means successful trades exactly where something hinders the call, a trade
throws, or every trade returns `success = true`. -/
theorem completed_only_if_traded_iff (cfg : RebalanceConfig) (script : Script) (args : Execution)
    (w : RebalanceWorld) : CompletedOnlyIfTraded cfg script args w ↔
      ∀ event portfolio, Unhindered script args w event portfolio →
        (∃ k < event.trades.length, ∃ e, script.trade k = .error e) ∨
        ∀ k < event.trades.length, ∃ result,
          script.trade k = .ok result ∧ result.success = true := by
  constructor
  · intro hlaw event portfolio hcall
    by_cases hthrows : ∃ k < event.trades.length, ∃ e, script.trade k = .error e
    · exact Or.inl hthrows
    · have htrades : NoException script event := by
        intro k hk
        cases htrade : script.trade k with
        | ok result => exact ⟨result, rfl⟩
        | error e => exact (hthrows ⟨k, hk, e, htrade⟩).elim
      obtain ⟨hstores, hwrites⟩ := completes_of_unhindered cfg hcall htrades
      exact Or.inr (hlaw hstores hwrites event hcall.event_found)
  · intro hcondition hstores _ event hevent
    obtain ⟨event', portfolio, hcall, htrades⟩ := (storesCompleted_iff cfg script args w).mp hstores
    cases hevent.symm.trans hcall.event_found
    rcases hcondition event portfolio hcall with ⟨k, hk, e, hthrows⟩ | hsuccess
    · obtain ⟨result, hok⟩ := htrades k hk
      cases hthrows.symm.trans hok
    · exact hsuccess

/-! ### A trade that fails -/

def plainNumbers : RebalanceConfig where
  numberText q := toString q

def oneTradeEvent : RebalancingEvent where
  portfolioId := "p"
  allocationAfter := .ofList [("XLM", 100)]
  trades := [{ ticker := "XLM", action := .buy, quantity := 1, price := 1, value := 1 }]

def oneTradeWorld : RebalanceWorld where
  portfolios := [{ id := "p", userId := "u", name := "n" }]
  events := fun id => if id = 0 then some oneTradeEvent else none
  inserted := 1

/-- Every trade is refused for want of balance; nothing else fails. -/
def refusedTrades : Script where
  trade _ := .ok
    { success := false, executedQuantity := 0, executedPrice := 0, status := .failed,
      errorReason := some "INSUFFICIENT_BALANCE", timestamp := 0, clientRequestId := none }

theorem failed_trade_completes :
    ¬ CompletedOnlyIfTraded plainNumbers refusedTrades { eventId := 0 } oneTradeWorld := by
  intro hlaw
  have hcall : Unhindered refusedTrades { eventId := 0 } oneTradeWorld oneTradeEvent
      { id := "p", userId := "u", name := "n" } :=
    ⟨rfl, by decide, by norm_num, rfl, rfl, rfl, rfl, rfl, fun _ h => by cases h⟩
  obtain ⟨hstores, hwrites⟩ := completes_of_unhindered plainNumbers hcall fun k _ => ⟨_, rfl⟩
  obtain ⟨result, hresult, hsuccess⟩ := hlaw hstores hwrites oneTradeEvent rfl 0 (by decide)
  cases hresult
  cases hsuccess

end Trellis.Investment
