import Trellis.Portfolio.Rebalancing

/-!
# Client references of rebalancing calls

What a call of `executeRebalancing` submits and leaves in the execution history, which is keyed by
portfolio and reference and also written by dry runs, and in the idempotency map of the trading
service, which is keyed by reference and asset and knows no portfolio.
-/

namespace Trellis.Portfolio

open Trellis.Core Trellis.Trading RebalancingWorld Async List RebalancingStep

/-! ## Request ids -/

variable {reference : Option String}

theorem tradeRequestId_inj {asset asset' id : String} (h : tradeRequestId reference asset = some id)
    (h' : tradeRequestId reference asset' = some id) : asset = asset' := by
  unfold tradeRequestId at h h'
  split at h
  · rename_i htruthy
    rw [if_pos htruthy] at h'
    obtain ⟨r, hr, heq⟩ := Option.map_eq_some_iff.mp h
    obtain ⟨r', hr', heq'⟩ := Option.map_eq_some_iff.mp h'
    cases hr.symm.trans hr'
    exact String.append_right_inj _ |>.mp (heq.trans heq'.symm)
  · cases h

theorem tradeRequestId_ne_empty {asset id : String}
    (h : tradeRequestId reference asset = some id) : id ≠ "" := by
  unfold tradeRequestId at h
  split at h
  · obtain ⟨r, -, rfl⟩ := Option.map_eq_some_iff.mp h
    intro hempty
    have hlength := congrArg String.length hempty
    simp at hlength
  · cases h

/-! ## One trade -/

section Trade

variable (cfg : TradingConfig) (time : Int) (portfolioId : String) (reference : Option String)
  (rec : RebalancingRecommendation) (t : TradingWorld Unit)

theorem failureMode_tradeRequestOf :
    failureMode (tradeRequestOf portfolioId reference rec) (2 / 100) = none := by
  have hdrift : ¬ (rec.price > 0 ∧ |rec.price - rec.price| / rec.price > 2 / 100) := by
    rintro ⟨-, h⟩
    norm_num at h
  exact (if_neg hdrift).trans rfl

def entered (map : String → Option TradeResult) (id : Option String) (result : TradeResult) :
    String → Option TradeResult :=
  match id with
  | some id => Function.update map id (some result)
  | none => map

theorem eval_remember (result : TradeResult) : ∃ t', eval (TradingWorld.serve () time)
      (Trading.remember (tradeRequestOf portfolioId reference rec) result) t = (.ok (), t') ∧
    t'.idempotency = entered t.idempotency (tradeRequestId reference rec.asset) result ∧
    t'.trades = t.trades := by
  have hrequest : (tradeRequestOf portfolioId reference rec).clientRequestId =
      tradeRequestId reference rec.asset := rfl
  cases hid : tradeRequestId reference rec.asset with
  | none =>
    rw [remember_of_not_truthy (by rw [hrequest, hid]; rfl)]
    exact ⟨t, rfl, rfl, rfl⟩
  | some id =>
    rw [remember_of_id (hrequest.trans hid) (tradeRequestId_ne_empty hid)]
    exact ⟨_, rfl, rfl, rfl⟩

theorem eval_processNewTrade : ∃ result hash t', eval (TradingWorld.serve () time)
      (processNewTrade cfg (tradeRequestOf portfolioId reference rec) (2 / 100) none) t =
        (.ok result, t') ∧ result.success = true ∧
    t'.idempotency = entered t.idempotency (tradeRequestId reference rec.asset) result ∧
    t'.trades = t.trades ++ [(tradeRequestOf portfolioId reference rec, hash, result)] := by
  have hnew : processNewTrade cfg (tradeRequestOf portfolioId reference rec) (2 / 100) none =
      executeSubmission cfg (tradeRequestOf portfolioId reference rec) (2 / 100) none := by
    unfold processNewTrade
    rw [deadlineExceeded, done_bind, failureMode_tradeRequestOf]
  generalize hrequest : tradeRequestOf portfolioId reference rec = request at hnew ⊢
  have hmock : submitTrade cfg request none = submitMock cfg request := by
    rw [← hrequest]
    rfl
  obtain ⟨hash, hsubmit⟩ : ∃ hash, eval (TradingWorld.serve () time)
      (submitMock cfg request).attempt t = (.ok (.ok (some hash)), t.read () time) := ⟨_, rfl⟩
  obtain ⟨result, hconfirm, hsuccess⟩ : ∃ result, eval (TradingWorld.serve () time)
      (confirmTrade request (2 / 100) hash) (t.read () time) = eval (TradingWorld.serve () time)
          (Trading.remember request result >>= fun _ => .done result)
          { (t.read () time).read () time with trades := t.trades ++ [(request, hash, result)] } ∧
      result.success = true := ⟨_, rfl, rfl⟩
  obtain ⟨t', heval, hmap, htrades⟩ := eval_remember time portfolioId reference rec
    { (t.read () time).read () time with trades := t.trades ++ [(request, hash, result)] } result
  rw [hrequest] at heval
  refine ⟨result, hash, t', ?_, hsuccess, hmap, htrades⟩
  rw [hnew, executeSubmission, hmock, eval_bind, hsubmit]
  change eval (TradingWorld.serve () time) (confirmTrade request (2 / 100) hash)
    (t.read () time) = _
  rw [hconfirm, eval_bind, heval]
  rfl

theorem eval_recall : ∃ t', eval (TradingWorld.serve () time)
      (Trading.recalled (tradeRequestOf portfolioId reference rec)) t =
        (.ok ((tradeRequestId reference rec.asset).bind t.idempotency), t') ∧
    t'.idempotency = t.idempotency ∧ t'.trades = t.trades := by
  have hrequest : (tradeRequestOf portfolioId reference rec).clientRequestId =
      tradeRequestId reference rec.asset := rfl
  cases hid : tradeRequestId reference rec.asset with
  | none =>
    rw [recall_of_not_truthy (by rw [hrequest, hid]; rfl)]
    exact ⟨t, rfl, rfl, rfl⟩
  | some id =>
    rw [recall_of_id (hrequest.trans hid) (tradeRequestId_ne_empty hid)]
    refine ⟨t.check () id, rfl, ?_⟩
    unfold TradingWorld.check
    split <;> exact ⟨rfl, rfl⟩

theorem eval_processTrade : ∃ result t', eval (TradingWorld.serve () time)
      (processTrade cfg (tradeRequestOf portfolioId reference rec)) t = (.ok result, t') ∧
    match (tradeRequestId reference rec.asset).bind t.idempotency with
    | some _ => t'.idempotency = t.idempotency ∧ t'.trades = t.trades
    | none =>
      t'.idempotency = entered t.idempotency (tradeRequestId reference rec.asset) result ∧
        ∃ hash, t'.trades =
          t.trades ++ [(tradeRequestOf portfolioId reference rec, hash, result)] := by
  have hstart : processTrade cfg (tradeRequestOf portfolioId reference rec) =
      Trading.recalled (tradeRequestOf portfolioId reference rec) >>= fun found =>
        match found with
        | some result => .done result
        | none => processNewTrade cfg (tradeRequestOf portfolioId reference rec) (2 / 100)
            none := rfl
  obtain ⟨t₁, hrecall, hmap₁, htrades₁⟩ := eval_recall time portfolioId reference rec t
  rw [hstart, eval_bind, hrecall]
  cases (tradeRequestId reference rec.asset).bind t.idempotency with
  | some earlier => exact ⟨earlier, t₁, rfl, hmap₁, htrades₁⟩
  | none =>
    obtain ⟨result, hash, t', heval, -, hmap, htrades⟩ :=
      eval_processNewTrade cfg time portfolioId reference rec t₁
    rw [hmap₁] at hmap
    rw [htrades₁] at htrades
    exact ⟨result, t', heval, hmap, hash, htrades⟩

end Trade

/-! ## The trades of a call -/

/-- The request id is in the idempotency map of the trading service, if there is one. -/
def RebalancingWorld.isUsed (cfg : RebalancingConfig) (w : RebalancingWorld)
    (id : Option String) : Bool :=
  cfg.trading.isSome && (id.bind w.trading.idempotency).isSome

/-- What a call that trades `recs` does: those whose ids are not used are submitted, and then all
ids are used. -/
structure Traded (cfg : RebalancingConfig) (portfolioId : String) (reference : Option String)
    (recs : List RebalancingRecommendation) (w w' : RebalancingWorld) : Prop where
  executions : w'.executions = w.executions
  submitted : w'.submitted cfg = w.submitted cfg ++
    (recs.filter fun rec => !w.isUsed cfg (tradeRequestId reference rec.asset)).map
      (tradeRequestOf portfolioId reference)
  used : ∀ id, w'.isUsed cfg (some id) = true ↔ w.isUsed cfg (some id) = true ∨
    (cfg.trading.isSome = true ∧ ∃ rec ∈ recs, tradeRequestId reference rec.asset = some id)

variable {rec : RebalancingRecommendation} {recs : List RebalancingRecommendation} (time : Int)

section Traded

variable {cfg : RebalancingConfig} {portfolioId : String} {reference : Option String}
  {w w' w'' : RebalancingWorld}

theorem Traded.nil : Traded cfg portfolioId reference [] w w where
  executions := rfl
  submitted := (append_nil _).symm
  used id := by simp

variable (h : Traded cfg portfolioId reference [rec] w w')
include h

theorem Traded.isUsed_of_ne {asset : String} (hne : asset ≠ rec.asset) :
    w'.isUsed cfg (tradeRequestId reference asset) =
      w.isUsed cfg (tradeRequestId reference asset) := by
  cases hid : tradeRequestId reference asset with
  | none => simp [isUsed]
  | some id =>
    refine Bool.eq_iff_iff.mpr ((h.used id).trans (or_iff_left ?_))
    rintro ⟨-, rec', hrec', hid'⟩
    rw [mem_singleton.mp hrec'] at hid'
    exact hne (tradeRequestId_inj hid hid')

theorem Traded.cons
    (h' : Traded cfg portfolioId reference recs w' w'') (hnew : rec.asset ∉ recs.map (·.asset)) :
    Traded cfg portfolioId reference (rec :: recs) w w'' where
  executions := h'.executions.trans h.executions
  submitted := by
    have hrest : recs.filter (fun r => !w'.isUsed cfg (tradeRequestId reference r.asset)) =
        recs.filter fun r => !w.isUsed cfg (tradeRequestId reference r.asset) := by
      refine filter_congr fun r hr => ?_
      rw [h.isUsed_of_ne fun heq => hnew (heq ▸ mem_map_of_mem hr)]
    rw [h'.submitted, h.submitted, hrest, append_assoc, ← map_append, ← filter_append]
    rfl
  used id := by
    rw [h'.used, h.used, or_assoc, ← and_or_left]
    simp

omit h

def tradingPart : Async.Part RebalancingWorld (TradingWorld Unit) where
  get w := w.trading
  put w t := { w with trading := t }
  get_put _ _ := rfl
  put_put _ _ _ := rfl
  put_get _ := rfl

theorem eval_executeTrade {trading : TradingConfig} (hcfg : cfg.trading = some trading)
    (time : Int) (request : TradeRequest) (w : RebalancingWorld) :
    eval (perform time) (executeTrade cfg request) w =
      ((eval (TradingWorld.serve () time) (processTrade trading request) w.trading).1,
        { w with trading := (eval (TradingWorld.serve () time)
          (processTrade trading request) w.trading).2 }) := by
  unfold executeTrade
  rw [hcfg]
  exact eval_lift tradingPart (fun op w => ⟨congrFun Except.map_id _, rfl⟩)
    (processTrade trading request) w

theorem executeTrade_traded (rec : RebalancingRecommendation) (w : RebalancingWorld) :
    ∃ result w', eval (perform time)
        (executeTrade cfg (tradeRequestOf portfolioId reference rec)) w = (.ok result, w') ∧
      Traded cfg portfolioId reference [rec] w w' := by
  cases hcfg : cfg.trading with
  | none =>
    have hunused : ∀ (v : RebalancingWorld) id, v.isUsed cfg id = false := fun v id => by
      simp [isUsed, hcfg]
    unfold executeTrade
    rw [hcfg]
    refine ⟨_, { w with direct := w.direct ++ [tradeRequestOf portfolioId reference rec] }, rfl,
      rfl, ?_, fun id => ?_⟩
    · simp [submitted, hcfg, hunused]
    · simp [hunused, hcfg]
  | some trading =>
    obtain ⟨result, t', heval, heffect⟩ :=
      eval_processTrade trading time portfolioId reference rec w.trading
    rw [eval_executeTrade hcfg, heval]
    refine ⟨result, _, rfl, rfl, ?_, fun id => ?_⟩
    · simp only [submitted, isUsed, hcfg]
      cases hfound : (tradeRequestId reference rec.asset).bind w.trading.idempotency with
      | some earlier =>
        rw [hfound] at heffect
        simp [heffect.2, hfound]
      | none =>
        rw [hfound] at heffect
        obtain ⟨-, hash, htrades⟩ := heffect
        simp [htrades, hfound]
    · have hsingle : (∃ r ∈ [rec], tradeRequestId reference r.asset = some id) ↔
          tradeRequestId reference rec.asset = some id := by simp
      simp only [isUsed, hcfg, Option.isSome_some, Bool.true_and, true_and,
        Option.bind_some, hsingle]
      cases hfound : (tradeRequestId reference rec.asset).bind w.trading.idempotency with
      | some earlier =>
        rw [hfound] at heffect
        obtain ⟨id', hid', hentry⟩ := Option.bind_eq_some_iff.mp hfound
        rw [heffect.1, hid']
        refine ⟨.inl, fun h => h.elim (fun h => h) fun heq => ?_⟩
        cases heq
        rw [hentry]
        rfl
      | none =>
        rw [hfound] at heffect
        rw [heffect.1]
        cases hid : tradeRequestId reference rec.asset with
        | none => simp [entered]
        | some id' =>
          by_cases heq : id' = id
          · subst heq
            simp [entered]
          · simp [entered, Function.update_of_ne (Ne.symm heq), heq]

theorem eval_executeTrades_cons {time : Int}
    {outcome : Except Failure TradeResult} (heval : eval (perform time)
      (executeTrade cfg (tradeRequestOf portfolioId reference rec)) w = (outcome, w'))
    (recs : List RebalancingRecommendation) (progress : Progress) : ∃ progress₁, eval (perform time)
        (executeTrades cfg portfolioId reference (rec :: recs) progress) w = eval (perform time)
            (executeTrades cfg portfolioId reference recs progress₁) w' ∧
      (progress₁.failedTrades = [] → progress.failedTrades = [] ∧ progress₁.holdings =
        progress.holdings.set rec.asset (tradedHolding rec (progress.holdings.get rec.asset))) := by
  have hattempt : eval (perform time)
      (executeTrade cfg (tradeRequestOf portfolioId reference rec)).attempt w =
        (.ok outcome, w') := by
    rw [eval_attempt, heval]
  have hfailed : ∀ error, (progress.failed rec error).failedTrades ≠ [] := fun error =>
    append_ne_nil_of_right_ne_nil _ (cons_ne_nil _ _)
  rw [executeTrades, eval_bind_of_ok hattempt]
  cases outcome with
  | ok result =>
    by_cases hsuccess : result.success = true
    · exact ⟨progress.executed rec result, by simp only [hsuccess, if_true], fun h => ⟨h, rfl⟩⟩
    · exact ⟨progress.failed rec _, by simp only [hsuccess]; rfl, fun h => (hfailed _ h).elim⟩
  | error e => exact ⟨progress.failed rec _, rfl, fun h => (hfailed _ h).elim⟩

theorem executeTrades_traded (recs : List RebalancingRecommendation)
    (hnodup : (recs.map (·.asset)).Nodup) (progress : Progress) (w : RebalancingWorld) :
    ∃ progress' w', eval (perform time)
        (executeTrades cfg portfolioId reference recs progress) w = (.ok progress', w') ∧
      Traded cfg portfolioId reference recs w w' := by
  induction recs generalizing progress w with
  | nil => exact ⟨progress, w, rfl, .nil⟩
  | cons rec recs ih =>
    rw [map_cons, nodup_cons] at hnodup
    obtain ⟨result, w₁, heval, htraded⟩ := executeTrade_traded time rec w
    -- whether the trade counts as executed does not matter for the rest of the loop
    obtain ⟨progress₁, hrest, -⟩ := eval_executeTrades_cons heval recs progress
    obtain ⟨progress', w', heval', htraded'⟩ := ih hnodup.2 progress₁ w₁
    exact ⟨progress', w', hrest.trans heval', htraded.cons htraded' hnodup.1⟩

end Traded

/-! ## One call -/

theorem nodup_assetsOf (targets : Record ℚ) (holdings : Record AssetHolding) :
    (assetsOf targets holdings).Nodup := by
  refine targets.nodup.append (holdings.nodup.filter _) fun asset hleft hright => ?_
  exact of_decide_eq_true (mem_filter.mp hright).2 hleft

section Recommendations

variable {cfg : RebalancingConfig} {targets : Record ℚ} {holdings : Record AssetHolding}
  {totalValue : ℚ} {drift : String → ℚ}

theorem asset_of_recommendationOf {asset : String}
    (hrec : recommendationOf cfg targets holdings totalValue drift asset = some rec) :
    rec.asset = asset := by
  unfold recommendationOf at hrec
  simp only at hrec
  split at hrec
  · cases hrec
  · split at hrec
    · cases hrec
    · cases hrec
      rfl

theorem nodup_recommendations {assets : List String} (hnodup : assets.Nodup) :
    ((assets.filterMap (recommendationOf cfg targets holdings totalValue drift)).map
      (·.asset)).Nodup := by
  have hsub := map_filterMap_sublist (f := recommendationOf cfg targets holdings totalValue drift)
    (fun _ _ hrec => congrArg some (asset_of_recommendationOf hrec).symm) assets
  rw [filterMap_some] at hsub
  exact hnodup.sublist hsub

variable (cfg targets holdings) in
theorem nodup_recommendationsFor (threshold : Option ℚ) :
    ((recommendationsFor cfg targets holdings threshold).map (·.asset)).Nodup := by
  unfold recommendationsFor
  simp only
  split
  · exact nodup_nil
  · split
    · exact nodup_nil
    · exact nodup_recommendations (nodup_assetsOf targets holdings)

end Recommendations

/-- What a call does whose reference is not in the execution history: it trades `recs` and
leaves its reference there. -/
structure Called (cfg : RebalancingConfig) (portfolioId : String) (reference : Option String)
    (recs : List RebalancingRecommendation) (w w' : RebalancingWorld) : Prop where
  executions : ∀ key, (w'.executions key).isSome = true ↔ (w.executions key).isSome = true ∨
    ∃ r, reference = some r ∧ r ≠ "" ∧ key = executionKey portfolioId r
  submitted : w'.submitted cfg = w.submitted cfg ++
    (recs.filter fun rec => !w.isUsed cfg (tradeRequestId reference rec.asset)).map
      (tradeRequestOf portfolioId reference)
  used : ∀ id, w'.isUsed cfg (some id) = true ↔ w.isUsed cfg (some id) = true ∨
    (cfg.trading.isSome = true ∧ ∃ rec ∈ recs, tradeRequestId reference rec.asset = some id)

section Called

variable {cfg : RebalancingConfig} {portfolioId : String} {reference : Option String}
  {recs : List RebalancingRecommendation} {w w₁ : RebalancingWorld}

theorem Called.of_known (h : ∀ key, (∃ r, reference = some r ∧ r ≠ "" ∧
    key = executionKey portfolioId r) → (w.executions key).isSome = true) :
    Called cfg portfolioId reference [] w w where
  executions key := (or_iff_left_of_imp (h key)).symm
  submitted := (append_nil _).symm
  used id := by simp

theorem eval_finish (portfolioId : String) (reference : Option String) (time : Int)
    (result : RebalancingExecutionResult) (w : RebalancingWorld) :
    ∃ executions, eval (perform time) (do remember portfolioId reference result; .done result) w =
          (.ok result, { w with executions := executions }) ∧
      ∀ key, (executions key).isSome = true ↔ (w.executions key).isSome = true ∨
        ∃ r, reference = some r ∧ r ≠ "" ∧ key = executionKey portfolioId r := by
  cases reference with
  | none => exact ⟨w.executions, rfl, by simp⟩
  | some r =>
    by_cases hempty : r = ""
    · subst hempty
      exact ⟨w.executions, rfl, by simp⟩
    · rw [remember_of_reference portfolioId hempty]
      refine ⟨_, rfl, fun key => ?_⟩
      by_cases hkey : key = executionKey portfolioId r
      · simp [hkey, hempty]
      · simp [hkey, Function.update_of_ne]

theorem Traded.called (h : Traded cfg portfolioId reference recs w w₁)
    (result : RebalancingExecutionResult) :
    Called cfg portfolioId reference recs w (eval (perform time)
      (do remember portfolioId reference result; .done result) w₁).2 := by
  obtain ⟨executions, heval, hkeys⟩ := eval_finish portfolioId reference time result w₁
  rw [heval]
  refine ⟨fun key => (hkeys key).trans ?_, h.submitted, h.used⟩
  rw [h.executions]

theorem eval_execute {time : Int} {progress : Progress}
    (heval : eval (perform time) (executeTrades cfg portfolioId reference
      recs { holdings := (w.holdings portfolioId).getD .empty }) w = (.ok progress, w₁)) :
    ∃ result : RebalancingExecutionResult, eval (perform time)
        (execute cfg portfolioId reference recs) w = eval (perform time)
          (do remember portfolioId reference result; .done result)
          { w₁ with
            holdings := Function.update w₁.holdings portfolioId (some progress.holdings) } ∧
      result.success = progress.failedTrades.isEmpty ∧
      result.resultingAllocation = calculateAllocationPercentages progress.holdings :=
  ⟨_, (eval_bind_of_ok rfl).trans ((eval_bind_of_ok heval).trans (eval_bind_of_ok rfl)), rfl, rfl⟩

theorem executeNew_called (dryRun : Bool) (w : RebalancingWorld) :
    Called cfg portfolioId reference (if dryRun then [] else w.recommendations cfg portfolioId)
      w (eval (perform time) (executeNew cfg portfolioId dryRun reference) w).2 := by
  have hrecs : eval (perform time) (getRebalancingRecommendations cfg portfolioId) w =
        (.ok (w.recommendations cfg portfolioId), w) := rfl
  have hnodup := nodup_recommendationsFor cfg (w.targets portfolioId)
    ((w.holdings portfolioId).getD .empty) (w.thresholds portfolioId)
  change ((w.recommendations cfg portfolioId).map (·.asset)).Nodup at hnodup
  unfold executeNew
  rw [eval_bind_of_ok hrecs]
  cases hlist : w.recommendations cfg portfolioId with
  | nil =>
    rw [ite_self]
    exact Traded.nil.called time _
  | cons rec recs =>
    rw [hlist] at hnodup
    cases dryRun with
    | true => exact Traded.nil.called time _
    | false =>
      obtain ⟨progress, w₁, heval, htraded⟩ := executeTrades_traded time (rec :: recs) hnodup
        { holdings := (w.holdings portfolioId).getD .empty } w
      obtain ⟨result, hexecute, -⟩ := eval_execute heval
      change Called cfg portfolioId reference (rec :: recs) w (eval
        (perform time) (execute cfg portfolioId reference (rec :: recs)) w).2
      rw [hexecute]
      have hsaved : Traded cfg portfolioId reference (rec :: recs) w { w₁ with
          holdings := Function.update w₁.holdings portfolioId (some progress.holdings) } :=
        ⟨htraded.executions, htraded.submitted, htraded.used⟩
      exact hsaved.called time _

theorem apply_call_known (dryRun : Bool) {r : String} (hne : r ≠ "")
    (hknown : (w.executions (executionKey portfolioId r)).isSome = true) :
    (call time portfolioId dryRun (some r)).apply cfg w = w := by
  obtain ⟨result, hresult⟩ := Option.isSome_iff_exists.mp hknown
  have hrecall : eval (perform time) (recalled portfolioId (some r)) w =
      (.ok (some result), w) := by
    rw [recall_of_reference portfolioId hne, ← hresult]
    rfl
  unfold apply executeRebalancing
  simp only
  rw [eval_bind, hrecall]
  rfl

/-- The reference, if there is one, is not in the execution history. -/
def IsNew (w : RebalancingWorld) (portfolioId : String) (reference : Option String) : Prop :=
  ∀ r, reference = some r → r ≠ "" → w.executions (executionKey portfolioId r) = none

theorem eval_executeRebalancing_new (dryRun : Bool)
    (hnew : IsNew w portfolioId reference) : eval (perform time)
      (executeRebalancing cfg portfolioId dryRun reference) w = eval (perform time)
          (executeNew cfg portfolioId dryRun reference) w := by
  have hrecall : eval (perform time) (recalled portfolioId reference) w = (.ok none, w) := by
    cases reference with
    | none => rfl
    | some r =>
      by_cases hempty : r = ""
      · subst hempty
        rfl
      · rw [recall_of_reference portfolioId hempty, ← hnew r rfl hempty]
        rfl
  exact eval_bind_of_ok hrecall

/-- Any other call trades, unless it is a dry run, and leaves its reference in the history. -/
theorem apply_call_new (dryRun : Bool) (hnew : IsNew w portfolioId reference) :
    Called cfg portfolioId reference (if dryRun then [] else w.recommendations cfg portfolioId) w
      ((call time portfolioId dryRun reference).apply cfg w) := by
  unfold apply
  simp only
  rw [eval_executeRebalancing_new time dryRun hnew]
  exact executeNew_called time dryRun w

end Called

/-! ## Runs -/

/-- A real call for the portfolio with the reference is among the steps. -/
def RealCall (steps : List RebalancingStep) (portfolioId reference : String) : Prop :=
  ∃ time, RebalancingStep.call time portfolioId false (some reference) ∈ steps

/-- What the history and the map hold after a sequence of steps: the references of all calls, and
the ids of the submitted trades. -/
structure Traced (cfg : RebalancingConfig) (steps : List RebalancingStep)
    (w : RebalancingWorld) : Prop where
  executions : ∀ key, (w.executions key).isSome = true ↔
    ∃ time portfolioId dryRun r, .call time portfolioId dryRun (some r) ∈ steps ∧ r ≠ "" ∧
      key = executionKey portfolioId r
  used : cfg.trading.isSome = true → ∀ id, w.isUsed cfg (some id) = true ↔
    ∃ request ∈ w.submitted cfg, request.clientRequestId = some id

section Runs

variable {cfg : RebalancingConfig}

theorem Traced.step {steps : List RebalancingStep} {w w' : RebalancingWorld} {portfolioId : String}
    {step : RebalancingStep} (h : Traced cfg steps w)
    (hcalled : Called cfg portfolioId reference recs w w')
    (hstep : ∀ key, (∃ r, reference = some r ∧ r ≠ "" ∧ key = executionKey portfolioId r) ↔
      ∃ time portfolioId dryRun r, .call time portfolioId dryRun (some r) = step ∧ r ≠ "" ∧
        key = executionKey portfolioId r) : Traced cfg (steps ++ [step]) w' where
  executions key := by
    rw [hcalled.executions, h.executions, hstep]
    simp only [mem_append, mem_singleton, or_and_right, exists_or]
  used htrading id := by
    rw [hcalled.used, hcalled.submitted, h.used htrading]
    constructor
    · rintro (⟨request, hmem, hid⟩ | ⟨-, rec, hrec, hid⟩)
      · exact ⟨request, mem_append_left _ hmem, hid⟩
      · -- an id that is used already belongs to an earlier trade
        by_cases hused : w.isUsed cfg (some id) = true
        · obtain ⟨request, hmem, hid'⟩ := (h.used htrading id).mp hused
          exact ⟨request, mem_append_left _ hmem, hid'⟩
        · refine ⟨tradeRequestOf portfolioId reference rec, mem_append_right _ ?_, hid⟩
          refine mem_map_of_mem (mem_filter.mpr ⟨hrec, ?_⟩)
          rw [hid, Bool.eq_false_iff.mpr hused]
          rfl
    · rintro ⟨request, hmem, hid⟩
      rcases mem_append.mp hmem with hold | hnew
      · exact .inl ⟨request, hold, hid⟩
      · obtain ⟨rec, hrec, rfl⟩ := mem_map.mp hnew
        exact .inr ⟨htrading, rec, (mem_filter.mp hrec).1, hid⟩

theorem rebalancingRun_snoc (steps : List RebalancingStep) (step : RebalancingStep) :
    rebalancingRun cfg (steps ++ [step]) = step.apply cfg (rebalancingRun cfg steps) :=
  foldl_append

variable (cfg) in
theorem run_traced (steps : List RebalancingStep) :
    Traced cfg steps (rebalancingRun cfg steps) := by
  induction steps using reverseRecOn with
  | nil =>
    refine ⟨fun key => ?_, fun _ id => ?_⟩
    · simp [rebalancingRun]
    · have hsubmitted : (rebalancingRun cfg []).submitted cfg = [] := by
        unfold submitted
        split <;> rfl
      rw [hsubmitted]
      simp [isUsed, rebalancingRun]
  | append_singleton steps step ih =>
    rw [rebalancingRun_snoc]
    cases step with
    | call time portfolioId dryRun reference =>
      have hstep : ∀ key, (∃ r, reference = some r ∧ r ≠ "" ∧ key = executionKey portfolioId r) ↔
          ∃ time' portfolioId' dryRun' r, RebalancingStep.call time' portfolioId' dryRun' (some r) =
            .call time portfolioId dryRun reference ∧ r ≠ "" ∧ key = executionKey portfolioId' r := by
        refine fun key => ⟨fun ⟨r, hr, h⟩ => ⟨_, _, _, r, by rw [hr], h⟩, ?_⟩
        rintro ⟨_, _, _, r, heq, h⟩
        cases heq
        exact ⟨r, rfl, h⟩
      by_cases hknown : ∃ r, reference = some r ∧ r ≠ "" ∧
          ((rebalancingRun cfg steps).executions (executionKey portfolioId r)).isSome = true
      · obtain ⟨r, rfl, hne, hkey⟩ := hknown
        rw [apply_call_known time dryRun hne hkey]
        refine ih.step (Called.of_known ?_) hstep
        rintro key ⟨_, ⟨⟩, -, rfl⟩
        exact hkey
      · refine ih.step (apply_call_new time dryRun fun r hr hne => ?_) hstep
        exact Option.not_isSome_iff_eq_none.mp fun hkey => hknown ⟨r, hr, hne, hkey⟩
    | setHoldings _ _ | setTargets _ _ | setThreshold _ _ =>
      have hsame : Called cfg "" none [] (rebalancingRun cfg steps) (rebalancingRun cfg steps) :=
        .of_known nofun
      exact ih.step ⟨hsame.executions, hsame.submitted, hsame.used⟩ (by simp)

end Runs

/-! ## The promise of a reference -/

/-- A real call submits every recommended trade if none was made before for its portfolio with
its reference, and none if one was. -/
def KeepsPromise (cfg : RebalancingConfig) (steps : List RebalancingStep) (time : Int)
    (portfolioId reference : String) : Prop :=
  let w := rebalancingRun cfg steps
  let w' := rebalancingRun cfg (steps ++ [.call time portfolioId false (some reference)])
  (RealCall steps portfolioId reference → w'.submitted cfg = w.submitted cfg) ∧
    (¬ RealCall steps portfolioId reference → w'.submitted cfg = w.submitted cfg ++
      (w.recommendations cfg portfolioId).map (tradeRequestOf portfolioId (some reference)))

/-- An empty reference was not used in a real call before; any other reference, used for the first
time, shares its key with no earlier call, dry or real, and the ids of its trades with no submitted
trade. -/
def ReferenceUsable (cfg : RebalancingConfig) (steps : List RebalancingStep)
    (portfolioId reference : String) : Prop :=
  let w := rebalancingRun cfg steps
  (RealCall steps portfolioId reference → reference ≠ "") ∧
    (¬ RealCall steps portfolioId reference → reference ≠ "" →
      (∀ time portfolioId' dryRun r, .call time portfolioId' dryRun (some r) ∈ steps → r ≠ "" →
        executionKey portfolioId' r ≠ executionKey portfolioId reference) ∧
      (cfg.trading.isSome = true → ∀ request ∈ w.submitted cfg,
        ∀ rec ∈ w.recommendations cfg portfolioId,
          request.clientRequestId ≠ some (reference ++ "-" ++ rec.asset)))

theorem tradeRequestId_of_ne {reference : String} (hne : reference ≠ "") (asset : String) :
    tradeRequestId (some reference) asset = some (reference ++ "-" ++ asset) :=
  if_pos (by simpa using hne)

theorem filter_unused_map {cfg : RebalancingConfig} {w : RebalancingWorld} {portfolioId : String} :
    (recs.filter fun rec => !w.isUsed cfg (tradeRequestId reference rec.asset)).map
        (tradeRequestOf portfolioId reference) = recs.map (tradeRequestOf portfolioId reference) ↔
      ∀ rec ∈ recs, w.isUsed cfg (tradeRequestId reference rec.asset) = false := by
  constructor
  · intro hmap
    have hlength := congrArg length hmap
    rw [length_map, length_map, length_filter_eq_length_iff] at hlength
    intro rec hrec
    simpa using hlength rec hrec
  · intro hunused
    rw [filter_eq_self.mpr fun rec hrec => by rw [hunused rec hrec]; rfl]

section Promise

variable {cfg : RebalancingConfig} {steps : List RebalancingStep} {time : Int}
  {portfolioId reference : String}

theorem keepsPromise_empty_iff : KeepsPromise cfg steps time portfolioId "" ↔
    (rebalancingRun cfg steps).recommendations cfg portfolioId = [] ∨
      ¬ RealCall steps portfolioId "" := by
  have hcalled : Called cfg portfolioId (some "") _ (rebalancingRun cfg steps) _ :=
    apply_call_new time false fun r hr hne => (hne (Option.some.inj hr).symm).elim
  have hsubmitted := hcalled.submitted
  rw [if_neg (by decide), filter_unused_map.mpr fun rec _ => by
    simp [isUsed, tradeRequestId]] at hsubmitted
  unfold KeepsPromise
  simp only [rebalancingRun_snoc, hsubmitted, append_right_eq_self, map_eq_nil_iff]
  tauto

theorem keepsPromise_known_iff (hne : reference ≠ "")
    (hknown : ((rebalancingRun cfg steps).executions
      (executionKey portfolioId reference)).isSome = true) :
    KeepsPromise cfg steps time portfolioId reference ↔
      (rebalancingRun cfg steps).recommendations cfg portfolioId = [] ∨
        RealCall steps portfolioId reference := by
  have hsame : (call time portfolioId false (some reference)).apply cfg
      (rebalancingRun cfg steps) = rebalancingRun cfg steps :=
        apply_call_known time false hne hknown
  unfold KeepsPromise
  simp only [rebalancingRun_snoc, hsame, self_eq_append_right, map_eq_nil_iff]
  tauto

theorem keepsPromise_new_iff (hne : reference ≠ "")
    (hnew : (rebalancingRun cfg steps).executions (executionKey portfolioId reference) = none) :
    KeepsPromise cfg steps time portfolioId reference ↔
      ∀ rec ∈ (rebalancingRun cfg steps).recommendations cfg portfolioId,
        (rebalancingRun cfg steps).isUsed cfg (some (reference ++ "-" ++ rec.asset)) = false := by
  have hreal : ¬ RealCall steps portfolioId reference := by
    rintro ⟨time', hmem⟩
    have hkey := ((run_traced cfg steps).executions _).mpr
      ⟨time', portfolioId, false, reference, hmem, hne, rfl⟩
    rw [hnew] at hkey
    cases hkey
  have hcalled : Called cfg portfolioId (some reference) _ (rebalancingRun cfg steps) _ :=
    apply_call_new time false fun r hr _ => by
      cases hr
      exact hnew
  unfold KeepsPromise
  simp only [rebalancingRun_snoc, hcalled.submitted, hreal, false_implies, true_and,
    not_false_eq_true, true_implies, append_cancel_left_eq]
  rw [if_neg (by decide), filter_unused_map]
  simp only [tradeRequestId_of_ne hne]

end Promise

/-- After any sequence of calls and changes of what they read, a real call keeps the promise of
its reference if and only if nothing is recommended or the reference is usable. -/
theorem reference_effective_iff (cfg : RebalancingConfig) (steps : List RebalancingStep)
    (time : Int) (portfolioId reference : String) :
    KeepsPromise cfg steps time portfolioId reference ↔
      (rebalancingRun cfg steps).recommendations cfg portfolioId = [] ∨
        ReferenceUsable cfg steps portfolioId reference := by
  have htraced := run_traced cfg steps
  unfold ReferenceUsable
  by_cases hempty : reference = ""
  · subst hempty
    rw [keepsPromise_empty_iff]
    simp
  · cases hentry : (rebalancingRun cfg steps).executions (executionKey portfolioId reference) with
    | some result =>
      have hknown : ((rebalancingRun cfg steps).executions
          (executionKey portfolioId reference)).isSome = true := by
        rw [hentry]
        rfl
      obtain ⟨time', portfolioId', dryRun, r, hmem, hne, hkey⟩ := (htraced.executions _).mp hknown
      rw [keepsPromise_known_iff hempty hknown]
      refine or_congr_right ⟨fun hreal => ⟨fun _ => hempty, fun h => (h hreal).elim⟩, ?_⟩
      rintro ⟨-, husable⟩
      by_contra hreal
      exact (husable hreal hempty).1 time' portfolioId' dryRun r hmem hne hkey.symm
    | none =>
      have hfree : ∀ time portfolioId' dryRun r, .call time portfolioId' dryRun (some r) ∈ steps →
          r ≠ "" → executionKey portfolioId' r ≠ executionKey portfolioId reference := by
        intro time' portfolioId' dryRun r hmem hne hkey
        have hsome := (htraced.executions _).mpr
          ⟨time', portfolioId', dryRun, r, hmem, hne, hkey.symm⟩
        rw [hentry] at hsome
        cases hsome
      have hreal : ¬ RealCall steps portfolioId reference := by
        rintro ⟨time', hmem⟩
        exact hfree time' portfolioId false reference hmem hempty rfl
      rw [keepsPromise_new_iff hempty hentry]
      constructor
      · intro hunused
        refine .inr ⟨fun h => (hreal h).elim, fun _ _ => ⟨hfree, ?_⟩⟩
        intro htrading request hrequest rec hrec hid
        have hused := (htraced.used htrading _).mpr ⟨request, hrequest, hid⟩
        rw [hunused rec hrec] at hused
        cases hused
      · rintro (hnil | ⟨-, husable⟩) rec hrec
        · rw [hnil] at hrec
          cases hrec
        · refine Bool.eq_false_iff.mpr fun hused => ?_
          have htrading := (Bool.and_eq_true_iff.mp hused).1
          obtain ⟨request, hrequest, hid⟩ := (htraced.used htrading _).mp hused
          exact (husable hreal hempty).2 htrading request hrequest rec hrec hid

/-! ### A dry run first -/

def rehearsal : List RebalancingStep :=
  [.setHoldings "p" (Record.empty.set "A" { amount := 100, price := 1 }),
    .setTargets "p" (Record.empty.set "B" 100), .call 0 "p" true (some "r")]

/-- The real call under the same reference then submits nothing, although two trades are
recommended. -/
theorem dry_run_uses_reference : ¬ KeepsPromise {} rehearsal 0 "p" "r" := by
  have hreal : ¬ RealCall rehearsal "p" "r" := by
    rintro ⟨time, hmem⟩
    simp [rehearsal] at hmem
  have hnone : (rebalancingRun {} (rehearsal ++ [.call 0 "p" false (some "r")])).submitted {} =
      [] := by
    decide +kernel
  have hsome : ((rebalancingRun {} rehearsal).recommendations {} "p").length = 2 := by
    decide +kernel
  rintro ⟨-, hall⟩
  have hlength := congrArg length (hnone.symm.trans (hall hreal))
  rw [length_append, length_map, hsome] at hlength
  exact absurd hlength (by simp)

end Trellis.Portfolio
