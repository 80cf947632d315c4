import Trellis.Portfolio.References

/-!
# What a rebalancing leaves

A real call whose trades all succeed brings every asset to its target value, but for the trades
left out as uneconomic. Their sum moves the total value and decides what the next call recommends
and how far the dry run is off.
-/

namespace Trellis.Portfolio

open Trellis.Core Trellis.Trading List Record Async

/-! ## Books -/

/-- The targets and the holdings of a portfolio: no weight and no amount is negative, and every
price is positive. -/
structure Book where
  targets : Record ℚ
  holdings : Record AssetHolding
  weights : ∀ asset, 0 ≤ (targets.get asset).getD 0
  prices : ∀ asset, ∀ holding ∈ holdings.get asset, 0 < holding.price
  amounts : ∀ asset, ∀ holding ∈ holdings.get asset, 0 ≤ holding.amount

/-- A trade of this value is not recommended. -/
def Skips (cfg : RebalancingConfig) (value : ℚ) : Prop :=
  |value| = 0 ∨ |value| < cfg.minTradeSize ∨ |value| ≤ cfg.tradingFee

instance (cfg : RebalancingConfig) (value : ℚ) : Decidable (Skips cfg value) :=
  inferInstanceAs (Decidable (_ ∨ _ ∨ _))

theorem sum_map_eq_of_subset {names names' : List String} (hnodup : names.Nodup)
    (hnodup' : names'.Nodup) (hsubset : names ⊆ names') {f : String → ℚ}
    (hzero : ∀ name ∈ names', name ∉ names → f name = 0) :
    (names.map f).sum = (names'.map f).sum := by
  rw [← sum_toFinset f hnodup, ← sum_toFinset f hnodup']
  refine Finset.sum_subset (fun name hname => ?_) fun name hname hnot => ?_
  · exact mem_toFinset.mpr (hsubset (mem_toFinset.mp hname))
  · exact hzero name (mem_toFinset.mp hname) fun h => hnot (mem_toFinset.mpr h)

namespace Book

section Values

variable (b : Book) (cfg : RebalancingConfig)

def assets : List String :=
  assetsOf b.targets b.holdings

def pct (asset : String) : ℚ :=
  (b.targets.get asset).getD 0

def value (asset : String) : ℚ :=
  currentValue b.holdings asset

def total : ℚ :=
  (b.assets.map b.value).sum

def drift (asset : String) : ℚ :=
  |b.value asset / b.total * 100 - b.pct asset|

def maxDrift : ℚ :=
  (b.assets.map b.drift).foldl max 0

def tradeValue (asset : String) : ℚ :=
  b.pct asset / 100 * b.total - b.value asset

/-- The value of the trade of an asset, if the trade is left out. -/
def leftOut (asset : String) : ℚ :=
  if Skips cfg (b.tradeValue asset) then b.tradeValue asset else 0

def imbalance : ℚ :=
  (b.assets.map (b.leftOut cfg)).sum

def recommended (asset : String) : Option RebalancingRecommendation :=
  recommendationOf cfg b.targets b.holdings b.total b.drift asset

def recommendations (threshold : Option ℚ) : List RebalancingRecommendation :=
  recommendationsFor cfg b.targets b.holdings threshold

theorem recommendations_eq (threshold : Option ℚ) : b.recommendations cfg threshold =
    if b.assets = [] ∨ b.total = 0 then []
    else if b.maxDrift < threshold.getD cfg.defaultThreshold then []
    else b.assets.filterMap (b.recommended cfg) :=
  rfl

variable {b cfg} {asset : String}

variable (b) in
theorem nodup_assets : b.assets.Nodup :=
  nodup_assetsOf _ _

theorem mem_assets : asset ∈ b.assets ↔ asset ∈ b.targets.keys ∨ asset ∈ b.holdings.keys := by
  simp only [assets, assetsOf, mem_append, mem_filter, decide_eq_true_eq]
  tauto

theorem value_of_not_mem (h : asset ∉ b.holdings.keys) : b.value asset = 0 := by
  rw [value, currentValue, get_eq_none_iff.mpr h]

theorem pct_of_not_mem (h : asset ∉ b.targets.keys) : b.pct asset = 0 := by
  rw [pct, get_eq_none_iff.mpr h]
  rfl

variable (b) in
theorem sum_keys : (b.holdings.keys.map b.value).sum = b.total :=
  sum_map_eq_of_subset b.holdings.nodup b.nodup_assets
    (fun _ hname => mem_assets.mpr (.inr hname)) fun _ _ hname => value_of_not_mem hname

variable (b) in
theorem sum_pct : (b.assets.map b.pct).sum = b.targets.values.sum := by
  have hvalues : b.targets.values = b.targets.keys.map b.pct := by
    rw [Record.keys, map_map]
    refine map_congr_left fun entry hentry => ?_
    simp [pct, mem_entries_iff.mp hentry]
  rw [hvalues]
  exact (sum_map_eq_of_subset b.targets.nodup b.nodup_assets
    (fun _ hname => mem_assets.mpr (.inl hname)) fun _ _ hname => pct_of_not_mem hname).symm

variable (b) in
theorem value_nonneg (asset : String) : 0 ≤ b.value asset := by
  unfold value currentValue
  split
  · rename_i holding hget
    exact mul_nonneg (b.amounts asset holding hget) (b.prices asset holding hget).le
  · exact le_refl 0

theorem value_le_total (hmem : asset ∈ b.assets) : b.value asset ≤ b.total := by
  refine single_le_sum (fun value hvalue => ?_) _ (mem_map_of_mem hmem)
  obtain ⟨asset', -, rfl⟩ := mem_map.mp hvalue
  exact b.value_nonneg asset'

variable (b) in
theorem total_nonneg : 0 ≤ b.total := by
  refine sum_nonneg fun value hvalue => ?_
  obtain ⟨asset, -, rfl⟩ := mem_map.mp hvalue
  exact b.value_nonneg asset

variable (b) in
theorem target_nonneg (asset : String) : 0 ≤ b.pct asset / 100 * b.total :=
  mul_nonneg (div_nonneg (b.weights asset) (by norm_num)) b.total_nonneg

theorem recommended_eq_none : b.recommended cfg asset = none ↔ Skips cfg (b.tradeValue asset) := by
  unfold recommended recommendationOf
  simp only
  split
  · exact ⟨fun _ => .inl ‹_›, fun _ => rfl⟩
  · split
    · exact ⟨fun _ => .inr ‹_›, fun _ => rfl⟩
    · refine ⟨nofun, fun hskips => ?_⟩
      rcases hskips with hzero | hsmall
      · exact absurd hzero ‹_›
      · exact absurd hsmall ‹_›

end Values

/-! ## One trade -/

section Trade

variable {b : Book} {cfg : RebalancingConfig} {asset : String} {rec : RebalancingRecommendation}

theorem amount_after {amount price value target : ℚ} (hprice : 0 < price)
    (hvalue : amount * price = value) (htarget : 0 ≤ target) :
    (match if target - value > 0 then TradeAction.buy else .sell with
      | .buy => amount + |target - value| / price
      | .sell => max 0 (amount - |target - value| / price)) = target / price := by
  have hmoved : amount + (target - value) / price = target / price := by
    rw [← hvalue]
    field_simp
    ring
  split_ifs with hbuy
  · simp only [abs_of_pos hbuy]
    exact hmoved
  · simp only [abs_of_nonpos (not_lt.mp hbuy), neg_div, sub_neg_eq_add, hmoved]
    exact max_eq_right (div_nonneg htarget hprice.le)

theorem tradedHolding_recommended (hrec : b.recommended cfg asset = some rec) :
    0 < rec.price ∧ tradedHolding rec (b.holdings.get asset) =
      { amount := b.pct asset / 100 * b.total / rec.price, price := rec.price } := by
  have htarget := b.target_nonneg asset
  unfold recommended recommendationOf at hrec
  simp only at hrec
  split at hrec
  · cases hrec
  · split at hrec
    · cases hrec
    · obtain rfl := Option.some.inj hrec
      cases hget : b.holdings.get asset with
      | none =>
        have hvalue : 0 * 1 = b.value asset := by simp [value, currentValue, hget]
        exact ⟨one_pos, congrArg (AssetHolding.mk · 1) (amount_after one_pos hvalue htarget)⟩
      | some holding =>
        have hprice := b.prices asset holding hget
        have hvalue : holding.amount * holding.price = b.value asset := by
          simp [value, currentValue, hget]
        simp only [if_neg hprice.ne']
        exact ⟨hprice, congrArg (AssetHolding.mk · holding.price)
          (amount_after hprice hvalue htarget)⟩

theorem mem_assets_of_recommended (hrec : b.recommended cfg asset = some rec) :
    asset ∈ b.assets := by
  by_contra hnot
  rw [mem_assets, not_or] at hnot
  have hskips : Skips cfg (b.tradeValue asset) := by
    simp [Skips, tradeValue, pct_of_not_mem hnot.1, value_of_not_mem hnot.2]
  rw [recommended_eq_none.mpr hskips] at hrec
  cases hrec

end Trade

end Book

/-! ## All trades -/

/-- The holdings after trades that succeed. -/
def settle (recs : List RebalancingRecommendation) (holdings : Record AssetHolding) :
    Record AssetHolding :=
  recs.foldl (fun holdings rec =>
    holdings.set rec.asset (tradedHolding rec (holdings.get rec.asset))) holdings

variable {recs : List RebalancingRecommendation}

theorem get_settle_of_not_mem {asset : String} (hasset : asset ∉ recs.map (·.asset))
    (holdings : Record AssetHolding) : (settle recs holdings).get asset = holdings.get asset := by
  induction recs generalizing holdings with
  | nil => rfl
  | cons rec recs ih =>
    rw [map_cons, mem_cons, not_or] at hasset
    exact (ih hasset.2 _).trans (get_set_of_ne holdings _ hasset.1)

theorem get_settle_of_mem {rec : RebalancingRecommendation}
    (hnodup : (recs.map (·.asset)).Nodup) (hrec : rec ∈ recs) (holdings : Record AssetHolding) :
    (settle recs holdings).get rec.asset = some (tradedHolding rec (holdings.get rec.asset)) := by
  induction recs generalizing holdings with
  | nil => cases hrec
  | cons first recs ih =>
    rw [map_cons, nodup_cons] at hnodup
    rcases mem_cons.mp hrec with rfl | hrest
    · exact (get_settle_of_not_mem hnodup.1 _).trans (get_set_self holdings _ _)
    · have hne : rec.asset ≠ first.asset := fun heq => hnodup.1 (heq ▸ mem_map_of_mem hrest)
      refine (ih hnodup.2 hrest _).trans ?_
      rw [get_set_of_ne holdings _ hne]

namespace Book

section Settled

variable (b : Book) (cfg : RebalancingConfig)

/-- The holdings after every trade that is not left out. -/
def settledHoldings : Record AssetHolding :=
  settle (b.assets.filterMap (b.recommended cfg)) b.holdings

variable {b cfg} {asset : String} {rec : RebalancingRecommendation}

theorem get_settled_of_some (hrec : b.recommended cfg asset = some rec) :
    (b.settledHoldings cfg).get asset =
      some { amount := b.pct asset / 100 * b.total / rec.price, price := rec.price } := by
  have hmem : rec ∈ b.assets.filterMap (b.recommended cfg) :=
    mem_filterMap.mpr ⟨asset, mem_assets_of_recommended hrec, hrec⟩
  have hget := get_settle_of_mem (nodup_recommendations b.nodup_assets) hmem b.holdings
  rw [asset_of_recommendationOf hrec, (tradedHolding_recommended hrec).2] at hget
  exact hget

theorem get_settled_of_none (hrec : b.recommended cfg asset = none) :
    (b.settledHoldings cfg).get asset = b.holdings.get asset := by
  refine get_settle_of_not_mem (fun hmem => ?_) b.holdings
  obtain ⟨rec, hrecs, hasset⟩ := mem_map.mp hmem
  obtain ⟨asset', -, hrec'⟩ := mem_filterMap.mp hrecs
  obtain rfl := (asset_of_recommendationOf hrec').symm.trans hasset
  rw [hrec] at hrec'
  cases hrec'

theorem settled_priced {holding : AssetHolding}
    (hget : holding ∈ (b.settledHoldings cfg).get asset) :
    0 < holding.price ∧ 0 ≤ holding.amount := by
  cases hrec : b.recommended cfg asset with
  | none =>
    rw [get_settled_of_none hrec] at hget
    exact ⟨b.prices asset holding hget, b.amounts asset holding hget⟩
  | some rec =>
    rw [get_settled_of_some hrec] at hget
    obtain rfl := Option.some.inj hget
    have hprice := (tradedHolding_recommended hrec).1
    exact ⟨hprice, div_nonneg (b.target_nonneg asset) hprice.le⟩

variable (b cfg) in
def settled : Book where
  targets := b.targets
  holdings := b.settledHoldings cfg
  weights := b.weights
  prices _ _ hget := (settled_priced hget).1
  amounts _ _ hget := (settled_priced hget).2

variable (b cfg) in
theorem value_settled (asset : String) :
    (b.settled cfg).value asset = b.pct asset / 100 * b.total - b.leftOut cfg asset := by
  change currentValue (b.settledHoldings cfg) asset = _
  cases hrec : b.recommended cfg asset with
  | none =>
    rw [leftOut, if_pos (recommended_eq_none.mp hrec), tradeValue, sub_sub_cancel, currentValue,
      get_settled_of_none hrec]
    rfl
  | some rec =>
    have hmade : ¬ Skips cfg (b.tradeValue asset) := fun hskips => by
      rw [recommended_eq_none.mpr hskips] at hrec
      cases hrec
    rw [leftOut, if_neg hmade, sub_zero, currentValue, get_settled_of_some hrec]
    exact div_mul_cancel₀ _ (tradedHolding_recommended hrec).1.ne'

theorem mem_assets_settled : asset ∈ (b.settled cfg).assets ↔ asset ∈ b.assets := by
  simp only [mem_assets, mem_keys_iff]
  change _ ∨ ((b.settledHoldings cfg).get asset).isSome = true ↔ _
  cases hrec : b.recommended cfg asset with
  | none =>
    rw [get_settled_of_none hrec]
    rfl
  | some rec =>
    have hmem := mem_assets.mp (mem_assets_of_recommended hrec)
    simp only [mem_keys_iff] at hmem
    rw [get_settled_of_some hrec]
    exact iff_of_true (.inr rfl) hmem

variable (b cfg) in
/-- What is left out moves the total value. -/
theorem total_settled :
    (b.settled cfg).total = b.targets.values.sum / 100 * b.total - b.imbalance cfg := by
  rw [total, sum_map_eq_of_subset (nodup_assets _) b.nodup_assets
    (fun _ hname => mem_assets_settled.mp hname)
    fun _ hname hnot => absurd (mem_assets_settled.mpr hname) hnot, ← b.sum_pct, imbalance]
  induction b.assets with
  | nil => simp
  | cons asset assets ih =>
    rw [map_cons, sum_cons, ih, value_settled]
    simp only [map_cons, sum_cons]
    ring

variable (b cfg) in
def after (threshold : Option ℚ) : Book :=
  if b.recommendations cfg threshold = [] then b else b.settled cfg

variable (b cfg) in
theorem settle_recommendations (threshold : Option ℚ) :
    settle (b.recommendations cfg threshold) b.holdings = (b.after cfg threshold).holdings := by
  unfold after
  split
  · rename_i hnone
    rw [hnone]
    rfl
  · rename_i hsome
    rw [recommendations_eq] at hsome ⊢
    split
    · exact absurd (if_pos ‹_›) hsome
    · split
      · exact absurd ((if_neg ‹_›).trans (if_pos ‹_›)) hsome
      · rfl

theorem after_eq_settled {threshold : Option ℚ} (htotal : b.total ≠ 0)
    (hdrift : threshold.getD cfg.defaultThreshold ≤ b.maxDrift) :
    b.after cfg threshold = b.settled cfg := by
  have hassets : b.assets ≠ [] := fun hnil => htotal (by simp [total, hnil])
  have hrecs : b.recommendations cfg threshold = b.assets.filterMap (b.recommended cfg) := by
    rw [recommendations_eq, if_neg (not_or.mpr ⟨hassets, htotal⟩), if_neg (not_lt.mpr hdrift)]
  unfold after
  split
  · rename_i hnone
    have hsame : b.settledHoldings cfg = b.holdings := by
      rw [settledHoldings, ← hrecs, hnone]
      rfl
    cases b
    simp only [settled, hsame]
  · rfl

end Settled

end Book

/-! ## One call -/

section Call

variable {cfg : RebalancingConfig} {portfolioId : String} {reference : Option String}
  {w : RebalancingWorld} {b : Book}

def RebalancingWorld.Reads (w : RebalancingWorld) (portfolioId : String) (b : Book) : Prop :=
  w.targets portfolioId = b.targets ∧ (w.holdings portfolioId).getD .empty = b.holdings

/-- The call resolves without a failed trade. -/
def succeeded : Except Failure RebalancingExecutionResult → Bool
  | .ok result => result.success
  | .error _ => false

def resultingAllocation : Except Failure RebalancingExecutionResult → Record ℚ
  | .ok result => result.resultingAllocation
  | .error _ => .empty

variable (cfg portfolioId reference w) in
abbrev outcome (time : Int) (dryRun : Bool) :
    Except Failure RebalancingExecutionResult × RebalancingWorld :=
  Async.eval (RebalancingWorld.perform time) (executeRebalancing cfg portfolioId dryRun reference) w

theorem executeTrades_settles (time : Int) (recs : List RebalancingRecommendation)
    (progress : Progress) (w : RebalancingWorld) :
    ∃ progress' trading direct, eval (RebalancingWorld.perform time)
        (executeTrades cfg portfolioId reference recs progress) w =
          (.ok progress', { w with trading := trading, direct := direct }) ∧
      (progress'.failedTrades = [] → progress.failedTrades = [] ∧
        progress'.holdings = settle recs progress.holdings) := by
  induction recs generalizing progress w with
  | nil => exact ⟨progress, w.trading, w.direct, rfl, fun h => ⟨h, rfl⟩⟩
  | cons rec recs ih =>
    obtain ⟨trading, direct, hframe⟩ : ∃ trading direct, (eval (RebalancingWorld.perform time)
        (executeTrade cfg (tradeRequestOf portfolioId reference rec)) w).2 =
          { w with trading := trading, direct := direct } := by
      cases hcfg : cfg.trading with
      | none =>
        unfold executeTrade
        rw [hcfg]
        exact ⟨_, _, rfl⟩
      | some trading =>
        rw [eval_executeTrade hcfg]
        exact ⟨_, _, rfl⟩
    obtain ⟨progress₁, hrest, hfirst⟩ := eval_executeTrades_cons rfl recs progress
    rw [hframe] at hrest
    obtain ⟨progress', trading', direct', heval, hlater⟩ := ih progress₁
      { w with trading := trading, direct := direct }
    refine ⟨progress', trading', direct', hrest.trans heval, fun hnone => ?_⟩
    obtain ⟨hnone₁, hholdings⟩ := hlater hnone
    obtain ⟨hbefore, hset⟩ := hfirst hnone₁
    rw [hset] at hholdings
    exact ⟨hbefore, hholdings⟩

variable (cfg) in
/-- What a call leaves if all its trades succeed. -/
theorem eval_new_call (time : Int) (dryRun : Bool) (hnew : IsNew w portfolioId reference)
    (hreads : w.Reads portfolioId b) :
    ∃ result w', outcome cfg portfolioId reference w time dryRun = (.ok result, w') ∧
      w'.thresholds = w.thresholds ∧ (dryRun ∨ result.success →
        let b' := if dryRun then b else b.after cfg (w.thresholds portfolioId)
        w'.Reads portfolioId b' ∧ result.resultingAllocation =
          if dryRun ∧ b.recommendations cfg (w.thresholds portfolioId) ≠ [] then b.targets
          else calculateAllocationPercentages b'.holdings) := by
  have hrecs : eval (RebalancingWorld.perform time)
      (getRebalancingRecommendations cfg portfolioId) w =
        (.ok (b.recommendations cfg (w.thresholds portfolioId)), w) := by
    rw [Book.recommendations, ← hreads.1, ← hreads.2]
    rfl
  rw [outcome, eval_executeRebalancing_new time dryRun hnew, executeNew, eval_bind_of_ok hrecs]
  have hafter := b.settle_recommendations cfg (w.thresholds portfolioId)
  have hfinish := eval_finish portfolioId reference time
  cases hlist : b.recommendations cfg (w.thresholds portfolioId) with
  | nil =>
    obtain ⟨executions, heval, -⟩ := hfinish
      { success := true, dryRun := dryRun, executedTrades := [], failedTrades := []
        resultingAllocation :=
          calculateAllocationPercentages ((w.holdings portfolioId).getD .empty) } w
    refine ⟨_, _, (eval_bind_of_ok rfl).trans heval, rfl, fun _ => ?_⟩
    simp only [Book.after, hlist, if_true, ite_self, ne_eq, not_true, and_false, if_false]
    exact ⟨hreads, congrArg calculateAllocationPercentages hreads.2⟩
  | cons rec recs =>
    cases dryRun with
    | true =>
      obtain ⟨executions, heval, -⟩ := hfinish _ w
      exact ⟨_, _, (eval_bind_of_ok rfl).trans heval, rfl, fun _ => ⟨hreads, hreads.1⟩⟩
    | false =>
      obtain ⟨progress, trading, direct, htrades, hsettled⟩ := executeTrades_settles time
        (rec :: recs) { holdings := (w.holdings portfolioId).getD .empty } w
      obtain ⟨result, hexecute, hsuccess, hallocation⟩ := eval_execute htrades
      obtain ⟨executions, heval, -⟩ := hfinish result _
      refine ⟨result, _, hexecute.trans heval, rfl, fun hall => ?_⟩
      have hnone := isEmpty_iff.mp (hsuccess.symm.trans (hall.resolve_left nofun))
      have hholdings := (hsettled hnone).2
      rw [hlist, ← hreads.2] at hafter
      rw [hafter] at hholdings
      refine ⟨⟨?_, ?_⟩, hallocation.trans (congrArg calculateAllocationPercentages hholdings)⟩
      · rw [if_neg (by decide), Book.after, if_neg (by rw [hlist]; nofun)]
        exact hreads.1
      · simpa using hholdings

end Call

/-! ## Value and targets -/

section Claims

variable {cfg : RebalancingConfig} {portfolioId : String} {reference : Option String}
  {w : RebalancingWorld} {b : Book}

theorem Book.leftOut_eq_zero (hmin : cfg.minTradeSize = 0) (hfee : cfg.tradingFee = 0)
    (asset : String) : b.leftOut cfg asset = 0 := by
  unfold Book.leftOut
  split
  · rename_i hskips
    rw [Skips, hmin, hfee] at hskips
    rcases hskips with hzero | hneg | hle
    · exact abs_eq_zero.mp hzero
    · exact absurd hneg (not_lt.mpr (abs_nonneg _))
    · exact abs_nonpos_iff.mp hle
  · rfl

theorem Book.value_of_total_eq_zero (htotal : b.total = 0) (asset : String) :
    b.value asset = 0 := by
  by_cases hmem : asset ∈ b.assets
  · exact le_antisymm (htotal ▸ Book.value_le_total hmem) (b.value_nonneg asset)
  · exact Book.value_of_not_mem fun hkey => hmem (Book.mem_assets.mpr (.inr hkey))

/-- Without fees and minimum sizes, a real call keeps the total value, brings every asset to its
target and leaves no negative amount. -/
theorem rebalancing_hits_targets (time : Int) (hmin : cfg.minTradeSize = 0)
    (hfee : cfg.tradingFee = 0) (hsum : b.targets.values.sum = 100)
    (hdrift : (w.thresholds portfolioId).getD cfg.defaultThreshold ≤ b.maxDrift)
    (hnew : IsNew w portfolioId reference) (hreads : w.Reads portfolioId b)
    (hall : succeeded (outcome cfg portfolioId reference w time false).1 = true) :
    ∃ b' : Book, (outcome cfg portfolioId reference w time false).2.Reads portfolioId b' ∧
      b'.total = b.total ∧ (∀ asset, b'.value asset = b.pct asset / 100 * b.total) ∧
      ∀ asset, ∀ holding ∈ b'.holdings.get asset, 0 ≤ holding.amount := by
  obtain ⟨result, w', heval, -, hleft⟩ := eval_new_call cfg time false hnew hreads
  rw [heval] at hall ⊢
  refine ⟨b.after cfg (w.thresholds portfolioId), (hleft (.inr hall)).1, ?_⟩
  have hleftOut : ∀ asset, b.leftOut cfg asset = 0 := Book.leftOut_eq_zero hmin hfee
  by_cases htotal : b.total = 0
  · have hafter : b.after cfg (w.thresholds portfolioId) = b := if_pos (if_pos (.inr htotal))
    rw [hafter, htotal]
    refine ⟨rfl, fun asset => ?_, b.amounts⟩
    rw [mul_zero, Book.value_of_total_eq_zero htotal]
  · rw [Book.after_eq_settled htotal hdrift]
    refine ⟨?_, fun asset => ?_, (b.settled cfg).amounts⟩
    · rw [Book.total_settled, hsum, Book.imbalance, funext hleftOut]
      simp
    · rw [Book.value_settled, hleftOut, sub_zero]

end Claims

def Book.ofEntries (targets : Record ℚ) (holdings : Record AssetHolding)
    (hweights : ∀ entry ∈ targets.entries, 0 ≤ entry.2)
    (hholdings : ∀ entry ∈ holdings.entries, 0 < entry.2.price ∧ 0 ≤ entry.2.amount) : Book where
  targets := targets
  holdings := holdings
  weights asset := by
    cases hget : targets.get asset with
    | none => exact le_refl 0
    | some weight => exact hweights _ (Record.mem_entries_iff.mpr hget)
  prices _ _ hget := (hholdings _ (Record.mem_entries_iff.mpr hget)).1
  amounts _ _ hget := (hholdings _ (Record.mem_entries_iff.mpr hget)).2

def Book.world (b : Book) : RebalancingWorld where
  targets _ := b.targets
  holdings _ := some b.holdings

def oneSided : Book :=
  .ofEntries (.ofList [("A", 50), ("B", 50)]) (.ofList [("A", ⟨100, 1⟩), ("B", ⟨0, 2⟩)])
    (by decide +kernel) (by decide +kernel)

theorem oneSided_hits_targets :
    let cfg : RebalancingConfig := { tradingFee := 0, minTradeSize := 0 }
    ∃ b' : Book, (outcome cfg "p" none oneSided.world 0 false).2.Reads "p" b' ∧
      b'.total = oneSided.total ∧
      (∀ asset, b'.value asset = oneSided.pct asset / 100 * oneSided.total) ∧
      ∀ asset, ∀ holding ∈ b'.holdings.get asset, 0 ≤ holding.amount :=
  rebalancing_hits_targets 0 rfl rfl (by decide +kernel) (by decide +kernel)
    (fun _ hnone => nomatch hnone) ⟨rfl, rfl⟩ (by decide +kernel)

/-! ## The next call -/

namespace Book

variable (b : Book) (cfg : RebalancingConfig)

/-- What the next trade of the asset would be worth. -/
def remaining (asset : String) : ℚ :=
  b.leftOut cfg asset - b.pct asset / 100 * b.imbalance cfg

/-- What is left out takes the whole value, or moves no asset by the threshold, or calls for no
trade that is economic. -/
def LeavesLittle (threshold : ℚ) : Prop :=
  b.total = b.imbalance cfg ∨ (0 < threshold ∧ ∀ asset ∈ b.assets,
      |b.remaining cfg asset / (b.total - b.imbalance cfg) * 100| < threshold) ∨
    ∀ asset ∈ b.assets, Skips cfg (b.remaining cfg asset)

theorem foldl_max_lt {bound : ℚ} (start : ℚ) (values : List ℚ) :
    values.foldl max start < bound ↔ start < bound ∧ ∀ value ∈ values, value < bound := by
  induction values generalizing start with
  | nil => simp
  | cons value values ih =>
    rw [foldl_cons, ih, max_lt_iff, forall_mem_cons, and_assoc]

variable {b cfg}

theorem recommendations_settled (hsum : b.targets.values.sum = 100) (threshold : Option ℚ) :
    (b.settled cfg).recommendations cfg threshold = [] ↔
      b.LeavesLittle cfg (threshold.getD cfg.defaultThreshold) := by
  have htotal : (b.settled cfg).total = b.total - b.imbalance cfg := by
    rw [total_settled, hsum, div_self (by norm_num), one_mul]
  have htrade : ∀ asset, (b.settled cfg).tradeValue asset = b.remaining cfg asset := by
    intro asset
    rw [tradeValue, htotal, value_settled, remaining]
    change b.pct asset / 100 * _ - _ = _
    ring
  rw [recommendations_eq]
  by_cases hzero : b.total - b.imbalance cfg = 0
  · rw [if_pos (.inr (htotal.trans hzero))]
    exact iff_of_true rfl (.inl (sub_eq_zero.mp hzero))
  · have hnonempty : ¬ ((b.settled cfg).assets = [] ∨ (b.settled cfg).total = 0) := by
      rintro (hnil | htotal')
      · exact hzero (htotal ▸ by simp [total, hnil])
      · exact hzero (htotal.symm.trans htotal')
    have hdrift : ∀ asset, (b.settled cfg).drift asset =
        |b.remaining cfg asset / (b.total - b.imbalance cfg) * 100| := by
      intro asset
      rw [drift, htotal, ← htrade, tradeValue, htotal, ← abs_neg]
      congr 1
      field_simp
      ring
    rw [if_neg hnonempty, LeavesLittle, or_iff_right fun heq => hzero (sub_eq_zero.mpr heq)]
    simp only [maxDrift, foldl_max_lt, forall_mem_map, hdrift, mem_assets_settled,
      ite_eq_left_iff, filterMap_eq_nil_iff, recommended_eq_none, htrade]
    tauto

end Book

section Claims

variable {cfg : RebalancingConfig} {portfolioId : String} {reference : Option String}
  {w : RebalancingWorld} {b : Book}

theorem RebalancingWorld.Reads.recommendations (h : w.Reads portfolioId b) :
    w.recommendations cfg portfolioId = b.recommendations cfg (w.thresholds portfolioId) := by
  rw [RebalancingWorld.recommendations, h.1, h.2]
  rfl

/-- After a real call whose trades all succeed nothing is recommended if and only if nothing was
recommended before or what was left out leaves little to do. -/
theorem converges_iff (time : Int) (hsum : b.targets.values.sum = 100)
    (hnew : IsNew w portfolioId reference) (hreads : w.Reads portfolioId b)
    (hall : succeeded (outcome cfg portfolioId reference w time false).1 = true) :
    (outcome cfg portfolioId reference w time false).2.recommendations cfg portfolioId = [] ↔
      b.recommendations cfg (w.thresholds portfolioId) = [] ∨
        b.LeavesLittle cfg ((w.thresholds portfolioId).getD cfg.defaultThreshold) := by
  obtain ⟨result, w', heval, hthresholds, hleft⟩ := eval_new_call cfg time false hnew hreads
  rw [heval] at hall ⊢
  have hreads' : w'.Reads portfolioId (b.after cfg (w.thresholds portfolioId)) :=
    (hleft (.inr hall)).1
  rw [hreads'.recommendations, hthresholds, Book.after]
  split
  · rename_i hnone
    exact iff_of_true hnone (.inl hnone)
  · rename_i hsome
    rw [or_iff_right hsome, Book.recommendations_settled hsum]

end Claims

theorem oneSided_converges :
    (outcome {} "p" none oneSided.world 0 false).2.recommendations {} "p" = [] ↔
      oneSided.recommendations {} none = [] ∨ oneSided.LeavesLittle {} 5 :=
  converges_iff 0 (by decide +kernel) (fun _ hnone => nomatch hnone) ⟨rfl, rfl⟩ (by decide +kernel)

def smallPurchases : Book :=
  .ofEntries (.ofList [("B", 9), ("C", 9), ("D", 9), ("E", 73)])
    (.ofList [("A", ⟨27, 1⟩), ("B", ⟨0, 1⟩), ("C", ⟨0, 1⟩), ("D", ⟨0, 1⟩), ("E", ⟨73, 1⟩)])
    (by decide +kernel) (by decide +kernel)

/-- The next call sells an asset that was at its target. -/
theorem small_purchases_diverge : smallPurchases.targets.values.sum = 100 ∧
    succeeded (outcome {} "p" none smallPurchases.world 0 false).1 = true ∧
    ((outcome {} "p" none smallPurchases.world 0 false).2.recommendations {} "p").map
      (fun rec => (rec.asset, rec.direction)) = [("E", .sell)] := by
  decide +kernel

/-! ## The dry run -/

def twoPlaces (percent : ℚ) : ℚ :=
  if percent < 0 then -(⌊-percent * 100 + 1 / 2⌋ / 100) else ⌊percent * 100 + 1 / 2⌋ / 100

theorem twoPlaces_zero : twoPlaces 0 = 0 := by
  decide +kernel

theorem Book.getD_allocation (b : Book) (asset : String) :
    ((calculateAllocationPercentages b.holdings).get asset).getD 0 =
      twoPlaces (b.value asset / b.total * 100) := by
  have htotal : (b.holdings.keys.map (currentValue b.holdings)).sum = b.total := b.sum_keys
  unfold calculateAllocationPercentages
  simp only [htotal]
  split
  · rename_i hzero
    simp [hzero, twoPlaces_zero]
  · refine (congrArg (Option.getD · 0) (get_collect b.holdings.nodup _ asset)).trans ?_
    split
    · rfl
    · rename_i hnot
      simp [Book.value_of_not_mem hnot, twoPlaces_zero]

/-- Every target rounds as the share of the asset, which what is left out has moved. -/
def Book.SharesAreTargets (b : Book) (cfg : RebalancingConfig) : Prop :=
  ∀ asset, |b.pct asset - twoPlaces ((b.pct asset / 100 * b.total - b.leftOut cfg asset) /
    (b.targets.values.sum / 100 * b.total - b.imbalance cfg) * 100)| ≤ 1 / 200

/-- The dry run predicts the allocation of the real call, up to the rounding to two places, if and
only if nothing is recommended or the targets are the shares that the trades lead to. -/
theorem dry_run_predicts_iff {cfg : RebalancingConfig} {portfolioId : String}
    {reference reference' : Option String} {w : RebalancingWorld} {b : Book} (time time' : Int)
    (hnew : IsNew w portfolioId reference) (hnew' : IsNew w portfolioId reference')
    (hreads : w.Reads portfolioId b)
    (hall : succeeded (outcome cfg portfolioId reference' w time' false).1 = true) :
    let dry := resultingAllocation (outcome cfg portfolioId reference w time true).1
    let real := resultingAllocation (outcome cfg portfolioId reference' w time' false).1
    (∀ asset, |(dry.get asset).getD 0 - (real.get asset).getD 0| ≤ 1 / 200) ↔
      b.recommendations cfg (w.thresholds portfolioId) = [] ∨ b.SharesAreTargets cfg := by
  obtain ⟨dry, w₁, hdry, -, hdryLeft⟩ := eval_new_call cfg time true hnew hreads
  obtain ⟨real, w₂, hreal, -, hrealLeft⟩ := eval_new_call cfg time' false hnew' hreads
  rw [hreal] at hall
  rw [hdry, hreal]
  simp only [resultingAllocation, (hdryLeft (.inl rfl)).2, (hrealLeft (.inr hall)).2]
  by_cases hnone : b.recommendations cfg (w.thresholds portfolioId) = []
  · simp [hnone, Book.after]
  · simp only [hnone, Book.after, Bool.false_eq_true, if_false, ne_eq, not_false_eq_true, and_true,
      if_true, false_or, Book.getD_allocation, Book.value_settled, Book.total_settled]
    rfl

theorem oneSided_predicted :
    let allocation dryRun := resultingAllocation (outcome {} "p" none oneSided.world 0 dryRun).1
    (∀ asset, |((allocation true).get asset).getD 0 - ((allocation false).get asset).getD 0| ≤
        1 / 200) ↔ oneSided.recommendations {} none = [] ∨ oneSided.SharesAreTargets {} :=
  dry_run_predicts_iff 0 0 (fun _ hnone => nomatch hnone) (fun _ hnone => nomatch hnone) ⟨rfl, rfl⟩
    (by decide +kernel)

/-- The dry run predicts the targets; the call leaves everything in one asset. -/
theorem small_purchases_mispredicted :
    let allocation dryRun :=
      resultingAllocation (outcome {} "p" none smallPurchases.world 0 dryRun).1
    succeeded (outcome {} "p" none smallPurchases.world 0 false).1 = true ∧
      (allocation true).get "E" = some 73 ∧ (allocation false).get "E" = some 100 := by
  decide +kernel

end Trellis.Portfolio
