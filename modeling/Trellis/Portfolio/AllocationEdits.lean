import Trellis.Portfolio.TargetAllocations

/-!
# No allocation edit is lost

A call of `setTargetAllocations` that is accepted leaves, as the highest version, what the caller
sent for the tickers it changed against its base, and what was stored for the others. The versions
are numbered from 1 and each sums to 100.
-/

namespace Trellis.Portfolio

open Trellis.Core Trellis.Common Trellis.Trading List Async AllocationWorld

/-! ## The property -/

namespace AllocationWorld

def currentWeights (w : AllocationWorld) (portfolioId : String) : Record ℚ :=
  toWeights (w.latestVersion portfolioId)

def weightsAt (w : AllocationWorld) (portfolioId : String) (version : Nat) : Record ℚ :=
  toWeights (w.findVersion portfolioId version)

/-- The versions of every portfolio are numbered from 1, and each sums to 100. -/
structure Versioned (w : AllocationWorld) : Prop where
  consecutive : ∀ portfolioId, (w.versionsOf portfolioId).map (·.version) =
    List.range' 1 (w.versionsOf portfolioId).length
  hundred : ∀ row ∈ w.versions, sumsToHundred (toWeights (some row))

end AllocationWorld

/-- After a call with a base version: if it was accepted, the tickers that differ from the base
are as they were sent and the others as they were; if it was rejected, nothing was written. -/
def EditKept (w : AllocationWorld) (edit : AllocationCall) : Prop :=
  match setTargetAllocations edit w with
  | (.ok _, w') =>
    ∃ weights base, checkAllocations edit.allocations = .ok weights ∧
      edit.baseVersion = some (.finite (base : ℕ)) ∧ base ≤ (w.versionsOf edit.portfolioId).length ∧
      ∀ ticker, (weights.get ticker ≠ (w.weightsAt edit.portfolioId base).get ticker →
          (w'.currentWeights edit.portfolioId).get ticker = weights.get ticker) ∧
        (weights.get ticker = (w.weightsAt edit.portfolioId base).get ticker →
          (w'.currentWeights edit.portfolioId).get ticker =
            (w.currentWeights edit.portfolioId).get ticker)
  | (.error _, w') => w' = w

/-! ## The versions of a portfolio -/

namespace AllocationWorld

variable {w : AllocationWorld} {portfolioId : String} {row : TargetAllocationVersion}
  {rows : List TargetAllocationVersion}

theorem argmax_concat_of_lt (hlt : ∀ r ∈ rows, r.version < row.version) :
    (rows ++ [row]).argmax (·.version) = some row := by
  rw [argmax_concat]
  cases hmax : rows.argmax (·.version) with
  | none => rfl
  | some r => exact if_pos (hlt r (argmax_mem hmax))

variable (hw : w.Versioned)
include hw

theorem Versioned.version_le (hrow : row ∈ w.versionsOf portfolioId) :
    row.version ≤ (w.versionsOf portfolioId).length := by
  have hmem : row.version ∈ (w.versionsOf portfolioId).map (·.version) :=
    mem_map_of_mem hrow
  rw [hw.consecutive portfolioId, mem_range'_1] at hmem
  omega

theorem Versioned.nodup (portfolioId : String) :
    ((w.versionsOf portfolioId).map (·.version)).Nodup := by
  rw [hw.consecutive portfolioId]
  exact nodup_range'

theorem Versioned.latestVersion_eq (hrows : w.versionsOf portfolioId = rows ++ [row]) :
    w.latestVersion portfolioId = some row ∧ row.version = rows.length + 1 := by
  have hversions := hw.consecutive portfolioId
  rw [hrows, map_append, length_append, length_singleton, range'_concat, one_mul] at hversions
  obtain ⟨hinit, hlast⟩ := append_inj' hversions rfl
  have hrow : row.version = rows.length + 1 := by
    have hnumber : row.version = 1 + rows.length := singleton_injective hlast
    omega
  refine ⟨?_, hrow⟩
  rw [latestVersion, hrows]
  refine argmax_concat_of_lt fun r hr => ?_
  have hmem : r.version ∈ rows.map (·.version) := mem_map_of_mem hr
  rw [hinit, mem_range'_1] at hmem
  omega

omit hw in
theorem latestVersion_of_nil (hrows : w.versionsOf portfolioId = []) :
    w.latestVersion portfolioId = none := by
  rw [latestVersion, hrows]
  rfl

theorem Versioned.versionOf_latestVersion (portfolioId : String) :
    versionOf (w.latestVersion portfolioId) = (w.versionsOf portfolioId).length := by
  rcases eq_nil_or_concat' (w.versionsOf portfolioId) with hrows | ⟨rows, row, hrows⟩
  · rw [latestVersion_of_nil hrows, hrows]
    rfl
  · obtain ⟨hlatest, hversion⟩ := hw.latestVersion_eq hrows
    rw [hlatest, hrows, length_append]
    exact hversion

theorem Versioned.findVersion_latest (portfolioId : String) :
    w.findVersion portfolioId (w.versionsOf portfolioId).length = w.latestVersion portfolioId := by
  rcases eq_nil_or_concat' (w.versionsOf portfolioId) with hrows | ⟨rows, row, hrows⟩
  · rw [latestVersion_of_nil hrows, findVersion, hrows]
    rfl
  · obtain ⟨hlatest, hversion⟩ := hw.latestVersion_eq hrows
    have hmem : row ∈ w.versionsOf portfolioId := by
      rw [hrows]
      exact mem_append_right _ mem_cons_self
    have hlength : row.version = (w.versionsOf portfolioId).length := by
      rw [hrows, length_append]
      exact hversion
    rw [hlatest, findVersion, ← hlength]
    have hexists : ∃ found, (w.versionsOf portfolioId).find? (·.version = row.version) =
        some found := by
      refine Option.isSome_iff_exists.mp (find?_isSome.mpr ⟨row, hmem, ?_⟩)
      exact decide_eq_true rfl
    obtain ⟨found, hfound⟩ := hexists
    have hsame : found.version = row.version := by simpa using find?_some hfound
    rw [hfound, inj_on_of_nodup_map (hw.nodup portfolioId) (mem_of_find?_eq_some hfound) hmem hsame]

/-- The tables with a new version and its weights in the portfolio's row. -/
def stored (w : AllocationWorld) (row : TargetAllocationVersion) : AllocationWorld :=
  ({ w with versions := w.versions ++ [row] }).updatePortfolio row.portfolioId fun portfolio =>
    { portfolio with targetAllocation := some (toWeights (some row)) }

omit hw in
theorem versionsOf_stored (w : AllocationWorld) (row : TargetAllocationVersion)
    (portfolioId : String) : (w.stored row).versionsOf portfolioId =
      w.versionsOf portfolioId ++ if row.portfolioId = portfolioId then [row] else [] := by
  simp only [versionsOf, stored, updatePortfolio, filter_append, filter_cons,
    filter_nil, decide_eq_true_eq]

variable (hversion : row.version = (w.versionsOf row.portfolioId).length + 1)
include hversion

theorem Versioned.stored
    (hsum : sumsToHundred (toWeights (some row))) : (w.stored row).Versioned where
  consecutive portfolioId := by
    rw [versionsOf_stored]
    by_cases hid : row.portfolioId = portfolioId
    · subst hid
      rw [if_pos rfl, map_append, hw.consecutive, length_append,
        length_singleton, range'_concat, one_mul, map_singleton, hversion, Nat.add_comm 1]
    · rw [if_neg hid, append_nil]
      exact hw.consecutive portfolioId
  hundred row' hrow' := by
    rcases mem_append.mp hrow' with hold | hnew
    · exact hw.hundred row' hold
    · rwa [mem_singleton.mp hnew]

theorem Versioned.latestVersion_stored :
    (w.stored row).latestVersion row.portfolioId = some row := by
  rw [latestVersion, versionsOf_stored, if_pos rfl]
  refine argmax_concat_of_lt fun r hr => ?_
  have hle := hw.version_le hr
  omega

end AllocationWorld

/-! ## What an accepted transaction does -/

section Transaction

variable {reject : AllocationOp → Option Failure} {w w' : AllocationWorld}
  {portfolioId : String}

theorem serve_of_call {op : AllocationOp} {a : op.Res}
    (h : eval (perform reject) (askAllocation op) w =
      (.ok a, w')) : w.serve op = (.ok a, w') := by
  rw [eval_call, perform] at h
  cases hreject : reject op with
  | none => rwa [hreject] at h
  | some e =>
    rw [hreject] at h
    cases h

variable {assets : List PortfolioAsset}

theorem entry_of_targetOf {entry : String × ℚ} {target : TargetAllocation}
    (h : targetOf assets entry = .ok target) : (target.ticker, target.targetWeight) = entry := by
  unfold targetOf at h
  split at h
  · cases h
    rfl
  · cases h

theorem entries_of_mapM {entries : List (String × ℚ)}
    {targets : List TargetAllocation} (h : entries.mapM (targetOf assets) = .ok targets) :
    targets.map (fun target => (target.ticker, target.targetWeight)) = entries := by
  induction entries generalizing targets with
  | nil =>
    cases h
    rfl
  | cons entry entries ih =>
    rw [mapM_cons] at h
    cases htarget : targetOf assets entry with
    | error e =>
      rw [htarget] at h
      cases h
    | ok target =>
      cases hrest : entries.mapM (targetOf assets) with
      | error e =>
        rw [htarget, hrest] at h
        cases h
      | ok rest =>
        rw [htarget, hrest] at h
        cases h
        rw [map_cons, ih hrest, entry_of_targetOf htarget]

variable {result : TargetAllocationWriteResult} {weights : Record ℚ} {merged : Bool}

theorem stored_of_eval {version : Nat} (h : eval (perform reject)
      (storeVersion portfolioId version weights merged) w = (.ok result, w')) :
    ∃ row, row.portfolioId = portfolioId ∧ row.version = version ∧
      toWeights (some row) = weights ∧ w' = w.stored row := by
  obtain ⟨assets, w₁, hassets, h⟩ := eval_bind_ok h
  cases serve_of_call hassets
  obtain ⟨targets, w₂, htargets, h⟩ := eval_bind_ok h
  obtain ⟨htargets, hw₂⟩ := Prod.mk.inj ((eval_ofExcept _ _).symm.trans htargets)
  obtain ⟨_, w₃, hsave, h⟩ := eval_bind_ok h
  obtain ⟨_, w₄, hupdate, h⟩ := eval_bind_ok h
  cases serve_of_call hupdate
  cases h
  have hweights : toWeights (some ⟨portfolioId, version, targets⟩) = weights := by
    rw [toWeights, Option.map_some, Option.getD_some, entries_of_mapM htargets,
      Record.ofList_entries]
  refine ⟨⟨portfolioId, version, targets⟩, rfl, rfl, hweights, ?_⟩
  have hsaved := serve_of_call hsave
  rw [serve] at hsaved
  split at hsaved
  · cases hsaved
  · cases hsaved
    rw [stored, hweights, hw₂]

/-- The final weights of an edit: those sent, or those of the merge with the highest version. -/
def Resolves (w : AllocationWorld) (portfolioId : String) (weights : Record ℚ)
    (baseVersion : Option Nat) (final : Record ℚ) : Prop :=
  ∀ base, baseVersion = some base → base ≤ (w.versionsOf portfolioId).length ∧
    ∀ ticker, final.get ticker =
      mergedValue (w.weightsAt portfolioId base) (w.currentWeights portfolioId) weights ticker

variable (hw : w.Versioned)
include hw

theorem resolves_latest (weights : Record ℚ) :
    Resolves w portfolioId weights (some (w.versionsOf portfolioId).length) weights := by
  rintro base ⟨⟩
  refine ⟨le_refl _, fun ticker => ?_⟩
  rw [weightsAt, hw.findVersion_latest, mergedValue]
  split_ifs with hsame
  · exact hsame
  · rfl

theorem findVersion_zero : w.findVersion portfolioId 0 = none := by
  refine find?_eq_none.mpr fun row hrow hzero => ?_
  have hmem : row.version ∈ (w.versionsOf portfolioId).map (·.version) :=
    mem_map_of_mem hrow
  rw [hw.consecutive portfolioId, mem_range'_1] at hmem
  have hversion : row.version = 0 := of_decide_eq_true hzero
  omega

variable {base : Nat}

theorem findBase_of_eval {found : Option TargetAllocationVersion}
    (h : eval (perform reject) (findBase portfolioId base) w = (.ok found, w')) :
    found = w.findVersion portfolioId base ∧ w' = w := by
  by_cases hzero : base = 0
  · rw [hzero, findBase_zero] at h
    cases h
    rw [hzero, findVersion_zero hw]
    exact ⟨rfl, rfl⟩
  · rw [findBase_of_ne_zero portfolioId hzero] at h
    cases serve_of_call h
    exact ⟨rfl, rfl⟩

variable {final : Option (Record ℚ)}

omit hw in
theorem mergeOnto_ok {base previous : Option TargetAllocationVersion}
    (h : mergeOnto base previous weights = .ok final) :
    (∀ ticker, (final.getD (toWeights previous)).get ticker =
      mergedValue (toWeights base) (toWeights previous) weights ticker) ∧
    ∀ merged, final = some merged → sumsToHundred merged := by
  simp only [mergeOnto] at h
  split_ifs at h with hconflicts hsum hchanged
  · cases h
    refine ⟨fun ticker => get_threeWayMerge (not_not.mp hconflicts) ticker, ?_⟩
    rintro merged ⟨⟩
    exact hsum
  · cases h
    refine ⟨fun ticker => ?_, fun merged hmerged => (Option.some_ne_none _ hmerged.symm).elim⟩
    exact (mergedValue_of_not_changed (not_not.mp hconflicts)
      (Bool.eq_false_iff.mpr hchanged) ticker).symm

theorem rebase_of_eval (h : eval (perform reject)
      (rebase portfolioId base (w.latestVersion portfolioId) weights) w = (.ok final, w')) :
    w' = w ∧
      Resolves w portfolioId weights (some base) (final.getD (w.currentWeights portfolioId)) ∧
      ∀ merged, final = some merged → sumsToHundred merged := by
  obtain ⟨found, w₁, hfound, h⟩ := eval_bind_ok h
  obtain ⟨rfl, rfl⟩ := findBase_of_eval hw hfound
  split_ifs at h with hunknown
  · cases h
  · obtain ⟨hmerge, hw'⟩ := Prod.mk.inj ((eval_ofExcept _ _).symm.trans h)
    obtain ⟨hvalues, hsums⟩ := mergeOnto_ok hmerge
    refine ⟨hw'.symm, ?_, hsums⟩
    rintro base' ⟨⟩
    rw [not_or, hw.versionOf_latestVersion, not_lt] at hunknown
    exact ⟨hunknown.1, hvalues⟩

/-- The edit leaves the tables as they are, or stores its final weights as a new version. -/
def Edited (w w' : AllocationWorld) (portfolioId : String) (final : Record ℚ) : Prop :=
  (w' = w ∧ final = w.currentWeights portfolioId) ∨
  ∃ row, row.portfolioId = portfolioId ∧ row.version = (w.versionsOf portfolioId).length + 1 ∧
    toWeights (some row) = final ∧ sumsToHundred final ∧ w' = w.stored row

variable (hsum : sumsToHundred weights)
include hsum

theorem edited_of_stored (h : eval (perform reject)
      (storeVersion portfolioId (versionOf (w.latestVersion portfolioId) + 1) weights merged) w =
        (.ok result, w')) : Edited w w' portfolioId weights := by
  obtain ⟨row, hid, hversion, hweights, hw'⟩ := stored_of_eval h
  rw [hw.versionOf_latestVersion] at hversion
  exact Or.inr ⟨row, hid, hversion, hweights, hsum, hw'⟩

variable {baseVersion : Option Nat}

theorem edited_of_editLatest (h : eval (perform reject)
      (editLatest portfolioId weights baseVersion (w.latestVersion portfolioId)) w =
        (.ok result, w')) :
    ∃ final, Resolves w portfolioId weights baseVersion final ∧ Edited w w' portfolioId final := by
  cases baseVersion with
  | none => exact ⟨weights, fun base hbase => (Option.some_ne_none _ hbase.symm).elim,
      edited_of_stored hw hsum h⟩
  | some base =>
    simp only [editLatest] at h
    split_ifs at h with hlatest
    · rw [hlatest]
      refine ⟨weights, ?_, edited_of_stored hw hsum h⟩
      rw [hw.versionOf_latestVersion]
      exact resolves_latest hw weights
    · obtain ⟨final, w₁, hrebase, h⟩ := eval_bind_ok h
      obtain ⟨rfl, hresolves, hsums⟩ := rebase_of_eval hw hrebase
      refine ⟨_, hresolves, ?_⟩
      cases final with
      | none =>
        cases h
        exact Or.inl ⟨rfl, rfl⟩
      | some merged => exact edited_of_stored hw (hsums merged rfl) h

theorem edited_of_eval (h : eval (perform reject)
      (editAllocations portfolioId weights baseVersion) w = (.ok result, w')) :
    ∃ final, Resolves w portfolioId weights baseVersion final ∧ Edited w w' portfolioId final := by
  obtain ⟨portfolio, w₁, hportfolio, h⟩ := eval_bind_ok h
  cases serve_of_call hportfolio
  split at h
  · cases h
  · obtain ⟨previous, w₂, hprevious, h⟩ := eval_bind_ok h
    cases serve_of_call hprevious
    obtain ⟨result', w₃, hedit, h⟩ := eval_bind_ok h
    obtain ⟨_, w₄, hcommit, h⟩ := eval_bind_ok h
    cases serve_of_call hcommit
    cases h
    exact edited_of_editLatest hw hsum hedit

end Transaction

/-! ## One call -/

theorem sumsToHundred_of_checkAllocations {allocations : AllocationsArgument} {weights : Record ℚ}
    (h : checkAllocations allocations = .ok weights) : sumsToHundred weights := by
  cases allocations with
  | other => cases h
  | map entries nodup =>
    simp only [checkAllocations] at h
    split_ifs at h with hentries hsum
    cases h
    exact hsum

theorem base_of_checkBaseVersion {baseVersion : Trading.Num} {base : Option Nat}
    (h : checkBaseVersion (some baseVersion) = .ok base) :
    ∃ version : ℕ, base = some version ∧ baseVersion = .finite version := by
  cases baseVersion with
  | nonFinite => cases h
  | finite v =>
    simp only [checkBaseVersion] at h
    split_ifs at h with hinteger
    cases h
    refine ⟨v.num.toNat, rfl, ?_⟩
    have hnum : ((v.num.toNat : ℤ) : ℚ) = v := by
      rw [Int.toNat_of_nonneg (Rat.num_nonneg.mpr hinteger.2)]
      exact Rat.coe_int_num_of_den_eq_one hinteger.1
    rw [Int.cast_natCast] at hnum
    rw [hnum]

variable {edit : AllocationCall} {w w' : AllocationWorld}

theorem edited_of_call {result : TargetAllocationWriteResult} (hw : w.Versioned)
    (h : setTargetAllocations edit w = (.ok result, w')) :
    ∃ weights baseVersion final, checkAllocations edit.allocations = .ok weights ∧
      checkBaseVersion edit.baseVersion = .ok baseVersion ∧
      Resolves w edit.portfolioId weights baseVersion final ∧
      Edited w w' edit.portfolioId final := by
  unfold setTargetAllocations at h
  split at h
  · cases h
  · rename_i weights hweights
    split at h
    · cases h
    · rename_i baseVersion hbase
      obtain ⟨final, hresolves, hedited⟩ := edited_of_eval hw
        (sumsToHundred_of_checkAllocations hweights) (eval_of_transact_ok h)
      exact ⟨weights, baseVersion, final, hweights, hbase, hresolves, hedited⟩

theorem eq_of_rejected {e : Failure}
    (h : setTargetAllocations edit w = (.error e, w')) : w' = w := by
  unfold setTargetAllocations at h
  split at h
  · cases h
    rfl
  · split at h
    · cases h
      rfl
    · exact transact_error h

theorem Edited.versioned {portfolioId : String} {final : Record ℚ}
    (hw : w.Versioned) (hedited : Edited w w' portfolioId final) : w'.Versioned := by
  rcases hedited with ⟨rfl, -⟩ | ⟨row, rfl, hversion, rfl, hsum, rfl⟩
  · exact hw
  · exact hw.stored hversion hsum

theorem Edited.currentWeights {portfolioId : String} {final : Record ℚ} (hw : w.Versioned)
    (hedited : Edited w w' portfolioId final) : w'.currentWeights portfolioId = final := by
  rcases hedited with ⟨rfl, rfl⟩ | ⟨row, rfl, hversion, rfl, hsum, rfl⟩
  · rfl
  · rw [currentWeights, hw.latestVersion_stored hversion]

variable {w : AllocationWorld}

theorem versioned_setTargetAllocations (hw : w.Versioned)
    (edit : AllocationCall) : (setTargetAllocations edit w).2.Versioned := by
  rcases hcall : setTargetAllocations edit w with ⟨outcome, w'⟩
  cases outcome with
  | ok result =>
    obtain ⟨weights, baseVersion, final, -, -, -, hedited⟩ := edited_of_call hw hcall
    exact hedited.versioned hw
  | error e =>
    rw [eq_of_rejected hcall]
    exact hw

theorem editKept_setTargetAllocations (hw : w.Versioned) {base : Trading.Num}
    (hbase : edit.baseVersion = some base) : EditKept w edit := by
  unfold EditKept
  split
  · rename_i result w' hcall
    obtain ⟨weights, baseVersion, final, hweights, hcheck, hresolves, hedited⟩ :=
      edited_of_call hw hcall
    rw [hbase] at hcheck
    obtain ⟨version, rfl, rfl⟩ := base_of_checkBaseVersion hcheck
    obtain ⟨hle, hvalues⟩ := hresolves version rfl
    refine ⟨weights, version, hweights, hbase, hle, fun ticker => ?_⟩
    rw [hedited.currentWeights hw, hvalues ticker, mergedValue]
    exact ⟨fun hne => if_neg hne, fun heq => if_pos heq⟩
  · rename_i e w' hcall
    exact eq_of_rejected hcall

/-! ## Sequences of calls -/

theorem versioned_apply (hw : w.Versioned) (step : AllocationStep) : (step.apply w).Versioned := by
  cases step with
  | call edit => exact versioned_setTargetAllocations hw edit
  | setPortfolios portfolios => exact ⟨hw.consecutive, hw.hundred⟩
  | setAssets assets => exact ⟨hw.consecutive, hw.hundred⟩

theorem versioned_run (portfolios : List PortfolioRow) (assets : List PortfolioAsset)
    (steps : List AllocationStep) : (run portfolios assets steps).Versioned := by
  induction steps using reverseRecOn with
  | nil => exact ⟨fun _ => rfl, fun row hrow => (not_mem_nil hrow).elim⟩
  | append_singleton steps step ih =>
    rw [run, foldl_append]
    exact versioned_apply ih step

/-- After any calls, the versions are numbered from 1 and sum to 100, and the next call with a
base version loses no edit. -/
theorem allocation_edits_kept (portfolios : List PortfolioRow) (assets : List PortfolioAsset)
    (steps : List AllocationStep) : (run portfolios assets steps).Versioned ∧
    ∀ portfolioId allocations baseVersion reject,
      EditKept (run portfolios assets steps)
        { portfolioId, allocations, baseVersion := some baseVersion, reject } := by
  have hversioned := versioned_run portfolios assets steps
  exact ⟨hversioned, fun _ _ _ _ => editKept_setTargetAllocations hversioned rfl⟩

end Trellis.Portfolio
