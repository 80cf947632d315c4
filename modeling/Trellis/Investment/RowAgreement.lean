import Trellis.Investment.PortfolioService

/-!
# The portfolio row and the version history

A transaction of `setTargetAllocations` writes a version and the same weights into the portfolio's
row. A save of the portfolio service writes the row's target allocation where the entity carries
another one, and no version with it.
-/

namespace Trellis.Investment

open Trellis.Core Trellis.Portfolio AllocationWorld List

variable {ι : Type}

/-- The target allocation of the portfolio has the weights of the highest version. -/
def Agrees (tables : AllocationWorld) (portfolioId : String) : Prop :=
  ∀ row ∈ tables.portfolios, row.id = portfolioId →
    ∀ ticker, (row.targetAllocation.bind (·.get ticker)) =
      (tables.currentWeights portfolioId).get ticker

/-- A save begins only while the row has the target allocation that the saved entity carries. -/
def freshSaves (ι : Type) : Guard (portfolioSemantics ι) :=
  fun _ op _ w => match op with
    | .loadForSave entity => ∀ row ∈ w.tables.portfolios, row.id = entity.id →
        row.targetAllocation = entity.targetAllocation
    | _ => True

instance : ∀ (i : ι) op c w, Decidable (freshSaves ι i op c w) := fun _ op _ w =>
  match op with
  | .loadForSave entity => inferInstanceAs (Decidable (∀ row ∈ w.tables.portfolios,
      row.id = entity.id → row.targetAllocation = entity.targetAllocation))
  | .findPortfolio _ | .findAsset _ _ | .findAssets _ | .insertAsset _ | .saveAssets _
  | .updateChanged _ _ | .findOptimization _ | .saveOptimization _ | .recordVerification _
  | .recordSensitiveAction _ | .recordSnapshot _ _ _ | .assertCanTransition _ _ _ | .now
  | .setTargetAllocations _ => inferInstanceAs (Decidable True)

/-! ## The invariant -/

/-- The versions are well-formed, and the row agrees with them. -/
structure RowInv (portfolioId : String) (w : PortfolioWorld) : Prop where
  versioned : w.tables.Versioned
  agrees : Agrees w.tables portfolioId

def rowContract (portfolioId : String) : Contract PortfolioWorld where
  inv := RowInv portfolioId
  rely _ _ := True
  guar _ _ := True

theorem row_compatible (portfolioId : String) :
    Pool.Compatible (portfolioSemantics ι) (fun _ => rowContract portfolioId)
      (RowInv portfolioId) where
  inv_eq _ := rfl
  guar_rely _ _ _ _ _ _ := trivial
  happen_inv e := e.elim
  happen_rely _ e := e.elim

variable {portfolioId : String} {w w' : PortfolioWorld}

theorem RowInv.of_same (hinv : RowInv portfolioId w)
    (hversions : w'.tables.versions = w.tables.versions)
    (hportfolios : ∀ row' ∈ w'.tables.portfolios, ∃ row ∈ w.tables.portfolios,
      row'.id = row.id ∧ row'.targetAllocation = row.targetAllocation) : RowInv portfolioId w' := by
  have hof : ∀ id, w'.tables.versionsOf id = w.tables.versionsOf id := by
    intro id
    rw [versionsOf, hversions]
    rfl
  refine ⟨⟨fun id => ?_, ?_⟩, fun row' hrow' hid ticker => ?_⟩
  · rw [hof]
    exact hinv.versioned.consecutive id
  · rw [hversions]
    exact hinv.versioned.hundred
  · obtain ⟨row, hrow, hsame, htarget⟩ := hportfolios row' hrow'
    rw [htarget, currentWeights, latestVersion, hof]
    exact hinv.agrees row hrow (hsame.symm.trans hid) ticker

variable {tables : AllocationWorld}

theorem Agrees.stored (hagrees : Agrees tables portfolioId)
    (hversioned : tables.Versioned) {version : TargetAllocationVersion}
    (hnumber : version.version = (tables.versionsOf version.portfolioId).length + 1) :
    Agrees (tables.stored version) portfolioId := by
  intro row' hrow' hid ticker
  obtain ⟨row, hrow, rfl⟩ := mem_map.mp hrow'
  by_cases hupdated : row.id = version.portfolioId
  · rw [if_pos hupdated] at hid ⊢
    have hsame : portfolioId = version.portfolioId := hid.symm.trans hupdated
    rw [hsame, currentWeights, hversioned.latestVersion_stored hnumber]
    rfl
  · rw [if_neg hupdated] at hid ⊢
    have hother : version.portfolioId ≠ portfolioId := fun heq =>
      hupdated (hid.trans heq.symm)
    rw [currentWeights, latestVersion, versionsOf_stored, if_neg hother, append_nil]
    exact hagrees row hrow hid ticker

theorem RowInv.setTargetAllocations (hinv : RowInv portfolioId w) (edit : AllocationCall) :
    RowInv portfolioId { w with tables := (Portfolio.setTargetAllocations edit w.tables).2 } := by
  refine ⟨versioned_setTargetAllocations hinv.versioned edit, ?_⟩
  rcases hcall : Portfolio.setTargetAllocations edit w.tables with ⟨outcome, tables⟩
  cases outcome with
  | error e =>
    rw [eq_of_rejected hcall]
    exact hinv.agrees
  | ok result =>
    obtain ⟨-, -, final, -, -, -, hedited⟩ := edited_of_call hinv.versioned hcall
    rcases hedited with ⟨rfl, -⟩ | ⟨version, hid, hnumber, -, -, rfl⟩
    · exact hinv.agrees
    · rw [← hid] at hnumber
      exact hinv.agrees.stored hinv.versioned hnumber

variable {loaded entity : PortfolioRow}

theorem RowInv.updateChanged (hinv : RowInv portfolioId w)
    (hsame : loaded.targetAllocation = entity.targetAllocation) : RowInv portfolioId
      { w with tables := w.tables.updatePortfolio entity.id (changedColumns loaded entity) } := by
  refine hinv.of_same rfl fun row' hrow' => ?_
  obtain ⟨row, hrow, rfl⟩ := mem_map.mp hrow'
  refine ⟨row, hrow, ?_⟩
  split_ifs
  · exact ⟨rfl, if_pos hsame.symm⟩
  · exact ⟨rfl, rfl⟩

/-- The operations that do not write columns of a portfolio's row that was read before. -/
def PortfolioOp.isUpdate : PortfolioOp → Bool
  | .updateChanged _ _ => true
  | _ => false

variable {op : PortfolioOp}

theorem RowInv.serve (hinv : RowInv portfolioId w) (time : Int)
    (hop : op.isUpdate = false) : RowInv portfolioId (w.serve time op).2 := by
  cases op with
  | updateChanged loaded entity => cases hop
  | setTargetAllocations edit => exact hinv.setTargetAllocations edit
  | _ => exact hinv.of_same rfl fun row hrow => ⟨row, hrow, rfl, rfl⟩

theorem RowInv.perform (hinv : RowInv portfolioId w) (c : PortfolioChoice)
    (hserve : ∀ time, RowInv portfolioId (w.serve time op).2) :
    RowInv portfolioId (w.perform c op).2 := by
  cases c with
  | served time => exact hserve time
  | rejected e => exact hinv
  | lost e => exact hserve 0

/-! ## The methods -/

section Triples

variable {i : ι}

variable (portfolioId i) in
abbrev RowTriple {α : Type} (P : Assertion (rowContract portfolioId))
    (p : Async portfolioInterface Failure α) (R : α → Assertion (rowContract portfolioId))
    (E : Assertion (rowContract portfolioId)) : Prop :=
  Triple (portfolioSemantics ι) (freshSaves ι) i P p R E

variable (portfolioId i) in
abbrev KeepsAgreement {α : Type} (p : Async portfolioInterface Failure α) : Prop :=
  RowTriple portfolioId i .top p (fun _ => .top) .top

theorem triple_row_op
    (hserve : ∀ w time, RowInv portfolioId w → RowInv portfolioId (w.serve time op).2) :
    KeepsAgreement portfolioId i (askPortfolio op) := by
  refine triple_call fun w c r w' hinv _ _ hperf => ?_
  have hw' : (w.perform c op).2 = w' := congrArg Prod.snd (Option.some.inj hperf)
  refine ⟨?_, trivial, ?_⟩
  · rw [← hw']
    exact RowInv.perform hinv c fun time => hserve w time hinv
  · cases r <;> trivial

theorem triple_row_call (hop : op.isUpdate = false) :
    KeepsAgreement portfolioId i (askPortfolio op) :=
  triple_row_op fun _ time hinv => hinv.serve time hop

theorem triple_row_update (hsame : loaded.targetAllocation = entity.targetAllocation) :
    KeepsAgreement portfolioId i (askPortfolio (.updateChanged loaded entity)) :=
  triple_row_op fun _ _ hinv => hinv.updateChanged hsame

theorem triple_loadForSave (entity : PortfolioRow) :
    RowTriple portfolioId i .top (askPortfolio (.loadForSave entity))
      (fun found : Option PortfolioRow => .pure (∀ loaded, found = some loaded →
        loaded.targetAllocation = entity.targetAllocation)) .top := by
  refine triple_call fun w c r w' hinv _ hfresh hperf => ?_
  cases c with
  | served time =>
    cases hperf
    refine ⟨hinv, trivial, fun loaded hfound => ?_⟩
    have hid : loaded.id = entity.id := by simpa using find?_some hfound
    exact hfresh loaded (mem_of_find?_eq_some hfound) hid
  | rejected e | lost e =>
    cases hperf
    exact ⟨hinv, trivial, trivial⟩

theorem triple_savePortfolio (entity : PortfolioRow) :
    KeepsAgreement portfolioId i (savePortfolio entity) := by
  refine triple_bind (triple_loadForSave entity) fun found => ?_
  refine triple_pure fun hfound => ?_
  cases found with
  | none => exact triple_return
  | some loaded =>
    exact triple_bind (triple_row_update (hfound loaded rfl)) fun _ => triple_return

theorem triple_getPortfolio (id : String) : KeepsAgreement portfolioId i (getPortfolio id) := by
  refine triple_bind (triple_row_call rfl) fun found => ?_
  cases found with
  | none => exact triple_fail
  | some found =>
    exact triple_ite (fun _ => triple_fail) fun _ => triple_return

theorem triple_updatePortfolioMetrics (id : String) :
    KeepsAgreement portfolioId i (updatePortfolioMetrics id) := by
  refine triple_bind (triple_getPortfolio id) fun found => ?_
  refine triple_bind (triple_row_call rfl) fun assets => ?_
  refine triple_bind (triple_savePortfolio _) fun _ => ?_
  refine triple_bind (triple_row_call rfl) fun _ => ?_
  refine triple_bind (triple_row_call rfl) fun _ => ?_
  exact triple_bind (triple_try (triple_row_call rfl)) fun _ => triple_return

theorem triple_changeStatus (portfolio : PortfolioRow) (status : Option PortfolioStatus) :
    KeepsAgreement portfolioId i (changeStatus portfolio status) := by
  cases status with
  | none => exact triple_return
  | some status =>
    refine triple_ite (fun _ => triple_return) fun _ => ?_
    refine triple_bind (triple_row_call rfl) fun _ => ?_
    cases status with
    | archived => exact triple_bind (triple_row_call rfl) fun _ => triple_return
    | _ => exact triple_return

theorem triple_updatePortfolio (id : String) (dto : UpdatePortfolioDto) :
    KeepsAgreement portfolioId i (updatePortfolio id dto) := by
  refine triple_bind (triple_getPortfolio id) fun found => ?_
  refine triple_ofExcept_bind fun _ _ => ?_
  refine triple_bind (triple_changeStatus found.1 dto.status) fun portfolio => ?_
  refine triple_ofExcept_bind fun _ _ => ?_
  refine triple_bind (triple_savePortfolio _) fun _ => ?_
  exact triple_bind (triple_row_call rfl) fun _ => triple_return

theorem triple_setTargetAllocation (id : String) (allocations : Record ℚ) :
    KeepsAgreement portfolioId i (setTargetAllocation id allocations) := by
  refine triple_bind (triple_getPortfolio id) fun found => ?_
  refine triple_bind (triple_savePortfolio _) fun _ => ?_
  exact triple_bind (triple_row_call rfl) fun _ => triple_return

variable (cfg : PortfolioServiceConfig)

theorem triple_validatePortfolioConstraints (portfolio : PortfolioRow)
    (assets : List PortfolioAsset) (dto : AddHoldingDto) (operation : String) :
    KeepsAgreement portfolioId i
      (validatePortfolioConstraints cfg portfolio assets dto operation) := by
  exact triple_bind (triple_row_call rfl) fun _ =>
    triple_ite (fun _ => triple_fail) fun _ => triple_return

theorem triple_addHolding (id : String) (dto : AddHoldingDto) :
    KeepsAgreement portfolioId i (addHolding cfg id dto) := by
  refine triple_bind (triple_getPortfolio id) fun found => ?_
  refine triple_ofExcept_bind fun _ _ => ?_
  refine triple_bind (triple_row_call rfl) fun existing => ?_
  cases existing with
  | some asset => exact triple_fail
  | none =>
    refine triple_bind (triple_validatePortfolioConstraints cfg _ _ dto _) fun _ => ?_
    refine triple_bind (triple_row_call rfl) fun saved => ?_
    refine triple_bind (triple_row_call rfl) fun _ => ?_
    exact triple_bind (triple_updatePortfolioMetrics id) fun _ => triple_return

theorem triple_implementOptimization (id : String) :
    KeepsAgreement portfolioId i (implementOptimization id) := by
  refine triple_bind (triple_row_call rfl) fun found => ?_
  cases found with
  | none => exact triple_fail
  | some optimization =>
    refine triple_ite (fun _ => triple_fail) fun _ => ?_
    refine triple_bind (triple_getPortfolio _) fun found => ?_
    refine triple_bind (triple_row_call rfl) fun rebalanced => ?_
    refine triple_bind (triple_row_call rfl) fun implemented => ?_
    exact triple_bind (triple_row_call rfl) fun _ => triple_savePortfolio _

theorem triple_program (call : PortfolioCall) :
    KeepsAgreement portfolioId i (call.program cfg) := by
  cases call with
  | setTargetAllocations edit =>
    exact triple_bind (triple_row_call rfl) fun _ => triple_return
  | updatePortfolioMetrics id => exact triple_updatePortfolioMetrics id
  | updatePortfolio id dto =>
    exact triple_bind (triple_updatePortfolio id dto) fun _ => triple_return
  | addHolding id dto =>
    exact triple_bind (triple_addHolding cfg id dto) fun _ => triple_return
  | setTargetAllocation id allocations =>
    exact triple_bind (triple_setTargetAllocation id allocations) fun _ => triple_return
  | implementOptimization id =>
    exact triple_bind (triple_implementOptimization id) fun _ => triple_return

end Triples

/-! ## Runs -/

/-- In every interleaving in which each save finds the target allocation it carries, the row has
the weights of the highest version at every time. -/
theorem row_agrees_of_fresh_saves [DecidableEq ι] {cfg : PortfolioServiceConfig}
    {calls : ι → PortfolioCall} (hversioned : w.tables.Versioned)
    (hagrees : Agrees w.tables portfolioId)
    {c : Pool portfolioInterface Failure ι PortfolioWorld Unit}
    (hreach : Pool.Reach (portfolioSemantics ι) (freshSaves ι) (portfolioPool cfg calls w) c) :
    Agrees c.world.tables portfolioId := by
  have hkept := hreach.keeps (row_compatible portfolioId) ⟨hversioned, hagrees⟩
    (fun i => triple_program cfg (calls i)) fun _ => trivial
  exact hkept.world_inv.agrees

/-! ### A portfolio with one version -/

def sampleWeights (a b : ℚ) : Record ℚ :=
  .ofList [("A", a), ("B", b)]

def sampleAllocations (a b : ℚ) (baseVersion : ℕ) : AllocationCall where
  portfolioId := "p"
  allocations := .map [(some "A", some a), (some "B", some b)] (by simp)
  baseVersion := some (.finite baseVersion)

def sampleWorld : PortfolioWorld where
  tables := AllocationWorld.run [{ id := "p", userId := "u", name := "n" }]
    [{ id := "1", portfolioId := "p", ticker := "A", value := 3 },
     { id := "2", portfolioId := "p", ticker := "B", value := 1 }]
    [.call (sampleAllocations 100 0 0)]

theorem versioned_sampleWorld : sampleWorld.tables.Versioned :=
  versioned_run _ _ _

theorem agrees_of_copied (h : ∀ row ∈ tables.portfolios,
    row.id = portfolioId → row.targetAllocation = some (tables.currentWeights portfolioId)) :
    Agrees tables portfolioId := by
  intro row hrow hid ticker
  rw [h row hrow hid]
  rfl

theorem agrees_sampleWorld : Agrees sampleWorld.tables "p" :=
  agrees_of_copied (by decide +kernel)

def differsAt (tables : AllocationWorld) (portfolioId ticker : String) : Bool :=
  tables.portfolios.any fun row => row.id = portfolioId ∧
    (row.targetAllocation.bind (·.get ticker)) ≠ (tables.currentWeights portfolioId).get ticker

theorem not_agrees_of_differsAt {ticker : String}
    (h : differsAt tables portfolioId ticker = true) : ¬ Agrees tables portfolioId := by
  obtain ⟨row, hrow, hdiffers⟩ := any_eq_true.mp h
  obtain ⟨hid, hne⟩ := of_decide_eq_true hdiffers
  exact fun hagrees => hne (hagrees row hrow hid ticker)

def lenientService : PortfolioServiceConfig where
  evaluatePortfolio _ _ := { valid := true, violations := [] }

def editAndMetrics : Fin 2 → PortfolioCall
  | 0 => .setTargetAllocations (sampleAllocations 60 40 1)
  | 1 => .updatePortfolioMetrics "p"

/-- The metrics are updated after the edit. -/
theorem metrics_after_edit_agree : ∃ c, Pool.Reach (portfolioSemantics (Fin 2)) (freshSaves (Fin 2))
      (portfolioPool lenientService editAndMetrics sampleWorld) c ∧
    (c.world.tables.versionsOf "p").length = 2 ∧ Agrees c.world.tables "p" := by
  refine Pool.exists_run (.call 0 (.served 0) :: replicate 7 (.call 1 (.served 0)))
    (fun c => (c.world.tables.versionsOf "p").length) 2 (by decide +kernel)
    fun c hreach hversions => ?_
  exact ⟨hversions, row_agrees_of_fresh_saves versioned_sampleWorld agrees_sampleWorld hreach⟩

/-- One call of `setTargetAllocation` leaves a row that the history does not have. -/
theorem set_target_allocation_disagrees :
    (sampleWorld.tables.versionsOf "p").length = 1 ∧ Agrees sampleWorld.tables "p" ∧
    ∃ c, Pool.Reach (portfolioSemantics Unit) (anyStep _) (portfolioPool lenientService
          (fun _ => .setTargetAllocation "p" (sampleWeights 0 100)) sampleWorld) c ∧
      ¬ Agrees c.world.tables "p" := by
  refine ⟨by decide +kernel, agrees_sampleWorld, ?_⟩
  exact Pool.exists_run (replicate 4 (.call () (.served 0)))
    (fun c => differsAt c.world.tables "p" "B") true (by decide +kernel)
    fun _ _ hdiffers => not_agrees_of_differsAt hdiffers

end Trellis.Investment
