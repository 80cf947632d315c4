import Trellis.Trading.Deadline

/-!
# Submissions under one client request id

A call looks its id up in the idempotency map before its first await and enters its result after
its last. Another call that looks the id up in between finds nothing and submits as well.
-/

namespace Trellis.Trading

open Core List

variable {ι : Type} [DecidableEq ι]

/-- A call checks the map only while no call is in flight, or when it has its entry. -/
def noOverlap (ι : Type) [DecidableEq ι] : Guard (tradingSemantics ι) :=
  fun _ op _ w => match op with
    | .getIdempotent id => (w.idempotency id).isSome = true ∨ w.inFlight = []
    | _ => True

instance : ∀ (i : ι) op c w, Decidable (noOverlap ι i op c w) := fun _ op _ w =>
  match op with
  | .getIdempotent id =>
    inferInstanceAs (Decidable ((w.idempotency id).isSome = true ∨ w.inFlight = []))
  | .setIdempotent _ _ | .setTrade _ _ _ | .now | .loadAccount _ | .submitTransaction _
  | .findTransaction _ => inferInstanceAs (Decidable True)

/-! ## The invariant -/

/-- Before the entry at most one call is in flight, and only it has submitted; after the entry
none is. -/
structure OnceInv (id : String) (w : TradingWorld ι) : Prop where
  once : w.submitted.length ≤ 1
  entered : (w.idempotency id).isSome = true → w.inFlight = []
  open_ : w.idempotency id = none → w.submitted = [] ∨ ∃ i, w.inFlight = [i]

def LeavesFlight (id : String) (i : ι) (w w' : TradingWorld ι) : Prop :=
  w.inFlight = [i] → w'.inFlight = [i] ∧ w'.submitted = w.submitted ∧
    w'.idempotency id = w.idempotency id

def onceContract (id : String) (i : ι) : Contract (TradingWorld ι) where
  inv := OnceInv id
  rely := LeavesFlight id i
  guar w w' := ∀ j, j ≠ i → LeavesFlight id j w w'

theorem once_compatible (id : String) :
    Pool.Compatible (tradingSemantics ι) (onceContract id) (OnceInv id) where
  inv_eq _ := rfl
  guar_rely i _ _ _ hij h := h i hij
  happen_inv e := e.elim
  happen_rely _ e := e.elim

/-! ## One call -/

section Triples

variable {cfg : TradingConfig} {id : String} {i : ι}

/-- The call is in flight alone, and `P` holds of the submissions. -/
def inFlightWith (id : String) (i : ι) (P : List (Submission ι) → Prop) :
    Assertion (onceContract id i) where
  holds w := w.inFlight = [i] ∧ P w.submitted
  stable w w' hmove h := by
    obtain ⟨hflight, hsubmitted, -⟩ := hmove.2.2 h.1
    exact ⟨hflight, hsubmitted ▸ h.2⟩

abbrev flying (id : String) (i : ι) : Assertion (onceContract id i) :=
  inFlightWith id i (· = [])

abbrev launched (id : String) (i : ι) : Assertion (onceContract id i) :=
  inFlightWith id i fun _ => True

/-- The operations that leave the map and the submissions alone. -/
def TradingOp.isIdle : TradingOp → Bool
  | .getIdempotent _ | .setIdempotent _ _ | .submitTransaction _ => false
  | _ => true

variable (id i) in
abbrev OnceTriple {α : Type} (P : Assertion (onceContract id i))
    (p : Async tradingInterface Failure α) (R : α → Assertion (onceContract id i))
    (E : Assertion (onceContract id i)) : Prop :=
  Triple (tradingSemantics ι) (noOverlap ι) i P p R E

theorem triple_idle (op : TradingOp) (hop : op.isIdle = true) (P : List (Submission ι) → Prop) :
    OnceTriple id i (inFlightWith id i P) (ask op) (fun _ => inFlightWith id i P)
      (inFlightWith id i P) := by
  refine triple_call fun w c r w' hinv hP _ hperf => ?_
  obtain ⟨hmap, hsubmitted, hflight⟩ : w'.idempotency = w.idempotency ∧
      w'.submitted = w.submitted ∧ w'.inFlight = w.inFlight := by
    cases op with
    | getIdempotent _ | setIdempotent _ _ | submitTransaction _ => cases hop
    | setTrade _ _ _ =>
      cases hperf
      exact ⟨rfl, rfl, rfl⟩
    | now | loadAccount _ | findTransaction _ =>
      cases c <;> cases hperf <;> exact ⟨rfl, rfl, rfl⟩
  have hafter : (inFlightWith id i P) w' :=
    ⟨hflight.trans hP.1, hsubmitted ▸ hP.2⟩
  refine ⟨⟨?_, ?_, ?_⟩, fun j hj hfly => ?_, ?_⟩
  · rw [hsubmitted]
    exact hinv.once
  · rw [hmap, hflight]
    exact hinv.entered
  · rw [hmap, hsubmitted, hflight]
    exact hinv.open_
  · exact ⟨hflight.trans hfly, hsubmitted, congrFun hmap id⟩
  · cases r with
    | ok _ => exact hafter
    | error _ => exact hafter

theorem triple_check : OnceTriple id i .top (ask (.getIdempotent id))
    (fun found : Option TradeResult => (flying id i).when (found = none)) .top := by
  refine triple_call fun w c r w' hinv _ hguard hperf => ?_
  cases hperf
  cases hentry : w.idempotency id with
  | some result =>
    have hcheck : w.check i id = w := by simp [TradingWorld.check, hentry]
    rw [hcheck]
    exact ⟨hinv, fun _ _ h => ⟨h, rfl, rfl⟩, fun h => by cases h⟩
  | none =>
    have hcheck : w.check i id = { w with inFlight := i :: w.inFlight } := by
      simp [TradingWorld.check, hentry]
    have hempty : w.inFlight = [] := by
      rcases hguard with hsome | hempty
      · rw [hentry] at hsome
        cases hsome
      · exact hempty
    have hnone : w.submitted = [] := by
      rcases hinv.open_ hentry with hnone | ⟨j, hj⟩
      · exact hnone
      · rw [hempty] at hj
        cases hj
    rw [hcheck]
    refine ⟨⟨hinv.once, fun hsome => ?_, fun _ => .inl hnone⟩, fun j _ h => ?_, fun _ => ?_⟩
    · change (w.idempotency id).isSome = true at hsome
      rw [hentry] at hsome
      cases hsome
    · rw [hempty] at h
      cases h
    · refine ⟨?_, hnone⟩
      rw [hempty]

theorem triple_submit_once (transaction : Transaction) : OnceTriple id i (flying id i)
    (ask (.submitTransaction transaction))
    (fun _ => launched id i) (launched id i) := by
  refine triple_call fun w c r w' hinv hP _ hperf => ?_
  obtain ⟨hflight, hnone⟩ := hP
  have hsubmit : (onceContract id i).inv (w.submit i transaction) := by
    refine ⟨?_, hinv.entered, fun _ => .inr ⟨i, hflight⟩⟩
    change (_ :: w.submitted).length ≤ 1
    rw [show w.submitted = [] from hnone]
    exact le_rfl
  have hguar : (onceContract id i).guar w (w.submit i transaction) := by
    intro j hj h
    cases (singleton_inj.mp (hflight.symm.trans h))
    exact (hj rfl).elim
  cases c <;> cases hperf <;> exact ⟨hsubmit, hguar, hflight, trivial⟩

theorem triple_enter (result : TradeResult) :
    OnceTriple id i (launched id i) (ask (.setIdempotent id result)) (fun _ => .top) .top := by
  refine triple_call fun w c r w' hinv hP _ hperf => ?_
  obtain ⟨hflight, -⟩ := hP
  cases hperf
  have hempty : (w.enter i id result).inFlight = [] := by
    change w.inFlight.filter (· ≠ i) = []
    rw [hflight]
    simp
  refine ⟨⟨hinv.once, fun _ => hempty, fun h => ?_⟩, fun j hj h => ?_, trivial⟩
  · change Function.update w.idempotency id (some result) id = none at h
    rw [Function.update_self] at h
    cases h
  · cases (singleton_inj.mp (hflight.symm.trans h))
    exact (hj rfl).elim

end Triples

section Calls

variable {cfg : TradingConfig} {request : TradeRequest} {id : String} {i : ι}
  (hid : request.clientRequestId = some id) (hne : id ≠ "")

omit [DecidableEq ι] in
theorem launched_of_flying {w : TradingWorld ι} (h : flying id i w) : launched id i w :=
  ⟨h.1, trivial⟩

include hid hne

theorem triple_remember_once (result : TradeResult) :
    OnceTriple id i (launched id i) (remember request result) (fun _ => .top) .top := by
  rw [remember_of_id hid hne]
  exact triple_enter result

omit hid hne

theorem triple_submitBuilt_once (transaction : Transaction) :
    OnceTriple id i (flying id i) (submitBuilt cfg transaction)
      (fun _ => launched id i) (launched id i) := by
  refine triple_bind (triple_submit_once transaction) fun outcome => ?_
  cases outcome with
  | hash hash => exact triple_done fun _ _ h => h
  | thrown e code =>
    by_cases htimeout : isTimeout e code = true
    · simp only [htimeout, if_true]
      refine triple_bind (R := fun _ => launched id i) (triple_attempt
        (triple_idle (.findTransaction _) rfl fun _ => True) (fun _ _ _ h => h)
        fun _ _ _ h => h) fun found => ?_
      rcases found with e | (- | record) <;> exact triple_done fun _ _ h => h
    · simp only [htimeout]
      exact triple_throw fun _ _ h => h

theorem triple_ledgerTimeout_once (deadline : Option ℚ) :
    OnceTriple id i (flying id i) (ledgerTimeout deadline)
      (fun _ => flying id i) (flying id i) := by
  cases deadline with
  | none => exact triple_done fun _ _ h => h
  | some deadline =>
    exact triple_bind (triple_idle .now rfl (· = [])) fun _ => triple_done fun _ _ h => h

theorem triple_submitLive_once (secret : String) (deadline : Option ℚ) :
    OnceTriple id i (flying id i)
      (submitLive cfg request secret deadline) (fun _ => launched id i) (launched id i) := by
  refine triple_ofExcept (fun _ _ h => launched_of_flying h) fun source _ => ?_
  refine triple_bind (triple_error (triple_idle (.loadAccount source) rfl (· = [])) fun _ _ h =>
    launched_of_flying h) fun _ => ?_
  refine triple_ofExcept (fun _ _ h => launched_of_flying h) fun _ _ => ?_
  refine triple_bind (triple_error (triple_ledgerTimeout_once deadline)
    fun _ _ h => launched_of_flying h) fun timeout => ?_
  refine triple_bind (triple_error (triple_idle .now rfl (· = []))
    fun _ _ h => launched_of_flying h) fun built => ?_
  exact triple_submitBuilt_once _

include hid hne

theorem tradeRules_once (deadline : Option ℚ) :
    TradeRules (noOverlap ι) i cfg request deadline (flying id i) (launched id i) where
  submitted _ := launched_of_flying
  now_before := triple_error (triple_idle .now rfl (· = [])) fun _ _ => launched_of_flying
  now_after := triple_forget (triple_idle .now rfl fun _ => True)
  setTrade hash result :=
    triple_forget (triple_idle (.setTrade request hash result) rfl fun _ => True)
  remember := triple_remember_once hid hne
  submitLive secret := triple_submitLive_once secret deadline

theorem triple_processTrade_once :
    OnceTriple id i .top (processTrade cfg request) (fun _ => .top) .top := by
  refine triple_ofExcept_bind fun slippage _ => ?_
  refine triple_ofExcept_bind fun deadline _ => ?_
  rw [recall_of_id hid hne]
  refine triple_bind triple_check fun found => ?_
  cases found with
  | some result => exact triple_return
  | none =>
    exact triple_pre ((tradeRules_once hid hne deadline).processNewTrade slippage) fun _ _ h => h rfl

end Calls

/-! ## Runs -/

/-- In every interleaving of calls with one id in which no call checks the map while another is
in flight, at most one transaction is submitted. -/
theorem submitted_once_of_no_overlap {cfg : TradingConfig} {requests : ι → TradeRequest}
    {id : String} (hid : ∀ i, (requests i).clientRequestId = some id) (hne : id ≠ "")
    {c : Pool tradingInterface Failure ι (TradingWorld ι) TradeResult}
    (hreach : Pool.Reach (tradingSemantics ι) (noOverlap ι) (tradingPool cfg requests) c) :
    c.world.submitted.length ≤ 1 := by
  have hfresh : OnceInv id (tradingPool cfg requests).world :=
    ⟨Nat.zero_le _, fun h => Bool.noConfusion h, fun _ => .inl rfl⟩
  have hkept := hreach.keeps (once_compatible id) hfresh
    (fun i => triple_processTrade_once (hid i) hne) fun _ => trivial
  exact hkept.world_inv.once

/-! ### Two calls -/

def identifiedTrade : TradeRequest where
  portfolioId := "p"
  ticker := "XLM"
  action := .buy
  quantity := 1
  price := 1
  clientRequestId := some "r"
  sourceSecret := some "S"

def wholeCall (i : Fin 2) : List (Pool.Pick (tradingSemantics (Fin 2))) :=
  replicate 7 (.call i (.served 0 "hash" none))

theorem successive_calls_submit_once :
    ∃ c, Pool.Reach (tradingSemantics (Fin 2)) (noOverlap (Fin 2))
        (tradingPool liveService fun _ => identifiedTrade) c ∧
      c.world.submitted.map (·.caller) = [0] ∧ c.world.submitted.length ≤ 1 := by
  refine Pool.exists_run (wholeCall 0 ++ [.call 1 (.served 0 "hash" none)])
    (fun c => c.world.submitted.map (·.caller)) [0] (by decide +kernel) fun c hreach hcallers => ?_
  exact ⟨hcallers, submitted_once_of_no_overlap (fun _ => rfl) (by decide) hreach⟩

/-- Both calls check the map and load the account before either submits. -/
def overlappingCalls : List (Pool.Pick (tradingSemantics (Fin 2))) :=
  replicate 2 (.call 0 (.served 0 "hash" none)) ++
    replicate 2 (.call 1 (.served 0 "hash" none)) ++
    replicate 2 (.call 0 (.served 0 "hash" none)) ++
    replicate 2 (.call 1 (.served 0 "hash" none))

theorem overlapping_calls_submit_twice : ∃ c, Pool.Reach (tradingSemantics (Fin 2)) (anyStep _)
    (tradingPool liveService fun _ => identifiedTrade) c ∧ ¬ c.world.submitted.length ≤ 1 := by
  refine Pool.exists_run overlappingCalls (fun c => c.world.submitted.map (·.caller)) [1, 0]
    (by decide +kernel) fun c hreach hcallers => ?_
  intro hle
  have hlength := congrArg length hcallers
  rw [length_map] at hlength
  rw [hlength] at hle
  exact absurd hle (by decide)

end Trellis.Trading
