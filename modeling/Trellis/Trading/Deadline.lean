import Trellis.Trading.Service
import Trellis.Core.Pool

/-!
# The deadline of a submitted trade

The upper time bound of a submitted transaction is counted in whole seconds from the second in
which it is built; the time that remains is rounded up and never taken to be less than a second.
-/

namespace Trellis.Trading

open Core List

variable {ι : Type} [DecidableEq ι]

/-! ## Calls -/

variable (cfg : TradingConfig) (requests : ι → TradeRequest)

def tradingPool : Pool tradingInterface Failure ι (TradingWorld ι) TradeResult where
  world := {}
  calls i := processTrade cfg (requests i)

/-! ## The course of a trade -/

section Course

variable {C : Contract (TradingWorld ι)} (g : Guard (tradingSemantics ι)) (i : ι)
  (cfg : TradingConfig) (request : TradeRequest) (deadline : Option ℚ) (before after : Assertion C)

/-- What holds before and after the submission of a trade is kept by the rest of the call. -/
structure TradeRules : Prop where
  submitted : ∀ w, before w → after w
  now_before : Triple (tradingSemantics ι) g i before now (fun _ => before) after
  now_after : Triple (tradingSemantics ι) g i after now (fun _ => after) .top
  setTrade : ∀ hash result, Triple (tradingSemantics ι) g i after
    (ask (.setTrade request hash result)) (fun _ => after) .top
  remember : ∀ result, Triple (tradingSemantics ι) g i after
    (remember request result) (fun _ => .top) .top
  submitLive : ∀ secret, Triple (tradingSemantics ι) g i before
    (submitLive cfg request secret deadline) (fun _ => after) after

namespace TradeRules

variable {g i cfg request deadline before after}
  (rules : TradeRules g i cfg request deadline before after)
include rules

theorem rejectTrade (status : TradeStatus) (mode : FailureMode) :
    Triple (tradingSemantics ι) g i after (rejectTrade request status mode) (fun _ => .top) .top :=
  triple_bind rules.now_after fun _ => triple_bind (rules.remember _) fun _ => triple_return

theorem submitTrade : Triple (tradingSemantics ι) g i before
    (submitTrade cfg request deadline) (fun _ => after) after := by
  have hmock : Triple (tradingSemantics ι) g i before
      (submitMock cfg request) (fun _ => after) after :=
    triple_bind rules.now_before fun _ => triple_done fun w _ => rules.submitted w
  unfold Trading.submitTrade
  cases request.sourceSecret with
  | none => exact hmock
  | some secret =>
    by_cases hlive : (cfg.hasServer && decide (secret ≠ "")) = true
    · simp only [hlive, if_true]
      exact rules.submitLive secret
    · simp only [hlive]
      exact hmock

theorem processNewTrade (slippage : ℚ) : Triple (tradingSemantics ι) g i before
    (processNewTrade cfg request slippage deadline) (fun _ => .top) .top := by
  have hexceeded : Triple (tradingSemantics ι) g i before
      (deadlineExceeded deadline) (fun _ => before) .top := by
    cases deadline with
    | none => exact triple_done fun _ _ h => h
    | some deadline =>
      exact triple_bind (triple_forget rules.now_before) fun _ => triple_done fun _ _ h => h
  refine triple_bind hexceeded fun exceeded => ?_
  cases exceeded with
  | true => exact triple_pre (rules.rejectTrade _ _) fun w _ => rules.submitted w
  | false =>
    cases failureMode request slippage with
    | some mode => exact triple_pre (rules.rejectTrade _ mode) fun w _ => rules.submitted w
    | none =>
      refine triple_bind (R := fun _ => after) (triple_attempt rules.submitTrade
        (fun _ _ _ h => h) fun _ _ _ h => h) fun outcome => ?_
      rcases outcome with e | (- | hash)
      · exact rules.rejectTrade _ _
      · exact rules.rejectTrade _ _
      · exact triple_bind rules.now_after fun _ => triple_bind (rules.setTrade hash _) fun _ =>
          triple_bind (rules.remember _) fun _ => triple_return

end TradeRules

end Course

/-- Where the request has a deadline, the bound of the transaction comes from the last two
clock readings of its caller. -/
def Submission.Bounded (s : Submission ι) : Prop :=
  ∀ deadline, deadlineMs cfg (requests s.caller) = .ok (some deadline) →
    ∃ built remaining rest, s.readings = built :: remaining :: rest ∧
      s.transaction.maxTime = built / 1000 + clampedTimeout deadline remaining

/-- All submissions are bounded; nobody reads the clock for another. -/
def deadlineContract (i : ι) : Contract (TradingWorld ι) where
  inv w := ∀ s ∈ w.submitted, s.Bounded cfg requests
  rely w w' := w'.readings i = w.readings i
  guar w w' := ∀ j, j ≠ i → w'.readings j = w.readings j

theorem deadline_compatible : Pool.Compatible (tradingSemantics ι) (deadlineContract cfg requests)
    (fun w => ∀ s ∈ w.submitted, s.Bounded cfg requests) where
  inv_eq _ := rfl
  guar_rely i _ _ _ hij h := h i hij
  happen_inv e := e.elim
  happen_rely _ e := e.elim

section Triples

variable (cfg : TradingConfig) (requests : ι → TradeRequest) {i : ι}

def reads (i : ι) (readings : List Int) : Assertion (deadlineContract cfg requests i) where
  holds w := w.readings i = readings
  stable _ _ hmove h := hmove.2.2.trans h

/-- A call reads the clock and submits within its bound, also where it rejects. -/
abbrev DeadlineTriple {cfg : TradingConfig} {requests : ι → TradeRequest} {α : Type}
    (P : Assertion (deadlineContract cfg requests i)) (p : TradingProgram α)
    (R : α → Assertion (deadlineContract cfg requests i)) : Prop :=
  Triple (tradingSemantics ι) (anyStep _) i P p R .top

abbrev Timely (i : ι) {α : Type} (p : TradingProgram α) : Prop :=
  DeadlineTriple (.top : Assertion (deadlineContract cfg requests i)) p fun _ => .top

variable {cfg requests} {readings : List Int}

theorem triple_now : DeadlineTriple (reads cfg requests i readings) now
    (fun time : Int => reads cfg requests i (time :: readings)) := by
  refine triple_call fun w c r w' hinv hreads _ hperf => ?_
  cases c with
  | rejected e code => cases hperf
  | served time hash record =>
    cases hperf
    refine ⟨hinv, fun j hj => Function.update_of_ne hj _ _, ?_⟩
    change Function.update w.readings i (time :: w.readings i) i = _
    rw [Function.update_self, show w.readings i = readings from hreads]

/-- Everything but a submission and a reading of the clock. -/
def TradingOp.isPlain : TradingOp → Bool
  | .now | .submitTransaction _ => false
  | _ => true

theorem triple_plain (op : TradingOp) (hop : op.isPlain = true) :
    DeadlineTriple (reads cfg requests i readings)
      (ask op) (fun _ => reads cfg requests i readings) := by
  refine triple_call fun w c r w' hinv hreads _ hperf => ?_
  obtain ⟨hsubmitted, hreadings⟩ : w'.submitted = w.submitted ∧ w'.readings = w.readings := by
    cases op with
    | now | submitTransaction _ => cases hop
    | getIdempotent id =>
      cases hperf
      unfold TradingWorld.check
      split <;> exact ⟨rfl, rfl⟩
    | setIdempotent _ _ | setTrade _ _ _ =>
      cases hperf
      exact ⟨rfl, rfl⟩
    | loadAccount _ | findTransaction _ =>
      cases c <;> cases hperf <;> exact ⟨rfl, rfl⟩
  refine ⟨?_, fun j _ => congrFun hreadings j, ?_⟩
  · change ∀ s ∈ w'.submitted, s.Bounded cfg requests
    rw [hsubmitted]
    exact hinv
  · have hafter : w'.readings i = readings := (congrFun hreadings i).trans hreads
    cases r with
    | ok _ => exact hafter
    | error _ => trivial

theorem triple_submitTransaction (transaction : Transaction)
    (hbounded : (⟨i, transaction, readings⟩ : Submission ι).Bounded cfg requests) :
    DeadlineTriple (reads cfg requests i readings) (ask (.submitTransaction transaction))
      (fun _ => reads cfg requests i readings) := by
  refine triple_call fun w c r w' hinv hreads _ hperf => ?_
  have hreads' : w.readings i = readings := hreads
  have hsubmit : (deadlineContract cfg requests i).inv (w.submit i transaction) := by
    intro s hs
    rcases mem_cons.mp hs with rfl | hold
    · rw [hreads']
      exact hbounded
    · exact hinv s hold
  cases c <;> cases hperf <;> exact ⟨hsubmit, fun _ _ => rfl, hreads'⟩

variable (request : TradeRequest)

theorem triple_remember (result : TradeResult) :
    DeadlineTriple (reads cfg requests i readings) (remember request result) (fun _ => .top) := by
  by_cases hid : truthy request.clientRequestId = true
  · obtain ⟨id, hrequest, hne⟩ := exists_id_of_truthy hid
    rw [remember_of_id hrequest hne]
    exact triple_post (triple_plain (.setIdempotent id result) rfl) fun _ _ _ _ => trivial
  · rw [remember_of_not_truthy (Bool.eq_false_iff.mpr hid)]
    exact triple_return

theorem triple_recall : DeadlineTriple (reads cfg requests i readings)
    (recalled request) (fun _ => reads cfg requests i readings) := by
  by_cases hid : truthy request.clientRequestId = true
  · obtain ⟨id, hrequest, hne⟩ := exists_id_of_truthy hid
    rw [recall_of_id hrequest hne]
    exact triple_plain (.getIdempotent id) rfl
  · rw [recall_of_not_truthy (Bool.eq_false_iff.mpr hid)]
    exact triple_done fun _ _ h => h

variable (cfg requests i) in
/-- The timeout comes from the last clock reading of the caller, where there is a deadline. -/
def timeoutRead (deadline : Option ℚ) (timeout : Int) :
    Assertion (deadlineContract cfg requests i) where
  holds w := ∀ d, deadline = some d → ∃ remaining rest, w.readings i = remaining :: rest ∧
    timeout = clampedTimeout d remaining
  stable w w' hmove h d hd := by
    have hreadings : w'.readings i = w.readings i := hmove.2.2
    rw [hreadings]
    exact h d hd

theorem triple_ledgerTimeout (deadline : Option ℚ) : DeadlineTriple (reads cfg requests i readings)
    (ledgerTimeout deadline) (timeoutRead cfg requests i deadline) := by
  cases deadline with
  | none => exact triple_done fun _ _ _ _ h => by cases h
  | some deadline =>
    refine triple_bind triple_now fun remaining => triple_done fun w _ h d hd => ?_
    cases hd
    exact ⟨remaining, readings, h, rfl⟩

theorem triple_of_reads {α : Type} {p : TradingProgram α}
    {R : α → Assertion (deadlineContract cfg requests i)}
    (h : ∀ readings, DeadlineTriple (reads cfg requests i readings) p R) :
    DeadlineTriple (.top : Assertion (deadlineContract cfg requests i)) p R :=
  triple_choose fun w _ _ => ⟨reads cfg requests i (w.readings i), rfl, h (w.readings i)⟩

theorem triple_submitBuilt (transaction : Transaction)
    (hbounded : (⟨i, transaction, readings⟩ : Submission ι).Bounded cfg requests) :
    DeadlineTriple (reads cfg requests i readings)
      (submitBuilt cfg transaction) (fun _ => .top) := by
  refine triple_bind (triple_submitTransaction transaction hbounded) fun outcome => ?_
  cases outcome with
  | hash hash => exact triple_return
  | thrown e code =>
    by_cases htimeout : isTimeout e code = true
    · simp only [htimeout, if_true]
      refine triple_bind (R := fun _ => .top) (triple_attempt
        (triple_plain (.findTransaction _) rfl) (fun _ _ _ _ => trivial)
        fun _ _ _ _ => trivial) fun found => ?_
      rcases found with e | (- | record) <;> exact triple_return
    · simp only [htimeout]
      exact triple_fail

variable {deadline : Option ℚ}

variable (hdeadline : deadlineMs cfg (requests i) = .ok deadline)
include hdeadline

theorem triple_submitLive (secret : String) : DeadlineTriple (reads cfg requests i readings)
    (submitLive cfg (requests i) secret deadline) (fun _ => .top) := by
  refine triple_ofExcept_bind fun source _ => ?_
  refine triple_bind (triple_plain (.loadAccount source) rfl) fun _ => ?_
  refine triple_ofExcept_bind fun _ _ => ?_
  refine triple_bind (triple_ledgerTimeout deadline) fun timeout => ?_
  refine triple_choose fun w _ hread => ⟨reads cfg requests i (w.readings i), rfl, ?_⟩
  refine triple_bind triple_now fun built => triple_submitBuilt _ fun d hd => ?_
  obtain ⟨remaining, rest, hreadings, htimeout⟩ := hread d (Except.ok.inj (hdeadline.symm.trans hd))
  refine ⟨built, remaining, rest, ?_, ?_⟩
  · rw [hreadings]
  · rw [htimeout]

theorem tradeRules : TradeRules (anyStep _) i cfg (requests i) deadline
    (.top : Assertion (deadlineContract cfg requests i)) .top where
  submitted _ h := h
  now_before := triple_of_reads fun _ => triple_post triple_now fun _ _ _ _ => trivial
  now_after := triple_of_reads fun _ => triple_post triple_now fun _ _ _ _ => trivial
  setTrade hash result := triple_of_reads fun _ =>
    triple_post (triple_plain (.setTrade _ hash result) rfl) fun _ _ _ _ => trivial
  remember result := triple_of_reads fun _ => triple_remember _ result
  submitLive secret := triple_of_reads fun _ => triple_submitLive hdeadline secret

omit hdeadline

/-- A call submits with the bound it computed from its last two clock readings. -/
theorem triple_processTrade : Timely cfg requests i (processTrade cfg (requests i)) := by
  refine triple_ofExcept_bind fun slippage _ => ?_
  refine triple_ofExcept_bind fun deadline hdeadline => ?_
  refine triple_bind (R := fun _ => .top) (triple_of_reads fun _ =>
    triple_post (triple_recall (requests i)) fun _ _ _ _ => trivial) fun found => ?_
  cases found with
  | some result => exact triple_return
  | none => exact (tradeRules hdeadline).processNewTrade slippage

end Triples

theorem reach_bounded {cfg : TradingConfig} {requests : ι → TradeRequest}
    {c : Pool tradingInterface Failure ι (TradingWorld ι) TradeResult}
    (hreach : Pool.Reach (tradingSemantics ι) (anyStep _) (tradingPool cfg requests) c) :
    ∀ s ∈ c.world.submitted, s.Bounded cfg requests := by
  have hkept := hreach.keeps (deadline_compatible cfg requests)
    (fun s hs => (not_mem_nil hs).elim) (fun _ => triple_processTrade) fun _ => trivial
  exact hkept.world_inv

/-! ## The bound -/

/-- When the bound of a transaction built at `built`, with the time that remains read at
`remaining`, is not after the deadline: the deadline is thirty seconds away, counted from the
second of `built`; or it is at least a second away and, rounded down to a second, still covers
the time that remained. -/
def InTime (deadline : ℚ) (remaining built : Int) : Prop :=
  built / 1000 + 30 ≤ ⌊deadline / 1000⌋ ∨ (built / 1000 + 1 ≤ ⌊deadline / 1000⌋ ∧
      deadline - remaining ≤ 1000 * (⌊deadline / 1000⌋ - built / 1000 : Int))

theorem bound_le_deadline_iff (deadline : ℚ) (remaining built : Int) :
    1000 * ((built / 1000 + clampedTimeout deadline remaining : Int) : ℚ) ≤ deadline ↔
      InTime deadline remaining built := by
  have hfloor : 1000 * ((built / 1000 + clampedTimeout deadline remaining : Int) : ℚ) ≤ deadline ↔
      built / 1000 + clampedTimeout deadline remaining ≤ ⌊deadline / 1000⌋ := by
    rw [Int.le_floor, le_div_iff₀ (by norm_num), mul_comm]
  have hceil : deadline - remaining ≤ 1000 * (⌊deadline / 1000⌋ - built / 1000 : Int) ↔
      ⌈(deadline - remaining) / 1000⌉ ≤ ⌊deadline / 1000⌋ - built / 1000 := by
    rw [Int.ceil_le, div_le_iff₀ (by norm_num), mul_comm]
  rw [hfloor, InTime, hceil, clampedTimeout]
  omega

/-- Whether the upper time bound of a submitted transaction is within the deadline of its
request depends on the last two clock readings of its caller as stated. -/
theorem submitted_in_time_iff {cfg : TradingConfig} {requests : ι → TradeRequest}
    {c : Pool tradingInterface Failure ι (TradingWorld ι) TradeResult}
    (hreach : Pool.Reach (tradingSemantics ι) (anyStep _) (tradingPool cfg requests) c)
    {s : Submission ι} (hs : s ∈ c.world.submitted) {deadline : ℚ}
    (hdeadline : deadlineMs cfg (requests s.caller) = .ok (some deadline)) :
    ∃ built remaining rest, s.readings = built :: remaining :: rest ∧
      (1000 * (s.transaction.maxTime : ℚ) ≤ deadline ↔ InTime deadline remaining built) := by
  obtain ⟨built, remaining, rest, hreadings, hmax⟩ := reach_bounded hreach s hs deadline hdeadline
  refine ⟨built, remaining, rest, hreadings, ?_⟩
  rw [hmax]
  exact bound_le_deadline_iff deadline remaining built

/-! ### Two deadlines -/

def liveService : TradingConfig where
  hasServer := true
  parseDate _ := none
  publicKey secret := .ok secret
  checkPayment _ := .ok ()
  numberText _ := "1"
  transactionHash _ := "hash"
  sha256 := id

def tradeBy (deadline : ℚ) : TradeRequest where
  portfolioId := "p"
  ticker := "XLM"
  action := .buy
  quantity := 1
  price := 1
  sourceSecret := some "S"
  deadlineTimestamp := some (.epoch (.finite deadline))

def submitAtZero : List (Pool.Pick (tradingSemantics (Fin 1))) :=
  List.replicate 5 (.call 0 (.served 0 "hash" none))

theorem minute_deadline_kept : ∃ c, Pool.Reach (tradingSemantics (Fin 1)) (anyStep _)
      (tradingPool liveService fun _ => tradeBy 60000) c ∧
    ∃ s ∈ c.world.submitted, 1000 * (s.transaction.maxTime : ℚ) ≤ 60000 := by
  refine Pool.exists_run submitAtZero (fun c => c.world.submitted.map (·.readings)) [[0, 0, 0]]
    (by decide +kernel) fun c hreach hsubmitted => ?_
  obtain ⟨s, hs, hreadings⟩ : ∃ s ∈ c.world.submitted, s.readings = [0, 0, 0] :=
    mem_map.mp (hsubmitted ▸ mem_singleton_self _)
  obtain ⟨built, remaining, rest, hlast, hiff⟩ := submitted_in_time_iff hreach hs rfl
  cases hreadings.symm.trans hlast
  exact ⟨s, hs, hiff.mpr (by unfold InTime; decide +kernel)⟩

/-- With half a second over one second left the transaction is valid for two seconds. -/
theorem fractional_deadline_outlived : ∃ c, Pool.Reach (tradingSemantics (Fin 1)) (anyStep _)
      (tradingPool liveService fun _ => tradeBy 1500) c ∧
    ∃ s ∈ c.world.submitted, s.readings = [0, 0, 0] ∧
      ¬ 1000 * (s.transaction.maxTime : ℚ) ≤ 1500 := by
  refine Pool.exists_run submitAtZero
    (fun c => c.world.submitted.map fun s => (s.readings, s.transaction.maxTime)) [([0, 0, 0], 2)]
    (by decide +kernel) fun c hreach hsubmitted => ?_
  obtain ⟨s, hs, hpair⟩ : ∃ s ∈ c.world.submitted,
      (s.readings, s.transaction.maxTime) = ([0, 0, 0], 2) :=
    mem_map.mp (hsubmitted ▸ mem_singleton_self _)
  obtain ⟨hreadings, hmax⟩ := Prod.mk.inj hpair
  refine ⟨s, hs, hreadings, ?_⟩
  rw [hmax]
  norm_num

end Trellis.Trading
