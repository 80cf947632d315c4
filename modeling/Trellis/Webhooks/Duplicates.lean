import Trellis.Webhooks.Redelivery
import Trellis.Core.Store

/-!
# Duplicates of inbound events

Inbound calls in sequence. The row that detects a duplicate is stored before the fan-out, so a
call that fails in between leaves an event without deliveries, and the sender's retry is answered
as a duplicate.
-/

namespace Trellis.Webhooks

open Core Async WebhookWorld List

structure FaultyCall extends InboundCall where
  fault : WebhookOp → Option Fault := fun _ => none

def FaultyCall.run (cfg : InboundConfig) (call : FaultyCall) (w : WebhookWorld) :
    Except WebhookFailure Nat × WebhookWorld :=
  Async.eval (perform call.fault) (accept cfg call.toInboundCall) w

def InboundCall.source (cfg : InboundConfig) (call : InboundCall) : Option (String × String) :=
  ((readBody call.rawBody).bind fun body => (readEvent cfg body).toOption).map fun event =>
    (call.subscriptionId, event.1)

def WebhookWorld.stores (w : WebhookWorld) (source : String × String) : Bool :=
  w.events.any (·.source = some source)

/-- Every subscriber of the event has a delivery of it in the queue. -/
def WebhookWorld.Handled (w : WebhookWorld) (source : String × String) : Prop :=
  ∃ (eventId : Nat) (event : WebhookEvent), w.events[eventId]? = some event ∧
    event.source = some source ∧ ∀ sub ∈ w.subscribers event.eventType, ∃ id ∈ w.queue, ∃ d,
      w.deliveries[id]? = some d ∧ d.subscriptionId = sub.id ∧ d.eventId = eventId

/-- The event is stored already, its insert is rejected, or its fan-out is served. -/
def FaultyCall.Careful (cfg : InboundConfig) (w : WebhookWorld) (call : FaultyCall) : Prop :=
  (call.source cfg).any w.stores = true ∨
    (∀ event, call.fault (.insertEvent event) = some .rejected) ∨ FanOutServed call.fault

def AllCareful (cfg : InboundConfig) : List FaultyCall → WebhookWorld → Prop
  | [], _ => True
  | call :: calls, w => call.Careful cfg w ∧ AllCareful cfg calls (call.run cfg w).2

variable {cfg : InboundConfig} {w : WebhookWorld} {call : FaultyCall} {source : String × String}

theorem perform_findSubscription (fault : WebhookOp → Option Fault) (id : String)
    (w : WebhookWorld) : (∃ found : Option WebhookSubscription,
      w.perform fault (.findSubscription id) = (.ok found, w) ∧ ∀ sub ∈ found, sub.id = id) ∨
    ∃ message, w.perform fault (.findSubscription id) = (.error (.other message), w) := by
  unfold perform
  split
  · refine .inl ⟨_, rfl, fun sub hsub => ?_⟩
    have hsub := find?_some hsub
    exact (of_decide_eq_true hsub).1
  · exact .inr ⟨_, rfl⟩
  · exact .inr ⟨_, rfl⟩

theorem run_cases (cfg : InboundConfig) (call : FaultyCall) (w : WebhookWorld) :
    ((call.run cfg w).2 = w ∧ (call.run cfg w).1 ≠ .error duplicateEvent) ∨
      ∃ source eventType, call.source cfg = some source ∧ call.run cfg w =
        eval (perform call.fault) (publishEvent ⟨eventType, some source⟩) w := by
  unfold FaultyCall.run accept InboundCall.source
  cases readBody call.rawBody with
  | none => exact .inl ⟨rfl, nofun⟩
  | some body =>
    cases (call.headers "x-webhook-timestamp").read with
    | none => exact .inl ⟨rfl, nofun⟩
    | some timestamp =>
      simp only [required, orFail, done_bind, Option.bind_some]
      cases checkTimestamp cfg call.now timestamp with
      | error e => exact .inl ⟨rfl, nofun⟩
      | ok _ =>
        cases (call.headers "x-webhook-signature").read with
        | none => exact .inl ⟨rfl, nofun⟩
        | some signature =>
          simp only [done_bind]
          rw [eval_bind, eval_call]
          rcases perform_findSubscription call.fault call.subscriptionId w
            with ⟨found, hfind, hid⟩ | ⟨message, hfind⟩
          · rw [hfind]
            cases found with
            | none => exact .inl ⟨rfl, nofun⟩
            | some sub =>
              simp only
              split
              · exact .inl ⟨rfl, nofun⟩
              · cases readEvent cfg body with
                | error e => exact .inl ⟨rfl, nofun⟩
                | ok event =>
                  simp only [done_bind]
                  split
                  · refine .inr ⟨_, event.2, rfl, ?_⟩
                    rw [hid sub rfl]
                  · exact .inl ⟨rfl, nofun⟩
          · rw [hfind]
            exact .inl ⟨rfl, nofun⟩

theorem perform_insert_duplicate {event : WebhookEvent} (hdup : w.isDuplicate event = true)
    (fault : WebhookOp → Option Fault) :
    ∃ e, w.perform fault (.insertEvent event) = (.error e, w) := by
  have hserve : w.serve (.insertEvent event) = (.error .uniqueViolation, w) :=
    if_pos (of_decide_eq_true hdup)
  unfold perform
  split
  · exact ⟨_, hserve⟩
  · exact ⟨_, rfl⟩
  · rw [hserve]
    exact ⟨_, rfl⟩

/-- A careful call leaves the tables, or publishes its event as a whole. -/
theorem run_careful (hcareful : call.Careful cfg w) :
    ((call.run cfg w).2 = w ∧ ((call.run cfg w).1 = .error duplicateEvent →
      ∃ source, call.source cfg = some source ∧ w.stores source = true)) ∨
    ∃ source eventType, call.source cfg = some source ∧
      (call.run cfg w).2 = w.published ⟨eventType, some source⟩ := by
  rcases run_cases cfg call w with ⟨hworld, hanswer⟩ | ⟨source, eventType, hsource, hrun⟩
  · exact .inl ⟨hworld, fun h => absurd h hanswer⟩
  · rw [hrun]
    have hstores : w.isDuplicate ⟨eventType, some source⟩ = w.stores source := by
      simp only [isDuplicate, stores, Option.isSome_some, true_and,
        Bool.decide_eq_true]
    cases hdup : w.stores source with
    | true =>
      obtain ⟨e, hinsert⟩ := perform_insert_duplicate (hstores.trans hdup) call.fault
      rw [eval_publishEvent_refused hinsert]
      exact .inl ⟨rfl, fun _ => ⟨source, hsource, hdup⟩⟩
    | false =>
      rw [FaultyCall.Careful, hsource, Option.any_some, hdup] at hcareful
      rcases hcareful with hfalse | hrejected | hserved
      · cases hfalse
      · have hinsert : w.perform call.fault (.insertEvent ⟨eventType, some source⟩) =
            (.error (.other "Connection terminated"), w) := by
          rw [perform, hrejected]
        rw [eval_publishEvent_refused hinsert]
        exact .inl ⟨rfl, fun h => by cases h⟩
      · exact .inr ⟨source, eventType, hsource, eval_publishEvent hserved _ (hstores.trans hdup)⟩

/-! ## Handled events -/

theorem WebhookWorld.Handled.published (h : w.Handled source) (event : WebhookEvent) :
    (w.published event).Handled source := by
  obtain ⟨eventId, stored, hrow, hstored, hsubs⟩ := h
  have hlt := (List.getElem?_eq_some_iff.mp hrow).1
  refine ⟨eventId, stored, (getElem?_append_left hlt).trans hrow, hstored, fun sub hsub => ?_⟩
  obtain ⟨id, hid, d, hd, hboth⟩ := hsubs sub hsub
  have hlt := (List.getElem?_eq_some_iff.mp hd).1
  exact ⟨id, mem_append_left _ hid, d, (getElem?_append_left hlt).trans hd, hboth⟩

theorem handled_new (w : WebhookWorld) (eventType : String) (source : String × String) :
    (w.published ⟨eventType, some source⟩).Handled source := by
  refine ⟨w.events.length, ⟨eventType, some source⟩, by simp [published], rfl,
    fun sub hsub => ?_⟩
  obtain ⟨j, hj, rfl⟩ := mem_iff_getElem.mp hsub
  have hlt : j < (w.subscribers eventType).length := hj
  refine ⟨w.deliveries.length + j, mem_append_right _ (mem_range'_1.mpr ⟨by omega, ?_⟩),
    newDelivery w.events.length (w.subscribers eventType)[j], ?_, rfl, rfl⟩
  · exact Nat.add_lt_add_left hlt _
  · simp [published, hlt]

def AllHandled (w : WebhookWorld) : Prop :=
  ∀ source, w.stores source = true → w.Handled source

theorem AllHandled.published (h : AllHandled w) (eventType : String) (source : String × String) :
    AllHandled (w.published ⟨eventType, some source⟩) := by
  intro other hother
  simp only [WebhookWorld.stores, WebhookWorld.published, any_append, Bool.or_eq_true]
    at hother
  rcases hother with hold | hnew
  · exact (h other hold).published _
  · simp only [any_cons, any_nil, Bool.or_false, decide_eq_true_eq] at hnew
    cases hnew
    exact handled_new w eventType source

/-- What a run keeps: every stored event is handled and stays stored, and a call that is answered
as a duplicate has its event stored. -/
structure Sound (cfg : InboundConfig) (calls : List FaultyCall) (w : WebhookWorld) : Prop where
  handled : AllHandled (final (FaultyCall.run cfg) calls w)
  stored : ∀ source, w.stores source = true →
    (final (FaultyCall.run cfg) calls w).stores source = true
  answered : ∀ call, (call, .error duplicateEvent) ∈ trace (FaultyCall.run cfg) calls w →
    ∃ source, call.source cfg = some source ∧
      (final (FaultyCall.run cfg) calls w).stores source = true

theorem sound_of_careful (calls : List FaultyCall) (hw : AllHandled w)
    (hcareful : AllCareful cfg calls w) : Sound cfg calls w := by
  induction calls generalizing w with
  | nil => exact ⟨hw, fun _ h => h, nofun⟩
  | cons first calls ih =>
    have hstep : AllHandled (first.run cfg w).2 ∧
        (∀ source, w.stores source = true → (first.run cfg w).2.stores source = true) ∧
        ((first.run cfg w).1 = .error duplicateEvent → ∃ source, first.source cfg = some source ∧
          (first.run cfg w).2.stores source = true) := by
      rcases run_careful hcareful.1 with ⟨hworld, hanswer⟩ | ⟨source, eventType, hsource, hworld⟩
      · rw [hworld]
        exact ⟨hw, fun _ h => h, hanswer⟩
      · rw [hworld]
        refine ⟨hw.published eventType source, fun other h => ?_, fun _ => ⟨source, hsource, ?_⟩⟩
        · simp only [stores, published, any_append] at h ⊢
          rw [h, Bool.true_or]
        · simp [stores, published]
    obtain ⟨hhandled, hstored, hanswered⟩ := hstep
    have hrest := ih hhandled hcareful.2
    refine ⟨hrest.handled, fun source h => hrest.stored source (hstored source h), ?_⟩
    intro call hmem
    rcases mem_cons.mp hmem with hfirst | hmem
    · obtain ⟨rfl, hanswer⟩ := Prod.mk.inj hfirst
      obtain ⟨source, hsource, hstores⟩ := hanswered hanswer.symm
      exact ⟨source, hsource, hrest.stored source hstores⟩
    · exact hrest.answered call hmem

/-- In every sequence of calls in which the call that stores an event completes its fan-out, a call
that is answered as a duplicate is one whose event has a queued delivery for every subscriber. -/
theorem duplicate_handled (cfg : InboundConfig) (subscriptions : List WebhookSubscription)
    (calls : List FaultyCall) (hcareful : AllCareful cfg calls { subscriptions := subscriptions })
    {call : FaultyCall} (hanswer : (call, .error duplicateEvent) ∈
      trace (FaultyCall.run cfg) calls { subscriptions := subscriptions }) :
    ∃ source, call.source cfg = some source ∧
      (final (FaultyCall.run cfg) calls { subscriptions := subscriptions }).Handled source := by
  have hsound : Sound cfg calls { subscriptions := subscriptions } :=
    sound_of_careful calls nofun hcareful
  obtain ⟨source, hsource, hstored⟩ := hsound.answered call hanswer
  exact ⟨source, hsource, hsound.handled source hstored⟩

/-- Every body holds one event, of which the subscription is the only subscriber. -/
def priceConfig : InboundConfig where
  parse _ := some (.obj [("id", .str "evt-1"), ("type", .str "price.updated")])
  verifyTimestamped _ _ _ _ := true

def priceSubscription : WebhookSubscription where
  id := "sub-1"
  signingKey := "key"
  events := ["price.updated"]

def priceCall (fault : WebhookOp → Option Fault) : FaultyCall where
  subscriptionId := "sub-1"
  rawBody := some "evt-1"
  headers _ := .one "0"
  now := 0
  fault := fault

theorem repeated_call_handled :
    ∃ source, (priceCall fun _ => none).source priceConfig = some source ∧
      (final (FaultyCall.run priceConfig) [priceCall fun _ => none, priceCall fun _ => none]
        { subscriptions := [priceSubscription] }).Handled source := by
  refine duplicate_handled priceConfig [priceSubscription]
    [priceCall fun _ => none, priceCall fun _ => none] ?_ ?_
  · exact ⟨.inr (.inr fun _ _ => rfl), .inr (.inr fun _ _ => rfl), trivial⟩
  · exact mem_cons_of_mem _ (mem_singleton.mpr rfl)

/-- The queue rejects the job of the first call, and the retry is answered as a duplicate. -/
theorem failed_fan_out_is_duplicate :
    let rejecting : WebhookOp → Option Fault := fun
      | .enqueue _ => some .rejected
      | _ => none
    let calls := [priceCall rejecting, priceCall fun _ => none]
    (priceCall fun _ => none, .error duplicateEvent) ∈
        trace (FaultyCall.run priceConfig) calls { subscriptions := [priceSubscription] } ∧
      ∀ source, ¬ (final (FaultyCall.run priceConfig) calls
        { subscriptions := [priceSubscription] }).Handled source := by
  intro rejecting calls
  refine ⟨mem_cons_of_mem _ (mem_singleton.mpr rfl), ?_⟩
  rintro source ⟨eventId, event, hrow, -, hsubs⟩
  have hmem := mem_of_getElem? hrow
  have hevent := mem_singleton.mp hmem
  subst hevent
  obtain ⟨id, hid, -⟩ := hsubs priceSubscription (mem_singleton.mpr rfl)
  cases hid

end Trellis.Webhooks
