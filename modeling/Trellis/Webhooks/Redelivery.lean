import Trellis.Webhooks.Service

/-!
# Redelivery of webhooks

Events are published and workers take jobs from the queue in any order. A failed attempt stores a
time for the next one, but nothing adds a job for it, so every delivery is attempted once.
-/

namespace Trellis.Webhooks

open Core Async WebhookDelivery DeliveryStatus WebhookWorld List

/-! ## What a publication adds -/

/-- The operation stores the event or belongs to its fan-out. -/
def WebhookOp.fansOut : WebhookOp → Bool
  | .findSubscription _ | .updateEvent _ => false
  | _ => true

def FanOutServed (fault : WebhookOp → Option Fault) : Prop :=
  ∀ op, op.fansOut = true → fault op = none

def WebhookWorld.subscribers (w : WebhookWorld) (eventType : String) : List WebhookSubscription :=
  (w.subscriptions.filter (·.status = .active)).filter (·.receives eventType)

def WebhookWorld.published (w : WebhookWorld) (event : WebhookEvent) : WebhookWorld :=
  { w with
    events := w.events ++ [event]
    deliveries :=
      w.deliveries ++ (w.subscribers event.eventType).map (newDelivery w.events.length)
    queue := w.queue ++ range' w.deliveries.length (w.subscribers event.eventType).length }

/-- The unique index refuses the event. -/
def WebhookWorld.isDuplicate (w : WebhookWorld) (event : WebhookEvent) : Bool :=
  event.source.isSome ∧ w.events.any (·.source = event.source)

variable {fault : WebhookOp → Option Fault} {w : WebhookWorld}

variable (h : FanOutServed fault)
include h

theorem FanOutServed.perform {op : WebhookOp} (hop : op.fansOut = true)
    (w : WebhookWorld) : w.perform fault op = w.serve op := by
  rw [WebhookWorld.perform, h op hop]

theorem eval_createDeliveries (eventId : Nat) (subs : List WebhookSubscription) (w : WebhookWorld) :
    eval (perform fault) (createDeliveries eventId subs) w =
      (.ok (range' w.deliveries.length subs.length),
        { w with deliveries := w.deliveries ++ subs.map (newDelivery eventId) }) := by
  induction subs generalizing w with
  | nil => simp [createDeliveries]
  | cons sub rest ih =>
    rw [createDeliveries, eval_bind, eval_call, h.perform rfl]
    simp [serve, ih, range'_succ]

theorem eval_enqueueAll (ids : List Nat) (w : WebhookWorld) :
    eval (perform fault) (enqueueAll ids) w =
      (.ok (), { w with queue := w.queue ++ ids }) := by
  induction ids generalizing w with
  | nil => simp [enqueueAll]
  | cons id ids ih =>
    rw [enqueueAll, eval_bind, eval_call, h.perform rfl]
    simp [serve, ih]

theorem eval_fanOut (eventType : String) (eventId : Nat)
    (w : WebhookWorld) : (eval (perform fault) (fanOut eventType eventId) w).2 =
      { w with
        deliveries := w.deliveries ++ (w.subscribers eventType).map (newDelivery eventId)
        queue := w.queue ++ range' w.deliveries.length (w.subscribers eventType).length } := by
  have hupdate : ∀ w' : WebhookWorld, (w'.perform fault (.updateEvent eventId)).2 = w' := by
    intro w'
    unfold perform
    split <;> rfl
  rw [fanOut, eval_bind, findActiveForEvent, eval_bind, eval_call, h.perform rfl]
  simp only [serve, pure_eq, eval_done]
  rw [eval_bind, eval_createDeliveries h]
  simp only
  rw [eval_bind, eval_enqueueAll h]
  simp only
  rw [eval_bind, eval_call]
  generalize hw' : WebhookWorld.mk _ _ _ _ = w'
  have hworld := hupdate w'
  rcases hperform : w'.perform fault (.updateEvent eventId) with ⟨r, w''⟩
  rw [hperform] at hworld
  cases r <;> exact (hw'.trans hworld.symm).symm

omit h

theorem eval_publishEvent_refused {event : WebhookEvent} {e : WebhookFailure}
    (hinsert : w.perform fault (.insertEvent event) = (.error e, w)) :
    eval (perform fault) (publishEvent event) w =
      (.error (if event.source.isSome ∧ e = .uniqueViolation then duplicateEvent else e), w) := by
  rw [publishEvent, eval_bind, eval_attempt, eval_call, hinsert]
  rfl

theorem eval_publishEvent (h : FanOutServed fault) (event : WebhookEvent)
    (hnew : w.isDuplicate event = false) :
    (eval (perform fault) (publishEvent event) w).2 = w.published event := by
  have hinsert : w.perform fault (.insertEvent event) =
      (.ok w.events.length, { w with events := w.events ++ [event] }) := by
    rw [h.perform rfl]
    exact if_neg (of_decide_eq_false hnew)
  rw [publishEvent, eval_bind, eval_attempt, eval_call, hinsert]
  exact eval_fanOut h event.eventType w.events.length _

/-! ## One attempt -/

/-- The attempt ends a delivery of so many attempts if it is the first. -/
def Response.settles (maxAttempts : Int) : Response → Bool
  | .blocked retryable => !retryable || maxAttempts ≤ 1
  | .checkFailed _ => false
  | .answered statusCode => decide (200 ≤ statusCode ∧ statusCode < 300) || maxAttempts ≤ 1
  | .unreachable => maxAttempts ≤ 1

def DeliveryStatus.isFinal (status : DeliveryStatus) : Bool :=
  status = .success || status = .deadLettered

/-- The delivery has its rows. -/
structure WebhookWorld.Complete (w : WebhookWorld) (d : WebhookDelivery) : Prop where
  subscription : (w.subscriptions.find? (·.id = d.subscriptionId)).isSome = true
  event : d.eventId < w.events.length

theorem processDelivery_first (attempts : Nat → Attempt) {id : Nat} {d : WebhookDelivery}
    (hrow : w.deliveries[id]? = some d) (hcomplete : w.Complete d) (hattempts : d.attempts = 0)
    (hstatus : d.status = .pending) :
    ∃ d', (processDelivery attempts id w).2 = { w with deliveries := w.deliveries.set id d' } ∧
      d'.subscriptionId = d.subscriptionId ∧ d'.eventId = d.eventId ∧
      d'.maxAttempts = d.maxAttempts ∧
      d'.status.isFinal = (attempts 1).response.settles d.maxAttempts := by
  obtain ⟨sub, hsub⟩ := Option.isSome_iff_exists.mp hcomplete.subscription
  have hevent : ¬ w.events.length ≤ d.eventId := not_le.mpr hcomplete.event
  simp only [processDelivery, hrow, hsub, hattempts, executeDelivery, if_neg hevent, zero_add]
  cases hresponse : (attempts 1).response with
  | checkFailed message =>
    refine ⟨d, ?_, rfl, rfl, rfl, ?_⟩
    · obtain ⟨hlt, rfl⟩ := List.getElem?_eq_some_iff.mp hrow
      rw [set_getElem_self]
    · rw [hstatus]
      rfl
  | blocked retryable =>
    refine ⟨_, rfl, ?_⟩
    cases retryable <;> by_cases hmax : d.maxAttempts ≤ 1 <;>
      simp [attempted, hattempts, hmax, Response.settles, isFinal]
  | answered statusCode =>
    refine ⟨_, rfl, ?_⟩
    by_cases hcode : 200 ≤ statusCode ∧ statusCode < 300 <;> by_cases hmax : d.maxAttempts ≤ 1 <;>
      simp [attempted, hattempts, hmax, hcode, Response.settles, isFinal]
  | unreachable =>
    refine ⟨_, rfl, ?_⟩
    by_cases hmax : d.maxAttempts ≤ 1 <;>
      simp [attempted, hattempts, hmax, Response.settles, isFinal]

/-! ## Runs -/

/-- An event is published, or a worker takes the job of a delivery. -/
inductive WebhookStep where
  | publish (event : WebhookEvent)
  | work (deliveryId : Nat)

/-- A step with nothing failing but the attempts, which are given by delivery and number. -/
def WebhookStep.run (attempts : Nat → Nat → Attempt) (w : WebhookWorld) : WebhookStep → WebhookWorld
  | .publish event =>
    (Async.eval (perform fun _ => none) (publishEvent event) w).2
  | .work id =>
    if id ∈ w.queue then
      (processDelivery (attempts id) id { w with queue := w.queue.erase id }).2
    else w

/-- A delivery waits for its first attempt or has had it. -/
structure Worked (attempts : Nat → Nat → Attempt) (w : WebhookWorld) : Prop where
  nodup : w.queue.Nodup
  complete : ∀ (id : Nat) d, w.deliveries[id]? = some d → w.Complete d
  waiting : ∀ id ∈ w.queue, ∃ d, w.deliveries[id]? = some d ∧ d.attempts = 0 ∧ d.status = .pending
  tried : ∀ (id : Nat) d, w.deliveries[id]? = some d → id ∉ w.queue →
    d.status.isFinal = (attempts id 1).response.settles d.maxAttempts

variable {attempts : Nat → Nat → Attempt}

theorem Worked.work (h : Worked attempts w) (id : Nat) :
    Worked attempts ((WebhookStep.work id).run attempts w) := by
  by_cases hid : id ∈ w.queue
  swap
  · simpa only [WebhookStep.run, if_neg hid] using h
  obtain ⟨d, hrow, hattempts, hstatus⟩ := h.waiting id hid
  obtain ⟨d', hrun, hsub, hevent, hmax, hfinal⟩ := processDelivery_first
    (w := { w with queue := w.queue.erase id }) (attempts id) hrow
    ⟨(h.complete id d hrow).subscription, (h.complete id d hrow).event⟩ hattempts hstatus
  have hrows : ∀ (k : Nat) r, (w.deliveries.set id d')[k]? = some r →
      k = id ∧ r = d' ∨ k ≠ id ∧ w.deliveries[k]? = some r := by
    intro k r hr
    by_cases hk : k = id
    · subst hk
      rw [List.getElem?_set_self (List.getElem?_eq_some_iff.mp hrow).1] at hr
      exact .inl ⟨rfl, (Option.some.inj hr).symm⟩
    · rw [getElem?_set_ne (Ne.symm hk)] at hr
      exact .inr ⟨hk, hr⟩
  simp only [WebhookStep.run, if_pos hid, hrun]
  refine ⟨h.nodup.erase id, fun k r hr => ?_, fun k hk => ?_, fun k r hr hk => ?_⟩
  · rcases hrows k r hr with ⟨-, rfl⟩ | ⟨-, hr⟩
    · exact ⟨hsub ▸ (h.complete id d hrow).subscription, hevent ▸ (h.complete id d hrow).event⟩
    · exact ⟨(h.complete k r hr).subscription, (h.complete k r hr).event⟩
  · obtain ⟨hne, hmem⟩ := h.nodup.mem_erase_iff.mp hk
    rw [getElem?_set_ne (Ne.symm hne)]
    exact h.waiting k hmem
  · rcases hrows k r hr with ⟨rfl, rfl⟩ | ⟨hne, hr⟩
    · rw [hmax]
      exact hfinal
    · exact h.tried k r hr fun hmem => hk (h.nodup.mem_erase_iff.mpr ⟨hne, hmem⟩)

theorem complete_newDelivery {sub : WebhookSubscription} {event : WebhookEvent}
    (h : sub ∈ w.subscribers event.eventType) :
    (w.published event).Complete (newDelivery w.events.length sub) where
  subscription := by
    rw [find?_isSome]
    exact ⟨sub, (mem_filter.mp (mem_filter.mp h).1).1, decide_eq_true rfl⟩
  event := by simp [published, newDelivery]

theorem Worked.published (h : Worked attempts w) (event : WebhookEvent) :
    Worked attempts (w.published event) := by
  have hold : ∀ id ∈ w.queue, id < w.deliveries.length := by
    intro id hid
    obtain ⟨d, hrow, -⟩ := h.waiting id hid
    exact (List.getElem?_eq_some_iff.mp hrow).1
  -- a row afterwards is an old one, or a new one that waits
  have hrows : ∀ (id : Nat) d, (w.published event).deliveries[id]? = some d →
      w.deliveries[id]? = some d ∨ w.deliveries.length ≤ id ∧
        ∃ sub ∈ w.subscribers event.eventType, newDelivery w.events.length sub = d := by
    intro id d hrow
    by_cases hlt : id < w.deliveries.length
    · exact .inl ((getElem?_append_left hlt).symm.trans hrow)
    · rw [WebhookWorld.published, getElem?_append_right (not_lt.mp hlt)] at hrow
      exact .inr ⟨not_lt.mp hlt, mem_map.mp (mem_of_getElem? hrow)⟩
  refine ⟨?_, fun id d hrow => ?_, fun id hid => ?_, fun id d hrow hid => ?_⟩
  · refine List.Nodup.append h.nodup nodup_range' fun id hid hnew => ?_
    exact absurd (hold id hid) (not_lt.mpr (mem_range'_1.mp hnew).1)
  · rcases hrows id d hrow with hbefore | ⟨-, sub, hsub, rfl⟩
    · refine ⟨(h.complete id d hbefore).subscription, ?_⟩
      exact lt_of_lt_of_le (h.complete id d hbefore).event (by simp [WebhookWorld.published])
    · exact complete_newDelivery hsub
  · rcases mem_append.mp hid with hid | hid
    · obtain ⟨d, hrow, hfirst⟩ := h.waiting id hid
      exact ⟨d, (getElem?_append_left (hold id hid)).trans hrow, hfirst⟩
    · obtain ⟨hle, hlt⟩ := mem_range'_1.mp hid
      have hindex : id - w.deliveries.length < (w.subscribers event.eventType).length := by omega
      refine ⟨newDelivery w.events.length
        ((w.subscribers event.eventType)[id - w.deliveries.length]), ?_, rfl, rfl⟩
      rw [WebhookWorld.published, getElem?_append_right hle, getElem?_map,
        getElem?_eq_getElem hindex]
      rfl
  · refine (hrows id d hrow).elim (fun hbefore => h.tried id d hbefore fun hmem => hid ?_)
      fun hnew => absurd ?_ hid
    · exact mem_append_left _ hmem
    · have hlt := (List.getElem?_eq_some_iff.mp hrow).1
      refine mem_append_right _ (mem_range'_1.mpr ⟨hnew.1, ?_⟩)
      simpa [WebhookWorld.published] using hlt

theorem Worked.step (h : Worked attempts w) (step : WebhookStep) :
    Worked attempts (step.run attempts w) := by
  cases step with
  | work id => exact h.work id
  | publish event =>
    cases hdup : w.isDuplicate event with
    | false =>
      have hserved : FanOutServed fun _ => none := fun _ _ => rfl
      simpa only [WebhookStep.run, eval_publishEvent hserved event hdup] using h.published event
    | true =>
      have hinsert : w.perform (fun _ => none) (.insertEvent event) =
        (.error .uniqueViolation, w) :=
        if_pos (of_decide_eq_true hdup)
      simpa only [WebhookStep.run, eval_publishEvent_refused hinsert] using h

def runSteps (attempts : Nat → Nat → Attempt) (subscriptions : List WebhookSubscription)
    (steps : List WebhookStep) : WebhookWorld :=
  steps.foldl (WebhookStep.run attempts) { subscriptions := subscriptions }

theorem runSteps_worked (attempts : Nat → Nat → Attempt) (subscriptions : List WebhookSubscription)
    (steps : List WebhookStep) : Worked attempts (runSteps attempts subscriptions steps) := by
  induction steps using reverseRecOn with
  | nil => exact ⟨nodup_nil, nofun, nofun, nofun⟩
  | append_singleton steps step ih =>
    rw [runSteps, foldl_append]
    exact ih.step step

/-- Once the workers have emptied the queue, a delivery is `SUCCESS` or `DEAD_LETTERED` if and only
if its first attempt succeeded, was refused for good, or was the only one allowed. -/
theorem ended_iff_settles (attempts : Nat → Nat → Attempt)
    (subscriptions : List WebhookSubscription) (steps : List WebhookStep)
    (hqueue : (runSteps attempts subscriptions steps).queue = []) {id : Nat} {d : WebhookDelivery}
    (hrow : (runSteps attempts subscriptions steps).deliveries[id]? = some d) :
    d.status.isFinal = true ↔ (attempts id 1).response.settles d.maxAttempts = true := by
  have htried := (runSteps_worked attempts subscriptions steps).tried id d hrow
  rw [htried (by rw [hqueue]; exact not_mem_nil)]

def subscriber : WebhookSubscription where
  id := "sub"
  signingKey := "key"
  events := ["*"]
  maxRetries := 3

def oneEvent : List WebhookStep :=
  [.publish ⟨"payment.settled", none⟩, .work 0]

def answering (statusCode : Nat) : Nat → Nat → Attempt :=
  fun _ _ => { response := .answered statusCode }

theorem answered_delivery_ended :
    ∃ d, (runSteps (answering 200) [subscriber] oneEvent).deliveries[0]? = some d ∧
      d.status.isFinal = true := by
  have hended : ∀ d, (runSteps (answering 200) [subscriber] oneEvent).deliveries[0]? = some d →
      (d.status.isFinal = true ↔ _) := fun d hrow =>
    ended_iff_settles (answering 200) [subscriber] oneEvent rfl hrow
  exact ⟨_, rfl, (hended _ rfl).mpr rfl⟩

/-- After an answer 500 the queue is empty and stays so: the delivery is `FAILED` after one of three
attempts, whatever the workers do. -/
theorem failed_delivery_not_retried :
    let w := runSteps (answering 500) [subscriber] oneEvent
    w.queue = [] ∧
      w.deliveries.map (fun d => (d.status, d.attempts, d.maxAttempts)) = [(.failed, 1, 3)] ∧
      ∀ ids : List Nat, (ids.map WebhookStep.work).foldl (WebhookStep.run (answering 500)) w =
        w := by
  refine ⟨rfl, rfl, fun ids => ?_⟩
  induction ids with
  | nil => rfl
  | cons id ids ih => exact ih

end Trellis.Webhooks
