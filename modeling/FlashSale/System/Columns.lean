import FlashSale.InventoryService.Range
import FlashSale.System.Recovery

/-!
# The system recovers

`System.stepStored` and `Atomic.stepStored` are the steps of the system with columns of
32 bits. A call that raises for a value out of range is an abandoned delivery of the
system without that rule (`System.exists_run_of_stored`), so what holds there holds here.

A release for which its row has no room raises whenever it is delivered. `World.Roomy`
says that the row of every ordered SKU has room for what may come back to it. From then on
no delivery raises for a value out of range, so the services come to rest as soon as
deliveries come to their end again, and every order is decided and told.
-/

namespace FlashSale

open SagaCoordinator InventoryService PaymentService

/-! ## The system with the rule -/

/-- The world after a request that is served or rejected. -/
def World.requestStored (w : World) (p : Handler Unit) (ω : Answers) : World :=
  (p.run (execStored ω) (w, {})).2.1

namespace System

/-- One awaited call of a delivery. When it raises, the message is queued again. -/
def resumeStored (s : System) (worker : Worker) (attempt : Attempt) (ω : Answers) (e : Effect)
    (k : e.Answer → Handler Unit) : System :=
  match execStored ω e (s.world, attempt.session) with
  | none => s.release worker (s.queue ++ [attempt.message])
  | some (r, w, session) =>
      { world := w
        queue := s.queue
        running := Function.update s.running worker (some ⟨attempt.message, k r, session⟩) }

/-- The requests and the calls of the deliveries follow the rule. -/
def stepStored (s : System) : Action → Option System
  | .checkout req ω => some { s with world := s.world.requestStored (OrderService.checkout req) ω }
  | .seed req ω => some { s with world := s.world.requestStored (seedInventory req) ω }
  | .call worker ω =>
      (s.running worker).bind fun attempt =>
        match attempt.prog with
        | .call e k => some (s.resumeStored worker attempt ω e k)
        | _ => none
  | a => s.step a

end System

namespace Atomic

/-- The delivery of a message, from its start to its end. -/
def deliverStored (s : Atomic) (message : Message) (ω : Answers) : Atomic where
  world := s.world.requestStored message.handler ω
  queue :=
    if (message.handler.run (execStored ω) (s.world, {})).1.isSome then s.queue.erase message
    else s.queue.erase message ++ [message]

def stepStored (s : Atomic) : Action → Option Atomic
  | .checkout req ω => some { s with world := s.world.requestStored (OrderService.checkout req) ω }
  | .seed req ω => some { s with world := s.world.requestStored (seedInventory req) ω }
  | .deliver message ω =>
      if message ∈ s.queue ∧ message.consumer.isSome = true then some (s.deliverStored message ω)
      else none
  | a => s.step a

/-- The step does something for the first time: it hands a row over, marks one,
or brings a delivery to its end. -/
def ProductiveStored (s : Atomic) : Action → Prop
  | .deliver message ω => (message.handler.run (execStored ω) (s.world, {})).1.isSome = true
  | a => Productive s a

end Atomic

/-! ## Its runs -/

theorem World.requestStored_checkout (w : World) (req : OrderService.CheckoutRequest)
    (ω : Answers) : w.requestStored (OrderService.checkout req) ω =
      w.request (OrderService.checkout req) ω ∨
        w.requestStored (OrderService.checkout req) ω = w := by
  by_cases h : ∀ x ∈ [Write.insertOrder (req.order ω.newId)], x.Storable
  · have hrun := run_stored_of_only (p := OrderService.checkout req)
      ⟨h, fun _ _ => ⟨storable_outbox _ _, fun _ _ => trivial⟩⟩ (w, {})
    exact Or.inl (congrArg (fun r => r.2.1) hrun)
  · have hrun : (OrderService.checkout req).run (execStored ω) (w, {}) = (none, w, {}) :=
      Prog.run_call_none (if_neg h)
    exact Or.inr (congrArg (fun r => r.2.1) hrun)

theorem World.requestStored_seedInventory (w : World) (req : SeedRequest) (ω : Answers) :
    w.requestStored (seedInventory req) ω = w.request (seedInventory req) ω ∨
      w.requestStored (seedInventory req) ω = w := by
  rw [requestStored, run_stored_seedInventory]
  split
  · exact Or.inl rfl
  · exact Or.inr rfl

namespace System

/-- A step with the rule is a step without it, an abandoned delivery, or a request that is
not served. -/
theorem exists_run_step_stored {s s' : System} {a : Action} (h : s.stepStored a = some s') :
    ∃ actions, Schedule.run step s actions = some s' := by
  have hone {a : Action} (hstep : s.step a = some s') :
      ∃ actions, Schedule.run step s actions = some s' :=
    ⟨[a], Schedule.run_cons_eq_some.2 ⟨s', hstep, rfl⟩⟩
  cases a with
  | checkout req ω =>
      rcases s.world.requestStored_checkout req ω with hserved | hrejected
      · rw [stepStored, hserved] at h
        exact hone (a := .checkout req ω) h
      · rw [stepStored, hrejected] at h
        exact ⟨[], h⟩
  | seed req ω =>
      rcases s.world.requestStored_seedInventory req ω with hserved | hrejected
      · rw [stepStored, hserved] at h
        exact hone (a := .seed req ω) h
      · rw [stepStored, hrejected] at h
        exact ⟨[], h⟩
  | call worker ω =>
      simp only [stepStored, Option.bind_eq_some_iff] at h
      obtain ⟨attempt, hrunning, hs⟩ := h
      split at hs
      · next e k hprog =>
          cases hs
          rcases execStored_eq_or_none ω e (s.world, attempt.session) with hsame | hraised
          · have hresume : s.resumeStored worker attempt ω e k = s.resume worker attempt ω e k := by
              rw [resumeStored, hsame]
              rfl
            refine hone (a := .call worker ω) ?_
            simp only [step, hrunning, Option.bind_some, hprog, hresume]
          · refine hone (a := .abort worker) ?_
            simp only [step, hrunning, Option.map_some, resumeStored, hraised]
      · cases hs
  | publish n => exact hone (a := .publish n) h
  | mark n => exact hone (a := .mark n) h
  | start worker message => exact hone (a := .start worker message) h
  | finish worker => exact hone (a := .finish worker) h
  | abort worker => exact hone (a := .abort worker) h
  | forget key => exact hone (a := .forget key) h

/-- Every run with the rule is a run without it. -/
theorem exists_run_of_stored {s : System} {actions : List Action}
    (h : Schedule.run stepStored start actions = some s) :
    ∃ actions, Schedule.run step start actions = some s := by
  obtain ⟨calls, t, hrun, rfl⟩ := Schedule.run_simulation (R := Eq)
    (fun s a s' t hR hstep => by
      obtain ⟨calls, hcalls⟩ := exists_run_step_stored hstep
      exact ⟨calls, s', hR ▸ hcalls, rfl⟩) (t := start) rfl h
  exact ⟨calls, hrun⟩

/-- Every row holds values that its columns can hold, and nothing out of range was
flushed. -/
structure Stores (s : System) : Prop where
  world : s.world.Stores
  flushed : ∀ worker attempt, s.running worker = some attempt →
    ∀ x ∈ attempt.session.txn, x.Storable

theorem stores_start : System.start.Stores := ⟨.empty, fun _ _ hattempt => by cases hattempt⟩

theorem Stores.replace {s : System} (h : s.Stores) {w : World} {worker : Worker}
    {next : Option Attempt} {queue : List Message} (hw : w.Stores)
    (hnext : ∀ attempt, next = some attempt → ∀ x ∈ attempt.session.txn, x.Storable) :
    (System.mk w queue (Function.update s.running worker next)).Stores := by
  refine ⟨hw, fun other attempt hattempt => ?_⟩
  by_cases hne : other = worker
  · subst hne
    have hself : Function.update s.running other next other = next := Function.update_self ..
    exact hnext attempt (hself.symm.trans hattempt)
  · exact h.flushed other attempt ((Function.update_of_ne hne ..).symm.trans hattempt)

theorem Stores.release {s : System} (h : s.Stores) (worker : Worker) (queue : List Message) :
    (s.release worker queue).Stores := h.replace h.world fun attempt hattempt => by cases hattempt

theorem Stores.step {s s' : System} {a : Action} (h : s.Stores)
    (hstep : s.stepStored a = some s') : s'.Stores := by
  have hnil : ∀ x ∈ ({} : Session).txn, x.Storable := fun x hx => by cases hx
  cases a with
  | checkout | seed =>
      cases hstep
      exact ⟨h.world.run _ _ hnil, h.flushed⟩
  | forget key =>
      cases hstep
      refine ⟨?_, h.flushed⟩
      cases key <;> exact ⟨h.world.orders, h.world.sagas, h.world.items, h.world.payments⟩
  | publish n =>
      simp only [stepStored, System.step, Option.map_eq_some_iff] at hstep
      obtain ⟨row, -, rfl⟩ := hstep
      exact ⟨⟨h.world.orders, h.world.sagas, h.world.items, h.world.payments⟩, h.flushed⟩
  | mark n =>
      simp only [stepStored, System.step, Option.bind_eq_some_iff,
        Option.ite_none_right_eq_some] at hstep
      obtain ⟨row, -, -, hs⟩ := hstep
      cases hs
      exact ⟨⟨h.world.orders, h.world.sagas, h.world.items, h.world.payments⟩, h.flushed⟩
  | start worker message =>
      simp only [stepStored, System.step, Option.ite_none_right_eq_some] at hstep
      obtain ⟨-, hs⟩ := hstep
      cases hs
      refine h.replace h.world fun attempt hattempt => ?_
      cases hattempt
      exact hnil
  | call worker ω =>
      simp only [stepStored, Option.bind_eq_some_iff] at hstep
      obtain ⟨attempt, hrunning, hs⟩ := hstep
      split at hs
      · next e k hprog =>
          cases hs
          rw [resumeStored]
          cases hexec : execStored ω e (s.world, attempt.session) with
          | none => exact h.release worker _
          | some result =>
              obtain ⟨r, w, session⟩ := result
              obtain ⟨hw, htxn⟩ := h.world.exec (h.flushed worker attempt hrunning) hexec
              refine h.replace hw fun attempt' hattempt => ?_
              cases hattempt
              exact htxn
      · cases hs
  | finish worker =>
      simp only [stepStored, System.step, Option.bind_eq_some_iff] at hstep
      obtain ⟨attempt, -, hs⟩ := hstep
      split at hs
      · cases hs
        exact h.release worker _
      · cases hs
  | abort worker =>
      simp only [stepStored, System.step, Option.map_eq_some_iff] at hstep
      obtain ⟨attempt, -, rfl⟩ := hstep
      exact h.release worker _

theorem stores_of_run {s : System} {actions : List Action}
    (h : Schedule.run stepStored start actions = some s) : s.Stores :=
  Schedule.run_invariant (fun _ _ _ hs hstep => hs.step hstep) stores_start h

end System

namespace Atomic

theorem calls_stepStored (worker : Worker) (ω : Answers) :
    Calls System.stepStored (execStored ω) worker ω where
  called w queue message session e k r w' session' h := by
    simp [System.stepStored, System.resumeStored, h, Function.update_idem]
  raised w queue message session e k h := by
    simp [System.stepStored, System.resumeStored, System.release, h]
  finish w queue message session := by simp [System.stepStored, System.step, System.release]
  abort w queue attempt := by simp [System.stepStored, System.step, System.release]

/-- One step is matched by a run of single calls. -/
theorem exists_run_step_stored {s s' : Atomic} {a : Action} (h : s.stepStored a = some s') :
    ∃ actions, Schedule.run System.stepStored s.toSystem actions = some s'.toSystem := by
  cases a with
  | checkout req ω =>
      cases h
      exact ⟨[.checkout req ω], rfl⟩
  | seed req ω =>
      cases h
      exact ⟨[.seed req ω], rfl⟩
  | publish n =>
      simp only [stepStored, step, Option.map_eq_some_iff] at h
      obtain ⟨row, hrow, rfl⟩ := h
      refine ⟨[.publish n], ?_⟩
      simp [Schedule.run_cons, System.stepStored, System.step, toSystem, hrow]
  | mark n =>
      simp only [stepStored, step, Option.bind_eq_some_iff, Option.ite_none_right_eq_some] at h
      obtain ⟨row, hrow, hhanded, hs⟩ := h
      cases hs
      refine ⟨[.mark n], ?_⟩
      simp [Schedule.run_cons, System.stepStored, System.step, toSystem, hrow, hhanded]
  | deliver message ω =>
      simp only [stepStored, Option.ite_none_right_eq_some, Option.some.injEq] at h
      obtain ⟨⟨hmem, hconsumer⟩, rfl⟩ := h
      obtain ⟨service, hservice⟩ := Option.isSome_iff_exists.1 hconsumer
      obtain ⟨actions, hactions⟩ := (calls_stepStored ⟨service, 0⟩ ω).exists_run s.world
        (s.queue.erase message) message message.handler {}
      refine ⟨.start ⟨service, 0⟩ message :: actions, ?_⟩
      rw [Schedule.run_cons]
      simp only [System.stepStored, System.step, toSystem]
      rw [if_pos ⟨hmem, hservice, rfl, fun _ => trivial⟩]
      exact hactions

/-- Every run is a run of single calls. -/
theorem exists_run_stored {s : Atomic} {actions : List Action}
    (h : Schedule.run stepStored start actions = some s) :
    ∃ calls, Schedule.run System.stepStored System.start calls = some s.toSystem := by
  obtain ⟨calls, t, hrun, rfl⟩ := Schedule.run_simulation
    (R := fun (s : Atomic) (t : System) => s.toSystem = t)
    (fun s a s' t hR hstep => by
      obtain ⟨calls, hcalls⟩ := exists_run_step_stored hstep
      exact ⟨calls, s'.toSystem, hR ▸ hcalls, rfl⟩) (t := System.start) rfl h
  exact ⟨calls, hrun⟩

end Atomic

/-! ## Handlers that raise for nothing out of range -/

section Handlers

variable {ω : Answers}

/-- The row write of a transition: a new row has the numbers of the event. -/
theorem SagaCoordinator.storable_of_transition {message command : Message}
    {saga : Option SagaRow} {write : SagaWrite} (orderId : OrderId)
    (ht : transition message saga = .applied write command)
    (h : ∀ event, message = .orderCreated event →
      Storable event.qty ∧ Storable event.amountCents) : (Write.saga orderId write).Storable := by
  cases message with
  | orderCreated event =>
      cases saga with
      | none =>
          cases ht
          exact storable_pair.2 (h event rfl)
      | some row => cases ht
  | inventoryReserved event | inventoryReservationFailed event | inventoryReleased event
  | paymentSucceeded event | paymentFailed event =>
      obtain ⟨row, rfl, -, hrow⟩ := whenIn_eq_applied ht
      cases hrow
      exact List.forall_mem_nil _
  | paymentRefunded | orderConfirmed | orderCancelled | reserveInventory
  | releaseInventory | chargePayment | refundPayment | confirmOrder | cancelOrder => cases ht

theorem SagaCoordinator.run_stored_handle {message : Message}
    (hconsumer : message.consumer = some .saga)
    (h : ∀ event, message = .orderCreated event →
      Storable event.qty ∧ Storable event.amountCents) (s : World × Session) :
    message.handler.run (execStored ω) s = message.handler.run (exec ω) s := by
  have hhandler : message.handler = SagaCoordinator.handle message := by
    rw [Message.handler, hconsumer]
  rw [hhandler, SagaCoordinator.handle_eq hconsumer]
  apply run_stored_of_only
  refine ⟨List.forall_mem_nil _, fun saga _ => ?_⟩
  beta_reduce
  split
  · next write command ht =>
      have hwrite := storable_of_transition message.orderId ht h
      exact ⟨List.forall_mem_cons.2 ⟨hwrite, storable_outbox _ _⟩, fun _ _ => trivial⟩
  · trivial

theorem PaymentService.run_stored_handleCharge {cmd : ChargePayment}
    (h : Storable cmd.amountCents) (s : World × Session) :
    (handleCharge cmd).run (execStored ω) s = (handleCharge cmd).run (exec ω) s := by
  have hnil : ∀ x ∈ ([] : List Write), x.Storable := List.forall_mem_nil _
  rw [handleCharge_eq]
  apply run_stored_of_only
  refine ⟨hnil, fun acquired _ => ?_⟩
  cases acquired with
  | false => trivial
  | true =>
      refine ⟨hnil, fun cached _ => ?_⟩
      cases cached with
      | some cached => exact ⟨storable_outbox _ _, fun _ _ => ⟨hnil, fun _ _ => trivial⟩⟩
      | none =>
          have hrow (result : GatewayResult) (id : PaymentId) :
              ∀ x ∈ [Write.insertPayment (payment cmd result id)], x.Storable :=
            List.forall_mem_singleton.2 (List.forall_mem_singleton.2 h)
          exact ⟨hnil, fun result _ => ⟨hrow result ω.newId, fun _ _ => ⟨storable_outbox _ _,
            fun _ _ => ⟨hnil, fun _ _ => ⟨hnil, fun _ _ => trivial⟩⟩⟩⟩⟩

theorem OrderService.run_stored_settle (orderId : OrderId) (status : OrderStatus)
    (event : OrderId → Message) (s : World × Session) :
    (settle orderId status event).run (execStored ω) s =
      (settle orderId status event).run (exec ω) s := by
  refine run_stored_of_only (p := settle orderId status event)
    ⟨List.forall_mem_nil _, fun order _ => ?_⟩ s
  cases order with
  | none => trivial
  | some order =>
      exact ⟨List.forall_mem_cons.2 ⟨List.forall_mem_nil _, storable_outbox _ _⟩,
        fun _ _ => trivial⟩

theorem NotificationService.run_stored_notify (notification : Notification)
    (s : World × Session) :
    (commit [.insertNotification notification]).run (execStored ω) s =
      (commit [.insertNotification notification]).run (exec ω) s := by
  rw [run_stored_commit, if_pos (List.forall_mem_singleton.2 (List.forall_mem_nil _))]

end Handlers

/-! ## Room for what may come back -/

/-- The units of the order, if they are of the SKU and were not released. -/
def World.unreleased (w : World) (sku : Sku) (created : OrderCreated) : ℤ :=
  if created.sku = sku ∧ w.releases created.orderId = none then created.qty else 0

/-- The units of a SKU that are ordered and were not released. -/
def World.unreleasedQty (w : World) (sku : Sku) : ℤ :=
  ((w.orders.map Order.created).map (w.unreleased sku)).sum

/-- The row of every ordered SKU has room for all that is ordered of it and was not
released, on top of what it holds. -/
def World.Roomy (w : World) : Prop :=
  ∀ order ∈ w.orders,
    w.availableQty order.sku + w.reservedQty order.sku + w.unreleasedQty order.sku ≤ maxInteger

instance (w : World) : Decidable w.Roomy :=
  inferInstanceAs (Decidable (∀ order ∈ w.orders, _ ≤ maxInteger))

section Roomy

variable {w w' : World}

theorem World.unreleased_nonneg (hcausal : Causal w) (sku : Sku) :
    ∀ order ∈ w.orders, 0 ≤ w.unreleased sku order.created := by
  intro order horder
  rw [unreleased]
  split
  · exact (hcausal.positive order horder).le
  · exact le_refl _

/-- An order that was not released is among those. -/
theorem World.qty_le_unreleasedQty (hcausal : Causal w) {order : Order}
    (horder : order ∈ w.orders) (hnone : w.releases order.id = none) :
    order.qty ≤ w.unreleasedQty order.sku := by
  have hown : w.unreleased order.sku order.created = order.qty := if_pos ⟨rfl, hnone⟩
  rw [unreleasedQty, List.map_map, ← hown]
  refine List.single_le_sum (fun n hn => ?_) _ (List.mem_map.2 ⟨order, horder, rfl⟩)
  obtain ⟨other, hother, rfl⟩ := List.mem_map.1 hn
  exact unreleased_nonneg hcausal order.sku other hother

theorem World.unreleasedQty_congr
    (hcreated : w'.orders.map Order.created = w.orders.map Order.created)
    (hreleases : w'.releases = w.releases) (sku : Sku) :
    w'.unreleasedQty sku = w.unreleasedQty sku := by
  have hunreleased : w'.unreleased sku = w.unreleased sku := by
    funext created
    rw [unreleased, unreleased, hreleases]
  rw [unreleasedQty, hcreated, hunreleased, unreleasedQty]

/-- The orders stay what they are, and no row has more to hold. -/
theorem World.Roomy.of_le (h : w.Roomy)
    (hcreated : w'.orders.map Order.created = w.orders.map Order.created)
    (hle : ∀ sku, w'.availableQty sku + w'.reservedQty sku + w'.unreleasedQty sku ≤
      w.availableQty sku + w.reservedQty sku + w.unreleasedQty sku) : w'.Roomy := by
  intro order' horder'
  have hmem : order'.created ∈ w.orders.map Order.created :=
    hcreated ▸ List.mem_map_of_mem horder'
  obtain ⟨order, horder, heq⟩ := List.mem_map.1 hmem
  have hsku : order.sku = order'.sku := congrArg OrderCreated.sku heq
  exact hsku ▸ (hle order.sku).trans (h order horder)

theorem World.Roomy.congr (h : w.Roomy)
    (hcreated : w'.orders.map Order.created = w.orders.map Order.created)
    (hitems : w'.items = w.items) (hreleases : w'.releases = w.releases) : w'.Roomy := by
  refine h.of_le hcreated fun sku => le_of_eq ?_
  rw [availableQty, reservedQty, hitems, unreleasedQty_congr hcreated hreleases]
  rfl

/-- The units of an order are released: what comes back was accounted for. -/
theorem World.unreleasedQty_release (hcausal : Causal w) {order : Order}
    (horder : order ∈ w.orders) (hnone : w.releases order.id = none)
    (horders : w'.orders = w.orders)
    (hreleases : w'.releases = Function.update w.releases order.id (some ())) (sku : Sku) :
    w'.unreleasedQty sku + (if order.sku = sku then order.qty else 0) ≤ w.unreleasedQty sku := by
  have hmem : order.created ∈ w.orders.map Order.created := List.mem_map_of_mem horder
  have hself : w'.unreleased sku order.created = 0 := by
    refine if_neg fun hboth => ?_
    rw [hreleases] at hboth
    exact absurd hboth.2 (by simp [Order.created])
  have hown : w.unreleased sku order.created = if order.sku = sku then order.qty else 0 := by
    have hreleased : w.releases order.created.orderId = none := hnone
    rw [unreleased]
    simp only [hreleased, and_true]
    rfl
  have hle : ∀ created ∈ (w.orders.map Order.created).erase order.created,
      w'.unreleased sku created ≤ w.unreleased sku created := by
    intro created hcreated
    obtain ⟨other, hother, rfl⟩ := List.mem_map.1 (List.mem_of_mem_erase hcreated)
    rw [unreleased, hreleases]
    split
    · next hboth =>
        have hbefore : w.releases other.created.orderId = none := by
          by_cases hid : other.created.orderId = order.id
          · rw [hid, Function.update_self] at hboth
            cases hboth.2
          · rw [Function.update_of_ne hid] at hboth
            exact hboth.2
        exact le_of_eq (if_pos ⟨hboth.1, hbefore⟩).symm
    · exact unreleased_nonneg hcausal sku other hother
  have hrest := List.sum_le_sum hle
  rw [unreleasedQty, unreleasedQty, horders, ← List.sum_map_erase _ hmem,
    ← List.sum_map_erase (w.unreleased sku) hmem, hself, hown]
  omega

/-- Units are moved within a row. -/
theorem World.Roomy.reserve (h : w.Roomy) {sku : Sku} {qty : ℤ} {item item' : InventoryItem}
    (hitem : w.items sku = some item) (havailable : item'.available = item.available - qty)
    (hreserved : item'.reserved = item.reserved + qty) (horders : w'.orders = w.orders)
    (hitems : w'.items = Function.update w.items sku (some item'))
    (hreleases : w'.releases = w.releases) : w'.Roomy := by
  refine h.of_le (congrArg _ horders) fun other => ?_
  have hunreleased : w'.unreleasedQty other = w.unreleasedQty other :=
    World.unreleasedQty_congr (congrArg _ horders) hreleases other
  rw [World.availableQty_of_update hitems, World.reservedQty_of_update hitems, hunreleased]
  by_cases hother : other = sku
  · subst hother
    have hold := World.availableQty_of_item hitem
    have hold' := World.reservedQty_of_item hitem
    rw [if_pos rfl, if_pos rfl]
    omega
  · rw [if_neg hother, if_neg hother]

/-- The units of an order come back to their row. -/
theorem World.Roomy.release (h : w.Roomy) (hcausal : Causal w) {order : Order}
    (horder : order ∈ w.orders) (hnone : w.releases order.id = none) {item item' : InventoryItem}
    (hitem : w.items order.sku = some item)
    (havailable : item'.available = item.available + order.qty)
    (hreserved : item'.reserved = max 0 (item.reserved - order.qty))
    (horders : w'.orders = w.orders)
    (hitems : w'.items = Function.update w.items order.sku (some item'))
    (hreleases : w'.releases = Function.update w.releases order.id (some ())) : w'.Roomy := by
  refine h.of_le (congrArg _ horders) fun other => ?_
  have hrelease := unreleasedQty_release hcausal horder hnone horders hreleases other
  rw [World.availableQty_of_update hitems, World.reservedQty_of_update hitems]
  by_cases hother : other = order.sku
  · subst hother
    have hold := World.availableQty_of_item hitem
    have hold' := World.reservedQty_of_item hitem
    have hnonneg := item.reserved_nonneg
    have hqty := hcausal.positive order horder
    rw [if_pos rfl] at hrelease
    rw [if_pos rfl, if_pos rfl]
    omega
  · rw [if_neg (Ne.symm hother)] at hrelease
    rw [if_neg hother, if_neg hother]
    omega

/-- One delivery leaves the room that is needed. -/
theorem Handled.roomy {ω : Answers} {message : Message} (h : Handled ω w message w')
    (hcausal : Causal w) (hmem : message ∈ w.emitted) (hroom : w.Roomy) : w'.Roomy := by
  have hsettle (orderId : OrderId) (status : OrderStatus) :
      (w.orders.map (Order.settle orderId status)).map Order.created =
        w.orders.map Order.created := by
    rw [List.map_map]
    exact List.map_congr_left fun order _ => Order.settle_created orderId status order
  cases h with
  | nothing | called | notifiedConfirmed | notifiedCancelled | applied | repeated | charged =>
      exact hroom.congr rfl rfl rfl
  | confirmed cmd | cancelled cmd => exact hroom.congr (hsettle cmd.orderId _) rfl rfl
  | reserve cmd _ hout =>
      cases hout with
      | turnedAway | repeated | refused => exact hroom.congr rfl rfl rfl
      | moved item item' _ _ _ hitem _ havailable hreserved =>
          exact hroom.reserve hitem havailable hreserved rfl rfl rfl
  | release cmd _ hout =>
      cases hout with
      | repeated | missing => exact hroom.congr rfl rfl rfl
      | released item item' _ hcache hitem havailable hreserved =>
          obtain ⟨order, horder, rfl⟩ := hcausal.order_of_release hmem
          exact hroom.release hcausal horder hcache hitem havailable hreserved rfl rfl rfl

end Roomy

/-! ## Coming to rest -/

namespace Atomic

/-- What a state needs to come to rest. -/
structure Prepared (s : Atomic) : Prop where
  sound : Sound s
  stores : s.world.Stores
  roomy : s.world.Roomy

section Prepared

variable {s s' : Atomic}

/-- A delivery raises for nothing out of range. -/
theorem Prepared.run_handler (h : Prepared s) {message : Message} (hmem : message ∈ s.queue)
    {service : Service} (hconsumer : message.consumer = some service) (ω : Answers) :
    message.handler.run (execStored ω) (s.world, {}) =
      message.handler.run (exec ω) (s.world, {}) := by
  have hcausal : Causal s.world := h.sound.inv.causal
  have hemitted : message ∈ s.world.emitted := h.sound.inv.queued message hmem
  have hsaga (hsaga : message.consumer = some .saga) :
      message.handler.run (execStored ω) (s.world, {}) =
        message.handler.run (exec ω) (s.world, {}) := by
    refine SagaCoordinator.run_stored_handle hsaga (fun event heq => ?_) (s.world, {})
    obtain ⟨order, horder, rfl⟩ := hcausal.ordered event (heq ▸ hemitted)
    exact h.stores.orders order horder
  cases message with
  | orderCreated | inventoryReserved | inventoryReservationFailed | inventoryReleased
  | paymentSucceeded | paymentFailed => exact hsaga rfl
  | paymentRefunded event => cases hconsumer
  | refundPayment cmd => exact absurd rfl (hcausal.ne_refundPayment hemitted cmd)
  | orderConfirmed event => exact NotificationService.run_stored_notify _ _
  | orderCancelled event => exact NotificationService.run_stored_notify _ _
  | confirmOrder cmd =>
      exact OrderService.run_stored_settle cmd.orderId .confirmed (fun id => .orderConfirmed ⟨id⟩) _
  | cancelOrder cmd =>
      exact OrderService.run_stored_settle cmd.orderId .cancelled
        (fun id => .orderCancelled ⟨id, cmd.reason⟩) _
  | chargePayment cmd =>
      obtain ⟨order, horder, rfl⟩ := hcausal.order_of_charge hemitted
      exact PaymentService.run_stored_handleCharge (h.stores.orders order horder).2 _
  | reserveInventory cmd =>
      obtain ⟨order, horder, rfl⟩ := hcausal.order_of_reserve hemitted
      refine run_stored_handleReserve ω s.world _ fun _ _ _ item hitem hcovered => ?_
      have hroom := h.roomy order horder
      have hqty := hcausal.positive order horder
      have hreserved := item.reserved_nonneg
      have hle : 0 ≤ s.world.unreleasedQty order.sku :=
        List.sum_nonneg fun n hn => by
          obtain ⟨other, hother, rfl⟩ := List.mem_map.1 hn
          obtain ⟨old, hold, rfl⟩ := List.mem_map.1 hother
          exact World.unreleased_nonneg hcausal order.sku old hold
      rw [World.availableQty_of_item hitem, World.reservedQty_of_item hitem] at hroom
      simp only at hcovered ⊢
      exact ⟨.of_nonneg (by omega) (by omega), .of_nonneg (by omega) (by omega)⟩
  | releaseInventory cmd =>
      obtain ⟨order, horder, rfl⟩ := hcausal.order_of_release hemitted
      refine run_stored_handleRelease ω s.world _ fun _ hcache item hitem => ?_
      have hroom := h.roomy order horder
      have hqty := hcausal.positive order horder
      have havailable := item.available_nonneg
      have hreserved := item.reserved_nonneg
      have hown := World.qty_le_unreleasedQty hcausal horder hcache
      rw [World.availableQty_of_item hitem, World.reservedQty_of_item hitem] at hroom
      simp only
      exact ⟨.of_nonneg (by omega) (by omega), .of_nonneg (by omega) (by omega)⟩

/-- A productive step is one of the system without the rule. -/
theorem Prepared.step_eq (h : Prepared s) {a : Action} (ha : ProductiveStored s a)
    (hstep : s.stepStored a = some s') : Productive s a ∧ s.step a = some s' := by
  cases a with
  | checkout | seed => cases ha
  | publish n => exact ⟨ha, hstep⟩
  | mark n => exact ⟨ha, hstep⟩
  | deliver message ω =>
      simp only [stepStored, Option.ite_none_right_eq_some, Option.some.injEq] at hstep
      obtain ⟨⟨hmem, hconsumer⟩, rfl⟩ := hstep
      obtain ⟨service, hservice⟩ := Option.isSome_iff_exists.1 hconsumer
      have hrun := h.run_handler hmem hservice ω
      refine ⟨?_, ?_⟩
      · rw [ProductiveStored, hrun] at ha
        exact ha
      · rw [step, if_pos ⟨hmem, hconsumer⟩, deliver, deliverStored, World.request,
          World.requestStored, hrun]

theorem Prepared.step (h : Prepared s) {a : Action} (ha : ProductiveStored s a)
    (hstep : s.stepStored a = some s') : Prepared s' ∧ s'.work < s.work := by
  obtain ⟨hproductive, hplain⟩ := h.step_eq ha hstep
  have hsound := h.sound.step hplain
  refine ⟨?_, work_lt h.sound.inv hproductive hplain⟩
  cases a with
  | checkout | seed => cases ha
  | publish n =>
      simp only [Atomic.step, Option.map_eq_some_iff] at hplain
      obtain ⟨row, -, rfl⟩ := hplain
      exact ⟨hsound, ⟨h.stores.orders, h.stores.sagas, h.stores.items, h.stores.payments⟩,
        h.roomy.congr rfl rfl rfl⟩
  | mark n =>
      simp only [Atomic.step, Option.bind_eq_some_iff, Option.ite_none_right_eq_some] at hplain
      obtain ⟨row, -, -, hs⟩ := hplain
      cases hs
      exact ⟨hsound, ⟨h.stores.orders, h.stores.sagas, h.stores.items, h.stores.payments⟩,
        h.roomy.congr rfl rfl rfl⟩
  | deliver message ω =>
      simp only [stepStored, Option.ite_none_right_eq_some, Option.some.injEq] at hstep
      obtain ⟨⟨hmem, hconsumer⟩, rfl⟩ := hstep
      obtain ⟨service, hservice⟩ := Option.isSome_iff_exists.1 hconsumer
      have hcausal : Causal s.world := h.sound.inv.causal
      have hemitted : message ∈ s.world.emitted := h.sound.inv.queued message hmem
      have hhandled := handled ω s.world fun cmd => hcausal.ne_refundPayment hemitted cmd
      have hnil : ∀ x ∈ ({} : Session).txn, x.Storable := fun x hx => by cases hx
      refine ⟨hsound, h.stores.run ω message.handler hnil, ?_⟩
      show (s.world.requestStored message.handler ω).Roomy
      rw [World.requestStored, h.run_handler hmem hservice ω]
      exact hhandled.roomy hcausal hemitted h.roomy

/-- As long as something is left to do, it can be done. -/
theorem Prepared.exists_productive (h : Prepared s) (hnot : ¬ s.Quiescent) :
    ∃ a, ProductiveStored s a ∧ (s.stepStored a).isSome = true := by
  obtain ⟨a, hproductive, hpossible⟩ := h.sound.exists_productive hnot
  refine ⟨a, ?_⟩
  cases a with
  | checkout | seed => cases hproductive
  | publish n => exact ⟨hproductive, hpossible⟩
  | mark n => exact ⟨hproductive, hpossible⟩
  | deliver message ω =>
      by_cases hqueued : message ∈ s.queue ∧ message.consumer.isSome = true
      · obtain ⟨service, hservice⟩ := Option.isSome_iff_exists.1 hqueued.2
        refine ⟨?_, ?_⟩
        · rw [ProductiveStored, h.run_handler hqueued.1 hservice ω]
          exact hproductive
        · rw [stepStored, if_pos hqueued]
          rfl
      · rw [Atomic.step, if_neg hqueued] at hpossible
        cases hpossible

end Prepared

/-- **The system recovers.** Once no delivery is in progress, whatever has been
abandoned before, and every ordered SKU has room for what may come back, there are only
so many steps left to do; as long as the system is not at rest one of them is possible,
and when it is at rest every order is decided, its saga has ended the same way, and its
customer was told so. -/
theorem recovers_of_run {s t : Atomic} {calls : List System.Action} {todo : List Action}
    (hrun : Schedule.run System.stepStored System.start calls = some s.toSystem)
    (hroom : s.world.Roomy) (halong : Schedule.Along stepStored ProductiveStored s todo)
    (htodo : Schedule.run stepStored s todo = some t) :
    todo.length ≤ 25 * s.queue.length +
        27 * (s.world.outbox.filter fun row => !row.published).length ∧
      (¬ t.Quiescent → ∃ a, ProductiveStored t a ∧ (t.stepStored a).isSome = true) ∧
      (t.Quiescent → ∀ order ∈ t.world.orders, System.Closed t.world order ∧
        ∃ notification ∈ t.world.notifications, System.Tells order notification) := by
  obtain ⟨plain, hplain⟩ := System.exists_run_of_stored hrun
  have hprepared : Prepared s := ⟨sound_of_run hplain, (System.stores_of_run hrun).world, hroom⟩
  have hlength := Schedule.length_add_le (I := Prepared) (μ := work)
    (fun s a s' hs ha hstep => hs.step ha hstep) hprepared halong htodo
  have hwork := s.work_le
  have hreached : Prepared t := Schedule.run_preserves
    (fun s a s' hs ha hstep => (hs.step ha hstep).1) hprepared halong htodo
  have hsound := hreached.sound
  refine ⟨by omega, hreached.exists_productive, fun hquiescent order horder => ⟨?_, ?_⟩⟩
  · exact hsound.inv.closed_of_quiescent hquiescent.toSystem horder
  · exact hsound.notices.exists_of_quiescent hsound.inv hquiescent.toSystem horder

/-- One phone is ordered, and the lock is refused to its charge, which the broker
has twice in the end. -/
def refusedOnce : List Action :=
  [.seed System.tenPhones System.granting, .checkout System.onePhone System.granting] ++
  passed 0 (.orderCreated ⟨"id-1", "phone", 1, "user-1", 100⟩) System.granting ++
  passed 1 (.reserveInventory ⟨"id-1", "phone", 1⟩) System.granting ++
  passed 2 (.inventoryReserved ⟨"id-1", "phone", 1⟩) System.granting ++
  passed 3 (.chargePayment ⟨"id-1", "user-1", 100⟩)
    { System.granting with acquired := false } ++ [.publish 3]

/-- The rest of the sale. -/
def completing : List Action :=
  List.replicate 2 (.deliver (.chargePayment ⟨"id-1", "user-1", 100⟩) System.granting) ++
  passed 4 (.paymentSucceeded ⟨"id-1", "id-1", 100⟩) System.granting ++
  passed 5 (.paymentSucceeded ⟨"id-1", "id-1", 100⟩) System.granting ++
  passed 6 (.confirmOrder ⟨"id-1"⟩) System.granting ++
  passed 7 (.orderConfirmed ⟨"id-1"⟩) System.granting

instance decidableProductive (s : Atomic) : (a : Action) → Decidable (Productive s a)
  | .publish _ | .mark _ => instDecidableEqBool _ _
  | .deliver _ _ => instDecidableEqBool _ _
  | .checkout _ _ | .seed _ _ => isFalse id

instance decidableProductiveStored (s : Atomic) : (a : Action) → Decidable (ProductiveStored s a)
  | .publish n => decidableProductive s (.publish n)
  | .mark n => decidableProductive s (.mark n)
  | .deliver _ _ => instDecidableEqBool _ _
  | .checkout _ _ | .seed _ _ => isFalse id

theorem recovers_completing : ∃ calls s t,
    Schedule.run System.stepStored System.start calls = some s.toSystem ∧ s.world.Roomy ∧
      Schedule.run stepStored s completing = some t ∧ t.Quiescent ∧ t.world.orders ≠ [] ∧
      completing.length ≤ 25 * s.queue.length +
        27 * (s.world.outbox.filter fun row => !row.published).length ∧
      ∀ order ∈ t.world.orders, System.Closed t.world order ∧
        ∃ notification ∈ t.world.notifications, System.Tells order notification := by
  have halong : (Schedule.run stepStored start refusedOnce).all (fun s =>
      decide (s.world.Roomy ∧ Schedule.Along stepStored ProductiveStored s completing)) =
        true := by decide +kernel
  have heval : (Schedule.run stepStored start (refusedOnce ++ completing)).map (fun s =>
      (s.queue, s.world.outbox.all OutboxRow.published, s.world.orders.length)) =
        some ([], true, 1) := by decide +kernel
  obtain ⟨t, ht, heq⟩ := Option.map_eq_some_iff.1 heval
  simp only [Prod.mk.injEq] at heq
  obtain ⟨hqueue, hpublished, horders⟩ := heq
  obtain ⟨s, hs, htodo⟩ := Schedule.run_append_eq_some.1 ht
  obtain ⟨calls, hcalls⟩ := exists_run_stored hs
  rw [hs] at halong
  obtain ⟨hroom, hproductive⟩ := of_decide_eq_true halong
  obtain ⟨hlength, -, hrest⟩ := recovers_of_run hcalls hroom hproductive htodo
  have hquiescent : t.Quiescent := ⟨hqueue, fun row hrow => List.all_eq_true.1 hpublished row hrow⟩
  refine ⟨calls, s, t, hcalls, hroom, htodo, hquiescent, ?_, hlength, hrest hquiescent⟩
  intro hnil
  rw [hnil] at horders
  cases horders

end Atomic

end FlashSale
