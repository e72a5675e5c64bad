import FlashSale.Outbox.Delivery
import FlashSale.Shared.Events
import Mathlib.Data.Fintype.Sets

/-!
# Starting the services

Five services start in any order. A service that has started dispatches its own
outbox on one task, and on another it declares its queue and binds it to the
routing keys that it consumes, one after the other (`RabbitMQClient.consume`).
The broker copies an accepted message to the queues that are bound to its routing
key at that moment; when there is none it returns the message, and nobody is told.

A message is therefore lost when it is published before its consumer has bound
its queue, and in no other case.
-/

namespace FlashSale

instance : Fintype Service where
  elems := {.order, .inventory, .payment, .saga, .notification}
  complete := by
    intro service
    cases service <;> decide

/-- The routing keys to which a service binds its queue. -/
def Service.routingKeys : Service → List String
  | order => ["ConfirmOrder", "CancelOrder"]
  | inventory => ["ReserveInventory", "ReleaseInventory"]
  | payment => ["ChargePayment", "RefundPayment"]
  | saga => ["OrderCreated", "InventoryReserved", "InventoryReservationFailed",
      "PaymentSucceeded", "PaymentFailed", "InventoryReleased"]
  | notification => ["OrderConfirmed", "OrderCancelled"]

/-- The queues are those of `Message.consumer`. -/
theorem Message.mem_routingKeys (message : Message) (service : Service) :
    message.routingKey ∈ service.routingKeys ↔ message.consumer = some service := by
  cases message <;> cases service <;>
    simp [Message.routingKey, Message.consumer, Service.routingKeys]

namespace Outbox

variable {P : Type}

/-- Everything that is there when the services start for the first time, and
everything that was ever put into a queue. -/
structure Deployment (P : Type) where
  tables : Service → Table P
  started : Service → Bool
  declared : Service → Bool
  bound : Service → List String
  queues : Service → List (String × P)

/-- Empty databases, no service, no queue. -/
def Deployment.initial : Deployment P where
  tables := fun _ => Table.empty
  started := fun _ => false
  declared := fun _ => false
  bound := fun _ => []
  queues := fun _ => []

/-- The actions: the startup hook of a service, the two calls of its `consume`, and
whatever happens at its outbox table. -/
inductive DeploymentAction (P : Type)
  | start (service : Service)
  | declare (service : Service)
  | bind (service : Service)
  | outbox (service : Service) (action : Action P)

/-- The call reached the broker, whether its answer came back or not. -/
def Outcome.accepts : Outcome P → Bool
  | .done => true
  | .unconfirmed => true
  | _ => false

/-- The message that the next call of a program makes the broker accept. -/
def Outcome.sends (outcome : Outcome P) : Dispatch P Unit → Option (String × P)
  | .call (.publish routingKey payload) _ =>
      if outcome.accepts then some (routingKey, payload) else none
  | _ => none

/-- The message that an action makes the broker accept. -/
def Table.sends (s : Table P) : Action P → Option (String × P)
  | .call i outcome => (s.dispatchers i).prog.bind outcome.sends
  | _ => none

namespace Deployment

/-- The broker copies an accepted message to the queues bound to its routing key. -/
def route (d : Deployment P) (body : Option (String × P)) (service : Service) :
    List (String × P) :=
  d.queues service ++ body.toList.filter fun b => b.1 ∈ d.bound service

def step [DecidableEq P] (batch : ℕ) (d : Deployment P) :
    DeploymentAction P → Option (Deployment P)
  | .start service =>
      if d.started service then none
      else some { d with started := Function.update d.started service true }
  | .declare service =>
      if d.started service then
        some { d with declared := Function.update d.declared service true }
      else none
  | .bind service =>
      if d.declared service then
        some { d with
          bound := Function.update d.bound service
            (service.routingKeys.take ((d.bound service).length + 1)) }
      else none
  | .outbox service action =>
      if d.started service ∧ service ≠ .notification then
        ((d.tables service).step batch action).map fun table =>
          { d with
            tables := Function.update d.tables service table
            queues := d.route ((d.tables service).sends action) }
      else none

/-- Each outbox row that is marked published was put into the queue of the service
that consumes its routing key. -/
def Delivered (d : Deployment P) : Prop :=
  ∀ service, ∀ row ∈ (d.tables service).rows, row.published = true →
    ∀ consumer : Service, row.routingKey ∈ consumer.routingKeys → row.body ∈ d.queues consumer

/-- The action publishes no message before its consumer has bound its queue to the
routing key. -/
def Routed (d : Deployment P) : DeploymentAction P → Prop
  | .outbox service action =>
      ∀ body ∈ (d.tables service).sends action, ∀ consumer : Service,
        body.1 ∈ consumer.routingKeys → body.1 ∈ d.bound consumer
  | _ => True

instance (d : Deployment P) (action : DeploymentAction P) : Decidable (d.Routed action) := by
  cases action with
  | outbox service action => exact inferInstanceAs (Decidable (∀ body ∈ _, _))
  | start service => exact isTrue trivial
  | declare service => exact isTrue trivial
  | bind service => exact isTrue trivial

variable {d e : Deployment P}

theorem accepted_advance [DecidableEq P] {batch i : ℕ} {s t : Table P} {outcome : Outcome P}
    {resume : Dispatch P Unit → Dispatcher P} {prog : Dispatch P Unit}
    (h : s.advance batch i outcome resume prog = some t) :
    t.accepted = s.accepted ++ (outcome.sends prog).toList := by
  cases prog with
  | ret a => cases h
  | raise => cases h
  | call e k =>
      obtain ⟨r, hr, rfl⟩ := Option.map_eq_some_iff.1 h
      cases e with
      | select =>
          cases outcome with
          | selected rows =>
              simp only [Table.perform] at hr
              split at hr
              · cases hr
                exact (List.append_nil _).symm
              · cases hr
          | failed =>
              cases hr
              exact (List.append_nil _).symm
          | done => cases hr
          | unconfirmed => cases hr
      | publish routingKey payload =>
          cases outcome with
          | done | failed | unconfirmed =>
              cases hr
              simp [Outcome.sends, Outcome.accepts, Table.hand, Table.become]
          | selected rows => cases hr
      | commit rows | openChannel | close | connectRobust =>
          cases outcome <;> cases hr <;> exact (List.append_nil _).symm

/-- What an action at a table adds to what the broker has accepted. -/
theorem accepted_step [DecidableEq P] {batch : ℕ} {s t : Table P} {action : Action P}
    (h : s.step batch action = some t) : t.accepted = s.accepted ++ (s.sends action).toList := by
  cases action with
  | insert txn row =>
      simp only [Table.step] at h
      split at h
      · cases h
        exact (List.append_nil _).symm
      · cases h
  | commit txn | rollback txn | crash i =>
      cases h
      exact (List.append_nil _).symm
  | launch i =>
      simp only [Table.step] at h
      split at h
      · cases h
        exact (List.append_nil _).symm
      · cases h
  | call i outcome =>
      simp only [Table.step] at h
      split at h
      · rename_i prog hi
        rw [Table.sends, hi]
        exact accepted_advance h
      · rename_i prog hi
        rw [Table.sends, hi]
        exact accepted_advance h
      · cases h
  | turn i =>
      obtain ⟨d, -, rfl⟩ := Option.map_eq_some_iff.1 h
      exact (List.append_nil _).symm

/-- Each table is as a run of its dispatchers leaves it, and what the broker has
accepted of it is in the queue of its consumer. -/
structure Kept (d : Deployment P) : Prop where
  inv : ∀ service, (d.tables service).Inv
  ledgers : ∀ service, (d.tables service).Ledgers
  routed : ∀ service, ∀ body ∈ (d.tables service).accepted, ∀ consumer : Service,
    body.1 ∈ consumer.routingKeys → body ∈ d.queues consumer

theorem kept_initial : (Deployment.initial : Deployment P).Kept := by
  refine ⟨fun _ => Table.inv_empty, fun _ => Table.ledgers_empty, ?_⟩
  intro service body hbody
  cases hbody

theorem Kept.step [DecidableEq P] {batch : ℕ} {d e : Deployment P} {action : DeploymentAction P}
    (h : d.Kept) (hrouted : d.Routed action) (he : d.step batch action = some e) : e.Kept := by
  cases action with
  | start service | declare service | bind service =>
      simp only [Deployment.step] at he
      split at he
      · cases he <;> exact ⟨h.inv, h.ledgers, h.routed⟩
      · cases he <;> exact ⟨h.inv, h.ledgers, h.routed⟩
  | outbox service action =>
      simp only [Deployment.step] at he
      split at he
      · obtain ⟨table, htable, rfl⟩ := Option.map_eq_some_iff.1 he
        obtain ⟨hinv, hledgers, -⟩ := Table.step_spec (h.inv service) (h.ledgers service) htable
        refine ⟨?_, ?_, ?_⟩
        · intro other
          by_cases hother : other = service
          · subst hother
            simpa using hinv
          · simpa [hother] using h.inv other
        · intro other
          by_cases hother : other = service
          · subst hother
            simpa using hledgers
          · simpa [hother] using h.ledgers other
        · intro other body hbody consumer hconsumer
          change body ∈ (Function.update d.tables service table other).accepted at hbody
          have hold : body ∈ (d.tables other).accepted →
              body ∈ d.route ((d.tables service).sends action) consumer := fun hmem =>
            List.mem_append_left _ (h.routed other body hmem consumer hconsumer)
          by_cases hother : other = service
          · subst hother
            rw [Function.update_self, accepted_step htable] at hbody
            rcases List.mem_append.1 hbody with hbody | hbody
            · exact hold hbody
            · have hsent : body ∈ (d.tables other).sends action := Option.mem_toList.1 hbody
              refine List.mem_append_right _ (List.mem_filter.2 ⟨hbody, ?_⟩)
              exact decide_eq_true (hrouted body hsent consumer hconsumer)
          · rw [Function.update_of_ne hother] at hbody
            exact hold hbody
      · cases he

end Deployment

open Deployment

/-- When no message is published before its consumer has bound its queue, each row
marked published has been put into its consumer's queue. -/
theorem published_delivered [DecidableEq P] {batch : ℕ} {actions : List (DeploymentAction P)}
    {d : Deployment P} (hrouted : Schedule.Along (step batch) Routed initial actions)
    (h : Schedule.run (step batch) initial actions = some d) : d.Delivered := by
  have hkept : d.Kept :=
    Schedule.run_preserves (fun _ _ _ hk hr hstep => Kept.step hk hr hstep) kept_initial hrouted h
  intro service row hrow hpublished consumer hconsumer
  exact hkept.routed service row.body ((hkept.inv service).published row hrow hpublished) consumer
    hconsumer

/-- An order is placed and its event is published. -/
def orderPlaced : List (DeploymentAction String) :=
  ([.insert 0 ⟨"1", "OrderCreated", "order 7", false, 0⟩, .commit 0, .launch 0, .call 0 .done,
    .call 0 .done, .turn 0, .turn 0,
    .call 0 (.selected [⟨"1", "OrderCreated", "order 7", false, 0⟩]), .call 0 .done,
    .call 0 .done] : List (Action String)).map (.outbox .order)

/-- The coordinator binds its queue before the order service publishes. -/
def consumersFirst : List (DeploymentAction String) :=
  [.start .saga, .declare .saga, .bind .saga, .start .order] ++ orderPlaced

/-- The order service starts first. -/
def orderServiceFirst : List (DeploymentAction String) :=
  [.start .order] ++ orderPlaced ++ [.start .saga, .declare .saga, .bind .saga]

theorem published_delivered_consumersFirst : ∃ d : Deployment String,
    Schedule.run (step 50) initial consumersFirst = some d ∧ d.Delivered := by
  have hrun : (Schedule.run (step 50) initial consumersFirst).map (fun d => d.queues .saga) =
      some [("OrderCreated", "order 7")] := by decide +kernel
  obtain ⟨d, hd, -⟩ := Option.map_eq_some_iff.1 hrun
  exact ⟨d, hd, published_delivered (by decide +kernel) hd⟩

/-- An order placed before the coordinator has bound its queue is never seen by it,
although its outbox row is marked published. -/
theorem lost_before_binding :
    ¬ ∀ (batch : ℕ) (actions : List (DeploymentAction String)) (d : Deployment String),
      Schedule.run (step batch) initial actions = some d → d.Delivered := by
  intro h
  have hrun : (Schedule.run (step 50) initial orderServiceFirst).map
      (fun d => (d.queues .saga, (d.tables .order).rows)) =
        some ([], [⟨"1", "OrderCreated", "order 7", true, 0⟩]) := by decide +kernel
  obtain ⟨d, hd, hqueues⟩ := Option.map_eq_some_iff.1 hrun
  rw [Prod.mk.injEq] at hqueues
  obtain ⟨hqueue, hrows⟩ := hqueues
  have hrow : ⟨"1", "OrderCreated", "order 7", true, 0⟩ ∈ (d.tables .order).rows :=
    hrows ▸ List.mem_cons_self
  have hlost := h 50 orderServiceFirst d hd .order _ hrow rfl .saga (by decide)
  rw [hqueue] at hlost
  cases hlost

end Outbox

end FlashSale
