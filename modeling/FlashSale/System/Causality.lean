import FlashSale.OrderService.Outcome
import FlashSale.SagaCoordinator.Refinement
import FlashSale.System.Network
import Mathlib.Data.List.Nodup

/-!
# Every message has its cause

A lifecycle event is only ever emitted for a saga that has reached the state the
event is for, and a status is only ever set on a command of the coordinator.
`Causal` says so of a world, with the position of each saga in the documented
diagram; it depends on the orders, the saga rows and the outboxes alone.

What a delivery can do to these is one transaction: the coordinator's
(`Causal.saga`), or one that ends as `Closes` says (`Causal.close`).
-/

namespace FlashSale

open SagaCoordinator

namespace Message

/-- The service that emits the message. -/
def sender : Message → Service
  | orderCreated _ | orderConfirmed _ | orderCancelled _ => .order
  | inventoryReserved _ | inventoryReservationFailed _ | inventoryReleased _ => .inventory
  | paymentSucceeded _ | paymentFailed _ | paymentRefunded _ => .payment
  | reserveInventory _ | releaseInventory _ | chargePayment _ | refundPayment _
  | confirmOrder _ | cancelOrder _ => .saga

/-- The state of the saga that a lifecycle event is for. -/
def awaited : Message → Option SagaState
  | inventoryReserved _ | inventoryReservationFailed _ => some .reserving
  | paymentSucceeded _ | paymentFailed _ => some .charging
  | inventoryReleased _ => some .compensating
  | _ => none

/-- The status that a final command sets, and that a final event announces. -/
def status : Message → Option OrderStatus
  | confirmOrder _ | orderConfirmed _ => some .confirmed
  | cancelOrder _ | orderCancelled _ => some .cancelled
  | _ => none

/-- The event answers the command. -/
def Answers : Message → Message → Prop
  | reserveInventory cmd, inventoryReserved event => event.orderId = cmd.orderId
  | reserveInventory cmd, inventoryReservationFailed event => event.orderId = cmd.orderId
  | releaseInventory cmd, inventoryReleased event => event.orderId = cmd.orderId
  | chargePayment cmd, paymentSucceeded event => event.orderId = cmd.orderId
  | chargePayment cmd, paymentFailed event => event.orderId = cmd.orderId
  | confirmOrder cmd, orderConfirmed event => event.orderId = cmd.orderId
  | cancelOrder cmd, orderCancelled event => event.orderId = cmd.orderId
  | _, _ => False

/-- The saga of the event's order has been in the state that the event is for. -/
def Caused (message : Message) (x : Option (OrderCreated × Path)) : Prop :=
  ∀ state, message.awaited = some state → ∃ y ∈ x, state ∈ y.2.states

end Message

/-- The events on the path of a saga were emitted. -/
def SagaCoordinator.Path.Taken (orderId : OrderId) (messages : List Message) : Path → Prop
  | .reserving => True
  | .charging => ∃ sku qty, .inventoryReserved ⟨orderId, sku, qty⟩ ∈ messages
  | .confirmed paymentId =>
      (∃ sku qty, .inventoryReserved ⟨orderId, sku, qty⟩ ∈ messages) ∧
        ∃ amountCents, .paymentSucceeded ⟨orderId, paymentId, amountCents⟩ ∈ messages
  | .compensating reason =>
      (∃ sku qty, .inventoryReserved ⟨orderId, sku, qty⟩ ∈ messages) ∧
        .paymentFailed ⟨orderId, reason⟩ ∈ messages
  | .cancelledUnreserved reason =>
      ∃ sku qty, .inventoryReservationFailed ⟨orderId, sku, qty, reason⟩ ∈ messages
  | .cancelledUnpaid reason =>
      (∃ sku qty, .inventoryReserved ⟨orderId, sku, qty⟩ ∈ messages) ∧
        .paymentFailed ⟨orderId, reason⟩ ∈ messages ∧
        ∃ sku qty, .inventoryReleased ⟨orderId, sku, qty⟩ ∈ messages

/-- The event that `checkout` committed with the order. -/
def Order.created (order : Order) : OrderCreated where
  orderId := order.id
  sku := order.sku
  qty := order.qty
  userId := order.userId
  amountCents := order.amountCents

/-- The saga of one order is at the position `x` of the documented diagram, and
got there by events that were emitted. -/
structure Traced (w : World) (orderId : OrderId) (x : Option (OrderCreated × Path)) : Prop where
  agrees : Agrees orderId w.sagaDb x
  created : ∀ y ∈ x, .orderCreated y.1 ∈ w.emitted
  taken : ∀ y ∈ x, y.2.Taken orderId w.emitted
  caused : ∀ message ∈ w.emitted, message.orderId = orderId → message.Caused x

/-- Every message and every order status of the world has its cause. -/
structure Causal (w : World) : Prop where
  ids : (w.orders.map Order.id).Nodup
  created : ∀ order ∈ w.orders, .orderCreated order.created ∈ w.emitted
  ordered : ∀ event, .orderCreated event ∈ w.emitted → ∃ order ∈ w.orders, order.created = event
  positive : ∀ order ∈ w.orders, 0 < order.qty
  sent : ∀ row ∈ w.outbox, row.message.sender = row.service
  traced : ∀ orderId, ∃ x, Traced w orderId x
  commanded : ∀ order ∈ w.orders, order.status ≠ .pending → ∃ command ∈ w.emitted,
    command.sender = .saga ∧ command.orderId = order.id ∧ command.status = some order.status
  announced : ∀ event ∈ w.emitted, event.sender = .order → ∀ status, event.status = some status →
    (∃ order ∈ w.orders, order.id = event.orderId) ∧
      ∀ order ∈ w.orders, order.id = event.orderId → order.status = status

/-! ## Positions -/

theorem SagaCoordinator.Path.Taken.mono {p : Path} {orderId : OrderId} {ms ns : List Message}
    (h : p.Taken orderId ms) (hsub : ms ⊆ ns) : p.Taken orderId ns := by
  cases p with
  | reserving => trivial
  | charging =>
      obtain ⟨sku, qty, hreserved⟩ := h
      exact ⟨sku, qty, hsub hreserved⟩
  | confirmed paymentId =>
      obtain ⟨⟨sku, qty, hreserved⟩, amountCents, hpaid⟩ := h
      exact ⟨⟨sku, qty, hsub hreserved⟩, amountCents, hsub hpaid⟩
  | compensating reason =>
      obtain ⟨⟨sku, qty, hreserved⟩, hfailed⟩ := h
      exact ⟨⟨sku, qty, hsub hreserved⟩, hsub hfailed⟩
  | cancelledUnreserved reason =>
      obtain ⟨sku, qty, hfailed⟩ := h
      exact ⟨sku, qty, hsub hfailed⟩
  | cancelledUnpaid reason =>
      obtain ⟨⟨sku, qty, hreserved⟩, hfailed, sku', qty', hreleased⟩ := h
      exact ⟨⟨sku, qty, hsub hreserved⟩, hsub hfailed, sku', qty', hsub hreleased⟩

/-- Taking an edge with an event that was emitted. -/
theorem SagaCoordinator.Path.Taken.next {p q : Path} {message : Message} {ms : List Message}
    (h : p.Taken message.orderId ms) (hmem : message ∈ ms) (hnext : p.next message = some q) :
    q.Taken message.orderId ms := by
  cases p <;> cases message <;> simp only [Path.next, Option.some.injEq, reduceCtorEq] at hnext <;>
    subst hnext
  · exact ⟨_, _, hmem⟩
  · exact ⟨_, _, hmem⟩
  · exact ⟨h, _, hmem⟩
  · exact ⟨h, hmem⟩
  · exact ⟨h.1, h.2, _, _, hmem⟩

theorem Message.Caused.advance {message m : Message} {orderId : OrderId}
    {x : Option (OrderCreated × Path)} (h : message.Caused x) :
    message.Caused (advance orderId x m) := by
  intro state hstate
  obtain ⟨y, hy, hmem⟩ := h state hstate
  cases hy
  rcases advance_cases orderId (some y) m with hadv | ⟨hnone, -⟩ |
    ⟨created, p, q, hsome, -, hnext, hadv⟩
  · exact ⟨y, by rw [hadv]; rfl, hmem⟩
  · cases hnone
  · cases hsome
    refine ⟨(created, q), by rw [hadv]; rfl, ?_⟩
    rw [Path.states_of_next hnext]
    exact List.mem_append_left _ hmem

/-- A command on a path is the command of one of its states. -/
theorem SagaCoordinator.Path.mem_states_of_answers {created : OrderCreated} {p : Path}
    {command event : Message} (hmem : command ∈ p.commands created)
    (hans : command.Answers event) {state : SagaState} (hstate : event.awaited = some state) :
    state ∈ p.states := by
  cases command <;> cases event <;> simp only [Message.Answers] at hans <;>
    simp only [Message.awaited, Option.some.injEq, reduceCtorEq] at hstate <;> subst hstate <;>
    cases p <;> simp [Path.commands, Path.states] at hmem ⊢

/-- A final command is on a path that ends in the state of its status. -/
theorem SagaCoordinator.Path.state_of_status {created : OrderCreated} {p : Path}
    {command : Message} (hmem : command ∈ p.commands created) {status : OrderStatus}
    (hstatus : command.status = some status) :
    (status = .confirmed ∧ p.state = .confirmed) ∨
      (status = .cancelled ∧ p.state = .cancelled) := by
  cases p <;> simp only [Path.commands, List.mem_cons, List.not_mem_nil, or_false] at hmem <;>
    rcases hmem with rfl | rfl | rfl | rfl <;>
    simp_all [Message.status, Path.state]

theorem Message.status_ne_pending {message : Message} {status : OrderStatus}
    (h : message.status = some status) : status ≠ .pending := by
  cases message <;> simp only [Message.status, Option.some.injEq, reduceCtorEq] at h <;> subst h <;>
    simp

/-- The coordinator emits commands. -/
theorem transition_sender {message command : Message} {saga : Option SagaRow}
    {write : SagaWrite} (h : transition message saga = .applied write command) :
    command.sender = .saga := by
  cases message with
  | orderCreated event =>
      cases saga with
      | none => cases h; rfl
      | some row => cases h
  | inventoryReserved event | inventoryReservationFailed event | inventoryReleased event
  | paymentSucceeded event | paymentFailed event =>
      obtain ⟨row, rfl, -, hrow⟩ := whenIn_eq_applied h
      cases hrow
      rfl
  | paymentRefunded | orderConfirmed | orderCancelled | reserveInventory
  | releaseInventory | chargePayment | refundPayment | confirmOrder | cancelOrder => cases h

theorem Message.orderId_of_answers {command event : Message} (h : command.Answers event) :
    event.orderId = command.orderId := by
  cases command <;> cases event <;> first | exact h | exact absurd h (by simp [Answers])

/-! ## What the world tells of an order -/

theorem mem_emitted {w : World} {message : Message} :
    message ∈ w.emitted ↔ ∃ row ∈ w.outbox, row.message = message := List.mem_map

/-- A command that was emitted is on the path of its saga. -/
theorem Causal.command {w : World} (h : Causal w) {command : Message}
    (hmem : command ∈ w.emitted) (hsender : command.sender = .saga)
    {x : Option (OrderCreated × Path)} (hx : Traced w command.orderId x) :
    ∃ y ∈ x, command ∈ y.2.commands y.1 := by
  obtain ⟨row, hrow, rfl⟩ := mem_emitted.1 hmem
  have hservice : row.service = .saga := (h.sent row hrow).symm.trans hsender
  have hcommands : row.message ∈ w.sagaDb.commandsOf row.message.orderId := by
    refine List.mem_filter.2 ⟨?_, by simp⟩
    exact List.mem_map.2 ⟨row, List.mem_filter.2 ⟨hrow, by simpa using hservice⟩, rfl⟩
  rw [hx.agrees.commands] at hcommands
  cases x with
  | none => cases hcommands
  | some y => exact ⟨y, rfl, hcommands⟩

/-- A command on the path of a saga was emitted. -/
theorem Traced.emitted {w : World} {orderId : OrderId} {y : OrderCreated × Path}
    (h : Traced w orderId (some y)) {command : Message} (hmem : command ∈ y.2.commands y.1) :
    command ∈ w.emitted := by
  have hcommands : command ∈ w.sagaDb.commandsOf orderId := by
    rw [h.agrees.commands]
    exact hmem
  obtain ⟨row, hrow, hmessage⟩ := List.mem_map.1 (List.mem_filter.1 hcommands).1
  exact mem_emitted.2 ⟨row, (List.mem_filter.1 hrow).1, hmessage⟩

/-- The order of an emitted command exists. -/
theorem Causal.order {w : World} (h : Causal w) {command : Message} (hmem : command ∈ w.emitted)
    (hsender : command.sender = .saga) : ∃ order ∈ w.orders, order.id = command.orderId := by
  obtain ⟨x, hx⟩ := h.traced command.orderId
  obtain ⟨y, hy, -⟩ := h.command hmem hsender hx
  obtain ⟨order, horder, hcreated⟩ := h.ordered y.1 (hx.created y hy)
  refine ⟨order, horder, ?_⟩
  rw [← hx.agrees.id y hy, ← hcreated]
  rfl

/-- All final commands of an order set the same status. -/
theorem Causal.status_unique {w : World} (h : Causal w) {m n : Message} (hm : m ∈ w.emitted)
    (hn : n ∈ w.emitted) (hmsender : m.sender = .saga) (hnsender : n.sender = .saga)
    (hid : m.orderId = n.orderId) {s t : OrderStatus} (hs : m.status = some s)
    (ht : n.status = some t) : s = t := by
  obtain ⟨x, hx⟩ := h.traced m.orderId
  obtain ⟨y, hy, hmy⟩ := h.command hm hmsender hx
  obtain ⟨z, hz, hnz⟩ := h.command hn hnsender (hid ▸ hx)
  cases hy
  cases hz
  rcases Path.state_of_status hmy hs with ⟨rfl, hstate⟩ | ⟨rfl, hstate⟩
  · rcases Path.state_of_status hnz ht with ⟨rfl, hstate'⟩ | ⟨rfl, hstate'⟩
    · rfl
    · cases hstate.symm.trans hstate'
  · rcases Path.state_of_status hnz ht with ⟨rfl, hstate'⟩ | ⟨rfl, hstate'⟩
    · cases hstate.symm.trans hstate'
    · rfl

/-- Only the inventory and the payment service report to a saga in progress. -/
theorem Message.caused_of_sender {event : Message}
    (h : event.sender = .saga ∨ event.sender = .order) (x : Option (OrderCreated × Path)) :
    event.Caused x := by
  intro state hstate
  cases event <;> simp_all [Message.sender, Message.awaited]

/-! ## Transactions -/

/-- Changes that touch neither orders nor sagas nor messages. -/
theorem Causal.congr {w w' : World} (h : Causal w) (horders : w'.orders = w.orders)
    (hdb : w'.sagaDb = w.sagaDb) (hemitted : w'.emitted = w.emitted)
    (hsent : ∀ row ∈ w'.outbox, row.message.sender = row.service) : Causal w' where
  ids := by
    rw [horders]
    exact h.ids
  created := by
    rw [horders, hemitted]
    exact h.created
  ordered := by
    rw [horders, hemitted]
    exact h.ordered
  positive := by
    rw [horders]
    exact h.positive
  sent := hsent
  traced orderId := by
    obtain ⟨x, hx⟩ := h.traced orderId
    refine ⟨x, ?_, ?_, ?_, ?_⟩
    · rw [hdb]
      exact hx.agrees
    · rw [hemitted]
      exact hx.created
    · rw [hemitted]
      exact hx.taken
    · rw [hemitted]
      exact hx.caused
  commanded := by
    rw [horders, hemitted]
    exact h.commanded
  announced := by
    rw [horders, hemitted]
    exact h.announced

theorem sent_concat {w w' : World} {service : Service} {message : Message}
    (h : ∀ row ∈ w.outbox, row.message.sender = row.service)
    (houtbox : w'.outbox = w.outbox ++ [.new service message])
    (hsender : message.sender = service) :
    ∀ row ∈ w'.outbox, row.message.sender = row.service := by
  intro row hrow
  rw [houtbox, List.mem_append, List.mem_singleton] at hrow
  rcases hrow with hrow | rfl
  · exact h row hrow
  · exact hsender

theorem emitted_concat {w w' : World} {service : Service} {message : Message}
    (houtbox : w'.outbox = w.outbox ++ [.new service message]) :
    w'.emitted = w.emitted ++ [message] := by
  rw [World.emitted, houtbox, List.map_append]
  rfl

theorem sagaDb_concat {w w' : World} {service : Service} {message : Message}
    (hsagas : w'.sagas = w.sagas) (houtbox : w'.outbox = w.outbox ++ [.new service message])
    (hservice : service ≠ .saga) : w'.sagaDb = w.sagaDb := by
  rw [World.sagaDb, World.sagaDb, hsagas, houtbox]
  simp [List.filter_append, OutboxRow.new, hservice]

/-- A message of another service leaves the sagas where they are. -/
theorem Traced.concat {w w' : World} {orderId : OrderId} {x : Option (OrderCreated × Path)}
    {message : Message} (h : Traced w orderId x) (hdb : w'.sagaDb = w.sagaDb)
    (hemitted : w'.emitted = w.emitted ++ [message])
    (hcaused : message.orderId = orderId → message.Caused x) : Traced w' orderId x := by
  have hsub : w.emitted ⊆ w'.emitted := by
    rw [hemitted]
    exact List.subset_append_left _ _
  refine ⟨hdb ▸ h.agrees, fun y hy => hsub (h.created y hy),
    fun y hy => (h.taken y hy).mono hsub, ?_⟩
  intro m hm
  rw [hemitted, List.mem_append, List.mem_singleton] at hm
  rcases hm with hm | rfl
  · exact h.caused m hm
  · exact hcaused

/-- An inventory or payment event that answers an emitted command. -/
theorem Causal.answer {w w' : World} {command event : Message} (h : Causal w)
    (hmem : command ∈ w.emitted) (hcommand : command.sender = .saga) (hans : command.Answers event)
    (hsaga : event.sender ≠ .saga) (hnot : event.sender ≠ .order)
    (horders : w'.orders = w.orders) (hsagas : w'.sagas = w.sagas)
    (houtbox : w'.outbox = w.outbox ++ [.new event.sender event]) : Causal w' := by
  have hemitted := emitted_concat houtbox
  have hdb := sagaDb_concat hsagas houtbox hsaga
  have hold : ∀ {m : Message}, m ∈ w.emitted → m ∈ w'.emitted := by
    intro m hm
    rw [hemitted]
    exact List.mem_append_left _ hm
  refine ⟨horders ▸ h.ids, ?_, ?_, horders ▸ h.positive, sent_concat h.sent houtbox rfl, ?_, ?_, ?_⟩
  · intro order horder
    exact hold (h.created order (horders ▸ horder))
  · intro e he
    rw [hemitted, List.mem_append, List.mem_singleton] at he
    rw [horders]
    rcases he with he | rfl
    · exact h.ordered e he
    · exact absurd rfl hnot
  · intro orderId
    obtain ⟨x, hx⟩ := h.traced orderId
    refine ⟨x, hx.concat hdb hemitted ?_⟩
    intro hid state hstate
    have hid' : command.orderId = orderId := (Message.orderId_of_answers hans).symm.trans hid
    subst hid'
    obtain ⟨y, hy, hcmd⟩ := h.command hmem hcommand hx
    exact ⟨y, hy, Path.mem_states_of_answers hcmd hans hstate⟩
  · intro order horder hstatus
    obtain ⟨c, hc, hrest⟩ := h.commanded order (horders ▸ horder) hstatus
    exact ⟨c, hold hc, hrest⟩
  · intro e he hsender
    rw [hemitted, List.mem_append, List.mem_singleton] at he
    rw [horders]
    rcases he with he | rfl
    · exact h.announced e he hsender
    · exact absurd hsender hnot

theorem Order.settle_created (orderId : OrderId) (status : OrderStatus) (order : Order) :
    (order.settle orderId status).created = order.created := by
  rw [Order.settle]
  split <;> rfl

/-- A final command is carried out and its event is emitted. -/
theorem Causal.settle {w w' : World} {command event : Message} {status : OrderStatus}
    (h : Causal w) (hmem : command ∈ w.emitted) (hcommand : command.sender = .saga)
    (hstatus : command.status = some status) (hans : command.Answers event)
    (hsender : event.sender = .order) (hevent : event.status = some status)
    (horders : w'.orders = w.orders.map (Order.settle command.orderId status))
    (hsagas : w'.sagas = w.sagas) (houtbox : w'.outbox = w.outbox ++ [.new .order event]) :
    Causal w' := by
  have hemitted := emitted_concat houtbox
  have hdb := sagaDb_concat hsagas houtbox (by decide)
  have hid := Message.orderId_of_answers hans
  have hold : ∀ {m : Message}, m ∈ w.emitted → m ∈ w'.emitted := by
    intro m hm
    rw [hemitted]
    exact List.mem_append_left _ hm
  refine ⟨?_, ?_, ?_, ?_, sent_concat h.sent houtbox hsender, ?_, ?_, ?_⟩
  · rw [horders, List.map_map]
    rw [show Order.id ∘ Order.settle command.orderId status = Order.id from
      funext (Order.settle_id _ _)]
    exact h.ids
  · rw [horders]
    intro order' horder'
    obtain ⟨order, horder, rfl⟩ := List.mem_map.1 horder'
    rw [Order.settle_created]
    exact hold (h.created order horder)
  · intro e he
    rw [hemitted, List.mem_append, List.mem_singleton] at he
    rcases he with he | rfl
    · obtain ⟨order, horder, hcreated⟩ := h.ordered e he
      refine ⟨order.settle command.orderId status, ?_, ?_⟩
      · rw [horders]
        exact List.mem_map.2 ⟨order, horder, rfl⟩
      · rw [Order.settle_created, hcreated]
    · cases hevent
  · rw [horders]
    intro order' horder'
    obtain ⟨order, horder, rfl⟩ := List.mem_map.1 horder'
    rw [Order.settle_qty]
    exact h.positive order horder
  · intro orderId
    obtain ⟨x, hx⟩ := h.traced orderId
    exact ⟨x, hx.concat hdb hemitted fun _ => Message.caused_of_sender (Or.inr hsender) x⟩
  · rw [horders]
    intro order' horder' hpending
    obtain ⟨order, horder, rfl⟩ := List.mem_map.1 horder'
    by_cases hsame : order.id = command.orderId
    · refine ⟨command, hold hmem, hcommand, ?_, ?_⟩
      · rw [Order.settle_id, hsame]
      · rw [Order.settle, if_pos hsame, hstatus]
    · rw [Order.settle, if_neg hsame] at hpending ⊢
      obtain ⟨c, hc, hrest⟩ := h.commanded order horder hpending
      exact ⟨c, hold hc, hrest⟩
  · intro e he hesender st hst
    rw [hemitted, List.mem_append, List.mem_singleton] at he
    rw [horders]
    rcases he with he | rfl
    · obtain ⟨⟨order, horder, horderId⟩, hall⟩ := h.announced e he hesender st hst
      refine ⟨⟨order.settle command.orderId status, List.mem_map.2 ⟨order, horder, rfl⟩, ?_⟩, ?_⟩
      · rw [Order.settle_id, horderId]
      · intro order' horder' hid'
        obtain ⟨o, ho, rfl⟩ := List.mem_map.1 horder'
        rw [Order.settle_id] at hid'
        have hbefore := hall o ho hid'
        by_cases hsame : o.id = command.orderId
        · -- the earlier event was announced on a command of the same status
          obtain ⟨c, hc, hcsender, hcid, hcstatus⟩ :=
            h.commanded o ho (by rw [hbefore]; exact Message.status_ne_pending hst)
          rw [hbefore] at hcstatus
          rw [Order.settle, if_pos hsame]
          exact h.status_unique hmem hc hcommand hcsender (hsame.symm.trans hcid.symm) hstatus
            hcstatus
        · rw [Order.settle, if_neg hsame]
          exact hbefore
    · rw [hevent] at hst
      cases hst
      obtain ⟨order, horder, horderId⟩ := h.order hmem hcommand
      refine ⟨⟨order.settle command.orderId status, List.mem_map.2 ⟨order, horder, rfl⟩, ?_⟩, ?_⟩
      · rw [Order.settle_id, horderId, hid]
      · intro order' horder' hid'
        obtain ⟨o, ho, rfl⟩ := List.mem_map.1 horder'
        rw [Order.settle_id] at hid'
        rw [Order.settle, if_pos (hid'.trans hid)]

/-- The coordinator applies a transition to an emitted event. -/
theorem Causal.saga {w w' : World} {message command : Message} {write : SagaWrite}
    {row : SagaRow} (h : Causal w) (hmem : message ∈ w.emitted)
    (ht : transition message (w.sagas message.orderId) = .applied write command)
    (hw : SagaDb.written (w.sagas message.orderId) write = some row)
    (horders : w'.orders = w.orders)
    (hsagas : w'.sagas = Function.update w.sagas message.orderId (some row))
    (houtbox : w'.outbox = w.outbox ++ [.new .saga command]) : Causal w' := by
  have hemitted := emitted_concat houtbox
  have hcommand : command.sender = .saga := transition_sender ht
  have hdb : w'.sagaDb = w.sagaDb.deliver message := by
    have ht' : transition message (w.sagaDb.rows message.orderId) = .applied write command := ht
    have hw' : SagaDb.written (w.sagaDb.rows message.orderId) write = some row := hw
    rw [SagaDb.deliver_applied ht', SagaDb.commit, hw']
    rw [World.sagaDb, hsagas, houtbox]
    simp [World.sagaDb, OutboxRow.new, List.filter_append]
  have hold : ∀ {m : Message}, m ∈ w.emitted → m ∈ w'.emitted := by
    intro m hm
    rw [hemitted]
    exact List.mem_append_left _ hm
  refine ⟨horders ▸ h.ids, ?_, ?_, horders ▸ h.positive, sent_concat h.sent houtbox hcommand,
    ?_, ?_, ?_⟩
  · intro order horder
    exact hold (h.created order (horders ▸ horder))
  · intro e he
    rw [hemitted, List.mem_append, List.mem_singleton] at he
    rw [horders]
    rcases he with he | rfl
    · exact h.ordered e he
    · cases hcommand
  · intro orderId
    obtain ⟨x, hx⟩ := h.traced orderId
    refine ⟨advance orderId x message, ?_, ?_, ?_, ?_⟩
    · rw [hdb]
      exact hx.agrees.deliver message
    · intro y hy
      refine hold ?_
      rcases advance_cases orderId x message with hadv | ⟨rfl, event, rfl, hadv⟩ |
        ⟨created, p, q, rfl, -, -, hadv⟩
      · exact hx.created y (hadv ▸ hy)
      · rw [hadv] at hy
        cases hy
        exact hmem
      · rw [hadv] at hy
        cases hy
        exact hx.created (created, p) rfl
    · intro y hy
      rcases advance_cases orderId x message with hadv | ⟨rfl, event, rfl, hadv⟩ |
        ⟨created, p, q, rfl, rfl, hnext, hadv⟩
      · exact (hx.taken y (hadv ▸ hy)).mono fun _ => hold
      · rw [hadv] at hy
        cases hy
        trivial
      · rw [hadv] at hy
        cases hy
        exact ((hx.taken (created, p) rfl).next hmem hnext).mono fun _ => hold
    · intro m hm hid
      rw [hemitted, List.mem_append, List.mem_singleton] at hm
      rcases hm with hm | rfl
      · exact (hx.caused m hm hid).advance
      · exact Message.caused_of_sender (Or.inl hcommand) _
  · intro order horder hstatus
    obtain ⟨c, hc, hrest⟩ := h.commanded order (horders ▸ horder) hstatus
    exact ⟨c, hold hc, hrest⟩
  · intro e he hsender
    rw [hemitted, List.mem_append, List.mem_singleton] at he
    rw [horders]
    rcases he with he | rfl
    · exact h.announced e he hsender
    · cases hcommand.symm.trans hsender

/-- A checkout commits a new order together with its event. -/
theorem Causal.checkout {w w' : World} {order : Order} (h : Causal w)
    (hfresh : ∀ old ∈ w.orders, old.id ≠ order.id) (hqty : 0 < order.qty)
    (hpending : order.status = .pending) (horders : w'.orders = w.orders ++ [order])
    (hsagas : w'.sagas = w.sagas)
    (houtbox : w'.outbox = w.outbox ++ [.new .order (.orderCreated order.created)]) :
    Causal w' := by
  have hemitted := emitted_concat houtbox
  have hdb := sagaDb_concat hsagas houtbox (by decide)
  have hold : ∀ {m : Message}, m ∈ w.emitted → m ∈ w'.emitted := by
    intro m hm
    rw [hemitted]
    exact List.mem_append_left _ hm
  have hmem : ∀ {o : Order}, o ∈ w'.orders → o ∈ w.orders ∨ o = order := by
    intro o ho
    rw [horders, List.mem_append, List.mem_singleton] at ho
    exact ho
  refine ⟨?_, ?_, ?_, ?_, sent_concat h.sent houtbox rfl, ?_, ?_, ?_⟩
  · rw [horders, List.map_append, List.nodup_append]
    refine ⟨h.ids, List.nodup_singleton _, ?_⟩
    intro a ha b hb
    obtain ⟨old, hold', rfl⟩ := List.mem_map.1 ha
    rw [List.mem_singleton.1 hb]
    exact hfresh old hold'
  · intro o ho
    rcases hmem ho with ho | rfl
    · exact hold (h.created o ho)
    · rw [hemitted]
      exact List.mem_append_right _ List.mem_cons_self
  · intro e he
    rw [hemitted, List.mem_append, List.mem_singleton] at he
    rcases he with he | he
    · obtain ⟨o, ho, hcreated⟩ := h.ordered e he
      refine ⟨o, ?_, hcreated⟩
      rw [horders]
      exact List.mem_append_left _ ho
    · cases he
      refine ⟨order, ?_, rfl⟩
      rw [horders]
      exact List.mem_append_right _ List.mem_cons_self
  · intro o ho
    rcases hmem ho with ho | rfl
    · exact h.positive o ho
    · exact hqty
  · intro orderId
    obtain ⟨x, hx⟩ := h.traced orderId
    exact ⟨x, hx.concat hdb hemitted fun _ => Message.caused_of_sender (Or.inr rfl) x⟩
  · intro o ho hstatus
    rcases hmem ho with ho | rfl
    · obtain ⟨c, hc, hrest⟩ := h.commanded o ho hstatus
      exact ⟨c, hold hc, hrest⟩
    · exact absurd hpending hstatus
  · intro e he hsender st hst
    rw [hemitted, List.mem_append, List.mem_singleton] at he
    rcases he with he | rfl
    · obtain ⟨⟨o, ho, hid⟩, hall⟩ := h.announced e he hsender st hst
      refine ⟨⟨o, ?_, hid⟩, ?_⟩
      · rw [horders]
        exact List.mem_append_left _ ho
      · intro o' ho' hid'
        rcases hmem ho' with ho' | rfl
        · exact hall o' ho' hid'
        · exact absurd (hid.trans hid'.symm) (hfresh o ho)
    · cases hst

theorem causal_empty : Causal World.empty := by
  refine ⟨List.nodup_nil, ?_, ?_, ?_, ?_, ?_, ?_, ?_⟩
  · intro order horder
    cases horder
  · intro event hevent
    cases hevent
  · intro order horder
    cases horder
  · intro row hrow
    cases hrow
  · intro orderId
    refine ⟨none, agrees_empty orderId, by simp, by simp, ?_⟩
    intro message hmessage
    cases hmessage
  · intro order horder
    cases horder
  · intro event hevent
    cases hevent

end FlashSale
