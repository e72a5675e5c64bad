import FlashSale.SagaCoordinator.Database

/-!
# The documented diagram

The diagram at the top of `saga_coordinator/transitions.py`, as an abstract
machine. A `Path` is a path through the diagram from RESERVING, with the data
picked up on the way; `Path.next` is the labelled edge an event takes. The path
determines the states passed through, the saga row and the commands emitted,
all from the `OrderCreated` event that started the saga.

`follow` runs the machine for one order on a list of messages.
-/

namespace FlashSale

namespace SagaCoordinator

/-- The edges of the diagram. -/
inductive Edge : SagaState → SagaState → Prop
  | inventoryReserved : Edge .reserving .charging
  | inventoryReservationFailed : Edge .reserving .cancelled
  | paymentSucceeded : Edge .charging .confirmed
  | paymentFailed : Edge .charging .compensating
  | inventoryReleased : Edge .compensating .cancelled

/-- The paths through the diagram that start in RESERVING. -/
inductive Path
  | reserving
  | charging
  | confirmed (paymentId : PaymentId)
  | compensating (reason : String)
  | cancelledUnreserved (reason : String)
  | cancelledUnpaid (reason : String)
deriving DecidableEq

namespace Path

/-- The path extended by the edge that the event is the label of. -/
def next : Path → Message → Option Path
  | reserving, .inventoryReserved _ => some charging
  | reserving, .inventoryReservationFailed event => some (cancelledUnreserved event.reason)
  | charging, .paymentSucceeded event => some (confirmed event.paymentId)
  | charging, .paymentFailed event => some (compensating event.reason)
  | compensating reason, .inventoryReleased _ => some (cancelledUnpaid reason)
  | _, _ => none

/-- The states on the path, first to last. -/
def states : Path → List SagaState
  | reserving => [.reserving]
  | charging => [.reserving, .charging]
  | confirmed _ => [.reserving, .charging, .confirmed]
  | compensating _ => [.reserving, .charging, .compensating]
  | cancelledUnreserved _ => [.reserving, .cancelled]
  | cancelledUnpaid _ => [.reserving, .charging, .compensating, .cancelled]

/-- The state the path ends in. -/
def state : Path → SagaState
  | reserving => .reserving
  | charging => .charging
  | confirmed _ => .confirmed
  | compensating _ => .compensating
  | cancelledUnreserved _ => .cancelled
  | cancelledUnpaid _ => .cancelled

def paymentId : Path → Option PaymentId
  | confirmed paymentId => some paymentId
  | _ => none

def failureReason : Path → Option String
  | compensating reason => some reason
  | cancelledUnreserved reason => some reason
  | cancelledUnpaid reason => some reason
  | _ => none

/-- The saga row at the end of the path. -/
def row (created : OrderCreated) (p : Path) : SagaRow where
  state := p.state
  sku := created.sku
  qty := created.qty
  userId := created.userId
  amountCents := created.amountCents
  paymentId := p.paymentId
  failureReason := p.failureReason

/-- The commands emitted along the path. -/
def commands (created : OrderCreated) : Path → List Message
  | reserving => [.reserveInventory ⟨created.orderId, created.sku, created.qty⟩]
  | charging =>
      [.reserveInventory ⟨created.orderId, created.sku, created.qty⟩,
        .chargePayment ⟨created.orderId, created.userId, created.amountCents⟩]
  | confirmed _ =>
      [.reserveInventory ⟨created.orderId, created.sku, created.qty⟩,
        .chargePayment ⟨created.orderId, created.userId, created.amountCents⟩,
        .confirmOrder ⟨created.orderId⟩]
  | compensating _ =>
      [.reserveInventory ⟨created.orderId, created.sku, created.qty⟩,
        .chargePayment ⟨created.orderId, created.userId, created.amountCents⟩,
        .releaseInventory ⟨created.orderId, created.sku, created.qty⟩]
  | cancelledUnreserved reason =>
      [.reserveInventory ⟨created.orderId, created.sku, created.qty⟩,
        .cancelOrder ⟨created.orderId, "inventory_unavailable:" ++ reason⟩]
  | cancelledUnpaid reason =>
      [.reserveInventory ⟨created.orderId, created.sku, created.qty⟩,
        .chargePayment ⟨created.orderId, created.userId, created.amountCents⟩,
        .releaseInventory ⟨created.orderId, created.sku, created.qty⟩,
        .cancelOrder ⟨created.orderId, "payment_failed:" ++ reason⟩]

/-- The states on a path are joined by edges of the diagram. -/
theorem states_isChain (p : Path) : p.states.IsChain Edge := by
  cases p <;> simp [states, List.isChain_cons_cons, Edge.inventoryReserved,
    Edge.inventoryReservationFailed, Edge.paymentSucceeded, Edge.paymentFailed,
    Edge.inventoryReleased]

/-- Taking an edge moves the row along an edge of the diagram. -/
theorem edge_of_next {p q : Path} {message : Message} (h : p.next message = some q) :
    Edge p.state q.state := by
  cases p <;> cases message <;> simp only [next, Option.some.injEq, reduceCtorEq] at h <;>
    subst h <;> constructor

/-- Taking an edge appends the state it leads to. -/
theorem states_of_next {p q : Path} {message : Message} (h : p.next message = some q) :
    q.states = p.states ++ [q.state] := by
  cases p <;> cases message <;> simp only [next, Option.some.injEq, reduceCtorEq] at h <;>
    subst h <;> rfl

theorem state_ne_of_next {p q : Path} {message : Message} (h : p.next message = some q) :
    q.state ≠ p.state := by
  intro heq
  have hedge := edge_of_next h
  rw [heq] at hedge
  generalize p.state = s at hedge
  cases hedge

theorem commands_orderId (created : OrderCreated) (p : Path) :
    ∀ command ∈ p.commands created, command.orderId = created.orderId := by
  cases p <;> simp [commands, Message.orderId]

end Path

/-- One message, read by the diagram of one order: the first `OrderCreated`
starts it, later ones and messages about other orders change nothing. -/
def advance (orderId : OrderId) :
    Option (OrderCreated × Path) → Message → Option (OrderCreated × Path)
  | none, .orderCreated event =>
      if event.orderId = orderId then some (event, .reserving) else none
  | none, _ => none
  | some (created, p), message =>
      if message.orderId = orderId then
        some (created, (p.next message).getD p)
      else some (created, p)

end SagaCoordinator

end FlashSale
