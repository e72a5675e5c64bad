import FlashSale.Shared.Effects

/-!
# The saga's transition handlers

`saga_coordinator/transitions.py`: one handler per lifecycle event. A handler
reads the saga row of the event's order once and decides on that snapshot
alone, so it is a function of the event and the snapshot. Its outcome is either
the reason for skipping the event, or the row write and the command it leaves
pending in the session.

`handle` is the consumer callback of `saga_coordinator/main.py`: read, decide,
and commit when the transition was applied.
-/

namespace FlashSale

namespace SagaCoordinator

/-- `TransitionOutcome`, with the session's pending changes when the transition
was applied. -/
inductive TransitionOutcome
  | applied (write : SagaWrite) (command : Message)
  | skipped (reason : String)
deriving DecidableEq

/-- The common shape of the five handlers that expect an existing saga: skip
when there is none or when it is not in the expected state. -/
def whenIn (expected : SagaState) (saga : Option SagaRow)
    (apply : SagaRow → SagaWrite × Message) : TransitionOutcome :=
  match saga with
  | none => .skipped "unknown_saga"
  | some row =>
      if row.state = expected then .applied (apply row).1 (apply row).2
      else .skipped ("unexpected_state:" ++ row.state.value)

def handleOrderCreated (event : OrderCreated) (existing : Option SagaRow) :
    TransitionOutcome :=
  match existing with
  | some _ => .skipped "saga_already_exists"
  | none =>
      .applied
        (.insert
          { state := .reserving
            sku := event.sku
            qty := event.qty
            userId := event.userId
            amountCents := event.amountCents
            paymentId := none
            failureReason := none })
        (.reserveInventory ⟨event.orderId, event.sku, event.qty⟩)

def handleInventoryReserved (event : InventoryReserved) (saga : Option SagaRow) :
    TransitionOutcome :=
  whenIn .reserving saga fun row =>
    (.assign .charging none none,
      .chargePayment ⟨event.orderId, row.userId, row.amountCents⟩)

def handleInventoryReservationFailed (event : InventoryReservationFailed)
    (saga : Option SagaRow) : TransitionOutcome :=
  whenIn .reserving saga fun _ =>
    (.assign .cancelled none (some event.reason),
      .cancelOrder ⟨event.orderId, "inventory_unavailable:" ++ event.reason⟩)

def handlePaymentSucceeded (event : PaymentSucceeded) (saga : Option SagaRow) :
    TransitionOutcome :=
  whenIn .charging saga fun _ =>
    (.assign .confirmed (some event.paymentId) none, .confirmOrder ⟨event.orderId⟩)

def handlePaymentFailed (event : PaymentFailed) (saga : Option SagaRow) :
    TransitionOutcome :=
  whenIn .charging saga fun row =>
    (.assign .compensating none (some event.reason),
      .releaseInventory ⟨event.orderId, row.sku, row.qty⟩)

/-- The text of an optional column in an f-string. -/
def formatOptional : Option String → String
  | none => "None"
  | some text => text

def handleInventoryReleased (event : InventoryReleased) (saga : Option SagaRow) :
    TransitionOutcome :=
  whenIn .compensating saga fun row =>
    (.assign .cancelled none none,
      .cancelOrder ⟨event.orderId, "payment_failed:" ++ formatOptional row.failureReason⟩)

/-- The table `HANDLERS`; `none` for a routing key without a handler. -/
def handler : Message → Option (Option SagaRow → TransitionOutcome)
  | .orderCreated event => some (handleOrderCreated event)
  | .inventoryReserved event => some (handleInventoryReserved event)
  | .inventoryReservationFailed event => some (handleInventoryReservationFailed event)
  | .paymentSucceeded event => some (handlePaymentSucceeded event)
  | .paymentFailed event => some (handlePaymentFailed event)
  | .inventoryReleased event => some (handleInventoryReleased event)
  | _ => none

/-- What the coordinator decides on a message and a snapshot of the saga row. -/
def transition (message : Message) (saga : Option SagaRow) : TransitionOutcome :=
  match handler message with
  | none => .skipped "no_handler_for_event"
  | some handle => handle saga

/-- The callback of `_consume_lifecycle_events`. -/
def handle (message : Message) : Handler Unit :=
  match handler message with
  | none => return ()
  | some transition => do
      let saga ← selectSaga message.orderId
      match transition saga with
      | .applied write command =>
          commit [.saga message.orderId write, .outbox .saga command]
      | .skipped _ => return ()

end SagaCoordinator

end FlashSale
