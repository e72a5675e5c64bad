import Mathlib.Data.Int.Notation

/-!
# Event and command schemas

The message classes of `shared/events.py`. Every class is a structure with the
payload fields the services read; `message_id` and `occurred_at` are left out,
since no handler reads them. A `Message` is a published message together with
its routing key, which is the class name and hence the constructor.

Each routing key is bound to the queue of at most one service, its `consumer`.
-/

namespace FlashSale

abbrev OrderId := String

abbrev Sku := String

abbrev UserId := String

abbrev PaymentId := String

/-- The five services. Each owns its own database and, except the notification
service, its own outbox table. -/
inductive Service
  | order
  | inventory
  | payment
  | saga
  | notification
deriving DecidableEq

/-! ## Events -/

structure OrderCreated where
  orderId : OrderId
  sku : Sku
  qty : ℤ
  userId : UserId
  amountCents : ℤ
deriving DecidableEq

structure InventoryReserved where
  orderId : OrderId
  sku : Sku
  qty : ℤ
deriving DecidableEq

structure InventoryReservationFailed where
  orderId : OrderId
  sku : Sku
  qty : ℤ
  reason : String
deriving DecidableEq

structure InventoryReleased where
  orderId : OrderId
  sku : Sku
  qty : ℤ
deriving DecidableEq

structure PaymentSucceeded where
  orderId : OrderId
  paymentId : PaymentId
  amountCents : ℤ
deriving DecidableEq

structure PaymentFailed where
  orderId : OrderId
  reason : String
deriving DecidableEq

structure PaymentRefunded where
  orderId : OrderId
  paymentId : PaymentId
  amountCents : ℤ
deriving DecidableEq

structure OrderConfirmed where
  orderId : OrderId
deriving DecidableEq

structure OrderCancelled where
  orderId : OrderId
  reason : String
deriving DecidableEq

/-! ## Commands -/

structure ReserveInventory where
  orderId : OrderId
  sku : Sku
  qty : ℤ
deriving DecidableEq

structure ReleaseInventory where
  orderId : OrderId
  sku : Sku
  qty : ℤ
deriving DecidableEq

structure ChargePayment where
  orderId : OrderId
  userId : UserId
  amountCents : ℤ
deriving DecidableEq

structure RefundPayment where
  orderId : OrderId
  paymentId : PaymentId
  amountCents : ℤ
deriving DecidableEq

structure ConfirmOrder where
  orderId : OrderId
deriving DecidableEq

structure CancelOrder where
  orderId : OrderId
  reason : String
deriving DecidableEq

/-- A message on the topic exchange. -/
inductive Message
  | orderCreated (event : OrderCreated)
  | inventoryReserved (event : InventoryReserved)
  | inventoryReservationFailed (event : InventoryReservationFailed)
  | inventoryReleased (event : InventoryReleased)
  | paymentSucceeded (event : PaymentSucceeded)
  | paymentFailed (event : PaymentFailed)
  | paymentRefunded (event : PaymentRefunded)
  | orderConfirmed (event : OrderConfirmed)
  | orderCancelled (event : OrderCancelled)
  | reserveInventory (cmd : ReserveInventory)
  | releaseInventory (cmd : ReleaseInventory)
  | chargePayment (cmd : ChargePayment)
  | refundPayment (cmd : RefundPayment)
  | confirmOrder (cmd : ConfirmOrder)
  | cancelOrder (cmd : CancelOrder)
deriving DecidableEq

namespace Message

/-- The correlation id that every message carries. -/
def orderId : Message → OrderId
  | orderCreated event => event.orderId
  | inventoryReserved event => event.orderId
  | inventoryReservationFailed event => event.orderId
  | inventoryReleased event => event.orderId
  | paymentSucceeded event => event.orderId
  | paymentFailed event => event.orderId
  | paymentRefunded event => event.orderId
  | orderConfirmed event => event.orderId
  | orderCancelled event => event.orderId
  | reserveInventory cmd => cmd.orderId
  | releaseInventory cmd => cmd.orderId
  | chargePayment cmd => cmd.orderId
  | refundPayment cmd => cmd.orderId
  | confirmOrder cmd => cmd.orderId
  | cancelOrder cmd => cmd.orderId

/-- The routing key is the class name. -/
def routingKey : Message → String
  | orderCreated _ => "OrderCreated"
  | inventoryReserved _ => "InventoryReserved"
  | inventoryReservationFailed _ => "InventoryReservationFailed"
  | inventoryReleased _ => "InventoryReleased"
  | paymentSucceeded _ => "PaymentSucceeded"
  | paymentFailed _ => "PaymentFailed"
  | paymentRefunded _ => "PaymentRefunded"
  | orderConfirmed _ => "OrderConfirmed"
  | orderCancelled _ => "OrderCancelled"
  | reserveInventory _ => "ReserveInventory"
  | releaseInventory _ => "ReleaseInventory"
  | chargePayment _ => "ChargePayment"
  | refundPayment _ => "RefundPayment"
  | confirmOrder _ => "ConfirmOrder"
  | cancelOrder _ => "CancelOrder"

/-- The service whose queue is bound to the routing key. Nobody listens for
`PaymentRefunded`. -/
def consumer : Message → Option Service
  | orderCreated _ => some .saga
  | inventoryReserved _ => some .saga
  | inventoryReservationFailed _ => some .saga
  | inventoryReleased _ => some .saga
  | paymentSucceeded _ => some .saga
  | paymentFailed _ => some .saga
  | paymentRefunded _ => none
  | orderConfirmed _ => some .notification
  | orderCancelled _ => some .notification
  | reserveInventory _ => some .inventory
  | releaseInventory _ => some .inventory
  | chargePayment _ => some .payment
  | refundPayment _ => some .payment
  | confirmOrder _ => some .order
  | cancelOrder _ => some .order

end Message

/-! ## Saga states -/

/-- The constants of `shared.events.SagaState`. The coordinator assigns only
`reserving`, `charging`, `confirmed`, `compensating` and `cancelled`. -/
inductive SagaState
  | created
  | reserving
  | reserved
  | charging
  | charged
  | confirmed
  | reservationFailed
  | paymentFailed
  | compensating
  | cancelled
deriving DecidableEq

/-- The string stored in the `state` column. -/
def SagaState.value : SagaState → String
  | created => "created"
  | reserving => "reserving"
  | reserved => "reserved"
  | charging => "charging"
  | charged => "charged"
  | confirmed => "confirmed"
  | reservationFailed => "reservation_failed"
  | paymentFailed => "payment_failed"
  | compensating => "compensating"
  | cancelled => "cancelled"

/-- Python's `reason or "unknown"`: an absent and an empty string both read as
`"unknown"`. -/
def orUnknown : Option String → String
  | none => "unknown"
  | some reason => if reason = "" then "unknown" else reason

end FlashSale
