import FlashSale.Shared.Events
import Mathlib.Data.Int.Order.Basic
import Mathlib.Logic.Function.Basic
import Mathlib.Tactic.Simps.Basic

/-!
# Databases, Redis entries and pending writes

The rows of the five databases (`models.py` of every service), the idempotency
entries the services keep in Redis, and the `World` that holds the committed
contents of all of them. A table with a primary key that is only looked up is
the partial function of its key; the tables that are summed or listed are
lists of rows.

A `Write` is one statement of a unit of work. `World.write` applies it, and is
`none` where the database rejects the statement.

Three components record history and are read by no handler: the calls made to
the payment gateway, the committed changes of `reserved_qty` per order, and the
quantities seeded per SKU.
-/

namespace FlashSale

/-! ## Rows -/

inductive OrderStatus
  | pending
  | confirmed
  | cancelled
deriving DecidableEq

structure Order where
  id : OrderId
  userId : UserId
  sku : Sku
  qty : ℤ
  amountCents : ℤ
  status : OrderStatus
deriving DecidableEq

/-- A row of `saga_state`, without its key `order_id`. -/
structure SagaRow where
  state : SagaState
  sku : Sku
  qty : ℤ
  userId : UserId
  amountCents : ℤ
  paymentId : Option PaymentId
  failureReason : Option String
deriving DecidableEq

/-- A row of `inventory_items`, without its key `sku`. The two CHECK constraints
of the table are fields, so a row that violates them cannot be built. -/
@[ext] structure InventoryItem where
  available : ℤ
  reserved : ℤ
  available_nonneg : 0 ≤ available
  reserved_nonneg : 0 ≤ reserved
deriving DecidableEq

/-- The row with the given quantities, if the CHECK constraints admit it. -/
def InventoryItem.check (available reserved : ℤ) : Option InventoryItem :=
  if h : 0 ≤ available ∧ 0 ≤ reserved then some ⟨available, reserved, h.1, h.2⟩ else none

theorem InventoryItem.check_eq_some {available reserved : ℤ} {item : InventoryItem} :
    InventoryItem.check available reserved = some item ↔
      item.available = available ∧ item.reserved = reserved := by
  constructor
  · intro h
    rw [InventoryItem.check, Option.dite_none_right_eq_some] at h
    obtain ⟨_, h⟩ := h
    cases h
    exact ⟨rfl, rfl⟩
  · rintro ⟨rfl, rfl⟩
    rw [InventoryItem.check, dif_pos ⟨item.available_nonneg, item.reserved_nonneg⟩]

theorem InventoryItem.check_eq_none {available reserved : ℤ} :
    InventoryItem.check available reserved = none ↔ available < 0 ∨ reserved < 0 := by
  rw [InventoryItem.check, dite_eq_right_iff]
  simp only [reduceCtorEq, imp_false, not_and_or, not_le]

inductive PaymentStatus
  | succeeded
  | failed
  | refunded
deriving DecidableEq

structure Payment where
  id : PaymentId
  orderId : OrderId
  userId : UserId
  amountCents : ℤ
  status : PaymentStatus
  gatewayRef : String
  failureReason : Option String
deriving DecidableEq

inductive NotificationType
  | orderConfirmed
  | orderCancelled
deriving DecidableEq

structure Notification where
  orderId : OrderId
  notificationType : NotificationType
  message : String
deriving DecidableEq

/-- A row of the outbox table of `service`. `handed` records that the broker
has accepted the row's message at least once. -/
structure OutboxRow where
  service : Service
  message : Message
  published : Bool
  handed : Bool
deriving DecidableEq

/-! ## Redis -/

/-- What `try_reserve` returns, and what it stores as JSON under
`reserve:{order_id}`. -/
structure ReservationResult where
  success : Bool
  reason : Option String
deriving DecidableEq

/-- The JSON object stored under `charge:{order_id}`. -/
structure CachedCharge where
  status : PaymentStatus
  paymentId : PaymentId
  amountCents : ℤ
  failureReason : Option String
deriving DecidableEq

/-- The keys of the idempotency store. -/
inductive IdemKey
  | reserve (orderId : OrderId)
  | release (orderId : OrderId)
  | charge (orderId : OrderId)
  | refund (paymentId : PaymentId)
deriving DecidableEq

/-- What is stored under a key. Each family of keys has one writer and one
shape. -/
def IdemKey.Entry : IdemKey → Type
  | reserve _ => ReservationResult
  | release _ => Unit
  | charge _ => CachedCharge
  | refund _ => String

/-- The keys of the distributed locks. -/
inductive LockKey
  | sku (sku : Sku)
  | payment (orderId : OrderId)
  | refund (paymentId : PaymentId)
deriving DecidableEq

/-! ## History -/

/-- A call of `gateway.charge` made for an order. -/
structure ChargeCall where
  orderId : OrderId
  userId : UserId
  amountCents : ℤ
  success : Bool
deriving DecidableEq

/-- A call of `gateway.refund`. -/
structure RefundCall where
  paymentId : PaymentId
  amountCents : ℤ
deriving DecidableEq

/-- A committed change of `reserved_qty` of `sku`, made for an order: `qty` is
what the column gained. -/
structure StockMove where
  orderId : OrderId
  sku : Sku
  qty : ℤ
deriving DecidableEq

/-! ## The world -/

/-- The committed contents of the databases, the idempotency entries and the
history. -/
structure World where
  orders : List Order
  sagas : OrderId → Option SagaRow
  items : Sku → Option InventoryItem
  payments : List Payment
  notifications : List Notification
  outbox : List OutboxRow
  reservations : OrderId → Option ReservationResult
  releases : OrderId → Option Unit
  chargeResults : OrderId → Option CachedCharge
  refundResults : PaymentId → Option String
  charges : List ChargeCall
  refunds : List RefundCall
  moves : List StockMove
  seeded : Sku → ℤ

namespace World

/-- Freshly created databases and an empty Redis. -/
def empty : World where
  orders := []
  sagas := fun _ => none
  items := fun _ => none
  payments := []
  notifications := []
  outbox := []
  reservations := fun _ => none
  releases := fun _ => none
  chargeResults := fun _ => none
  refundResults := fun _ => none
  charges := []
  refunds := []
  moves := []
  seeded := fun _ => 0

/-- The order row with the given id. -/
def findOrder (w : World) (orderId : OrderId) : Option Order :=
  w.orders.find? fun order => order.id = orderId

/-- `available_qty` of a SKU, zero when the SKU has no row. -/
def availableQty (w : World) (sku : Sku) : ℤ :=
  (w.items sku).elim 0 InventoryItem.available

/-- `reserved_qty` of a SKU, zero when the SKU has no row. -/
def reservedQty (w : World) (sku : Sku) : ℤ :=
  (w.items sku).elim 0 InventoryItem.reserved

/-- The messages ever committed to an outbox. Rows are never deleted. -/
def emitted (w : World) : List Message := w.outbox.map OutboxRow.message

/-- The messages that `u` has emitted and its earlier state `w` has not. -/
def since (w u : World) : List Message := u.emitted.drop w.emitted.length

/-- The payment rows of an order. -/
def paymentsOf (w : World) (orderId : OrderId) : List Payment :=
  w.payments.filter fun payment => payment.orderId = orderId

/-- The committed stock moves of an order. -/
def movesOf (w : World) (orderId : OrderId) : List StockMove :=
  w.moves.filter fun move => move.orderId = orderId

/-- The gateway calls made for an order. -/
def chargesOf (w : World) (orderId : OrderId) : List ChargeCall :=
  w.charges.filter fun call => call.orderId = orderId

end World

/-! ## Pending writes -/

/-- The attributes a saga handler sets. `assign` writes the columns that the
handler assigned and no others. -/
inductive SagaWrite
  | insert (row : SagaRow)
  | assign (state : SagaState) (paymentId failureReason : Option String)
deriving DecidableEq

/-- The row after the assigned columns are written. -/
def SagaRow.assign (row : SagaRow) (state : SagaState)
    (paymentId failureReason : Option String) : SagaRow :=
  { row with
    state := state
    paymentId := paymentId <|> row.paymentId
    failureReason := failureReason <|> row.failureReason }

/-- One statement of a unit of work. `setAvailable` is the UPDATE of a seed of
`qty` units: it writes the value computed from the row that was read.
`updateItem` is the UPDATE of both quantities made for an order. -/
inductive Write
  | insertOrder (order : Order)
  | setOrderStatus (orderId : OrderId) (status : OrderStatus)
  | saga (orderId : OrderId) (write : SagaWrite)
  | insertItem (sku : Sku) (qty : ℤ)
  | setAvailable (sku : Sku) (qty available : ℤ)
  | updateItem (orderId : OrderId) (sku : Sku) (available reserved : ℤ)
  | insertPayment (payment : Payment)
  | setPaymentStatus (paymentId : PaymentId) (status : PaymentStatus)
  | insertNotification (notification : Notification)
  | outbox (service : Service) (message : Message)
deriving DecidableEq

/-- A row that has just been added to an outbox. -/
def OutboxRow.new (service : Service) (message : Message) : OutboxRow where
  service := service
  message := message
  published := false
  handed := false

namespace World

/-- One statement against the committed contents; `none` when the database
rejects it (a duplicate primary key, a violated CHECK constraint, an UPDATE that
matches no row). -/
def write (w : World) : Write → Option World
  | .insertOrder order =>
      if (w.findOrder order.id).isSome then none
      else some { w with orders := w.orders ++ [order] }
  | .setOrderStatus orderId status =>
      some { w with
        orders := w.orders.map fun order =>
          if order.id = orderId then { order with status := status } else order }
  | .saga orderId (.insert row) =>
      match w.sagas orderId with
      | some _ => none
      | none => some { w with sagas := Function.update w.sagas orderId (some row) }
  | .saga orderId (.assign state paymentId failureReason) =>
      match w.sagas orderId with
      | none => none
      | some row =>
          some { w with
            sagas := Function.update w.sagas orderId
              (some (row.assign state paymentId failureReason)) }
  | .insertItem sku qty =>
      match w.items sku with
      | some _ => none
      | none =>
          (InventoryItem.check qty 0).map fun item =>
            { w with
              items := Function.update w.items sku (some item)
              seeded := Function.update w.seeded sku (w.seeded sku + qty) }
  | .setAvailable sku qty available =>
      match w.items sku with
      | none => none
      | some item =>
          (InventoryItem.check available item.reserved).map fun item' =>
            { w with
              items := Function.update w.items sku (some item')
              seeded := Function.update w.seeded sku (w.seeded sku + qty) }
  | .updateItem orderId sku available reserved =>
      match w.items sku with
      | none => none
      | some item =>
          (InventoryItem.check available reserved).map fun item' =>
            { w with
              items := Function.update w.items sku (some item')
              moves := w.moves ++ [⟨orderId, sku, reserved - item.reserved⟩] }
  | .insertPayment payment =>
      if payment.id ∈ w.payments.map Payment.id then none
      else some { w with payments := w.payments ++ [payment] }
  | .setPaymentStatus paymentId status =>
      some { w with
        payments := w.payments.map fun payment =>
          if payment.id = paymentId then { payment with status := status } else payment }
  | .insertNotification notification =>
      some { w with notifications := w.notifications ++ [notification] }
  | .outbox service message =>
      some { w with outbox := w.outbox ++ [.new service message] }

/-- The statements of a unit of work in order. -/
def writeAll (w : World) : List Write → Option World
  | [] => some w
  | x :: xs => (w.write x).bind fun w' => w'.writeAll xs

/-- The entry under a key. -/
def cache (w : World) : (key : IdemKey) → Option key.Entry
  | .reserve orderId => w.reservations orderId
  | .release orderId => w.releases orderId
  | .charge orderId => w.chargeResults orderId
  | .refund paymentId => w.refundResults paymentId

/-- The world in which the entry under a key is the given one; `none` when it
has expired. -/
def setCache (w : World) : (key : IdemKey) → Option key.Entry → World
  | .reserve orderId, entry =>
      { w with reservations := Function.update w.reservations orderId entry }
  | .release orderId, entry => { w with releases := Function.update w.releases orderId entry }
  | .charge orderId, entry =>
      { w with chargeResults := Function.update w.chargeResults orderId entry }
  | .refund paymentId, entry =>
      { w with refundResults := Function.update w.refundResults paymentId entry }

/-- The answer to a reservation is stored. -/
@[simps -fullyApplied items reservations]
def storeReservation (w : World) (orderId : OrderId) (result : ReservationResult) : World :=
  { w with reservations := Function.update w.reservations orderId (some result) }

/-- A release is stored. -/
@[simps -fullyApplied items releases]
def storeRelease (w : World) (orderId : OrderId) : World :=
  { w with releases := Function.update w.releases orderId (some ()) }

/-- The answer to a charge is stored. -/
@[simps -fullyApplied chargeResults]
def storeCharge (w : World) (orderId : OrderId) (cached : CachedCharge) : World :=
  { w with chargeResults := Function.update w.chargeResults orderId (some cached) }

/-- The answer to a refund is stored. -/
def storeRefund (w : World) (paymentId : PaymentId) (gatewayRef : String) : World :=
  { w with refundResults := Function.update w.refundResults paymentId (some gatewayRef) }

/-- A message is added to the outbox of a service. -/
@[simps -fullyApplied items payments reservations chargeResults moves]
def emit (w : World) (service : Service) (message : Message) : World :=
  { w with outbox := w.outbox ++ [.new service message] }

/-- A payment row is added. -/
@[simps -fullyApplied payments]
def addPayment (w : World) (payment : Payment) : World :=
  { w with payments := w.payments ++ [payment] }

/-- The row of a SKU is replaced on behalf of an order, whose move is recorded. -/
@[simps -fullyApplied items reservations moves]
def setItem (w : World) (orderId : OrderId) (sku : Sku) (item : InventoryItem) (qty : ℤ) :
    World :=
  { w with
    items := Function.update w.items sku (some item)
    moves := w.moves ++ [⟨orderId, sku, qty⟩] }

@[simp] theorem writeAll_nil (w : World) : w.writeAll [] = some w := rfl

theorem writeAll_cons (w : World) (x : Write) (xs : List Write) :
    w.writeAll (x :: xs) = (w.write x).bind fun w' => w'.writeAll xs := rfl

@[simp] theorem write_outbox (w : World) (service : Service) (message : Message) :
    w.write (.outbox service message) = some (w.emit service message) := rfl

@[simp] theorem writeAll_outbox (w : World) (service : Service) (message : Message) :
    w.writeAll [.outbox service message] = some (w.emit service message) := rfl

theorem writeAll_append (w : World) (xs ys : List Write) :
    w.writeAll (xs ++ ys) = (w.writeAll xs).bind fun w' => w'.writeAll ys := by
  induction xs generalizing w with
  | nil => rfl
  | cons x xs ih =>
      rw [List.cons_append, writeAll_cons, writeAll_cons, Option.bind_assoc]
      exact congrArg _ (funext fun w' => ih w')

theorem writeAll_singleton (w : World) (x : Write) : w.writeAll [x] = w.write x := by
  rw [writeAll_cons]
  exact Option.bind_fun_some (w.write x)

/-- A transaction that ends by adding an event to an outbox. -/
theorem writeAll_concat_outbox {w w' : World} {xs : List Write} (service : Service)
    (message : Message) (h : w.writeAll xs = some w') :
    w.writeAll (xs ++ [.outbox service message]) = some (w'.emit service message) := by
  rw [writeAll_append, h]
  rfl

theorem writeAll_insertPayment {w : World} {payment : Payment}
    (h : payment.id ∉ w.payments.map Payment.id) :
    w.writeAll [.insertPayment payment] = some (w.addPayment payment) := by
  rw [writeAll_singleton, write, if_neg h]
  rfl

theorem writeAll_insertPayment_none {w : World} {payment : Payment}
    (h : payment.id ∈ w.payments.map Payment.id) :
    w.writeAll [.insertPayment payment] = none := by
  rw [writeAll_singleton, write, if_pos h]

theorem availableQty_of_item {w : World} {sku : Sku} {item : InventoryItem}
    (h : w.items sku = some item) : w.availableQty sku = item.available := by
  rw [availableQty, h, Option.elim_some]

theorem reservedQty_of_item {w : World} {sku : Sku} {item : InventoryItem}
    (h : w.items sku = some item) : w.reservedQty sku = item.reserved := by
  rw [reservedQty, h, Option.elim_some]

/-- The quantities after the row of one SKU is replaced. -/
theorem availableQty_of_update {w w' : World} {sku : Sku} {item : InventoryItem}
    (h : w'.items = Function.update w.items sku (some item)) (sku' : Sku) :
    w'.availableQty sku' = if sku' = sku then item.available else w.availableQty sku' := by
  by_cases hsku : sku' = sku
  · simp [availableQty, h, hsku]
  · simp [availableQty, h, hsku]

theorem reservedQty_of_update {w w' : World} {sku : Sku} {item : InventoryItem}
    (h : w'.items = Function.update w.items sku (some item)) (sku' : Sku) :
    w'.reservedQty sku' = if sku' = sku then item.reserved else w.reservedQty sku' := by
  by_cases hsku : sku' = sku
  · simp [reservedQty, h, hsku]
  · simp [reservedQty, h, hsku]

theorem availableQty_nonneg (w : World) (sku : Sku) : 0 ≤ w.availableQty sku := by
  cases h : w.items sku with
  | none => simp [availableQty, h]
  | some item => simpa [availableQty, h] using item.available_nonneg

theorem reservedQty_nonneg (w : World) (sku : Sku) : 0 ≤ w.reservedQty sku := by
  cases h : w.items sku with
  | none => simp [reservedQty, h]
  | some item => simpa [reservedQty, h] using item.reserved_nonneg

theorem of_writeAll_concat_outbox {w w' : World} {xs : List Write} {service : Service}
    {message : Message} (h : w.writeAll (xs ++ [.outbox service message]) = some w') :
    ∃ u, w.writeAll xs = some u ∧ w' = u.emit service message := by
  rw [writeAll_append, Option.bind_eq_some_iff] at h
  obtain ⟨u, hu, hlast⟩ := h
  exact ⟨u, hu, (Option.some.inj hlast).symm⟩

theorem writeAll_updateItem (w : World) {sku : Sku} {available reserved : ℤ}
    {item item' : InventoryItem} (orderId : OrderId) (h : w.items sku = some item)
    (hcheck : InventoryItem.check available reserved = some item') :
    w.writeAll [.updateItem orderId sku available reserved] =
      some (w.setItem orderId sku item' (reserved - item.reserved)) := by
  simp [writeAll_singleton, write, h, hcheck, setItem]

theorem writeAll_updateItem_none (w : World) (orderId : OrderId) (sku : Sku)
    {available reserved : ℤ} (hcheck : InventoryItem.check available reserved = none) :
    w.writeAll [.updateItem orderId sku available reserved] = none := by
  cases h : w.items sku <;> simp [writeAll_singleton, write, h, hcheck]

@[simp] theorem emitted_emit (w : World) (service : Service) (message : Message) :
    (w.emit service message).emitted = w.emitted ++ [message] := by
  simp [emitted, emit, OutboxRow.new]

@[simp] theorem emitted_storeReservation (w : World) (orderId : OrderId)
    (result : ReservationResult) : (w.storeReservation orderId result).emitted = w.emitted := rfl

@[simp] theorem emitted_storeRelease (w : World) (orderId : OrderId) :
    (w.storeRelease orderId).emitted = w.emitted := rfl

@[simp] theorem emitted_setItem (w : World) (orderId : OrderId) (sku : Sku)
    (item : InventoryItem) (qty : ℤ) : (w.setItem orderId sku item qty).emitted = w.emitted := rfl

end World

end FlashSale
