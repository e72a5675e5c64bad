import FlashSale.Shared.Effects

/-!
# The order service

`order_service/main.py`: the checkout endpoint, which commits the order row
together with the outbox row of its `OrderCreated` event, and the consumer of
the saga's `ConfirmOrder` and `CancelOrder` commands.
-/

namespace FlashSale

namespace OrderService

/-- A request that passed validation: both numbers are positive. -/
structure CheckoutRequest where
  userId : UserId
  sku : Sku
  qty : ℤ
  amountCents : ℤ
  qty_pos : 0 < qty
  amountCents_pos : 0 < amountCents

/-- The row that `checkout` inserts; its id is drawn by the flush. -/
def CheckoutRequest.order (req : CheckoutRequest) (id : OrderId) : Order where
  id := id
  userId := req.userId
  sku := req.sku
  qty := req.qty
  amountCents := req.amountCents
  status := .pending

/-- The event that `checkout` commits with the order. -/
def CheckoutRequest.event (req : CheckoutRequest) (id : OrderId) : OrderCreated where
  orderId := id
  sku := req.sku
  qty := req.qty
  userId := req.userId
  amountCents := req.amountCents

def checkout (req : CheckoutRequest) : Handler Unit := do
  let id ← flushNew fun id => .insertOrder (req.order id)
  commit [.outbox .order (.orderCreated (req.event id))]

/-- The two branches of the consumer: set the status and announce it. -/
def settle (orderId : OrderId) (status : OrderStatus) (event : OrderId → Message) :
    Handler Unit := do
  match ← selectOrder orderId with
  | none => return ()
  | some order =>
      commit [.setOrderStatus order.id status, .outbox .order (event order.id)]

/-- The callback of `_consume_saga_commands`. -/
def handle : Message → Handler Unit
  | .confirmOrder cmd => settle cmd.orderId .confirmed fun id => .orderConfirmed ⟨id⟩
  | .cancelOrder cmd =>
      settle cmd.orderId .cancelled fun id => .orderCancelled ⟨id, cmd.reason⟩
  | _ => return ()

end OrderService

end FlashSale
