import FlashSale.OrderService.Main
import FlashSale.Shared.Attempts

/-!
# What the order consumer does

A final command sets the status of its order and announces it, whatever the
status is; a command for an order that does not exist is dropped.
-/

namespace FlashSale

/-- The order with the given id has the given status. -/
def Order.settle (orderId : OrderId) (status : OrderStatus) (order : Order) : Order :=
  if order.id = orderId then { order with status := status } else order

theorem Order.settle_id (orderId : OrderId) (status : OrderStatus) (order : Order) :
    (order.settle orderId status).id = order.id := by
  rw [Order.settle]
  split <;> rfl

theorem Order.settle_qty (orderId : OrderId) (status : OrderStatus) (order : Order) :
    (order.settle orderId status).qty = order.qty := by
  rw [Order.settle]
  split <;> rfl

/-- The status of one order is set. -/
@[simps -fullyApplied orders]
def World.settle (w : World) (orderId : OrderId) (status : OrderStatus) : World :=
  { w with orders := w.orders.map (Order.settle orderId status) }

theorem World.findOrder_id {w : World} {orderId : OrderId} {order : Order}
    (h : w.findOrder orderId = some order) : order.id = orderId := by
  simpa using List.find?_some h

theorem World.findOrder_settle (w : World) (orderId other : OrderId) (status : OrderStatus) :
    (w.settle orderId status).findOrder other =
      (w.findOrder other).map (Order.settle orderId status) := by
  rw [findOrder, findOrder, settle_orders, List.find?_map]
  congr 2
  funext order
  rw [Function.comp_apply, Order.settle_id]

@[simp] theorem World.emitted_settle (w : World) (orderId : OrderId) (status : OrderStatus) :
    (w.settle orderId status).emitted = w.emitted := rfl

/-- A new order and its event are committed. -/
@[simps -fullyApplied orders]
def World.place (w : World) (order : Order) (event : Message) : World :=
  { w with
    orders := w.orders ++ [order]
    outbox := w.outbox ++ [.new .order event] }

namespace OrderService

/-- A checkout is rejected when the drawn id is taken, and places the order
otherwise. -/
theorem request_checkout (ω : Answers) (w : World) (req : CheckoutRequest) :
    w.request (checkout req) ω = w ∧ (w.findOrder ω.newId).isSome = true ∨
      w.findOrder ω.newId = none ∧ w.request (checkout req) ω =
        w.place (req.order ω.newId) (.orderCreated (req.event ω.newId)) := by
  rw [World.request, checkout]
  cases hid : w.findOrder ω.newId with
  | some order =>
      refine Or.inl ⟨?_, rfl⟩
      have hwrite : w.writeAll [.insertOrder (req.order ω.newId)] = none := by
        simp [World.writeAll_singleton, World.write, CheckoutRequest.order, hid]
      rw [run_flushNew_none ω w {} (fun id => .insertOrder (req.order id)) _ hwrite]
  | none =>
      refine Or.inr ⟨rfl, ?_⟩
      have hwrite : w.writeAll [.insertOrder (req.order ω.newId)] =
          some { w with orders := w.orders ++ [req.order ω.newId] } := by
        simp [World.writeAll_singleton, World.write, CheckoutRequest.order, hid]
      rw [run_flushNew ω w {} (fun id => .insertOrder (req.order id)) _ hwrite,
        run_commit ω w _ (World.writeAll_concat_outbox _ _ hwrite)]
      rfl

variable (ω : Answers) {w : World} {orderId : OrderId} (status : OrderStatus)
  (event : OrderId → Message)

theorem completes_settle_none (h : w.findOrder orderId = none) :
    w.Completes (settle orderId status event) ω w := by
  refine ⟨{}, ?_⟩
  rw [settle, run_selectOrder, h]
  rfl

theorem completes_settle_some {order : Order} (h : w.findOrder orderId = some order) :
    w.Completes (settle orderId status event) ω
      ((w.settle orderId status).emit .order (event orderId)) := by
  refine ⟨{}, ?_⟩
  rw [settle, run_selectOrder, h]
  exact World.findOrder_id h ▸ run_commit ω w {} rfl

end OrderService

end FlashSale
