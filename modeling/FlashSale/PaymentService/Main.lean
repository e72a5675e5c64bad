import FlashSale.Shared.Effects

/-!
# The payment service

`payment_service/main.py`: the consumer of `ChargePayment` and `RefundPayment`.
Both are guarded by an idempotency entry that is read and written under a lock
of their own; the entry is stored after the commit.
-/

namespace FlashSale

namespace PaymentService

/-- `_event_from_cached_charge`. -/
def eventFromCachedCharge (orderId : OrderId) (cached : CachedCharge) : Message :=
  if cached.status = .succeeded then
    .paymentSucceeded ⟨orderId, cached.paymentId, cached.amountCents⟩
  else .paymentFailed ⟨orderId, orUnknown cached.failureReason⟩

/-- The row recording the answer of the gateway. -/
def payment (cmd : ChargePayment) (result : GatewayResult) (id : PaymentId) : Payment where
  id := id
  orderId := cmd.orderId
  userId := cmd.userId
  amountCents := cmd.amountCents
  status := if result.success then .succeeded else .failed
  gatewayRef := result.gatewayRef
  failureReason := result.failureReason

/-- The entry stored for a payment row. -/
def cachePayload (row : Payment) : CachedCharge where
  status := row.status
  paymentId := row.id
  amountCents := row.amountCents
  failureReason := row.failureReason

/-- The event announcing the answer of the gateway. -/
def chargeEvent (cmd : ChargePayment) (result : GatewayResult) (id : PaymentId) : Message :=
  if result.success then .paymentSucceeded ⟨cmd.orderId, id, cmd.amountCents⟩
  else .paymentFailed ⟨cmd.orderId, orUnknown result.failureReason⟩

/-- The critical section of `_handle_charge`. -/
def handleChargeLocked (cmd : ChargePayment) : Handler Unit := do
  match ← getCachedCharge cmd.orderId with
  | some cached =>
      commit [.outbox .payment (eventFromCachedCharge cmd.orderId cached)]
  | none =>
      let result ← charge cmd.orderId cmd.amountCents cmd.userId
      let id ← flushNew fun id => .insertPayment (payment cmd result id)
      commit [.outbox .payment (chargeEvent cmd result id)]
      storeCharge cmd.orderId (cachePayload (payment cmd result id))

def handleCharge (cmd : ChargePayment) : Handler Unit := do
  if ← acquire (.payment cmd.orderId) then
    handleChargeLocked cmd
    release (.payment cmd.orderId)
  else
    Prog.raise

/-- The critical section of `_handle_refund`. -/
def handleRefundLocked (cmd : RefundPayment) : Handler Unit := do
  let event : Message := .paymentRefunded ⟨cmd.orderId, cmd.paymentId, cmd.amountCents⟩
  match ← getCachedRefund cmd.paymentId with
  | some _ => commit [.outbox .payment event]
  | none =>
      let result ← refund cmd.paymentId cmd.amountCents
      match ← selectPayment cmd.paymentId with
      | none => commit [.outbox .payment event]
      | some row =>
          commit [.setPaymentStatus row.id .refunded, .outbox .payment event]
      storeRefund cmd.paymentId result.gatewayRef

def handleRefund (cmd : RefundPayment) : Handler Unit := do
  if ← acquire (.refund cmd.paymentId) then
    handleRefundLocked cmd
    release (.refund cmd.paymentId)
  else
    Prog.raise

/-- The callback of `_consume_saga_commands`. -/
def handle : Message → Handler Unit
  | .chargePayment cmd => handleCharge cmd
  | .refundPayment cmd => handleRefund cmd
  | _ => return ()

end PaymentService

end FlashSale
