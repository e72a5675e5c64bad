import FlashSale.Shared.Effects

/-!
# Reservations and releases

`inventory_service/reservation.py`. The body of `async with lock` is a program
of its own, so that every return from it comes to the release of the lock; leaving the
body without the lock is the `LockAcquisitionError` branch. When the body raises (the
database has rejected the flush), `__aexit__` releases the lock too. That call is left
out: in a pool of tasks the key is then given up by an expiry, which may follow at once.
-/

namespace FlashSale

namespace InventoryService

/-- The decision under the row lock: the quantities are moved, and flushed, only
when the row exists and holds enough. -/
def moveStock (orderId : OrderId) (sku : Sku) (qty : ℤ) :
    Option InventoryItem → Handler ReservationResult
  | none => return { success := false, reason := some "unknown_sku" }
  | some item =>
      if item.available < qty then
        return { success := false, reason := some "insufficient_stock" }
      else do
        flush [.updateItem orderId sku (item.available - qty) (item.reserved + qty)]
        return { success := true, reason := none }

/-- The critical section of `try_reserve`. A rate-limited attempt is not
stored. -/
def tryReserveLocked (orderId : OrderId) (sku : Sku) (qty : ℤ) :
    Handler ReservationResult := do
  match ← getCachedReservation orderId with
  | some cached => return cached
  | none =>
      if ← allow sku then
        let item ← selectItemForUpdate sku
        let outcome ← moveStock orderId sku qty item
        storeReservation orderId outcome
        return outcome
      else
        return { success := false, reason := some "rate_limited" }

def tryReserve (orderId : OrderId) (sku : Sku) (qty : ℤ) : Handler ReservationResult := do
  if ← acquire (.sku sku) then
    let outcome ← tryReserveLocked orderId sku qty
    release (.sku sku)
    return outcome
  else
    return { success := false, reason := some "lock_timeout" }

/-- The critical section of `release_reservation`. -/
def releaseReservationLocked (orderId : OrderId) (sku : Sku) (qty : ℤ) : Handler Unit := do
  match ← getCachedRelease orderId with
  | some _ => return ()
  | none =>
      match ← selectItemForUpdate sku with
      | none => return ()
      | some item =>
          flush [.updateItem orderId sku (item.available + qty) (max 0 (item.reserved - qty))]
          storeRelease orderId

/-- A release that cannot take the lock raises. -/
def releaseReservation (orderId : OrderId) (sku : Sku) (qty : ℤ) : Handler Unit := do
  if ← acquire (.sku sku) then
    releaseReservationLocked orderId sku qty
    release (.sku sku)
  else
    Prog.raise

end InventoryService

end FlashSale
