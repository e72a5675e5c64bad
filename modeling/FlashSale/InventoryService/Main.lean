import FlashSale.InventoryService.Reservation

/-!
# The inventory service

`inventory_service/main.py`: the seed endpoint and the consumer of the saga's
`ReserveInventory` and `ReleaseInventory` commands. The stock move of a
reservation and the outbox row of its event are committed together, after the
lock has been released.
-/

namespace FlashSale

namespace InventoryService

/-- A request that passed validation. -/
structure SeedRequest where
  sku : Sku
  qty : ℤ
  qty_pos : 0 < qty
deriving DecidableEq

/-- Creates the row or adds to the quantity that was read; the row is not
locked. -/
def seedInventory (req : SeedRequest) : Handler Unit := do
  match ← selectItem req.sku with
  | none => commit [.insertItem req.sku req.qty]
  | some item =>
      commit [.setAvailable req.sku req.qty (item.available + req.qty)]

/-- The event announcing the outcome of a reservation. -/
def reservationEvent (cmd : ReserveInventory) (result : ReservationResult) : Message :=
  if result.success then .inventoryReserved ⟨cmd.orderId, cmd.sku, cmd.qty⟩
  else .inventoryReservationFailed ⟨cmd.orderId, cmd.sku, cmd.qty, orUnknown result.reason⟩

def handleReserve (cmd : ReserveInventory) : Handler Unit := do
  let result ← tryReserve cmd.orderId cmd.sku cmd.qty
  commit [.outbox .inventory (reservationEvent cmd result)]

def handleRelease (cmd : ReleaseInventory) : Handler Unit := do
  releaseReservation cmd.orderId cmd.sku cmd.qty
  commit [.outbox .inventory (.inventoryReleased ⟨cmd.orderId, cmd.sku, cmd.qty⟩)]

/-- The callback of `_consume_saga_commands`. -/
def handle : Message → Handler Unit
  | .reserveInventory cmd => handleReserve cmd
  | .releaseInventory cmd => handleRelease cmd
  | _ => return ()

end InventoryService

end FlashSale
