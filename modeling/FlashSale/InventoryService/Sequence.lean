import FlashSale.InventoryService.Outcome
import FlashSale.Library.Schedule

/-!
# Requests one after the other

The inventory service handles one request at a time, each to its end: seeds, and
deliveries of `ReserveInventory` and `ReleaseInventory` in any order and any
number of times. A delivery that raises leaves the world as it was.

Every order carries one SKU and one positive quantity, its `Line`.
-/

namespace FlashSale

namespace InventoryService

/-- What an order is for. -/
structure Line where
  sku : Sku
  qty : ℤ
  qty_pos : 0 < qty

/-- What the service is asked to do: a request to its endpoint, or a delivery. -/
inductive Request
  | seed (req : SeedRequest) (ω : Answers)
  | reserve (cmd : ReserveInventory) (ω : Answers)
  | release (cmd : ReleaseInventory) (ω : Answers)

/-- One request, from its start to its end. -/
def handleOne (w : World) : Request → World
  | .seed req ω => w.request (seedInventory req) ω
  | .reserve cmd ω => w.request (handleReserve cmd) ω
  | .release cmd ω => w.request (handleRelease cmd) ω

def step (w : World) (request : Request) : Option World := some (handleOne w request)

namespace Request

/-- The units that a request seeds. -/
def seeds (sku : Sku) : Request → ℤ
  | seed req _ => if req.sku = sku then req.qty else 0
  | _ => 0

/-- The delivery carries the line of its order. -/
def Carries (line : OrderId → Line) : Request → Prop
  | seed _ _ => True
  | reserve cmd _ => cmd.sku = (line cmd.orderId).sku ∧ cmd.qty = (line cmd.orderId).qty
  | release cmd _ => cmd.sku = (line cmd.orderId).sku ∧ cmd.qty = (line cmd.orderId).qty

instance (line : OrderId → Line) (request : Request) : Decidable (request.Carries line) :=
  match request with
  | .seed _ _ => isTrue trivial
  | .reserve _ _ => inferInstanceAs (Decidable (_ ∧ _))
  | .release _ _ => inferInstanceAs (Decidable (_ ∧ _))

end Request

end InventoryService

end FlashSale
