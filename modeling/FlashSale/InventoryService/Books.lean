import FlashSale.InventoryService.Sequence
import Mathlib.Algebra.BigOperators.Group.Finset.Basic
import Mathlib.Algebra.Order.BigOperators.Group.Finset
import Mathlib.Algebra.Order.Ring.Int
import Mathlib.Data.Finset.SDiff

/-!
# The books of the inventory service

The two quantities of a row hold nothing about single orders; what they stand for
is kept in Redis, one key for a reservation and one for a release. `Books` states
what they amount to, and `Inv` links the rows, the keys, the events and the moves
of every order.
-/

namespace FlashSale

open InventoryService

/-- The order whose reservation the event announces. -/
def Message.reservedOrder : Message → Option OrderId
  | inventoryReserved event => some event.orderId
  | _ => none

/-- The order whose release the event announces. -/
def Message.releasedOrder : Message → Option OrderId
  | inventoryReleased event => some event.orderId
  | _ => none

namespace World

/-- The orders reserved so far, by the events. -/
def reservedOrders (w : World) : Finset OrderId :=
  (w.emitted.filterMap Message.reservedOrder).toFinset

/-- The orders released so far, by the events. -/
def releasedOrders (w : World) : Finset OrderId :=
  (w.emitted.filterMap Message.releasedOrder).toFinset

/-- The orders reserved and not yet released. -/
def held (w : World) : Finset OrderId := w.reservedOrders \ w.releasedOrders

theorem reservedOrders_emit (w : World) (service : Service) (message : Message) :
    (w.emit service message).reservedOrders =
      message.reservedOrder.elim w.reservedOrders fun orderId =>
        insert orderId w.reservedOrders := by
  rw [reservedOrders, emitted_emit, List.filterMap_append, List.toFinset_append]
  cases h : message.reservedOrder with
  | none => simp [h, reservedOrders]
  | some orderId => simp [h, reservedOrders, Finset.union_comm]

theorem releasedOrders_emit (w : World) (service : Service) (message : Message) :
    (w.emit service message).releasedOrders =
      message.releasedOrder.elim w.releasedOrders fun orderId =>
        insert orderId w.releasedOrders := by
  rw [releasedOrders, emitted_emit, List.filterMap_append, List.toFinset_append]
  cases h : message.releasedOrder with
  | none => simp [h, releasedOrders]
  | some orderId => simp [h, releasedOrders, Finset.union_comm]

/-- The stored answer of the order is a success. -/
def Succeeded (w : World) (orderId : OrderId) : Prop :=
  ∃ result, w.reservations orderId = some result ∧ result.success = true

end World

namespace InventoryService

/-- What the rows amount to: `reserved_qty` is what is held for the orders reserved
and not yet released, the two quantities together are what was seeded, and the
stock of an order has moved at most once in each direction. -/
structure Books (line : OrderId → Line) (seeded : Sku → ℤ) (w : World) : Prop where
  reserved : ∀ sku, w.reservedQty sku = ∑ o ∈ w.held with (line o).sku = sku, (line o).qty
  total : ∀ sku, w.availableQty sku + w.reservedQty sku = seeded sku
  movedOnce : ∀ o, (w.movesOf o).countP (fun move => 0 < move.qty) ≤ 1 ∧
    (w.movesOf o).countP (fun move => move.qty < 0) ≤ 1

/-- A release comes after a reservation of its order. -/
def AfterReservation (w : World) : Request → Prop
  | .release cmd _ => cmd.orderId ∈ w.reservedOrders
  | _ => True

/-- A release that gives stock back does not cut `reserved_qty` off at zero. -/
def Unclamped (w : World) : Request → Prop
  | .release cmd _ => w.releases cmd.orderId = none → ∀ item, w.items cmd.sku = some item →
      max 0 (item.reserved - cmd.qty) = item.reserved - cmd.qty
  | _ => True

instance (w : World) (request : Request) : Decidable (AfterReservation w request) :=
  match request with
  | .seed _ _ => isTrue trivial
  | .reserve _ _ => isTrue trivial
  | .release _ _ => inferInstanceAs (Decidable (_ ∈ _))

/-- What links the rows, the keys, the events and the moves. -/
structure Inv (line : OrderId → Line) (w : World) : Prop where
  succeeded : ∀ o, o ∈ w.reservedOrders ↔ w.Succeeded o
  released : ∀ o, o ∈ w.releasedOrders ↔ w.releases o = some ()
  subset : w.releasedOrders ⊆ w.reservedOrders
  moves : ∀ o, w.movesOf o =
    (if o ∈ w.reservedOrders then [⟨o, (line o).sku, (line o).qty⟩] else []) ++
      if o ∈ w.releasedOrders then [⟨o, (line o).sku, -(line o).qty⟩] else []
  stocked : ∀ o ∈ w.reservedOrders, (w.items (line o).sku).isSome = true
  reserved : ∀ sku, w.reservedQty sku = ∑ o ∈ w.held with (line o).sku = sku, (line o).qty
  total : ∀ sku, w.availableQty sku + w.reservedQty sku = w.seeded sku

variable {line : OrderId → Line} {w w' : World}

theorem inv_empty : Inv line World.empty := by
  refine ⟨fun o => ?_, fun o => ?_, Finset.empty_subset _, fun o => rfl, ?_, fun sku => rfl,
    fun sku => rfl⟩
  · simp [World.reservedOrders, World.Succeeded, World.empty, World.emitted]
  · simp [World.releasedOrders, World.empty, World.emitted]
  · intro o ho
    simp [World.reservedOrders, World.empty, World.emitted] at ho

theorem Inv.books (h : Inv line w) : Books line w.seeded w := by
  refine ⟨h.reserved, h.total, fun o => ?_⟩
  have hpos := (line o).qty_pos
  rw [h.moves o]
  by_cases hreserved : o ∈ w.reservedOrders
  · by_cases hreleased : o ∈ w.releasedOrders
    · simp [hreserved, hreleased, hpos, hpos.le]
    · simp [hreserved, hreleased, hpos, hpos.le]
  · have hreleased : o ∉ w.releasedOrders := fun hmem => hreserved (h.subset hmem)
    simp [hreserved, hreleased]

/-- What is held for one order is at most `reserved_qty`. -/
theorem Inv.qty_le (h : Inv line w) {o : OrderId} (ho : o ∈ w.held) :
    (line o).qty ≤ w.reservedQty (line o).sku := by
  rw [h.reserved]
  exact Finset.single_le_sum (f := fun o => (line o).qty) (fun i _ => (line i).qty_pos.le)
    (Finset.mem_filter.2 ⟨ho, rfl⟩)

/-- A request that leaves the rows and the keys of the invariant as they were. -/
theorem Inv.congr (h : Inv line w) (hitems : w'.items = w.items) (hmoves : w'.moves = w.moves)
    (hseeded : w'.seeded = w.seeded) (hreserved : w'.reservedOrders = w.reservedOrders)
    (hreleased : w'.releasedOrders = w.releasedOrders)
    (hsucceeded : ∀ o, w'.Succeeded o ↔ w.Succeeded o) (hreleases : w'.releases = w.releases) :
    Inv line w' := by
  have hreservedQty : w'.reservedQty = w.reservedQty := by
    funext sku
    rw [World.reservedQty, World.reservedQty, hitems]
  have havailableQty : w'.availableQty = w.availableQty := by
    funext sku
    rw [World.availableQty, World.availableQty, hitems]
  refine ⟨?_, ?_, ?_, ?_, ?_, ?_, ?_⟩
  · intro o
    rw [hreserved, hsucceeded]
    exact h.succeeded o
  · intro o
    rw [hreleased, hreleases]
    exact h.released o
  · rw [hreleased, hreserved]
    exact h.subset
  · intro o
    rw [World.movesOf, hmoves, hreserved, hreleased]
    exact h.moves o
  · rw [hreserved, hitems]
    exact h.stocked
  · intro sku
    rw [hreservedQty, World.held, hreserved, hreleased]
    exact h.reserved sku
  · intro sku
    rw [hreservedQty, havailableQty, hseeded]
    exact h.total sku

/-- Only the lines of the reserved orders matter. -/
theorem Inv.congr_line (h : Inv line w) {line' : OrderId → Line}
    (hline : ∀ o ∈ w.reservedOrders, line' o = line o) : Inv line' w := by
  refine ⟨h.succeeded, h.released, h.subset, ?_, ?_, ?_, h.total⟩
  · intro o
    rw [h.moves o]
    by_cases hreserved : o ∈ w.reservedOrders
    · rw [hline o hreserved]
    · have hreleased : o ∉ w.releasedOrders := fun hmem => hreserved (h.subset hmem)
      rw [if_neg hreserved, if_neg hreserved, if_neg hreleased, if_neg hreleased]
  · intro o ho
    rw [hline o ho]
    exact h.stocked o ho
  · intro sku
    have hheld : ∀ o ∈ w.held, line' o = line o := fun o ho =>
      hline o (Finset.mem_sdiff.1 ho).1
    have hfilter : (w.held.filter fun o => (line' o).sku = sku) =
        w.held.filter fun o => (line o).sku = sku :=
      Finset.filter_congr fun o ho => by rw [hheld o ho]
    rw [h.reserved sku, hfilter]
    refine Finset.sum_congr rfl fun o ho => ?_
    rw [hheld o (Finset.mem_filter.1 ho).1]

/-- An event about an order that is announced already changes no set. -/
theorem Inv.emit (h : Inv line w) (service : Service) (message : Message)
    (hreserved : ∀ o, message.reservedOrder = some o → o ∈ w.reservedOrders)
    (hreleased : ∀ o, message.releasedOrder = some o → o ∈ w.releasedOrders) :
    Inv line (w.emit service message) := by
  refine h.congr rfl rfl rfl ?_ ?_ (fun _ => Iff.rfl) rfl
  · rw [World.reservedOrders_emit]
    cases ho : message.reservedOrder with
    | none => rfl
    | some o => exact Finset.insert_eq_of_mem (hreserved o ho)
  · rw [World.releasedOrders_emit]
    cases ho : message.releasedOrder with
    | none => rfl
    | some o => exact Finset.insert_eq_of_mem (hreleased o ho)

/-- The rows of the reserved orders stay when one row is written. -/
theorem Inv.stocked_of_update (h : Inv line w) {sku : Sku} {item : InventoryItem}
    (hitems : w'.items = Function.update w.items sku (some item))
    (horders : ∀ o ∈ w'.reservedOrders, o ∈ w.reservedOrders ∨ (line o).sku = sku) :
    ∀ o ∈ w'.reservedOrders, (w'.items (line o).sku).isSome = true := by
  intro o ho
  rw [hitems]
  by_cases hsku : (line o).sku = sku
  · rw [hsku, Function.update_self]
    rfl
  · rw [Function.update_of_ne hsku]
    exact h.stocked o ((horders o ho).resolve_right hsku)

/-- Stock that moves between the two quantities of one row leaves the totals. -/
theorem Inv.total_of_update (h : Inv line w) {sku : Sku} {item item' : InventoryItem}
    (hitem : w.items sku = some item)
    (hsum : item'.available + item'.reserved = item.available + item.reserved)
    (hitems : w'.items = Function.update w.items sku (some item')) (hseeded : w'.seeded = w.seeded)
    (other : Sku) : w'.availableQty other + w'.reservedQty other = w'.seeded other := by
  rw [World.reservedQty_of_update hitems, World.availableQty_of_update hitems, hseeded, ← h.total]
  by_cases hsku : other = sku
  · rw [if_pos hsku, if_pos hsku, hsum, World.availableQty, World.reservedQty, hsku, hitem]
    rfl
  · rw [if_neg hsku, if_neg hsku]

theorem Inv.seed (h : Inv line w) {sku : Sku} {item : InventoryItem} {qty : ℤ}
    (havailable : item.available = w.availableQty sku + qty)
    (hreserved : item.reserved = w.reservedQty sku) : Inv line (w.seedItem sku item qty) := by
  have hreservedQty : ∀ other, (w.seedItem sku item qty).reservedQty other =
      w.reservedQty other := by
    intro other
    rw [World.reservedQty_of_update rfl]
    split
    · rename_i hsku
      rw [hsku, hreserved]
    · rfl
  refine ⟨h.succeeded, h.released, h.subset, h.moves, ?_, ?_, ?_⟩
  · exact h.stocked_of_update (w.seedItem_items sku item qty) fun o ho => Or.inl ho
  · intro other
    rw [hreservedQty]
    exact h.reserved other
  · intro other
    rw [hreservedQty, World.availableQty_of_update rfl, World.seedItem_seeded]
    have htotal := h.total other
    by_cases hsku : other = sku
    · subst hsku
      rw [if_pos rfl, Function.update_self, havailable]
      omega
    · rw [if_neg hsku, Function.update_of_ne hsku]
      exact htotal

/-- The stock of an order is moved to the reserved quantity. -/
theorem Inv.move (h : Inv line w) {o : OrderId} {item item' : InventoryItem}
    (hcache : w.reservations o = none) (hitem : w.items (line o).sku = some item)
    (havailable : item'.available = item.available - (line o).qty)
    (hreserved : item'.reserved = item.reserved + (line o).qty)
    (hitems : w'.items = Function.update w.items (line o).sku (some item'))
    (hmoves : w'.moves = w.moves ++ [⟨o, (line o).sku, (line o).qty⟩])
    (hseeded : w'.seeded = w.seeded)
    (hreservations : w'.reservations = Function.update w.reservations o (some ⟨true, none⟩))
    (hreleases : w'.releases = w.releases)
    (hin : w'.reservedOrders = insert o w.reservedOrders)
    (hout : w'.releasedOrders = w.releasedOrders) : Inv line w' := by
  have hnew : o ∉ w.reservedOrders := by
    rw [h.succeeded]
    rintro ⟨result, hresult, -⟩
    rw [hcache] at hresult
    cases hresult
  have hnot : o ∉ w.releasedOrders := fun hmem => hnew (h.subset hmem)
  have hheld : w'.held = insert o w.held := by
    rw [World.held, World.held, hin, hout, Finset.insert_sdiff_of_notMem _ hnot]
  have hfresh : o ∉ w.held := fun hmem => hnew (Finset.mem_sdiff.1 hmem).1
  refine ⟨?_, ?_, ?_, ?_, ?_, ?_, ?_⟩
  · intro other
    rw [hin, Finset.mem_insert, World.Succeeded, hreservations]
    by_cases hother : other = o
    · subst hother
      simp
    · simp [hother, h.succeeded other, World.Succeeded]
  · intro other
    rw [hout, hreleases]
    exact h.released other
  · rw [hin, hout]
    exact h.subset.trans (Finset.subset_insert _ _)
  · intro other
    have hbefore := h.moves other
    rw [World.movesOf, hmoves, List.filter_append, hin, hout]
    rw [World.movesOf] at hbefore
    rw [hbefore]
    by_cases hother : other = o
    · subst hother
      simp [hnew, hnot]
    · simp [hother, Ne.symm hother]
  · refine h.stocked_of_update hitems fun other hmem => ?_
    rw [hin] at hmem
    rcases Finset.mem_insert.1 hmem with rfl | hold
    · exact Or.inr rfl
    · exact Or.inl hold
  · intro sku
    have hbefore := h.reserved sku
    rw [World.reservedQty_of_update hitems, hheld, Finset.filter_insert]
    by_cases hsku : (line o).sku = sku
    · subst hsku
      rw [if_pos rfl, if_pos rfl, Finset.sum_insert (by simp [hfresh]), ← hbefore, hreserved,
        World.reservedQty_of_item hitem, add_comm]
    · rw [if_neg (Ne.symm hsku), if_neg hsku]
      exact hbefore
  · have hsum : item'.available + item'.reserved = item.available + item.reserved := by omega
    exact h.total_of_update hitem hsum hitems hseeded

/-- The stock of a reserved order is given back; it is all there. -/
theorem Inv.giveBack (h : Inv line w) {o : OrderId} {item item' : InventoryItem}
    (hmem : o ∈ w.reservedOrders) (hcache : w.releases o = none)
    (hitem : w.items (line o).sku = some item)
    (havailable : item'.available = item.available + (line o).qty)
    (hreserved : item'.reserved = item.reserved - (line o).qty)
    (hitems : w'.items = Function.update w.items (line o).sku (some item'))
    (hmoves : w'.moves = w.moves ++ [⟨o, (line o).sku, -(line o).qty⟩])
    (hseeded : w'.seeded = w.seeded) (hreservations : w'.reservations = w.reservations)
    (hreleases : w'.releases = Function.update w.releases o (some ()))
    (hin : w'.reservedOrders = w.reservedOrders)
    (hout : w'.releasedOrders = insert o w.releasedOrders) : Inv line w' := by
  have hnot : o ∉ w.releasedOrders := by
    rw [h.released, hcache]
    simp
  have hheld : w'.held = w.held.erase o := by
    rw [World.held, World.held, hin, hout, Finset.sdiff_insert]
  have hmember : o ∈ w.held := Finset.mem_sdiff.2 ⟨hmem, hnot⟩
  refine ⟨?_, ?_, ?_, ?_, ?_, ?_, ?_⟩
  · intro other
    rw [hin, World.Succeeded, hreservations]
    exact h.succeeded other
  · intro other
    rw [hout, Finset.mem_insert, hreleases]
    by_cases hother : other = o
    · subst hother
      simp
    · simpa [hother] using h.released other
  · rw [hin, hout]
    exact Finset.insert_subset hmem h.subset
  · intro other
    have hbefore := h.moves other
    rw [World.movesOf, hmoves, List.filter_append, hin, hout]
    rw [World.movesOf] at hbefore
    rw [hbefore]
    by_cases hother : other = o
    · subst hother
      simp [hmem, hnot]
    · simp [hother, Ne.symm hother]
  · exact h.stocked_of_update hitems fun other hother => Or.inl (hin ▸ hother)
  · intro sku
    have hbefore := h.reserved sku
    rw [World.reservedQty_of_update hitems, hheld, Finset.filter_erase]
    by_cases hsku : (line o).sku = sku
    · subst hsku
      have hsplit := Finset.add_sum_erase (w.held.filter fun other => (line other).sku =
        (line o).sku) (fun other => (line other).qty) (Finset.mem_filter.2 ⟨hmember, rfl⟩)
      rw [← hbefore, World.reservedQty_of_item hitem] at hsplit
      rw [if_pos rfl, hreserved]
      omega
    · have hout : o ∉ w.held.filter fun other => (line other).sku = sku := by
        simp [hsku]
      rw [if_neg (Ne.symm hsku), Finset.erase_eq_of_notMem hout]
      exact hbefore
  · have hsum : item'.available + item'.reserved = item.available + item.reserved := by omega
    exact h.total_of_update hitem hsum hitems hseeded

/-! ## One request -/

/-- A reserved order that has not been released is covered by `reserved_qty`. -/
theorem Inv.unclamped (h : Inv line w) {cmd : ReleaseInventory}
    (hline : cmd.sku = (line cmd.orderId).sku ∧ cmd.qty = (line cmd.orderId).qty)
    (hmem : cmd.orderId ∈ w.reservedOrders) (hcache : w.releases cmd.orderId = none)
    {item : InventoryItem} (hitem : w.items cmd.sku = some item) :
    max 0 (item.reserved - cmd.qty) = item.reserved - cmd.qty := by
  have hnot : cmd.orderId ∉ w.releasedOrders := by
    rw [h.released, hcache]
    simp
  have hqty := h.qty_le (Finset.mem_sdiff.2 ⟨hmem, hnot⟩)
  rw [← hline.1, ← hline.2, World.reservedQty_of_item hitem] at hqty
  omega

theorem Inv.reserve (h : Inv line w) {ω : Answers} {cmd : ReserveInventory}
    (hline : cmd.sku = (line cmd.orderId).sku ∧ cmd.qty = (line cmd.orderId).qty)
    (hout : ReserveOutcome ω w cmd w') : Inv line w' ∧ w'.seeded = w.seeded := by
  cases hout with
  | turnedAway reason hreason hturned => exact ⟨h.emit _ _ (by simp [Message.reservedOrder])
      (by simp [Message.releasedOrder]), rfl⟩
  | repeated result hacquired hcache =>
      refine ⟨h.emit _ _ ?_ ?_, rfl⟩
      · intro o ho
        rw [reservationEvent] at ho
        split at ho
        · rename_i hsuccess
          cases ho
          exact (h.succeeded _).2 ⟨result, hcache, hsuccess⟩
        · cases ho
      · intro o ho
        rw [reservationEvent] at ho
        split at ho
        · cases ho
        · cases ho
  | refused reason hreason hacquired hallowed hcache hstock =>
      have hstored : Inv line (w.storeReservation cmd.orderId ⟨false, some reason⟩) := by
        refine h.congr rfl rfl rfl rfl rfl (fun o => ?_) rfl
        rw [World.Succeeded, World.Succeeded, World.storeReservation_reservations]
        by_cases ho : o = cmd.orderId
        · subst ho
          simp [hcache]
        · simp [ho]
      exact ⟨hstored.emit _ _ (by simp [Message.reservedOrder])
        (by simp [Message.releasedOrder]), rfl⟩
  | moved item item' hacquired hallowed hcache hitem hqty havailable hreserved =>
      rw [hline.1] at hitem
      rw [hline.2] at havailable hreserved
      refine ⟨h.move hcache hitem havailable hreserved ?_ ?_ rfl rfl rfl
        (World.reservedOrders_emit _ _ _) (World.releasedOrders_emit _ _ _), rfl⟩
      · rw [← hline.1]
        rfl
      · rw [← hline.1, ← hline.2]
        rfl

theorem Inv.release (h : Inv line w) {ω : Answers} {cmd : ReleaseInventory}
    (hline : cmd.sku = (line cmd.orderId).sku ∧ cmd.qty = (line cmd.orderId).qty)
    (hmem : cmd.orderId ∈ w.reservedOrders) (hout : ReleaseOutcome ω w cmd w') :
    Inv line w' ∧ w'.seeded = w.seeded := by
  cases hout with
  | repeated hacquired hcache =>
      refine ⟨h.emit _ _ (by simp [Message.reservedOrder]) ?_, rfl⟩
      intro o ho
      cases ho
      exact (h.released _).2 hcache
  | missing hacquired hcache hitem =>
      have hstocked := h.stocked _ hmem
      rw [← hline.1, hitem] at hstocked
      cases hstocked
  | released item item' hacquired hcache hitem havailable hreserved =>
      rw [h.unclamped hline hmem hcache hitem] at hreserved
      have hgain : item'.reserved - item.reserved = -(line cmd.orderId).qty := by
        rw [hreserved, ← hline.2]
        omega
      rw [hline.1] at hitem
      rw [hline.2] at havailable hreserved
      refine ⟨h.giveBack hmem hcache hitem havailable hreserved ?_ ?_ rfl rfl rfl
        (World.reservedOrders_emit _ _ _) (World.releasedOrders_emit _ _ _), rfl⟩
      · rw [← hline.1]
        rfl
      · rw [← hline.1, ← hgain]
        rfl

/-- Every request keeps the invariant, and no release is cut off. -/
theorem Inv.step (h : Inv line w) {request : Request} (hline : request.Carries line)
    (hafter : AfterReservation w request) :
    Inv line (handleOne w request) ∧ Unclamped w request ∧
      ∀ sku, (handleOne w request).seeded sku = w.seeded sku + request.seeds sku := by
  cases request with
  | seed req ω =>
      obtain ⟨item, havailable, hreserved, hrun⟩ := run_seedInventory ω w req
      rw [handleOne, World.request_of_completes hrun]
      refine ⟨h.seed havailable hreserved, trivial, fun sku => ?_⟩
      rw [World.seedItem_seeded, Request.seeds]
      by_cases hsku : req.sku = sku
      · subst hsku
        simp
      · simp [hsku, Ne.symm hsku]
  | reserve cmd ω =>
      have hspec : Inv line (handleOne w (.reserve cmd ω)) ∧
          (handleOne w (.reserve cmd ω)).seeded = w.seeded := by
        rw [handleOne]
        rcases run_handleReserve ω w cmd with ⟨w', hw', hout⟩ | ⟨-, hsame, -⟩
        · rw [World.request_of_completes hw']
          exact h.reserve hline hout
        · rw [World.request, hsame]
          exact ⟨h, rfl⟩
      exact ⟨hspec.1, trivial, fun sku => (congrFun hspec.2 sku).trans (add_zero _).symm⟩
  | release cmd ω =>
      have hspec : Inv line (handleOne w (.release cmd ω)) ∧
          (handleOne w (.release cmd ω)).seeded = w.seeded := by
        rw [handleOne]
        rcases run_handleRelease ω w cmd with ⟨w', hw', hout⟩ | ⟨-, hsame⟩
        · rw [World.request_of_completes hw']
          exact h.release hline hafter hout
        · rw [World.request, hsame]
          exact ⟨h, rfl⟩
      refine ⟨hspec.1, ?_, fun sku => (congrFun hspec.2 sku).trans (add_zero _).symm⟩
      intro hcache item hitem
      exact h.unclamped hline hafter hcache hitem

/-! ## Runs -/

theorem Inv.run (h : Inv line w) {requests : List Request}
    (hline : ∀ request ∈ requests, request.Carries line)
    (hafter : Schedule.Along InventoryService.step AfterReservation w requests)
    (hrun : Schedule.run InventoryService.step w requests = some w') :
    Inv line w' ∧ Schedule.Along InventoryService.step Unclamped w requests ∧
      ∀ sku, w'.seeded sku = w.seeded sku + (requests.map (Request.seeds sku)).sum := by
  induction requests generalizing w with
  | nil =>
      cases hrun
      exact ⟨h, trivial, by simp⟩
  | cons request requests ih =>
      obtain ⟨u, hu, hrest⟩ := Schedule.run_cons_eq_some.1 hrun
      have hnext := hafter.2 u hu
      cases hu
      obtain ⟨hinv, hunclamped, hseeded⟩ := h.step (hline request List.mem_cons_self) hafter.1
      obtain ⟨hinv', hunclamped', hseeded'⟩ :=
        ih hinv (fun r hr => hline r (List.mem_cons_of_mem request hr)) hnext hrest
      refine ⟨hinv', ⟨hunclamped, ?_⟩, fun sku => ?_⟩
      · intro v hv
        cases hv
        exact hunclamped'
      · rw [hseeded', hseeded, List.map_cons, List.sum_cons, add_assoc]

/-- In every sequence of seeds, reservations and releases in which an order always
carries the same line and is released only after it was reserved, the books are
kept, and no release is cut off. -/
theorem books_kept {requests : List Request} (hline : ∀ request ∈ requests, request.Carries line)
    (hafter : Schedule.Along step AfterReservation World.empty requests)
    (hrun : Schedule.run step World.empty requests = some w) :
    Books line (fun sku => (requests.map (Request.seeds sku)).sum) w ∧
      Schedule.Along step Unclamped World.empty requests := by
  obtain ⟨hinv, hunclamped, hseeded⟩ := inv_empty.run hline hafter hrun
  have hall : w.seeded = fun sku => (requests.map (Request.seeds sku)).sum := by
    funext sku
    rw [hseeded]
    exact zero_add _
  exact ⟨hall ▸ hinv.books, hunclamped⟩

/-- Two orders of phones, of which one is released; every command is delivered
twice, and the reservation once more after the release. -/
def twoOrders : List Request :=
  [.seed ⟨"phone", 5, by decide⟩ granted, .reserve ⟨"1", "phone", 2⟩ granted,
    .reserve ⟨"1", "phone", 2⟩ granted, .reserve ⟨"2", "phone", 2⟩ granted,
    .release ⟨"1", "phone", 2⟩ granted, .release ⟨"1", "phone", 2⟩ granted,
    .reserve ⟨"1", "phone", 2⟩ granted]
where
  granted : Answers := ⟨true, true, ⟨true, "ref", none⟩, "id"⟩

theorem books_kept_twoOrders : ∃ w, Schedule.run step World.empty twoOrders = some w ∧
    Books (fun _ => ⟨"phone", 2, by decide⟩)
      (fun sku => (twoOrders.map (Request.seeds sku)).sum) w ∧
    Schedule.Along step Unclamped World.empty twoOrders := by
  have hrun : (Schedule.run step World.empty twoOrders).map
      (fun w => (w.availableQty "phone", w.reservedQty "phone")) = some (3, 2) := by
    decide +kernel
  obtain ⟨w, hw, -⟩ := Option.map_eq_some_iff.1 hrun
  refine ⟨w, hw, books_kept ?_ ?_ hw⟩
  · decide +kernel
  · decide +kernel

end InventoryService

end FlashSale
