import FlashSale.Scripts.VerifyConsistency
import FlashSale.System.Settlement

/-!
# What the auditor finds

`scripts/verify_consistency.py` run on the databases that the system has reached.
On databases of any content it can be wrong (`VerifyConsistency.sound_iff`); on
these it never passes anything that its docstring forbids, and once the system is
at rest it fails a SKU exactly for the stock that a cancelled order still holds.
-/

namespace FlashSale

open SagaCoordinator VerifyConsistency

/-- The text of the `status` column. -/
def OrderStatus.text : OrderStatus → String
  | pending => "PENDING"
  | confirmed => "CONFIRMED"
  | cancelled => "CANCELLED"

def PaymentStatus.text : PaymentStatus → String
  | succeeded => "SUCCEEDED"
  | failed => "FAILED"
  | refunded => "REFUNDED"

theorem OrderStatus.text_eq_pending {status : OrderStatus} :
    status.text = "PENDING" ↔ status = pending := by
  cases status <;> simp [text]

theorem OrderStatus.text_eq_confirmed {status : OrderStatus} :
    status.text = "CONFIRMED" ↔ status = confirmed := by
  cases status <;> simp [text]

/-- The columns of an order that the script reads. -/
def Order.audited (order : Order) : OrderRow where
  id := order.id
  sku := order.sku
  qty := order.qty
  status := order.status.text

def Payment.audited (payment : Payment) : PaymentRow where
  id := payment.id
  orderId := payment.orderId
  status := payment.status.text

/-- The three databases as the script finds them. -/
def World.databases (w : World) : Databases where
  orders := w.orders.map Order.audited
  items := fun sku => (w.items sku).map fun item => ⟨item.available, item.reserved⟩
  payments := w.payments.map Payment.audited

variable {w : World} {sku : Sku}

theorem World.databases_paymentsOf (w : World) (orderId : OrderId) :
    w.databases.paymentsOf orderId = (w.paymentsOf orderId).map Payment.audited := by
  rw [Databases.paymentsOf, World.paymentsOf, databases, List.filter_map]
  rfl

theorem World.mem_ordersOf {row : OrderRow} :
    row ∈ w.databases.ordersOf sku ↔
      ∃ order ∈ w.orders, order.sku = sku ∧ order.audited = row := by
  rw [Databases.ordersOf, List.mem_filter, databases, List.mem_map, decide_eq_true_iff]
  constructor
  · rintro ⟨⟨order, horder, rfl⟩, hsku⟩
    exact ⟨order, horder, hsku, rfl⟩
  · rintro ⟨order, horder, hsku, rfl⟩
    exact ⟨⟨order, horder, rfl⟩, hsku⟩

theorem World.mem_audited_confirmed {row : OrderRow} :
    row ∈ w.databases.confirmed sku ↔
      ∃ order ∈ w.orders, order.sku = sku ∧ order.status = .confirmed ∧ order.audited = row := by
  rw [Databases.mem_confirmed, mem_ordersOf]
  constructor
  · rintro ⟨⟨order, horder, hsku, rfl⟩, hstatus⟩
    exact ⟨order, horder, hsku, OrderStatus.text_eq_confirmed.1 hstatus, rfl⟩
  · rintro ⟨order, horder, hsku, hstatus, rfl⟩
    exact ⟨⟨order, horder, hsku, rfl⟩, OrderStatus.text_eq_confirmed.2 hstatus⟩

theorem World.databases_confirmedQty (w : World) (sku : Sku) :
    w.databases.confirmedQty sku = ((w.confirmed sku).map Order.qty).sum := by
  have hconfirmed : w.databases.confirmed sku = (w.confirmed sku).map Order.audited := by
    rw [Databases.confirmed, Databases.ordersOf, databases, List.filter_filter, List.filter_map,
      World.confirmed]
    refine congrArg _ (List.filter_congr fun order _ => ?_)
    rw [Bool.decide_and]
    exact congrArg (· && _) (decide_eq_decide.2 OrderStatus.text_eq_confirmed)
  rw [Databases.confirmedQty, hconfirmed, List.map_map]
  rfl

/-! ## Lost orders of one SKU -/

/-- Once every order is closed, what is held is held for a CONFIRMED order or for a
lost one. -/
theorem Causal.confirmed_or_lost (h : Causal w)
    (hclosed : ∀ order ∈ w.orders, System.Closed w order) {orderId : OrderId}
    (hheld : orderId ∈ w.held) :
    (∃ order ∈ w.orders, order.id = orderId ∧ order.status = .confirmed) ∨ w.Lost orderId := by
  obtain ⟨hreserved, hreleased⟩ := Finset.mem_sdiff.1 hheld
  obtain ⟨order, hfind⟩ := Option.isSome_iff_exists.1 (h.findOrder_of_reserved hreserved)
  have horder : order ∈ w.orders := List.mem_of_find?_eq_some hfind
  obtain rfl : order.id = orderId := World.findOrder_id hfind
  obtain ⟨row, -, ⟨hstatus, -⟩ | ⟨hstatus, -⟩⟩ := hclosed order horder
  · exact Or.inl ⟨order, horder, rfl, hstatus⟩
  · obtain ⟨p, hx, ⟨hconfirmed, -⟩ | ⟨-, hstate⟩⟩ := h.decided horder (hstatus ▸ by decide)
    · cases hstatus.symm.trans hconfirmed
    · cases p with
      | cancelledUnreserved reason =>
          refine Or.inr ⟨hreserved, reason, hx.emitted ?_⟩
          simp [Path.commands, Order.created]
      | cancelledUnpaid reason =>
          obtain ⟨-, -, hevent⟩ := hx.taken _ rfl
          exact absurd (mem_releasedOrders.2 hevent) hreleased
      | _ => cases hstate

/-- Once every order is closed, the reserved quantity of a SKU is that of its
CONFIRMED orders if and only if no order for it is lost. -/
theorem reservedQty_eq_iff (h : Causal w) (hbooks : InventoryService.Inv w.line w)
    (hclosed : ∀ order ∈ w.orders, System.Closed w order) :
    w.reservedQty sku = ((w.confirmed sku).map Order.qty).sum ↔
      ∀ orderId, (w.line orderId).sku = sku → ¬w.Lost orderId := by
  rw [hbooks.reserved, h.sum_confirmed]
  constructor
  · rintro hsum orderId rfl hlost
    obtain ⟨hheld, hunconfirmed⟩ := h.held_of_lost hlost
    refine absurd hsum (ne_of_gt ?_)
    exact Finset.sum_lt_sum_of_subset (h.confirmed_subset_held _)
      (Finset.mem_filter.2 ⟨hheld, rfl⟩) (hunconfirmed _) (w.line orderId).qty_pos
      fun other _ _ => (w.line other).qty_pos.le
  · intro hlost
    refine Finset.sum_congr (Finset.Subset.antisymm (fun orderId hmem => ?_)
      (h.confirmed_subset_held sku)) fun _ _ => rfl
    obtain ⟨hheld, hsku⟩ := Finset.mem_filter.1 hmem
    rcases h.confirmed_or_lost hclosed hheld with ⟨order, horder, rfl, hstatus⟩ | hbad
    · rw [h.line_eq horder] at hsku
      exact mem_confirmedIds.2 ⟨order, horder, hstatus, hsku, rfl⟩
    · exact absurd hbad (hlost orderId hsku)

/-! ## The checks -/

/-- What the script does not read is in order in every state that is reached. -/
theorem unread_databases (h : Causal w) (hbooks : InventoryService.Inv w.line w)
    (hcharges : Charges w) (sku : Sku) : Unread w.databases (w.seeded sku) sku := by
  refine ⟨fun row hrow => ?_, fun row hrow payment hpayment => ?_⟩
  · obtain ⟨item, hitem, rfl⟩ := Option.map_eq_some_iff.1 hrow
    have htotal := hbooks.total sku
    rw [World.availableQty, World.reservedQty, hitem] at htotal
    exact htotal
  · obtain ⟨order, horder, -, hstatus, rfl⟩ := World.mem_audited_confirmed.1 hrow
    obtain ⟨⟨paid, hpaid, hsucceeded, -⟩, -⟩ :=
      agreement_confirmed h hbooks hcharges horder hstatus
    have hmem : payment ∈ w.databases.paymentsOf order.id := hpayment
    rw [World.databases_paymentsOf, hpaid, List.map_singleton, List.mem_singleton] at hmem
    rw [hmem, Payment.audited, hsucceeded]
    rfl

/-- No order has more than one payment row, and a CONFIRMED one has one. -/
theorem paymentsOf_databases (h : Causal w) (hbooks : InventoryService.Inv w.line w)
    (hcharges : Charges w) {order : Order} (horder : order ∈ w.orders) :
    (w.databases.paymentsOf order.id).length ≤ 1 ∧
      (order.status = .confirmed → w.databases.paymentsOf order.id ≠ []) := by
  rw [World.databases_paymentsOf, List.length_map]
  constructor
  · rcases hcharges.rows order.id with ⟨hnil, -⟩ | ⟨row, hrow⟩
    · rw [hnil]
      exact Nat.zero_le 1
    · rw [hrow.payments]
      exact Nat.le_refl 1
  · intro hstatus
    obtain ⟨⟨paid, hpaid, -⟩, -⟩ := agreement_confirmed h hbooks hcharges horder hstatus
    rw [hpaid]
    exact List.cons_ne_nil _ _

/-- Once every order is closed, the script passes a SKU that was seeded if and only
if no order for it is lost. -/
theorem checked_iff_not_lost (h : Causal w) (hbooks : InventoryService.Inv w.line w)
    (hcharges : Charges w) (hclosed : ∀ order ∈ w.orders, System.Closed w order) :
    Checked w.databases sku ↔ (w.items sku).isSome = true ∧
      ∀ orderId, (w.line orderId).sku = sku → ¬w.Lost orderId := by
  rw [← reservedQty_eq_iff h hbooks hclosed]
  constructor
  · intro hchecked
    obtain ⟨row, hrow, -, -, hreserved⟩ := hchecked.inventory
    obtain ⟨item, hitem, rfl⟩ := Option.map_eq_some_iff.1 hrow
    rw [World.databases_confirmedQty] at hreserved
    refine ⟨by rw [hitem]; rfl, ?_⟩
    rw [World.reservedQty, hitem]
    exact hreserved
  · rintro ⟨hseeded, hreserved⟩
    obtain ⟨item, hitem⟩ := Option.isSome_iff_exists.1 hseeded
    rw [World.reservedQty, hitem] at hreserved
    refine ⟨fun row hrow => ?_, ⟨⟨item.available, item.reserved⟩, ?_, item.available_nonneg,
      item.reserved_nonneg, ?_⟩, fun row hrow => ?_, fun row hrow => ?_⟩
    · obtain ⟨order, horder, -, rfl⟩ := World.mem_ordersOf.1 hrow
      show order.status.text ≠ "PENDING"
      rw [Ne, OrderStatus.text_eq_pending]
      obtain ⟨_, -, hstatus | hstatus⟩ := hclosed order horder <;> simp [hstatus.1]
    · show (w.items sku).map _ = _
      rw [hitem]
      rfl
    · rw [World.databases_confirmedQty]
      exact hreserved
    · obtain ⟨order, horder, -, rfl⟩ := World.mem_ordersOf.1 hrow
      exact (paymentsOf_databases h hbooks hcharges horder).1
    · obtain ⟨order, horder, -, hstatus, rfl⟩ := World.mem_audited_confirmed.1 hrow
      exact (paymentsOf_databases h hbooks hcharges horder).2 hstatus

/-- **The auditor is right about the system.** In every state, when it exits with 0
for a SKU, everything that its docstring promises holds. At rest it exits with 0 if
and only if the SKU was seeded and no cancelled order for it still holds stock. -/
theorem Atomic.audited_of_run {s : Atomic} {actions : List Action}
    (hrun : Schedule.run step start actions = some s) (sku : Sku) :
    (exitCode s.world.databases sku = 0 →
      Consistent s.world.databases (s.world.seeded sku) sku) ∧
      (s.Quiescent → (exitCode s.world.databases sku = 0 ↔
        (s.world.items sku).isSome = true ∧
          ∀ orderId, (s.world.line orderId).sku = sku → ¬s.world.Lost orderId)) := by
  have hinv := inv_of_run hrun
  have hbooks := books_of_run hrun
  have hcharges := charges_of_run hrun
  rw [exitCode_eq_zero, consistent_iff]
  refine ⟨fun hchecked => ⟨hchecked, unread_databases hinv.causal hbooks hcharges sku⟩,
    fun hquiescent => ?_⟩
  exact checked_iff_not_lost hinv.causal hbooks hcharges fun order horder =>
    hinv.closed_of_quiescent hquiescent.toSystem horder

namespace Atomic

/-- The auditor finds the piece that the cancelled order of `twice` still holds. -/
theorem audited_twice : ∃ s, Schedule.run step start twice = some s ∧ s.Quiescent ∧
    exitCode s.world.databases "phone" = 1 ∧
    ¬∀ orderId, (s.world.line orderId).sku = "phone" → ¬s.world.Lost orderId := by
  have hrun : (Schedule.run step start twice).map (fun s =>
      (s.queue, s.world.outbox.all OutboxRow.published, (s.world.items "phone").isSome,
        exitCode s.world.databases "phone")) = some ([], true, true, 1) := by
    decide +kernel
  obtain ⟨s, hs, heval⟩ := Option.map_eq_some_iff.1 hrun
  simp only [Prod.mk.injEq] at heval
  obtain ⟨hqueue, hpublished, hseeded, hexit⟩ := heval
  have hquiescent : s.Quiescent :=
    ⟨hqueue, fun row hrow => List.all_eq_true.1 hpublished row hrow⟩
  refine ⟨s, hs, hquiescent, hexit, fun hlost => ?_⟩
  have hzero := ((audited_of_run hs "phone").2 hquiescent).2 ⟨hseeded, hlost⟩
  cases hexit.symm.trans hzero

end Atomic

end FlashSale
