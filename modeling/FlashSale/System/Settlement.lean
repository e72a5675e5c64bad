import FlashSale.System.SoldOut
import Mathlib.Algebra.Order.Ring.Int

/-!
# How the stock settles

What is left reserved when the system has come to rest. Every order reserved and
not released holds its pieces, and a CONFIRMED order does; `World.Lost` is an order
that was cancelled for want of a reservation and is reserved all the same, because
its command was delivered twice and the two deliveries were not answered alike.
Nothing is ever released for such an order.

An order is lost by two kinds of steps alone, which `Firm` excludes, and then the
stock settles if and only if every step of the run was firm (`Atomic.settles_iff`).
-/

namespace FlashSale

open SagaCoordinator

/-- The orders for a SKU that are CONFIRMED. -/
def World.confirmed (w : World) (sku : Sku) : List Order :=
  w.orders.filter fun order => order.status = .confirmed ∧ order.sku = sku

/-- `reserved_qty` is the sum of `qty` over the CONFIRMED orders, and the two
quantities are the total seeded. -/
def World.Settles (w : World) : Prop :=
  ∀ sku, w.reservedQty sku = ((w.confirmed sku).map Order.qty).sum ∧
    w.availableQty sku + w.reservedQty sku = w.seeded sku

/-- The order is cancelled for want of a reservation, and it is reserved. -/
def World.Lost (w : World) (orderId : OrderId) : Prop :=
  orderId ∈ w.reservedOrders ∧
    ∃ reason, .cancelOrder ⟨orderId, "inventory_unavailable:" ++ reason⟩ ∈ w.emitted

/-- A saga that still waits for its reservation takes no refusal when a success is
stored, and no stock is moved for a saga that waits no more. -/
def Firm (w : World) : Atomic.Action → Prop
  | .deliver (.inventoryReservationFailed event) _ =>
      (w.sagas event.orderId).map SagaRow.state = some .reserving →
        (w.reservations event.orderId).map ReservationResult.success ≠ some true
  | .deliver (.reserveInventory cmd) ω =>
      w.Decides cmd ω → ¬w.Short cmd.sku cmd.qty →
        (w.sagas cmd.orderId).map SagaRow.state = some .reserving
  | _ => True

instance (w : World) (cmd : ReserveInventory) (ω : Answers) : Decidable (w.Decides cmd ω) :=
  inferInstanceAs (Decidable (_ ∧ _ ∧ _))

instance (w : World) (a : Atomic.Action) : Decidable (Firm w a) :=
  match a with
  | .checkout _ _ | .seed _ _ | .publish _ | .mark _ => isTrue trivial
  | .deliver message ω =>
      match message with
      | .inventoryReservationFailed _ => inferInstanceAs (Decidable (_ → _))
      | .reserveInventory cmd => inferInstanceAs (Decidable (w.Decides cmd ω → _ → _))
      | .orderCreated _ | .inventoryReserved _ | .inventoryReleased _ | .paymentSucceeded _
      | .paymentFailed _ | .paymentRefunded _ | .orderConfirmed _ | .orderCancelled _
      | .releaseInventory _ | .chargePayment _ | .refundPayment _ | .confirmOrder _
      | .cancelOrder _ => isTrue trivial

variable {w w' : World}

/-! ## Lost orders -/

theorem World.succeeded_iff {orderId : OrderId} :
    w.Succeeded orderId ↔ (w.reservations orderId).map ReservationResult.success = some true := by
  rw [Succeeded, Option.map_eq_some_iff]

theorem reservedOrders_subset (h : w.emitted ⊆ w'.emitted) :
    w.reservedOrders ⊆ w'.reservedOrders := by
  intro orderId hmem
  obtain ⟨sku, qty, hevent⟩ := mem_reservedOrders.1 hmem
  exact mem_reservedOrders.2 ⟨sku, qty, h hevent⟩

/-- A lost order stays lost: both events are emitted. -/
theorem World.Lost.mono {orderId : OrderId} (h : w.Lost orderId) (hsub : w.emitted ⊆ w'.emitted) :
    w'.Lost orderId := by
  obtain ⟨hreserved, reason, hcancel⟩ := h
  exact ⟨reservedOrders_subset hsub hreserved, reason, hsub hcancel⟩

theorem paymentFailed_ne (reason reason' : String) :
    "payment_failed:" ++ reason ≠ "inventory_unavailable:" ++ reason' := by
  intro h
  have hstart := congrArg (fun text => text.toList.take 1) h
  simp [String.toList_append] at hstart

/-- An order is cancelled for want of a reservation at the end of one path only. -/
theorem Causal.unreserved_of_cancel (h : Causal w) {orderId : OrderId} {reason : String}
    (hmem : .cancelOrder ⟨orderId, "inventory_unavailable:" ++ reason⟩ ∈ w.emitted) :
    ∃ order ∈ w.orders, order.id = orderId ∧
      Traced w orderId (some (order.created, .cancelledUnreserved reason)) := by
  obtain ⟨order, horder, p, hid, hx, hcommand⟩ := h.of_command hmem rfl
  refine ⟨order, horder, hid, ?_⟩
  cases p with
  | cancelledUnreserved reason' =>
      simp only [Path.commands, List.mem_cons, reduceCtorEq, Message.cancelOrder.injEq,
        CancelOrder.mk.injEq, String.append_right_inj, List.not_mem_nil, or_false, false_or]
        at hcommand
      rw [hcommand.2]
      exact hx
  | cancelledUnpaid reason' =>
      simp [Path.commands, (paymentFailed_ne reason' reason).symm] at hcommand
  | _ => simp [Path.commands] at hcommand

/-- The saga of a lost order does not wait. -/
theorem Causal.state_of_cancel (h : Causal w) {orderId : OrderId} {reason : String}
    (hmem : .cancelOrder ⟨orderId, "inventory_unavailable:" ++ reason⟩ ∈ w.emitted) :
    (w.sagas orderId).map SagaRow.state = some .cancelled := by
  obtain ⟨order, -, -, hx⟩ := h.unreserved_of_cancel hmem
  have hrow : w.sagas orderId = some (Path.row order.created (.cancelledUnreserved reason)) :=
    hx.agrees.row
  rw [hrow]
  rfl

/-- An order is lost by a new message: the event of its reservation, or the command
that cancels it. -/
theorem World.Lost.of_new {orderId : OrderId} {message : Message} (h : w'.Lost orderId)
    (hemitted : w'.emitted = w.emitted ++ [message]) :
    w.Lost orderId ∨
      (message.reservedOrder = some orderId ∧
        ∃ reason, .cancelOrder ⟨orderId, "inventory_unavailable:" ++ reason⟩ ∈ w.emitted) ∨
      orderId ∈ w.reservedOrders ∧
        ∃ reason, message = .cancelOrder ⟨orderId, "inventory_unavailable:" ++ reason⟩ := by
  obtain ⟨hreserved, reason, hcancel⟩ := h
  obtain ⟨sku, qty, hevent⟩ := mem_reservedOrders.1 hreserved
  rw [hemitted, List.mem_append, List.mem_singleton] at hcancel hevent
  rcases hcancel with hcancel | rfl
  · rcases hevent with hevent | rfl
    · exact Or.inl ⟨mem_reservedOrders.2 ⟨sku, qty, hevent⟩, reason, hcancel⟩
    · exact Or.inr (Or.inl ⟨rfl, reason, hcancel⟩)
  · have hold : .inventoryReserved ⟨orderId, sku, qty⟩ ∈ w.emitted := hevent.resolve_right (by simp)
    exact Or.inr (Or.inr ⟨mem_reservedOrders.2 ⟨sku, qty, hold⟩, reason, rfl⟩)

/-- A change that reserves nothing and cancels nothing loses no order. -/
theorem not_lost_of_new (h : ∀ orderId, ¬w.Lost orderId) {message : Message}
    (hemitted : w'.emitted = w.emitted ++ [message]) (hreserved : message.reservedOrder = none)
    (hcancel : ∀ cmd, message ≠ .cancelOrder cmd) (orderId : OrderId) : ¬w'.Lost orderId := by
  intro hlost
  rcases hlost.of_new hemitted with hold | ⟨hsome, -⟩ | ⟨-, reason, hmessage⟩
  · exact h orderId hold
  · cases hreserved.symm.trans hsome
  · exact hcancel _ hmessage

/-- A firm saga that cancels its order has no success stored. -/
theorem not_lost_applied (hbooks : InventoryService.Inv w.line w)
    (h : ∀ orderId, ¬w.Lost orderId) {message command : Message} {write : SagaWrite}
    {ω : Answers} (hfirm : Firm w (.deliver message ω))
    (ht : transition message (w.sagas message.orderId) = .applied write command)
    (hemitted : w'.emitted = w.emitted ++ [command]) (orderId : OrderId) : ¬w'.Lost orderId := by
  intro hlost
  rcases hlost.of_new hemitted with hold | ⟨hsome, -⟩ | ⟨hreserved, reason, rfl⟩
  · exact h orderId hold
  · have hsender := transition_sender ht
    have hnone : command.reservedOrder = none := by
      cases command <;> first | rfl | cases hsender
    cases hnone.symm.trans hsome
  · rcases transition_cancelOrder ht with ⟨event, rfl, hstate, hcmd⟩ | ⟨reason', hreason⟩
    · obtain rfl : orderId = event.orderId := congrArg CancelOrder.orderId hcmd
      exact hfirm hstate (World.succeeded_iff.1 ((hbooks.succeeded _).1 hreserved))
    · exact paymentFailed_ne reason' reason hreason.symm

/-- A firm delivery moves no stock for a saga that waits no more. -/
theorem not_lost_reserve (hcausal : Causal w) (hbooks : InventoryService.Inv w.line w)
    (h : ∀ orderId, ¬w.Lost orderId) {cmd : ReserveInventory} {ω : Answers}
    (hfirm : Firm w (.deliver (.reserveInventory cmd) ω))
    (hout : InventoryService.ReserveOutcome ω w cmd w') (orderId : OrderId) :
    ¬w'.Lost orderId := by
  have hrefused {v : World} {event : InventoryReservationFailed}
      (hemitted : v.emitted = w.emitted ++ [.inventoryReservationFailed event]) :
      ¬v.Lost orderId :=
    not_lost_of_new h hemitted rfl (by simp) orderId
  cases hout with
  | turnedAway reason hreason hturned => exact hrefused (World.emitted_emit ..)
  | refused reason hreason hacquired hallowed hcache hstock =>
      exact hrefused (World.emitted_emit ..)
  | repeated result hacquired hcache =>
      cases hsuccess : result.success with
      | false =>
          have hevent : InventoryService.reservationEvent cmd result =
              .inventoryReservationFailed
                ⟨cmd.orderId, cmd.sku, cmd.qty, orUnknown result.reason⟩ := by
            rw [InventoryService.reservationEvent, hsuccess]
            rfl
          rw [hevent]
          exact hrefused (World.emitted_emit ..)
      | true =>
          -- the reservation was announced before
          have hreserved : cmd.orderId ∈ w.reservedOrders :=
            (hbooks.succeeded _).2 ⟨result, hcache, hsuccess⟩
          intro hlost
          rcases hlost.of_new (World.emitted_emit ..) with hold | ⟨hsome, hcancel⟩ |
            ⟨-, _, hmessage⟩
          · exact h orderId hold
          · rw [InventoryService.reservationEvent, hsuccess] at hsome
            cases hsome
            exact h cmd.orderId ⟨hreserved, hcancel⟩
          · rw [InventoryService.reservationEvent, hsuccess] at hmessage
            cases hmessage
  | moved item item' hacquired hallowed hcache hitem hqty havailable hreserved =>
      intro hlost
      rcases hlost.of_new (World.emitted_emit ..) with hold | ⟨hsome, reason, hcancel⟩ |
        ⟨-, reason, hmessage⟩
      · exact h orderId hold
      · cases hsome
        have hample : ¬w.Short cmd.sku cmd.qty := World.not_short_iff.2 ⟨item, hitem, hqty⟩
        have hwaits := hfirm ⟨hacquired, hallowed, hcache⟩ hample
        cases hwaits.symm.trans (hcausal.state_of_cancel hcancel)
      · cases hmessage

/-- A firm step loses no order. -/
theorem not_lost_change {a : Atomic.Action} (hcausal : Causal w)
    (hbooks : InventoryService.Inv w.line w) (h : ∀ orderId, ¬w.Lost orderId) (hfirm : Firm w a)
    (hchange : Change w a w') : ∀ orderId, ¬w'.Lost orderId := by
  have hsame {v : World} (hemitted : v.emitted = w.emitted) (orderId : OrderId) :
      ¬v.Lost orderId := fun hlost => h orderId (hlost.mono (hemitted ▸ List.Subset.refl _))
  cases hchange with
  | flags _ _ halike => exact hsame halike.emitted
  | placed _ req id _ => exact not_lost_of_new h (emitted_concat rfl) rfl (by simp)
  | seeded _ sku item qty _ _ => exact hsame rfl
  | handled message ω _ hmem hhandled =>
      cases hhandled with
      | nothing => exact h
      | applied _ command write row ht hw =>
          exact not_lost_applied hbooks h hfirm ht (World.emitted_emit ..)
      | reserve cmd _ hout => exact not_lost_reserve hcausal hbooks h hfirm hout
      | release cmd _ hout =>
          cases hout <;> exact not_lost_of_new h (World.emitted_emit ..) rfl (by simp)
      | repeated cmd cached hcache =>
          refine not_lost_of_new h (World.emitted_emit ..) ?_ ?_ <;>
            rw [PaymentService.eventFromCachedCharge] <;> split <;> simp [Message.reservedOrder]
      | charged cmd hcache hid =>
          refine not_lost_of_new h (World.emitted_emit ..) ?_ ?_ <;>
            rw [PaymentService.chargeEvent] <;> split <;> simp [Message.reservedOrder]
      | called cmd hcache => exact hsame rfl
      | confirmed cmd order hfind => exact not_lost_of_new h (World.emitted_emit ..) rfl (by simp)
      | cancelled cmd order hfind => exact not_lost_of_new h (World.emitted_emit ..) rfl (by simp)
      | notifiedConfirmed event => exact hsame rfl
      | notifiedCancelled event => exact hsame rfl

/-! ## Steps that are not firm -/

/-- A refusal that a waiting saga takes, with a success stored, loses the order. -/
theorem lost_of_refused (hbooks : InventoryService.Inv w.line w) (ω : Answers)
    {event : InventoryReservationFailed}
    (hstate : (w.sagas event.orderId).map SagaRow.state = some .reserving)
    (hstored : (w.reservations event.orderId).map ReservationResult.success = some true) :
    (w.request (SagaCoordinator.handle (.inventoryReservationFailed event)) ω).Lost
      event.orderId := by
  obtain ⟨row, hrow, hreserving⟩ := Option.map_eq_some_iff.1 hstate
  have ht : transition (.inventoryReservationFailed event) (w.sagas event.orderId) =
      .applied (.assign .cancelled none (some event.reason))
        (.cancelOrder ⟨event.orderId, "inventory_unavailable:" ++ event.reason⟩) := by
    rw [hrow]
    show handleInventoryReservationFailed event (some row) = _
    rw [handleInventoryReservationFailed, whenIn_of_state hreserving]
  obtain ⟨row', hw⟩ := transition_written ht
  have hreserved : event.orderId ∈ w.reservedOrders :=
    (hbooks.succeeded _).2 (World.succeeded_iff.2 hstored)
  rw [World.request, run_handle_applied ω ht hw]
  refine ⟨reservedOrders_subset ?_ hreserved, event.reason, ?_⟩
  · rw [World.emitted_emit]
    exact List.subset_append_left _ _
  · rw [World.emitted_emit]
    exact List.mem_append_right _ (List.mem_singleton_self _)

/-- A command that is decided with enough stock moves it. -/
theorem request_moved (hcausal : Causal w) {cmd : ReserveInventory} {ω : Answers}
    (hmem : .reserveInventory cmd ∈ w.emitted) (hdecides : w.Decides cmd ω)
    (hample : ¬w.Short cmd.sku cmd.qty) :
    (w.request (InventoryService.handleReserve cmd) ω).emitted =
      w.emitted ++ [.inventoryReserved ⟨cmd.orderId, cmd.sku, cmd.qty⟩] := by
  obtain ⟨hacquired, hallowed, hnone⟩ := hdecides
  obtain ⟨item, hitem, hqty⟩ := World.not_short_iff.1 hample
  rcases InventoryService.run_handleReserve ω w cmd with ⟨w', hw', hout⟩ |
    ⟨-, -, item', hitem', hnegative⟩
  · rw [World.request_of_completes hw']
    cases hout with
    | turnedAway reason hreason hturned =>
        rcases hturned with hfalse | ⟨-, hfalse⟩
        · cases hacquired.symm.trans hfalse
        · cases hallowed.symm.trans hfalse
    | repeated result _ hcache => cases hnone.symm.trans hcache
    | refused reason _ _ _ _ hstock => exact absurd (hstock item hitem) (by omega)
    | moved => exact World.emitted_emit ..
  · -- an order is for at least one piece, so the flush is not rejected
    have hpositive : 0 < cmd.qty := by
      rw [(hcausal.line_reserve hmem).2]
      exact (w.line cmd.orderId).qty_pos
    have hreserved := item'.reserved_nonneg
    omega

/-- Stock that is moved for a saga that waits no more is lost. -/
theorem lost_of_moved (hcausal : Causal w) (hbooks : InventoryService.Inv w.line w)
    {cmd : ReserveInventory} {ω : Answers} (hmem : .reserveInventory cmd ∈ w.emitted)
    (hdecides : w.Decides cmd ω) (hample : ¬w.Short cmd.sku cmd.qty)
    (hstate : (w.sagas cmd.orderId).map SagaRow.state ≠ some .reserving) :
    (w.request (InventoryService.handleReserve cmd) ω).Lost cmd.orderId := by
  have hemitted := request_moved hcausal hmem hdecides hample
  have hunreserved : cmd.orderId ∉ w.reservedOrders := by
    intro hreserved
    obtain ⟨result, hresult, -⟩ := (hbooks.succeeded _).1 hreserved
    cases hdecides.2.2.symm.trans hresult
  -- of the paths on which nothing is reserved, one alone does not end in RESERVING
  have hcancel : ∃ reason,
      .cancelOrder ⟨cmd.orderId, "inventory_unavailable:" ++ reason⟩ ∈ w.emitted := by
    obtain ⟨order, -, p, hid, hx, -⟩ := hcausal.of_command hmem rfl
    have hrow : w.sagas cmd.orderId = some (p.row order.created) := hx.agrees.row
    have hnever : SagaState.charging ∉ p.states := fun hcharging =>
      hunreserved ((hx.taken _ rfl).reserved hcharging)
    cases p with
    | cancelledUnreserved reason =>
        refine ⟨reason, hx.emitted ?_⟩
        have horderId : order.created.orderId = cmd.orderId := hid
        simp [Path.commands, horderId]
    | reserving => exact absurd (congrArg (Option.map SagaRow.state) hrow) hstate
    | _ => exact absurd (by simp [Path.states]) hnever
  obtain ⟨reason, hcancel⟩ := hcancel
  refine ⟨mem_reservedOrders.2 ⟨cmd.sku, cmd.qty, ?_⟩, reason, ?_⟩
  · rw [hemitted]
    exact List.mem_append_right _ (List.mem_singleton_self _)
  · rw [hemitted]
    exact List.mem_append_left _ hcancel

/-- A step that is not firm loses an order. -/
theorem Atomic.lost_of_not_firm {s s' : Atomic} {a : Action} (h : s.toSystem.Inv)
    (hbooks : InventoryService.Inv s.world.line s.world) (hstep : s.step a = some s')
    (hfirm : ¬Firm s.world a) : ∃ orderId, s'.world.Lost orderId := by
  cases a with
  | deliver message ω =>
      simp only [step, Option.ite_none_right_eq_some, Option.some.injEq] at hstep
      obtain ⟨⟨hmem, -⟩, rfl⟩ := hstep
      have hemitted : message ∈ s.world.emitted := h.queued message hmem
      cases message with
      | inventoryReservationFailed event =>
          obtain ⟨hstate, hstored⟩ := Classical.not_imp.1 hfirm
          exact ⟨event.orderId, lost_of_refused hbooks ω hstate (not_not.1 hstored)⟩
      | reserveInventory cmd =>
          obtain ⟨hdecides, hrest⟩ := Classical.not_imp.1 hfirm
          obtain ⟨hample, hstate⟩ := Classical.not_imp.1 hrest
          exact ⟨cmd.orderId, lost_of_moved h.causal hbooks hemitted hdecides hample hstate⟩
      | _ => exact absurd trivial hfirm
  | _ => exact absurd trivial hfirm

/-! ## Quiescent states -/

theorem mem_confirmedIds {sku : Sku} {orderId : OrderId} :
    orderId ∈ ((w.confirmed sku).map Order.id).toFinset ↔
      ∃ order ∈ w.orders, order.status = .confirmed ∧ order.sku = sku ∧ order.id = orderId := by
  rw [List.mem_toFinset, List.mem_map]
  constructor
  · rintro ⟨order, hmem, hid⟩
    rw [World.confirmed, List.mem_filter, decide_eq_true_iff] at hmem
    exact ⟨order, hmem.1, hmem.2.1, hmem.2.2, hid⟩
  · rintro ⟨order, hmem, hstatus, hsku, hid⟩
    exact ⟨order, List.mem_filter.2 ⟨hmem, decide_eq_true ⟨hstatus, hsku⟩⟩, hid⟩

theorem Causal.sum_confirmed (h : Causal w) (sku : Sku) :
    ((w.confirmed sku).map Order.qty).sum =
      ∑ orderId ∈ ((w.confirmed sku).map Order.id).toFinset, (w.line orderId).qty := by
  have hnodup : ((w.confirmed sku).map Order.id).Nodup :=
    h.ids.sublist (List.filter_sublist.map Order.id)
  rw [List.sum_toFinset _ hnodup, List.map_map]
  refine congrArg List.sum (List.map_congr_left fun order horder => ?_)
  rw [Function.comp_apply, h.line_eq (List.mem_of_mem_filter horder)]

/-- The CONFIRMED orders hold their pieces. -/
theorem Causal.confirmed_subset_held (h : Causal w) (sku : Sku) :
    ((w.confirmed sku).map Order.id).toFinset ⊆ {o ∈ w.held | (w.line o).sku = sku} := by
  intro orderId hmem
  obtain ⟨order, horder, hstatus, hsku, rfl⟩ := mem_confirmedIds.1 hmem
  rw [Finset.mem_filter, World.held, Finset.mem_sdiff, h.line_eq horder]
  exact ⟨h.held_of_confirmed horder hstatus, hsku⟩

/-- Once every order is closed, nobody else does, lost orders apart. -/
theorem Causal.held_subset_confirmed (h : Causal w)
    (hclosed : ∀ order ∈ w.orders, System.Closed w order) (hlost : ∀ orderId, ¬w.Lost orderId)
    (sku : Sku) :
    {o ∈ w.held | (w.line o).sku = sku} ⊆ ((w.confirmed sku).map Order.id).toFinset := by
  intro orderId hmem
  obtain ⟨hheld, hsku⟩ := Finset.mem_filter.1 hmem
  obtain ⟨hreserved, hreleased⟩ := Finset.mem_sdiff.1 hheld
  obtain ⟨order, hfind⟩ := Option.isSome_iff_exists.1 (h.findOrder_of_reserved hreserved)
  have horder : order ∈ w.orders := List.mem_of_find?_eq_some hfind
  obtain rfl : order.id = orderId := World.findOrder_id hfind
  rw [h.line_eq horder] at hsku
  obtain ⟨row, -, ⟨hstatus, -⟩ | ⟨hstatus, -⟩⟩ := hclosed order horder
  · exact mem_confirmedIds.2 ⟨order, horder, hstatus, hsku, rfl⟩
  · obtain ⟨p, hx, ⟨hconfirmed, -⟩ | ⟨-, hstate⟩⟩ := h.decided horder (hstatus ▸ by decide)
    · cases hstatus.symm.trans hconfirmed
    · cases p with
      | cancelledUnreserved reason =>
          refine absurd ⟨hreserved, reason, hx.emitted ?_⟩ (hlost order.id)
          simp [Path.commands, Order.created]
      | cancelledUnpaid reason =>
          obtain ⟨-, -, hevent⟩ := hx.taken _ rfl
          exact absurd (mem_releasedOrders.2 hevent) hreleased
      | _ => cases hstate

/-- A lost order holds its pieces, and is not CONFIRMED. -/
theorem Causal.held_of_lost (h : Causal w) {orderId : OrderId} (hlost : w.Lost orderId) :
    orderId ∈ w.held ∧ ∀ sku, orderId ∉ ((w.confirmed sku).map Order.id).toFinset := by
  obtain ⟨hreserved, reason, hcancel⟩ := hlost
  obtain ⟨order, -, -, hx⟩ := h.unreserved_of_cancel hcancel
  refine ⟨Finset.mem_sdiff.2 ⟨hreserved, hx.not_released (by simp [Path.states])⟩, ?_⟩
  intro sku hmem
  obtain ⟨order', horder', hstatus, -, rfl⟩ := mem_confirmedIds.1 hmem
  obtain ⟨paymentId, hx'⟩ := h.confirmed_path horder' hstatus
  have hrow := hx.agrees.row.symm.trans hx'.agrees.row
  have hstate := congrArg (Option.map SagaRow.state) hrow
  cases hstate

/-- Once every order is closed, the stock settles if and only if no order is lost. -/
theorem settles_iff_not_lost (h : Causal w) (hbooks : InventoryService.Inv w.line w)
    (hclosed : ∀ order ∈ w.orders, System.Closed w order) :
    w.Settles ↔ ∀ orderId, ¬w.Lost orderId := by
  constructor
  · intro hsettles orderId hlost
    obtain ⟨hheld, hunconfirmed⟩ := h.held_of_lost hlost
    have hlt : ((w.confirmed (w.line orderId).sku).map Order.qty).sum <
        w.reservedQty (w.line orderId).sku := by
      rw [h.sum_confirmed, hbooks.reserved]
      exact Finset.sum_lt_sum_of_subset (h.confirmed_subset_held _)
        (Finset.mem_filter.2 ⟨hheld, rfl⟩) (hunconfirmed _) (w.line orderId).qty_pos
        fun other _ _ => (w.line other).qty_pos.le
    exact absurd (hsettles _).1 hlt.ne'
  · intro hlost sku
    refine ⟨?_, hbooks.total sku⟩
    rw [h.sum_confirmed, hbooks.reserved]
    exact Finset.sum_congr (Finset.Subset.antisymm (h.held_subset_confirmed hclosed hlost sku)
      (h.confirmed_subset_held sku)) fun _ _ => rfl

/-- In a quiescent state the stock has settled if and only if every step of the run
was firm. -/
theorem Atomic.settles_iff {s : Atomic} {actions : List Action}
    (hrun : Schedule.run step start actions = some s) (hquiescent : s.Quiescent) :
    s.world.Settles ↔ Schedule.Along step (fun s a => Firm s.world a) start actions := by
  have hinv := inv_of_run hrun
  have hcausal : Causal s.world := hinv.causal
  have hclosed : ∀ order ∈ s.world.orders, System.Closed s.world order :=
    fun order horder => hinv.closed_of_quiescent hquiescent.toSystem horder
  rw [settles_iff_not_lost hcausal (books_of_run hrun) hclosed]
  constructor
  · intro hlost
    refine Schedule.along_of_forall_prefix fun before a after t hsplit _ hbefore => ?_
    by_contra hfirm
    obtain ⟨u, hu, hrest⟩ := Schedule.run_append_eq_some.1 (hsplit ▸ hrun)
    cases hbefore.symm.trans hu
    obtain ⟨v, hstep, hafter⟩ := Schedule.run_cons_eq_some.1 hrest
    have hinvT := inv_of_run hbefore
    obtain ⟨orderId, hlostV⟩ := lost_of_not_firm hinvT (books_of_run hbefore) hstep hfirm
    exact hlost orderId (hlostV.mono (emitted_of_run (inv_step hinvT hstep) hafter))
  · intro halong
    have hkept := world_preserves
      (I := fun w => InventoryService.Inv w.line w ∧ ∀ orderId, ¬w.Lost orderId)
      ⟨InventoryService.inv_empty, ?_⟩ ?_ halong hrun
    · exact hkept.2.2
    · rintro orderId ⟨hreserved, -⟩
      obtain ⟨sku, qty, hmem⟩ := mem_reservedOrders.1 hreserved
      cases hmem
    · intro w w' a hcausal _ hI hfirm hchange
      exact ⟨books_change hcausal hI.1 hchange,
        not_lost_change hcausal hI.1 hI.2 hfirm hchange⟩

namespace Atomic

theorem settles_iff_sold : ∃ s, Schedule.run step start sold = some s ∧ s.Quiescent ∧
    s.world.reservedQty "phone" = 1 ∧ s.world.Settles := by
  have hrun : (Schedule.run step start sold).map (fun s =>
      (s.queue, s.world.outbox.all OutboxRow.published, s.world.reservedQty "phone")) =
      some ([], true, 1) := by
    decide +kernel
  obtain ⟨s, hs, heval⟩ := Option.map_eq_some_iff.1 hrun
  obtain ⟨hqueue, hrest⟩ := Prod.mk.inj heval
  obtain ⟨hpublished, hreserved⟩ := Prod.mk.inj hrest
  have hquiescent : s.Quiescent :=
    ⟨hqueue, fun row hrow => List.all_eq_true.1 hpublished row hrow⟩
  exact ⟨s, hs, hquiescent, hreserved, (settles_iff hs hquiescent).2 (by decide +kernel)⟩

/-- The command of the only order is delivered twice: the first delivery finds no
token, and the second moves the stock. -/
def twice : List Action :=
  [.seed System.tenPhones System.granting, .checkout System.onePhone System.granting] ++
  passed 0 (.orderCreated ⟨"id-1", "phone", 1, "user-1", 100⟩) System.granting ++
  [.publish 1, .publish 1, .mark 1, .deliver (.reserveInventory ⟨"id-1", "phone", 1⟩) limiting,
    .deliver (.reserveInventory ⟨"id-1", "phone", 1⟩) System.granting] ++
  passed 2 (.inventoryReservationFailed ⟨"id-1", "phone", 1, "rate_limited"⟩) System.granting ++
  passed 3 (.inventoryReserved ⟨"id-1", "phone", 1⟩) System.granting ++
  passed 4 (.cancelOrder ⟨"id-1", "inventory_unavailable:rate_limited"⟩) System.granting ++
  passed 5 (.orderCancelled ⟨"id-1", "inventory_unavailable:rate_limited"⟩) System.granting

/-- The system has come to rest, and the cancelled order holds one piece. -/
theorem not_settles_twice : ∃ s, Schedule.run step start twice = some s ∧ s.Quiescent ∧
    s.world.orders.map Order.status = [.cancelled] ∧ s.world.reservedQty "phone" = 1 ∧
    ¬s.world.Settles := by
  have hrun : (Schedule.run step start twice).map (fun s =>
      (s.queue, s.world.outbox.all OutboxRow.published, s.world.orders.map Order.status,
        s.world.reservedQty "phone", ((s.world.confirmed "phone").map Order.qty).sum)) =
      some ([], true, [.cancelled], 1, 0) := by
    decide +kernel
  obtain ⟨s, hs, heval⟩ := Option.map_eq_some_iff.1 hrun
  simp only [Prod.mk.injEq] at heval
  obtain ⟨hqueue, hpublished, hstatus, hreserved, hconfirmed⟩ := heval
  have hquiescent : s.Quiescent :=
    ⟨hqueue, fun row hrow => List.all_eq_true.1 hpublished row hrow⟩
  refine ⟨s, hs, hquiescent, hstatus, hreserved, fun hsettles => ?_⟩
  have hequal := (hsettles "phone").1
  rw [hreserved, hconfirmed] at hequal
  cases hequal

end Atomic

end FlashSale
