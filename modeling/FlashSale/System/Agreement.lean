import FlashSale.InventoryService.Books
import FlashSale.System.Atomic

/-!
# The services agree

What the coordinator decides about an order agrees with what the payment and the
inventory service have recorded for it. The books of the inventory service are
kept in every run of the whole system (`books_change`), because the commands that
reach it carry the line of their order and a release comes after a reservation;
`Charges` links the payment rows, their idempotency entries and the events.
-/

namespace FlashSale

open SagaCoordinator

/-! ## Orders and commands -/

theorem Causal.findOrder_of_mem {w : World} (h : Causal w) {order : Order}
    (horder : order ∈ w.orders) : w.findOrder order.id = some order := by
  cases hfind : w.findOrder order.id with
  | none =>
      rw [World.findOrder, List.find?_eq_none] at hfind
      exact absurd (decide_eq_true rfl) (hfind order horder)
  | some found =>
      have hmem : found ∈ w.orders := List.mem_of_find?_eq_some hfind
      have hid := World.findOrder_id hfind
      exact congrArg some (List.inj_on_of_nodup_map h.ids hmem horder hid)

/-- The order from which a saga was started. -/
theorem Causal.order_of_traced {w : World} (h : Causal w) {orderId : OrderId}
    {created : OrderCreated} {p : Path} (hx : Traced w orderId (some (created, p))) :
    ∃ order ∈ w.orders, order.created = created ∧ order.id = orderId := by
  obtain ⟨order, horder, hcreated⟩ := h.ordered created (hx.created _ rfl)
  refine ⟨order, horder, hcreated, ?_⟩
  rw [← hx.agrees.id _ rfl, ← hcreated]
  rfl

/-- An emitted command of the coordinator, with its order and the path of its
saga. -/
theorem Causal.of_command {w : World} (h : Causal w) {command : Message}
    (hmem : command ∈ w.emitted) (hsender : command.sender = .saga) :
    ∃ order ∈ w.orders, ∃ p, order.id = command.orderId ∧
      Traced w command.orderId (some (order.created, p)) ∧ command ∈ p.commands order.created := by
  obtain ⟨x, hx⟩ := h.traced command.orderId
  obtain ⟨⟨created, p⟩, hy, hcommand⟩ := h.command hmem hsender hx
  cases hy
  obtain ⟨order, horder, rfl, hid⟩ := h.order_of_traced hx
  exact ⟨order, horder, p, hid, hx, hcommand⟩

theorem mem_reservedOrders {w : World} {orderId : OrderId} :
    orderId ∈ w.reservedOrders ↔ ∃ sku qty, .inventoryReserved ⟨orderId, sku, qty⟩ ∈ w.emitted := by
  rw [World.reservedOrders, List.mem_toFinset, List.mem_filterMap]
  constructor
  · rintro ⟨message, hmem, horder⟩
    cases message with
    | inventoryReserved event =>
        cases horder
        exact ⟨_, _, hmem⟩
    | _ => cases horder
  · rintro ⟨sku, qty, hmem⟩
    exact ⟨_, hmem, rfl⟩

theorem mem_releasedOrders {w : World} {orderId : OrderId} :
    orderId ∈ w.releasedOrders ↔ ∃ sku qty, .inventoryReleased ⟨orderId, sku, qty⟩ ∈ w.emitted := by
  rw [World.releasedOrders, List.mem_toFinset, List.mem_filterMap]
  constructor
  · rintro ⟨message, hmem, horder⟩
    cases message with
    | inventoryReleased event =>
        cases horder
        exact ⟨_, _, hmem⟩
    | _ => cases horder
  · rintro ⟨sku, qty, hmem⟩
    exact ⟨_, hmem, rfl⟩

/-- A saga that got to CHARGING was told of a reservation. -/
theorem SagaCoordinator.Path.Taken.reserved {p : Path} {orderId : OrderId} {w : World}
    (h : p.Taken orderId w.emitted) (hcharging : SagaState.charging ∈ p.states) :
    orderId ∈ w.reservedOrders := by
  cases p with
  | reserving | cancelledUnreserved => simp [Path.states] at hcharging
  | charging => exact mem_reservedOrders.2 h
  | confirmed => exact mem_reservedOrders.2 h.1
  | compensating => exact mem_reservedOrders.2 h.1
  | cancelledUnpaid => exact mem_reservedOrders.2 h.1

/-- Nothing is released for a saga that has not come to COMPENSATING. -/
theorem Traced.not_released {w : World} {orderId : OrderId} {created : OrderCreated} {p : Path}
    (h : Traced w orderId (some (created, p))) (hstates : SagaState.compensating ∉ p.states) :
    orderId ∉ w.releasedOrders := by
  intro hmem
  obtain ⟨sku, qty, hevent⟩ := mem_releasedOrders.1 hmem
  obtain ⟨y, hy, hvisited⟩ := h.caused _ hevent rfl .compensating rfl
  cases hy
  exact hstates hvisited

/-! ## The books -/

/-- What the order is for. -/
def World.line (w : World) (orderId : OrderId) : InventoryService.Line :=
  match w.findOrder orderId with
  | some order => if h : 0 < order.qty then ⟨order.sku, order.qty, h⟩ else ⟨"", 1, Int.one_pos⟩
  | none => ⟨"", 1, Int.one_pos⟩

theorem Causal.line_eq {w : World} (h : Causal w) {order : Order} (horder : order ∈ w.orders) :
    w.line order.id = ⟨order.sku, order.qty, h.positive order horder⟩ := by
  rw [World.line, h.findOrder_of_mem horder]
  exact dif_pos (h.positive order horder)

theorem World.line_congr {w w' : World} (h : w'.orders = w.orders) : w'.line = w.line := by
  funext orderId
  rw [line, line, findOrder, findOrder, h]

theorem World.line_settle (w : World) (orderId : OrderId) (status : OrderStatus) :
    (w.settle orderId status).line = w.line := by
  funext other
  rw [line, line, findOrder_settle]
  cases w.findOrder other with
  | none => rfl
  | some order =>
      rw [Option.map_some, Order.settle]
      by_cases hid : order.id = orderId
      · rw [if_pos hid]
      · rw [if_neg hid]

/-- The reservation commands are for what their order is for. -/
theorem Causal.order_of_reserve {w : World} (h : Causal w) {cmd : ReserveInventory}
    (hmem : .reserveInventory cmd ∈ w.emitted) :
    ∃ order ∈ w.orders, cmd = ⟨order.id, order.sku, order.qty⟩ := by
  obtain ⟨order, horder, p, -, -, hcommand⟩ := h.of_command hmem rfl
  refine ⟨order, horder, ?_⟩
  cases p <;> simpa [Path.commands, Order.created] using hcommand

/-- So are the commands to charge and to release. -/
theorem Causal.order_of_charge {w : World} (h : Causal w) {cmd : ChargePayment}
    (hmem : .chargePayment cmd ∈ w.emitted) :
    ∃ order ∈ w.orders, cmd = ⟨order.id, order.userId, order.amountCents⟩ := by
  obtain ⟨order, horder, p, -, -, hcommand⟩ := h.of_command hmem rfl
  refine ⟨order, horder, ?_⟩
  cases p <;> simp [Path.commands, Order.created] at hcommand <;> exact hcommand

theorem Causal.order_of_release {w : World} (h : Causal w) {cmd : ReleaseInventory}
    (hmem : .releaseInventory cmd ∈ w.emitted) :
    ∃ order ∈ w.orders, cmd = ⟨order.id, order.sku, order.qty⟩ := by
  obtain ⟨order, horder, p, -, -, hcommand⟩ := h.of_command hmem rfl
  refine ⟨order, horder, ?_⟩
  cases p <;> simp [Path.commands, Order.created] at hcommand <;> exact hcommand

theorem Causal.line_reserve {w : World} (h : Causal w) {cmd : ReserveInventory}
    (hmem : .reserveInventory cmd ∈ w.emitted) :
    cmd.sku = (w.line cmd.orderId).sku ∧ cmd.qty = (w.line cmd.orderId).qty := by
  obtain ⟨order, horder, rfl⟩ := h.order_of_reserve hmem
  rw [h.line_eq horder]
  exact ⟨rfl, rfl⟩

/-- The release commands are too, and their orders were reserved. -/
theorem Causal.line_release {w : World} (h : Causal w) {cmd : ReleaseInventory}
    (hmem : .releaseInventory cmd ∈ w.emitted) :
    (cmd.sku = (w.line cmd.orderId).sku ∧ cmd.qty = (w.line cmd.orderId).qty) ∧
      cmd.orderId ∈ w.reservedOrders := by
  obtain ⟨order, horder, p, hid, hx, hcommand⟩ := h.of_command hmem rfl
  have hcmd : cmd = ⟨order.id, order.sku, order.qty⟩ ∧ SagaState.charging ∈ p.states := by
    cases p <;> simp [Path.commands, Order.created, Path.states] at hcommand ⊢ <;> exact hcommand
  obtain ⟨rfl, hcharging⟩ := hcmd
  refine ⟨?_, (hx.taken _ rfl).reserved hcharging⟩
  rw [h.line_eq horder]
  exact ⟨rfl, rfl⟩

/-- A change that concerns neither the stock nor the reservations. -/
theorem InventoryService.Inv.quiet {line : OrderId → Line} {w w' : World} (h : Inv line w)
    (hitems : w'.items = w.items) (hmoves : w'.moves = w.moves) (hseeded : w'.seeded = w.seeded)
    (hreservations : w'.reservations = w.reservations) (hreleases : w'.releases = w.releases)
    (hemitted : w'.emitted = w.emitted ∨
      ∃ message, w'.emitted = w.emitted ++ [message] ∧ message.sender ≠ .inventory) :
    Inv line w' := by
  have hsets : w'.reservedOrders = w.reservedOrders ∧ w'.releasedOrders = w.releasedOrders := by
    rw [World.reservedOrders, World.releasedOrders, World.reservedOrders, World.releasedOrders]
    rcases hemitted with hsame | ⟨message, hnew, hsender⟩
    · rw [hsame]
      exact ⟨rfl, rfl⟩
    · have hnone : message.reservedOrder = none ∧ message.releasedOrder = none := by
        cases message <;> first | exact absurd rfl hsender | exact ⟨rfl, rfl⟩
      simp [hnew, List.filterMap_append, hnone]
  refine h.congr hitems hmoves hseeded hsets.1 hsets.2 (fun o => ?_) hreleases
  rw [World.Succeeded, World.Succeeded, hreservations]

theorem Causal.findOrder_of_reserved {w : World} (h : Causal w) {orderId : OrderId}
    (hmem : orderId ∈ w.reservedOrders) : (w.findOrder orderId).isSome = true := by
  obtain ⟨sku, qty, hevent⟩ := mem_reservedOrders.1 hmem
  obtain ⟨x, hx⟩ := h.traced orderId
  obtain ⟨⟨created, p⟩, rfl, -⟩ := hx.caused _ hevent rfl .reserving rfl
  obtain ⟨order, horder, -, rfl⟩ := h.order_of_traced hx
  rw [h.findOrder_of_mem horder]
  rfl

/-- Every step of the whole system keeps the books of the inventory service. -/
theorem books_change {w w' : World} {a : Atomic.Action} (hcausal : Causal w)
    (h : InventoryService.Inv w.line w) (hchange : Change w a w') :
    InventoryService.Inv w'.line w' := by
  cases hchange with
  | flags _ _ halike =>
      rw [World.line_congr halike.orders]
      exact h.quiet halike.items halike.moves halike.seeded halike.reservations halike.releases
        (Or.inl halike.emitted)
  | placed _ req id hfresh =>
      have hplaced : InventoryService.Inv w.line (w.place (req.order id)
          (.orderCreated (req.event id))) :=
        h.quiet rfl rfl rfl rfl rfl
          (Or.inr ⟨_, emitted_concat rfl, by simp [Message.sender]⟩)
      refine hplaced.congr_line fun o ho => ?_
      have hold : o ∈ w.reservedOrders := by
        obtain ⟨sku, qty, hmem⟩ := mem_reservedOrders.1 ho
        rw [emitted_concat (w := w) rfl, List.mem_append, List.mem_singleton] at hmem
        exact mem_reservedOrders.2 ⟨sku, qty, hmem.resolve_right (by simp)⟩
      obtain ⟨order, hfind⟩ := Option.isSome_iff_exists.1 (hcausal.findOrder_of_reserved hold)
      have hfind' : (w.place (req.order id) (.orderCreated (req.event id))).findOrder o =
          some order := by
        rw [World.findOrder] at hfind ⊢
        rw [World.place_orders, List.find?_append, hfind]
        rfl
      rw [World.line, World.line, hfind, hfind']
  | seeded _ sku item qty havailable hreserved => exact h.seed havailable hreserved
  | handled message ω _ hmem hhandled =>
      cases hhandled with
      | nothing => exact h
      | applied _ command write row ht hw =>
          refine h.quiet rfl rfl rfl rfl rfl (Or.inr ⟨command, World.emitted_emit .., ?_⟩)
          rw [transition_sender ht]
          decide
      | reserve cmd _ hout =>
          have hline := hcausal.line_reserve hmem
          have horders : w'.orders = w.orders := by cases hout <;> rfl
          rw [World.line_congr horders]
          exact (h.reserve hline hout).1
      | release cmd _ hout =>
          obtain ⟨hline, hreserved⟩ := hcausal.line_release hmem
          have horders : w'.orders = w.orders := by cases hout <;> rfl
          rw [World.line_congr horders]
          exact (h.release hline hreserved hout).1
      | repeated cmd cached hcache =>
          refine h.quiet rfl rfl rfl rfl rfl (Or.inr ⟨_, World.emitted_emit .., ?_⟩)
          rw [PaymentService.eventFromCachedCharge]
          split <;> simp [Message.sender]
      | charged cmd hcache hid =>
          refine h.quiet rfl rfl rfl rfl rfl (Or.inr ⟨_, World.emitted_emit .., ?_⟩)
          rw [PaymentService.chargeEvent]
          split <;> simp [Message.sender]
      | called cmd hcache => exact h.quiet rfl rfl rfl rfl rfl (Or.inl rfl)
      | confirmed cmd order hfind =>
          have hline := w.line_settle cmd.orderId .confirmed
          exact hline.symm ▸ h.quiet rfl rfl rfl rfl rfl
            (Or.inr ⟨_, World.emitted_emit .., by simp [Message.sender]⟩)
      | cancelled cmd order hfind =>
          have hline := w.line_settle cmd.orderId .cancelled
          exact hline.symm ▸ h.quiet rfl rfl rfl rfl rfl
            (Or.inr ⟨_, World.emitted_emit .., by simp [Message.sender]⟩)
      | notifiedConfirmed event => exact h.quiet rfl rfl rfl rfl rfl (Or.inl rfl)
      | notifiedCancelled event => exact h.quiet rfl rfl rfl rfl rfl (Or.inl rfl)

/-- The books are kept in every state that the system reaches. -/
theorem Atomic.books_of_run {s : Atomic} {actions : List Action}
    (hrun : Schedule.run step start actions = some s) :
    InventoryService.Inv s.world.line s.world :=
  (world_invariant (I := fun w => InventoryService.Inv w.line w) InventoryService.inv_empty
    (fun _ _ _ hcausal _ hbooks hchange => books_change hcausal hbooks hchange) hrun).2

/-! ## The charges -/

/-- The status of the payment that the event tells. -/
def Message.paymentStatus : Message → Option PaymentStatus
  | paymentSucceeded _ => some .succeeded
  | paymentFailed _ => some .failed
  | _ => none

/-- The one payment row of an order, made for an emitted command. -/
structure Paid (w : World) (orderId : OrderId) (row : Payment) : Prop where
  payments : w.paymentsOf orderId = [row]
  entry : w.chargeResults orderId = some (PaymentService.cachePayload row)
  status : row.status ≠ .refunded
  commanded : ∃ cmd, .chargePayment cmd ∈ w.emitted ∧ cmd.orderId = orderId ∧
    row.userId = cmd.userId ∧ row.amountCents = cmd.amountCents

/-- What links the payment rows, their entries and the events. -/
structure Charges (w : World) : Prop where
  rows : ∀ orderId, w.paymentsOf orderId = [] ∧ w.chargeResults orderId = none ∨
    ∃ row, Paid w orderId row
  told : ∀ event ∈ w.emitted, ∀ status, event.paymentStatus = some status →
    ∃ row, Paid w event.orderId row ∧ row.status = status

theorem charges_empty : Charges World.empty :=
  ⟨fun _ => Or.inl ⟨rfl, rfl⟩, fun event hevent => by cases hevent⟩

theorem Paid.mono {w w' : World} {orderId : OrderId} {row : Payment} (h : Paid w orderId row)
    (hpayments : w'.paymentsOf orderId = w.paymentsOf orderId)
    (hentry : w'.chargeResults orderId = w.chargeResults orderId)
    (hsub : w.emitted ⊆ w'.emitted) : Paid w' orderId row where
  payments := hpayments.trans h.payments
  entry := hentry.trans h.entry
  status := h.status
  commanded := by
    obtain ⟨cmd, hmem, hrest⟩ := h.commanded
    exact ⟨cmd, hsub hmem, hrest⟩

/-- A change that concerns no payment row and no entry; an event it adds tells
what a row tells. -/
theorem Charges.quiet {w w' : World} (h : Charges w) (hpayments : w'.payments = w.payments)
    (hentries : w'.chargeResults = w.chargeResults)
    (hemitted : w'.emitted = w.emitted ∨ ∃ message, w'.emitted = w.emitted ++ [message] ∧
      ∀ status, message.paymentStatus = some status →
        ∃ row, Paid w message.orderId row ∧ row.status = status) : Charges w' := by
  have hsub : w.emitted ⊆ w'.emitted := by
    rcases hemitted with hsame | ⟨message, hnew, -⟩
    · rw [hsame]
      exact List.Subset.refl _
    · rw [hnew]
      exact List.subset_append_left _ _
  have hpaid {orderId : OrderId} {row : Payment} (hrow : Paid w orderId row) :
      Paid w' orderId row :=
    hrow.mono (by rw [World.paymentsOf, hpayments, World.paymentsOf]) (by rw [hentries]) hsub
  refine ⟨fun orderId => ?_, fun event hevent status hstatus => ?_⟩
  · rw [World.paymentsOf, hpayments, hentries]
    exact (h.rows orderId).imp_right fun ⟨row, hrow⟩ => ⟨row, hpaid hrow⟩
  · have htold : ∃ row, Paid w event.orderId row ∧ row.status = status := by
      rcases hemitted with hsame | ⟨message, hnew, hmessage⟩
      · exact h.told event (hsame ▸ hevent) status hstatus
      · rw [hnew, List.mem_append, List.mem_singleton] at hevent
        rcases hevent with hold | rfl
        · exact h.told event hold status hstatus
        · exact hmessage status hstatus
    obtain ⟨row, hrow, hsame⟩ := htold
    exact ⟨row, hpaid hrow, hsame⟩

/-- The stored answer is announced again. -/
theorem Charges.repeated {w : World} (h : Charges w) {orderId : OrderId} {cached : CachedCharge}
    (hcache : w.chargeResults orderId = some cached) :
    Charges (w.emit .payment (PaymentService.eventFromCachedCharge orderId cached)) := by
  refine h.quiet rfl rfl (Or.inr ⟨_, World.emitted_emit .., fun status hstatus => ?_⟩)
  rcases h.rows orderId with ⟨-, hnone⟩ | ⟨row, hrow⟩
  · cases hcache.symm.trans hnone
  · cases hcache.symm.trans hrow.entry
    rw [PaymentService.eventFromCachedCharge] at hstatus ⊢
    by_cases hsucceeded : (PaymentService.cachePayload row).status = .succeeded
    · rw [if_pos hsucceeded] at hstatus ⊢
      cases hstatus
      exact ⟨row, hrow, hsucceeded⟩
    · rw [if_neg hsucceeded] at hstatus ⊢
      cases hstatus
      refine ⟨row, hrow, ?_⟩
      cases hrefunded : row.status with
      | succeeded => exact absurd hrefunded hsucceeded
      | failed => rfl
      | refunded => exact absurd hrefunded hrow.status

section

open PaymentService

variable {w : World} {cmd : ChargePayment} {ω : Answers}

/-- The world after a charge that went through. -/
def World.afterCharge (w : World) (cmd : ChargePayment) (ω : Answers) : World :=
  (PaymentService.recorded w cmd ω).storeCharge cmd.orderId (cachePayload (row cmd ω))

theorem emitted_afterCharge (w : World) (cmd : ChargePayment) (ω : Answers) :
    (w.afterCharge cmd ω).emitted = w.emitted ++ [chargeEvent cmd ω.gateway ω.newId] :=
  World.emitted_emit ..

theorem paymentsOf_afterCharge_self (w : World) (cmd : ChargePayment) (ω : Answers) :
    (w.afterCharge cmd ω).paymentsOf cmd.orderId = w.paymentsOf cmd.orderId ++ [row cmd ω] := by
  show (w.payments ++ [row cmd ω]).filter _ = w.payments.filter _ ++ _
  rw [List.filter_append]
  simp [row, payment]

theorem paymentsOf_afterCharge_of_ne {orderId : OrderId} (hne : orderId ≠ cmd.orderId) :
    (w.afterCharge cmd ω).paymentsOf orderId = w.paymentsOf orderId := by
  show (w.payments ++ [row cmd ω]).filter _ = w.payments.filter _
  rw [List.filter_append]
  simp [row, payment, Ne.symm hne]

theorem chargeResults_afterCharge_of_ne {orderId : OrderId} (hne : orderId ≠ cmd.orderId) :
    (w.afterCharge cmd ω).chargeResults orderId = w.chargeResults orderId :=
  Function.update_of_ne hne ..

/-- The row that a charge adds has the status that its event tells. -/
theorem status_of_chargeEvent {status : PaymentStatus}
    (h : (chargeEvent cmd ω.gateway ω.newId).paymentStatus = some status) :
    (row cmd ω).status = status := by
  rw [chargeEvent] at h
  cases hsuccess : ω.gateway.success with
  | true =>
      rw [hsuccess] at h
      cases h
      simp [row, payment, hsuccess]
  | false =>
      rw [hsuccess] at h
      cases h
      simp [row, payment, hsuccess]

/-- The answer of the gateway is recorded, announced and stored. -/
theorem Charges.charged (h : Charges w) (hmem : .chargePayment cmd ∈ w.emitted)
    (hcache : w.chargeResults cmd.orderId = none) : Charges (w.afterCharge cmd ω) := by
  have hnone : w.paymentsOf cmd.orderId = [] := by
    rcases h.rows cmd.orderId with ⟨hnil, -⟩ | ⟨row, hrow⟩
    · exact hnil
    · cases hcache.symm.trans hrow.entry
  have hsub : w.emitted ⊆ (w.afterCharge cmd ω).emitted := by
    rw [emitted_afterCharge]
    exact List.subset_append_left _ _
  have hpaid : Paid (w.afterCharge cmd ω) cmd.orderId (row cmd ω) := by
    refine ⟨?_, Function.update_self .., ?_, cmd, hsub hmem, rfl, rfl, rfl⟩
    · rw [paymentsOf_afterCharge_self, hnone]
      rfl
    · cases hsuccess : ω.gateway.success <;> simp [row, payment, hsuccess]
  have hother {orderId : OrderId} {row : Payment} (hne : orderId ≠ cmd.orderId)
      (hrow : Paid w orderId row) : Paid (w.afterCharge cmd ω) orderId row :=
    hrow.mono (paymentsOf_afterCharge_of_ne hne) (chargeResults_afterCharge_of_ne hne) hsub
  refine ⟨fun orderId => ?_, fun event hevent status hstatus => ?_⟩
  · by_cases hne : orderId = cmd.orderId
    · rw [hne]
      exact Or.inr ⟨_, hpaid⟩
    · rw [paymentsOf_afterCharge_of_ne hne, chargeResults_afterCharge_of_ne hne]
      exact (h.rows orderId).imp_right fun ⟨row, hrow⟩ => ⟨row, hother hne hrow⟩
  · rw [emitted_afterCharge, List.mem_append, List.mem_singleton] at hevent
    rcases hevent with hold | rfl
    · obtain ⟨row, hrow, hsame⟩ := h.told event hold status hstatus
      have hne : event.orderId ≠ cmd.orderId := by
        intro heq
        rw [heq] at hrow
        cases hnone.symm.trans hrow.payments
      exact ⟨row, hother hne hrow, hsame⟩
    · refine ⟨row cmd ω, ?_, status_of_chargeEvent hstatus⟩
      rw [chargeEvent]
      split <;> exact hpaid

end

/-- Every step of the whole system keeps the link. -/
theorem charges_change {w w' : World} {a : Atomic.Action} (h : Charges w)
    (hchange : Change w a w') : Charges w' := by
  -- A message that tells of no payment is added.
  have hsilent {v : World} {message : Message} (hpayments : v.payments = w.payments)
      (hentries : v.chargeResults = w.chargeResults) (hemitted : v.emitted = w.emitted ++ [message])
      (hstatus : message.paymentStatus = none) : Charges v :=
    h.quiet hpayments hentries
      (Or.inr ⟨message, hemitted, fun status hsome => by cases hstatus.symm.trans hsome⟩)
  cases hchange with
  | flags _ _ halike => exact h.quiet halike.payments halike.chargeResults (Or.inl halike.emitted)
  | placed _ req id _ => exact hsilent rfl rfl (emitted_concat rfl) rfl
  | seeded _ sku item qty _ _ => exact h.quiet rfl rfl (Or.inl rfl)
  | handled message ω _ hmem hhandled =>
      cases hhandled with
      | nothing => exact h
      | applied _ command write row ht hw =>
          refine hsilent rfl rfl (World.emitted_emit ..) ?_
          have hsender := transition_sender ht
          cases command <;> first | rfl | cases hsender
      | reserve cmd _ hout =>
          cases hout with
          | turnedAway => exact hsilent rfl rfl (World.emitted_emit ..) rfl
          | repeated result =>
              refine hsilent rfl rfl (World.emitted_emit ..) ?_
              rw [InventoryService.reservationEvent]
              split <;> rfl
          | refused => exact hsilent rfl rfl (World.emitted_emit ..) rfl
          | moved => exact hsilent rfl rfl (World.emitted_emit ..) rfl
      | release cmd _ hout =>
          cases hout with
          | repeated => exact hsilent rfl rfl (World.emitted_emit ..) rfl
          | missing => exact hsilent rfl rfl (World.emitted_emit ..) rfl
          | released => exact hsilent rfl rfl (World.emitted_emit ..) rfl
      | repeated cmd cached hcache => exact h.repeated hcache
      | charged cmd hcache hid => exact h.charged hmem hcache
      | called cmd hcache => exact h.quiet rfl rfl (Or.inl rfl)
      | confirmed cmd order hfind => exact hsilent rfl rfl (World.emitted_emit ..) rfl
      | cancelled cmd order hfind => exact hsilent rfl rfl (World.emitted_emit ..) rfl
      | notifiedConfirmed event => exact h.quiet rfl rfl (Or.inl rfl)
      | notifiedCancelled event => exact h.quiet rfl rfl (Or.inl rfl)

theorem Atomic.charges_of_run {s : Atomic} {actions : List Action}
    (hrun : Schedule.run step start actions = some s) : Charges s.world :=
  (world_invariant charges_empty
    (fun _ _ _ _ _ hcharges hchange => charges_change hcharges hchange) hrun).2

/-! ## Agreement -/

/-- What the services have recorded for an order agrees with what was decided. -/
structure Agreement (w : World) : Prop where
  commands : ∀ orderId reason, .confirmOrder ⟨orderId⟩ ∈ w.emitted →
    .cancelOrder ⟨orderId, reason⟩ ∉ w.emitted
  confirmed : ∀ order ∈ w.orders, order.status = .confirmed →
    (∃ row, w.paymentsOf order.id = [row] ∧ row.status = .succeeded ∧
      row.userId = order.userId ∧ row.amountCents = order.amountCents) ∧
      w.movesOf order.id = [⟨order.id, order.sku, order.qty⟩]
  cancelled : ∀ order ∈ w.orders, order.status = .cancelled →
    ∀ row ∈ w.paymentsOf order.id, row.status ≠ .succeeded

/-- The saga of an order that was decided has ended in the state of its status. -/
theorem Causal.decided {w : World} (h : Causal w) {order : Order} (horder : order ∈ w.orders)
    (hstatus : order.status ≠ .pending) :
    ∃ p, Traced w order.id (some (order.created, p)) ∧
      ((order.status = .confirmed ∧ p.state = .confirmed) ∨
        (order.status = .cancelled ∧ p.state = .cancelled)) := by
  obtain ⟨command, hmem, hsender, hid, hcommand⟩ := h.commanded order horder hstatus
  obtain ⟨found, hfound, p, hfoundId, hx, hpath⟩ := h.of_command hmem hsender
  have hsame : found = order :=
    List.inj_on_of_nodup_map h.ids hfound horder (hfoundId.trans hid)
  rw [hid, hsame] at hx
  exact ⟨p, hx, Path.state_of_status hpath hcommand⟩

/-- The row of an order tells its own user and amount. -/
theorem Paid.own {w : World} (hcausal : Causal w) {order : Order} (horder : order ∈ w.orders)
    {row : Payment} (h : Paid w order.id row) :
    row.userId = order.userId ∧ row.amountCents = order.amountCents := by
  obtain ⟨cmd, hmem, hid, huser, hamount⟩ := h.commanded
  obtain ⟨found, hfound, p, hfoundId, -, hpath⟩ := hcausal.of_command hmem rfl
  have hsame : found = order :=
    List.inj_on_of_nodup_map hcausal.ids hfound horder (hfoundId.trans hid)
  have hcmd : cmd = ⟨found.id, found.userId, found.amountCents⟩ := by
    cases p <;> simp [Path.commands, Order.created] at hpath <;> exact hpath
  rw [huser, hamount, hcmd, hsame]
  exact ⟨rfl, rfl⟩

theorem Causal.confirmed_path {w : World} (h : Causal w) {order : Order} (horder : order ∈ w.orders)
    (hstatus : order.status = .confirmed) :
    ∃ paymentId, Traced w order.id (some (order.created, .confirmed paymentId)) := by
  obtain ⟨p, hx, ⟨-, hstate⟩ | ⟨hcancelled, -⟩⟩ := h.decided horder (hstatus ▸ by decide)
  · cases p with
    | confirmed paymentId => exact ⟨paymentId, hx⟩
    | _ => cases hstate
  · cases hstatus.symm.trans hcancelled

/-- A CONFIRMED order holds its pieces. -/
theorem Causal.held_of_confirmed {w : World} (h : Causal w) {order : Order}
    (horder : order ∈ w.orders) (hstatus : order.status = .confirmed) :
    order.id ∈ w.reservedOrders ∧ order.id ∉ w.releasedOrders := by
  obtain ⟨paymentId, hx⟩ := h.confirmed_path horder hstatus
  exact ⟨(hx.taken _ rfl).reserved (by simp [Path.states]), hx.not_released (by simp [Path.states])⟩

theorem agreement_confirmed {w : World} (hcausal : Causal w)
    (hbooks : InventoryService.Inv w.line w) (hcharges : Charges w) {order : Order}
    (horder : order ∈ w.orders) (hstatus : order.status = .confirmed) :
    (∃ row, w.paymentsOf order.id = [row] ∧ row.status = .succeeded ∧
      row.userId = order.userId ∧ row.amountCents = order.amountCents) ∧
      w.movesOf order.id = [⟨order.id, order.sku, order.qty⟩] := by
  constructor
  · obtain ⟨paymentId, hx⟩ := hcausal.confirmed_path horder hstatus
    obtain ⟨-, amountCents, hsucceeded⟩ := hx.taken _ rfl
    obtain ⟨row, hrow, hpaid⟩ := hcharges.told _ hsucceeded .succeeded rfl
    exact ⟨row, hrow.payments, hpaid, hrow.own hcausal horder⟩
  · obtain ⟨hreserved, hreleased⟩ := hcausal.held_of_confirmed horder hstatus
    rw [hbooks.moves, if_pos hreserved, if_neg hreleased, hcausal.line_eq horder]
    rfl

theorem agreement_cancelled {w : World} (hcausal : Causal w) (hcharges : Charges w)
    {order : Order} (horder : order ∈ w.orders) (hstatus : order.status = .cancelled) :
    ∀ row ∈ w.paymentsOf order.id, row.status ≠ .succeeded := by
  intro row hrow
  obtain ⟨p, hx, ⟨hconfirmed, -⟩ | ⟨-, hstate⟩⟩ := hcausal.decided horder (hstatus ▸ by decide)
  · cases hstatus.symm.trans hconfirmed
  · rcases hcharges.rows order.id with ⟨hnil, -⟩ | ⟨paid, hpaid⟩
    · rw [hnil] at hrow
      cases hrow
    · rw [hpaid.payments, List.mem_singleton] at hrow
      subst hrow
      cases p with
      | cancelledUnpaid reason =>
          -- The payment has failed, and there is no other row.
          obtain ⟨-, hfailed, -⟩ := hx.taken _ rfl
          obtain ⟨failed, hrow, hstatus⟩ := hcharges.told _ hfailed .failed rfl
          cases hpaid.payments.symm.trans hrow.payments
          rw [hstatus]
          decide
      | cancelledUnreserved reason =>
          -- Nothing was ever charged for the order.
          obtain ⟨cmd, hmem, hid, -⟩ := hpaid.commanded
          obtain ⟨y, hy, hpath⟩ := hcausal.command hmem rfl
            (show Traced w cmd.orderId _ from hid.symm ▸ hx)
          cases hy
          simp [Path.commands] at hpath
      | _ => cases hstate

/-- In every state that the system reaches, the services agree about every order. -/
theorem Atomic.agreement {s : Atomic} {actions : List Action}
    (hrun : Schedule.run step start actions = some s) : Agreement s.world := by
  have hcausal : Causal s.world := (inv_of_run hrun).causal
  have hbooks := books_of_run hrun
  have hcharges := charges_of_run hrun
  refine ⟨fun orderId reason hconfirm hcancel => ?_, fun order horder => ?_,
    fun order horder => ?_⟩
  · cases hcausal.status_unique hconfirm hcancel rfl rfl rfl rfl rfl
  · exact agreement_confirmed hcausal hbooks hcharges horder
  · exact agreement_cancelled hcausal hcharges horder

/-- One order from the checkout to the notification, each message delivered once. -/
def Atomic.sold : List Action :=
  [.seed System.tenPhones System.granting, .checkout System.onePhone System.granting] ++
  passed 0 (.orderCreated ⟨"id-1", "phone", 1, "user-1", 100⟩) System.granting ++
  passed 1 (.reserveInventory ⟨"id-1", "phone", 1⟩) System.granting ++
  passed 2 (.inventoryReserved ⟨"id-1", "phone", 1⟩) System.granting ++
  passed 3 (.chargePayment ⟨"id-1", "user-1", 100⟩) System.granting ++
  passed 4 (.paymentSucceeded ⟨"id-1", "id-1", 100⟩) System.granting ++
  passed 5 (.confirmOrder ⟨"id-1"⟩) System.granting ++
  passed 6 (.orderConfirmed ⟨"id-1"⟩) System.granting

theorem Atomic.agreement_sold : ∃ s, Schedule.run step start sold = some s ∧
    s.world.orders.map Order.status = [.confirmed] ∧ Agreement s.world := by
  have hrun : (Schedule.run step start sold).map (fun s => s.world.orders.map Order.status) =
      some [.confirmed] := by
    decide +kernel
  obtain ⟨s, hs, hstatus⟩ := Option.map_eq_some_iff.1 hrun
  exact ⟨s, hs, hstatus, agreement hs⟩

end FlashSale
