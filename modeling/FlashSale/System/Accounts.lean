import FlashSale.System.Notices
import FlashSale.System.Settlement

/-!
# What is sold and what is charged

`Ledger` says that the payment rows record the calls made to the gateway, one row
for each call, in their order. With `Agreement` it follows that a CONFIRMED order
was charged once, with its own amount, that nobody was charged for an order that
is cancelled, and that the successful calls of a system at rest are those for the
CONFIRMED orders. In no state is more sold than was seeded.

A charge whose row is rejected is called again, so the keys of the payment rows
are assumed to be fresh (`Fresh`).
-/

namespace FlashSale

/-- The call of the gateway that a payment row records. -/
def Payment.call (row : Payment) : ChargeCall where
  orderId := row.orderId
  userId := row.userId
  amountCents := row.amountCents
  success := row.status = .succeeded

/-- The call that takes the money for an order. -/
def Order.taken (order : Order) : ChargeCall where
  orderId := order.id
  userId := order.userId
  amountCents := order.amountCents
  success := true

theorem Payment.call_payment (cmd : ChargePayment) (result : GatewayResult) (id : PaymentId) :
    (PaymentService.payment cmd result id).call =
      ⟨cmd.orderId, cmd.userId, cmd.amountCents, result.success⟩ := by
  cases hsuccess : result.success <;> simp [PaymentService.payment, Payment.call, hsuccess]

/-- The payment rows record the calls of the gateway. -/
def Ledger (w : World) : Prop := w.charges = w.payments.map Payment.call

theorem Ledger.congr {w w' : World} (h : Ledger w) (hcharges : w'.charges = w.charges)
    (hpayments : w'.payments = w.payments) : Ledger w' := by
  rw [Ledger, hcharges, hpayments]
  exact h

theorem Ledger.chargesOf {w : World} (h : Ledger w) (orderId : OrderId) :
    w.chargesOf orderId = (w.paymentsOf orderId).map Payment.call := by
  rw [World.chargesOf, World.paymentsOf, h, List.filter_map]
  rfl

/-- A charge that goes through is recorded as it was answered. -/
theorem Ledger.charged {w : World} (h : Ledger w) (cmd : ChargePayment) (ω : Answers) :
    Ledger (w.afterCharge cmd ω) := by
  show w.charges ++ [_] = (w.payments ++ [PaymentService.row cmd ω]).map Payment.call
  rw [List.map_append, ← h]
  rw [List.map_singleton, PaymentService.row, Payment.call_payment]

/-! ## The calls for one order -/

section

variable {w : World}

/-- The rows of an order are at most one, made for the order itself. -/
theorem Charges.own_of_mem (hcausal : Causal w) (h : Charges w) {row : Payment}
    (hrow : row ∈ w.payments) :
    w.paymentsOf row.orderId = [row] ∧ ∃ order ∈ w.orders, order.id = row.orderId ∧
      row.userId = order.userId ∧ row.amountCents = order.amountCents := by
  have hmem : row ∈ w.paymentsOf row.orderId :=
    List.mem_filter.2 ⟨hrow, decide_eq_true rfl⟩
  rcases h.rows row.orderId with ⟨hnil, -⟩ | ⟨paid, hpaid⟩
  · rw [hnil] at hmem
    cases hmem
  · rw [hpaid.payments, List.mem_singleton] at hmem
    subst hmem
    obtain ⟨cmd, hcommand, hid, -⟩ := hpaid.commanded
    obtain ⟨order, horder, -, horderId, -⟩ := hcausal.of_command hcommand rfl
    have heq : order.id = row.orderId := horderId.trans hid
    exact ⟨hpaid.payments, order, horder, heq, (heq ▸ hpaid).own hcausal horder⟩

theorem Ledger.length_le (h : Ledger w) (hcharges : Charges w) (orderId : OrderId) :
    (w.chargesOf orderId).length ≤ 1 := by
  rw [h.chargesOf, List.length_map]
  rcases hcharges.rows orderId with ⟨hnil, -⟩ | ⟨row, hrow⟩
  · rw [hnil]
    exact Nat.zero_le 1
  · rw [hrow.payments]
    exact Nat.le_refl 1

/-- A CONFIRMED order was charged once, with its own amount. -/
theorem Ledger.of_confirmed (h : Ledger w) (hcausal : Causal w)
    (hbooks : InventoryService.Inv w.line w) (hcharges : Charges w) {order : Order}
    (horder : order ∈ w.orders) (hstatus : order.status = .confirmed) :
    w.chargesOf order.id = [order.taken] := by
  obtain ⟨⟨row, hrow, hsucceeded, huser, hamount⟩, -⟩ :=
    agreement_confirmed hcausal hbooks hcharges horder hstatus
  have hmem : row ∈ w.paymentsOf order.id := hrow ▸ List.mem_singleton_self row
  have hid : row.orderId = order.id := of_decide_eq_true (List.mem_filter.1 hmem).2
  rw [h.chargesOf, hrow, List.map_singleton, Payment.call, hid, huser, hamount, hsucceeded]
  rfl

/-- Nobody was charged for an order that is cancelled. -/
theorem Ledger.of_cancelled (h : Ledger w) (hcausal : Causal w) (hcharges : Charges w)
    {order : Order} (horder : order ∈ w.orders) (hstatus : order.status = .cancelled) :
    ∀ call ∈ w.chargesOf order.id, call.success = false := by
  intro call hcall
  rw [h.chargesOf] at hcall
  obtain ⟨row, hrow, rfl⟩ := List.mem_map.1 hcall
  exact decide_eq_false (agreement_cancelled hcausal hcharges horder hstatus row hrow)

theorem Ledger.exists_order (h : Ledger w) (hcausal : Causal w) (hcharges : Charges w)
    {call : ChargeCall} (hcall : call ∈ w.charges) :
    ∃ order ∈ w.orders, call = { order.taken with success := call.success } := by
  rw [h] at hcall
  obtain ⟨row, hrow, rfl⟩ := List.mem_map.1 hcall
  obtain ⟨-, order, horder, hid, huser, hamount⟩ := hcharges.own_of_mem hcausal hrow
  refine ⟨order, horder, ?_⟩
  rw [Payment.call, Order.taken, hid, huser, hamount]

theorem Ledger.nodup (h : Ledger w) (hcharges : Charges w) : w.charges.Nodup := by
  rw [List.nodup_iff_count_le_one]
  intro call
  calc w.charges.count call
      ≤ w.charges.countP fun other => other.orderId = call.orderId :=
        List.countP_mono_left fun other _ heq => by simp_all
    _ = (w.chargesOf call.orderId).length := List.countP_eq_length_filter
    _ ≤ 1 := h.length_le hcharges call.orderId

/-- Once every order is closed, the successful calls are those for the CONFIRMED
orders. -/
theorem Ledger.perm_taken (h : Ledger w) (hcausal : Causal w)
    (hbooks : InventoryService.Inv w.line w) (hcharges : Charges w)
    (hclosed : ∀ order ∈ w.orders, System.Closed w order) :
    (w.charges.filter ChargeCall.success).Perm
      ((w.orders.filter fun order => order.status = .confirmed).map Order.taken) := by
  have hids : ((w.orders.filter fun order => order.status = .confirmed).map Order.id).Nodup :=
    hcausal.ids.sublist (List.filter_sublist.map Order.id)
  have htaken : ((w.orders.filter fun order => order.status = .confirmed).map
      Order.taken).Nodup := by
    refine List.Nodup.of_map ChargeCall.orderId ?_
    rw [List.map_map]
    exact hids
  refine (List.perm_ext_iff_of_nodup ((h.nodup hcharges).filter _) htaken).2 fun call => ?_
  rw [List.mem_filter, List.mem_map]
  constructor
  · rintro ⟨hcall, hsuccess⟩
    obtain ⟨order, horder, heq⟩ := h.exists_order hcausal hcharges hcall
    rw [hsuccess] at heq
    obtain ⟨row, -, ⟨hstatus, -⟩ | ⟨hstatus, -⟩⟩ := hclosed order horder
    · exact ⟨order, List.mem_filter.2 ⟨horder, decide_eq_true hstatus⟩, heq.symm⟩
    · have hmem : call ∈ w.chargesOf order.id :=
        List.mem_filter.2 ⟨hcall, decide_eq_true (congrArg ChargeCall.orderId heq)⟩
      cases hsuccess.symm.trans (h.of_cancelled hcausal hcharges horder hstatus call hmem)
  · rintro ⟨order, hmem, rfl⟩
    obtain ⟨horder, hstatus⟩ := List.mem_filter.1 hmem
    have hcalls := h.of_confirmed hcausal hbooks hcharges horder (of_decide_eq_true hstatus)
    have hcall : order.taken ∈ w.chargesOf order.id := hcalls ▸ List.mem_singleton_self _
    exact ⟨List.mem_of_mem_filter hcall, rfl⟩

end

namespace Atomic

/-- A charge draws a key that no payment row has. -/
def Fresh (s : Atomic) : Action → Prop
  | .deliver (.chargePayment _) ω => ω.newId ∉ s.world.payments.map Payment.id
  | _ => True

instance (s : Atomic) (a : Action) : Decidable (Fresh s a) :=
  match a with
  | .checkout _ _ | .seed _ _ | .publish _ | .mark _ => isTrue trivial
  | .deliver message _ =>
      match message with
      | .chargePayment _ => inferInstanceAs (Decidable (_ ∉ _))
      | .orderCreated _ | .inventoryReserved _ | .inventoryReservationFailed _
      | .inventoryReleased _ | .paymentSucceeded _ | .paymentFailed _ | .paymentRefunded _
      | .orderConfirmed _ | .orderCancelled _ | .reserveInventory _ | .releaseInventory _
      | .refundPayment _ | .confirmOrder _ | .cancelOrder _ => isTrue trivial

theorem ledger_step {s s' : Atomic} {a : Action} (hinv : s.toSystem.Inv) (h : Ledger s.world)
    (hfresh : Fresh s a) (hstep : s.step a = some s') : Ledger s'.world := by
  cases a with
  | checkout req ω =>
      cases hstep
      rcases OrderService.request_checkout ω s.world req with ⟨hsame, -⟩ | ⟨-, hplace⟩
      · exact hsame.symm ▸ h
      · exact hplace.symm ▸ h.congr rfl rfl
  | seed req ω =>
      cases hstep
      obtain ⟨item, -, -, hrun⟩ := InventoryService.run_seedInventory ω s.world req
      exact World.request_of_completes hrun ▸ h.congr rfl rfl
  | publish n =>
      simp only [step, Option.map_eq_some_iff] at hstep
      obtain ⟨row, -, rfl⟩ := hstep
      exact h.congr rfl rfl
  | mark n =>
      simp only [step, Option.bind_eq_some_iff, Option.ite_none_right_eq_some] at hstep
      obtain ⟨row, -, -, hs⟩ := hstep
      cases hs
      exact h.congr rfl rfl
  | deliver message ω =>
      simp only [step, Option.ite_none_right_eq_some, Option.some.injEq] at hstep
      obtain ⟨⟨hmem, -⟩, rfl⟩ := hstep
      have hemitted : message ∈ s.world.emitted := hinv.queued message hmem
      have hhandled := handled ω s.world fun cmd => hinv.causal.ne_refundPayment hemitted cmd
      show Ledger (s.world.request message.handler ω)
      by_cases hcharge : ∃ cmd, message = .chargePayment cmd
      · obtain ⟨cmd, rfl⟩ := hcharge
        rcases PaymentService.run_handleCharge ω s.world cmd with ⟨_, -, -, hrun⟩ |
          ⟨-, -, -, hrun⟩ | ⟨-, ⟨-, hsame⟩ | ⟨-, htaken, -⟩⟩
        · exact (World.request_of_completes hrun).symm ▸ h.congr rfl rfl
        · exact (World.request_of_completes hrun).symm ▸ h.charged cmd ω
        · have hrequest : s.world.request (Message.chargePayment cmd).handler ω = s.world := hsame
          exact hrequest.symm ▸ h
        · exact absurd htaken hfresh
      · generalize s.world.request message.handler ω = w' at hhandled ⊢
        cases hhandled with
        | repeated cmd | charged cmd | called cmd => exact absurd ⟨cmd, rfl⟩ hcharge
        | reserve cmd _ hout => cases hout <;> exact h.congr rfl rfl
        | release cmd _ hout => cases hout <;> exact h.congr rfl rfl
        | nothing => exact h
        | applied | confirmed | cancelled | notifiedConfirmed | notifiedCancelled =>
            exact h.congr rfl rfl

theorem ledger_of_run {s : Atomic} {actions : List Action}
    (hfresh : Schedule.Along step Fresh start actions)
    (hrun : Schedule.run step start actions = some s) : Ledger s.world := by
  have hstart : start.toSystem.Inv ∧ Ledger start.world := ⟨System.inv_start, rfl⟩
  have hkept : s.toSystem.Inv ∧ Ledger s.world := by
    refine Schedule.run_preserves (I := fun s : Atomic => s.toSystem.Inv ∧ Ledger s.world) ?_
      hstart hfresh hrun
    rintro s a s' ⟨hinv, h⟩ ha hstep
    exact ⟨inv_step hinv hstep, ledger_step hinv h ha hstep⟩
  exact hkept.2

/-! ## Every reachable state -/

/-- **The money is right.** Every order is charged at most once; a CONFIRMED order
with its own amount, and a cancelled one, or one whose customer was told so, not at
all. At rest, the successful calls are exactly those for the CONFIRMED orders. -/
theorem money_of_run {s : Atomic} {actions : List Action}
    (hfresh : Schedule.Along step Fresh start actions)
    (hrun : Schedule.run step start actions = some s) :
    (∀ orderId, (s.world.chargesOf orderId).length ≤ 1) ∧
      (∀ order ∈ s.world.orders,
        (order.status = .confirmed → s.world.chargesOf order.id = [order.taken]) ∧
        (order.status = .cancelled →
          ∀ call ∈ s.world.chargesOf order.id, call.success = false)) ∧
      (∀ notification ∈ s.world.notifications, notification.notificationType = .orderCancelled →
        ∀ call ∈ s.world.chargesOf notification.orderId, call.success = false) ∧
      (s.Quiescent → (s.world.charges.filter ChargeCall.success).Perm
        ((s.world.orders.filter fun order => order.status = .confirmed).map Order.taken)) := by
  have hledger := ledger_of_run hfresh hrun
  have hcharges := charges_of_run hrun
  have hbooks := books_of_run hrun
  obtain ⟨calls, hcalls⟩ := exists_run hrun
  obtain ⟨hinv, hnotices⟩ := System.notices_of_run hcalls
  have hcausal : Causal s.world := hinv.causal
  refine ⟨hledger.length_le hcharges, fun order horder => ⟨?_, ?_⟩, ?_, fun hquiescent => ?_⟩
  · exact hledger.of_confirmed hcausal hbooks hcharges horder
  · exact hledger.of_cancelled hcausal hcharges horder
  · intro notification hmem htype
    obtain ⟨event, hevent, hnotification⟩ := hnotices.origin notification hmem
    obtain ⟨⟨order, horder, hid⟩, htells⟩ :=
      System.tells_of_notification hcausal hevent hnotification
    rcases htells order horder hid with ⟨-, rfl⟩ | ⟨hstatus, -⟩
    · cases htype
    · exact hid ▸ hledger.of_cancelled hcausal hcharges horder hstatus
  · exact hledger.perm_taken hcausal hbooks hcharges fun order horder =>
      hinv.closed_of_quiescent hquiescent.toSystem horder

/-- **Nothing is oversold**: the pieces of the CONFIRMED orders are reserved, and no
more is ever reserved than was seeded. -/
theorem sales_of_run {s : Atomic} {actions : List Action}
    (hrun : Schedule.run step start actions = some s) (sku : Sku) :
    ((s.world.confirmed sku).map Order.qty).sum ≤ s.world.reservedQty sku ∧
      s.world.reservedQty sku ≤ s.world.seeded sku := by
  have hcausal : Causal s.world := (inv_of_run hrun).causal
  have hbooks := books_of_run hrun
  constructor
  · rw [hcausal.sum_confirmed, hbooks.reserved]
    exact Finset.sum_le_sum_of_subset_of_nonneg (hcausal.confirmed_subset_held sku)
      fun orderId _ _ => (s.world.line orderId).qty_pos.le
  · have havailable := s.world.availableQty_nonneg sku
    have htotal := hbooks.total sku
    omega

/-- The answers for the second order: its card is declined. -/
def declining : Answers := ⟨true, true, ⟨false, "ref-2", some "card_declined"⟩, "id-2"⟩

/-- Two phones are ordered. The first is sold, and its charge is delivered twice;
the second is not paid for. -/
def soldAndDeclined : List Action :=
  [.seed System.tenPhones System.granting, .checkout System.onePhone System.granting,
    .checkout System.onePhone declining] ++
  passed 0 (.orderCreated ⟨"id-1", "phone", 1, "user-1", 100⟩) System.granting ++
  passed 1 (.orderCreated ⟨"id-2", "phone", 1, "user-1", 100⟩) System.granting ++
  passed 2 (.reserveInventory ⟨"id-1", "phone", 1⟩) System.granting ++
  passed 3 (.reserveInventory ⟨"id-2", "phone", 1⟩) System.granting ++
  passed 4 (.inventoryReserved ⟨"id-1", "phone", 1⟩) System.granting ++
  passed 5 (.inventoryReserved ⟨"id-2", "phone", 1⟩) System.granting ++
  passed 6 (.chargePayment ⟨"id-1", "user-1", 100⟩) System.granting ++
  passed 7 (.chargePayment ⟨"id-2", "user-1", 100⟩) declining ++
  [.publish 6, .deliver (.chargePayment ⟨"id-1", "user-1", 100⟩)
    { System.granting with newId := "id-3" }] ++
  passed 8 (.paymentSucceeded ⟨"id-1", "id-1", 100⟩) System.granting ++
  passed 9 (.paymentFailed ⟨"id-2", "card_declined"⟩) System.granting ++
  passed 10 (.paymentSucceeded ⟨"id-1", "id-1", 100⟩) System.granting ++
  passed 11 (.confirmOrder ⟨"id-1"⟩) System.granting ++
  passed 12 (.releaseInventory ⟨"id-2", "phone", 1⟩) System.granting ++
  passed 13 (.orderConfirmed ⟨"id-1"⟩) System.granting ++
  passed 14 (.inventoryReleased ⟨"id-2", "phone", 1⟩) System.granting ++
  passed 15 (.cancelOrder ⟨"id-2", "payment_failed:card_declined"⟩) System.granting ++
  passed 16 (.orderCancelled ⟨"id-2", "payment_failed:card_declined"⟩) System.granting

theorem money_soldAndDeclined : ∃ s, Schedule.run step start soldAndDeclined = some s ∧
    s.Quiescent ∧ s.world.charges.length = 2 ∧ s.world.notifications.length = 2 ∧
    (∀ orderId, (s.world.chargesOf orderId).length ≤ 1) ∧
    (∀ notification ∈ s.world.notifications, notification.notificationType = .orderCancelled →
      ∀ call ∈ s.world.chargesOf notification.orderId, call.success = false) ∧
    (s.world.charges.filter ChargeCall.success).Perm
      ((s.world.orders.filter fun order => order.status = .confirmed).map Order.taken) := by
  have hrun : (Schedule.run step start soldAndDeclined).map (fun s =>
      (s.queue, s.world.outbox.all OutboxRow.published, s.world.charges.length,
        s.world.notifications.length)) = some ([], true, 2, 2) := by
    decide +kernel
  obtain ⟨s, hs, heval⟩ := Option.map_eq_some_iff.1 hrun
  simp only [Prod.mk.injEq] at heval
  obtain ⟨hqueue, hpublished, hcharges, hnotifications⟩ := heval
  have hquiescent : s.Quiescent :=
    ⟨hqueue, fun row hrow => List.all_eq_true.1 hpublished row hrow⟩
  obtain ⟨honce, -, htold, hperm⟩ := money_of_run (by decide +kernel) hs
  exact ⟨s, hs, hquiescent, hcharges, hnotifications, honce, htold, hperm hquiescent⟩

theorem sales_soldAndDeclined : ∃ s, Schedule.run step start soldAndDeclined = some s ∧
    ((s.world.confirmed "phone").map Order.qty).sum = 1 ∧ s.world.seeded "phone" = 10 ∧
    ((s.world.confirmed "phone").map Order.qty).sum ≤ s.world.reservedQty "phone" ∧
    s.world.reservedQty "phone" ≤ s.world.seeded "phone" := by
  have hrun : (Schedule.run step start soldAndDeclined).map (fun s =>
      (((s.world.confirmed "phone").map Order.qty).sum, s.world.seeded "phone")) =
        some (1, 10) := by
    decide +kernel
  obtain ⟨s, hs, heval⟩ := Option.map_eq_some_iff.1 hrun
  obtain ⟨hsold, hseeded⟩ := Prod.mk.inj heval
  exact ⟨s, hs, hsold, hseeded, sales_of_run hs "phone"⟩

end Atomic

end FlashSale
