import FlashSale.System.Agreement

/-!
# Sold out

What it takes for an order to be cancelled because the inventory is unavailable,
and for its customer to be told that the item just sold out. The reason goes
through four services: a refused reservation, its event, the command that cancels
the order and the text of the notification.

A reservation that was turned away, for want of the lock or of a token, has the
same event as one that was refused for want of stock. When the saga takes no event
of the first kind (`Patient`), an order is sold out only if its stock was short
(`Atomic.sold_out_short`).
-/

namespace FlashSale

open SagaCoordinator NotificationService

/-! ## The texts -/

/-- What the customer reads when the item just sold out. -/
def soldOutMessage (orderId : OrderId) : String :=
  "Sorry, order " ++ orderId ++ " couldn't be completed -- that item just sold out."

theorem soldOutMessage_eq (orderId : OrderId) : soldOutMessage orderId =
    "Sorry, order " ++ orderId ++ " couldn't be completed -- that item just sold out." := rfl

theorem startsWith_paymentFailed (reason : String) :
    startsWith ("payment_failed:" ++ reason) "inventory_unavailable" = false := by
  rw [startsWith, String.toList_append]
  rfl

/-- Only a reason of the inventory is told as a sold out item. -/
theorem startsWith_of_soldOut {orderId : OrderId} {reason : String}
    (h : friendlyCancellationMessage orderId reason = soldOutMessage orderId) :
    startsWith reason "inventory_unavailable" = true := by
  rw [friendlyCancellationMessage, soldOutMessage_eq] at h
  split at h
  · rw [String.append_right_inj] at h
    exact absurd h (by decide)
  · split at h
    · assumption
    · simp only [String.append_assoc, String.append_right_inj] at h
      have hstart := congrArg (fun text => text.toList.take 2) h
      simp [String.toList_append] at hstart

theorem confirmation_ne_soldOut (event : OrderConfirmed) (orderId : OrderId) :
    (confirmation event).message ≠ soldOutMessage orderId := by
  intro h
  rw [confirmation, soldOutMessage_eq] at h
  simp only [String.append_assoc] at h
  have hstart := congrArg (fun text => text.toList.take 1) h
  simp [String.toList_append] at hstart

/-! ## The reasons -/

/-- The reasons that are not stored: the same order may be reserved later. -/
def Temporary (reason : String) : Prop :=
  reason = "rate_limited" ∨ reason = "lock_timeout"

instance (reason : String) : Decidable (Temporary reason) :=
  inferInstanceAs (Decidable (_ ∨ _))

/-- The SKU is unknown, or less than `qty` is available. -/
def World.Short (w : World) (sku : Sku) (qty : ℤ) : Prop :=
  w.items sku = none ∨ w.availableQty sku < qty

instance (w : World) (sku : Sku) (qty : ℤ) : Decidable (w.Short sku qty) :=
  inferInstanceAs (Decidable (_ ∨ _))

theorem World.not_short_iff {w : World} {sku : Sku} {qty : ℤ} :
    ¬w.Short sku qty ↔ ∃ item, w.items sku = some item ∧ qty ≤ item.available := by
  cases hitem : w.items sku with
  | none => simp [Short, hitem]
  | some item => simp [Short, availableQty, hitem]

/-- The delivery of the command decides on the stock: it has the lock and a token,
and no answer is stored. -/
def World.Decides (w : World) (cmd : ReserveInventory) (ω : Answers) : Prop :=
  ω.acquired = true ∧ ω.allowed = true ∧ w.reservations cmd.orderId = none

/-- The message has its reason: what it tells of a lack of stock is so by `D`. -/
def Message.Grounded (D : OrderId → Prop) : Message → Prop
  | inventoryReservationFailed event => Temporary event.reason ∨ D event.orderId
  | cancelOrder cmd => startsWith cmd.reason "inventory_unavailable" = true → D cmd.orderId
  | orderCancelled event =>
      startsWith event.reason "inventory_unavailable" = true → D event.orderId
  | _ => True

/-- All that is told of a lack of stock is so by `D`. -/
structure Refusals (D : OrderId → Prop) (w : World) : Prop where
  stored : ∀ orderId result, w.reservations orderId = some result → result.success = false →
    D orderId
  emitted : ∀ message ∈ w.emitted, message.Grounded D
  told : ∀ notification ∈ w.notifications,
    notification.message = soldOutMessage notification.orderId → D notification.orderId

/-- No saga that still waits for its reservation takes a refusal that is temporary. -/
def Patient (w : World) : Atomic.Action → Prop
  | .deliver (.inventoryReservationFailed event) _ =>
      (w.sagas event.orderId).map SagaRow.state = some .reserving → ¬Temporary event.reason
  | _ => True

/-- When the action decides on stock that is short, `D` holds of its order. -/
def Noted (D : OrderId → Prop) (w : World) : Atomic.Action → Prop
  | .deliver (.reserveInventory cmd) ω =>
      w.Decides cmd ω → w.Short cmd.sku cmd.qty → D cmd.orderId
  | _ => True

instance (w : World) (a : Atomic.Action) : Decidable (Patient w a) := by
  unfold Patient
  split <;> infer_instance

/-! ## Every change keeps the reasons -/

variable {D : OrderId → Prop} {w w' : World}

theorem refusals_empty : Refusals D World.empty where
  stored _ _ h := by cases h
  emitted _ h := by cases h
  told _ h := by cases h

/-- A change that stores no answer and notifies nobody. -/
theorem Refusals.emit (h : Refusals D w) (hreservations : w'.reservations = w.reservations)
    (hnotifications : w'.notifications = w.notifications) {message : Message}
    (hemitted : w'.emitted = w.emitted ++ [message]) (hmessage : message.Grounded D) :
    Refusals D w' where
  stored := by
    rw [hreservations]
    exact h.stored
  emitted m hm := by
    rw [hemitted, List.mem_append, List.mem_singleton] at hm
    rcases hm with hold | rfl
    · exact h.emitted m hold
    · exact hmessage
  told := by
    rw [hnotifications]
    exact h.told

/-- A change that emits nothing. -/
theorem Refusals.quiet (h : Refusals D w) (hreservations : w'.reservations = w.reservations)
    (hemitted : w'.emitted = w.emitted)
    (htold : ∀ notification ∈ w'.notifications, notification ∈ w.notifications ∨
      (notification.message = soldOutMessage notification.orderId → D notification.orderId)) :
    Refusals D w' where
  stored := by
    rw [hreservations]
    exact h.stored
  emitted := by
    rw [hemitted]
    exact h.emitted
  told notification hmem := by
    rcases htold notification hmem with hold | hnew
    · exact h.told notification hold
    · exact hnew

/-- The commands that cancel an order, and what the coordinator sends them for. -/
theorem transition_cancelOrder {message : Message} {saga : Option SagaRow} {write : SagaWrite}
    {cmd : CancelOrder} (h : transition message saga = .applied write (.cancelOrder cmd)) :
    (∃ event, message = .inventoryReservationFailed event ∧
        saga.map SagaRow.state = some .reserving ∧
        cmd = ⟨event.orderId, "inventory_unavailable:" ++ event.reason⟩) ∨
      ∃ reason, cmd.reason = "payment_failed:" ++ reason := by
  cases message with
  | orderCreated event =>
      cases saga with
      | none => cases h
      | some row => cases h
  | inventoryReservationFailed event =>
      obtain ⟨row, rfl, hstate, hrow⟩ := whenIn_eq_applied h
      cases hrow
      exact Or.inl ⟨event, rfl, congrArg some hstate, rfl⟩
  | inventoryReleased event =>
      obtain ⟨row, rfl, -, hrow⟩ := whenIn_eq_applied h
      cases hrow
      exact Or.inr ⟨_, rfl⟩
  | inventoryReserved event | paymentSucceeded event | paymentFailed event =>
      obtain ⟨row, rfl, -, hrow⟩ := whenIn_eq_applied h
      cases hrow
  | paymentRefunded | orderConfirmed | orderCancelled | reserveInventory
  | releaseInventory | chargePayment | refundPayment | confirmOrder | cancelOrder => cases h

/-- The command of an applied transition has its reason. -/
theorem Refusals.grounded_applied (h : Refusals D w) {message command : Message}
    (hmem : message ∈ w.emitted) {write : SagaWrite} {ω : Answers}
    (hpatient : Patient w (.deliver message ω))
    (ht : transition message (w.sagas message.orderId) = .applied write command) :
    command.Grounded D := by
  have hsender := transition_sender ht
  cases command with
  | cancelOrder cmd =>
      intro hstart
      rcases transition_cancelOrder ht with ⟨event, rfl, hstate, rfl⟩ | ⟨reason, hreason⟩
      · exact (h.emitted _ hmem).resolve_left (hpatient hstate)
      · rw [hreason, startsWith_paymentFailed] at hstart
        cases hstart
  | inventoryReservationFailed | orderCancelled => cases hsender
  | _ => trivial

/-- A reservation that is decided stores a refusal, or announces one, for want of
stock only. -/
theorem Refusals.reserve (h : Refusals D w) {cmd : ReserveInventory} {ω : Answers}
    (hnoted : Noted D w (.deliver (.reserveInventory cmd) ω))
    (hout : InventoryService.ReserveOutcome ω w cmd w') : Refusals D w' := by
  cases hout with
  | turnedAway reason hreason hturned =>
      refine h.emit rfl rfl (World.emitted_emit ..) (Or.inl ?_)
      rw [hreason]
      split
      · exact Or.inl rfl
      · exact Or.inr rfl
  | repeated result hacquired hcache =>
      refine h.emit rfl rfl (World.emitted_emit ..) ?_
      rw [InventoryService.reservationEvent]
      cases hsuccess : result.success with
      | true => trivial
      | false => exact Or.inr (h.stored _ _ hcache hsuccess)
  | refused reason hreason hacquired hallowed hcache hstock =>
      have hshort : w.Short cmd.sku cmd.qty := by
        cases hitem : w.items cmd.sku with
        | none => exact Or.inl hitem
        | some item =>
            right
            rw [World.availableQty_of_item hitem]
            exact hstock item hitem
      have hD : D cmd.orderId := hnoted ⟨hacquired, hallowed, hcache⟩ hshort
      refine ⟨fun orderId result hresult hfailed => ?_, fun m hm => ?_, h.told⟩
      · by_cases horder : orderId = cmd.orderId
        · exact horder ▸ hD
        · exact h.stored orderId result
            ((Function.update_of_ne horder ..).symm.trans hresult) hfailed
      · rw [World.emitted_emit, World.emitted_storeReservation, List.mem_append,
          List.mem_singleton] at hm
        rcases hm with hold | rfl
        · exact h.emitted m hold
        · exact Or.inr hD
  | moved item item' hacquired hallowed hcache hitem hqty havailable hreserved =>
      refine ⟨fun orderId result hresult hfailed => ?_, fun m hm => ?_, h.told⟩
      · by_cases horder : orderId = cmd.orderId
        · subst horder
          cases (Function.update_self ..).symm.trans hresult
          cases hfailed
        · exact h.stored orderId result
            ((Function.update_of_ne horder ..).symm.trans hresult) hfailed
      · rw [World.emitted_emit, World.emitted_setItem, World.emitted_storeReservation,
          List.mem_append, List.mem_singleton] at hm
        rcases hm with hold | rfl
        · exact h.emitted m hold
        · trivial

/-- Every change of a patient system keeps the reasons. -/
theorem refusals_change {a : Atomic.Action} (h : Refusals D w) (hpatient : Patient w a)
    (hnoted : Noted D w a) (hchange : Change w a w') : Refusals D w' := by
  cases hchange with
  | flags _ _ halike =>
      refine h.quiet halike.reservations halike.emitted fun notification hmem => Or.inl ?_
      exact halike.notifications ▸ hmem
  | placed _ req id _ => exact h.emit rfl rfl (emitted_concat rfl) trivial
  | seeded _ sku item qty _ _ => exact h.quiet rfl rfl fun _ hmem => Or.inl hmem
  | handled message ω _ hmem hhandled =>
      cases hhandled with
      | nothing => exact h
      | applied _ command write row ht hw =>
          exact h.emit rfl rfl (World.emitted_emit ..) (h.grounded_applied hmem hpatient ht)
      | reserve cmd _ hout => exact h.reserve hnoted hout
      | release cmd _ hout =>
          cases hout with
          | repeated => exact h.emit rfl rfl (World.emitted_emit ..) trivial
          | missing => exact h.emit rfl rfl (World.emitted_emit ..) trivial
          | released => exact h.emit rfl rfl (World.emitted_emit ..) trivial
      | repeated cmd cached hcache =>
          refine h.emit rfl rfl (World.emitted_emit ..) ?_
          rw [PaymentService.eventFromCachedCharge]
          split <;> trivial
      | charged cmd hcache hid =>
          refine h.emit rfl rfl (World.emitted_emit ..) ?_
          rw [PaymentService.chargeEvent]
          split <;> trivial
      | called cmd hcache => exact h.quiet rfl rfl fun _ hmem => Or.inl hmem
      | confirmed cmd order hfind => exact h.emit rfl rfl (World.emitted_emit ..) trivial
      | cancelled cmd order hfind =>
          exact h.emit rfl rfl (World.emitted_emit ..)
            fun hstart => h.emitted (.cancelOrder cmd) hmem hstart
      | notifiedConfirmed event =>
          refine h.quiet rfl rfl fun notification hnew => ?_
          rcases List.mem_append.1 hnew with hold | hlast
          · exact Or.inl hold
          · rw [List.mem_singleton.1 hlast]
            exact Or.inr fun htext => absurd htext (confirmation_ne_soldOut event _)
      | notifiedCancelled event =>
          refine h.quiet rfl rfl fun notification hnew => ?_
          rcases List.mem_append.1 hnew with hold | hlast
          · exact Or.inl hold
          · rw [List.mem_singleton.1 hlast]
            exact Or.inr fun htext => h.emitted _ hmem (startsWith_of_soldOut htext)

/-! ## Every run -/

/-- The order is cancelled because the inventory is unavailable, or its customer is
told that the item just sold out. -/
def World.SoldOut (w : World) (orderId : OrderId) : Prop :=
  (∃ reason, startsWith reason "inventory_unavailable" = true ∧
    (.cancelOrder ⟨orderId, reason⟩ ∈ w.emitted ∨ .orderCancelled ⟨orderId, reason⟩ ∈ w.emitted)) ∨
  ∃ notification ∈ w.notifications, notification.orderId = orderId ∧
    notification.message = soldOutMessage orderId

theorem Refusals.of_soldOut (h : Refusals D w) {orderId : OrderId} (hsold : w.SoldOut orderId) :
    D orderId := by
  rcases hsold with ⟨reason, hstart, hcancel | hevent⟩ | ⟨notification, hmem, rfl, htext⟩
  · exact h.emitted _ hcancel hstart
  · exact h.emitted _ hevent hstart
  · exact h.told notification hmem htext

namespace Atomic

/-- At some moment of the run the command was decided, and the stock was short. -/
def DecidedShort (actions : List Action) (cmd : ReserveInventory) : Prop :=
  ∃ before ω after s, actions = before ++ .deliver (.reserveInventory cmd) ω :: after ∧
    Schedule.run step start before = some s ∧ s.world.Decides cmd ω ∧
    s.world.Short cmd.sku cmd.qty

/-- The command that was decided stays emitted. -/
theorem DecidedShort.emitted {s : Atomic} {actions : List Action} {cmd : ReserveInventory}
    (h : DecidedShort actions cmd) (hrun : Schedule.run step start actions = some s) :
    .reserveInventory cmd ∈ s.world.emitted := by
  obtain ⟨before, ω, after, t, rfl, hbefore, -⟩ := h
  obtain ⟨u, hu, hrest⟩ := Schedule.run_append_eq_some.1 hrun
  cases hbefore.symm.trans hu
  have hinv := inv_of_run hbefore
  refine emitted_of_run hinv hrest ?_
  obtain ⟨v, hstep, -⟩ := Schedule.run_cons_eq_some.1 hrest
  simp only [step, Option.ite_none_right_eq_some] at hstep
  exact hinv.queued _ hstep.1.1

/-- When no saga takes a temporary refusal as final, an order is sold out only if
its reservation was decided while the SKU was unknown or less was available than
ordered. -/
theorem sold_out_short {s : Atomic} {actions : List Action}
    (halong : Schedule.Along step (fun s a => Patient s.world a) start actions)
    (hrun : Schedule.run step start actions = some s) {orderId : OrderId}
    (h : s.world.SoldOut orderId) :
    ∃ order ∈ s.world.orders, order.id = orderId ∧
      DecidedShort actions ⟨order.id, order.sku, order.qty⟩ := by
  have hnoted : Schedule.Along step (fun s a =>
      Noted (fun o => ∃ cmd, cmd.orderId = o ∧ DecidedShort actions cmd) s.world a)
      start actions := by
    refine Schedule.along_of_forall_prefix fun before a after t hsplit _ hbefore => ?_
    cases a with
    | deliver message ω =>
        cases message with
        | reserveInventory cmd =>
            intro hdecides hshort
            exact ⟨cmd, rfl, before, ω, after, t, hsplit, hbefore, hdecides, hshort⟩
        | _ => trivial
    | _ => trivial
  obtain ⟨hinv, hrefusals⟩ := world_preserves refusals_empty
    (P := fun w a => Patient w a ∧
      Noted (fun o => ∃ cmd, cmd.orderId = o ∧ DecidedShort actions cmd) w a)
    (fun _ _ _ _ _ hrefusals hboth hchange =>
      refusals_change hrefusals hboth.1 hboth.2 hchange) (halong.and hnoted) hrun
  obtain ⟨cmd, rfl, hshort⟩ := hrefusals.of_soldOut h
  have hcausal : Causal s.world := hinv.causal
  obtain ⟨order, horder, rfl⟩ := hcausal.order_of_reserve (hshort.emitted hrun)
  exact ⟨order, horder, rfl, hshort⟩

/-- An order for three pieces, of which there is one. -/
def outOfStock : List Action :=
  [.seed ⟨"phone", 1, Int.one_pos⟩ System.granting,
    .checkout ⟨"user-1", "phone", 3, 100, by decide, System.onePhone.amountCents_pos⟩
      System.granting] ++
  passed 0 (.orderCreated ⟨"id-1", "phone", 3, "user-1", 100⟩) System.granting ++
  passed 1 (.reserveInventory ⟨"id-1", "phone", 3⟩) System.granting ++
  passed 2 (.inventoryReservationFailed ⟨"id-1", "phone", 3, "insufficient_stock"⟩)
    System.granting ++
  passed 3 (.cancelOrder ⟨"id-1", "inventory_unavailable:insufficient_stock"⟩) System.granting ++
  passed 4 (.orderCancelled ⟨"id-1", "inventory_unavailable:insufficient_stock"⟩) System.granting

theorem sold_out_short_outOfStock : ∃ s, Schedule.run step start outOfStock = some s ∧
    ∃ order ∈ s.world.orders, order.id = "id-1" ∧
      DecidedShort outOfStock ⟨order.id, order.sku, order.qty⟩ := by
  have hrun : (Schedule.run step start outOfStock).map (fun s =>
      s.world.notifications.map fun n => (n.orderId, n.message)) =
        some [("id-1", soldOutMessage "id-1")] := by
    decide +kernel
  obtain ⟨s, hs, htold⟩ := Option.map_eq_some_iff.1 hrun
  have hmem : ("id-1", soldOutMessage "id-1") ∈
      s.world.notifications.map fun n => (n.orderId, n.message) := htold ▸ List.mem_singleton_self _
  obtain ⟨notification, hnotification, heq⟩ := List.mem_map.1 hmem
  obtain ⟨horder, hmessage⟩ := Prod.mk.inj heq
  exact ⟨s, hs, sold_out_short (by decide +kernel) hs
    (Or.inr ⟨notification, hnotification, horder, hmessage⟩)⟩

/-- A delivery of the reservation command finds enough stock. -/
def Ample (w : World) : Action → Prop
  | .deliver (.reserveInventory cmd) _ => ¬w.Short cmd.sku cmd.qty
  | _ => True

instance (w : World) (a : Action) : Decidable (Ample w a) := by
  unfold Ample
  split <;> infer_instance

theorem not_decidedShort {actions : List Action}
    (halong : Schedule.Along step (fun s a => Ample s.world a) start actions)
    (cmd : ReserveInventory) : ¬DecidedShort actions cmd := by
  rintro ⟨before, ω, after, s, rfl, hbefore, -, hshort⟩
  have htail := (Schedule.along_append.1 halong).2 s hbefore
  exact htail.1 hshort

/-- The limiter has no token left. -/
def limiting : Answers := { System.granting with allowed := false }

/-- There are ten pieces, and the only order finds no token. -/
def limited : List Action :=
  [.seed System.tenPhones System.granting, .checkout System.onePhone System.granting] ++
  passed 0 (.orderCreated ⟨"id-1", "phone", 1, "user-1", 100⟩) System.granting ++
  passed 1 (.reserveInventory ⟨"id-1", "phone", 1⟩) limiting ++
  passed 2 (.inventoryReservationFailed ⟨"id-1", "phone", 1, "rate_limited"⟩) System.granting ++
  passed 3 (.cancelOrder ⟨"id-1", "inventory_unavailable:rate_limited"⟩) System.granting ++
  passed 4 (.orderCancelled ⟨"id-1", "inventory_unavailable:rate_limited"⟩) System.granting

/-- Its customer is told that the item just sold out, with ten pieces available
all the time. -/
theorem sold_out_limited : ∃ s, Schedule.run step start limited = some s ∧
    s.world.availableQty "phone" = 10 ∧
    .orderCancelled ⟨"id-1", "inventory_unavailable:rate_limited"⟩ ∈ s.world.emitted ∧
    s.world.notifications.map Notification.message = [soldOutMessage "id-1"] ∧
    ∀ cmd, ¬DecidedShort limited cmd := by
  have hrun : (Schedule.run step start limited).map (fun s =>
      (s.world.availableQty "phone",
        decide (.orderCancelled ⟨"id-1", "inventory_unavailable:rate_limited"⟩ ∈ s.world.emitted),
        s.world.notifications.map Notification.message)) =
      some (10, true, [soldOutMessage "id-1"]) := by
    decide +kernel
  obtain ⟨s, hs, heval⟩ := Option.map_eq_some_iff.1 hrun
  obtain ⟨havailable, hrest⟩ := Prod.mk.inj heval
  obtain ⟨hcancelled, htold⟩ := Prod.mk.inj hrest
  exact ⟨s, hs, havailable, of_decide_eq_true hcancelled, htold,
    not_decidedShort (by decide +kernel)⟩

end Atomic

end FlashSale
