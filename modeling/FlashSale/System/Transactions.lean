import FlashSale.InventoryService.Outcome
import FlashSale.PaymentService.Outcome
import FlashSale.System.Causality

/-!
# The transaction of a delivery

Every consumer but the coordinator comes to a commit on all of its paths, and
what it commits is: statements that no other service sees, and then the answer
to its command, or the status and its announcement, or a notification (`Closes`).

`exec_of_fits` says what one call does to the parts of the world that `Causal`
is about: nothing, or the transaction of the delivery.
-/

namespace FlashSale

open SagaCoordinator

/-- The statement touches no order, no saga and no outbox. -/
def Write.silent : Write → Bool
  | .insertItem _ _ => true
  | .setAvailable _ _ _ => true
  | .updateItem _ _ _ _ => true
  | .insertPayment _ => true
  | .setPaymentStatus _ _ => true
  | .insertNotification _ => true
  | _ => false

/-- The statements with which the transaction of a delivery ends. -/
inductive Closes (message : Message) : List Write → Prop
  | answer (event : Message) (hans : message.Answers event) (hsaga : event.sender ≠ .saga)
      (horder : event.sender ≠ .order) : Closes message [.outbox event.sender event]
  | settle (event : Message) (status : OrderStatus) (hstatus : message.status = some status)
      (hans : message.Answers event) (hsender : event.sender = .order)
      (hevent : event.status = some status) :
      Closes message [.setOrderStatus message.orderId status, .outbox .order event]
  | notify (notification : Notification) (h : message.consumer = some .notification) :
      Closes message [.insertNotification notification]

/-- A call that fits the delivery of the message. -/
def Effect.Fits (message : Message) : Effect → Prop
  | .selectOrder orderId => orderId = message.orderId ∧ message.sender = .saga
  | .flush writes => ∀ x ∈ writes, x.silent = true
  | .flushNew row => ∀ id, (row id).silent = true
  | .commit writes => Closes message writes
  | _ => True

/-- The call finds the order that it looks for. -/
def Effect.Finds : (e : Effect) → e.Answer → Prop
  | .selectOrder orderId, answer => ∃ order, answer = some order ∧ order.id = orderId
  | _, _ => True

/-- The program commits before it returns, and makes no call that does not fit. -/
def Handler.Commits (message : Message) (p : Handler Unit) : Prop :=
  p.Reaches Effect.Finds (Effect.Fits message) fun e => e.isCommit = true ∧ e.Fits message

/-- The program makes no call that does not fit. -/
def Handler.Fits (message : Message) (p : Handler Unit) : Prop :=
  p.Only Effect.Finds (Effect.Fits message)

/-! ## The handlers -/

theorem Message.sender_of_answers {command event : Message} (h : command.Answers event) :
    command.sender = .saga := by
  cases command <;> cases event <;> first | rfl | exact absurd h (by simp [Answers])

theorem Handler.Commits.call {message : Message} {e : Effect} {k : e.Answer → Handler Unit}
    (he : e.Fits message) (hk : ∀ r, e.Finds r → Handler.Commits message (k r)) :
    Handler.Commits message (.call e k) := Prog.Reaches.of_benign he hk

theorem Handler.Commits.commit {message : Message} {writes : List Write}
    {k : Unit → Handler Unit} (h : Closes message writes) (hk : Handler.Fits message (k ())) :
    Handler.Commits message (.call (.commit writes) k) :=
  Prog.Reaches.of_target ⟨rfl, h⟩ fun _ _ => hk

section Handlers

open InventoryService PaymentService

theorem closes_reservationEvent (cmd : ReserveInventory) (result : ReservationResult) :
    Closes (.reserveInventory cmd) [.outbox .inventory (reservationEvent cmd result)] := by
  rw [reservationEvent]
  split
  · exact .answer (.inventoryReserved _) rfl (by simp [Message.sender]) (by simp [Message.sender])
  · exact .answer (.inventoryReservationFailed _) rfl (by simp [Message.sender])
      (by simp [Message.sender])

theorem closes_released (cmd : ReleaseInventory) :
    Closes (.releaseInventory cmd)
      [.outbox .inventory (.inventoryReleased ⟨cmd.orderId, cmd.sku, cmd.qty⟩)] :=
  .answer (.inventoryReleased _) rfl (by simp [Message.sender]) (by simp [Message.sender])

theorem closes_chargeEvent (cmd : ChargePayment) (result : GatewayResult) (id : PaymentId) :
    Closes (.chargePayment cmd) [.outbox .payment (chargeEvent cmd result id)] := by
  rw [chargeEvent]
  split
  · exact .answer (.paymentSucceeded _) rfl (by simp [Message.sender]) (by simp [Message.sender])
  · exact .answer (.paymentFailed _) rfl (by simp [Message.sender]) (by simp [Message.sender])

theorem closes_cachedCharge (cmd : ChargePayment) (cached : CachedCharge) :
    Closes (.chargePayment cmd) [.outbox .payment (eventFromCachedCharge cmd.orderId cached)] := by
  rw [eventFromCachedCharge]
  split
  · exact .answer (.paymentSucceeded _) rfl (by simp [Message.sender]) (by simp [Message.sender])
  · exact .answer (.paymentFailed _) rfl (by simp [Message.sender]) (by simp [Message.sender])

theorem commits_announce (cmd : ReserveInventory) (result : ReservationResult) :
    Handler.Commits (.reserveInventory cmd) (announce cmd result) :=
  .call trivial fun _ _ => .commit (closes_reservationEvent cmd result) trivial

theorem commits_conclude (cmd : ReserveInventory) (outcome : ReservationResult) :
    Handler.Commits (.reserveInventory cmd) (conclude cmd outcome) :=
  .call trivial fun _ _ => commits_announce cmd outcome

theorem commits_handleReserve (cmd : ReserveInventory) :
    Handler.Commits (.reserveInventory cmd) (handleReserve cmd) := by
  rw [handleReserve_eq]
  refine .call trivial fun acquired _ => ?_
  cases acquired with
  | false => exact .commit (closes_reservationEvent cmd _) trivial
  | true =>
      refine .call trivial fun cached _ => ?_
      cases cached with
      | some result => exact commits_announce cmd result
      | none =>
          refine .call trivial fun allowed _ => ?_
          cases allowed with
          | false => exact commits_announce cmd _
          | true =>
              refine .call trivial fun item _ => ?_
              cases item with
              | none => exact commits_conclude cmd _
              | some item =>
                  show Handler.Commits _ (moveStock cmd.orderId cmd.sku cmd.qty (some item) >>= _)
                  rw [moveStock, Prog.ite_bind]
                  split
                  · exact commits_conclude cmd _
                  · refine .call ?_ fun _ _ => commits_conclude cmd _
                    intro x hx
                    rw [List.mem_singleton.1 hx]
                    rfl

theorem commits_announceRelease (cmd : ReleaseInventory) :
    Handler.Commits (.releaseInventory cmd) (announceRelease cmd) :=
  .call trivial fun _ _ => .commit (closes_released cmd) trivial

theorem commits_giveBack (cmd : ReleaseInventory) (item : InventoryItem) :
    Handler.Commits (.releaseInventory cmd) (giveBack cmd item) := by
  refine .call ?_ fun _ _ => .call trivial fun _ _ => commits_announceRelease cmd
  intro x hx
  rw [List.mem_singleton.1 hx]
  rfl

theorem commits_handleRelease (cmd : ReleaseInventory) :
    Handler.Commits (.releaseInventory cmd) (handleRelease cmd) := by
  rw [handleRelease_eq]
  refine .call trivial fun acquired _ => ?_
  cases acquired with
  | false => exact Prog.reaches_raise _ _ _
  | true =>
      refine .call trivial fun cached _ => ?_
      cases cached with
      | some _ => exact commits_announceRelease cmd
      | none =>
          refine .call trivial fun item _ => ?_
          cases item with
          | none => exact commits_announceRelease cmd
          | some item => exact commits_giveBack cmd item

theorem commits_record (cmd : ChargePayment) (result : GatewayResult) :
    Handler.Commits (.chargePayment cmd) (record cmd result) := by
  refine .call (fun _ => rfl) fun id _ => .commit (closes_chargeEvent cmd result id) ?_
  exact ⟨trivial, fun _ _ => ⟨trivial, fun _ _ => trivial⟩⟩

theorem commits_handleCharge (cmd : ChargePayment) :
    Handler.Commits (.chargePayment cmd) (handleCharge cmd) := by
  rw [handleCharge_eq]
  refine .call trivial fun acquired _ => ?_
  cases acquired with
  | false => exact Prog.reaches_raise _ _ _
  | true =>
      refine .call trivial fun cached _ => ?_
      cases cached with
      | some cached => exact .commit (closes_cachedCharge cmd cached) ⟨trivial, fun _ _ => trivial⟩
      | none => exact .call trivial fun result _ => commits_record cmd result

/-- A final command sets the status of the order that it finds. -/
theorem commits_settle (command : Message) {status : OrderStatus} (event : OrderId → Message)
    (hstatus : command.status = some status) (hans : command.Answers (event command.orderId))
    (hsender : (event command.orderId).sender = .order)
    (hevent : (event command.orderId).status = some status) :
    Handler.Commits command (OrderService.settle command.orderId status event) := by
  refine .call ⟨rfl, Message.sender_of_answers hans⟩ fun answer hfinds => ?_
  obtain ⟨order, rfl, hid⟩ := hfinds
  refine .commit ?_ trivial
  rw [hid]
  exact .settle _ status hstatus hans hsender hevent

end Handlers

/-- The coordinator never sends `RefundPayment`. -/
theorem Causal.ne_refundPayment {w : World} (h : Causal w) {message : Message}
    (hmem : message ∈ w.emitted) (cmd : RefundPayment) : message ≠ .refundPayment cmd := by
  rintro rfl
  obtain ⟨x, hx⟩ := h.traced (Message.refundPayment cmd).orderId
  obtain ⟨⟨created, p⟩, -, hcommand⟩ := h.command hmem rfl hx
  cases p <;> simp [Path.commands] at hcommand

/-- The callback of every consumer but the coordinator commits. `RefundPayment`
is the one command that has no answer; nobody sends it. -/
theorem commits_handler {message : Message} {service : Service}
    (hconsumer : message.consumer = some service) (hsaga : service ≠ .saga)
    (hrefund : ∀ cmd, message ≠ .refundPayment cmd) :
    Handler.Commits message message.handler := by
  cases message with
  | orderCreated | inventoryReserved | inventoryReservationFailed | inventoryReleased
  | paymentSucceeded | paymentFailed =>
      cases hconsumer
      exact absurd rfl hsaga
  | paymentRefunded event => cases hconsumer
  | refundPayment cmd => exact absurd rfl (hrefund cmd)
  | orderConfirmed event => exact .commit (.notify _ rfl) trivial
  | orderCancelled event => exact .commit (.notify _ rfl) trivial
  | reserveInventory cmd => exact commits_handleReserve cmd
  | releaseInventory cmd => exact commits_handleRelease cmd
  | chargePayment cmd => exact commits_handleCharge cmd
  | confirmOrder cmd =>
      exact commits_settle (.confirmOrder cmd) (fun id => .orderConfirmed ⟨id⟩) rfl rfl rfl rfl
  | cancelOrder cmd =>
      exact commits_settle (.cancelOrder cmd) (fun id => .orderCancelled ⟨id, cmd.reason⟩)
        rfl rfl rfl rfl

/-! ## The calls -/

/-- The new world has the orders, the sagas and the outboxes of the old one. -/
structure World.Same (w w' : World) : Prop where
  orders : w'.orders = w.orders
  sagas : w'.sagas = w.sagas
  outbox : w'.outbox = w.outbox

theorem World.Same.refl (w : World) : w.Same w := ⟨rfl, rfl, rfl⟩

theorem World.Same.trans {u v w : World} (h : u.Same v) (h' : v.Same w) : u.Same w where
  orders := h'.orders.trans h.orders
  sagas := h'.sagas.trans h.sagas
  outbox := h'.outbox.trans h.outbox

theorem World.same_setCache (w : World) (key : IdemKey) (entry : Option key.Entry) :
    w.Same (w.setCache key entry) := by
  cases key <;> exact ⟨rfl, rfl, rfl⟩

/-- A silent statement. -/
theorem World.same_write {w w' : World} {x : Write} (h : w.write x = some w')
    (hsilent : x.silent = true) : w.Same w' := by
  cases x with
  | insertItem sku qty =>
      cases hitem : w.items sku with
      | some item => simp [World.write, hitem] at h
      | none =>
          simp only [World.write, hitem, Option.map_eq_some_iff] at h
          obtain ⟨item, -, rfl⟩ := h
          exact ⟨rfl, rfl, rfl⟩
  | setAvailable sku qty available =>
      cases hitem : w.items sku with
      | none => simp [World.write, hitem] at h
      | some item =>
          simp only [World.write, hitem, Option.map_eq_some_iff] at h
          obtain ⟨item, -, rfl⟩ := h
          exact ⟨rfl, rfl, rfl⟩
  | updateItem orderId sku available reserved =>
      cases hitem : w.items sku with
      | none => simp [World.write, hitem] at h
      | some item =>
          simp only [World.write, hitem, Option.map_eq_some_iff] at h
          obtain ⟨item, -, rfl⟩ := h
          exact ⟨rfl, rfl, rfl⟩
  | insertPayment payment =>
      simp only [World.write, Option.ite_none_left_eq_some, Option.some.injEq] at h
      rw [← h.2]
      exact ⟨rfl, rfl, rfl⟩
  | setPaymentStatus paymentId status =>
      cases h
      exact ⟨rfl, rfl, rfl⟩
  | insertNotification notification =>
      cases h
      exact ⟨rfl, rfl, rfl⟩
  | insertOrder | setOrderStatus | saga | outbox => cases hsilent

theorem World.same_writeAll {w w' : World} {xs : List Write} (h : w.writeAll xs = some w')
    (hsilent : ∀ x ∈ xs, x.silent = true) : w.Same w' := by
  induction xs generalizing w with
  | nil =>
      cases h
      exact .refl _
  | cons x xs ih =>
      rw [World.writeAll_cons, Option.bind_eq_some_iff] at h
      obtain ⟨u, hu, hrest⟩ := h
      have hx := World.same_write hu (hsilent x List.mem_cons_self)
      exact hx.trans (ih hrest fun y hy => hsilent y (List.mem_cons_of_mem _ hy))

/-- One call that fits, in a unit of work that is silent so far: what `Causal` is
about stays, or the transaction of the delivery is committed. -/
theorem exec_of_fits {message : Message} {ω : Answers} {w w' : World} {session session' : Session}
    {e : Effect} {r : e.Answer} (hfits : e.Fits message)
    (hsilent : ∀ x ∈ session.txn, x.silent = true)
    (h : exec ω e (w, session) = some (r, w', session')) :
    (∀ x ∈ session'.txn, x.silent = true) ∧
      (e.isCommit = false ∧ w.Same w' ∨
        ∃ u writes, w.Same u ∧ Closes message writes ∧ u.writeAll writes = some w') := by
  cases e with
  | commit writes =>
      simp only [exec, commitWrites, Option.map_map, Option.map_eq_some_iff] at h
      obtain ⟨v, hv, hr⟩ := h
      cases hr
      rw [World.writeAll_append, Option.bind_eq_some_iff] at hv
      obtain ⟨u, hu, hlast⟩ := hv
      refine ⟨?_, Or.inr ⟨u, writes, World.same_writeAll hu hsilent, hfits, hlast⟩⟩
      intro x hx
      cases hx
  | flush writes =>
      simp only [exec, flushWrites, Option.map_map, Option.map_eq_some_iff] at h
      obtain ⟨v, -, hr⟩ := h
      cases hr
      refine ⟨?_, Or.inl ⟨rfl, .refl _⟩⟩
      intro x hx
      exact (List.mem_append.1 hx).elim (hsilent x) (hfits x)
  | flushNew row =>
      simp only [exec, flushWrites, Option.map_map, Option.map_eq_some_iff] at h
      obtain ⟨v, -, hr⟩ := h
      cases hr
      refine ⟨?_, Or.inl ⟨rfl, .refl _⟩⟩
      intro x hx
      refine (List.mem_append.1 hx).elim (hsilent x) fun hlast => ?_
      rw [List.mem_singleton.1 hlast]
      exact hfits ω.newId
  | storeResult key entry =>
      cases h
      exact ⟨hsilent, Or.inl ⟨rfl, World.same_setCache w key _⟩⟩
  | charge | refund =>
      cases h
      exact ⟨hsilent, Or.inl ⟨rfl, rfl, rfl, rfl⟩⟩
  | acquire | release | getCachedResult | allow | selectOrder | selectSaga | selectPayment
  | selectItem | selectItemForUpdate =>
      cases h
      exact ⟨hsilent, Or.inl ⟨rfl, .refl _⟩⟩

/-! ## What the transaction leaves -/

theorem Causal.same {w w' : World} (h : Causal w) (hsame : w.Same w') : Causal w' := by
  have hemitted : w'.emitted = w.emitted := by rw [World.emitted, hsame.outbox, World.emitted]
  have hdb : w'.sagaDb = w.sagaDb := by
    rw [World.sagaDb, World.sagaDb, hsame.sagas, hsame.outbox]
  refine h.congr hsame.orders hdb hemitted ?_
  rw [hsame.outbox]
  exact h.sent

/-- The outboxes have grown by rows that nobody has handed over. -/
def World.Adds (w w' : World) : Prop :=
  ∃ rows, w'.outbox = w.outbox ++ rows ∧ ∀ row ∈ rows, row.handed = false ∧ row.published = false

theorem World.Adds.of_eq {w w' : World} (h : w'.outbox = w.outbox) : w.Adds w' :=
  ⟨[], by rw [h, List.append_nil], by simp⟩

theorem World.Adds.of_new {w w' : World} {service : Service} {message : Message}
    (h : w'.outbox = w.outbox ++ [.new service message]) : w.Adds w' := by
  refine ⟨_, h, ?_⟩
  intro row hrow
  rw [List.mem_singleton.1 hrow]
  exact ⟨rfl, rfl⟩

theorem World.Adds.emitted {w w' : World} (h : w.Adds w') : w.emitted ⊆ w'.emitted := by
  obtain ⟨rows, houtbox, -⟩ := h
  rw [World.emitted, World.emitted, houtbox, List.map_append]
  exact List.subset_append_left _ _

theorem mem_emitted_new {w w' : World} {service : Service} {message : Message}
    (h : w'.outbox = w.outbox ++ [.new service message]) : message ∈ w'.emitted := by
  rw [emitted_concat h]
  exact List.mem_append_right _ List.mem_cons_self

/-- The transaction of a delivery keeps every message caused, and answers the
message unless it is a notification. -/
theorem Closes.causal {message : Message} {writes : List Write} {w w' : World}
    (h : Closes message writes) (hcausal : Causal w) (hmem : message ∈ w.emitted)
    (hwrite : w.writeAll writes = some w') :
    Causal w' ∧ w'.sagas = w.sagas ∧ w.Adds w' ∧
      (message.consumer = some .notification ∨ ∃ event ∈ w'.emitted, message.Answers event) := by
  cases h with
  | answer event hans hsaga horder =>
      cases hwrite
      have hcommand := Message.sender_of_answers hans
      refine ⟨hcausal.answer hmem hcommand hans hsaga horder rfl rfl rfl, rfl, .of_new rfl, ?_⟩
      exact Or.inr ⟨event, mem_emitted_new (w := w) rfl, hans⟩
  | settle event status hstatus hans hsender hevent =>
      cases hwrite
      have hcommand := Message.sender_of_answers hans
      refine ⟨hcausal.settle hmem hcommand hstatus hans hsender hevent rfl rfl rfl, rfl,
        .of_new rfl, ?_⟩
      exact Or.inr ⟨event, mem_emitted_new (w := w) rfl, hans⟩
  | notify notification hconsumer =>
      cases hwrite
      exact ⟨hcausal.same ⟨rfl, rfl, rfl⟩, rfl, .of_eq rfl, Or.inl hconsumer⟩

end FlashSale
