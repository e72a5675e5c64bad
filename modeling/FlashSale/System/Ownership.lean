import FlashSale.System.Quiescence

/-!
# Every service has its data to itself

Each service has a database, an outbox table, and keys in Redis of its own; the
payment service alone talks to the gateway. `Within` says of a program that all it
reads and writes belongs to one service. All callbacks are of this kind, on every
path through them, so no delivery, wherever it is abandoned, changes anything that
belongs to another service (`World.Confined`).
-/

namespace FlashSale

/-- The service whose database a statement is for. -/
def Write.owner : Write → Service
  | insertOrder _ | setOrderStatus _ _ => .order
  | saga _ _ => .saga
  | insertItem _ _ | setAvailable _ _ _ | updateItem _ _ _ _ => .inventory
  | insertPayment _ | setPaymentStatus _ _ => .payment
  | insertNotification _ => .notification
  | outbox service _ => service

def IdemKey.owner : IdemKey → Service
  | reserve _ | release _ => .inventory
  | charge _ | refund _ => .payment

def LockKey.owner : LockKey → Service
  | sku _ => .inventory
  | payment _ | refund _ => .payment

/-- The call reads and writes what the service owns. -/
def Effect.Within (service : Service) : Effect → Prop
  | .acquire key | .release key => key.owner = service
  | .getCachedResult key | .storeResult key _ => key.owner = service
  | .allow _ | .selectItem _ | .selectItemForUpdate _ => service = .inventory
  | .charge _ _ _ | .refund _ _ | .selectPayment _ => service = .payment
  | .selectOrder _ => service = .order
  | .selectSaga _ => service = .saga
  | .flushNew row => ∀ id, (row id).owner = service
  | .flush writes | .commit writes => ∀ x ∈ writes, x.owner = service

/-- Every call of the program does. -/
def Handler.Within (service : Service) (p : Handler Unit) : Prop :=
  p.Only (fun _ _ => True) (Effect.Within service)

/-! ## The handlers -/

section Handlers

open InventoryService PaymentService

theorem owner_singleton {x : Write} {service : Service} (h : x.owner = service) :
    ∀ z ∈ [x], z.owner = service := List.forall_mem_singleton.2 h

theorem owner_pair {x y : Write} {service : Service} (hx : x.owner = service)
    (hy : y.owner = service) : ∀ z ∈ [x, y], z.owner = service :=
  List.forall_mem_cons.2 ⟨hx, owner_singleton hy⟩

theorem within_announce (cmd : ReserveInventory) (result : ReservationResult) :
    Handler.Within .inventory (announce cmd result) :=
  ⟨rfl, fun _ _ => ⟨owner_singleton rfl, fun _ _ => trivial⟩⟩

theorem within_conclude (cmd : ReserveInventory) (outcome : ReservationResult) :
    Handler.Within .inventory (conclude cmd outcome) :=
  ⟨rfl, fun _ _ => within_announce cmd outcome⟩

theorem within_handleReserve (cmd : ReserveInventory) :
    Handler.Within .inventory (handleReserve cmd) := by
  rw [handleReserve_eq]
  refine ⟨rfl, fun acquired _ => ?_⟩
  cases acquired with
  | false => exact ⟨owner_singleton rfl, fun _ _ => trivial⟩
  | true =>
      refine ⟨rfl, fun cached _ => ?_⟩
      cases cached with
      | some result => exact within_announce cmd result
      | none =>
          refine ⟨rfl, fun allowed _ => ?_⟩
          cases allowed with
          | false => exact within_announce cmd _
          | true =>
              refine ⟨rfl, fun item _ => ?_⟩
              cases item with
              | none => exact within_conclude cmd _
              | some item =>
                  show Handler.Within _ (moveStock cmd.orderId cmd.sku cmd.qty (some item) >>= _)
                  rw [moveStock, Prog.ite_bind]
                  split
                  · exact within_conclude cmd _
                  · exact ⟨owner_singleton rfl, fun _ _ => within_conclude cmd _⟩

theorem within_handleRelease (cmd : ReleaseInventory) :
    Handler.Within .inventory (handleRelease cmd) := by
  have hannounce : Handler.Within .inventory (announceRelease cmd) :=
    ⟨rfl, fun _ _ => ⟨owner_singleton rfl, fun _ _ => trivial⟩⟩
  rw [handleRelease_eq]
  refine ⟨rfl, fun acquired _ => ?_⟩
  cases acquired with
  | false => trivial
  | true =>
      refine ⟨rfl, fun cached _ => ?_⟩
      cases cached with
      | some _ => exact hannounce
      | none =>
          refine ⟨rfl, fun item _ => ?_⟩
          cases item with
          | none => exact hannounce
          | some item => exact ⟨owner_singleton rfl, fun _ _ => ⟨rfl, fun _ _ => hannounce⟩⟩

theorem within_handleCharge (cmd : ChargePayment) :
    Handler.Within .payment (handleCharge cmd) := by
  rw [handleCharge_eq]
  refine ⟨rfl, fun acquired _ => ?_⟩
  cases acquired with
  | false => trivial
  | true =>
      refine ⟨rfl, fun cached _ => ?_⟩
      cases cached with
      | some cached => exact ⟨owner_singleton rfl, fun _ _ => ⟨rfl, fun _ _ => trivial⟩⟩
      | none =>
          refine ⟨rfl, fun result _ => ⟨fun _ => rfl, fun id _ => ⟨owner_singleton rfl,
            fun _ _ => ⟨rfl, fun _ _ => ⟨rfl, fun _ _ => trivial⟩⟩⟩⟩⟩

theorem within_handleRefund (cmd : RefundPayment) :
    Handler.Within .payment (handleRefund cmd) := by
  refine ⟨rfl, fun acquired _ => ?_⟩
  cases acquired with
  | false => trivial
  | true =>
      refine ⟨rfl, fun cached _ => ?_⟩
      cases cached with
      | some _ => exact ⟨owner_singleton rfl, fun _ _ => ⟨rfl, fun _ _ => trivial⟩⟩
      | none =>
          refine ⟨rfl, fun result _ => ⟨rfl, fun row _ => ?_⟩⟩
          cases row with
          | none =>
              exact ⟨owner_singleton rfl,
                fun _ _ => ⟨rfl, fun _ _ => ⟨rfl, fun _ _ => trivial⟩⟩⟩
          | some row =>
              exact ⟨owner_pair rfl rfl,
                fun _ _ => ⟨rfl, fun _ _ => ⟨rfl, fun _ _ => trivial⟩⟩⟩

theorem within_settle (orderId : OrderId) (status : OrderStatus) (event : OrderId → Message) :
    Handler.Within .order (OrderService.settle orderId status event) := by
  refine ⟨rfl, fun order _ => ?_⟩
  cases order with
  | none => trivial
  | some order => exact ⟨owner_pair rfl rfl, fun _ _ => trivial⟩

theorem within_saga {message : Message} (h : message.consumer = some .saga) :
    Handler.Within .saga message.handler := by
  have hhandler : message.handler = SagaCoordinator.handle message := by
    rw [Message.handler, h]
  rw [hhandler, SagaCoordinator.handle_eq h]
  refine ⟨rfl, fun saga _ => ?_⟩
  beta_reduce
  split
  · exact ⟨owner_pair rfl rfl, fun _ _ => trivial⟩
  · trivial

end Handlers

/-- The callback of a service concerns nothing but what the service owns. -/
theorem within_handler {message : Message} {service : Service}
    (h : message.consumer = some service) : Handler.Within service message.handler := by
  cases message with
  | orderCreated | inventoryReserved | inventoryReservationFailed | inventoryReleased
  | paymentSucceeded | paymentFailed =>
      cases h
      exact within_saga rfl
  | paymentRefunded event => cases h
  | reserveInventory cmd =>
      cases h
      exact within_handleReserve cmd
  | releaseInventory cmd =>
      cases h
      exact within_handleRelease cmd
  | chargePayment cmd =>
      cases h
      exact within_handleCharge cmd
  | refundPayment cmd =>
      cases h
      exact within_handleRefund cmd
  | confirmOrder cmd =>
      cases h
      exact within_settle cmd.orderId .confirmed fun id => .orderConfirmed ⟨id⟩
  | cancelOrder cmd =>
      cases h
      exact within_settle cmd.orderId .cancelled fun id => .orderCancelled ⟨id, cmd.reason⟩
  | orderConfirmed event | orderCancelled event =>
      cases h
      exact ⟨owner_singleton rfl, fun _ _ => trivial⟩

/-! ## What the calls change -/

/-- What a service owns, in a world with nothing else. -/
def World.part (w : World) : Service → World
  | .order =>
      { World.empty with
        orders := w.orders
        outbox := w.outbox.filter fun row => row.service = .order }
  | .inventory =>
      { World.empty with
        items := w.items
        reservations := w.reservations
        releases := w.releases
        moves := w.moves
        seeded := w.seeded
        outbox := w.outbox.filter fun row => row.service = .inventory }
  | .payment =>
      { World.empty with
        payments := w.payments
        chargeResults := w.chargeResults
        refundResults := w.refundResults
        charges := w.charges
        refunds := w.refunds
        outbox := w.outbox.filter fun row => row.service = .payment }
  | .saga =>
      { World.empty with
        sagas := w.sagas
        outbox := w.outbox.filter fun row => row.service = .saga }
  | .notification =>
      { World.empty with
        notifications := w.notifications
        outbox := w.outbox.filter fun row => row.service = .notification }

/-- The two worlds differ in what the service owns, at most. -/
def World.Confined (service : Service) (w w' : World) : Prop :=
  ∀ other, other ≠ service → w'.part other = w.part other

namespace World.Confined

variable {service : Service} {w w' w'' : World}

theorem refl (service : Service) (w : World) : Confined service w w := fun _ _ => rfl

theorem trans (h : Confined service w w') (h' : Confined service w' w'') :
    Confined service w w'' := fun other hne => (h' other hne).trans (h other hne)

theorem notifications (h : Confined service w w') (hne : Service.notification ≠ service) :
    w'.notifications = w.notifications := by
  have hpart := congrArg World.notifications (h .notification hne)
  exact hpart

end World.Confined

/-- A new row of an outbox table. -/
theorem World.confined_emit (w : World) (service : Service) (message : Message) :
    Confined service w (w.emit service message) := by
  intro other hne
  have hrow : (w.emit service message).outbox.filter (fun row => row.service = other) =
      w.outbox.filter fun row => row.service = other := by
    show (w.outbox ++ [OutboxRow.new service message]).filter _ = _
    rw [List.filter_append]
    simp [OutboxRow.new, hne.symm]
  cases other <;> simp only [World.part, hrow] <;> rfl

theorem World.confined_write {w w' : World} {x : Write} (h : w.write x = some w') :
    Confined x.owner w w' := by
  cases x with
  | insertOrder | insertPayment =>
      simp only [World.write, Option.ite_none_left_eq_some, Option.some.injEq] at h
      intro other hne
      rw [← h.2]
      cases other <;> first | exact absurd rfl hne | rfl
  | setOrderStatus | setPaymentStatus | insertNotification =>
      cases h
      intro other hne
      cases other <;> first | exact absurd rfl hne | rfl
  | outbox service message =>
      cases h
      exact w.confined_emit service message
  | saga orderId write =>
      cases write with
      | insert row =>
          cases hrow : w.sagas orderId with
          | some old => simp [World.write, hrow] at h
          | none =>
              simp only [World.write, hrow, Option.some.injEq] at h
              intro other hne
              rw [← h]
              cases other <;> first | exact absurd rfl hne | rfl
      | assign state paymentId failureReason =>
          cases hrow : w.sagas orderId with
          | none => simp [World.write, hrow] at h
          | some old =>
              simp only [World.write, hrow, Option.some.injEq] at h
              intro other hne
              rw [← h]
              cases other <;> first | exact absurd rfl hne | rfl
  | insertItem sku qty =>
      cases hitem : w.items sku with
      | some item => simp [World.write, hitem] at h
      | none =>
          simp only [World.write, hitem, Option.map_eq_some_iff] at h
          obtain ⟨item, -, rfl⟩ := h
          intro other hne
          cases other <;> first | exact absurd rfl hne | rfl
  | setAvailable sku | updateItem _ sku =>
      cases hitem : w.items sku with
      | none => simp [World.write, hitem] at h
      | some item =>
          simp only [World.write, hitem, Option.map_eq_some_iff] at h
          obtain ⟨item, -, rfl⟩ := h
          intro other hne
          cases other <;> first | exact absurd rfl hne | rfl

theorem World.confined_writeAll {service : Service} {w w' : World} {xs : List Write}
    (h : w.writeAll xs = some w') (hxs : ∀ x ∈ xs, x.owner = service) :
    Confined service w w' := by
  induction xs generalizing w with
  | nil =>
      cases h
      exact .refl service _
  | cons x xs ih =>
      rw [World.writeAll_cons, Option.bind_eq_some_iff] at h
      obtain ⟨u, hu, hrest⟩ := h
      have hx := World.confined_write hu
      rw [hxs x List.mem_cons_self] at hx
      exact hx.trans (ih hrest fun y hy => hxs y (List.mem_cons_of_mem x hy))

theorem World.confined_setCache (w : World) (key : IdemKey) (entry : Option key.Entry) :
    Confined key.owner w (w.setCache key entry) := by
  intro other hne
  cases key <;> cases other <;> first | exact absurd rfl hne | rfl

/-- A call of a service, in a unit of work with the database of the service. -/
theorem confined_exec {service : Service} {ω : Answers} {w w' : World}
    {session session' : Session} {e : Effect} {r : e.Answer} (he : e.Within service)
    (htxn : ∀ x ∈ session.txn, x.owner = service)
    (h : exec ω e (w, session) = some (r, w', session')) :
    World.Confined service w w' ∧ ∀ x ∈ session'.txn, x.owner = service := by
  cases e with
  | commit writes =>
      simp only [exec, commitWrites, Option.map_map, Option.map_eq_some_iff] at h
      obtain ⟨v, hv, hr⟩ := h
      cases hr
      refine ⟨World.confined_writeAll hv fun x hx => ?_, fun x hx => by cases hx⟩
      exact (List.mem_append.1 hx).elim (htxn x) (he x)
  | flush writes =>
      simp only [exec, flushWrites, Option.map_map, Option.map_eq_some_iff] at h
      obtain ⟨v, -, hr⟩ := h
      cases hr
      exact ⟨.refl service w, fun x hx => (List.mem_append.1 hx).elim (htxn x) (he x)⟩
  | flushNew row =>
      simp only [exec, flushWrites, Option.map_map, Option.map_eq_some_iff] at h
      obtain ⟨v, -, hr⟩ := h
      cases hr
      refine ⟨.refl service w, fun x hx => (List.mem_append.1 hx).elim (htxn x) fun hlast => ?_⟩
      rw [List.mem_singleton.1 hlast]
      exact he ω.newId
  | storeResult key entry =>
      cases h
      exact ⟨(show key.owner = service from he) ▸ w.confined_setCache key (some entry), htxn⟩
  | charge | refund =>
      cases h
      refine ⟨fun other hne => ?_, htxn⟩
      rw [show service = .payment from he] at hne
      cases other <;> first | exact absurd rfl hne | rfl
  | acquire | release | getCachedResult | allow | selectOrder | selectSaga | selectPayment
  | selectItem | selectItemForUpdate =>
      cases h
      exact ⟨.refl service w, htxn⟩

/-! ## What the calls depend on -/

/-- A statement reads and writes what its service owns. -/
theorem World.write_part (w : World) (x : Write) :
    (w.part x.owner).write x = (w.write x).map fun u => u.part x.owner := by
  cases x with
  | insertOrder order =>
      show (if (w.findOrder order.id).isSome then none else _) =
        (if (w.findOrder order.id).isSome then none else _ : Option World).map _
      split <;> rfl
  | insertPayment payment =>
      show (if payment.id ∈ w.payments.map Payment.id then none else _) =
        (if payment.id ∈ w.payments.map Payment.id then none else _ : Option World).map _
      split <;> rfl
  | setOrderStatus | setPaymentStatus | insertNotification => rfl
  | outbox service message =>
      have hrow : (w.outbox ++ [OutboxRow.new service message]).filter
          (fun row => row.service = service) =
            w.outbox.filter (fun row => row.service = service) ++ [.new service message] := by
        simp [OutboxRow.new]
      cases service <;>
        simp only [World.write_outbox, World.emit, World.part, Write.owner, Option.map_some, hrow]
  | saga orderId write =>
      have hpart : (w.part .saga).sagas = w.sagas := rfl
      cases write with
      | insert row =>
          simp only [World.write, Write.owner, hpart]
          cases w.sagas orderId <;> rfl
      | assign state paymentId failureReason =>
          simp only [World.write, Write.owner, hpart]
          cases w.sagas orderId <;> rfl
  | insertItem sku qty =>
      have hpart : (w.part .inventory).items = w.items := rfl
      simp only [World.write, Write.owner, hpart]
      cases w.items sku with
      | some item => rfl
      | none => cases InventoryItem.check qty 0 <;> rfl
  | setAvailable sku qty available =>
      have hpart : (w.part .inventory).items = w.items := rfl
      simp only [World.write, Write.owner, hpart]
      cases w.items sku with
      | none => rfl
      | some item =>
          simp only
          cases InventoryItem.check available item.reserved <;> rfl
  | updateItem orderId sku available reserved =>
      have hpart : (w.part .inventory).items = w.items := rfl
      simp only [World.write, Write.owner, hpart]
      cases w.items sku with
      | none => rfl
      | some item =>
          simp only
          cases InventoryItem.check available reserved <;> rfl

theorem World.writeAll_part {service : Service} (w : World) {xs : List Write}
    (hxs : ∀ x ∈ xs, x.owner = service) :
    (w.part service).writeAll xs = (w.writeAll xs).map fun u => u.part service := by
  induction xs generalizing w with
  | nil => rfl
  | cons x xs ih =>
      have hwrite := w.write_part x
      rw [hxs x List.mem_cons_self] at hwrite
      rw [World.writeAll_cons, World.writeAll_cons, hwrite, Option.map_bind, Option.bind_map]
      exact congrArg _ (funext fun u => ih u fun y hy => hxs y (List.mem_cons_of_mem x hy))

theorem World.setCache_part (w : World) (key : IdemKey) (entry : Option key.Entry) :
    (w.part key.owner).setCache key entry = (w.setCache key entry).part key.owner := by
  cases key <;> rfl

theorem World.cache_part (w : World) (key : IdemKey) :
    (w.part key.owner).cache key = w.cache key := by
  cases key <;> rfl

/-- A call answers and does the same in a world with nothing but what its service
owns. -/
theorem exec_part {service : Service} (ω : Answers) (w : World) {session : Session} {e : Effect}
    (he : e.Within service) (htxn : ∀ x ∈ session.txn, x.owner = service) :
    exec ω e (w.part service, session) =
      (exec ω e (w, session)).map fun r => (r.1, r.2.1.part service, r.2.2) := by
  have hwrites {writes : List Write} (hmem : ∀ x ∈ writes, x.owner = service) :
      (w.part service).writeAll (session.txn ++ writes) =
        (w.writeAll (session.txn ++ writes)).map fun u => u.part service :=
    w.writeAll_part fun x hx => (List.mem_append.1 hx).elim (htxn x) (hmem x)
  cases e with
  | commit writes =>
      simp only [exec, commitWrites, hwrites he, Option.map_map]
      rfl
  | flush writes =>
      simp only [exec, flushWrites, hwrites he, Option.map_map]
      rfl
  | flushNew row =>
      simp only [exec, flushWrites, hwrites (owner_singleton (he ω.newId)), Option.map_map]
      rfl
  | getCachedResult key =>
      obtain rfl : key.owner = service := he
      simp only [exec, w.cache_part]
      rfl
  | storeResult key entry =>
      obtain rfl : key.owner = service := he
      simp only [exec, w.setCache_part]
      rfl
  | charge | refund | selectPayment | selectItem | selectItemForUpdate | selectOrder | selectSaga =>
      obtain rfl : service = _ := he
      rfl
  | acquire | release | allow => rfl

/-! ## Deliveries -/

theorem World.Confined.place (w : World) (order : Order) (message : Message) :
    Confined .order w (w.place order message) := by
  refine Confined.trans (fun other hne => ?_)
    (World.confined_emit { w with orders := w.orders ++ [order] } .order message)
  cases other <;> first | exact absurd rfl hne | rfl

theorem World.Confined.seedItem (w : World) (sku : Sku) (item : InventoryItem) (qty : ℤ) :
    Confined .inventory w (w.seedItem sku item qty) := by
  intro other hne
  cases other <;> first | exact absurd rfl hne | rfl

/-- A flag of an outbox row is set. -/
theorem World.Confined.setRow {w : World} {n : ℕ} {row row' : OutboxRow}
    (hrow : w.outbox[n]? = some row) (hservice : row'.service = row.service) :
    Confined row.service w (w.setRow n row') := by
  intro other hne
  have hfilter (rows : List OutboxRow) (n : ℕ) (hrow : rows[n]? = some row) :
      (rows.set n row').filter (fun row => row.service = other) =
        rows.filter fun row => row.service = other := by
    induction rows generalizing n with
    | nil => rfl
    | cons r rows ih =>
        cases n with
        | zero =>
            cases hrow
            simp [hservice, hne.symm]
        | succ n => simp only [List.set_cons_succ, List.filter_cons, ih n hrow]
  cases other <;> simp only [World.part, World.setRow, hfilter w.outbox n hrow]

namespace System

/-- What is left of a delivery, and what it has not committed yet, concern nothing
but what its service owns. -/
def Owned (s : System) : Prop :=
  ∀ worker attempt, s.running worker = some attempt →
    attempt.prog.Within worker.service ∧ ∀ x ∈ attempt.session.txn, x.owner = worker.service

theorem Owned.replace {s : System} (h : s.Owned) {w : World} {worker : Worker}
    {next : Option Attempt} {queue : List Message}
    (hnext : ∀ attempt, next = some attempt →
      attempt.prog.Within worker.service ∧ ∀ x ∈ attempt.session.txn, x.owner = worker.service) :
    (System.mk w queue (Function.update s.running worker next)).Owned := by
  intro other attempt hattempt
  by_cases hne : other = worker
  · subst hne
    have hself : Function.update s.running other next other = next := Function.update_self ..
    exact hnext attempt (hself.symm.trans hattempt)
  · exact h other attempt ((Function.update_of_ne hne ..).symm.trans hattempt)

theorem Owned.release {s : System} (h : s.Owned) (worker : Worker) (queue : List Message) :
    (s.release worker queue).Owned := h.replace fun attempt hattempt => by cases hattempt

/-- The service that takes the step. -/
def actor (s : System) : Action → Option Service
  | .checkout _ _ => some .order
  | .seed _ _ => some .inventory
  | .publish n | .mark n => s.world.outbox[n]?.map OutboxRow.service
  | .start worker _ | .call worker _ | .finish worker | .abort worker => some worker.service
  | .forget key => some key.owner

/-- Every step is the step of one service, and changes nothing that belongs to
another one. -/
theorem Owned.step {s s' : System} {a : Action} (h : s.Owned) (hstep : s.step a = some s') :
    s'.Owned ∧ ∃ service, s.actor a = some service ∧ s.world.Confined service s'.world ∧
      ∀ worker, worker.service ≠ service → s'.running worker = s.running worker := by
  have hother {worker : Worker} {next : Option Attempt} (other : Worker)
      (hne : other.service ≠ worker.service) :
      Function.update s.running worker next other = s.running other :=
    Function.update_of_ne (fun heq => hne (congrArg Worker.service heq)) ..
  cases a with
  | checkout req ω =>
      cases hstep
      refine ⟨h, .order, rfl, ?_, fun _ _ => rfl⟩
      show World.Confined _ _ (s.world.request (OrderService.checkout req) ω)
      rcases OrderService.request_checkout ω s.world req with ⟨hsame, -⟩ | ⟨-, hplace⟩
      · rw [hsame]
        exact .refl _ _
      · rw [hplace]
        exact .place _ _ _
  | seed req ω =>
      cases hstep
      refine ⟨h, .inventory, rfl, ?_, fun _ _ => rfl⟩
      obtain ⟨item, -, -, hcompletes⟩ := InventoryService.run_seedInventory ω s.world req
      rw [World.request_of_completes hcompletes]
      exact .seedItem _ _ _ _
  | forget key =>
      cases hstep
      exact ⟨h, key.owner, rfl, s.world.confined_setCache key none, fun _ _ => rfl⟩
  | publish n =>
      simp only [System.step, Option.map_eq_some_iff] at hstep
      obtain ⟨row, hrow, rfl⟩ := hstep
      exact ⟨h, row.service, congrArg (Option.map OutboxRow.service) hrow, .setRow hrow rfl,
        fun _ _ => rfl⟩
  | mark n =>
      simp only [System.step, Option.bind_eq_some_iff, Option.ite_none_right_eq_some] at hstep
      obtain ⟨row, hrow, -, hs⟩ := hstep
      cases hs
      exact ⟨h, row.service, congrArg (Option.map OutboxRow.service) hrow, .setRow hrow rfl,
        fun _ _ => rfl⟩
  | start worker message =>
      simp only [System.step, Option.ite_none_right_eq_some] at hstep
      obtain ⟨⟨-, hconsumer, -⟩, hs⟩ := hstep
      cases hs
      refine ⟨h.replace fun attempt hattempt => ?_, worker.service, rfl, .refl _ _, hother⟩
      cases hattempt
      exact ⟨within_handler hconsumer, fun x hx => by cases hx⟩
  | call worker ω =>
      simp only [System.step, Option.bind_eq_some_iff] at hstep
      obtain ⟨⟨message, p, session⟩, hrunning, hs⟩ := hstep
      obtain ⟨hprog, htxn⟩ := h worker _ hrunning
      split at hs
      · next e k hp =>
          obtain rfl : p = .call e k := hp
          cases hs
          rw [System.resume]
          cases hexec : exec ω e (s.world, session) with
          | none => exact ⟨h.release worker _, worker.service, rfl, .refl _ _, hother⟩
          | some result =>
              obtain ⟨r, w, session'⟩ := result
              obtain ⟨hconfined, htxn'⟩ := confined_exec hprog.1 htxn hexec
              refine ⟨h.replace fun attempt hattempt => ?_, worker.service, rfl, hconfined, hother⟩
              cases hattempt
              exact ⟨hprog.2 r trivial, htxn'⟩
      · cases hs
  | finish worker =>
      simp only [System.step, Option.bind_eq_some_iff] at hstep
      obtain ⟨attempt, -, hs⟩ := hstep
      split at hs
      · cases hs
        exact ⟨h.release worker _, worker.service, rfl, .refl _ _, hother⟩
      · cases hs
  | abort worker =>
      simp only [System.step, Option.map_eq_some_iff] at hstep
      obtain ⟨attempt, -, rfl⟩ := hstep
      exact ⟨h.release worker _, worker.service, rfl, .refl _ _, hother⟩

theorem owned_start : System.start.Owned := fun _ _ hattempt => by cases hattempt

theorem owned_of_run {s : System} {actions : List Action}
    (h : Schedule.run step System.start actions = some s) : s.Owned :=
  Schedule.run_invariant (fun _ _ _ howned hstep => (howned.step hstep).1) owned_start h

/-- One awaited call of a delivery. -/
theorem Inv.callSpec {s : System} (h : s.Inv) {worker : Worker} {message : Message} {w : World}
    {session session' : Session} {ω : Answers} {e : Effect} {k : e.Answer → Handler Unit}
    {r : e.Answer} (hrunning : s.running worker = some ⟨message, .call e k, session⟩)
    (hexec : exec ω e (s.world, session) = some (r, w, session')) :
    CallSpec s.world w worker ⟨message, k r, session'⟩ := by
  have hattempt := h.attempts worker _ hrunning
  by_cases hservice : worker.service = .saga
  · exact hattempt.call_saga h.causal hservice hexec
  · exact hattempt.call_commits h.causal hservice hexec

theorem emitted_subset_setRow {w : World} {n : ℕ} {row row' : OutboxRow}
    (h : w.outbox[n]? = some row) (hmessage : row'.message = row.message) :
    w.emitted ⊆ (w.setRow n row').emitted := by
  rw [emitted_setRow h hmessage]
  exact List.Subset.refl _

/-- No message is taken back. -/
theorem Inv.emitted_step {s s' : System} {a : Action} (h : s.Inv) (hstep : s.step a = some s') :
    s.world.emitted ⊆ s'.world.emitted := by
  cases a with
  | checkout req ω =>
      cases hstep
      show _ ⊆ (s.world.request (OrderService.checkout req) ω).emitted
      rcases OrderService.request_checkout ω s.world req with ⟨hsame, -⟩ | ⟨-, hplace⟩
      · rw [hsame]
        exact List.Subset.refl _
      · rw [hplace]
        exact (World.Adds.of_new rfl).emitted
  | seed req ω =>
      cases hstep
      obtain ⟨item, -, -, hcompletes⟩ := InventoryService.run_seedInventory ω s.world req
      rw [World.request_of_completes hcompletes]
      exact List.Subset.refl _
  | forget key =>
      cases hstep
      exact (World.Adds.of_eq (s.world.same_setCache key none).outbox).emitted
  | publish n =>
      simp only [System.step, Option.map_eq_some_iff] at hstep
      obtain ⟨row, hrow, rfl⟩ := hstep
      exact emitted_subset_setRow hrow rfl
  | mark n =>
      simp only [System.step, Option.bind_eq_some_iff, Option.ite_none_right_eq_some] at hstep
      obtain ⟨row, hrow, -, hs⟩ := hstep
      cases hs
      exact emitted_subset_setRow hrow rfl
  | start worker message =>
      simp only [System.step, Option.ite_none_right_eq_some] at hstep
      obtain ⟨-, hs⟩ := hstep
      cases hs
      exact List.Subset.refl _
  | call worker ω =>
      simp only [System.step, Option.bind_eq_some_iff] at hstep
      obtain ⟨⟨message, p, session⟩, hrunning, hs⟩ := hstep
      split at hs
      · next e k hp =>
          obtain rfl : p = .call e k := hp
          cases hs
          rw [System.resume]
          cases hexec : exec ω e (s.world, session) with
          | none => exact List.Subset.refl _
          | some result => exact (h.callSpec hrunning hexec).adds.emitted
      · cases hs
  | finish worker =>
      simp only [System.step, Option.bind_eq_some_iff] at hstep
      obtain ⟨attempt, -, hs⟩ := hstep
      split at hs
      · cases hs
        exact List.Subset.refl _
      · cases hs
  | abort worker =>
      simp only [System.step, Option.map_eq_some_iff] at hstep
      obtain ⟨attempt, -, rfl⟩ := hstep
      exact List.Subset.refl _

/-- An invariant of what one service owns and has in progress, in a system that
emits more and more: only the steps of this service can break it. -/
theorem local_invariant {service : Service} {I : System → Prop}
    (hother : ∀ s s', I s → s'.world.part service = s.world.part service →
      (∀ worker, worker.service = service → s'.running worker = s.running worker) →
      s.world.emitted ⊆ s'.world.emitted → I s')
    (hown : ∀ s a s', s.Inv → s.Owned → I s → s.actor a = some service →
      s.step a = some s' → I s')
    (hstart : I System.start) {s : System} {actions : List Action}
    (hrun : Schedule.run step System.start actions = some s) : I s := by
  have hkept : s.Inv ∧ s.Owned ∧ I s := by
    refine Schedule.run_invariant (I := fun s : System => s.Inv ∧ s.Owned ∧ I s) ?_
      ⟨inv_start, owned_start, hstart⟩ hrun
    rintro s a s' ⟨hinv, howned, hs⟩ hstep
    obtain ⟨howned', other, hactor, hconfined, hworkers⟩ := howned.step hstep
    refine ⟨hinv.step hstep, howned', ?_⟩
    by_cases hne : service = other
    · exact hown s a s' hinv howned hs (hne ▸ hactor) hstep
    · refine hother s s' hs (hconfined service hne) (fun worker hworker => ?_)
        (hinv.emitted_step hstep)
      exact hworkers worker (hworker ▸ hne)
  exact hkept.2.2

end System

end FlashSale
