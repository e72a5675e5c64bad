import FlashSale.System.Quiescence

/-!
# Handlers that run to their end

The system in which the delivery of a message is a single step: its handler runs
to its end, and its message is queued again when it raises. Nothing expires.

Every run of it is a run of the system with single calls (`Atomic.exists_run`),
so all that was shown of that one holds here. `Handled` says what one delivery
does to the world, and `Change` what one step does.
-/

namespace FlashSale

open SagaCoordinator

/-- The services, and the messages queued at the broker. -/
@[ext] structure Atomic where
  world : World
  queue : List Message

namespace Atomic

def start : Atomic where
  world := World.empty
  queue := []

inductive Action
  | checkout (req : OrderService.CheckoutRequest) (ω : Answers)
  | seed (req : InventoryService.SeedRequest) (ω : Answers)
  | publish (n : ℕ)
  | mark (n : ℕ)
  | deliver (message : Message) (ω : Answers)

/-- The delivery of a message, from its start to its end. -/
def deliver (s : Atomic) (message : Message) (ω : Answers) : Atomic where
  world := s.world.request message.handler ω
  queue :=
    if (message.handler.run (exec ω) (s.world, {})).1.isSome then s.queue.erase message
    else s.queue.erase message ++ [message]

def step (s : Atomic) : Action → Option Atomic
  | .checkout req ω => some { s with world := s.world.request (OrderService.checkout req) ω }
  | .seed req ω => some { s with world := s.world.request (InventoryService.seedInventory req) ω }
  | .publish n =>
      s.world.outbox[n]?.map fun row =>
        { world := s.world.setRow n { row with handed := true }
          queue := System.enqueue s.queue row.message }
  | .mark n =>
      s.world.outbox[n]?.bind fun row =>
        if row.handed then some { s with world := s.world.setRow n { row with published := true } }
        else none
  | .deliver message ω =>
      if message ∈ s.queue ∧ message.consumer.isSome = true then some (s.deliver message ω)
      else none

/-- A row is published and marked, and its message is delivered. -/
def passed (row : ℕ) (message : Message) (ω : Answers) : List Action :=
  [.publish row, .mark row, .deliver message ω]

/-- The same state of the system with single calls. -/
def toSystem (s : Atomic) : System where
  world := s.world
  queue := s.queue
  running := fun _ => none

/-- No message is queued, and every outbox row is published. -/
def Quiescent (s : Atomic) : Prop :=
  s.queue = [] ∧ ∀ row ∈ s.world.outbox, row.published = true

theorem Quiescent.toSystem {s : Atomic} (h : s.Quiescent) : s.toSystem.Quiescent :=
  ⟨h.1, fun _ => rfl, h.2⟩

/-! ## A run of single calls -/

/-- The steps of a delivery that is alone at work, when `exec` is the meaning of its
calls. -/
structure Calls (step : System → System.Action → Option System)
    (exec : (e : Effect) → World × Session → Option (e.Answer × (World × Session)))
    (worker : Worker) (ω : Answers) : Prop where
  called : ∀ w queue message session e (k : e.Answer → Handler Unit) r w' session',
    exec e (w, session) = some (r, w', session') →
      step ⟨w, queue, Function.update (fun _ => none) worker (some ⟨message, .call e k, session⟩)⟩
        (.call worker ω) = some ⟨w', queue,
          Function.update (fun _ => none) worker (some ⟨message, k r, session'⟩)⟩
  raised : ∀ w queue message session e (k : e.Answer → Handler Unit),
    exec e (w, session) = none →
      step ⟨w, queue, Function.update (fun _ => none) worker (some ⟨message, .call e k, session⟩)⟩
        (.call worker ω) = some ⟨w, queue ++ [message], fun _ => none⟩
  finish : ∀ w queue message session,
    step ⟨w, queue, Function.update (fun _ => none) worker (some ⟨message, .ret (), session⟩)⟩
      (.finish worker) = some ⟨w, queue, fun _ => none⟩
  abort : ∀ w queue attempt,
    step ⟨w, queue, Function.update (fun _ => none) worker (some attempt)⟩ (.abort worker) =
      some ⟨w, queue ++ [attempt.message], fun _ => none⟩

theorem calls_step (worker : Worker) (ω : Answers) : Calls System.step (exec ω) worker ω where
  called w queue message session e k r w' session' h := by
    simp [System.step, System.resume, h, Function.update_idem]
  raised w queue message session e k h := by
    simp [System.step, System.resume, System.release, h]
  finish w queue message session := by simp [System.step, System.release]
  abort w queue attempt := by simp [System.step, System.release]

/-- What is left of a handler is run to its end by single calls. -/
theorem Calls.exists_run {step : System → System.Action → Option System}
    {exec : (e : Effect) → World × Session → Option (e.Answer × (World × Session))}
    {worker : Worker} {ω : Answers} (h : Calls step exec worker ω) (w : World)
    (queue : List Message) (message : Message) (p : Handler Unit) (session : Session) :
    ∃ actions, Schedule.run step
      (System.mk w queue (Function.update (fun _ => none) worker (some ⟨message, p, session⟩)))
      actions = some (System.mk (p.run exec (w, session)).2.1
        (if (p.run exec (w, session)).1.isSome then queue else queue ++ [message])
        fun _ => none) := by
  induction p generalizing w session with
  | ret a => exact ⟨[.finish worker], Schedule.run_cons_eq_some.2 ⟨_, h.finish .., rfl⟩⟩
  | raise => exact ⟨[.abort worker], Schedule.run_cons_eq_some.2 ⟨_, h.abort .., rfl⟩⟩
  | call e k ih =>
      cases hexec : exec e (w, session) with
      | none =>
          rw [Prog.run_call_none hexec]
          exact ⟨[.call worker ω],
            Schedule.run_cons_eq_some.2 ⟨_, h.raised w queue message session e k hexec, rfl⟩⟩
      | some result =>
          obtain ⟨r, w', session'⟩ := result
          obtain ⟨actions, hactions⟩ := ih r w' session'
          rw [Prog.run_call_some hexec]
          exact ⟨.call worker ω :: actions, Schedule.run_cons_eq_some.2
            ⟨_, h.called w queue message session e k r w' session' hexec, hactions⟩⟩

/-- One step is matched by a run of single calls. -/
theorem exists_run_step {s s' : Atomic} {a : Action} (h : s.step a = some s') :
    ∃ actions, Schedule.run System.step s.toSystem actions = some s'.toSystem := by
  cases a with
  | checkout req ω =>
      cases h
      exact ⟨[.checkout req ω], rfl⟩
  | seed req ω =>
      cases h
      exact ⟨[.seed req ω], rfl⟩
  | publish n =>
      simp only [step, Option.map_eq_some_iff] at h
      obtain ⟨row, hrow, rfl⟩ := h
      refine ⟨[.publish n], ?_⟩
      simp [Schedule.run_cons, System.step, toSystem, hrow]
  | mark n =>
      simp only [step, Option.bind_eq_some_iff, Option.ite_none_right_eq_some] at h
      obtain ⟨row, hrow, hhanded, hs⟩ := h
      cases hs
      refine ⟨[.mark n], ?_⟩
      simp [Schedule.run_cons, System.step, toSystem, hrow, hhanded]
  | deliver message ω =>
      simp only [step, Option.ite_none_right_eq_some, Option.some.injEq] at h
      obtain ⟨⟨hmem, hconsumer⟩, rfl⟩ := h
      obtain ⟨service, hservice⟩ := Option.isSome_iff_exists.1 hconsumer
      obtain ⟨actions, hactions⟩ := (calls_step ⟨service, 0⟩ ω).exists_run s.world
        (s.queue.erase message) message message.handler {}
      refine ⟨.start ⟨service, 0⟩ message :: actions, ?_⟩
      rw [Schedule.run_cons]
      simp only [System.step, toSystem]
      rw [if_pos ⟨hmem, hservice, rfl, fun _ => trivial⟩]
      exact hactions

/-- Every run is a run of single calls. -/
theorem exists_run {s : Atomic} {actions : List Action}
    (h : Schedule.run step start actions = some s) :
    ∃ calls, Schedule.run System.step System.start calls = some s.toSystem := by
  obtain ⟨calls, t, hrun, rfl⟩ := Schedule.run_simulation
    (R := fun (s : Atomic) (t : System) => s.toSystem = t)
    (fun s a s' t hR hstep => by
      obtain ⟨calls, hcalls⟩ := exists_run_step hstep
      exact ⟨calls, s'.toSystem, hR ▸ hcalls, rfl⟩) (t := System.start) rfl h
  exact ⟨calls, hrun⟩

theorem inv_of_run {s : Atomic} {actions : List Action}
    (h : Schedule.run step start actions = some s) : s.toSystem.Inv := by
  obtain ⟨calls, hcalls⟩ := exists_run h
  exact System.inv_of_run hcalls

/-- The invariant of the system with single calls is kept by every step. -/
theorem inv_step {s s' : Atomic} {a : Action} (h : s.toSystem.Inv) (hstep : s.step a = some s') :
    s'.toSystem.Inv := by
  obtain ⟨calls, hcalls⟩ := exists_run_step hstep
  exact Schedule.run_invariant (fun _ _ _ hinv hs => hinv.step hs) h hcalls

end Atomic

/-! ## What one delivery does to the world -/

/-- A notification row is added. -/
def World.notify (w : World) (notification : Notification) : World :=
  { w with notifications := w.notifications ++ [notification] }

open InventoryService PaymentService NotificationService in
/-- The world after the delivery of a message. -/
inductive Handled (ω : Answers) (w : World) : Message → World → Prop
  /-- The delivery has raised, or it was skipped. -/
  | nothing (message : Message) : Handled ω w message w
  | applied (message command : Message) (write : SagaWrite) (row : SagaRow)
      (ht : transition message (w.sagas message.orderId) = .applied write command)
      (hw : SagaDb.written (w.sagas message.orderId) write = some row) :
      Handled ω w message ((w.setSaga message.orderId row).emit .saga command)
  | reserve (cmd : ReserveInventory) (w' : World) (h : ReserveOutcome ω w cmd w') :
      Handled ω w (.reserveInventory cmd) w'
  | release (cmd : ReleaseInventory) (w' : World) (h : ReleaseOutcome ω w cmd w') :
      Handled ω w (.releaseInventory cmd) w'
  | repeated (cmd : ChargePayment) (cached : CachedCharge)
      (hcache : w.chargeResults cmd.orderId = some cached) :
      Handled ω w (.chargePayment cmd)
        (w.emit .payment (eventFromCachedCharge cmd.orderId cached))
  | charged (cmd : ChargePayment) (hcache : w.chargeResults cmd.orderId = none)
      (hid : ω.newId ∉ w.payments.map Payment.id) :
      Handled ω w (.chargePayment cmd)
        ((recorded w cmd ω).storeCharge cmd.orderId (cachePayload (row cmd ω)))
  /-- The gateway has answered, and the drawn primary key is taken. -/
  | called (cmd : ChargePayment) (hcache : w.chargeResults cmd.orderId = none) :
      Handled ω w (.chargePayment cmd) (called w cmd ω)
  | confirmed (cmd : ConfirmOrder) (order : Order) (hfind : w.findOrder cmd.orderId = some order) :
      Handled ω w (.confirmOrder cmd)
        ((w.settle cmd.orderId .confirmed).emit .order (.orderConfirmed ⟨cmd.orderId⟩))
  | cancelled (cmd : CancelOrder) (order : Order) (hfind : w.findOrder cmd.orderId = some order) :
      Handled ω w (.cancelOrder cmd)
        ((w.settle cmd.orderId .cancelled).emit .order (.orderCancelled ⟨cmd.orderId, cmd.reason⟩))
  | notifiedConfirmed (event : OrderConfirmed) :
      Handled ω w (.orderConfirmed event) (w.notify (confirmation event))
  | notifiedCancelled (event : OrderCancelled) :
      Handled ω w (.orderCancelled event) (w.notify (cancellation event))

theorem handled_saga (ω : Answers) (w : World) (message : Message) :
    Handled ω w message (w.request (SagaCoordinator.handle message) ω) := by
  rw [World.request]
  cases ht : transition message (w.sagas message.orderId) with
  | skipped reason =>
      rw [run_handle_skipped ω ht]
      exact .nothing message
  | applied write command =>
      obtain ⟨row, hw⟩ := transition_written ht
      rw [run_handle_applied ω ht hw]
      exact .applied message command write row ht hw

theorem handled_charge (ω : Answers) (w : World) (cmd : ChargePayment) :
    Handled ω w (.chargePayment cmd) (w.request (PaymentService.handleCharge cmd) ω) := by
  rcases PaymentService.run_handleCharge ω w cmd with ⟨cached, -, hcache, hrun⟩ |
    ⟨-, hcache, hid, hrun⟩ | ⟨-, ⟨-, hsame⟩ | ⟨hcache, -, hcalled⟩⟩
  · rw [World.request_of_completes hrun]
    exact .repeated cmd cached hcache
  · rw [World.request_of_completes hrun]
    exact .charged cmd hcache hid
  · rw [World.request, hsame]
    exact .nothing _
  · rw [World.request, hcalled]
    exact .called cmd hcache

/-- One delivery of a message that somebody consumes. -/
theorem handled (ω : Answers) (w : World) {message : Message}
    (hrefund : ∀ cmd, message ≠ .refundPayment cmd) :
    Handled ω w message (w.request message.handler ω) := by
  cases message with
  | orderCreated | inventoryReserved | inventoryReservationFailed | inventoryReleased
  | paymentSucceeded | paymentFailed => exact handled_saga ω w _
  | paymentRefunded event => exact .nothing _
  | refundPayment cmd => exact absurd rfl (hrefund cmd)
  | reserveInventory cmd =>
      rcases InventoryService.run_handleReserve ω w cmd with ⟨w', hw', hout⟩ | ⟨-, hsame, -⟩
      · have hrequest := World.request_of_completes hw'
        exact hrequest ▸ .reserve cmd w' hout
      · have hrequest : w.request (InventoryService.handleReserve cmd) ω = w := hsame
        exact hrequest.symm ▸ .nothing _
  | releaseInventory cmd =>
      rcases InventoryService.run_handleRelease ω w cmd with ⟨w', hw', hout⟩ | ⟨-, hsame⟩
      · have hrequest := World.request_of_completes hw'
        exact hrequest ▸ .release cmd w' hout
      · have hrequest : w.request (InventoryService.handleRelease cmd) ω = w := hsame
        exact hrequest.symm ▸ .nothing _
  | chargePayment cmd => exact handled_charge ω w cmd
  | confirmOrder cmd =>
      cases hfind : w.findOrder cmd.orderId with
      | none =>
          have hrun := OrderService.completes_settle_none ω .confirmed
            (fun id => .orderConfirmed ⟨id⟩) hfind
          exact (World.request_of_completes hrun).symm ▸ .nothing _
      | some order =>
          have hrun := OrderService.completes_settle_some ω .confirmed
            (fun id => .orderConfirmed ⟨id⟩) hfind
          exact World.request_of_completes hrun ▸ .confirmed cmd order hfind
  | cancelOrder cmd =>
      cases hfind : w.findOrder cmd.orderId with
      | none =>
          have hrun := OrderService.completes_settle_none ω .cancelled
            (fun id => .orderCancelled ⟨id, cmd.reason⟩) hfind
          exact (World.request_of_completes hrun).symm ▸ .nothing _
      | some order =>
          have hrun := OrderService.completes_settle_some ω .cancelled
            (fun id => .orderCancelled ⟨id, cmd.reason⟩) hfind
          exact World.request_of_completes hrun ▸ .cancelled cmd order hfind
  | orderConfirmed event => exact .notifiedConfirmed event
  | orderCancelled event => exact .notifiedCancelled event

/-! ## What one step does to the world -/

/-- The two worlds differ in the flags of the outbox rows at most. -/
structure World.Alike (w w' : World) : Prop where
  orders : w'.orders = w.orders
  sagas : w'.sagas = w.sagas
  items : w'.items = w.items
  payments : w'.payments = w.payments
  notifications : w'.notifications = w.notifications
  reservations : w'.reservations = w.reservations
  releases : w'.releases = w.releases
  chargeResults : w'.chargeResults = w.chargeResults
  moves : w'.moves = w.moves
  seeded : w'.seeded = w.seeded
  emitted : w'.emitted = w.emitted

theorem World.Alike.refl (w : World) : w.Alike w :=
  ⟨rfl, rfl, rfl, rfl, rfl, rfl, rfl, rfl, rfl, rfl, rfl⟩

theorem World.alike_setRow {w : World} {n : ℕ} {row row' : OutboxRow}
    (h : w.outbox[n]? = some row) (hmessage : row'.message = row.message) :
    w.Alike (w.setRow n row') :=
  ⟨rfl, rfl, rfl, rfl, rfl, rfl, rfl, rfl, rfl, rfl, System.emitted_setRow h hmessage⟩

/-- One step of the system. -/
inductive Change (w : World) : Atomic.Action → World → Prop
  | flags (a : Atomic.Action) (w' : World) (h : w.Alike w') : Change w a w'
  | placed (a : Atomic.Action) (req : OrderService.CheckoutRequest) (id : OrderId)
      (hfresh : w.findOrder id = none) :
      Change w a (w.place (req.order id) (.orderCreated (req.event id)))
  | seeded (a : Atomic.Action) (sku : Sku) (item : InventoryItem) (qty : ℤ)
      (havailable : item.available = w.availableQty sku + qty)
      (hreserved : item.reserved = w.reservedQty sku) : Change w a (w.seedItem sku item qty)
  | handled (message : Message) (ω : Answers) (w' : World) (hmem : message ∈ w.emitted)
      (h : Handled ω w message w') : Change w (.deliver message ω) w'

/-- No change takes a message back. -/
theorem Change.emitted {w w' : World} {a : Atomic.Action} (h : Change w a w') :
    w.emitted ⊆ w'.emitted := by
  have hnew {v : World} {message : Message} (hemitted : v.emitted = w.emitted ++ [message]) :
      w.emitted ⊆ v.emitted := by
    rw [hemitted]
    exact List.subset_append_left _ _
  cases h with
  | flags _ _ halike => exact halike.emitted ▸ List.Subset.refl _
  | placed _ req id _ => exact hnew (emitted_concat rfl)
  | seeded => exact List.Subset.refl _
  | handled message ω _ _ hhandled =>
      cases hhandled with
      | nothing | called | notifiedConfirmed | notifiedCancelled => exact List.Subset.refl _
      | applied | repeated | charged | confirmed | cancelled => exact hnew (World.emitted_emit ..)
      | reserve cmd _ hout => cases hout <;> exact hnew (World.emitted_emit ..)
      | release cmd _ hout => cases hout <;> exact hnew (World.emitted_emit ..)

namespace Atomic

theorem change_of_step {s s' : Atomic} {a : Action} (h : s.toSystem.Inv)
    (hstep : s.step a = some s') : Change s.world a s'.world := by
  cases a with
  | checkout req ω =>
      cases hstep
      rcases OrderService.request_checkout ω s.world req with ⟨hsame, -⟩ | ⟨hfresh, hplace⟩
      · exact .flags _ _ (hsame.symm ▸ .refl s.world)
      · exact hplace.symm ▸ .placed _ req ω.newId hfresh
  | seed req ω =>
      cases hstep
      obtain ⟨item, havailable, hreserved, hrun⟩ := InventoryService.run_seedInventory ω s.world req
      exact World.request_of_completes hrun ▸ .seeded _ req.sku item req.qty havailable hreserved
  | publish n =>
      simp only [step, Option.map_eq_some_iff] at hstep
      obtain ⟨row, hrow, rfl⟩ := hstep
      exact .flags _ _ (World.alike_setRow hrow rfl)
  | mark n =>
      simp only [step, Option.bind_eq_some_iff, Option.ite_none_right_eq_some] at hstep
      obtain ⟨row, hrow, -, hs⟩ := hstep
      cases hs
      exact .flags _ _ (World.alike_setRow hrow rfl)
  | deliver message ω =>
      simp only [step, Option.ite_none_right_eq_some, Option.some.injEq] at hstep
      obtain ⟨⟨hmem, -⟩, rfl⟩ := hstep
      have hemitted : message ∈ s.world.emitted := h.queued message hmem
      exact .handled message ω _ hemitted
        (handled ω s.world fun cmd => h.causal.ne_refundPayment hemitted cmd)

/-- A message that was emitted in a reached state stays emitted. -/
theorem emitted_of_run {s t : Atomic} {actions : List Action} (h : s.toSystem.Inv)
    (hrun : Schedule.run step s actions = some t) : s.world.emitted ⊆ t.world.emitted := by
  have hkept : t.toSystem.Inv ∧ s.world.emitted ⊆ t.world.emitted := by
    refine Schedule.run_invariant
      (I := fun t : Atomic => t.toSystem.Inv ∧ s.world.emitted ⊆ t.world.emitted) ?_
      ⟨h, List.Subset.refl _⟩ hrun
    rintro t a t' ⟨hinv, hsub⟩ hstep
    exact ⟨inv_step hinv hstep, List.Subset.trans hsub (change_of_step hinv hstep).emitted⟩
  exact hkept.2

/-- What every change that meets `P` keeps holds in every state reached by such
changes. -/
theorem world_preserves {I : World → Prop} {P : World → Action → Prop} (hempty : I World.empty)
    (hchange : ∀ w w' a, Causal w → Causal w' → I w → P w a → Change w a w' → I w') {s : Atomic}
    {actions : List Action}
    (halong : Schedule.Along step (fun s a => P s.world a) start actions)
    (hrun : Schedule.run step start actions = some s) : s.toSystem.Inv ∧ I s.world := by
  have hstart : start.toSystem.Inv ∧ I start.world := ⟨System.inv_start, hempty⟩
  refine Schedule.run_preserves (I := fun s : Atomic => s.toSystem.Inv ∧ I s.world) ?_ hstart
    halong hrun
  intro s a s' h ha hstep
  have hinv := inv_step h.1 hstep
  exact ⟨hinv, hchange _ _ a h.1.causal hinv.causal h.2 ha (change_of_step h.1 hstep)⟩

/-- What every change keeps holds in every reachable state. -/
theorem world_invariant {I : World → Prop} (hempty : I World.empty)
    (hchange : ∀ w w' a, Causal w → Causal w' → I w → Change w a w' → I w') {s : Atomic}
    {actions : List Action} (hrun : Schedule.run step start actions = some s) :
    s.toSystem.Inv ∧ I s.world :=
  world_preserves (P := fun _ _ => True) hempty
    (fun w w' a hcausal hcausal' hI _ h => hchange w w' a hcausal hcausal' hI h)
    (Schedule.along_true start actions) hrun

end Atomic

end FlashSale
