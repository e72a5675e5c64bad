import FlashSale.System.Agreement
import FlashSale.System.Notices
import Mathlib.Algebra.BigOperators.Group.List.Basic
import Mathlib.Data.Fintype.EquivFin

/-!
# The system comes to rest

What a message can still cause is bounded: the answer to a message is of a lower
rank than the message. `work` counts what is left to do for all messages that are
queued or wait in an outbox, and every productive step lowers it (`work_lt`). Whatever
has been abandoned before, a productive step is possible as long as the system is not
at rest (`Sound.exists_productive`).
-/

namespace FlashSale

open SagaCoordinator InventoryService PaymentService

namespace Message

/-- The longest chain of messages that begins with this one. -/
def rank : Message → ℕ
  | orderConfirmed _ | orderCancelled _ | paymentRefunded _ => 1
  | confirmOrder _ | cancelOrder _ | refundPayment _ => 2
  | paymentSucceeded _ | inventoryReleased _ | inventoryReservationFailed _ => 3
  | releaseInventory _ => 4
  | paymentFailed _ => 5
  | chargePayment _ => 6
  | inventoryReserved _ => 7
  | reserveInventory _ => 8
  | orderCreated _ => 9

theorem rank_pos (message : Message) : 0 < message.rank := by
  cases message <;> exact Nat.succ_pos _

theorem rank_le (message : Message) : message.rank ≤ 9 := by
  cases message <;> simp [rank]

theorem rank_lt_of_answers {command event : Message} (h : command.Answers event) :
    event.rank < command.rank := by
  cases command <;> cases event <;> first | (simp [rank]; done) | exact absurd h (by simp [Answers])

/-- The command of an applied transition. -/
theorem rank_lt_of_transition {message command : Message} {saga : Option SagaRow}
    {write : SagaWrite} (h : transition message saga = .applied write command) :
    command.rank < message.rank := by
  cases message with
  | orderCreated event =>
      cases saga with
      | none =>
          cases h
          simp [rank]
      | some row => cases h
  | inventoryReserved event | inventoryReservationFailed event | inventoryReleased event
  | paymentSucceeded event | paymentFailed event =>
      obtain ⟨row, rfl, -, hrow⟩ := whenIn_eq_applied h
      cases hrow
      simp [rank]
  | paymentRefunded | orderConfirmed | orderCancelled | reserveInventory
  | releaseInventory | chargePayment | refundPayment | confirmOrder | cancelOrder => cases h

end Message

/-- The outboxes of `w` have grown by at most one row, whose message has a rank
below `n`. -/
def World.Follows (w w' : World) (n : ℕ) : Prop :=
  w'.outbox = w.outbox ∨ ∃ service message,
    w'.outbox = w.outbox ++ [.new service message] ∧ message.rank < n

/-- What a delivery adds to the outboxes is of a lower rank than its message. -/
theorem Handled.follows {ω : Answers} {w w' : World} {message : Message}
    (h : Handled ω w message w') : w.Follows w' message.rank := by
  cases h with
  | nothing | called | notifiedConfirmed | notifiedCancelled => exact Or.inl rfl
  | applied _ command _ _ ht _ =>
      exact Or.inr ⟨.saga, command, rfl, Message.rank_lt_of_transition ht⟩
  | reserve cmd _ hout =>
      have hanswer {event : Message} (hans : (Message.reserveInventory cmd).Answers event) :
          event.rank < (Message.reserveInventory cmd).rank := Message.rank_lt_of_answers hans
      cases hout with
      | turnedAway | refused | moved => exact Or.inr ⟨.inventory, _, rfl, hanswer rfl⟩
      | repeated result =>
          refine Or.inr ⟨.inventory, _, rfl, hanswer ?_⟩
          rw [reservationEvent]
          split <;> rfl
  | release cmd _ hout =>
      have hanswer : (Message.inventoryReleased ⟨cmd.orderId, cmd.sku, cmd.qty⟩).rank <
          (Message.releaseInventory cmd).rank := Message.rank_lt_of_answers rfl
      cases hout <;> exact Or.inr ⟨.inventory, _, rfl, hanswer⟩
  | repeated cmd cached =>
      refine Or.inr ⟨.payment, _, rfl, Message.rank_lt_of_answers ?_⟩
      rw [eventFromCachedCharge]
      split <;> rfl
  | charged cmd =>
      refine Or.inr ⟨.payment, _, rfl, Message.rank_lt_of_answers ?_⟩
      rw [chargeEvent]
      split <;> rfl
  | confirmed | cancelled => exact Or.inr ⟨.order, _, rfl, Message.rank_lt_of_answers rfl⟩

/-! ## Deliveries that come to their end -/

/-- A key that no payment row has. -/
theorem exists_fresh (w : World) : ∃ id, id ∉ w.payments.map Payment.id := by
  obtain ⟨id, hid⟩ := Infinite.exists_notMem_finset (w.payments.map Payment.id).toFinset
  exact ⟨id, fun hmem => hid (List.mem_toFinset.2 hmem)⟩

theorem World.Completes.isSome {w w' : World} {p : Handler Unit} {ω : Answers}
    (h : w.Completes p ω w') : (p.run (exec ω) (w, {})).1.isSome = true := by
  obtain ⟨session, hrun⟩ := h
  rw [hrun]
  rfl

/-- A release of a positive quantity that gets its lock returns. -/
theorem isSome_handleRelease {ω : Answers} {w : World} {cmd : ReleaseInventory}
    (hacquired : ω.acquired = true) (hqty : 0 < cmd.qty) :
    ((handleRelease cmd).run (exec ω) (w, {})).1.isSome = true := by
  rw [handleRelease_eq, run_acquire, hacquired, if_pos rfl, run_getCachedRelease]
  cases w.releases cmd.orderId with
  | some entry =>
      simp only
      rw [run_announceRelease ω cmd rfl]
      rfl
  | none =>
      simp only [run_selectItemForUpdate]
      cases hitem : w.items cmd.sku with
      | none =>
          simp only
          rw [run_announceRelease ω cmd rfl]
          rfl
      | some item =>
          have havailable := item.available_nonneg
          have hcheck : InventoryItem.check (item.available + cmd.qty)
              (max 0 (item.reserved - cmd.qty)) =
                some ⟨item.available + cmd.qty, max 0 (item.reserved - cmd.qty),
                  by omega, by omega⟩ := InventoryItem.check_eq_some.2 ⟨rfl, rfl⟩
          simp only
          rw [run_giveBack ω cmd hitem hcheck]
          rfl

/-- Every message that is consumed can be processed, if the locks are granted and
the drawn key is fresh. -/
theorem Causal.isSome_handler {w : World} (h : Causal w) {message : Message}
    (hmem : message ∈ w.emitted) {service : Service}
    (hconsumer : message.consumer = some service) {ω : Answers} (hacquired : ω.acquired = true)
    (hfresh : ω.newId ∉ w.payments.map Payment.id) :
    (message.handler.run (exec ω) (w, {})).1.isSome = true := by
  have hsaga (hc : message.consumer = some .saga) :
      (message.handler.run (exec ω) (w, {})).1.isSome = true := by
    have hhandler : message.handler = SagaCoordinator.handle message := by
      rw [Message.handler, hc]
    rw [hhandler]
    cases ht : transition message (w.sagas message.orderId) with
    | skipped reason =>
        rw [run_handle_skipped ω ht]
        rfl
    | applied write command =>
        obtain ⟨row, hw⟩ := transition_written ht
        rw [run_handle_applied ω ht hw]
        rfl
  cases message with
  | orderCreated | inventoryReserved | inventoryReservationFailed | inventoryReleased
  | paymentSucceeded | paymentFailed => exact hsaga rfl
  | paymentRefunded event => cases hconsumer
  | refundPayment cmd => exact absurd rfl (h.ne_refundPayment hmem cmd)
  | orderConfirmed | orderCancelled => rfl
  | reserveInventory cmd =>
      rcases InventoryService.run_handleReserve ω w cmd with ⟨w', hw', -⟩ | ⟨-, -, item, -, hneg⟩
      · exact hw'.isSome
      · obtain ⟨order, horder, rfl⟩ := h.order_of_reserve hmem
        have hqty := h.positive order horder
        exact absurd hneg (not_lt.2 (Int.add_nonneg item.reserved_nonneg hqty.le))
  | releaseInventory cmd =>
      refine isSome_handleRelease hacquired ?_
      rw [(h.line_release hmem).1.2]
      exact (w.line cmd.orderId).qty_pos
  | chargePayment cmd =>
      rcases PaymentService.run_handleCharge ω w cmd with ⟨_, -, -, hrun⟩ | ⟨-, -, -, hrun⟩ |
        ⟨-, ⟨hnot, -⟩ | ⟨-, htaken, -⟩⟩
      · exact hrun.isSome
      · exact hrun.isSome
      · rw [hacquired] at hnot
        cases hnot
      · exact absurd htaken hfresh
  | confirmOrder cmd =>
      cases hfind : w.findOrder cmd.orderId with
      | none =>
          exact (OrderService.completes_settle_none ω .confirmed
            (fun id => .orderConfirmed ⟨id⟩) hfind).isSome
      | some order =>
          exact (OrderService.completes_settle_some ω .confirmed
            (fun id => .orderConfirmed ⟨id⟩) hfind).isSome
  | cancelOrder cmd =>
      cases hfind : w.findOrder cmd.orderId with
      | none =>
          exact (OrderService.completes_settle_none ω .cancelled
            (fun id => .orderCancelled ⟨id, cmd.reason⟩) hfind).isSome
      | some order =>
          exact (OrderService.completes_settle_some ω .cancelled
            (fun id => .orderCancelled ⟨id, cmd.reason⟩) hfind).isSome

/-- Everything that is queued at the broker has a consumer. -/
def System.Consumed (s : System) : Prop :=
  ∀ message ∈ s.queue, message.consumer.isSome = true

theorem System.Consumed.step {s s' : System} {a : System.Action} (hinv : s.Inv)
    (h : s.Consumed) (hstep : s.step a = some s') : s'.Consumed := by
  have hconcat {queue : List Message} {message : Message}
      (hqueue : ∀ m ∈ queue, m.consumer.isSome = true) (hmessage : message.consumer.isSome = true) :
      ∀ m ∈ queue ++ [message], m.consumer.isSome = true := by
    intro m hm
    rcases List.mem_append.1 hm with hm | hm
    · exact hqueue m hm
    · exact List.mem_singleton.1 hm ▸ hmessage
  have hattempt {worker : Worker} {attempt : Attempt} (hrunning : s.running worker = some attempt) :
      attempt.message.consumer.isSome = true := by
    rw [(hinv.attempts worker attempt hrunning).consumer]
    rfl
  cases a with
  | checkout | seed | forget =>
      cases hstep
      exact h
  | publish n =>
      simp only [System.step, Option.map_eq_some_iff] at hstep
      obtain ⟨row, -, rfl⟩ := hstep
      show ∀ m ∈ enqueue s.queue row.message, m.consumer.isSome = true
      rw [enqueue]
      split
      · next hconsumer => exact hconcat h hconsumer
      · exact h
  | mark n =>
      simp only [System.step, Option.bind_eq_some_iff, Option.ite_none_right_eq_some] at hstep
      obtain ⟨row, -, -, hs⟩ := hstep
      cases hs
      exact h
  | start worker message =>
      simp only [System.step, Option.ite_none_right_eq_some] at hstep
      obtain ⟨-, hs⟩ := hstep
      cases hs
      exact fun m hm => h m (List.mem_of_mem_erase hm)
  | call worker ω =>
      simp only [System.step, Option.bind_eq_some_iff] at hstep
      obtain ⟨attempt, hrunning, hs⟩ := hstep
      split at hs
      · cases hs
        rw [System.resume]
        split
        · exact hconcat h (hattempt hrunning)
        · exact h
      · cases hs
  | finish worker =>
      simp only [System.step, Option.bind_eq_some_iff] at hstep
      obtain ⟨attempt, -, hs⟩ := hstep
      split at hs
      · cases hs
        exact h
      · cases hs
  | abort worker =>
      simp only [System.step, Option.map_eq_some_iff] at hstep
      obtain ⟨attempt, hrunning, rfl⟩ := hstep
      exact hconcat h (hattempt hrunning)

namespace Atomic

/-! ## What is left to do -/

/-- The steps that an outbox row can still cause: it is handed over, marked, and
its message is delivered. -/
def rowWork (row : OutboxRow) : ℕ :=
  if row.published then 0 else if row.handed then 1 else 3 * row.message.rank

/-- The steps that a queued message can still cause. -/
def messageWork (message : Message) : ℕ := 3 * message.rank - 2

/-- The steps that are left to do. -/
def work (s : Atomic) : ℕ :=
  (s.queue.map messageWork).sum + (s.world.outbox.map rowWork).sum

/-- The step does something for the first time: it hands a row over, marks one,
or brings a delivery to its end. -/
def Productive (s : Atomic) : Action → Prop
  | .publish n => (s.world.outbox[n]?).any (fun row => !row.handed) = true
  | .mark n => (s.world.outbox[n]?).any (fun row => !row.published) = true
  | .deliver message ω => (message.handler.run (exec ω) (s.world, {})).1.isSome = true
  | _ => False

theorem sum_set {α : Type} (f : α → ℕ) {l : List α} {n : ℕ} {a b : α} (h : l[n]? = some a) :
    ((l.set n b).map f).sum + f a = (l.map f).sum + f b := by
  induction l generalizing n with
  | nil => simp at h
  | cons c l ih =>
      cases n with
      | zero =>
          cases h
          simp only [List.set_cons_zero, List.map_cons, List.sum_cons]
          omega
      | succ n =>
          have hrest := ih (n := n) (by simpa using h)
          simp only [List.set_cons_succ, List.map_cons, List.sum_cons]
          omega

theorem sum_erase {s : Atomic} {message : Message} (h : message ∈ s.queue) :
    ((s.queue.erase message).map messageWork).sum + messageWork message =
      (s.queue.map messageWork).sum := by
  rw [Nat.add_comm]
  exact List.sum_map_erase messageWork h

/-- A productive step leaves less to do. -/
theorem work_lt {s s' : Atomic} {a : Action} (hinv : s.toSystem.Inv) (h : Productive s a)
    (hstep : s.step a = some s') : s'.work < s.work := by
  cases a with
  | checkout | seed => cases h
  | publish n =>
      simp only [step, Option.map_eq_some_iff] at hstep
      obtain ⟨row, hrow, rfl⟩ := hstep
      have hhanded : row.handed = false := by simpa [Productive, hrow] using h
      have hpublished : row.published = false := by
        by_contra hne
        have := hinv.handed row (List.mem_of_getElem? hrow) (by simpa using hne)
        rw [hhanded] at this
        cases this
      have hrank := row.message.rank_pos
      have hold : rowWork row = 3 * row.message.rank := by simp [rowWork, hpublished, hhanded]
      have hnew : rowWork { row with handed := true } = 1 := by simp [rowWork, hpublished]
      have hset := sum_set rowWork (b := { row with handed := true }) hrow
      have hqueue : ((System.enqueue s.queue row.message).map messageWork).sum ≤
          (s.queue.map messageWork).sum + messageWork row.message := by
        rw [System.enqueue]
        split
        · rw [List.map_append, List.sum_append]
          simp
        · exact Nat.le_add_right _ _
      rw [hold, hnew] at hset
      simp only [work, World.setRow]
      rw [messageWork] at hqueue
      omega
  | mark n =>
      simp only [step, Option.bind_eq_some_iff, Option.ite_none_right_eq_some] at hstep
      obtain ⟨row, hrow, hhanded, hs⟩ := hstep
      cases hs
      have hpublished : row.published = false := by simpa [Productive, hrow] using h
      have hold : rowWork row = 1 := by simp [rowWork, hpublished, hhanded]
      have hnew : rowWork { row with published := true } = 0 := rfl
      have hset := sum_set rowWork (b := { row with published := true }) hrow
      rw [hold, hnew] at hset
      simp only [work, World.setRow]
      omega
  | deliver message ω =>
      simp only [step, Option.ite_none_right_eq_some, Option.some.injEq] at hstep
      obtain ⟨⟨hmem, -⟩, rfl⟩ := hstep
      have hemitted : message ∈ s.world.emitted := hinv.queued message hmem
      have hhandled := handled ω s.world fun cmd => hinv.causal.ne_refundPayment hemitted cmd
      have hsum := sum_erase hmem
      have hrank := message.rank_pos
      simp only [work, deliver, if_pos (show _ = true from h)]
      rcases hhandled.follows with hsame | ⟨service, answer, hnew, hlt⟩
      · rw [hsame]
        simp only [messageWork] at hsum
        omega
      · rw [hnew, List.map_append, List.sum_append]
        simp only [messageWork] at hsum
        simp [rowWork, OutboxRow.new]
        omega

theorem work_le (s : Atomic) : s.work ≤ 25 * s.queue.length +
    27 * (s.world.outbox.filter fun row => !row.published).length := by
  have hqueue (messages : List Message) :
      (messages.map messageWork).sum ≤ 25 * messages.length := by
    induction messages with
    | nil => simp
    | cons message messages ih =>
        have hle := message.rank_le
        simp only [List.map_cons, List.sum_cons, List.length_cons, messageWork] at ih ⊢
        omega
  have houtbox (rows : List OutboxRow) :
      (rows.map rowWork).sum ≤ 27 * (rows.filter fun row => !row.published).length := by
    induction rows with
    | nil => simp
    | cons row rows ih =>
        have hle := row.message.rank_le
        have hrank := row.message.rank_pos
        rw [List.map_cons, List.sum_cons, List.filter_cons]
        cases hpublished : row.published with
        | true =>
            have hzero : rowWork row = 0 := by simp [rowWork, hpublished]
            simp only [Bool.not_true, Bool.false_eq_true, if_false]
            omega
        | false =>
            have hrow : rowWork row ≤ 27 := by
              simp only [rowWork, hpublished, Bool.false_eq_true, if_false]
              split <;> omega
            simp only [Bool.not_false, if_true, List.length_cons]
            omega
  have hleft := hqueue s.queue
  have hright := houtbox s.world.outbox
  simp only [work]
  omega

/-! ## Coming to rest -/

/-- What holds of every state that is reached, whatever was abandoned before. -/
structure Sound (s : Atomic) : Prop where
  inv : s.toSystem.Inv
  notices : s.toSystem.Notices
  consumed : s.toSystem.Consumed

theorem sound_of_run {s : Atomic} {calls : List System.Action}
    (hrun : Schedule.run System.step System.start calls = some s.toSystem) : Sound s := by
  obtain ⟨hinv, hnotices⟩ := System.notices_of_run hrun
  have hconsumed : s.toSystem.Inv ∧ s.toSystem.Consumed :=
    Schedule.run_invariant (I := fun s : System => s.Inv ∧ s.Consumed)
      (fun _ _ _ hs hstep => ⟨hs.1.step hstep, hs.2.step hs.1 hstep⟩)
      ⟨System.inv_start, fun message hmem => by cases hmem⟩ hrun
  exact ⟨hinv, hnotices, hconsumed.2⟩

theorem Sound.step {s s' : Atomic} {a : Action} (h : Sound s) (hstep : s.step a = some s') :
    Sound s' := by
  obtain ⟨calls, hcalls⟩ := exists_run_step hstep
  have howned : s.toSystem.Owned := fun _ _ hattempt => by cases hattempt
  obtain ⟨hinv, -, hnotices, hconsumed⟩ := Schedule.run_invariant
    (I := fun s : System => s.Inv ∧ s.Owned ∧ s.Notices ∧ s.Consumed)
    (fun _ _ _ hs hstep => ⟨hs.1.step hstep, (hs.2.1.step hstep).1,
      hs.2.2.1.step hs.1 hs.2.1 hstep, hs.2.2.2.step hs.1 hstep⟩)
    ⟨h.inv, howned, h.notices, h.consumed⟩ hcalls
  exact ⟨hinv, hnotices, hconsumed⟩

/-- As long as something is left to do, it can be done. -/
theorem Sound.exists_productive {s : Atomic} (h : Sound s) (hnot : ¬ s.Quiescent) :
    ∃ a, Productive s a ∧ (s.step a).isSome = true := by
  by_cases hrows : ∀ row ∈ s.world.outbox, row.published = true
  · cases hqueue : s.queue with
    | nil => exact absurd ⟨hqueue, hrows⟩ hnot
    | cons message rest =>
        have hmem : message ∈ s.queue := hqueue ▸ List.mem_cons_self
        have hconsumer := h.consumed message hmem
        obtain ⟨service, hservice⟩ := Option.isSome_iff_exists.1 hconsumer
        obtain ⟨id, hid⟩ := exists_fresh s.world
        refine ⟨.deliver message ⟨true, true, ⟨true, "", none⟩, id⟩, ?_, ?_⟩
        · exact h.inv.causal.isSome_handler (h.inv.queued message hmem) hservice rfl hid
        · rw [Atomic.step, if_pos ⟨hmem, hconsumer⟩]
          rfl
  · simp only [not_forall] at hrows
    obtain ⟨row, hrow, hpublished⟩ := hrows
    obtain ⟨n, hn⟩ := List.getElem?_of_mem hrow
    cases hhanded : row.handed with
    | false =>
        refine ⟨.publish n, ?_, ?_⟩
        · simp [Productive, hn, hhanded]
        · simp [Atomic.step, hn]
    | true =>
        refine ⟨.mark n, ?_, ?_⟩
        · simp [Productive, hn, hpublished]
        · simp [Atomic.step, hn, hhanded]

end Atomic

end FlashSale
