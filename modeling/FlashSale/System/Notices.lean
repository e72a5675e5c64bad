import FlashSale.System.Ownership

/-!
# Every customer is told

The notification service inserts one row for each final event that it is handed,
and no other service inserts any. `Notices` says that a final event which was
handed to the broker has its row or is still in flight, and that every row tells
of a final event. When nothing is in flight any more, every order has a row that
tells how it ended, and no row of the order tells otherwise.
-/

namespace FlashSale

open NotificationService

/-- The row by which the customer is told of the event. -/
def Message.notification : Message → Option Notification
  | .orderConfirmed event => some (confirmation event)
  | .orderCancelled event => some (cancellation event)
  | _ => none

/-- The customer was told of the event, if it is one to be told. -/
def Told (w : World) (message : Message) : Prop :=
  ∀ notification ∈ message.notification, notification ∈ w.notifications

theorem Told.mono {w w' : World} {message : Message} (h : Told w message)
    (hsub : w.notifications ⊆ w'.notifications) : Told w' message :=
  fun notification hmem => hsub (h notification hmem)

/-- The events of the other services are not to be told. -/
theorem told_of_consumer {w : World} {message : Message}
    (h : message.consumer ≠ some .notification) : Told w message := by
  intro notification hmem
  cases message with
  | orderConfirmed | orderCancelled => exact absurd rfl h
  | _ => cases hmem

/-- The callback of the notification service is one commit. -/
theorem NotificationService.handle_eq {message : Message}
    (h : message.consumer = some .notification) :
    ∃ notification, message.notification = some notification ∧
      handle message = commit [.insertNotification notification] := by
  cases message with
  | orderConfirmed event => exact ⟨_, rfl, rfl⟩
  | orderCancelled event => exact ⟨_, rfl, rfl⟩
  | _ => cases h

namespace System

/-! ## What is told and what is in flight -/

/-- What holds of a delivery: the notification service has its one commit before
it, or has told. -/
def Telling (w : World) (worker : Worker) (attempt : Attempt) : Prop :=
  worker.service = .notification →
    attempt.prog = NotificationService.handle attempt.message ∧ attempt.session.txn = [] ∨
      attempt.prog = .ret () ∧ Told w attempt.message

theorem Telling.mono {w w' : World} {worker : Worker} {attempt : Attempt}
    (h : Telling w worker attempt) (hsub : w.notifications ⊆ w'.notifications) :
    Telling w' worker attempt :=
  fun hservice => (h hservice).imp_right fun htold => ⟨htold.1, htold.2.mono hsub⟩

/-- What holds of the notifications in every reachable state. -/
structure Notices (s : System) : Prop where
  attempts : ∀ worker attempt, s.running worker = some attempt → Telling s.world worker attempt
  told : ∀ row ∈ s.world.outbox, row.handed = true →
    Told s.world row.message ∨ s.InFlight row.message
  origin : ∀ notification ∈ s.world.notifications,
    ∃ event ∈ s.world.emitted, event.notification = some notification

/-- What was in flight is still, when one worker goes on with `next`. -/
theorem InFlight.replace {s : System} {message : Message} (h : s.InFlight message) {w : World}
    {worker : Worker} {next : Option Attempt} {queue : List Message} {Done : Message → Prop}
    (hqueued : ∀ message ∈ s.queue, message ∈ queue ∨
      ∃ attempt, next = some attempt ∧ attempt.message = message)
    (hrunning : ∀ attempt, s.running worker = some attempt → Done attempt.message ∨
      attempt.message ∈ queue ∨ ∃ attempt', next = some attempt' ∧
        attempt'.message = attempt.message) :
    Done message ∨
      (System.mk w queue (Function.update s.running worker next)).InFlight message := by
  have hself : Function.update s.running worker next worker = next := Function.update_self ..
  have hnext {attempt : Attempt} (hattempt : next = some attempt) :
      (System.mk w queue (Function.update s.running worker next)).InFlight attempt.message :=
    Or.inr ⟨worker, attempt, hself.trans hattempt, rfl⟩
  rcases h with hmem | ⟨other, attempt, hattempt, rfl⟩
  · rcases hqueued message hmem with hin | ⟨attempt, hattempt, rfl⟩
    · exact Or.inr (Or.inl hin)
    · exact Or.inr (hnext hattempt)
  · by_cases hne : other = worker
    · subst hne
      rcases hrunning attempt hattempt with hdone | hin | ⟨attempt', hattempt', heq⟩
      · exact Or.inl hdone
      · exact Or.inr (Or.inl hin)
      · exact Or.inr (heq ▸ hnext hattempt')
    · exact Or.inr (Or.inr ⟨other, attempt, (Function.update_of_ne hne ..).trans hattempt, rfl⟩)

/-- One worker goes on with `next`, in a world with more messages and more
notifications. -/
theorem Notices.replace {s : System} (h : s.Notices) {w : World} {worker : Worker}
    {next : Option Attempt} {queue : List Message} (hadds : s.world.Adds w)
    (hsub : s.world.notifications ⊆ w.notifications)
    (horigin : ∀ notification ∈ w.notifications, notification ∈ s.world.notifications ∨
      ∃ event ∈ w.emitted, event.notification = some notification)
    (hnext : ∀ attempt, next = some attempt → Telling w worker attempt)
    (hqueued : ∀ message ∈ s.queue, message ∈ queue ∨
      ∃ attempt, next = some attempt ∧ attempt.message = message)
    (hrunning : ∀ attempt, s.running worker = some attempt → Told w attempt.message ∨
      attempt.message ∈ queue ∨ ∃ attempt', next = some attempt' ∧
        attempt'.message = attempt.message) :
    (System.mk w queue (Function.update s.running worker next)).Notices := by
  have hemitted := hadds.emitted
  obtain ⟨rows, houtbox, hnew⟩ := hadds
  refine ⟨?_, ?_, ?_⟩
  · intro other attempt hattempt
    by_cases hne : other = worker
    · subst hne
      have hself : Function.update s.running other next other = next := Function.update_self ..
      exact hnext attempt (hself.symm.trans hattempt)
    · have hold := (Function.update_of_ne hne ..).symm.trans hattempt
      exact (h.attempts other attempt hold).mono hsub
  · intro row hrow hhanded
    rw [houtbox, List.mem_append] at hrow
    rcases hrow with hrow | hrow
    · rcases h.told row hrow hhanded with htold | hin
      · exact Or.inl (htold.mono hsub)
      · exact hin.replace hqueued hrunning
    · rw [(hnew row hrow).1] at hhanded
      cases hhanded
  · intro notification hmem
    rcases horigin notification hmem with hold | hcaused
    · obtain ⟨event, hevent, hnotification⟩ := h.origin notification hold
      exact ⟨event, hemitted hevent, hnotification⟩
    · exact hcaused

/-- A request, or an expiry, tells nothing; no delivery is concerned. -/
theorem Notices.grow {s : System} (h : s.Notices) {w : World} (hadds : s.world.Adds w)
    (hsame : w.notifications = s.world.notifications) :
    (System.mk w s.queue s.running).Notices := by
  have hsub : s.world.notifications ⊆ w.notifications := hsame ▸ List.Subset.refl _
  have worker : Worker := ⟨.order, 0⟩
  have hreplace : (System.mk w s.queue
      (Function.update s.running worker (s.running worker))).Notices := by
    refine h.replace hadds hsub (fun _ hmem => Or.inl (hsame ▸ hmem)) ?_
      (fun message hmem => Or.inl hmem) ?_
    · intro attempt hattempt
      exact (h.attempts worker attempt hattempt).mono hsub
    · intro attempt hattempt
      exact Or.inr (Or.inr ⟨attempt, hattempt, rfl⟩)
  rwa [Function.update_eq_self] at hreplace

/-- A flag of an outbox row is set, and its message is queued if it has a
consumer. -/
theorem Notices.setRow {s : System} (h : s.Notices) {n : ℕ} {row row' : OutboxRow}
    {queue : List Message} (hrow : s.world.outbox[n]? = some row)
    (hmessage : row'.message = row.message) (hsub : s.queue ⊆ queue)
    (hlive : row.handed = true ∨ row.message.consumer = none ∨ row.message ∈ queue) :
    (System.mk (s.world.setRow n row') queue s.running).Notices := by
  have hmem := List.mem_of_getElem? hrow
  have hflight (message : Message) (hin : s.InFlight message) :
      (System.mk (s.world.setRow n row') queue s.running).InFlight message :=
    hin.imp_left fun hqueued => hsub hqueued
  refine ⟨fun worker attempt hattempt => (h.attempts worker attempt hattempt).mono
    (List.Subset.refl _), ?_, ?_⟩
  · intro r hr hhanded
    rcases List.mem_or_eq_of_mem_set hr with hold | rfl
    · exact (h.told r hold hhanded).imp_right (hflight _)
    · rw [hmessage]
      rcases hlive with hbefore | hnone | hin
      · exact (h.told row hmem hbefore).imp_right (hflight _)
      · exact Or.inl (told_of_consumer (by simp [hnone]))
      · exact Or.inr (Or.inl hin)
  · intro notification hnotification
    rw [emitted_setRow hrow hmessage]
    exact h.origin notification hnotification

/-- A delivery ends, and its message is told or queued again. -/
theorem Notices.release {s : System} (h : s.Notices) {worker : Worker} {attempt : Attempt}
    {queue : List Message} (hrunning : s.running worker = some attempt) (hsub : s.queue ⊆ queue)
    (hdone : Told s.world attempt.message ∨ attempt.message ∈ queue) :
    (s.release worker queue).Notices := by
  refine h.replace (.of_eq rfl) (List.Subset.refl _) (fun _ hmem => Or.inl hmem)
    (fun attempt hattempt => by cases hattempt) (fun m hm => Or.inl (hsub hm)) ?_
  intro attempt' hattempt'
  cases hrunning.symm.trans hattempt'
  exact hdone.imp_right Or.inl

/-- One awaited call of a delivery. -/
theorem Notices.resume {s : System} (hinv : s.Inv) (howned : s.Owned) (h : s.Notices)
    {worker : Worker} {attempt : Attempt} (hrunning : s.running worker = some attempt)
    (ω : Answers) {e : Effect} {k : e.Answer → Handler Unit} (hprog : attempt.prog = .call e k) :
    (s.resume worker attempt ω e k).Notices := by
  obtain ⟨message, p, txn, missed⟩ := attempt
  obtain rfl : p = .call e k := hprog
  rw [System.resume]
  cases hexec : exec ω e (s.world, ⟨txn, missed⟩) with
  | none =>
      exact h.release hrunning (List.subset_append_left _ _)
        (Or.inr (List.mem_append_right _ List.mem_cons_self))
  | some result =>
      obtain ⟨r, w, session'⟩ := result
      have hadds := (hinv.callSpec hrunning hexec).adds
      have htelling := h.attempts worker _ hrunning
      have hgoes : ∀ attempt, s.running worker = some attempt → Told w attempt.message ∨
          attempt.message ∈ s.queue ∨ ∃ attempt', some (Attempt.mk message (k r) session') =
            some attempt' ∧ attempt'.message = attempt.message := by
        intro attempt hattempt
        cases hrunning.symm.trans hattempt
        exact Or.inr (Or.inr ⟨_, rfl, rfl⟩)
      by_cases hservice : worker.service = .notification
      · rcases htelling hservice with ⟨hcommit, htxn⟩ | ⟨hret, -⟩
        · have hconsumer := (hinv.attempts worker _ hrunning).consumer
          rw [hservice] at hconsumer
          obtain ⟨notification, hnotification, hhandle⟩ := NotificationService.handle_eq hconsumer
          simp only at hcommit htxn
          rw [hhandle] at hcommit
          cases hcommit
          subst htxn
          cases hexec
          refine h.replace hadds (List.subset_append_left _ _) ?_ ?_ (fun m hm => Or.inl hm) hgoes
          · intro n hn
            rcases List.mem_append.1 hn with hold | hnew
            · exact Or.inl hold
            · refine Or.inr ⟨message, ?_, ?_⟩
              · exact (hinv.attempts worker _ hrunning).emitted
              · rw [List.mem_singleton.1 hnew, hnotification]
          · intro attempt' hattempt'
            cases hattempt'
            refine fun _ => Or.inr ⟨rfl, fun n hn => ?_⟩
            cases hnotification.symm.trans hn
            exact List.mem_append_right _ List.mem_cons_self
        · cases hret
      · obtain ⟨⟨he, -⟩, htxn⟩ := howned worker _ hrunning
        have hsame : w.notifications = s.world.notifications :=
          (confined_exec he htxn hexec).1.notifications (Ne.symm hservice)
        refine h.replace hadds (hsame ▸ List.Subset.refl _) (fun _ hmem => Or.inl (hsame ▸ hmem))
          ?_ (fun m hm => Or.inl hm) hgoes
        intro attempt' hattempt' hnotify
        exact absurd hnotify hservice

/-- A worker takes a message from the queue. -/
theorem Notices.start {s : System} (h : s.Notices) {worker : Worker} {message : Message}
    (hconsumer : message.consumer = some worker.service)
    (hidle : (s.running worker).isNone = true) :
    (System.mk s.world (s.queue.erase message)
      (Function.update s.running worker (some (.new message)))).Notices := by
  refine h.replace (.of_eq rfl) (List.Subset.refl _) (fun _ hmem => Or.inl hmem) ?_ ?_ ?_
  · intro attempt hattempt
    cases hattempt
    refine fun hservice => Or.inl ⟨?_, rfl⟩
    show message.handler = NotificationService.handle message
    rw [Message.handler, hconsumer, hservice]
  · intro m hm
    by_cases hne : m = message
    · exact Or.inr ⟨.new message, rfl, hne.symm⟩
    · exact Or.inl ((List.mem_erase_of_ne hne).2 hm)
  · intro attempt hattempt
    rw [hattempt] at hidle
    cases hidle

theorem Notices.step {s s' : System} {a : Action} (hinv : s.Inv) (howned : s.Owned)
    (h : s.Notices) (hstep : s.step a = some s') : s'.Notices := by
  cases a with
  | checkout req ω =>
      cases hstep
      show (System.mk (s.world.request (OrderService.checkout req) ω) s.queue s.running).Notices
      rcases OrderService.request_checkout ω s.world req with ⟨hsame, -⟩ | ⟨-, hplace⟩
      · rw [hsame]
        exact h
      · rw [hplace]
        exact h.grow (.of_new rfl) rfl
  | seed req ω =>
      cases hstep
      show (System.mk (s.world.request (InventoryService.seedInventory req) ω) s.queue
        s.running).Notices
      obtain ⟨item, -, -, hcompletes⟩ := InventoryService.run_seedInventory ω s.world req
      rw [World.request_of_completes hcompletes]
      exact h.grow (.of_eq rfl) rfl
  | forget key =>
      cases hstep
      refine h.grow (.of_eq (s.world.same_setCache key none).outbox) ?_
      cases key <;> rfl
  | publish n =>
      simp only [System.step, Option.map_eq_some_iff] at hstep
      obtain ⟨row, hrow, rfl⟩ := hstep
      rw [enqueue]
      split
      · exact h.setRow hrow rfl (List.subset_append_left _ _)
          (Or.inr (Or.inr (List.mem_append_right _ List.mem_cons_self)))
      · next hnot =>
          rw [Option.not_isSome_iff_eq_none] at hnot
          exact h.setRow hrow rfl (List.Subset.refl _) (Or.inr (Or.inl hnot))
  | mark n =>
      simp only [System.step, Option.bind_eq_some_iff, Option.ite_none_right_eq_some] at hstep
      obtain ⟨row, hrow, hhanded, hs⟩ := hstep
      cases hs
      exact h.setRow hrow rfl (List.Subset.refl _) (Or.inl hhanded)
  | start worker message =>
      simp only [System.step, Option.ite_none_right_eq_some] at hstep
      obtain ⟨⟨-, hconsumer, hidle, -⟩, hs⟩ := hstep
      cases hs
      exact h.start hconsumer hidle
  | call worker ω =>
      simp only [System.step, Option.bind_eq_some_iff] at hstep
      obtain ⟨attempt, hrunning, hs⟩ := hstep
      split at hs
      · next e k hprog =>
          cases hs
          exact h.resume hinv howned hrunning ω hprog
      · cases hs
  | finish worker =>
      simp only [System.step, Option.bind_eq_some_iff] at hstep
      obtain ⟨attempt, hrunning, hs⟩ := hstep
      split at hs
      · next hprog =>
          cases hs
          refine h.release hrunning (List.Subset.refl _) (Or.inl ?_)
          by_cases hservice : worker.service = .notification
          · rcases h.attempts worker attempt hrunning hservice with ⟨hcommit, -⟩ | ⟨-, htold⟩
            · have hconsumer := (hinv.attempts worker attempt hrunning).consumer
              rw [hservice] at hconsumer
              obtain ⟨_, -, hhandle⟩ := NotificationService.handle_eq hconsumer
              rw [hprog, hhandle] at hcommit
              cases hcommit
            · exact htold
          · refine told_of_consumer ?_
            rw [(hinv.attempts worker attempt hrunning).consumer]
            exact fun heq => hservice (Option.some.inj heq)
      · cases hs
  | abort worker =>
      simp only [System.step, Option.map_eq_some_iff] at hstep
      obtain ⟨attempt, hrunning, rfl⟩ := hstep
      exact h.release hrunning (List.subset_append_left _ _)
        (Or.inr (List.mem_append_right _ List.mem_cons_self))

theorem notices_start : System.start.Notices where
  attempts worker attempt hattempt := by cases hattempt
  told row hrow := by cases hrow
  origin notification hmem := by cases hmem

theorem notices_of_run {s : System} {actions : List Action}
    (h : Schedule.run step System.start actions = some s) : s.Inv ∧ s.Notices := by
  have hkept : s.Inv ∧ s.Owned ∧ s.Notices := by
    refine Schedule.run_invariant (I := fun s : System => s.Inv ∧ s.Owned ∧ s.Notices) ?_
      ⟨inv_start, owned_start, notices_start⟩ h
    rintro s a s' ⟨hinv, howned, hs⟩ hstep
    exact ⟨hinv.step hstep, (howned.step hstep).1, hs.step hinv howned hstep⟩
  exact ⟨hkept.1, hkept.2.2⟩

/-! ## Quiescent states -/

/-- The row tells how the order has ended. -/
def Tells (order : Order) (notification : Notification) : Prop :=
  order.status = .confirmed ∧ notification = confirmation ⟨order.id⟩ ∨
    order.status = .cancelled ∧ ∃ reason, notification = cancellation ⟨order.id, reason⟩

theorem orderId_of_notification {event : Message} {notification : Notification}
    (h : event.notification = some notification) :
    notification.orderId = event.orderId := by
  cases event <;> cases h <;> rfl

/-- The row of an emitted event tells how its order has ended. -/
theorem tells_of_notification {w : World} (h : Causal w) {event : Message}
    {notification : Notification} (hmem : event ∈ w.emitted)
    (hnotification : event.notification = some notification) :
    (∃ order ∈ w.orders, order.id = notification.orderId) ∧
      ∀ order ∈ w.orders, order.id = notification.orderId → Tells order notification := by
  rw [orderId_of_notification hnotification]
  cases event with
  | orderConfirmed e =>
      cases hnotification
      obtain ⟨hexists, hstatus⟩ := h.announced _ hmem rfl .confirmed rfl
      refine ⟨hexists, fun order horder hid => Or.inl ⟨hstatus order horder hid, ?_⟩⟩
      rw [hid]
      rfl
  | orderCancelled e =>
      cases hnotification
      obtain ⟨hexists, hstatus⟩ := h.announced _ hmem rfl .cancelled rfl
      refine ⟨hexists, fun order horder hid => Or.inr ⟨hstatus order horder hid, e.reason, ?_⟩⟩
      rw [hid]
      rfl
  | _ => cases hnotification

/-- The answer to a final command is to be told. -/
theorem exists_notification {command event : Message} {status : OrderStatus}
    (hstatus : command.status = some status) (hans : command.Answers event)
    (hsender : command.sender = .saga) :
    ∃ notification, event.notification = some notification := by
  cases command with
  | confirmOrder cmd =>
      cases event <;> first | exact ⟨_, rfl⟩ | cases hans
  | cancelOrder cmd =>
      cases event <;> first | exact ⟨_, rfl⟩ | cases hans
  | orderConfirmed | orderCancelled => cases hsender
  | _ => cases hstatus

theorem Notices.told_of_quiescent {s : System} (hinv : s.Inv) (h : s.Notices)
    (hquiescent : s.Quiescent) {event : Message} (hmem : event ∈ s.world.emitted) :
    Told s.world event := by
  obtain ⟨hqueue, hidle, hpublished⟩ := hquiescent
  obtain ⟨row, hrow, rfl⟩ := mem_emitted.1 hmem
  rcases h.told row hrow (hinv.handed row hrow (hpublished row hrow)) with htold | hin | hin
  · exact htold
  · rw [hqueue] at hin
    cases hin
  · obtain ⟨worker, attempt, hattempt, -⟩ := hin
    cases (hidle worker).symm.trans hattempt

/-- Every order is decided and told when nothing is in flight. -/
theorem Notices.exists_of_quiescent {s : System} (hinv : s.Inv) (h : s.Notices)
    (hquiescent : s.Quiescent) {order : Order} (horder : order ∈ s.world.orders) :
    ∃ notification ∈ s.world.notifications, Tells order notification := by
  have hdecided : order.status ≠ .pending := by
    obtain ⟨row, -, hstatus | hstatus⟩ := hinv.closed_of_quiescent hquiescent horder <;>
      simp [hstatus.1]
  obtain ⟨command, hcommand, hsender, hid, hstatus⟩ :=
    hinv.causal.commanded order horder hdecided
  obtain ⟨event, hevent, hans⟩ :=
    answer_of_settled hsender (hinv.settled_of_quiescent hquiescent hcommand)
  obtain ⟨notification, hnotification⟩ := exists_notification hstatus hans hsender
  refine ⟨notification, ?_, ?_⟩
  · exact h.told_of_quiescent hinv hquiescent hevent notification hnotification
  · refine (tells_of_notification hinv.causal hevent hnotification).2 order horder ?_
    rw [orderId_of_notification hnotification, Message.orderId_of_answers hans, hid]

/-- **No customer is misinformed, and none is left uninformed**, however often
deliveries are abandoned. -/
theorem informed_of_run {s : System} {actions : List Action}
    (hrun : Schedule.run step System.start actions = some s) :
    (∀ notification ∈ s.world.notifications,
      (∃ order ∈ s.world.orders, order.id = notification.orderId) ∧
        ∀ order ∈ s.world.orders, order.id = notification.orderId → Tells order notification) ∧
      (s.Quiescent → ∀ order ∈ s.world.orders,
        ∃ notification ∈ s.world.notifications, Tells order notification) := by
  obtain ⟨hinv, hnotices⟩ := notices_of_run hrun
  refine ⟨fun notification hmem => ?_, fun hquiescent order horder => ?_⟩
  · obtain ⟨event, hevent, hnotification⟩ := hnotices.origin notification hmem
    exact tells_of_notification hinv.causal hevent hnotification
  · exact hnotices.exists_of_quiescent hinv hquiescent horder

/-- The sale of one phone, in which the notification service is stopped after its
commit and is handed the event again. -/
def toldTwice : List Action :=
  sold.dropLast ++ [.abort ⟨.notification, 0⟩,
    .start ⟨.notification, 0⟩ (.orderConfirmed ⟨"id-1"⟩), .call ⟨.notification, 0⟩ granting,
    .finish ⟨.notification, 0⟩]

theorem informed_toldTwice : ∃ s, Schedule.run step System.start toldTwice = some s ∧
    s.Quiescent ∧ s.world.orders ≠ [] ∧ s.world.notifications.length = 2 ∧
    (∀ notification ∈ s.world.notifications,
      (∃ order ∈ s.world.orders, order.id = notification.orderId) ∧
        ∀ order ∈ s.world.orders, order.id = notification.orderId → Tells order notification) ∧
    ∀ order ∈ s.world.orders, ∃ notification ∈ s.world.notifications,
      Tells order notification := by
  have hrun : (Schedule.run step System.start toldTwice).map (fun s =>
      (s.queue, s.world.outbox.all OutboxRow.published, s.world.orders.length,
        s.world.notifications.length,
        [Service.saga, .inventory, .payment, .order, .notification].all fun service =>
          (s.running ⟨service, 0⟩).isNone)) = some ([], true, 1, 2, true) := by
    decide +kernel
  obtain ⟨s, hs, heval⟩ := Option.map_eq_some_iff.1 hrun
  simp only [Prod.mk.injEq] at heval
  obtain ⟨hqueue, hpublished, horders, hnotifications, hidle⟩ := heval
  have hquiescent : s.Quiescent := by
    refine ⟨hqueue, ?_, fun row hrow => List.all_eq_true.1 hpublished row hrow⟩
    rintro ⟨service, slot⟩
    by_cases hslot : slot = 0
    · subst hslot
      rw [← Option.isNone_iff_eq_none]
      exact List.all_eq_true.1 hidle service (by cases service <;> decide)
    · have hslots : toldTwice.all (fun a => match a with
          | .start worker _ => worker.slot == 0
          | _ => true) = true := by decide
      refine idle_of_run hs fun message hmem => hslot ?_
      exact of_decide_eq_true (List.all_eq_true.1 hslots _ hmem)
  obtain ⟨htrue, hall⟩ := informed_of_run hs
  refine ⟨s, hs, hquiescent, ?_, hnotifications, htrue, hall hquiescent⟩
  intro hnil
  rw [hnil] at horders
  cases horders

end System

end FlashSale
