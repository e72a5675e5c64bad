import FlashSale.System.Causality

/-!
# One announced outcome

The order service carries out `ConfirmOrder` and `CancelOrder`, the notification
service is told by the events that result. Both queues may deliver a message any
number of times, and neither consumer looks at what it has done before: every
command that finds its order sets the status and adds an event, every event adds
a notification. The outcome of an order is announced once exactly when no more
than one command and no more than one event of it are delivered.
-/

namespace FlashSale

/-- A delivery to the order service or to the notification service. -/
inductive Delivery
  | command (message : Message) (ω : Answers)
  | event (message : Message) (ω : Answers)

namespace Delivery

/-- A command of the order. -/
def isCommand (orderId : OrderId) : Delivery → Bool
  | command message _ => message.orderId = orderId
  | event _ _ => false

/-- An event of the order. -/
def isEvent (orderId : OrderId) : Delivery → Bool
  | command _ _ => false
  | event message _ => message.orderId = orderId

end Delivery

namespace World

/-- One delivery. A command may come at any time; an event has been committed. -/
def deliver (w : World) : Delivery → Option World
  | .command message ω =>
      if message.consumer = some .order then some (w.request (OrderService.handle message) ω)
      else none
  | .event message ω =>
      if message.consumer = some .notification ∧ message ∈ w.emitted then
        some (w.request (NotificationService.handle message) ω)
      else none

/-- The status of an order. -/
def statusOf (w : World) (orderId : OrderId) : Option OrderStatus :=
  (w.findOrder orderId).map Order.status

/-- The events that announce the outcome of an order. -/
def outcomes (w : World) (orderId : OrderId) : List Message :=
  w.emitted.filter fun message =>
    message.consumer = some .notification ∧ message.orderId = orderId

/-- The notifications about an order. -/
def notificationsOf (w : World) (orderId : OrderId) : List Notification :=
  w.notifications.filter fun notification => notification.orderId = orderId

end World

/-- Nothing has been announced about an order, which is pending if it exists. -/
structure Unannounced (w : World) (orderId : OrderId) : Prop where
  pending : ∀ order, w.findOrder orderId = some order → order.status = .pending
  outcomes : w.outcomes orderId = []
  notifications : w.notificationsOf orderId = []

/-- In the run from `w` to `s` the status of the order leaves `pending` at most once
and never changes afterwards, and its outcome is announced at most once. -/
structure AnnouncedOnce (w : World) (orderId : OrderId) (deliveries : List Delivery)
    (s : World) : Prop where
  settled : Schedule.Along World.deliver
    (fun u delivery => ∀ v, u.deliver delivery = some v → u.statusOf orderId ≠ some .pending →
      v.statusOf orderId = u.statusOf orderId) w deliveries
  outcome : (s.outcomes orderId).length ≤ 1
  notification : (s.notificationsOf orderId).length ≤ 1

/-! ## One delivery -/

section Step

variable {w s : World} {orderId : OrderId}

/-- A command that finds its order sets the status and commits one event. -/
theorem request_command {message : Message} (hmessage : message.consumer = some .order)
    (ω : Answers) :
    (w.findOrder message.orderId = none ∧
        w.request (OrderService.handle message) ω = w) ∨
      (w.findOrder message.orderId).isSome = true ∧
        ∃ status event, event.consumer = some .notification ∧ event.orderId = message.orderId ∧
          w.request (OrderService.handle message) ω =
            (w.settle message.orderId status).emit .order event := by
  cases hfind : w.findOrder message.orderId with
  | none =>
      refine Or.inl ⟨rfl, World.request_of_completes ?_⟩
      cases message with
      | confirmOrder cmd =>
          exact OrderService.completes_settle_none ω .confirmed (fun id => .orderConfirmed ⟨id⟩)
            hfind
      | cancelOrder cmd =>
          exact OrderService.completes_settle_none ω .cancelled
            (fun id => .orderCancelled ⟨id, cmd.reason⟩) hfind
      | _ => cases hmessage
  | some order =>
      refine Or.inr ⟨rfl, ?_⟩
      cases message with
      | confirmOrder cmd =>
          exact ⟨.confirmed, .orderConfirmed ⟨cmd.orderId⟩, rfl, rfl,
            World.request_of_completes (OrderService.completes_settle_some ω .confirmed
              (fun id => .orderConfirmed ⟨id⟩) hfind)⟩
      | cancelOrder cmd =>
          exact ⟨.cancelled, .orderCancelled ⟨cmd.orderId, cmd.reason⟩, rfl, rfl,
            World.request_of_completes (OrderService.completes_settle_some ω .cancelled
              (fun id => .orderCancelled ⟨id, cmd.reason⟩) hfind)⟩
      | _ => cases hmessage

/-- An event adds one notification. -/
theorem request_event {message : Message} (hmessage : message.consumer = some .notification)
    (ω : Answers) :
    ∃ notification : Notification, notification.orderId = message.orderId ∧
      w.request (NotificationService.handle message) ω =
        { w with notifications := w.notifications ++ [notification] } := by
  cases message with
  | orderConfirmed event =>
      exact ⟨NotificationService.confirmation event, rfl,
        World.request_of_completes ⟨{}, run_commit ω w {} rfl⟩⟩
  | orderCancelled event =>
      exact ⟨NotificationService.cancellation event, rfl,
        World.request_of_completes ⟨{}, run_commit ω w {} rfl⟩⟩
  | _ => cases hmessage

/-- What a delivery does to one order. -/
structure Stepped (orderId : OrderId) (w : World) (delivery : Delivery) (s : World) : Prop where
  found : (s.findOrder orderId).isSome = (w.findOrder orderId).isSome
  outcomes : (s.outcomes orderId).length = (w.outcomes orderId).length +
    if delivery.isCommand orderId ∧ (w.findOrder orderId).isSome = true then 1 else 0
  notifications : (s.notificationsOf orderId).length = (w.notificationsOf orderId).length +
    if delivery.isEvent orderId then 1 else 0
  status : delivery.isCommand orderId = false → s.statusOf orderId = w.statusOf orderId
  announced : delivery.isEvent orderId = true → w.outcomes orderId ≠ []

theorem World.statusOf_settle_of_ne {other : OrderId} (status : OrderStatus)
    (h : other ≠ orderId) : (w.settle other status).statusOf orderId = w.statusOf orderId := by
  rw [statusOf, statusOf, findOrder_settle]
  cases hfind : w.findOrder orderId with
  | none => rfl
  | some order =>
      have hne : order.id ≠ other := World.findOrder_id hfind ▸ h.symm
      simp [Order.settle, hne]

theorem World.outcomes_emit (service : Service) {event : Message}
    (hevent : event.consumer = some .notification) :
    ((w.emit service event).outcomes orderId).length =
      (w.outcomes orderId).length + if event.orderId = orderId then 1 else 0 := by
  rw [outcomes, emitted_emit, List.filter_append, List.length_append, outcomes]
  by_cases h : event.orderId = orderId
  · simp [h, hevent]
  · simp [h]

theorem stepped_deliver {delivery : Delivery} (h : w.deliver delivery = some s) :
    Stepped orderId w delivery s := by
  cases delivery with
  | command message ω =>
      simp only [World.deliver] at h
      split at h
      · rename_i hmessage
        cases h
        rcases request_command (w := w) hmessage ω with ⟨hfind, hsame⟩ |
          ⟨hfound, status, event, hevent, hid, hsame⟩
        · rw [hsame]
          refine ⟨rfl, ?_, rfl, fun _ => rfl, fun hfalse => nomatch hfalse⟩
          by_cases horder : message.orderId = orderId
          · subst horder
            simp [hfind]
          · simp [Delivery.isCommand, horder]
        · rw [hsame]
          refine ⟨?_, ?_, rfl, ?_, fun hfalse => nomatch hfalse⟩
          · show ((w.settle message.orderId status).findOrder orderId).isSome = _
            rw [World.findOrder_settle, Option.isSome_map]
          · rw [World.outcomes_emit .order hevent, hid]
            by_cases horder : message.orderId = orderId
            · subst horder
              simp [Delivery.isCommand, hfound, World.outcomes]
            · simp [Delivery.isCommand, horder, World.outcomes]
          · intro hother
            exact World.statusOf_settle_of_ne status (by simpa [Delivery.isCommand] using hother)
      · cases h
  | event message ω =>
      simp only [World.deliver] at h
      split at h
      · rename_i hmessage
        cases h
        obtain ⟨notification, hid, hsame⟩ := request_event (w := w) hmessage.1 ω
        rw [hsame]
        refine ⟨rfl, rfl, ?_, fun _ => rfl, ?_⟩
        · rw [World.notificationsOf, List.filter_append, List.length_append]
          by_cases horder : message.orderId = orderId
          · simp [Delivery.isEvent, hid, horder, World.notificationsOf]
          · simp [Delivery.isEvent, hid, horder, World.notificationsOf]
        · intro horder
          refine List.ne_nil_of_mem (List.mem_filter.2 ⟨hmessage.2, ?_⟩)
          simpa [hmessage.1, Delivery.isEvent] using horder
      · cases h

end Step

/-! ## Runs -/

section Run

variable {w s : World} {orderId : OrderId} {deliveries : List Delivery}

/-- What a run does to one order: every command that finds the order adds an event
and every event a notification. -/
structure Ran (orderId : OrderId) (w : World) (deliveries : List Delivery) (s : World) :
    Prop where
  found : (s.findOrder orderId).isSome = (w.findOrder orderId).isSome
  outcomes : (s.outcomes orderId).length = (w.outcomes orderId).length +
    if (w.findOrder orderId).isSome = true then deliveries.countP (Delivery.isCommand orderId)
    else 0
  notifications : (s.notificationsOf orderId).length = (w.notificationsOf orderId).length +
    deliveries.countP (Delivery.isEvent orderId)
  status : (∀ delivery ∈ deliveries, delivery.isCommand orderId = false) →
    s.statusOf orderId = w.statusOf orderId
  announced : ∀ delivery ∈ deliveries, delivery.isEvent orderId = true →
    s.outcomes orderId ≠ []

theorem ran_of_run (h : Schedule.run World.deliver w deliveries = some s) :
    Ran orderId w deliveries s := by
  induction deliveries generalizing w with
  | nil =>
      cases h
      exact ⟨rfl, by simp, rfl, fun _ => rfl, by simp⟩
  | cons delivery deliveries ih =>
      obtain ⟨u, hu, hrest⟩ := Schedule.run_cons_eq_some.1 h
      have hstep : Stepped orderId w delivery u := stepped_deliver hu
      have hrun := ih hrest
      refine ⟨hrun.found.trans hstep.found, ?_, ?_, ?_, ?_⟩
      · rw [hrun.outcomes, hstep.outcomes, hstep.found, List.countP_cons]
        by_cases hfound : (w.findOrder orderId).isSome = true
        · simp only [hfound, if_true, and_true]
          omega
        · simp [hfound]
      · rw [hrun.notifications, hstep.notifications, List.countP_cons]
        omega
      · intro hnone
        rw [hrun.status fun d hd => hnone d (List.mem_cons_of_mem delivery hd),
          hstep.status (hnone delivery List.mem_cons_self)]
      · intro d hd hevent
        rcases List.mem_cons.1 hd with rfl | hd
        · have hbefore : 0 < (w.outcomes orderId).length :=
            List.length_pos_iff.2 (hstep.announced hevent)
          refine List.length_pos_iff.1 ?_
          rw [hrun.outcomes, hstep.outcomes]
          omega
        · exact hrun.announced d hd hevent

theorem World.statusOf_eq_none_iff :
    w.statusOf orderId = none ↔ (w.findOrder orderId).isSome = false := by
  rw [World.statusOf, Option.map_eq_none_iff, Option.isSome_eq_false_iff, Option.isNone_iff_eq_none]

theorem settled_of_count (hfresh : Unannounced w orderId)
    (hcount : w.findOrder orderId = none ∨ deliveries.countP (Delivery.isCommand orderId) ≤ 1) :
    Schedule.Along World.deliver
      (fun u delivery => ∀ v, u.deliver delivery = some v → u.statusOf orderId ≠ some .pending →
        v.statusOf orderId = u.statusOf orderId) w deliveries := by
  apply Schedule.along_of_forall_prefix
  intro before delivery after u hsplit _ hu v hv hnot
  have hrun : Ran orderId w before u := ran_of_run hu
  have hstep : Stepped orderId u delivery v := stepped_deliver hv
  cases hfind : w.findOrder orderId with
  | none =>
      have hmissing : (u.findOrder orderId).isSome = false := by rw [hrun.found, hfind]; rfl
      rw [World.statusOf_eq_none_iff.2 hmissing]
      exact World.statusOf_eq_none_iff.2 (hstep.found.trans hmissing)
  | some order =>
      cases hcommand : delivery.isCommand orderId with
      | false => exact hstep.status hcommand
      | true =>
          -- it is the only command, so the order was still pending
          have hone := hcount.resolve_left (by rw [hfind]; simp)
          rw [hsplit, List.countP_append, List.countP_cons_of_pos hcommand] at hone
          have hbefore : before.countP (Delivery.isCommand orderId) = 0 := by omega
          have hsame := hrun.status fun d hd => by
            simpa using List.countP_eq_zero.1 hbefore d hd
          rw [hsame, World.statusOf, hfind, Option.map_some, hfresh.pending order hfind] at hnot
          exact absurd rfl hnot

/-- The outcome of an order is announced once if and only if the order does not
exist, or at most one command and at most one event of it are delivered. -/
theorem announcedOnce_iff (hfresh : Unannounced w orderId)
    (h : Schedule.run World.deliver w deliveries = some s) :
    AnnouncedOnce w orderId deliveries s ↔
      w.findOrder orderId = none ∨
        deliveries.countP (Delivery.isCommand orderId) ≤ 1 ∧
          deliveries.countP (Delivery.isEvent orderId) ≤ 1 := by
  have hrun : Ran orderId w deliveries s := ran_of_run h
  have houtcomes := hrun.outcomes
  have hnotifications := hrun.notifications
  rw [hfresh.outcomes, List.length_nil, Nat.zero_add] at houtcomes
  rw [hfresh.notifications, List.length_nil, Nat.zero_add] at hnotifications
  constructor
  · intro honce
    cases hfind : w.findOrder orderId with
    | none => exact Or.inl rfl
    | some order =>
        rw [hfind, Option.isSome_some, if_pos rfl] at houtcomes
        exact Or.inr ⟨houtcomes ▸ honce.outcome, hnotifications ▸ honce.notification⟩
  · rintro (hfind | ⟨hcommands, hevents⟩)
    · rw [hfind, if_neg (by simp)] at houtcomes
      have hnone : s.outcomes orderId = [] := List.length_eq_zero_iff.1 houtcomes
      have hevents : deliveries.countP (Delivery.isEvent orderId) = 0 :=
        List.countP_eq_zero.2 fun d hd hevent => hrun.announced d hd hevent hnone
      refine ⟨settled_of_count hfresh (Or.inl hfind), ?_, ?_⟩
      · omega
      · omega
    · refine ⟨settled_of_count hfresh (Or.inr hcommands), ?_, ?_⟩
      · rw [houtcomes]
        split <;> omega
      · omega

end Run

/-- One pending order of which nothing has been announced. -/
def onePending : World :=
  { World.empty with orders := [⟨"7", "user", "phone", 1, 100, .pending⟩] }

theorem unannounced_onePending : Unannounced onePending "7" := by
  refine ⟨?_, rfl, rfl⟩
  intro order horder
  cases horder
  rfl

/-- The answers of the lock, the limiter and the gateway do not matter here. -/
def unused : Answers := ⟨true, true, ⟨true, "ref", none⟩, "id"⟩

theorem announcedOnce_iff_confirmed : ∃ s,
    Schedule.run World.deliver onePending
        [.command (.confirmOrder ⟨"7"⟩) unused, .event (.orderConfirmed ⟨"7"⟩) unused] = some s ∧
      (AnnouncedOnce onePending "7"
          [.command (.confirmOrder ⟨"7"⟩) unused, .event (.orderConfirmed ⟨"7"⟩) unused] s ↔
        onePending.findOrder "7" = none ∨ 1 ≤ 1 ∧ 1 ≤ 1) := by
  have hrun : (Schedule.run World.deliver onePending
      [.command (.confirmOrder ⟨"7"⟩) unused, .event (.orderConfirmed ⟨"7"⟩) unused]).isSome =
        true := by decide +kernel
  obtain ⟨s, hs⟩ := Option.isSome_iff_exists.1 hrun
  exact ⟨s, hs, announcedOnce_iff unannounced_onePending hs⟩

/-- A second delivery of `ConfirmOrder` announces the order a second time. -/
theorem announced_twice :
    ¬ ∀ (w : World) (orderId : OrderId) (deliveries : List Delivery) (s : World),
      Unannounced w orderId → Schedule.run World.deliver w deliveries = some s →
        AnnouncedOnce w orderId deliveries s := by
  intro h
  have hrun : (Schedule.run World.deliver onePending
      [.command (.confirmOrder ⟨"7"⟩) unused, .command (.confirmOrder ⟨"7"⟩) unused]).map
        (fun s => (s.outcomes "7").length) = some 2 := by decide +kernel
  obtain ⟨s, hs, hlength⟩ := Option.map_eq_some_iff.1 hrun
  have honce := (h onePending "7" _ s unannounced_onePending hs).outcome
  rw [hlength] at honce
  exact absurd honce (by decide)

end FlashSale
