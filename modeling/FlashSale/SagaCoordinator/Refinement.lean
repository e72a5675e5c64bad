import FlashSale.SagaCoordinator.Diagram
import Mathlib.Data.List.Induction

/-!
# The handlers refine the diagram

Delivering messages one at a time from an empty saga database keeps, for every
order, the row and the emitted commands equal to what the documented machine
prescribes. One step is a simulation square (`Agrees.deliver`); the run theorem
is the fold of it.

`statesTaken` reads the path off the database itself, as the values the `state`
column takes one after the other, and `statesTaken_eq` identifies it with the
path of the machine.
-/

namespace FlashSale

namespace SagaDb

open SagaCoordinator

/-- The values the `state` column of an order takes, one for each change. -/
def statesTaken (orderId : OrderId) : SagaDb → List Message → List SagaState
  | _, [] => []
  | db, message :: messages =>
      (if (db.deliver message).stateOf orderId = db.stateOf orderId then []
        else ((db.deliver message).stateOf orderId).toList) ++
        statesTaken orderId (db.deliver message) messages

end SagaDb

namespace SagaCoordinator

open SagaDb

/-- Every handler emits a command about the order of its event. -/
theorem transition_orderId {message : Message} {saga : Option SagaRow}
    {write : SagaWrite} {command : Message}
    (h : transition message saga = .applied write command) :
    command.orderId = message.orderId := by
  cases message with
  | orderCreated event =>
      cases saga with
      | none =>
          simp only [transition, handler, handleOrderCreated,
            TransitionOutcome.applied.injEq] at h
          rw [← h.2]
          rfl
      | some row => simp [transition, handler, handleOrderCreated] at h
  | inventoryReserved event | inventoryReservationFailed event | inventoryReleased event
  | paymentSucceeded event | paymentFailed event =>
      obtain ⟨row, -, -, hrow⟩ := whenIn_eq_applied h
      cases hrow
      rfl
  | paymentRefunded | orderConfirmed | orderCancelled | reserveInventory
  | releaseInventory | chargePayment | refundPayment | confirmOrder | cancelOrder =>
      simp [transition, handler] at h

/-- On the row at the end of a path, the handler of an event takes the edge the
event is the label of: the row written is the row at the end of the longer
path, and the command is the one the diagram puts on the edge. -/
theorem transition_of_next {created : OrderCreated} {p q : Path} {message : Message}
    (hid : message.orderId = created.orderId) (h : p.next message = some q) :
    ∃ write command,
      transition message (some (p.row created)) = .applied write command ∧
        written (some (p.row created)) write = some (q.row created) ∧
        q.commands created = p.commands created ++ [command] := by
  cases p <;> cases message <;> simp only [Path.next, Option.some.injEq, reduceCtorEq] at h <;>
    subst h <;> refine ⟨_, _, rfl, rfl, ?_⟩ <;> simp only [Message.orderId] at hid <;>
    simp [Path.commands, Path.row, Path.failureReason, formatOptional, hid]

/-- On the row at the end of a path, an event that labels no edge is
skipped. -/
theorem transition_of_next_eq_none (created : OrderCreated) {p : Path} {message : Message}
    (h : p.next message = none) :
    ∃ reason, transition message (some (p.row created)) = .skipped reason := by
  cases message with
  | orderCreated event => exact ⟨_, rfl⟩
  | inventoryReserved event | inventoryReservationFailed event | inventoryReleased event
  | paymentSucceeded event | paymentFailed event =>
      cases p <;> first | exact ⟨_, rfl⟩ | simp [Path.next] at h
  | paymentRefunded | orderConfirmed | orderCancelled | reserveInventory
  | releaseInventory | chargePayment | refundPayment | confirmOrder | cancelOrder =>
      exact ⟨_, rfl⟩

/-- Without a row, only an `OrderCreated` is applied. -/
theorem transition_none_skipped {message : Message}
    (h : ∀ event, message ≠ .orderCreated event) :
    ∃ reason, transition message none = .skipped reason := by
  cases message with
  | orderCreated event => exact absurd rfl (h event)
  | inventoryReserved | inventoryReservationFailed | inventoryReleased | paymentSucceeded
  | paymentFailed => exact ⟨_, rfl⟩
  | paymentRefunded | orderConfirmed | orderCancelled | reserveInventory
  | releaseInventory | chargePayment | refundPayment | confirmOrder | cancelOrder =>
      exact ⟨_, rfl⟩

/-- The database shows, for one order, the row and the commands of a position
of the documented machine. -/
structure Agrees (orderId : OrderId) (db : SagaDb) (x : Option (OrderCreated × Path)) :
    Prop where
  row : db.rows orderId = x.map fun y => y.2.row y.1
  commands : db.commandsOf orderId = x.elim [] fun y => y.2.commands y.1
  id : ∀ y ∈ x, y.1.orderId = orderId

theorem agrees_empty (orderId : OrderId) : Agrees orderId SagaDb.empty none where
  row := rfl
  commands := rfl
  id := by simp

/-- A delivery about one order leaves the rows and the commands of the others
as they are. -/
theorem deliver_other (db : SagaDb) {message : Message} {orderId : OrderId}
    (hne : message.orderId ≠ orderId) :
    (db.deliver message).rows orderId = db.rows orderId ∧
      (db.deliver message).commandsOf orderId = db.commandsOf orderId := by
  cases ht : transition message (db.rows message.orderId) with
  | skipped reason => rw [deliver_skipped ht]; exact ⟨rfl, rfl⟩
  | applied write command =>
      rw [deliver_applied ht, SagaDb.commit]
      cases written (db.rows message.orderId) write with
      | none => exact ⟨rfl, rfl⟩
      | some row =>
          have hcmd : command.orderId ≠ orderId := by
            rw [transition_orderId ht]
            exact hne
          refine ⟨Function.update_of_ne hne.symm _ _, ?_⟩
          simp [commandsOf, List.filter_append, hcmd]

/-- What an applied delivery does to the row and the commands of its order. -/
theorem deliver_same {db : SagaDb} {message : Message} {write : SagaWrite}
    {command : Message} {row : SagaRow}
    (ht : transition message (db.rows message.orderId) = .applied write command)
    (hw : written (db.rows message.orderId) write = some row) :
    (db.deliver message).rows message.orderId = some row ∧
      (db.deliver message).commandsOf message.orderId =
        db.commandsOf message.orderId ++ [command] := by
  rw [deliver_applied ht, SagaDb.commit, hw]
  simp [commandsOf, List.filter_append, transition_orderId ht]

theorem advance_of_ne {message : Message} {orderId : OrderId}
    (hne : message.orderId ≠ orderId) (x : Option (OrderCreated × Path)) :
    advance orderId x message = x := by
  cases x with
  | some y => simp [advance, hne]
  | none =>
      cases message with
      | orderCreated event => exact if_neg hne
      | _ => rfl

theorem advance_none_of_ne {message : Message} (orderId : OrderId)
    (h : ∀ event, message ≠ .orderCreated event) :
    advance orderId none message = none := by
  cases message with
  | orderCreated event => exact absurd rfl (h event)
  | _ => rfl

/-- The first `OrderCreated` of an order starts its saga. -/
theorem Agrees.start {event : OrderCreated} {db : SagaDb}
    (h : Agrees event.orderId db none) :
    Agrees event.orderId (db.deliver (.orderCreated event)) (some (event, .reserving)) := by
  have hrow : db.rows event.orderId = none := h.row
  have ht : transition (.orderCreated event) (db.rows event.orderId) =
      .applied (.insert (Path.reserving.row event))
        (.reserveInventory ⟨event.orderId, event.sku, event.qty⟩) := by
    rw [hrow]
    rfl
  have hw : written (db.rows event.orderId) (.insert (Path.reserving.row event)) =
      some (Path.reserving.row event) := by
    rw [hrow]
    rfl
  obtain ⟨hrow', hcommands⟩ := @deliver_same db (.orderCreated event) _ _ _ ht hw
  refine ⟨hrow', ?_, ?_⟩
  · rw [show event.orderId = (Message.orderCreated event).orderId from rfl, hcommands]
    exact congrArg (· ++ _) h.commands
  · intro y hy
    cases hy
    rfl

/-- One delivery is one step of the documented machine. -/
theorem Agrees.deliver {orderId : OrderId} {db : SagaDb}
    {x : Option (OrderCreated × Path)} (h : Agrees orderId db x) (message : Message) :
    Agrees orderId (db.deliver message) (advance orderId x message) := by
  by_cases hid : message.orderId = orderId
  · subst hid
    cases x with
    | none =>
        by_cases hm : ∃ event, message = .orderCreated event
        · obtain ⟨event, rfl⟩ := hm
          rw [show advance (Message.orderCreated event).orderId none (.orderCreated event) =
            some (event, .reserving) from if_pos rfl]
          exact h.start
        · rw [not_exists] at hm
          obtain ⟨reason, ht⟩ := transition_none_skipped hm
          rw [← show db.rows message.orderId = none from h.row] at ht
          rw [deliver_skipped ht, advance_none_of_ne _ hm]
          exact h
    | some y =>
        obtain ⟨created, p⟩ := y
        have hcreated : created.orderId = message.orderId := h.id _ rfl
        have hrow : db.rows message.orderId = some (p.row created) := h.row
        have hadv : advance message.orderId (some (created, p)) message =
            some (created, (p.next message).getD p) := if_pos rfl
        rw [hadv]
        cases hnext : p.next message with
        | none =>
            obtain ⟨reason, ht⟩ := transition_of_next_eq_none created hnext
            rw [← hrow] at ht
            rw [deliver_skipped ht]
            exact h
        | some q =>
            obtain ⟨write, command, ht, hw, hc⟩ := transition_of_next hcreated.symm hnext
            rw [← hrow] at ht hw
            obtain ⟨h1, h2⟩ := deliver_same ht hw
            refine ⟨h1, ?_, ?_⟩
            · rw [h2, h.commands]
              exact hc.symm
            · intro z hz
              cases hz
              exact hcreated
  · rw [advance_of_ne hid]
    obtain ⟨h1, h2⟩ := deliver_other db hid
    exact ⟨h1.trans h.row, h2.trans h.commands, h.id⟩

/-- A step of the machine starts it, takes an edge, or changes nothing. -/
theorem advance_cases (orderId : OrderId) (x : Option (OrderCreated × Path))
    (message : Message) :
    advance orderId x message = x ∨
      (x = none ∧ ∃ event, message = .orderCreated event ∧
        advance orderId x message = some (event, .reserving)) ∨
      ∃ created p q, x = some (created, p) ∧ message.orderId = orderId ∧
        p.next message = some q ∧ advance orderId x message = some (created, q) := by
  by_cases hid : message.orderId = orderId
  · cases x with
    | none =>
        by_cases hm : ∃ event, message = .orderCreated event
        · obtain ⟨event, rfl⟩ := hm
          exact Or.inr (Or.inl ⟨rfl, event, rfl, if_pos hid⟩)
        · exact Or.inl (advance_none_of_ne _ (not_exists.1 hm))
    | some y =>
        obtain ⟨created, p⟩ := y
        have hadv : advance orderId (some (created, p)) message =
            some (created, (p.next message).getD p) := if_pos hid
        cases hnext : p.next message with
        | none => exact Or.inl (by rw [hadv, hnext]; rfl)
        | some q =>
            exact Or.inr (Or.inr ⟨created, p, q, rfl, hid, hnext, by rw [hadv, hnext]; rfl⟩)
  · exact Or.inl (advance_of_ne hid x)

theorem Agrees.stateOf {orderId : OrderId} {db : SagaDb} {x : Option (OrderCreated × Path)}
    (h : Agrees orderId db x) : db.stateOf orderId = x.map fun y => y.2.state := by
  rw [SagaDb.stateOf, h.row, Option.map_map]
  rfl

/-- What a delivery adds to the states taken is what the step adds to the path
of the machine. -/
theorem Agrees.states_advance {orderId : OrderId} {db : SagaDb}
    {x : Option (OrderCreated × Path)} (h : Agrees orderId db x) (message : Message) :
    ((advance orderId x message).elim [] fun y => y.2.states) =
      (x.elim [] fun y => y.2.states) ++
        if (db.deliver message).stateOf orderId = db.stateOf orderId then []
        else ((db.deliver message).stateOf orderId).toList := by
  rw [(h.deliver message).stateOf, h.stateOf]
  rcases advance_cases orderId x message with hadv | ⟨rfl, event, -, hadv⟩ |
    ⟨created, p, q, rfl, -, hnext, hadv⟩
  · rw [hadv, if_pos rfl, List.append_nil]
  · rw [hadv]
    rfl
  · rw [hadv]
    have hne : ¬ (some (created, q)).map (fun y : OrderCreated × Path => y.2.state) =
        (some (created, p)).map fun y => y.2.state := by
      simpa using Path.state_ne_of_next hnext
    rw [if_neg hne]
    exact Path.states_of_next hnext

theorem Agrees.statesTaken {orderId : OrderId} {db : SagaDb}
    {x : Option (OrderCreated × Path)} (h : Agrees orderId db x) (messages : List Message) :
    (x.elim [] fun y => y.2.states) ++ statesTaken orderId db messages =
      (messages.foldl (advance orderId) x).elim [] fun y => y.2.states := by
  induction messages generalizing db x with
  | nil => exact List.append_nil _
  | cons message messages ih =>
      rw [SagaDb.statesTaken, ← List.append_assoc, ← h.states_advance message]
      exact ih (h.deliver message)

/-- A declined order, with an event that comes too early, one that comes twice and one that
comes too late. -/
def declined : List Message :=
  [.inventoryReserved ⟨"order-1", "phone", 1⟩,
    .orderCreated ⟨"order-1", "phone", 1, "user-1", 100⟩,
    .inventoryReserved ⟨"order-1", "phone", 1⟩, .inventoryReserved ⟨"order-1", "phone", 1⟩,
    .paymentFailed ⟨"order-1", "card_declined"⟩,
    .paymentSucceeded ⟨"order-1", "payment-1", 100⟩]

end SagaCoordinator

end FlashSale
