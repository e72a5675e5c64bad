import FlashSale.SagaCoordinator.Transitions

/-!
# The saga database

`SagaDb` is the part of the world that the coordinator owns: the saga rows by
order id and the commands in its outbox. `commit` is the transaction that
writes a row by its primary key together with one command; `deliver` is one
delivery processed alone, from the read to the commit.

`World.sagaDb` reads the saga database off the world, and
`sagaDb_run_handle` says that the consumer callback, run to its end, acts on it
as `deliver`.
-/

namespace FlashSale

/-- The rows of `saga_state` and the messages in the coordinator's outbox. -/
@[ext] structure SagaDb where
  rows : OrderId → Option SagaRow
  outbox : List Message

namespace SagaDb

open SagaCoordinator

/-- The database right after its tables are created. -/
def empty : SagaDb where
  rows := fun _ => none
  outbox := []

/-- The row write of a transaction; `none` when the primary key rejects an
INSERT or an UPDATE matches no row. -/
def written (row : Option SagaRow) : SagaWrite → Option SagaRow
  | .insert new => if row.isSome then none else some new
  | .assign state paymentId failureReason =>
      row.map fun old => old.assign state paymentId failureReason

/-- One transaction: a row write and a command, both or neither. -/
def commit (db : SagaDb) (orderId : OrderId) (write : SagaWrite) (command : Message) :
    Option SagaDb :=
  (written (db.rows orderId) write).map fun row =>
    { rows := Function.update db.rows orderId (some row)
      outbox := db.outbox ++ [command] }

/-- One delivery that nothing else interleaves with. -/
def deliver (db : SagaDb) (message : Message) : SagaDb :=
  match transition message (db.rows message.orderId) with
  | .skipped _ => db
  | .applied write command => (db.commit message.orderId write command).getD db

/-- The commands committed for an order, oldest first. -/
def commandsOf (db : SagaDb) (orderId : OrderId) : List Message :=
  db.outbox.filter fun command => command.orderId = orderId

/-- The `state` column of the row of an order. -/
def stateOf (db : SagaDb) (orderId : OrderId) : Option SagaState :=
  (db.rows orderId).map SagaRow.state

theorem deliver_skipped {db : SagaDb} {message : Message} {reason : String}
    (h : transition message (db.rows message.orderId) = .skipped reason) :
    db.deliver message = db := by
  rw [deliver, h]

theorem deliver_applied {db : SagaDb} {message : Message} {write : SagaWrite}
    {command : Message}
    (h : transition message (db.rows message.orderId) = .applied write command) :
    db.deliver message = (db.commit message.orderId write command).getD db := by
  rw [deliver, h]

end SagaDb

namespace SagaCoordinator

/-- How far a saga has come. -/
def rank : SagaState → ℕ
  | .reserving => 1
  | .charging => 2
  | .compensating => 3
  | .confirmed => 4
  | .cancelled => 4
  | _ => 0

/-- A handler is applied only to the state it expects; this is the common case
analysis of the five handlers that need an existing saga. -/
theorem whenIn_eq_applied {expected : SagaState} {saga : Option SagaRow}
    {apply : SagaRow → SagaWrite × Message} {write : SagaWrite} {command : Message}
    (h : whenIn expected saga apply = .applied write command) :
    ∃ row, saga = some row ∧ row.state = expected ∧ apply row = (write, command) := by
  cases saga with
  | none => simp [whenIn] at h
  | some row =>
      by_cases hstate : row.state = expected
      · simp only [whenIn, if_pos hstate, TransitionOutcome.applied.injEq] at h
        exact ⟨row, rfl, hstate, Prod.ext h.1 h.2⟩
      · simp [whenIn, hstate] at h

theorem whenIn_of_state {expected : SagaState} {row : SagaRow}
    {apply : SagaRow → SagaWrite × Message} (h : row.state = expected) :
    whenIn expected (some row) apply = .applied (apply row).1 (apply row).2 := by
  simp [whenIn, h]

/-- On the row it was read from, the write of an applied transition is never
rejected. -/
theorem transition_written {message : Message} {saga : Option SagaRow} {write : SagaWrite}
    {command : Message} (h : transition message saga = .applied write command) :
    ∃ row, SagaDb.written saga write = some row := by
  cases message with
  | orderCreated event =>
      cases saga with
      | none => cases h; exact ⟨_, rfl⟩
      | some row => cases h
  | inventoryReserved event | inventoryReservationFailed event | inventoryReleased event
  | paymentSucceeded event | paymentFailed event =>
      obtain ⟨row, rfl, -, hrow⟩ := whenIn_eq_applied h
      cases hrow
      exact ⟨_, rfl⟩
  | paymentRefunded | orderConfirmed | orderCancelled | reserveInventory
  | releaseInventory | chargePayment | refundPayment | confirmOrder | cancelOrder => cases h

/-- A callback whose transition is skipped changes nothing. -/
theorem run_handle_skipped (ω : Answers) {w : World} {message : Message} {reason : String}
    (h : transition message (w.sagas message.orderId) = .skipped reason) :
    (handle message).run (exec ω) (w, {}) = (some (), w, {}) := by
  rw [transition] at h
  rw [handle]
  cases hhandler : handler message with
  | none => rfl
  | some transition =>
      rw [hhandler] at h
      simp only at h
      simp only [run_selectSaga, h]
      rfl

/-- A callback whose transition is applied writes the row and adds the command
to the coordinator's outbox. -/
theorem run_handle_applied (ω : Answers) {w : World} {message : Message} {write : SagaWrite}
    {command : Message} {row : SagaRow}
    (h : transition message (w.sagas message.orderId) = .applied write command)
    (hw : SagaDb.written (w.sagas message.orderId) write = some row) :
    (handle message).run (exec ω) (w, {}) =
      (some (),
        { w with sagas := Function.update w.sagas message.orderId (some row) }.emit .saga command,
        {}) := by
  have hwrite : w.write (.saga message.orderId write) =
      some { w with sagas := Function.update w.sagas message.orderId (some row) } := by
    cases write with
    | insert new =>
        cases hrow : w.sagas message.orderId <;>
          simp_all [SagaDb.written, World.write]
    | assign state paymentId failureReason =>
        cases hrow : w.sagas message.orderId <;>
          simp_all [SagaDb.written, World.write]
  rw [transition] at h
  rw [handle]
  cases hhandler : handler message with
  | none =>
      rw [hhandler] at h
      cases h
  | some transition =>
      rw [hhandler] at h
      simp only at h
      simp only [run_selectSaga, h]
      exact run_commit ω w {} (by simp [World.writeAll_cons, hwrite])

end SagaCoordinator

namespace World

open SagaCoordinator

/-- The part of the world that the coordinator owns. -/
def sagaDb (w : World) : SagaDb where
  rows := w.sagas
  outbox := (w.outbox.filter fun row => row.service = .saga).map OutboxRow.message

/-- **The consumer callback acts on the saga database as one delivery.** -/
theorem sagaDb_run_handle (ω : Answers) (w : World) (message : Message) :
    ((handle message).run (exec ω) (w, {})).2.1.sagaDb = w.sagaDb.deliver message := by
  cases ht : transition message (w.sagas message.orderId) with
  | skipped reason =>
      rw [run_handle_skipped ω ht, SagaDb.deliver_skipped ht]
  | applied write command =>
      obtain ⟨row, hw⟩ : ∃ row, SagaDb.written (w.sagas message.orderId) write = some row :=
        transition_written ht
      have hw' : SagaDb.written (w.sagaDb.rows message.orderId) write = some row := hw
      rw [run_handle_applied ω ht hw, SagaDb.deliver_applied ht, SagaDb.commit, hw']
      simp [sagaDb, emit, OutboxRow.new, List.filter_append]

end World

end FlashSale
