import FlashSale.System.Transactions
import Mathlib.Logic.Relation

/-!
# No order is left stuck

A message is settled when what it was sent for has happened: a command has been
answered, a lifecycle event has taken its saga past the state that it is for.
`Inv` says that a message which was handed to the broker is settled or still in
flight. A skipped event is settled, since its cause came first, so acknowledging
it loses nothing; and when nothing is in flight any more, every saga has come to
the end of its path.
-/

namespace FlashSale

open SagaCoordinator

/-! ## Past a state -/

theorem SagaCoordinator.Path.states_eq (p : Path) : ∃ before, p.states = before ++ [p.state] := by
  cases p with
  | reserving => exact ⟨[], rfl⟩
  | charging => exact ⟨[.reserving], rfl⟩
  | confirmed paymentId => exact ⟨[.reserving, .charging], rfl⟩
  | compensating reason => exact ⟨[.reserving, .charging], rfl⟩
  | cancelledUnreserved reason => exact ⟨[.reserving], rfl⟩
  | cancelledUnpaid reason => exact ⟨[.reserving, .charging, .compensating], rfl⟩

/-- From a state on the path, edges lead to the state in which the path ends. -/
theorem SagaCoordinator.Path.edges_of_mem {p : Path} {state : SagaState} (h : state ∈ p.states)
    (hne : state ≠ p.state) : Relation.TransGen Edge state p.state := by
  obtain ⟨before, hbefore⟩ := p.states_eq
  have hchain : p.states.IsChain (Relation.TransGen Edge) :=
    p.states_isChain.imp fun _ _ hedge => .single hedge
  have hpairwise := List.isChain_iff_pairwise.1 hchain
  rw [hbefore] at h hpairwise
  rw [List.mem_append, List.mem_singleton] at h
  exact (List.pairwise_append.1 hpairwise).2.2 state (h.resolve_right hne) p.state
    List.mem_cons_self

/-- The edges lead upwards. -/
theorem SagaCoordinator.rank_lt {s t : SagaState} (h : Relation.TransGen Edge s t) :
    rank s < rank t := by
  induction h with
  | single hedge => cases hedge <;> decide
  | tail hpath hedge ih => exact Nat.lt_trans ih (by cases hedge <;> decide)

/-- The saga of the event's order exists and is past the state that the event is
for. -/
def Past (w : World) (message : Message) : Prop :=
  ∃ row, w.sagas message.orderId = some row ∧
    ∀ state, message.awaited = some state → Relation.TransGen Edge state row.state

/-- What the message was sent for has happened. -/
def Settled (w : World) (message : Message) : Prop :=
  match message.consumer with
  | none => True
  | some .notification => True
  | some .saga => Past w message
  | _ => ∃ event ∈ w.emitted, message.Answers event

theorem settled_of_answer {w : World} {message event : Message} (hmem : event ∈ w.emitted)
    (hans : message.Answers event) : Settled w message := by
  have hsender := Message.sender_of_answers hans
  cases message <;> first | exact ⟨event, hmem, hans⟩ | cases hsender

theorem past_of_settled {w : World} {message : Message} (hconsumer : message.consumer = some .saga)
    (h : Settled w message) : Past w message := by
  rw [Settled, hconsumer] at h
  exact h

/-- The answer to a command that is not a notification. -/
theorem answer_of_settled {w : World} {command : Message} (hsender : command.sender = .saga)
    (h : Settled w command) : ∃ event ∈ w.emitted, command.Answers event := by
  cases command <;> first | exact h | cases hsender

/-- Messages are only added, and sagas only move along edges. -/
structure World.Progresses (w w' : World) : Prop where
  emitted : w.emitted ⊆ w'.emitted
  sagas : ∀ orderId row, w.sagas orderId = some row → ∃ row', w'.sagas orderId = some row' ∧
    Relation.ReflTransGen Edge row.state row'.state

theorem World.Progresses.of_sagas {w w' : World} (hemitted : w.emitted ⊆ w'.emitted)
    (hsagas : w'.sagas = w.sagas) : w.Progresses w' where
  emitted := hemitted
  sagas _ row hrow := ⟨row, hsagas ▸ hrow, .refl⟩

theorem Past.mono {w w' : World} {message : Message} (h : Past w message)
    (hprogress : w.Progresses w') : Past w' message := by
  obtain ⟨row, hrow, hpast⟩ := h
  obtain ⟨row', hrow', hedges⟩ := hprogress.sagas _ row hrow
  exact ⟨row', hrow', fun state hstate => (hpast state hstate).trans_left hedges⟩

theorem Settled.mono {w w' : World} {message : Message} (h : Settled w message)
    (hprogress : w.Progresses w') : Settled w' message := by
  have hanswer : (∃ event ∈ w.emitted, message.Answers event) →
      ∃ event ∈ w'.emitted, message.Answers event :=
    fun ⟨event, hmem, hans⟩ => ⟨event, hprogress.emitted hmem, hans⟩
  cases message with
  | orderCreated | inventoryReserved | inventoryReservationFailed | inventoryReleased
  | paymentSucceeded | paymentFailed => exact Past.mono h hprogress
  | paymentRefunded | orderConfirmed | orderCancelled => trivial
  | reserveInventory | releaseInventory | chargePayment | refundPayment | confirmOrder
  | cancelOrder => exact hanswer h

/-- **A skipped event comes too late, never too early**: its saga is past the
state that it is for. -/
theorem Causal.past_of_skipped {w : World} (h : Causal w) {message : Message}
    (hmem : message ∈ w.emitted) (hconsumer : message.consumer = some .saga) {reason : String}
    (hskip : transition message (w.sagas message.orderId) = .skipped reason) : Past w message := by
  obtain ⟨x, hx⟩ := h.traced message.orderId
  have hcaused := hx.caused message hmem rfl
  have hrow : w.sagas message.orderId = x.map fun y => y.2.row y.1 := hx.agrees.row
  have hpast (state : SagaState) (hstate : message.awaited = some state)
      (hne : ∀ row, w.sagas message.orderId = some row → row.state ≠ state) : Past w message := by
    obtain ⟨y, hy, hvisited⟩ := hcaused state hstate
    rw [hy, Option.map_some] at hrow
    refine ⟨_, hrow, fun state' hstate' => ?_⟩
    cases hstate.symm.trans hstate'
    exact Path.edges_of_mem hvisited fun heq => hne _ hrow heq.symm
  have hskipped {expected : SagaState} {apply : SagaRow → SagaWrite × Message}
      (hwhen : whenIn expected (w.sagas message.orderId) apply = .skipped reason) (row : SagaRow)
      (hsome : w.sagas message.orderId = some row) : row.state ≠ expected := by
    intro hstate
    rw [hsome, whenIn_of_state hstate] at hwhen
    cases hwhen
  cases message with
  | orderCreated event =>
      cases hsaga : w.sagas (Message.orderCreated event).orderId with
      | none =>
          rw [hsaga] at hskip
          cases hskip
      | some row => exact ⟨row, hsaga, fun state hstate => by cases hstate⟩
  | inventoryReserved event | inventoryReservationFailed event =>
      exact hpast .reserving rfl (hskipped hskip)
  | paymentSucceeded event | paymentFailed event => exact hpast .charging rfl (hskipped hskip)
  | inventoryReleased event => exact hpast .compensating rfl (hskipped hskip)
  | paymentRefunded | orderConfirmed | orderCancelled | reserveInventory | releaseInventory
  | chargePayment | refundPayment | confirmOrder | cancelOrder => cases hconsumer

/-- An applied transition starts the saga, or takes an edge from the state that
the event is for. -/
theorem edge_of_applied {message command : Message} {saga : Option SagaRow} {write : SagaWrite}
    {row : SagaRow} (ht : transition message saga = .applied write command)
    (hw : SagaDb.written saga write = some row) :
    saga = none ∧ message.awaited = none ∨
      ∃ old, saga = some old ∧ message.awaited = some old.state ∧ Edge old.state row.state := by
  cases message with
  | orderCreated event =>
      cases saga with
      | none => exact Or.inl ⟨rfl, rfl⟩
      | some old => cases ht
  | inventoryReserved event =>
      obtain ⟨old, rfl, hold, hrow⟩ := whenIn_eq_applied ht
      cases hrow
      cases hw
      exact Or.inr ⟨old, rfl, hold ▸ rfl, hold ▸ .inventoryReserved⟩
  | inventoryReservationFailed event =>
      obtain ⟨old, rfl, hold, hrow⟩ := whenIn_eq_applied ht
      cases hrow
      cases hw
      exact Or.inr ⟨old, rfl, hold ▸ rfl, hold ▸ .inventoryReservationFailed⟩
  | paymentSucceeded event =>
      obtain ⟨old, rfl, hold, hrow⟩ := whenIn_eq_applied ht
      cases hrow
      cases hw
      exact Or.inr ⟨old, rfl, hold ▸ rfl, hold ▸ .paymentSucceeded⟩
  | paymentFailed event =>
      obtain ⟨old, rfl, hold, hrow⟩ := whenIn_eq_applied ht
      cases hrow
      cases hw
      exact Or.inr ⟨old, rfl, hold ▸ rfl, hold ▸ .paymentFailed⟩
  | inventoryReleased event =>
      obtain ⟨old, rfl, hold, hrow⟩ := whenIn_eq_applied ht
      cases hrow
      cases hw
      exact Or.inr ⟨old, rfl, hold ▸ rfl, hold ▸ .inventoryReleased⟩
  | paymentRefunded | orderConfirmed | orderCancelled | reserveInventory | releaseInventory
  | chargePayment | refundPayment | confirmOrder | cancelOrder => cases ht

end FlashSale
