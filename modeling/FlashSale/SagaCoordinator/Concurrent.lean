import FlashSale.Library.Schedule
import FlashSale.SagaCoordinator.Database

/-!
# Concurrent deliveries to the coordinator

The broker client runs up to twenty callbacks at once, and a callback reads the
saga row without a lock. A delivery is therefore two actions: `read` takes a
snapshot of the row, and `commit` decides on the snapshot and writes by primary
key, whatever the row holds by then.

The guard clause is checked on the snapshot only. `OnTime` says when a commit
does no harm: the row is still in the state the delivery read (an INSERT is
guarded by the primary key), or the commit cancels a saga that has meanwhile
got no further than CHARGING or COMPENSATING. `holds_iff_onTime` shows that a
schedule keeps the promises of the guard clauses exactly when all its commits
are on time.
-/

namespace FlashSale

namespace SagaCoordinator

/-- The five commands the coordinator emits. -/
inductive CommandKind
  | reserve
  | charge
  | release
  | confirm
  | cancel
deriving DecidableEq

def commandKind : Message → Option CommandKind
  | .reserveInventory _ => some .reserve
  | .chargePayment _ => some .charge
  | .releaseInventory _ => some .release
  | .confirmOrder _ => some .confirm
  | .cancelOrder _ => some .cancel
  | _ => none

/-- The states that no event is for. -/
def IsFinal (state : SagaState) : Prop :=
  state = .confirmed ∨ state = .cancelled

instance : DecidablePred IsFinal := fun _ => inferInstanceAs (Decidable (_ ∨ _))

end SagaCoordinator

namespace SagaDb

open SagaCoordinator

/-- The kinds of the commands committed for an order, oldest first. -/
def kindsOf (db : SagaDb) (orderId : OrderId) : List CommandKind :=
  (db.commandsOf orderId).filterMap commandKind

/-- Every command is committed at most once for an order, and `ConfirmOrder`
never together with `ReleaseInventory` or `CancelOrder`. -/
structure Safe (db : SagaDb) : Prop where
  once : ∀ orderId, (db.kindsOf orderId).Nodup
  exclusive : ∀ orderId, .confirm ∈ db.kindsOf orderId →
    .release ∉ db.kindsOf orderId ∧ .cancel ∉ db.kindsOf orderId

/-- The rows that are final in `db` are in the same state in `db'`. -/
def KeepsFinal (db db' : SagaDb) : Prop :=
  ∀ orderId state, db.stateOf orderId = some state → IsFinal state →
    db'.stateOf orderId = some state

end SagaDb

namespace SagaCoordinator

/-- The saga database and the deliveries that have read their row and not yet
committed, each with its snapshot. -/
structure Coordinator where
  db : SagaDb
  deliveries : List (Message × Option SagaRow)

namespace Coordinator

def empty : Coordinator where
  db := SagaDb.empty
  deliveries := []

/-- A delivery reads its saga row, or the `i`-th open delivery ends: its
transaction commits, is rejected by the primary key, or is not begun because
the event is skipped. -/
inductive Action
  | read (message : Message)
  | commit (i : ℕ)
deriving DecidableEq

def step (s : Coordinator) : Action → Option Coordinator
  | .read message =>
      some { s with
        deliveries := s.deliveries ++ [(message, s.db.rows message.orderId)] }
  | .commit i =>
      match s.deliveries[i]? with
      | none => none
      | some (message, snapshot) =>
          match transition message snapshot with
          | .skipped _ => some { s with deliveries := s.deliveries.eraseIdx i }
          | .applied write command =>
              some
                { db := (s.db.commit message.orderId write command).getD s.db
                  deliveries := s.deliveries.eraseIdx i }

/-- The promise of the guard clauses for a schedule: every state it reaches is
safe, and a final row stays in its state until the end. -/
def Holds (actions : List Action) : Prop :=
  ∀ as bs s t, as ++ bs <+: actions → Schedule.run step empty as = some s →
    Schedule.run step s bs = some t → t.db.Safe ∧ s.db.KeepsFinal t.db

/-- The commit is not spoiled by what other deliveries committed since the
read. -/
def OnTime (s : Coordinator) : Action → Prop
  | .read _ => True
  | .commit i =>
      ∀ message row, s.deliveries[i]? = some (message, some row) →
        (∃ write command, transition message (some row) = .applied write command) →
        s.db.stateOf message.orderId = some row.state ∨
          ((∃ event, message = .inventoryReservationFailed event) ∧
            (s.db.stateOf message.orderId = some .charging ∨
              s.db.stateOf message.orderId = some .compensating))

end Coordinator

/-! ## What a commit can do -/

/-- The state an applied event was read in, the state it leads to and the kind
of its command. -/
inductive Moves : Message → Option SagaState → SagaState → CommandKind → Prop
  | orderCreated (event : OrderCreated) :
      Moves (.orderCreated event) none .reserving .reserve
  | inventoryReserved (event : InventoryReserved) :
      Moves (.inventoryReserved event) (some .reserving) .charging .charge
  | inventoryReservationFailed (event : InventoryReservationFailed) :
      Moves (.inventoryReservationFailed event) (some .reserving) .cancelled .cancel
  | paymentSucceeded (event : PaymentSucceeded) :
      Moves (.paymentSucceeded event) (some .charging) .confirmed .confirm
  | paymentFailed (event : PaymentFailed) :
      Moves (.paymentFailed event) (some .charging) .compensating .release
  | inventoryReleased (event : InventoryReleased) :
      Moves (.inventoryReleased event) (some .compensating) .cancelled .cancel

/-- An applied transition moves the saga as `Moves` says, whatever row its
write meets. -/
theorem moves_of_transition {message : Message} {saga : Option SagaRow}
    {write : SagaWrite} {command : Message}
    (h : transition message saga = .applied write command) :
    ∃ target kind, Moves message (saga.map SagaRow.state) target kind ∧
      commandKind command = some kind ∧ command.orderId = message.orderId ∧
      (∀ row row', SagaDb.written row write = some row' →
        row'.state = target ∧ (row = none ↔ saga = none)) := by
  cases message with
  | orderCreated event =>
      cases saga with
      | some row => cases h
      | none =>
          cases h
          refine ⟨_, _, .orderCreated event, rfl, rfl, ?_⟩
          intro row row' hw
          cases row with
          | none => cases hw; exact ⟨rfl, by simp⟩
          | some old => cases hw
  | inventoryReserved event | inventoryReservationFailed event | inventoryReleased event
  | paymentSucceeded event | paymentFailed event =>
      obtain ⟨row, rfl, hstate, hrow⟩ := whenIn_eq_applied h
      cases hrow
      rw [Option.map_some, hstate]
      refine ⟨_, _, by constructor, rfl, rfl, ?_⟩
      intro old row' hw
      cases old with
      | none => cases hw
      | some old => cases hw; exact ⟨rfl, by simp⟩
  | paymentRefunded | orderConfirmed | orderCancelled | reserveInventory
  | releaseInventory | chargePayment | refundPayment | confirmOrder | cancelOrder => cases h

/-- A transition applied to an existing row writes it with an UPDATE. -/
theorem written_some_ne_none {message : Message} {saga : Option SagaRow} {write : SagaWrite}
    {command : Message} (h : transition message saga = .applied write command)
    (hsaga : saga ≠ none) (old : SagaRow) : SagaDb.written (some old) write ≠ none := by
  cases message with
  | orderCreated event =>
      cases saga with
      | none => exact absurd rfl hsaga
      | some row => cases h
  | inventoryReserved event | inventoryReservationFailed event | inventoryReleased event
  | paymentSucceeded event | paymentFailed event =>
      obtain ⟨_, -, -, hrow⟩ := whenIn_eq_applied h
      cases hrow
      simp [SagaDb.written]
  | paymentRefunded | orderConfirmed | orderCancelled | reserveInventory
  | releaseInventory | chargePayment | refundPayment | confirmOrder | cancelOrder => cases h

/-- A committed transaction changes the state of its own order only, and adds
its command there. -/
theorem commit_eq_some {db db' : SagaDb} {orderId : OrderId} {write : SagaWrite}
    {command : Message} (h : db.commit orderId write command = some db') :
    ∃ row', SagaDb.written (db.rows orderId) write = some row' ∧
      db'.rows = Function.update db.rows orderId (some row') ∧
      db'.outbox = db.outbox ++ [command] := by
  rw [SagaDb.commit, Option.map_eq_some_iff] at h
  obtain ⟨row', hw, rfl⟩ := h
  exact ⟨row', hw, rfl, rfl⟩

theorem kindsOf_append {db db' : SagaDb} {command : Message} {kind : CommandKind}
    (hk : commandKind command = some kind) (h : db'.outbox = db.outbox ++ [command])
    (orderId : OrderId) :
    db'.kindsOf orderId =
      db.kindsOf orderId ++ if command.orderId = orderId then [kind] else [] := by
  by_cases hid : command.orderId = orderId <;>
    simp [SagaDb.kindsOf, SagaDb.commandsOf, h, List.filter_append, hid, hk]

/-! ## The invariant -/

/-- The commands committed for an order, against the state of its row. The last
case is a cancellation that overtook a charge. -/
inductive Consistent : Option SagaState → List CommandKind → Prop
  | absent : Consistent none []
  | reserving : Consistent (some .reserving) [.reserve]
  | charging : Consistent (some .charging) [.reserve, .charge]
  | confirmed : Consistent (some .confirmed) [.reserve, .charge, .confirm]
  | compensating : Consistent (some .compensating) [.reserve, .charge, .release]
  | unreserved : Consistent (some .cancelled) [.reserve, .cancel]
  | unpaid : Consistent (some .cancelled) [.reserve, .charge, .release, .cancel]
  | overtaken : Consistent (some .cancelled) [.reserve, .charge, .cancel]

/-- The state `τ` is `σ` or comes after it. -/
def NotBefore (σ τ : SagaState) : Prop := τ = σ ∨ rank σ < rank τ

theorem NotBefore.trans {σ τ υ : SagaState} (h : NotBefore σ τ) (h' : NotBefore τ υ) :
    NotBefore σ υ := by
  rcases h with rfl | h
  · exact h'
  · rcases h' with rfl | h'
    · exact Or.inr h
    · exact Or.inr (Nat.lt_trans h h')

/-- Safety of the commands of one order. -/
def SafeKinds (kinds : List CommandKind) : Prop :=
  kinds.Nodup ∧ (.confirm ∈ kinds → .release ∉ kinds ∧ .cancel ∉ kinds)

instance : DecidablePred SafeKinds := fun _ => inferInstanceAs (Decidable (_ ∧ _))

theorem Consistent.safeKinds {state : Option SagaState} {kinds : List CommandKind}
    (h : Consistent state kinds) : SafeKinds kinds := by
  cases h <;> decide

/-- When a commit is on time: the row is in the state that was read, or a
cancellation overtakes. -/
def InTime (message : Message) (source state : Option SagaState) : Prop :=
  source = none ∨ state = source ∨
    ((∃ event, message = .inventoryReservationFailed event) ∧
      (state = some .charging ∨ state = some .compensating))

/-- A commit that is on time keeps the commands consistent, does not set the
saga back and does not touch a final row. -/
theorem Consistent.commit {message : Message} {source state : Option SagaState}
    {target : SagaState} {kind : CommandKind} {kinds : List CommandKind}
    (h : Consistent state kinds) (hm : Moves message source target kind)
    (hsome : state = none ↔ source = none) (hin : InTime message source state) :
    Consistent (some target) (kinds ++ [kind]) ∧
      ∀ τ, state = some τ → NotBefore τ target ∧ ¬ IsFinal τ := by
  rcases hin with rfl | rfl | ⟨⟨event, rfl⟩, rfl | rfl⟩
  · cases hm
    obtain rfl := hsome.2 rfl
    cases h
    exact ⟨.reserving, by simp⟩
  · cases hm <;> cases h <;>
      exact ⟨by constructor, by simp [NotBefore, rank, IsFinal]⟩
  · cases hm
    cases h
    exact ⟨.overtaken, by simp [NotBefore, rank, IsFinal]⟩
  · cases hm
    cases h
    exact ⟨.unpaid, by simp [NotBefore, rank, IsFinal]⟩

/-- A commit that is not on time repeats a command, confirms what is being
compensated or cancelled, or changes a final row. -/
theorem Consistent.unsafe_commit {message : Message} {source : Option SagaState}
    {σ τ target : SagaState} {kind : CommandKind} {kinds : List CommandKind}
    (h : Consistent (some τ) kinds) (hm : Moves message source target kind)
    (hσ : source = some σ) (hafter : NotBefore σ τ)
    (hlate : ¬ InTime message source (some τ)) :
    ¬ SafeKinds (kinds ++ [kind]) ∨ (IsFinal τ ∧ target ≠ τ) := by
  subst hσ
  simp only [InTime, reduceCtorEq, false_or, not_or] at hlate
  cases hm <;> cases h <;>
    first
      | decide
      | (simp at hlate; done)
      | simp [NotBefore, rank] at hafter

namespace Coordinator

/-- What holds after every schedule whose commits were on time: the commands of
every order fit the state of its row, and no open delivery has read a state
that the row has not reached. -/
structure Inv (s : Coordinator) : Prop where
  consistent : ∀ orderId, Consistent (s.db.stateOf orderId) (s.db.kindsOf orderId)
  snapshots : ∀ message row, (message, some row) ∈ s.deliveries →
    ∃ τ, s.db.stateOf message.orderId = some τ ∧ NotBefore row.state τ

theorem inv_empty : Inv empty where
  consistent _ := .absent
  snapshots := by simp [empty]

theorem Inv.safe {s : Coordinator} (h : Inv s) : s.db.Safe where
  once orderId := (h.consistent orderId).safeKinds.1
  exclusive orderId := (h.consistent orderId).safeKinds.2

/-- What an action can do: take a snapshot, drop a delivery without touching
the database, or commit the transaction of a delivery. -/
theorem step_cases {s t : Coordinator} {action : Action} (h : step s action = some t) :
    (∃ message, action = .read message ∧ t.db = s.db ∧
        t.deliveries = s.deliveries ++ [(message, s.db.rows message.orderId)]) ∨
      (∃ i message snapshot, action = .commit i ∧
        s.deliveries[i]? = some (message, snapshot) ∧
        (∀ write command, transition message snapshot = .applied write command →
          s.db.commit message.orderId write command = none) ∧
        t.db = s.db ∧ t.deliveries = s.deliveries.eraseIdx i) ∨
      ∃ i message snapshot write command, action = .commit i ∧
        s.deliveries[i]? = some (message, snapshot) ∧
        transition message snapshot = .applied write command ∧
        s.db.commit message.orderId write command = some t.db ∧
        t.deliveries = s.deliveries.eraseIdx i := by
  cases action with
  | read message =>
      cases h
      exact Or.inl ⟨message, rfl, rfl, rfl⟩
  | commit i =>
      cases hd : s.deliveries[i]? with
      | none => simp [step, hd] at h
      | some delivery =>
          obtain ⟨message, snapshot⟩ := delivery
          cases ht : transition message snapshot with
          | skipped reason =>
              simp only [step, hd, ht, Option.some.injEq] at h
              subst h
              exact Or.inr (Or.inl ⟨i, message, snapshot, rfl, hd, by simp [ht], rfl, rfl⟩)
          | applied write command =>
              simp only [step, hd, ht, Option.some.injEq] at h
              subst h
              cases hc : s.db.commit message.orderId write command with
              | none =>
                  refine Or.inr (Or.inl ⟨i, message, snapshot, rfl, hd, ?_, rfl, rfl⟩)
                  intro write' command' ht'
                  rw [ht] at ht'
                  cases ht'
                  exact hc
              | some db =>
                  exact Or.inr (Or.inr
                    ⟨i, message, snapshot, write, command, rfl, hd, ht, hc, rfl⟩)

/-- A committed transaction, read off the states and the kinds of its order;
the other orders keep theirs. -/
theorem commit_effect {db db' : SagaDb} {message : Message} {snapshot : Option SagaRow}
    {write : SagaWrite} {command : Message}
    (ht : transition message snapshot = .applied write command)
    (hc : db.commit message.orderId write command = some db') :
    ∃ target kind, Moves message (snapshot.map SagaRow.state) target kind ∧
      (db.rows message.orderId = none ↔ snapshot = none) ∧
      db'.stateOf message.orderId = some target ∧
      db'.kindsOf message.orderId = db.kindsOf message.orderId ++ [kind] ∧
      ∀ orderId, orderId ≠ message.orderId →
        db'.stateOf orderId = db.stateOf orderId ∧
          db'.kindsOf orderId = db.kindsOf orderId := by
  obtain ⟨target, kind, hm, hk, hid, hw⟩ := moves_of_transition ht
  obtain ⟨row', hwrite, hrows, hout⟩ := commit_eq_some hc
  obtain ⟨htarget, hnone⟩ := hw _ _ hwrite
  refine ⟨target, kind, hm, hnone, ?_, ?_, ?_⟩
  · simp [SagaDb.stateOf, hrows, htarget]
  · simp [kindsOf_append hk hout, hid]
  · intro orderId hne
    have hne' : command.orderId ≠ orderId := by rw [hid]; exact hne.symm
    refine ⟨?_, ?_⟩
    · simp [SagaDb.stateOf, hrows, Function.update_of_ne hne]
    · simp [kindsOf_append hk hout, hne']

theorem stateOf_eq_none {db : SagaDb} {orderId : OrderId} :
    db.stateOf orderId = none ↔ db.rows orderId = none := Option.map_eq_none_iff

/-- `OnTime` of a commit, read off the states. -/
theorem onTime_iff_inTime {s : Coordinator} {i : ℕ} {message : Message}
    {snapshot : Option SagaRow} {write : SagaWrite} {command : Message}
    (hd : s.deliveries[i]? = some (message, snapshot))
    (ht : transition message snapshot = .applied write command) :
    OnTime s (.commit i) ↔
      InTime message (snapshot.map SagaRow.state) (s.db.stateOf message.orderId) := by
  cases snapshot with
  | none => simp [OnTime, InTime, hd]
  | some row =>
      constructor
      · intro h
        rcases h message row hd ⟨write, command, ht⟩ with hstate | hover
        · exact Or.inr (Or.inl hstate)
        · exact Or.inr (Or.inr hover)
      · rintro h message' row' hd' -
        rw [hd, Option.some.injEq, Prod.mk.injEq, Option.some.injEq] at hd'
        obtain ⟨rfl, rfl⟩ := hd'
        rcases h with hnone | hstate | hover
        · cases hnone
        · exact Or.inl hstate
        · exact Or.inr hover

/-- One action on time keeps the invariant and the final rows. -/
theorem Inv.step {s t : Coordinator} {action : Action} (h : Inv s)
    (hon : OnTime s action) (hstep : step s action = some t) :
    Inv t ∧ ∀ orderId, t.db.stateOf orderId = s.db.stateOf orderId ∨
      ∃ target, t.db.stateOf orderId = some target ∧
        ∀ τ, s.db.stateOf orderId = some τ → NotBefore τ target ∧ ¬ IsFinal τ := by
  rcases step_cases hstep with ⟨message, rfl, hdb, hdel⟩ | ⟨i, -, -, rfl, -, -, hdb, hdel⟩ |
    ⟨i, message, snapshot, write, command, rfl, hd, ht, hc, hdel⟩
  · refine ⟨⟨by rw [hdb]; exact h.consistent, ?_⟩, fun _ => Or.inl (by rw [hdb])⟩
    intro m row hmem
    rw [hdel, List.mem_append, List.mem_singleton] at hmem
    rw [hdb]
    rcases hmem with hmem | heq
    · exact h.snapshots m row hmem
    · rw [Prod.mk.injEq] at heq
      obtain ⟨rfl, hrow⟩ := heq
      exact ⟨row.state, by rw [SagaDb.stateOf, ← hrow]; rfl, Or.inl rfl⟩
  · refine ⟨⟨by rw [hdb]; exact h.consistent, ?_⟩, fun _ => Or.inl (by rw [hdb])⟩
    intro m row hmem
    rw [hdel] at hmem
    rw [hdb]
    exact h.snapshots m row (List.mem_of_mem_eraseIdx hmem)
  · obtain ⟨target, kind, hm, hnone, hstate, hkinds, hother⟩ := commit_effect ht hc
    have hin := (onTime_iff_inTime hd ht).1 hon
    have hsome : s.db.stateOf message.orderId = none ↔ snapshot.map SagaRow.state = none := by
      rw [stateOf_eq_none, hnone, Option.map_eq_none_iff]
    obtain ⟨hcons, hafter⟩ := (h.consistent message.orderId).commit hm hsome hin
    have hstates : ∀ orderId, t.db.stateOf orderId = s.db.stateOf orderId ∨
        ∃ target, t.db.stateOf orderId = some target ∧
          ∀ τ, s.db.stateOf orderId = some τ → NotBefore τ target ∧ ¬ IsFinal τ := by
      intro orderId
      by_cases hid : orderId = message.orderId
      · subst hid
        exact Or.inr ⟨target, hstate, hafter⟩
      · exact Or.inl (hother orderId hid).1
    refine ⟨⟨?_, ?_⟩, hstates⟩
    · intro orderId
      by_cases hid : orderId = message.orderId
      · subst hid
        rw [hstate, hkinds]
        exact hcons
      · rw [(hother orderId hid).1, (hother orderId hid).2]
        exact h.consistent orderId
    · intro m row hmem
      rw [hdel] at hmem
      obtain ⟨τ, hτ, hnb⟩ := h.snapshots m row (List.mem_of_mem_eraseIdx hmem)
      rcases hstates m.orderId with heq | ⟨target', htarget', hnext⟩
      · exact ⟨τ, heq.trans hτ, hnb⟩
      · exact ⟨target', htarget', hnb.trans (hnext τ hτ).1⟩

/-- A schedule on time ends in a state with the invariant. -/
theorem inv_of_along {as : List Action} {s : Coordinator}
    (hon : Schedule.Along step OnTime empty as)
    (hrun : Schedule.run step empty as = some s) : Inv s :=
  Schedule.run_preserves (I := Inv) (fun _ _ _ hI hP hs => (hI.step hP hs).1) inv_empty
    hon hrun

/-- A schedule on time keeps the final rows. -/
theorem keepsFinal_of_along {bs : List Action} {s t : Coordinator} (h : Inv s)
    (hon : Schedule.Along step OnTime s bs) (hrun : Schedule.run step s bs = some t) :
    s.db.KeepsFinal t.db := by
  have hboth : Inv t ∧ s.db.KeepsFinal t.db := by
    refine Schedule.run_preserves (I := fun u => Inv u ∧ s.db.KeepsFinal u.db) ?_
      ⟨h, fun _ _ hs _ => hs⟩ hon hrun
    rintro u action v ⟨hu, hkeep⟩ hP hstep
    obtain ⟨hv, hnext⟩ := hu.step hP hstep
    refine ⟨hv, ?_⟩
    intro orderId state hs hfinal
    have hus := hkeep orderId state hs hfinal
    rcases hnext orderId with heq | ⟨target, -, hafter⟩
    · exact heq.trans hus
    · exact absurd hfinal (hafter state hus).2
  exact hboth.2

/-- The first commit that is not on time breaks the promise. -/
theorem Inv.onTime_of_promise {s t : Coordinator} {action : Action} (h : Inv s)
    (hstep : Coordinator.step s action = some t) (hsafe : t.db.Safe)
    (hkeep : s.db.KeepsFinal t.db) : OnTime s action := by
  rcases step_cases hstep with ⟨message, rfl, -, -⟩ |
    ⟨i, message, snapshot, rfl, hd, hrejected, -, -⟩ |
    ⟨i, message, snapshot, write, command, rfl, hd, ht, hc, -⟩
  · trivial
  · rintro message' row hd' ⟨write, command, ht⟩
    rw [hd, Option.some.injEq, Prod.mk.injEq] at hd'
    obtain ⟨rfl, rfl⟩ := hd'
    -- the delivery has read a row, so the UPDATE finds one and is not rejected
    obtain ⟨τ, hτ, -⟩ := h.snapshots message row (List.mem_of_getElem? hd)
    obtain ⟨old, hold, -⟩ := Option.map_eq_some_iff.1 hτ
    have hnone := hrejected write command ht
    rw [SagaDb.commit, hold, Option.map_eq_none_iff] at hnone
    exact absurd hnone (written_some_ne_none ht (by simp) old)
  · rw [onTime_iff_inTime hd ht]
    obtain ⟨target, kind, hm, hnone, hstate, hkinds, -⟩ := commit_effect ht hc
    by_contra hlate
    cases snapshot with
    | none => exact hlate (Or.inl rfl)
    | some row =>
        obtain ⟨τ, hτ, hnb⟩ := h.snapshots message row (List.mem_of_getElem? hd)
        rw [hτ] at hlate
        have hcons := h.consistent message.orderId
        rw [hτ] at hcons
        rcases hcons.unsafe_commit hm rfl hnb hlate with hunsafe | ⟨hfinal, hne⟩
        · rw [← hkinds] at hunsafe
          exact hunsafe ⟨hsafe.once _, hsafe.exclusive _⟩
        · have := hkeep message.orderId τ hτ hfinal
          rw [hstate] at this
          exact hne (Option.some.inj this)

/-- **The guard clauses hold exactly when every commit is on time.** -/
theorem holds_iff_onTime (actions : List Action) :
    Holds actions ↔ Schedule.Along step OnTime empty actions := by
  constructor
  · intro hholds
    refine Schedule.along_of_forall_prefix ?_
    rintro as action cs s rfl has hrun
    have hinv : Inv s := inv_of_along has hrun
    cases hstep : step s action with
    | none =>
        cases action with
        | read message => trivial
        | commit i =>
            -- an impossible action has no delivery to be late
            have hd : s.deliveries[i]? = none := by
              cases hd : s.deliveries[i]? with
              | none => rfl
              | some delivery =>
                  cases ht : transition delivery.1 delivery.2 <;>
                    simp [step, hd, ht] at hstep
            intro message row hsome
            rw [hd] at hsome
            cases hsome
    | some t =>
        have hrun' : Schedule.run step s [action] = some t :=
          Schedule.run_cons_eq_some.2 ⟨t, hstep, rfl⟩
        obtain ⟨hsafe, hkeep⟩ := hholds as [action] s t ⟨cs, by simp⟩ hrun hrun'
        exact hinv.onTime_of_promise hstep hsafe hkeep
  · rintro hon as bs s t ⟨cs, rfl⟩ has hbs
    rw [List.append_assoc] at hon
    have hfirst := hon.of_append
    have hs : Inv s := inv_of_along hfirst has
    have hrest := ((Schedule.along_append.1 hon).2 s has).of_append
    have ht : Inv t := Schedule.run_preserves (I := Inv)
      (fun _ _ _ hI hP hstep => (hI.step hP hstep).1) hs hrest hbs
    exact ⟨ht.safe, keepsFinal_of_along hs hrest hbs⟩

/-- Two copies of one `InventoryReserved` read the row before either commits. -/
def doubleRead : List Action :=
  [.read (.orderCreated ⟨"order-1", "sku-1", 1, "user-1", 100⟩), .commit 0,
    .read (.inventoryReserved ⟨"order-1", "sku-1", 1⟩),
    .read (.inventoryReserved ⟨"order-1", "sku-1", 1⟩), .commit 0, .commit 0]

/-- The two copies charge the order twice. -/
theorem not_holds_doubleRead : ¬ Holds doubleRead := by
  intro h
  have hsafe := (h doubleRead [] _ _ (by simp) rfl rfl).1
  exact absurd (hsafe.once "order-1") (by decide)

end Coordinator

end SagaCoordinator

end FlashSale
