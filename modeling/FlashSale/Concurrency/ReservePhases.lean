import FlashSale.Concurrency.Pool
import FlashSale.InventoryService.Outcome

/-!
# The points of a reservation task

A reservation task is always at one of the points of `ReservePhase`: the phase
determines what is left of its program and its unit of work. `ReserveStep` lists
what the task can do next, with all it changes, and `reserve_perform` says that
this is all.
-/

namespace FlashSale

namespace InventoryService

/-- The points at which a reservation task waits for its next call. -/
inductive ReservePhase
  | acquiring
  | checking
  | limiting
  | selecting
  | flushing (item : InventoryItem)
  | storing (outcome : ReservationResult) (txn : List Write)
  | leaving (result : ReservationResult) (txn : List Write) (missed : Bool)
  | committing (result : ReservationResult) (txn : List Write)
  | done

namespace ReservePhase

/-- What is left of the program. -/
def prog (cmd : ReserveInventory) : ReservePhase → Handler Unit
  | acquiring => handleReserve cmd
  | checking => do
      match ← getCachedReservation cmd.orderId with
      | some cached => announce cmd cached
      | none =>
          if ← allow cmd.sku then
            let item ← selectItemForUpdate cmd.sku
            let outcome ← moveStock cmd.orderId cmd.sku cmd.qty item
            conclude cmd outcome
          else
            announce cmd { success := false, reason := some "rate_limited" }
  | limiting => do
      if ← allow cmd.sku then
        let item ← selectItemForUpdate cmd.sku
        let outcome ← moveStock cmd.orderId cmd.sku cmd.qty item
        conclude cmd outcome
      else
        announce cmd { success := false, reason := some "rate_limited" }
  | selecting => do
      let item ← selectItemForUpdate cmd.sku
      let outcome ← moveStock cmd.orderId cmd.sku cmd.qty item
      conclude cmd outcome
  | flushing item => do
      flush [.updateItem cmd.orderId cmd.sku (item.available - cmd.qty)
        (item.reserved + cmd.qty)]
      conclude cmd { success := true, reason := none }
  | storing outcome _ => conclude cmd outcome
  | leaving result _ _ => announce cmd result
  | committing result _ => commit [.outbox .inventory (reservationEvent cmd result)]
  | done => return ()

/-- The unit of work. -/
def session : ReservePhase → Session
  | acquiring | checking | done => {}
  | limiting | selecting | flushing _ => { missed := true }
  | storing _ txn => { txn := txn, missed := true }
  | leaving _ txn missed => { txn := txn, missed := missed }
  | committing _ txn => { txn := txn }

end ReservePhase

/-- The UPDATE of a reservation that has read `item`. -/
def reserveWrite (cmd : ReserveInventory) (item : InventoryItem) : Write :=
  .updateItem cmd.orderId cmd.sku (item.available - cmd.qty) (item.reserved + cmd.qty)

/-- One call of a reservation task with number `i`. -/
inductive ReserveStep (cmd : ReserveInventory) (i : ℕ) (free : Sku → Bool) (c : Context) :
    ReservePhase → ReservePhase → Context → Prop
  | acquire (h : c.locks (.sku cmd.sku) = none) :
      ReserveStep cmd i free c .acquiring .checking
        { c with locks := Function.update c.locks (.sku cmd.sku) (some i) }
  | timeout :
      ReserveStep cmd i free c .acquiring
        (.committing { success := false, reason := some "lock_timeout" } []) c
  | hit (result : ReservationResult) (h : c.world.reservations cmd.orderId = some result) :
      ReserveStep cmd i free c .checking (.leaving result [] false) { c with session := {} }
  | miss (h : c.world.reservations cmd.orderId = none) :
      ReserveStep cmd i free c .checking .limiting { c with session := { missed := true } }
  | limit :
      ReserveStep cmd i free c .limiting
        (.leaving { success := false, reason := some "rate_limited" } [] true) c
  | allowed : ReserveStep cmd i free c .limiting .selecting c
  | unknown (hfree : free cmd.sku = true) (h : c.world.items cmd.sku = none) :
      ReserveStep cmd i free c .selecting
        (.storing { success := false, reason := some "unknown_sku" } []) c
  | short (item : InventoryItem) (hfree : free cmd.sku = true)
      (h : c.world.items cmd.sku = some item) (hqty : item.available < cmd.qty) :
      ReserveStep cmd i free c .selecting
        (.storing { success := false, reason := some "insufficient_stock" } [])
        { c with rows := c.rows.insert cmd.sku }
  | enough (item : InventoryItem) (hfree : free cmd.sku = true)
      (h : c.world.items cmd.sku = some item) (hqty : cmd.qty ≤ item.available) :
      ReserveStep cmd i free c .selecting (.flushing item)
        { c with rows := c.rows.insert cmd.sku }
  | flush (item : InventoryItem) (hfree : free cmd.sku = true) :
      ReserveStep cmd i free c (.flushing item)
        (.storing { success := true, reason := none } [reserveWrite cmd item])
        { c with
          session := { txn := [reserveWrite cmd item], missed := true }
          rows := [cmd.sku] ∪ c.rows }
  | store (outcome : ReservationResult) (txn : List Write) :
      ReserveStep cmd i free c (.storing outcome txn) (.leaving outcome txn false)
        { c with
          world := c.world.storeReservation cmd.orderId outcome
          session := { txn := txn } }
  | leave (result : ReservationResult) (txn : List Write) (missed : Bool) :
      ReserveStep cmd i free c (.leaving result txn missed) (.committing result txn)
        { c with
          session := { txn := txn }
          locks := if c.locks (.sku cmd.sku) = some i
            then Function.update c.locks (.sku cmd.sku) none else c.locks }
  | commit (result : ReservationResult) (txn : List Write) (w : World)
      (hfree : (txn.filterMap Write.sku).all free = true)
      (hwrite : c.world.writeAll txn = some w) :
      ReserveStep cmd i free c (.committing result txn) .done
        { c with
          world := w.emit .inventory (reservationEvent cmd result)
          session := {}
          rows := [] }

/-- A reservation task takes one of the steps of `ReserveStep`. -/
theorem reserve_perform {cmd : ReserveInventory} {i : ℕ} {ω : Answers} {free : Sku → Bool}
    {phase : ReservePhase} {c c' : Context} {e : Effect} {k : e.Answer → Handler Unit}
    {r : e.Answer} (hprog : phase.prog cmd = .call e k) (hsession : c.session = phase.session)
    (h : perform i ω free e c = some (r, c')) :
    ∃ phase', k r = phase'.prog cmd ∧ c'.session = phase'.session ∧
      ReserveStep cmd i free c phase phase' c' ∧
      (e.isCommit = true ↔ phase' = .done) := by
  obtain ⟨w, locks, session, rows⟩ := c
  obtain rfl : session = phase.session := hsession
  cases phase with
  | acquiring =>
      rw [ReservePhase.prog, handleReserve_eq] at hprog
      cases hprog
      simp only [perform] at h
      split at h
      · rw [Option.ite_none_right_eq_some] at h
        cases h.2
        exact ⟨.checking, rfl, rfl, .acquire h.1, by simp [Effect.isCommit]⟩
      · cases h
        exact ⟨.committing _ [], rfl, rfl, .timeout, by simp [Effect.isCommit]⟩
  | checking =>
      cases hprog
      cases h
      have hcache : w.cache (.reserve cmd.orderId) = w.reservations cmd.orderId := rfl
      cases hentry : w.reservations cmd.orderId with
      | some result =>
          rw [hentry] at hcache
          simp only [hcache]
          exact ⟨.leaving result [] false, rfl, rfl, .hit result hentry, by simp [Effect.isCommit]⟩
      | none =>
          rw [hentry] at hcache
          simp only [hcache]
          exact ⟨.limiting, rfl, rfl, .miss hentry, by simp [Effect.isCommit]⟩
  | limiting =>
      cases hprog
      cases h
      cases hallow : ω.allowed with
      | false => exact ⟨.leaving _ [] true, rfl, rfl, .limit, by simp [Effect.isCommit]⟩
      | true => exact ⟨.selecting, rfl, rfl, .allowed, by simp [Effect.isCommit]⟩
  | selecting =>
      cases hprog
      simp only [perform, Option.ite_none_right_eq_some] at h
      obtain ⟨hfree, hc⟩ := h
      cases hc
      cases hitem : w.items cmd.sku with
      | none =>
          exact ⟨.storing _ [], rfl, rfl, .unknown hfree hitem, by simp [Effect.isCommit]⟩
      | some item =>
          by_cases hqty : item.available < cmd.qty
          · refine ⟨.storing _ [], ?_, rfl, .short item hfree hitem hqty,
              by simp [Effect.isCommit]⟩
            show (moveStock cmd.orderId cmd.sku cmd.qty (some item) >>= conclude cmd) = _
            rw [moveStock, if_pos hqty]
            rfl
          · refine ⟨.flushing item, ?_, rfl, .enough item hfree hitem (not_lt.1 hqty),
              by simp [Effect.isCommit]⟩
            show (moveStock cmd.orderId cmd.sku cmd.qty (some item) >>= conclude cmd) = _
            rw [moveStock, if_neg hqty]
            rfl
  | flushing item =>
      cases hprog
      obtain ⟨hfree, rfl⟩ := perform_flush h
      exact ⟨.storing _ [reserveWrite cmd item], rfl, rfl,
        .flush item (by simpa [Write.sku] using hfree),
        by simp [Effect.isCommit]⟩
  | storing outcome txn =>
      cases hprog
      cases h
      exact ⟨.leaving outcome txn false, rfl, rfl, .store outcome txn, by simp [Effect.isCommit]⟩
  | leaving result txn missed =>
      cases hprog
      cases h
      exact ⟨.committing result txn, rfl, rfl, .leave result txn missed,
        by simp [Effect.isCommit]⟩
  | committing result txn =>
      cases hprog
      obtain ⟨hfree, w', hwrite, rfl⟩ := perform_commit h
      obtain ⟨u, hu, rfl⟩ := World.of_writeAll_concat_outbox hwrite
      rw [List.filterMap_append, List.all_append, Bool.and_eq_true] at hfree
      exact ⟨.done, rfl, rfl, .commit result txn u hfree.1 hu, by simp [Effect.isCommit]⟩
  | done => cases hprog

end InventoryService

end FlashSale
