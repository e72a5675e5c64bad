import FlashSale.InventoryService.Main
import FlashSale.Shared.Attempts

/-!
# What the inventory handlers do

`handleReserve_eq` and `handleRelease_eq` flatten the two handlers into one
sequence of calls, and name what is left to do at the points where their paths
join. From them follow the worlds that the uninterrupted handlers leave behind,
by the way taken through the critical section. These are the only facts about
the two handlers that later modules use.
-/

namespace FlashSale

/-- The row of a SKU after a seed of `qty` units. -/
@[simps -fullyApplied items seeded]
def World.seedItem (w : World) (sku : Sku) (item : InventoryItem) (qty : ℤ) : World :=
  { w with
    items := Function.update w.items sku (some item)
    seeded := Function.update w.seeded sku (w.seeded sku + qty) }

namespace InventoryService

/-- Leaving the lock and committing the event of a reservation. -/
def announce (cmd : ReserveInventory) (result : ReservationResult) : Handler Unit := do
  release (.sku cmd.sku)
  commit [.outbox .inventory (reservationEvent cmd result)]

/-- What a reservation handler still does once it has decided. -/
def conclude (cmd : ReserveInventory) (outcome : ReservationResult) : Handler Unit := do
  storeReservation cmd.orderId outcome
  announce cmd outcome

/-- Leaving the lock and committing the event of a release. -/
def announceRelease (cmd : ReleaseInventory) : Handler Unit := do
  release (.sku cmd.sku)
  commit [.outbox .inventory (.inventoryReleased ⟨cmd.orderId, cmd.sku, cmd.qty⟩)]

/-- What a release handler still does once it has read the row. -/
def giveBack (cmd : ReleaseInventory) (item : InventoryItem) : Handler Unit := do
  flush [.updateItem cmd.orderId cmd.sku (item.available + cmd.qty)
    (max 0 (item.reserved - cmd.qty))]
  storeRelease cmd.orderId
  announceRelease cmd

theorem handleReserve_eq (cmd : ReserveInventory) :
    handleReserve cmd = (do
      if ← acquire (.sku cmd.sku) then
        match ← getCachedReservation cmd.orderId with
        | some cached => announce cmd cached
        | none =>
            if ← allow cmd.sku then
              let item ← selectItemForUpdate cmd.sku
              let outcome ← moveStock cmd.orderId cmd.sku cmd.qty item
              conclude cmd outcome
            else
              announce cmd { success := false, reason := some "rate_limited" }
      else
        commit [.outbox .inventory
          (reservationEvent cmd { success := false, reason := some "lock_timeout" })]) := by
  rw [handleReserve, tryReserve, bind_assoc]
  refine congrArg _ (funext fun acquired => ?_)
  cases acquired with
  | false => rfl
  | true =>
      simp only [if_true, tryReserveLocked, bind_assoc]
      refine congrArg _ (funext fun cached => ?_)
      cases cached with
      | some result => rfl
      | none =>
          simp only [bind_assoc]
          refine congrArg _ (funext fun allowed => ?_)
          cases allowed with
          | false => rfl
          | true => simp only [if_true, bind_assoc, conclude, announce, Prog.pure_eq,
              Prog.ret_bind]

theorem handleRelease_eq (cmd : ReleaseInventory) :
    handleRelease cmd = (do
      if ← acquire (.sku cmd.sku) then
        match ← getCachedRelease cmd.orderId with
        | some _ => announceRelease cmd
        | none =>
            match ← selectItemForUpdate cmd.sku with
            | none => announceRelease cmd
            | some item => giveBack cmd item
      else Prog.raise) := by
  rw [handleRelease, releaseReservation, bind_assoc]
  refine congrArg _ (funext fun acquired => ?_)
  cases acquired with
  | false => rfl
  | true =>
      simp only [if_true, releaseReservationLocked, bind_assoc]
      refine congrArg _ (funext fun cached => ?_)
      cases cached with
      | some _ => rfl
      | none =>
          simp only [bind_assoc]
          refine congrArg _ (funext fun item => ?_)
          cases item with
          | none => rfl
          | some item => rfl

/-! ## The reservation handler -/

/-- The world after a reservation handler that returns. -/
inductive ReserveOutcome (ω : Answers) (w : World) (cmd : ReserveInventory) : World → Prop
  /-- No lock in time, or no token: the answer is not stored. -/
  | turnedAway (reason : String)
      (hreason : reason = if ω.acquired then "rate_limited" else "lock_timeout")
      (hturned : ω.acquired = false ∨
        w.reservations cmd.orderId = none ∧ ω.allowed = false) :
      ReserveOutcome ω w cmd
        (w.emit .inventory
          (.inventoryReservationFailed ⟨cmd.orderId, cmd.sku, cmd.qty, reason⟩))
  /-- The stored answer is given again. -/
  | repeated (result : ReservationResult) (hacquired : ω.acquired = true)
      (hcache : w.reservations cmd.orderId = some result) :
      ReserveOutcome ω w cmd (w.emit .inventory (reservationEvent cmd result))
  /-- The row does not exist or holds too little. -/
  | refused (reason : String)
      (hreason : reason = (w.items cmd.sku).elim "unknown_sku" fun _ => "insufficient_stock")
      (hacquired : ω.acquired = true) (hallowed : ω.allowed = true)
      (hcache : w.reservations cmd.orderId = none)
      (hstock : ∀ item, w.items cmd.sku = some item → item.available < cmd.qty) :
      ReserveOutcome ω w cmd
        ((w.storeReservation cmd.orderId ⟨false, some reason⟩).emit .inventory
          (.inventoryReservationFailed ⟨cmd.orderId, cmd.sku, cmd.qty, reason⟩))
  /-- The stock is moved. -/
  | moved (item item' : InventoryItem) (hacquired : ω.acquired = true)
      (hallowed : ω.allowed = true) (hcache : w.reservations cmd.orderId = none)
      (hitem : w.items cmd.sku = some item) (hqty : cmd.qty ≤ item.available)
      (havailable : item'.available = item.available - cmd.qty)
      (hreserved : item'.reserved = item.reserved + cmd.qty) :
      ReserveOutcome ω w cmd
        (((w.storeReservation cmd.orderId ⟨true, none⟩).setItem cmd.orderId cmd.sku item'
            cmd.qty).emit .inventory (.inventoryReserved ⟨cmd.orderId, cmd.sku, cmd.qty⟩))

theorem run_announce (ω : Answers) {w w' : World} {session : Session}
    (cmd : ReserveInventory) (result : ReservationResult)
    (h : w.writeAll session.txn = some w') :
    (announce cmd result).run (exec ω) (w, session) =
      (some (), w'.emit .inventory (reservationEvent cmd result), {}) := by
  rw [announce, run_release]
  exact run_commit ω w _ (World.writeAll_concat_outbox _ _ h)

/-- A decided handler commits what it has flushed, on top of the stored entry. -/
theorem run_conclude (ω : Answers) {w w' : World} {session : Session}
    (cmd : ReserveInventory) (outcome : ReservationResult)
    (h : (w.storeReservation cmd.orderId outcome).writeAll session.txn = some w') :
    (conclude cmd outcome).run (exec ω) (w, session) =
      (some (), w'.emit .inventory (reservationEvent cmd outcome), {}) := by
  rw [conclude, run_storeReservation]
  exact run_announce ω cmd outcome h

/-- A reservation handler returns with one of the four outcomes, or it raises and
leaves the world as it was: its flush is rejected because the quantity is negative
and larger than what is reserved. -/
theorem run_handleReserve (ω : Answers) (w : World) (cmd : ReserveInventory) :
    (∃ w', w.Completes (handleReserve cmd) ω w' ∧ ReserveOutcome ω w cmd w') ∨
      ((handleReserve cmd).run (exec ω) (w, {})).1 = none ∧
        ((handleReserve cmd).run (exec ω) (w, {})).2.1 = w ∧
        ∃ item, w.items cmd.sku = some item ∧ item.reserved + cmd.qty < 0 := by
  simp only [World.Completes, handleReserve_eq, run_acquire]
  cases hacq : ω.acquired with
  | false =>
      refine Or.inl ⟨_, ⟨{}, ?_⟩, .turnedAway "lock_timeout" (by rw [hacq]; rfl) (Or.inl hacq)⟩
      exact run_commit ω w {} rfl
  | true =>
      simp only [if_true, run_getCachedReservation]
      cases hcache : w.reservations cmd.orderId with
      | some result =>
          exact Or.inl ⟨_, ⟨{}, run_announce ω cmd result rfl⟩, .repeated result hacq hcache⟩
      | none =>
          simp only [run_allow]
          cases hallow : ω.allowed with
          | false =>
              exact Or.inl ⟨_, ⟨{}, run_announce ω cmd _ rfl⟩,
                .turnedAway "rate_limited" (by rw [hacq]; rfl) (Or.inr ⟨hcache, hallow⟩)⟩
          | true =>
              simp only [if_true, run_selectItemForUpdate]
              cases hitem : w.items cmd.sku with
              | none =>
                  refine Or.inl ⟨_, ⟨{}, run_conclude ω cmd _ rfl⟩,
                    .refused "unknown_sku" (by rw [hitem]; rfl) hacq hallow hcache ?_⟩
                  intro item hsome
                  rw [hitem] at hsome
                  cases hsome
              | some item =>
                  by_cases hqty : item.available < cmd.qty
                  · simp only [moveStock, if_pos hqty]
                    refine Or.inl ⟨_, ⟨{}, run_conclude ω cmd _ rfl⟩,
                      .refused "insufficient_stock" (by rw [hitem]; rfl) hacq hallow hcache ?_⟩
                    intro item' hsome
                    rw [hitem] at hsome
                    exact Option.some.inj hsome ▸ hqty
                  · simp only [moveStock, if_neg hqty, bind_assoc]
                    cases hcheck : InventoryItem.check (item.available - cmd.qty)
                        (item.reserved + cmd.qty) with
                    | none =>
                        have hwrite := w.writeAll_updateItem_none cmd.orderId cmd.sku hcheck
                        rw [InventoryItem.check_eq_none] at hcheck
                        rw [run_flush_none ω w _ _ hwrite]
                        exact Or.inr ⟨rfl, rfl, item, rfl, by omega⟩
                    | some item' =>
                        have hwrite := w.writeAll_updateItem cmd.orderId hitem hcheck
                        have hwrite' := (w.storeReservation cmd.orderId
                          ⟨true, none⟩).writeAll_updateItem cmd.orderId hitem hcheck
                        obtain ⟨havailable, hreserved⟩ := InventoryItem.check_eq_some.1 hcheck
                        have hgain : item.reserved + cmd.qty - item.reserved = cmd.qty := by
                          omega
                        rw [hgain] at hwrite'
                        rw [run_flush ω w _ _ hwrite]
                        exact Or.inl ⟨_, ⟨{}, run_conclude ω cmd ⟨true, none⟩ hwrite'⟩,
                          .moved item item' hacq hallow hcache hitem (not_lt.1 hqty) havailable
                            hreserved⟩

/-! ## The release handler -/

/-- The world after a release handler that returns. -/
inductive ReleaseOutcome (ω : Answers) (w : World) (cmd : ReleaseInventory) : World → Prop
  /-- The order was released before. -/
  | repeated (hacquired : ω.acquired = true)
      (hcache : w.releases cmd.orderId = some ()) :
      ReleaseOutcome ω w cmd
        (w.emit .inventory (.inventoryReleased ⟨cmd.orderId, cmd.sku, cmd.qty⟩))
  /-- There is no row to release against. -/
  | missing (hacquired : ω.acquired = true) (hcache : w.releases cmd.orderId = none)
      (hitem : w.items cmd.sku = none) :
      ReleaseOutcome ω w cmd
        (w.emit .inventory (.inventoryReleased ⟨cmd.orderId, cmd.sku, cmd.qty⟩))
  /-- The stock is given back. -/
  | released (item item' : InventoryItem) (hacquired : ω.acquired = true)
      (hcache : w.releases cmd.orderId = none) (hitem : w.items cmd.sku = some item)
      (havailable : item'.available = item.available + cmd.qty)
      (hreserved : item'.reserved = max 0 (item.reserved - cmd.qty)) :
      ReleaseOutcome ω w cmd
        (((w.storeRelease cmd.orderId).setItem cmd.orderId cmd.sku item'
            (item'.reserved - item.reserved)).emit .inventory
              (.inventoryReleased ⟨cmd.orderId, cmd.sku, cmd.qty⟩))

theorem run_announceRelease (ω : Answers) {w w' : World} {session : Session}
    (cmd : ReleaseInventory) (h : w.writeAll session.txn = some w') :
    (announceRelease cmd).run (exec ω) (w, session) =
      (some (), w'.emit .inventory (.inventoryReleased ⟨cmd.orderId, cmd.sku, cmd.qty⟩), {}) := by
  rw [announceRelease, run_release]
  exact run_commit ω w _ (World.writeAll_concat_outbox _ _ h)

theorem run_giveBack (ω : Answers) {w : World} {missed : Bool} (cmd : ReleaseInventory)
    {item item' : InventoryItem} (hitem : w.items cmd.sku = some item)
    (hcheck : InventoryItem.check (item.available + cmd.qty)
      (max 0 (item.reserved - cmd.qty)) = some item') :
    (giveBack cmd item).run (exec ω) (w, { missed := missed }) =
      (some (), ((w.storeRelease cmd.orderId).setItem cmd.orderId cmd.sku item'
        (item'.reserved - item.reserved)).emit .inventory
          (.inventoryReleased ⟨cmd.orderId, cmd.sku, cmd.qty⟩), {}) := by
  have hwrite := w.writeAll_updateItem cmd.orderId hitem hcheck
  have hwrite' := (w.storeRelease cmd.orderId).writeAll_updateItem cmd.orderId hitem hcheck
  rw [← (InventoryItem.check_eq_some.1 hcheck).2] at hwrite hwrite'
  rw [giveBack, ← (InventoryItem.check_eq_some.1 hcheck).2,
    run_flush ω w { missed := missed } _ hwrite, run_storeRelease]
  exact run_announceRelease ω cmd hwrite'

/-- A release handler returns with one of the three outcomes, or it raises and
leaves the world as it was: it has no lock, or its flush is rejected because the
quantity is negative and larger than what is available. -/
theorem run_handleRelease (ω : Answers) (w : World) (cmd : ReleaseInventory) :
    (∃ w', w.Completes (handleRelease cmd) ω w' ∧ ReleaseOutcome ω w cmd w') ∨
      ((handleRelease cmd).run (exec ω) (w, {})).1 = none ∧
        ((handleRelease cmd).run (exec ω) (w, {})).2.1 = w := by
  simp only [World.Completes, handleRelease_eq, run_acquire]
  cases hacq : ω.acquired with
  | false => exact Or.inr ⟨rfl, rfl⟩
  | true =>
      simp only [if_true, run_getCachedRelease]
      cases hcache : w.releases cmd.orderId with
      | some entry =>
          exact Or.inl ⟨_, ⟨{}, run_announceRelease ω cmd rfl⟩, .repeated hacq hcache⟩
      | none =>
          simp only [run_selectItemForUpdate]
          cases hitem : w.items cmd.sku with
          | none =>
              exact Or.inl ⟨_, ⟨{}, run_announceRelease ω cmd rfl⟩, .missing hacq hcache hitem⟩
          | some item =>
              simp only
              cases hcheck : InventoryItem.check (item.available + cmd.qty)
                  (max 0 (item.reserved - cmd.qty)) with
              | none =>
                  have hwrite := w.writeAll_updateItem_none cmd.orderId cmd.sku hcheck
                  rw [giveBack, run_flush_none ω w _ _ hwrite]
                  exact Or.inr ⟨rfl, rfl⟩
              | some item' =>
                  obtain ⟨havailable, hreserved⟩ := InventoryItem.check_eq_some.1 hcheck
                  exact Or.inl ⟨_, ⟨{}, run_giveBack ω cmd hitem hcheck⟩,
                    .released item item' hacq hcache hitem havailable hreserved⟩

/-! ## The seed endpoint -/

theorem run_seedInventory (ω : Answers) (w : World) (req : SeedRequest) :
    ∃ item : InventoryItem, item.available = w.availableQty req.sku + req.qty ∧
      item.reserved = w.reservedQty req.sku ∧
      w.Completes (seedInventory req) ω (w.seedItem req.sku item req.qty) := by
  have hqty := req.qty_pos
  cases hitem : w.items req.sku with
  | none =>
      refine ⟨⟨req.qty, 0, by omega, by omega⟩, ?_, ?_, {}, ?_⟩
      · simp [World.availableQty, hitem]
      · simp [World.reservedQty, hitem]
      · rw [seedInventory, run_selectItem, hitem]
        refine run_commit ω w {} ?_
        rw [List.nil_append, World.writeAll_singleton, World.write, hitem]
        rw [InventoryItem.check, dif_pos ⟨by omega, by omega⟩]
        rfl
  | some item =>
      have havailable := item.available_nonneg
      refine ⟨⟨item.available + req.qty, item.reserved, by omega, item.reserved_nonneg⟩, ?_, ?_,
        {}, ?_⟩
      · simp [World.availableQty, hitem]
      · simp [World.reservedQty, hitem]
      · rw [seedInventory, run_selectItem, hitem]
        refine run_commit ω w {} ?_
        rw [List.nil_append, World.writeAll_singleton, World.write, hitem]
        simp only [InventoryItem.check, dif_pos (show 0 ≤ item.available + req.qty ∧
          0 ≤ item.reserved from ⟨by omega, item.reserved_nonneg⟩)]
        rfl

end InventoryService

end FlashSale
