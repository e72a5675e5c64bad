import FlashSale.InventoryService.Outcome

/-!
# A failed attempt and its redelivery

An inventory command whose first attempt fails is delivered again. The entry of
the idempotency store is written inside the critical section and the stock move
is committed later, by the caller, so an attempt that stops between the two
leaves an entry for a move that was rolled back.

`FailureAtomic` says that the redelivery makes up for the failed attempt, and
`LostWrite` describes the attempts that stop in between. `failureAtomic_iff`
says that nothing else goes wrong.
-/

namespace FlashSale

/-- The routing keys of the messages committed between two worlds. -/
def World.kindsSince (w w' : World) : List String :=
  (w.since w').map Message.routingKey

namespace InventoryService

/-- After a failed attempt, every redelivery that completes ends with the
quantities and the kinds of event of one failure-free execution. In particular
an order gets an `InventoryReserved` or an `InventoryReleased` only with its
stock moved or given back. -/
structure FailureAtomic (w : World) (message : Message) (ω : Answers) (n : ℕ) : Prop where
  outcome : ∀ ω₂ w₂, (w.after (handle message) ω n).Completes (handle message) ω₂ w₂ →
    ∃ ω₁ w₁, w.Completes (handle message) ω₁ w₁ ∧ w₂.items = w₁.items ∧
      w.kindsSince w₂ = w.kindsSince w₁
  reserved : ∀ cmd, message = .reserveInventory cmd →
    w.reservations cmd.orderId = none →
    ∀ ω₂ w₂, (w.after (handle message) ω n).Completes (handle message) ω₂ w₂ →
      w.kindsSince w₂ = ["InventoryReserved"] →
      w₂.availableQty cmd.sku = w.availableQty cmd.sku - cmd.qty ∧
        w₂.reservedQty cmd.sku = w.reservedQty cmd.sku + cmd.qty
  released : ∀ cmd, message = .releaseInventory cmd →
    w.releases cmd.orderId = none → w.items cmd.sku ≠ none →
    ∀ ω₂ w₂, (w.after (handle message) ω n).Completes (handle message) ω₂ w₂ →
      w₂.availableQty cmd.sku = w.availableQty cmd.sku + cmd.qty ∧
        w₂.reservedQty cmd.sku = max 0 (w.reservedQty cmd.sku - cmd.qty)

/-- The attempt has made its first six calls, up to the `store_result` of a
successful reservation, and not its eighth, the commit; for a release these are
the fifth and the seventh. -/
def LostWrite (w : World) (message : Message) (ω : Answers) (n : ℕ) : Prop :=
  match message with
  | .reserveInventory cmd =>
      (n = 6 ∨ n = 7) ∧ ω.acquired = true ∧ ω.allowed = true ∧
        w.reservations cmd.orderId = none ∧ cmd.qty ≠ 0 ∧
        ∃ item, w.items cmd.sku = some item ∧ cmd.qty ≤ item.available ∧
          0 ≤ item.reserved + cmd.qty
  | .releaseInventory cmd =>
      (n = 5 ∨ n = 6) ∧ ω.acquired = true ∧
        w.releases cmd.orderId = none ∧ cmd.qty ≠ 0 ∧
        ∃ item, w.items cmd.sku = some item ∧ 0 ≤ item.available + cmd.qty
  | _ => False

/-! ## What a failed reservation attempt leaves behind -/

/-- Leaving the lock and committing takes two calls. -/
theorem cut_announce (ω : Answers) {w w' : World} {session : Session}
    (cmd : ReserveInventory) (result : ReservationResult)
    (h : w.writeAll session.txn = some w') {n : ℕ}
    (hfail : Handler.completed ((announce cmd result).cut (exec ω) n (w, session)).1 = false) :
    ((announce cmd result).cut (exec ω) n (w, session)).2.1 = w ∧ n < 2 := by
  rcases n with _ | _ | n
  · exact ⟨rfl, by omega⟩
  · exact ⟨rfl, by omega⟩
  · have hw := World.writeAll_concat_outbox .inventory (reservationEvent cmd result) h
    rw [announce, cut_release, cut_commit_last ω n w { session with missed := false } hw] at hfail
    cases hfail

/-- A decided handler that fails has stored its outcome or not. -/
theorem cut_conclude (ω : Answers) {w w' : World} {session : Session}
    (cmd : ReserveInventory) (outcome : ReservationResult)
    (h : (w.storeReservation cmd.orderId outcome).writeAll session.txn = some w') {n : ℕ}
    (hfail : Handler.completed ((conclude cmd outcome).cut (exec ω) n (w, session)).1 = false) :
    ((conclude cmd outcome).cut (exec ω) n (w, session)).2.1 = w ∨
      ((conclude cmd outcome).cut (exec ω) n (w, session)).2.1 =
          w.storeReservation cmd.orderId outcome ∧ (n = 1 ∨ n = 2) := by
  cases n with
  | zero => exact Or.inl rfl
  | succ n =>
      rw [conclude, cut_storeReservation] at hfail ⊢
      obtain ⟨hworld, hn⟩ :=
        @cut_announce ω _ _ { session with missed := false } cmd outcome h n hfail
      exact Or.inr ⟨hworld, by omega⟩

/-- From the row lock on: a failing handler has stored nothing, or a refusal, or a
success whose move is still to be committed. -/
theorem cut_decide (ω : Answers) {w : World} {missed : Bool} (cmd : ReserveInventory)
    {item : Option InventoryItem} (hitem : w.items cmd.sku = item) {n : ℕ}
    (hfail : Handler.completed ((moveStock cmd.orderId cmd.sku cmd.qty item >>= fun outcome =>
      conclude cmd outcome).cut (exec ω) n (w, { missed := missed })).1 = false) :
    let u := ((moveStock cmd.orderId cmd.sku cmd.qty item >>= fun outcome =>
      conclude cmd outcome).cut (exec ω) n (w, { missed := missed })).2.1
    u = w ∨
      (∃ reason, u = w.storeReservation cmd.orderId ⟨false, some reason⟩ ∧
        ∀ row, item = some row → row.available < cmd.qty) ∨
      u = w.storeReservation cmd.orderId ⟨true, none⟩ ∧ (n = 2 ∨ n = 3) ∧
        ∃ row, item = some row ∧ cmd.qty ≤ row.available ∧ 0 ≤ row.reserved + cmd.qty := by
  cases item with
  | none =>
      rcases cut_conclude ω cmd _ rfl hfail with hsame | ⟨hstored, -⟩
      · exact Or.inl hsame
      · exact Or.inr (Or.inl ⟨_, hstored, by simp⟩)
  | some row =>
      by_cases hqty : row.available < cmd.qty
      · simp only [moveStock, if_pos hqty] at hfail ⊢
        rcases cut_conclude ω cmd _ rfl hfail with hsame | ⟨hstored, -⟩
        · exact Or.inl hsame
        · exact Or.inr (Or.inl ⟨_, hstored, fun row' h => Option.some.inj h ▸ hqty⟩)
      · simp only [moveStock, if_neg hqty, bind_assoc] at hfail ⊢
        cases n with
        | zero => exact Or.inl rfl
        | succ n =>
            cases hcheck : InventoryItem.check (row.available - cmd.qty)
                (row.reserved + cmd.qty) with
            | none =>
                have hwrite := w.writeAll_updateItem_none cmd.orderId cmd.sku hcheck
                rw [cut_flush_none ω n w { missed := missed } _ hwrite]
                exact Or.inl rfl
            | some row' =>
                have hwrite := w.writeAll_updateItem cmd.orderId hitem hcheck
                have hwrite' := (w.storeReservation cmd.orderId
                  ⟨true, none⟩).writeAll_updateItem cmd.orderId hitem hcheck
                have hreserved := (InventoryItem.check_eq_some.1 hcheck).2
                have hnonneg := row'.reserved_nonneg
                rw [cut_flush ω n w { missed := missed } _ hwrite] at hfail ⊢
                rcases cut_conclude ω cmd ⟨true, none⟩ hwrite' hfail with hsame | ⟨hstored, hn⟩
                · exact Or.inl hsame
                · exact Or.inr (Or.inr ⟨hstored, by omega, row, rfl, by omega, by omega⟩)

/-- A failed attempt leaves the world as it was, or with the entry of a refusal,
or with the entry of a reservation whose move was rolled back. -/
theorem after_handleReserve {ω : Answers} {w : World} {cmd : ReserveInventory} {n : ℕ}
    (hfail : w.Fails (handleReserve cmd) ω n) :
    w.after (handleReserve cmd) ω n = w ∨
      ω.acquired = true ∧ ω.allowed = true ∧ w.reservations cmd.orderId = none ∧
        ((∃ reason, w.after (handleReserve cmd) ω n =
              w.storeReservation cmd.orderId ⟨false, some reason⟩ ∧
            ∀ item, w.items cmd.sku = some item → item.available < cmd.qty) ∨
          w.after (handleReserve cmd) ω n = w.storeReservation cmd.orderId ⟨true, none⟩ ∧
            (n = 6 ∨ n = 7) ∧ ∃ item, w.items cmd.sku = some item ∧
              cmd.qty ≤ item.available ∧ 0 ≤ item.reserved + cmd.qty) := by
  rw [World.Fails] at hfail
  rw [World.after]
  rw [handleReserve_eq] at hfail ⊢
  cases n with
  | zero => exact Or.inl rfl
  | succ n =>
      rw [cut_acquire] at hfail ⊢
      cases hacq : ω.acquired with
      | false =>
          rw [hacq] at hfail
          cases n with
          | zero => exact Or.inl rfl
          | succ n =>
              have hdone := cut_commit_last ω n w {} (w.writeAll_outbox .inventory
                (reservationEvent cmd ⟨false, some "lock_timeout"⟩))
              simp only [Bool.false_eq_true, if_false, hdone] at hfail
              cases hfail
      | true =>
          rw [hacq] at hfail
          simp only [if_true] at hfail ⊢
          cases n with
          | zero => exact Or.inl rfl
          | succ n =>
              rw [cut_getCachedReservation] at hfail ⊢
              cases hcache : w.reservations cmd.orderId with
              | some result =>
                  rw [hcache] at hfail
                  exact Or.inl (cut_announce ω cmd result rfl hfail).1
              | none =>
                  rw [hcache] at hfail
                  simp only at hfail ⊢
                  cases n with
                  | zero => exact Or.inl rfl
                  | succ n =>
                      rw [cut_allow] at hfail ⊢
                      cases hallow : ω.allowed with
                      | false =>
                          rw [hallow] at hfail
                          exact Or.inl (cut_announce ω cmd _ rfl hfail).1
                      | true =>
                          rw [hallow] at hfail
                          simp only [if_true] at hfail ⊢
                          cases n with
                          | zero => exact Or.inl rfl
                          | succ n =>
                              rw [cut_selectItemForUpdate] at hfail ⊢
                              rcases cut_decide ω cmd rfl hfail with hsame | hrefused |
                                ⟨hstored, hn, hitem⟩
                              · exact Or.inl hsame
                              · exact Or.inr ⟨trivial, trivial, trivial, Or.inl hrefused⟩
                              · exact Or.inr
                                  ⟨trivial, trivial, trivial, Or.inr ⟨hstored, by omega, hitem⟩⟩

/-! ## What a failed release attempt leaves behind -/

theorem cut_announceRelease (ω : Answers) {w w' : World} {session : Session}
    (cmd : ReleaseInventory) (h : w.writeAll session.txn = some w') {n : ℕ}
    (hfail : Handler.completed ((announceRelease cmd).cut (exec ω) n (w, session)).1 = false) :
    ((announceRelease cmd).cut (exec ω) n (w, session)).2.1 = w ∧ n < 2 := by
  rcases n with _ | _ | n
  · exact ⟨rfl, by omega⟩
  · exact ⟨rfl, by omega⟩
  · have hw := World.writeAll_concat_outbox .inventory
      (.inventoryReleased ⟨cmd.orderId, cmd.sku, cmd.qty⟩) h
    rw [announceRelease, cut_release,
      cut_commit_last ω n w { session with missed := false } hw] at hfail
    cases hfail

theorem cut_giveBack (ω : Answers) {w : World} {missed : Bool} (cmd : ReleaseInventory)
    {item : InventoryItem} (hitem : w.items cmd.sku = some item) {n : ℕ}
    (hfail : Handler.completed ((giveBack cmd item).cut (exec ω) n
      (w, { missed := missed })).1 = false) :
    let u := ((giveBack cmd item).cut (exec ω) n (w, { missed := missed })).2.1
    u = w ∨ u = w.storeRelease cmd.orderId ∧ (n = 2 ∨ n = 3) ∧
      0 ≤ item.available + cmd.qty := by
  rw [giveBack] at hfail ⊢
  cases n with
  | zero => exact Or.inl rfl
  | succ n =>
      cases hcheck : InventoryItem.check (item.available + cmd.qty)
          (max 0 (item.reserved - cmd.qty)) with
      | none =>
          have hwrite := w.writeAll_updateItem_none cmd.orderId cmd.sku hcheck
          rw [cut_flush_none ω n w { missed := missed } _ hwrite]
          exact Or.inl rfl
      | some item' =>
          have hwrite := w.writeAll_updateItem cmd.orderId hitem hcheck
          have hwrite' := (w.storeRelease cmd.orderId).writeAll_updateItem cmd.orderId
            hitem hcheck
          have havailable := (InventoryItem.check_eq_some.1 hcheck).1
          have hnonneg := item'.available_nonneg
          rw [cut_flush ω n w { missed := missed } _ hwrite] at hfail ⊢
          cases n with
          | zero => exact Or.inl rfl
          | succ n =>
              obtain ⟨hworld, hn⟩ := cut_announceRelease ω cmd hwrite' hfail
              exact Or.inr ⟨hworld, by omega, by omega⟩

/-- A failed attempt leaves the world as it was, or with the entry of a release
whose move was rolled back. -/
theorem after_handleRelease {ω : Answers} {w : World} {cmd : ReleaseInventory} {n : ℕ}
    (hfail : w.Fails (handleRelease cmd) ω n) :
    w.after (handleRelease cmd) ω n = w ∨
      w.after (handleRelease cmd) ω n = w.storeRelease cmd.orderId ∧
        (n = 5 ∨ n = 6) ∧ ω.acquired = true ∧ w.releases cmd.orderId = none ∧
        ∃ item, w.items cmd.sku = some item ∧ 0 ≤ item.available + cmd.qty := by
  rw [World.Fails] at hfail
  rw [World.after]
  rw [handleRelease_eq] at hfail ⊢
  cases n with
  | zero => exact Or.inl rfl
  | succ n =>
      rw [cut_acquire] at hfail ⊢
      cases hacq : ω.acquired with
      | false =>
          rw [if_neg Bool.false_ne_true, Prog.cut_raise]
          exact Or.inl rfl
      | true =>
          rw [hacq] at hfail
          simp only [if_true] at hfail ⊢
          cases n with
          | zero => exact Or.inl rfl
          | succ n =>
              rw [cut_getCachedRelease] at hfail ⊢
              cases hcache : w.releases cmd.orderId with
              | some entry =>
                  rw [hcache] at hfail
                  exact Or.inl (cut_announceRelease ω cmd rfl hfail).1
              | none =>
                  rw [hcache] at hfail
                  simp only at hfail ⊢
                  cases n with
                  | zero => exact Or.inl rfl
                  | succ n =>
                      rw [cut_selectItemForUpdate] at hfail ⊢
                      cases hitem : w.items cmd.sku with
                      | none =>
                          rw [hitem] at hfail
                          exact Or.inl (cut_announceRelease ω cmd rfl hfail).1
                      | some item =>
                          rw [hitem] at hfail
                          rcases cut_giveBack ω cmd hitem hfail with hsame | ⟨hstored, hn, hqty⟩
                          · exact Or.inl hsame
                          · exact Or.inr ⟨hstored, by omega, trivial, trivial, item, rfl, hqty⟩

/-! ## The redelivery -/

/-- An order without an entry gets `InventoryReserved` only with its stock moved. -/
theorem ReserveOutcome.movesStock {ω : Answers} {w w' : World} {cmd : ReserveInventory}
    (h : ReserveOutcome ω w cmd w') (hcache : w.reservations cmd.orderId = none)
    (hkind : w.kindsSince w' = ["InventoryReserved"]) :
    w'.availableQty cmd.sku = w.availableQty cmd.sku - cmd.qty ∧
      w'.reservedQty cmd.sku = w.reservedQty cmd.sku + cmd.qty := by
  cases h with
  | turnedAway reason hreason hturned =>
      simp [World.kindsSince, World.since, Message.routingKey] at hkind
  | repeated result hacquired hsome =>
      rw [hcache] at hsome
      cases hsome
  | refused reason hreason hacquired hallowed hnone hstock =>
      simp [World.kindsSince, World.since, Message.routingKey] at hkind
  | moved item item' hacquired hallowed hnone hitem hqty havailable hreserved =>
      simp [World.availableQty, World.reservedQty, hitem, havailable, hreserved]

/-- A release that finds a row and no entry gives the stock back. -/
theorem ReleaseOutcome.givesBack {ω : Answers} {w w' : World} {cmd : ReleaseInventory}
    (h : ReleaseOutcome ω w cmd w') (hcache : w.releases cmd.orderId = none)
    (hitem : w.items cmd.sku ≠ none) :
    w'.availableQty cmd.sku = w.availableQty cmd.sku + cmd.qty ∧
      w'.reservedQty cmd.sku = max 0 (w.reservedQty cmd.sku - cmd.qty) := by
  cases h with
  | repeated hacquired hsome =>
      rw [hcache] at hsome
      cases hsome
  | missing hacquired hnone hmissing => exact absurd hmissing hitem
  | released item item' hacquired hnone hsome havailable hreserved =>
      simp [World.availableQty, World.reservedQty, hsome, havailable, hreserved]

/-- A redelivered reservation returns with an outcome of the world it starts in. -/
theorem reserveOutcome_of_completes {ω : Answers} {w w' : World} {cmd : ReserveInventory}
    (h : w.Completes (handleReserve cmd) ω w') : ReserveOutcome ω w cmd w' := by
  rcases run_handleReserve ω w cmd with ⟨u, hu, hout⟩ | ⟨hnone, -⟩
  · rw [h.unique hu]
    exact hout
  · obtain ⟨session, h⟩ := h
    rw [h] at hnone
    cases hnone

theorem releaseOutcome_of_completes {ω : Answers} {w w' : World} {cmd : ReleaseInventory}
    (h : w.Completes (handleRelease cmd) ω w') : ReleaseOutcome ω w cmd w' := by
  rcases run_handleRelease ω w cmd with ⟨u, hu, hout⟩ | ⟨hnone, -⟩
  · rw [h.unique hu]
    exact hout
  · obtain ⟨session, h⟩ := h
    rw [h] at hnone
    cases hnone

/-- After an attempt that changed nothing, the redelivery is itself the
failure-free execution. -/
theorem failureAtomic_of_after_eq {w : World} {message : Message} {ω : Answers} {n : ℕ}
    (h : w.after (handle message) ω n = w) : FailureAtomic w message ω n where
  outcome ω₂ w₂ hw₂ := ⟨ω₂, w₂, h ▸ hw₂, rfl, rfl⟩
  reserved cmd hcmd hcache ω₂ w₂ hw₂ hkind := by
    subst hcmd
    rw [h] at hw₂
    exact (reserveOutcome_of_completes hw₂).movesStock hcache hkind
  released cmd hcmd hcache hitem ω₂ w₂ hw₂ := by
    subst hcmd
    rw [h] at hw₂
    exact (releaseOutcome_of_completes hw₂).givesBack hcache hitem

/-- With an entry, a redelivered reservation repeats it or has no lock. -/
theorem ReserveOutcome.of_entry {ω : Answers} {w w' : World} {cmd : ReserveInventory}
    {result : ReservationResult} (h : ReserveOutcome ω w cmd w')
    (hcache : w.reservations cmd.orderId = some result) :
    w'.items = w.items ∧ w.kindsSince w' = if ω.acquired = true ∧ result.success = true
      then ["InventoryReserved"] else ["InventoryReservationFailed"] := by
  cases h with
  | turnedAway reason hreason hturned =>
      rcases hturned with hacq | ⟨hnone, -⟩
      · simp [World.kindsSince, World.since, Message.routingKey, hacq]
      · rw [hcache] at hnone
        cases hnone
  | repeated result' hacquired hsome =>
      rw [hcache, Option.some.injEq] at hsome
      subst hsome
      cases hsuccess : result.success <;>
        simp [World.kindsSince, World.since, reservationEvent, Message.routingKey, hacquired,
          hsuccess]
  | refused reason hreason hacquired hallowed hnone hstock =>
      rw [hcache] at hnone
      cases hnone
  | moved item item' hacquired hallowed hnone hitem hqty havailable hreserved =>
      rw [hcache] at hnone
      cases hnone

/-- Without the lock a reservation changes no stock and fails. -/
theorem completes_of_not_acquired {ω : Answers} (w : World) (cmd : ReserveInventory)
    (hacq : ω.acquired = false) :
    ∃ w₁, w.Completes (handleReserve cmd) ω w₁ ∧ w₁.items = w.items ∧
      w.kindsSince w₁ = ["InventoryReservationFailed"] := by
  refine ⟨w.emit .inventory (reservationEvent cmd ⟨false, some "lock_timeout"⟩), ⟨{}, ?_⟩, rfl,
    ?_⟩
  · rw [handleReserve_eq, run_acquire, hacq]
    exact run_commit ω w {} rfl
  · simp [World.kindsSince, World.since, reservationEvent, Message.routingKey]

/-- An uninterrupted reservation that decides on too little stock. -/
theorem completes_of_refused {ω : Answers} {w : World} {cmd : ReserveInventory}
    (hacq : ω.acquired = true) (hallow : ω.allowed = true)
    (hcache : w.reservations cmd.orderId = none)
    (hstock : ∀ item, w.items cmd.sku = some item → item.available < cmd.qty) :
    ∃ w₁, w.Completes (handleReserve cmd) ω w₁ ∧ w₁.items = w.items ∧
      w.kindsSince w₁ = ["InventoryReservationFailed"] := by
  rcases run_handleReserve ω w cmd with ⟨w₁, hw₁, hout⟩ | ⟨-, -, item, hitem, hneg⟩
  · refine ⟨w₁, hw₁, ?_⟩
    cases hout with
    | turnedAway reason hreason hturned => simp [hacq, hallow] at hturned
    | repeated result hacquired hsome => simp [hcache] at hsome
    | refused reason hreason => simp [World.kindsSince, World.since, Message.routingKey]
    | moved item item' hacquired hallowed hnone hitem hqty =>
        have := hstock item hitem
        omega
  · have hlt := hstock item hitem
    have h1 := item.available_nonneg
    have h2 := item.reserved_nonneg
    omega

/-- An uninterrupted reservation that decides on enough stock. -/
theorem completes_of_moved {ω : Answers} {w : World} {cmd : ReserveInventory}
    {item : InventoryItem} (hacq : ω.acquired = true) (hallow : ω.allowed = true)
    (hcache : w.reservations cmd.orderId = none) (hitem : w.items cmd.sku = some item)
    (hqty : cmd.qty ≤ item.available) (hnonneg : 0 ≤ item.reserved + cmd.qty) :
    ∃ w₁ item', w.Completes (handleReserve cmd) ω w₁ ∧
      w₁.items = Function.update w.items cmd.sku (some item') ∧
      item'.available = item.available - cmd.qty ∧ item'.reserved = item.reserved + cmd.qty ∧
      w.kindsSince w₁ = ["InventoryReserved"] := by
  rcases run_handleReserve ω w cmd with ⟨w₁, hw₁, hout⟩ | ⟨-, -, row, hrow, hneg⟩
  · cases hout with
    | turnedAway reason hreason hturned => simp [hacq, hallow] at hturned
    | repeated result hacquired hsome => simp [hcache] at hsome
    | refused reason hreason hacquired hallowed hnone hstock =>
        have := hstock item hitem
        omega
    | moved row item' hacquired hallowed hnone hrow hqty' havailable hreserved =>
        rw [hitem, Option.some.injEq] at hrow
        subst hrow
        exact ⟨_, item', hw₁, by simp, havailable, hreserved, by
          simp [World.kindsSince, World.since, Message.routingKey]⟩
  · rw [hitem, Option.some.injEq] at hrow
    subst hrow
    omega

/-- A stored entry does no harm when a failure-free execution gives the same
answer and moves nothing. -/
theorem failureAtomic_of_entry {w : World} {cmd : ReserveInventory} {ω : Answers} {n : ℕ}
    {result : ReservationResult}
    (hafter : w.after (handleReserve cmd) ω n = w.storeReservation cmd.orderId result)
    (hfree : ∃ w₁, w.Completes (handleReserve cmd) ω w₁ ∧ w₁.items = w.items ∧
      w.kindsSince w₁ = if result.success = true then ["InventoryReserved"]
        else ["InventoryReservationFailed"])
    (hqty : result.success = true → cmd.qty = 0) :
    FailureAtomic w (.reserveInventory cmd) ω n := by
  have hentry : ∀ ω₂ w₂, (w.after (handleReserve cmd) ω n).Completes (handleReserve cmd) ω₂ w₂ →
      w₂.items = w.items ∧ w.kindsSince w₂ = if ω₂.acquired = true ∧ result.success = true
        then ["InventoryReserved"] else ["InventoryReservationFailed"] := by
    intro ω₂ w₂ hw₂
    rw [hafter] at hw₂
    have hsome : (w.storeReservation cmd.orderId result).reservations cmd.orderId =
        some result := by simp
    exact (reserveOutcome_of_completes hw₂).of_entry hsome
  refine ⟨?_, ?_, ?_⟩
  · intro ω₂ w₂ hw₂
    obtain ⟨hitems, hkinds⟩ := hentry ω₂ w₂ hw₂
    cases hacq : ω₂.acquired with
    | false =>
        obtain ⟨w₁, hw₁, hitems₁, hkinds₁⟩ := completes_of_not_acquired w cmd hacq
        exact ⟨ω₂, w₁, hw₁, hitems.trans hitems₁.symm, by rw [hkinds, hkinds₁]; simp [hacq]⟩
    | true =>
        obtain ⟨w₁, hw₁, hitems₁, hkinds₁⟩ := hfree
        exact ⟨ω, w₁, hw₁, hitems.trans hitems₁.symm, by rw [hkinds, hkinds₁]; simp [hacq]⟩
  · rintro cmd' ⟨rfl⟩ hcache ω₂ w₂ hw₂ hkind
    obtain ⟨hitems, hkinds⟩ := hentry ω₂ w₂ hw₂
    rw [hkind] at hkinds
    have hsuccess : result.success = true := by
      by_contra hfalse
      simp [hfalse] at hkinds
    rw [World.availableQty, World.reservedQty, hitems, hqty hsuccess]
    exact ⟨(Int.sub_zero _).symm, (Int.add_zero _).symm⟩
  · rintro cmd' ⟨⟩

/-- An uninterrupted release that finds a row. -/
theorem completes_of_released {ω : Answers} {w : World} {cmd : ReleaseInventory}
    {item : InventoryItem} (hacq : ω.acquired = true) (hcache : w.releases cmd.orderId = none)
    (hitem : w.items cmd.sku = some item) (hnonneg : 0 ≤ item.available + cmd.qty) :
    ∃ w₁ item', w.Completes (handleRelease cmd) ω w₁ ∧
      w₁.items = Function.update w.items cmd.sku (some item') ∧
      item'.available = item.available + cmd.qty ∧
      item'.reserved = max 0 (item.reserved - cmd.qty) ∧
      w.kindsSince w₁ = ["InventoryReleased"] := by
  have hcheck : InventoryItem.check (item.available + cmd.qty) (max 0 (item.reserved - cmd.qty)) =
      some ⟨item.available + cmd.qty, max 0 (item.reserved - cmd.qty), hnonneg, by omega⟩ :=
    InventoryItem.check_eq_some.2 ⟨rfl, rfl⟩
  have hrun : (handleRelease cmd).run (exec ω) (w, {}) =
      (giveBack cmd item).run (exec ω) (w, { missed := true }) := by
    rw [handleRelease_eq, run_acquire, hacq, if_pos rfl, run_getCachedRelease, hcache]
    simp only [run_selectItemForUpdate, hitem]
    rfl
  rw [run_giveBack ω cmd hitem hcheck] at hrun
  refine ⟨_, _, ⟨_, hrun⟩, rfl, rfl, rfl, ?_⟩
  simp [World.kindsSince, World.since, Message.routingKey]

/-- With an entry, a redelivered release repeats it. -/
theorem ReleaseOutcome.of_entry {ω : Answers} {w w' : World} {cmd : ReleaseInventory}
    (h : ReleaseOutcome ω w cmd w') (hcache : w.releases cmd.orderId = some ()) :
    w'.items = w.items ∧ w.kindsSince w' = ["InventoryReleased"] := by
  cases h with
  | repeated => simp [World.kindsSince, World.since, Message.routingKey]
  | missing hacquired hnone => simp [hcache] at hnone
  | released item item' hacquired hnone => simp [hcache] at hnone

/-- A stored release does no harm when there is nothing to give back. -/
theorem failureAtomic_of_released {w : World} {cmd : ReleaseInventory} {ω : Answers} {n : ℕ}
    {item : InventoryItem} (hacq : ω.acquired = true)
    (hafter : w.after (handleRelease cmd) ω n = w.storeRelease cmd.orderId)
    (hcache : w.releases cmd.orderId = none) (hitem : w.items cmd.sku = some item)
    (hqty : cmd.qty = 0) : FailureAtomic w (.releaseInventory cmd) ω n := by
  have hitem' := item.available_nonneg
  have hreserved := item.reserved_nonneg
  have hentry : ∀ ω₂ w₂, (w.after (handleRelease cmd) ω n).Completes (handleRelease cmd) ω₂ w₂ →
      w₂.items = w.items ∧ w.kindsSince w₂ = ["InventoryReleased"] := by
    intro ω₂ w₂ hw₂
    rw [hafter] at hw₂
    have hsome : (w.storeRelease cmd.orderId).releases cmd.orderId = some () := by simp
    exact (releaseOutcome_of_completes hw₂).of_entry hsome
  refine ⟨?_, ?_, ?_⟩
  · intro ω₂ w₂ hw₂
    obtain ⟨hitems, hkinds⟩ := hentry ω₂ w₂ hw₂
    obtain ⟨w₁, item', hw₁, hitems₁, havail₁, hres₁, hkinds₁⟩ :=
      completes_of_released hacq hcache hitem (by omega)
    have hsame : item' = item := by
      ext
      · omega
      · omega
    rw [hsame, ← hitem, Function.update_eq_self] at hitems₁
    exact ⟨ω, w₁, hw₁, hitems.trans hitems₁.symm, hkinds.trans hkinds₁.symm⟩
  · rintro cmd' ⟨⟩
  · rintro cmd' ⟨rfl⟩ _ _ ω₂ w₂ hw₂
    obtain ⟨hitems, -⟩ := hentry ω₂ w₂ hw₂
    simp only [World.availableQty, World.reservedQty, hitems, hqty, hitem, Option.elim_some]
    omega

/-! ## The attempts that lose a write -/

theorem after_lostReserve {w : World} {cmd : ReserveInventory} {ω : Answers} {n : ℕ}
    (h : LostWrite w (.reserveInventory cmd) ω n) :
    w.Fails (handleReserve cmd) ω n ∧
      w.after (handleReserve cmd) ω n = w.storeReservation cmd.orderId ⟨true, none⟩ := by
  obtain ⟨hn, hacq, hallow, hcache, -, item, hitem, hqty, hnonneg⟩ := h
  have hcheck : InventoryItem.check (item.available - cmd.qty) (item.reserved + cmd.qty) =
      some ⟨item.available - cmd.qty, item.reserved + cmd.qty, by omega, hnonneg⟩ :=
    InventoryItem.check_eq_some.2 ⟨rfl, rfl⟩
  have hwrite := w.writeAll_updateItem cmd.orderId hitem hcheck
  have hcut : ∀ m, (handleReserve cmd).cut (exec ω) (m + 6) (w, {}) =
      (announce cmd ⟨true, none⟩).cut (exec ω) m
        (w.storeReservation cmd.orderId ⟨true, none⟩,
          { txn := [.updateItem cmd.orderId cmd.sku (item.available - cmd.qty)
              (item.reserved + cmd.qty)] }) := by
    intro m
    rw [handleReserve_eq, cut_acquire, hacq, if_pos rfl, cut_getCachedReservation, hcache]
    simp only [cut_allow, hallow, if_true, cut_selectItemForUpdate, hitem, moveStock,
      if_neg (not_lt.2 hqty), bind_assoc]
    rw [cut_flush ω _ w _ _ hwrite]
    rfl
  rw [World.Fails, World.after]
  rcases hn with rfl | rfl
  · rw [hcut 0]
    exact ⟨rfl, rfl⟩
  · rw [hcut 1]
    exact ⟨rfl, rfl⟩

theorem after_lostRelease {w : World} {cmd : ReleaseInventory} {ω : Answers} {n : ℕ}
    (h : LostWrite w (.releaseInventory cmd) ω n) :
    w.Fails (handleRelease cmd) ω n ∧
      w.after (handleRelease cmd) ω n = w.storeRelease cmd.orderId := by
  obtain ⟨hn, hacq, hcache, -, item, hitem, hnonneg⟩ := h
  have hcheck : InventoryItem.check (item.available + cmd.qty) (max 0 (item.reserved - cmd.qty)) =
      some ⟨item.available + cmd.qty, max 0 (item.reserved - cmd.qty), hnonneg, by omega⟩ :=
    InventoryItem.check_eq_some.2 ⟨rfl, rfl⟩
  have hwrite := w.writeAll_updateItem cmd.orderId hitem hcheck
  have hcut : ∀ m, (handleRelease cmd).cut (exec ω) (m + 5) (w, {}) =
      (announceRelease cmd).cut (exec ω) m
        (w.storeRelease cmd.orderId,
          { txn := [.updateItem cmd.orderId cmd.sku (item.available + cmd.qty)
              (max 0 (item.reserved - cmd.qty))] }) := by
    intro m
    rw [handleRelease_eq, cut_acquire, hacq, if_pos rfl, cut_getCachedRelease, hcache]
    simp only [cut_selectItemForUpdate, hitem, giveBack]
    rw [cut_flush ω _ w _ _ hwrite]
    rfl
  rw [World.Fails, World.after]
  rcases hn with rfl | rfl
  · rw [hcut 0]
    exact ⟨rfl, rfl⟩
  · rw [hcut 1]
    exact ⟨rfl, rfl⟩

/-- The redelivery after a lost reservation announces a move that was rolled
back. -/
theorem not_failureAtomic_of_lostReserve {w : World} {cmd : ReserveInventory} {ω : Answers}
    {n : ℕ} (h : LostWrite w (.reserveInventory cmd) ω n) :
    ¬ FailureAtomic w (.reserveInventory cmd) ω n := by
  intro hatomic
  obtain ⟨-, hafter⟩ := after_lostReserve h
  obtain ⟨-, hacq, -, hcache, hqty, -⟩ := h
  have hsome : (w.storeReservation cmd.orderId ⟨true, none⟩).reservations cmd.orderId =
      some ⟨true, none⟩ := by simp
  have hrun : (w.after (handleReserve cmd) ω n).Completes (handleReserve cmd) ω
      ((w.storeReservation cmd.orderId ⟨true, none⟩).emit .inventory
        (reservationEvent cmd ⟨true, none⟩)) := by
    refine ⟨{}, ?_⟩
    rw [hafter, handleReserve_eq, run_acquire, hacq, if_pos rfl, run_getCachedReservation, hsome]
    exact run_announce ω cmd ⟨true, none⟩ rfl
  have hreserved := (hatomic.reserved cmd rfl hcache ω _ hrun (by
    simp [World.kindsSince, World.since, reservationEvent, Message.routingKey])).1
  simp only [World.availableQty, World.emit_items, World.storeReservation_items] at hreserved
  omega

theorem not_failureAtomic_of_lostRelease {w : World} {cmd : ReleaseInventory} {ω : Answers}
    {n : ℕ} (h : LostWrite w (.releaseInventory cmd) ω n) :
    ¬ FailureAtomic w (.releaseInventory cmd) ω n := by
  intro hatomic
  obtain ⟨-, hafter⟩ := after_lostRelease h
  obtain ⟨-, hacq, hcache, hqty, item, hitem, -⟩ := h
  have hsome : (w.storeRelease cmd.orderId).releases cmd.orderId = some () := by simp
  have hrun : (w.after (handleRelease cmd) ω n).Completes (handleRelease cmd) ω
      ((w.storeRelease cmd.orderId).emit .inventory
        (.inventoryReleased ⟨cmd.orderId, cmd.sku, cmd.qty⟩)) := by
    refine ⟨{}, ?_⟩
    rw [hafter, handleRelease_eq, run_acquire, hacq, if_pos rfl, run_getCachedRelease, hsome]
    exact run_announceRelease ω cmd rfl
  have hrow : w.items cmd.sku ≠ none := by simp [hitem]
  have hreleased := (hatomic.released cmd rfl hcache hrow ω _ hrun).1
  simp only [World.availableQty, World.emit_items, World.storeRelease_items] at hreleased
  omega

/-- **A redelivery makes up for a failed attempt exactly when the attempt did not
lose a write.** -/
theorem failureAtomic_iff (w : World) (message : Message) (ω : Answers) (n : ℕ) :
    (w.Fails (handle message) ω n → FailureAtomic w message ω n) ↔
      ¬ LostWrite w message ω n := by
  constructor
  · intro hatomic hlost
    cases message with
    | reserveInventory cmd =>
        exact not_failureAtomic_of_lostReserve hlost (hatomic (after_lostReserve hlost).1)
    | releaseInventory cmd =>
        exact not_failureAtomic_of_lostRelease hlost (hatomic (after_lostRelease hlost).1)
    | _ => exact hlost
  · intro hkept hfail
    cases message with
    | reserveInventory cmd =>
        rcases after_handleReserve hfail with hsame | ⟨hacq, hallow, hcache, hstored⟩
        · exact failureAtomic_of_after_eq hsame
        · rcases hstored with ⟨reason, hafter, hstock⟩ | ⟨hafter, hn, item, hitem, hqty, hnonneg⟩
          · exact failureAtomic_of_entry hafter
              (completes_of_refused hacq hallow hcache hstock) (by simp)
          · have hzero : cmd.qty = 0 := by
              by_contra hne
              exact hkept ⟨hn, hacq, hallow, hcache, hne, item, hitem, hqty, hnonneg⟩
            obtain ⟨w₁, item', hw₁, hitems, havail, hres, hkinds⟩ :=
              completes_of_moved hacq hallow hcache hitem hqty hnonneg
            have hsame : item' = item := by
              ext
              · omega
              · omega
            rw [hsame, ← hitem, Function.update_eq_self] at hitems
            exact failureAtomic_of_entry hafter ⟨w₁, hw₁, hitems, hkinds⟩ fun _ => hzero
    | releaseInventory cmd =>
        rcases after_handleRelease hfail with hsame |
          ⟨hafter, hn, hacq, hcache, item, hitem, hnonneg⟩
        · exact failureAtomic_of_after_eq hsame
        · have hzero : cmd.qty = 0 := by
            by_contra hne
            exact hkept ⟨hn, hacq, hcache, hne, item, hitem, hnonneg⟩
          exact failureAtomic_of_released hacq hafter hcache hitem hzero
    | _ => exact failureAtomic_of_after_eq (by cases n <;> rfl)

/-- One unit in stock. -/
def oneInStock : World :=
  { World.empty with items := fun _ => some ⟨1, 0, by decide, by decide⟩ }

/-- The attempt stores its answer and stops before the commit. -/
theorem not_failureAtomic_oneInStock :
    let message := Message.reserveInventory ⟨"order-1", "sku-1", 1⟩
    let ω : Answers := ⟨true, true, ⟨true, "", none⟩, ""⟩
    oneInStock.Fails (handle message) ω 7 ∧ ¬ FailureAtomic oneInStock message ω 7 := by
  intro message ω
  have hlost : LostWrite oneInStock message ω 7 :=
    ⟨Or.inr rfl, rfl, rfl, rfl, by decide, _, rfl, by decide, by decide⟩
  exact ⟨(after_lostReserve hlost).1, not_failureAtomic_of_lostReserve hlost⟩

end InventoryService

end FlashSale
