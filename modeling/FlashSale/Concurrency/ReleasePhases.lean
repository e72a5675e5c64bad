import FlashSale.Concurrency.Pool
import FlashSale.InventoryService.Outcome

/-!
# The points of a release task and of a seed request

The phases of the other two programs that write `inventory_items`, in the form
of `ReservePhases`.
-/

namespace FlashSale

namespace InventoryService

/-- The points at which a release task waits for its next call; without the lock
it raises. -/
inductive ReleasePhase
  | acquiring
  | checking
  | selecting
  | flushing (item : InventoryItem)
  | storing (txn : List Write)
  | leaving (txn : List Write) (missed : Bool)
  | committing (txn : List Write)
  | done
  | failed

namespace ReleasePhase

/-- What is left of the program. -/
def prog (cmd : ReleaseInventory) : ReleasePhase → Handler Unit
  | acquiring => handleRelease cmd
  | checking => do
      match ← getCachedRelease cmd.orderId with
      | some _ => announceRelease cmd
      | none =>
          match ← selectItemForUpdate cmd.sku with
          | none => announceRelease cmd
          | some item => giveBack cmd item
  | selecting => do
      match ← selectItemForUpdate cmd.sku with
      | none => announceRelease cmd
      | some item => giveBack cmd item
  | flushing item => giveBack cmd item
  | storing _ => do
      storeRelease cmd.orderId
      announceRelease cmd
  | leaving _ _ => announceRelease cmd
  | committing _ =>
      commit [.outbox .inventory (.inventoryReleased ⟨cmd.orderId, cmd.sku, cmd.qty⟩)]
  | done => return ()
  | failed => Prog.raise

/-- The unit of work. -/
def session : ReleasePhase → Session
  | acquiring | checking | done | failed => {}
  | selecting | flushing _ => { missed := true }
  | storing txn => { txn := txn, missed := true }
  | leaving txn missed => { txn := txn, missed := missed }
  | committing txn => { txn := txn }

end ReleasePhase

/-- The UPDATE of a release that has read `item`. -/
def releaseWrite (cmd : ReleaseInventory) (item : InventoryItem) : Write :=
  .updateItem cmd.orderId cmd.sku (item.available + cmd.qty) (max 0 (item.reserved - cmd.qty))

/-- One call of a release task with number `i`. -/
inductive ReleaseStep (cmd : ReleaseInventory) (i : ℕ) (free : Sku → Bool) (c : Context) :
    ReleasePhase → ReleasePhase → Context → Prop
  | acquire (h : c.locks (.sku cmd.sku) = none) :
      ReleaseStep cmd i free c .acquiring .checking
        { c with locks := Function.update c.locks (.sku cmd.sku) (some i) }
  | timeout : ReleaseStep cmd i free c .acquiring .failed c
  | hit (h : c.world.releases cmd.orderId = some ()) :
      ReleaseStep cmd i free c .checking (.leaving [] false) { c with session := {} }
  | miss (h : c.world.releases cmd.orderId = none) :
      ReleaseStep cmd i free c .checking .selecting { c with session := { missed := true } }
  | missing (hfree : free cmd.sku = true) (h : c.world.items cmd.sku = none) :
      ReleaseStep cmd i free c .selecting (.leaving [] true) c
  | found (item : InventoryItem) (hfree : free cmd.sku = true)
      (h : c.world.items cmd.sku = some item) :
      ReleaseStep cmd i free c .selecting (.flushing item)
        { c with rows := c.rows.insert cmd.sku }
  | flush (item : InventoryItem) (hfree : free cmd.sku = true) :
      ReleaseStep cmd i free c (.flushing item) (.storing [releaseWrite cmd item])
        { c with
          session := { txn := [releaseWrite cmd item], missed := true }
          rows := [cmd.sku] ∪ c.rows }
  | store (txn : List Write) :
      ReleaseStep cmd i free c (.storing txn) (.leaving txn false)
        { c with
          world := c.world.storeRelease cmd.orderId
          session := { txn := txn } }
  | leave (txn : List Write) (missed : Bool) :
      ReleaseStep cmd i free c (.leaving txn missed) (.committing txn)
        { c with
          session := { txn := txn }
          locks := if c.locks (.sku cmd.sku) = some i
            then Function.update c.locks (.sku cmd.sku) none else c.locks }
  | commit (txn : List Write) (w : World)
      (hfree : (txn.filterMap Write.sku).all free = true)
      (hwrite : c.world.writeAll txn = some w) :
      ReleaseStep cmd i free c (.committing txn) .done
        { c with
          world := w.emit .inventory (.inventoryReleased ⟨cmd.orderId, cmd.sku, cmd.qty⟩)
          session := {}
          rows := [] }

/-- A release task takes one of the steps of `ReleaseStep`. -/
theorem release_perform {cmd : ReleaseInventory} {i : ℕ} {ω : Answers} {free : Sku → Bool}
    {phase : ReleasePhase} {c c' : Context} {e : Effect} {k : e.Answer → Handler Unit}
    {r : e.Answer} (hprog : phase.prog cmd = .call e k) (hsession : c.session = phase.session)
    (h : perform i ω free e c = some (r, c')) :
    ∃ phase', k r = phase'.prog cmd ∧ c'.session = phase'.session ∧
      ReleaseStep cmd i free c phase phase' c' ∧
      (e.isCommit = true ↔ phase' = .done) := by
  obtain ⟨w, locks, session, rows⟩ := c
  obtain rfl : session = phase.session := hsession
  cases phase with
  | acquiring =>
      rw [ReleasePhase.prog, handleRelease_eq] at hprog
      cases hprog
      simp only [perform] at h
      split at h
      · rw [Option.ite_none_right_eq_some] at h
        cases h.2
        exact ⟨.checking, rfl, rfl, .acquire h.1, by simp [Effect.isCommit]⟩
      · cases h
        exact ⟨.failed, rfl, rfl, .timeout, by simp [Effect.isCommit]⟩
  | checking =>
      cases hprog
      cases h
      have hcache : w.cache (.release cmd.orderId) = w.releases cmd.orderId := rfl
      cases hentry : w.releases cmd.orderId with
      | some entry =>
          rw [hentry] at hcache
          simp only [hcache]
          exact ⟨.leaving [] false, rfl, rfl, .hit hentry, by simp [Effect.isCommit]⟩
      | none =>
          rw [hentry] at hcache
          simp only [hcache]
          exact ⟨.selecting, rfl, rfl, .miss hentry, by simp [Effect.isCommit]⟩
  | selecting =>
      cases hprog
      simp only [perform, Option.ite_none_right_eq_some] at h
      obtain ⟨hfree, hc⟩ := h
      cases hc
      cases hitem : w.items cmd.sku with
      | none =>
          exact ⟨.leaving [] true, rfl, rfl, .missing hfree hitem, by simp [Effect.isCommit]⟩
      | some item =>
          exact ⟨.flushing item, rfl, rfl, .found item hfree hitem, by simp [Effect.isCommit]⟩
  | flushing item =>
      cases hprog
      obtain ⟨hfree, rfl⟩ := perform_flush h
      exact ⟨.storing [releaseWrite cmd item], rfl, rfl,
        .flush item (by simpa [Write.sku] using hfree), by simp [Effect.isCommit]⟩
  | storing txn =>
      cases hprog
      cases h
      exact ⟨.leaving txn false, rfl, rfl, .store txn, by simp [Effect.isCommit]⟩
  | leaving txn missed =>
      cases hprog
      cases h
      exact ⟨.committing txn, rfl, rfl, .leave txn missed, by simp [Effect.isCommit]⟩
  | committing txn =>
      cases hprog
      obtain ⟨hfree, w', hwrite, rfl⟩ := perform_commit h
      obtain ⟨u, hu, rfl⟩ := World.of_writeAll_concat_outbox hwrite
      rw [List.filterMap_append, List.all_append, Bool.and_eq_true] at hfree
      exact ⟨.done, rfl, rfl, .commit txn u hfree.1 hu, by simp [Effect.isCommit]⟩
  | done => cases hprog
  | failed => cases hprog

/-- The points at which a seed request waits for its next call. -/
inductive SeedPhase
  | reading
  | writing (write : Write)
  | done

/-- What is left of the program. -/
def SeedPhase.prog (req : SeedRequest) : SeedPhase → Handler Unit
  | reading => seedInventory req
  | writing write => commit [write]
  | done => return ()

/-- The statement that a request sends after it has read `row`. -/
def seedWrite (req : SeedRequest) : Option InventoryItem → Write
  | none => .insertItem req.sku req.qty
  | some item => .setAvailable req.sku req.qty (item.available + req.qty)

/-- One call of a seed request. It locks no row before it commits. -/
inductive SeedStep (req : SeedRequest) (free : Sku → Bool) (c : Context) :
    SeedPhase → SeedPhase → Context → Prop
  | read : SeedStep req free c .reading (.writing (seedWrite req (c.world.items req.sku))) c
  | commit (write : Write) (w : World) (hfree : ([write].filterMap Write.sku).all free = true)
      (hwrite : c.world.write write = some w) :
      SeedStep req free c (.writing write) .done { c with world := w, session := {}, rows := [] }

/-- A seed request takes one of the steps of `SeedStep`. -/
theorem seed_perform {req : SeedRequest} {i : ℕ} {ω : Answers} {free : Sku → Bool}
    {phase : SeedPhase} {c c' : Context} {e : Effect} {k : e.Answer → Handler Unit}
    {r : e.Answer} (hprog : phase.prog req = .call e k) (hsession : c.session = {})
    (h : perform i ω free e c = some (r, c')) :
    ∃ phase', k r = phase'.prog req ∧ c'.session = {} ∧ SeedStep req free c phase phase' c' ∧
      (e.isCommit = true ↔ phase' = .done) := by
  obtain ⟨w, locks, session, rows⟩ := c
  obtain rfl : session = {} := hsession
  cases phase with
  | reading =>
      cases hprog
      cases h
      refine ⟨.writing (seedWrite req (w.items req.sku)), ?_, rfl, .read,
        by simp [Effect.isCommit]⟩
      simp only
      cases w.items req.sku <;> rfl
  | writing write =>
      cases hprog
      obtain ⟨hfree, w', hwrite, rfl⟩ := perform_commit h
      rw [List.nil_append] at hfree hwrite
      rw [World.writeAll_singleton] at hwrite
      exact ⟨.done, rfl, rfl, .commit write w' hfree hwrite, by simp [Effect.isCommit]⟩
  | done => cases hprog

end InventoryService

end FlashSale
