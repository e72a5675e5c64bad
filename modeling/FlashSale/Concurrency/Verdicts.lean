import FlashSale.Concurrency.RowLocks

/-!
# The verdict of a stock command

A reservation or release task commits exactly one event, its verdict. Before
that it changes neither the rows nor the outbox (`QuietStep`); the commit either
announces an answer that was found without the row, or decides on the locked row
as it is at that moment (`CommitStep`).
-/

namespace FlashSale

open InventoryService

/-- The order that a job is for. -/
def Job.orderId : Job → Option OrderId
  | seed _ => none
  | reserve cmd => some cmd.orderId
  | release cmd => some cmd.orderId
  | charge cmd => some cmd.orderId

/-- The row that a job is about. -/
def Job.sku : Job → Option Sku
  | seed req => some req.sku
  | reserve cmd => some cmd.sku
  | release cmd => some cmd.sku
  | charge _ => none

/-- The job is the delivery of a `ReserveInventory` or `ReleaseInventory`. -/
def Job.movesStock : Job → Bool
  | reserve _ => true
  | release _ => true
  | _ => false

/-- The job has no stored answer. -/
def World.Uncached (w : World) : Job → Prop
  | .reserve cmd => w.reservations cmd.orderId = none
  | .release cmd => w.releases cmd.orderId = none
  | _ => True

/-- The task has not looked for a stored answer. -/
def Handler.unchecked : Handler Unit → Bool
  | .call (.acquire _) _ => true
  | .call (.getCachedResult _) _ => true
  | _ => false

/-- The event that a task has decided to commit. -/
def Handler.decided : Handler Unit → Option Message
  | .call (.storeResult _ _) k => decided (k ())
  | .call (.release _) k => decided (k ())
  | .call (.commit [.outbox _ message]) _ => some message
  | _ => none

/-- The event of a reservation that did not get to the database. -/
def Job.TurnedAway (job : Job) (message : Message) : Prop :=
  ∃ cmd reason, job = .reserve cmd ∧
    message = .inventoryReservationFailed ⟨cmd.orderId, cmd.sku, cmd.qty, reason⟩ ∧
    (reason = "lock_timeout" ∨ reason = "rate_limited")

/-- A call of a stock command that is not its commit. -/
structure QuietStep (w : World) (task : Task) (p : Handler Unit) (c : Context) : Prop where
  items : c.world.items = w.items
  outbox : c.world.outbox = w.outbox
  uncached : ∀ job, job.orderId ≠ task.job.orderId → w.Uncached job → c.world.Uncached job
  unchecked : p.unchecked = true → task.prog.unchecked = true ∧ c.world = w
  decided : ∀ message, c.rows = [] → p.decided = some message →
    (task.rows = [] ∧ task.prog.decided = some message) ∨ task.job.TurnedAway message

/-- The commit of a stock command. -/
inductive CommitStep (w : World) (task : Task) (w' : World) : Prop
  /-- The answer was found without the row. -/
  | aside (message : Message) (hrows : task.rows = [])
      (hdecided : task.prog.decided = some message) (h : w' = w.emit .inventory message)
  /-- The row is short. -/
  | short (cmd : ReserveInventory) (item : InventoryItem) (hjob : task.job = .reserve cmd)
      (hrows : task.rows = [cmd.sku]) (hitem : w.items cmd.sku = some item)
      (hqty : item.available < cmd.qty)
      (h : w' = w.emit .inventory (.inventoryReservationFailed
        ⟨cmd.orderId, cmd.sku, cmd.qty, "insufficient_stock"⟩))
  /-- The stock is moved. -/
  | reserved (cmd : ReserveInventory) (item item' : InventoryItem)
      (hjob : task.job = .reserve cmd) (hrows : task.rows = [cmd.sku])
      (hitem : w.items cmd.sku = some item) (hqty : cmd.qty ≤ item.available)
      (havailable : item'.available = item.available - cmd.qty)
      (hreserved : item'.reserved = item.reserved + cmd.qty)
      (h : w' = (w.setItem cmd.orderId cmd.sku item' cmd.qty).emit .inventory
        (.inventoryReserved ⟨cmd.orderId, cmd.sku, cmd.qty⟩))
  /-- The stock is given back. -/
  | released (cmd : ReleaseInventory) (item item' : InventoryItem)
      (hjob : task.job = .release cmd) (hrows : task.rows = [cmd.sku])
      (hitem : w.items cmd.sku = some item)
      (havailable : item'.available = item.available + cmd.qty)
      (hreserved : item'.reserved = max 0 (item.reserved - cmd.qty))
      (h : w' = (w.setItem cmd.orderId cmd.sku item' (item'.reserved - item.reserved)).emit
        .inventory (.inventoryReleased ⟨cmd.orderId, cmd.sku, cmd.qty⟩))

/-- A call that changes no world. -/
theorem QuietStep.of_world {w : World} {task : Task} {p : Handler Unit} {c : Context}
    (hworld : c.world = w) (hunchecked : p.unchecked = true → task.prog.unchecked = true)
    (hdecided : ∀ message, c.rows = [] → p.decided = some message →
      (task.rows = [] ∧ task.prog.decided = some message) ∨ task.job.TurnedAway message) :
    QuietStep w task p c where
  items := by rw [hworld]
  outbox := by rw [hworld]
  uncached job _ h := hworld ▸ h
  unchecked h := ⟨hunchecked h, hworld⟩
  decided := hdecided

/-- What is stored for an order is stored for its own jobs. -/
theorem World.Uncached.storeReservation {w : World} {job : Job} {orderId : OrderId}
    {result : ReservationResult} (h : w.Uncached job) (hother : job.orderId ≠ some orderId) :
    (w.storeReservation orderId result).Uncached job := by
  cases job with
  | reserve cmd =>
      have hne : cmd.orderId ≠ orderId := fun heq => hother (congrArg some heq)
      exact (Function.update_of_ne hne _ _).trans h
  | release cmd => exact h
  | seed req => trivial
  | charge cmd => trivial

theorem World.Uncached.storeRelease {w : World} {job : Job} {orderId : OrderId}
    (h : w.Uncached job) (hother : job.orderId ≠ some orderId) :
    (w.storeRelease orderId).Uncached job := by
  cases job with
  | release cmd =>
      have hne : cmd.orderId ≠ orderId := fun heq => hother (congrArg some heq)
      exact (Function.update_of_ne hne _ _).trans h
  | reserve cmd => exact h
  | seed req => trivial
  | charge cmd => trivial

/-- A stored answer that expires is no longer stored. -/
theorem World.Uncached.forget {w : World} {job : Job} (h : w.Uncached job) (key : IdemKey) :
    (w.setCache key none).Uncached job := by
  cases job with
  | reserve cmd =>
      cases key with
      | reserve orderId =>
          by_cases heq : cmd.orderId = orderId
          · subst heq
            exact Function.update_self _ _ _
          · exact (Function.update_of_ne heq _ _).trans h
      | release orderId => exact h
      | charge orderId => exact h
      | refund paymentId => exact h
  | release cmd =>
      cases key with
      | release orderId =>
          by_cases heq : cmd.orderId = orderId
          · subst heq
            exact Function.update_self _ _ _
          · exact (Function.update_of_ne heq _ _).trans h
      | reserve orderId => exact h
      | charge orderId => exact h
      | refund paymentId => exact h
  | seed req => trivial
  | charge cmd => trivial

/-- A reservation without a stored answer is quiet until its commit. -/
theorem reserve_quiet {cmd : ReserveInventory} {i : ℕ} {free : Sku → Bool} {w : World}
    {locks : LockKey → Option ℕ} {task : Task} {c : Context} {phase phase' : ReservePhase}
    (hjob : task.job = .reserve cmd) (hprog : task.prog = phase.prog cmd)
    (huncached : task.prog.unchecked = true → w.Uncached task.job)
    (hrow : w.items cmd.sku ≠ none)
    (hstep : ReserveStep cmd i free ⟨w, locks, task.session, task.rows⟩ phase phase' c)
    (hdone : phase' ≠ .done) : QuietStep w task (phase'.prog cmd) c := by
  cases hstep with
  | acquire h =>
      refine .of_world rfl (fun _ => by rw [hprog]; rfl) ?_
      rintro message - ⟨⟩
  | timeout =>
      refine .of_world rfl (by rintro ⟨⟩) ?_
      rintro message - ⟨⟩
      exact Or.inr ⟨cmd, _, hjob, rfl, Or.inl rfl⟩
  | hit result h =>
      rw [hprog, hjob] at huncached
      rw [World.Uncached, h] at huncached
      cases huncached rfl
  | miss h =>
      refine .of_world rfl (by rintro ⟨⟩) ?_
      rintro message - ⟨⟩
  | limit =>
      refine .of_world rfl (by rintro ⟨⟩) ?_
      rintro message - ⟨⟩
      exact Or.inr ⟨cmd, _, hjob, rfl, Or.inr rfl⟩
  | allowed =>
      refine .of_world rfl (by rintro ⟨⟩) ?_
      rintro message - ⟨⟩
  | unknown hfree h => exact absurd h hrow
  | short item hfree h hqty =>
      refine .of_world rfl (by rintro ⟨⟩) ?_
      intro message hrows
      exact absurd hrows (List.ne_nil_of_mem List.mem_insert_self)
  | enough item hfree h hqty =>
      refine .of_world rfl (by rintro ⟨⟩) ?_
      rintro message - ⟨⟩
  | flush item hfree =>
      refine .of_world rfl (by rintro ⟨⟩) ?_
      intro message hrows
      have hmem : cmd.sku ∈ [cmd.sku] ∪ task.rows :=
        List.mem_union_iff.2 (Or.inl List.mem_cons_self)
      exact absurd hrows (List.ne_nil_of_mem hmem)
  | store outcome txn =>
      refine ⟨rfl, rfl, ?_, by rintro ⟨⟩, ?_⟩
      · intro job hother h
        rw [hjob] at hother
        exact h.storeReservation hother
      · intro message hrows hdecided
        exact Or.inl ⟨hrows, by rw [hprog]; exact hdecided⟩
  | leave result txn missed =>
      refine .of_world rfl (by rintro ⟨⟩) ?_
      intro message hrows hdecided
      exact Or.inl ⟨hrows, by rw [hprog]; exact hdecided⟩
  | commit => exact absurd rfl hdone

/-- A release without a stored answer is quiet until its commit. -/
theorem release_quiet {cmd : ReleaseInventory} {i : ℕ} {free : Sku → Bool} {w : World}
    {locks : LockKey → Option ℕ} {task : Task} {c : Context} {phase phase' : ReleasePhase}
    (hjob : task.job = .release cmd) (hprog : task.prog = phase.prog cmd)
    (huncached : task.prog.unchecked = true → w.Uncached task.job)
    (hrow : w.items cmd.sku ≠ none)
    (hstep : ReleaseStep cmd i free ⟨w, locks, task.session, task.rows⟩ phase phase' c)
    (hdone : phase' ≠ .done) : QuietStep w task (phase'.prog cmd) c := by
  cases hstep with
  | acquire h =>
      refine .of_world rfl (fun _ => by rw [hprog]; rfl) ?_
      rintro message - ⟨⟩
  | timeout =>
      refine .of_world rfl (by rintro ⟨⟩) ?_
      rintro message - ⟨⟩
  | hit h =>
      rw [hprog, hjob] at huncached
      rw [World.Uncached, h] at huncached
      cases huncached rfl
  | miss h =>
      refine .of_world rfl (by rintro ⟨⟩) ?_
      rintro message - ⟨⟩
  | missing hfree h => exact absurd h hrow
  | found item hfree h =>
      refine .of_world rfl (by rintro ⟨⟩) ?_
      rintro message - ⟨⟩
  | flush item hfree =>
      refine .of_world rfl (by rintro ⟨⟩) ?_
      intro message hrows
      have hmem : cmd.sku ∈ [cmd.sku] ∪ task.rows :=
        List.mem_union_iff.2 (Or.inl List.mem_cons_self)
      exact absurd hrows (List.ne_nil_of_mem hmem)
  | store txn =>
      refine ⟨rfl, rfl, ?_, by rintro ⟨⟩, ?_⟩
      · intro job hother h
        rw [hjob] at hother
        exact h.storeRelease hother
      · intro message hrows hdecided
        exact Or.inl ⟨hrows, by rw [hprog]; exact hdecided⟩
  | leave txn missed =>
      refine .of_world rfl (by rintro ⟨⟩) ?_
      intro message hrows hdecided
      exact Or.inl ⟨hrows, by rw [hprog]; exact hdecided⟩
  | commit => exact absurd rfl hdone

/-- A call of a stock command is quiet or its commit, which leaves nothing to do. -/
theorem TaskStep.quiet_or_commit {i : ℕ} {free : Sku → Bool} {w : World}
    {locks : LockKey → Option ℕ} {task : Task} {c : Context} {commits : Bool} {p : Handler Unit}
    (h : TaskStep i free w locks task c commits p) (hstock : task.job.movesStock = true)
    (huncached : task.prog.unchecked = true → w.Uncached task.job)
    (hrow : ∀ sku, task.job.sku = some sku → w.items sku ≠ none) :
    (commits = false ∧ QuietStep w task p c) ∨
      (commits = true ∧ p = .ret () ∧ CommitStep w task c.world) := by
  cases h with
  | seed req phase phase' _ hjob =>
      rw [hjob] at hstock
      cases hstock
  | charge cmd phase phase' _ hjob =>
      rw [hjob] at hstock
      cases hstock
  | reserve cmd phase phase' _ hjob hprog hbefore hfacts hsession hstep hcommits =>
      by_cases hdone : phase' = .done
      · subst hdone
        refine Or.inr ⟨hcommits.2 rfl, rfl, ?_⟩
        cases hstep with
        | commit result txn u hfree hwrite =>
            cases hfacts with
            | committing result txn rows hdecision =>
                generalize hrows : task.rows = rows at hdecision
                cases hdecision with
                | aside result =>
                    cases hwrite
                    refine .aside _ hrows ?_ rfl
                    rw [hprog]
                    rfl
                | short item hitem hqty =>
                    cases hwrite
                    exact .short cmd item hjob hrows hitem hqty rfl
                | enough item hitem hqty =>
                    obtain ⟨item', rfl, havailable, hreserved⟩ := writeAll_reserveWrite hitem hwrite
                    exact .reserved cmd item item' hjob hrows hitem hqty havailable hreserved rfl
      · refine Or.inl ⟨Bool.eq_false_iff.2 fun htrue => hdone (hcommits.1 htrue), ?_⟩
        exact reserve_quiet hjob hprog huncached (hrow cmd.sku (by rw [hjob]; rfl)) hstep hdone
  | release cmd phase phase' _ hjob hprog hbefore hfacts hsession hstep hcommits =>
      by_cases hdone : phase' = .done
      · subst hdone
        refine Or.inr ⟨hcommits.2 rfl, rfl, ?_⟩
        cases hstep with
        | commit txn u hfree hwrite =>
            cases hfacts with
            | committing txn rows hdecision =>
                generalize hrows : task.rows = rows at hdecision
                cases hdecision with
                | aside =>
                    cases hwrite
                    refine .aside _ hrows ?_ rfl
                    rw [hprog]
                    rfl
                | found item hitem =>
                    obtain ⟨item', rfl, havailable, hreserved⟩ := writeAll_releaseWrite hitem hwrite
                    exact .released cmd item item' hjob hrows hitem havailable hreserved rfl
      · refine Or.inl ⟨Bool.eq_false_iff.2 fun htrue => hdone (hcommits.1 htrue), ?_⟩
        exact release_quiet hjob hprog huncached (hrow cmd.sku (by rw [hjob]; rfl)) hstep hdone

/-- A commit without a locked row announces what was decided without it. -/
theorem CommitStep.of_rows_nil {w w' : World} {task : Task} (h : CommitStep w task w')
    (hrows : task.rows = []) :
    ∃ message, task.prog.decided = some message ∧ w' = w.emit .inventory message := by
  cases h with
  | aside message hnil hdecided h => exact ⟨message, hdecided, h⟩
  | short cmd item hjob hlocked => cases hrows.symm.trans hlocked
  | reserved cmd item item' hjob hlocked => cases hrows.symm.trans hlocked
  | released cmd item item' hjob hlocked => cases hrows.symm.trans hlocked

/-- A commit touches no stored answer. -/
theorem CommitStep.uncached {w w' : World} {task : Task} {job : Job} (h : CommitStep w task w')
    (hjob : w.Uncached job) : w'.Uncached job := by
  cases h with
  | aside message hrows hdecided h =>
      rw [h]
      cases job <;> exact hjob
  | short cmd item hcmd hrows hitem hqty h =>
      rw [h]
      cases job <;> exact hjob
  | reserved cmd item item' hcmd hrows hitem hqty havailable hreserved h =>
      rw [h]
      cases job <;> exact hjob
  | released cmd item item' hcmd hrows hitem havailable hreserved h =>
      rw [h]
      cases job <;> exact hjob

/-- A commit deletes no row. -/
theorem CommitStep.kept {w w' : World} {task : Task} {sku : Sku} (h : CommitStep w task w')
    (hrow : w.items sku ≠ none) : w'.items sku ≠ none := by
  have hupdate : ∀ (sku' : Sku) (item : InventoryItem),
      Function.update w.items sku' (some item) sku ≠ none := by
    intro sku' item
    by_cases hsku : sku = sku'
    · subst hsku
      rw [Function.update_self]
      exact Option.some_ne_none item
    · rw [Function.update_of_ne hsku]
      exact hrow
  cases h with
  | aside message hrows hdecided h => rwa [h]
  | short cmd item hcmd hrows hitem hqty h => rwa [h]
  | reserved cmd item item' hcmd hrows hitem hqty havailable hreserved h =>
      rw [h]
      exact hupdate cmd.sku item'
  | released cmd item item' hcmd hrows hitem havailable hreserved h =>
      rw [h]
      exact hupdate cmd.sku item'

theorem Job.TurnedAway.orderId {job : Job} {message : Message} (h : job.TurnedAway message) :
    job.orderId = some message.orderId := by
  obtain ⟨cmd, reason, rfl, rfl, -⟩ := h
  rfl

/-- A commit adds one event, of the task's order. -/
theorem CommitStep.emitted {w w' : World} {task : Task} (h : CommitStep w task w')
    (haside : ∀ message, task.rows = [] → task.prog.decided = some message →
      task.job.TurnedAway message) :
    ∃ message, w'.emitted = w.emitted ++ [message] ∧
      task.job.orderId = some message.orderId := by
  cases h with
  | aside message hrows hdecided h =>
      exact ⟨message, by rw [h, World.emitted_emit], (haside message hrows hdecided).orderId⟩
  | short cmd item hjob hrows hitem hqty h =>
      refine ⟨_, by rw [h, World.emitted_emit], ?_⟩
      rw [hjob]
      rfl
  | reserved cmd item item' hjob hrows hitem hqty havailable hreserved h =>
      refine ⟨_, by rw [h, World.emitted_emit, World.emitted_setItem], ?_⟩
      rw [hjob]
      rfl
  | released cmd item item' hjob hrows hitem havailable hreserved h =>
      refine ⟨_, by rw [h, World.emitted_emit, World.emitted_setItem], ?_⟩
      rw [hjob]
      rfl

end FlashSale
