import FlashSale.Concurrency.ChargePhases
import FlashSale.Concurrency.ReleasePhases
import FlashSale.Concurrency.ReservePhases

/-!
# What a row lock keeps true

While a reservation or a release task has its row locked, the row is the one
the task has read, and the statements of its unit of work were computed from
it. `RowInv` says so of every task; every step keeps it, because another task
changes a row only when it is free.
-/

namespace FlashSale

namespace InventoryService

/-- The answer of a reservation with what it has locked and flushed: it did not
get to the row, or the row is short, or the quantities are moved. -/
inductive ReserveDecision (cmd : ReserveInventory) (row : Option InventoryItem) :
    ReservationResult → List Write → List Sku → Prop
  | aside (result : ReservationResult) : ReserveDecision cmd row result [] []
  | short (item : InventoryItem) (hrow : row = some item) (hqty : item.available < cmd.qty) :
      ReserveDecision cmd row { success := false, reason := some "insufficient_stock" } []
        [cmd.sku]
  | enough (item : InventoryItem) (hrow : row = some item) (hqty : cmd.qty ≤ item.available) :
      ReserveDecision cmd row { success := true, reason := none } [reserveWrite cmd item]
        [cmd.sku]

/-- What a reservation task knows of its row at a phase, with the rows that it
has locked. -/
inductive ReserveFacts (cmd : ReserveInventory) (row : Option InventoryItem) :
    ReservePhase → List Sku → Prop
  | acquiring : ReserveFacts cmd row .acquiring []
  | checking : ReserveFacts cmd row .checking []
  | limiting : ReserveFacts cmd row .limiting []
  | selecting : ReserveFacts cmd row .selecting []
  | flushing (item : InventoryItem) (hrow : row = some item) (hqty : cmd.qty ≤ item.available) :
      ReserveFacts cmd row (.flushing item) [cmd.sku]
  | storing (result : ReservationResult) (txn : List Write) (rows : List Sku)
      (h : ReserveDecision cmd row result txn rows) :
      ReserveFacts cmd row (.storing result txn) rows
  | leaving (result : ReservationResult) (txn : List Write) (missed : Bool) (rows : List Sku)
      (h : ReserveDecision cmd row result txn rows) :
      ReserveFacts cmd row (.leaving result txn missed) rows
  | committing (result : ReservationResult) (txn : List Write) (rows : List Sku)
      (h : ReserveDecision cmd row result txn rows) :
      ReserveFacts cmd row (.committing result txn) rows
  | done : ReserveFacts cmd row .done []

theorem ReserveDecision.congr {cmd : ReserveInventory} {row row' : Option InventoryItem}
    {result : ReservationResult} {txn : List Write} {rows : List Sku}
    (h : ReserveDecision cmd row result txn rows) (hrow : cmd.sku ∈ rows → row' = row) :
    ReserveDecision cmd row' result txn rows := by
  cases h with
  | aside => exact .aside result
  | short item hsome hqty =>
      rw [hrow List.mem_cons_self]
      exact .short item hsome hqty
  | enough item hsome hqty =>
      rw [hrow List.mem_cons_self]
      exact .enough item hsome hqty

/-- The facts depend on the row only while it is locked. -/
theorem ReserveFacts.congr {cmd : ReserveInventory} {row row' : Option InventoryItem}
    {phase : ReservePhase} {rows : List Sku} (h : ReserveFacts cmd row phase rows)
    (hrow : cmd.sku ∈ rows → row' = row) : ReserveFacts cmd row' phase rows := by
  cases h with
  | acquiring => exact .acquiring
  | checking => exact .checking
  | limiting => exact .limiting
  | selecting => exact .selecting
  | flushing item hsome hqty =>
      rw [hrow List.mem_cons_self]
      exact .flushing item hsome hqty
  | storing result txn rows h => exact .storing result txn rows (h.congr hrow)
  | leaving result txn missed rows h => exact .leaving result txn missed rows (h.congr hrow)
  | committing result txn rows h => exact .committing result txn rows (h.congr hrow)
  | done => exact .done

/-- A task's own step keeps its facts. -/
theorem ReserveFacts.step {cmd : ReserveInventory} {i : ℕ} {free : Sku → Bool}
    {c c' : Context} {phase phase' : ReservePhase}
    (h : ReserveFacts cmd (c.world.items cmd.sku) phase c.rows)
    (hstep : ReserveStep cmd i free c phase phase' c') :
    ReserveFacts cmd (c'.world.items cmd.sku) phase' c'.rows := by
  obtain ⟨w, locks, session, rows⟩ := c
  cases hstep with
  | acquire => cases h; exact .checking
  | timeout => cases h; exact .committing _ _ _ (.aside _)
  | hit result => cases h; exact .leaving _ _ _ _ (.aside _)
  | miss => cases h; exact .limiting
  | limit => cases h; exact .leaving _ _ _ _ (.aside _)
  | allowed => cases h; exact .selecting
  | unknown => cases h; exact .storing _ _ _ (.aside _)
  | short item hfree hitem hqty => cases h; exact .storing _ _ _ (.short item hitem hqty)
  | enough item hfree hitem hqty => cases h; exact .flushing item hitem hqty
  | flush item hfree =>
      cases h with
      | flushing item hrow hqty =>
          rw [show [cmd.sku] ∪ [cmd.sku] = [cmd.sku] by simp]
          exact .storing _ _ _ (.enough item hrow hqty)
  | store outcome txn => cases h with | storing _ _ _ h => exact .leaving _ _ _ _ h
  | leave result txn missed => cases h with | leaving _ _ _ _ h => exact .committing _ _ _ h
  | commit => exact .done

/-- The unit of work of a release with what it has locked. -/
inductive ReleaseDecision (cmd : ReleaseInventory) (row : Option InventoryItem) :
    List Write → List Sku → Prop
  | aside : ReleaseDecision cmd row [] []
  | found (item : InventoryItem) (hrow : row = some item) :
      ReleaseDecision cmd row [releaseWrite cmd item] [cmd.sku]

/-- What a release task knows of its row at a phase, with the rows that it has
locked. -/
inductive ReleaseFacts (cmd : ReleaseInventory) (row : Option InventoryItem) :
    ReleasePhase → List Sku → Prop
  | acquiring : ReleaseFacts cmd row .acquiring []
  | checking : ReleaseFacts cmd row .checking []
  | selecting : ReleaseFacts cmd row .selecting []
  | flushing (item : InventoryItem) (hrow : row = some item) :
      ReleaseFacts cmd row (.flushing item) [cmd.sku]
  | storing (txn : List Write) (rows : List Sku) (h : ReleaseDecision cmd row txn rows) :
      ReleaseFacts cmd row (.storing txn) rows
  | leaving (txn : List Write) (missed : Bool) (rows : List Sku)
      (h : ReleaseDecision cmd row txn rows) : ReleaseFacts cmd row (.leaving txn missed) rows
  | committing (txn : List Write) (rows : List Sku) (h : ReleaseDecision cmd row txn rows) :
      ReleaseFacts cmd row (.committing txn) rows
  | done : ReleaseFacts cmd row .done []
  | failed : ReleaseFacts cmd row .failed []

theorem ReleaseDecision.congr {cmd : ReleaseInventory} {row row' : Option InventoryItem}
    {txn : List Write} {rows : List Sku} (h : ReleaseDecision cmd row txn rows)
    (hrow : cmd.sku ∈ rows → row' = row) : ReleaseDecision cmd row' txn rows := by
  cases h with
  | aside => exact .aside
  | found item hsome =>
      rw [hrow List.mem_cons_self]
      exact .found item hsome

theorem ReleaseFacts.congr {cmd : ReleaseInventory} {row row' : Option InventoryItem}
    {phase : ReleasePhase} {rows : List Sku} (h : ReleaseFacts cmd row phase rows)
    (hrow : cmd.sku ∈ rows → row' = row) : ReleaseFacts cmd row' phase rows := by
  cases h with
  | acquiring => exact .acquiring
  | checking => exact .checking
  | selecting => exact .selecting
  | flushing item hsome =>
      rw [hrow List.mem_cons_self]
      exact .flushing item hsome
  | storing txn rows h => exact .storing txn rows (h.congr hrow)
  | leaving txn missed rows h => exact .leaving txn missed rows (h.congr hrow)
  | committing txn rows h => exact .committing txn rows (h.congr hrow)
  | done => exact .done
  | failed => exact .failed

theorem ReleaseFacts.step {cmd : ReleaseInventory} {i : ℕ} {free : Sku → Bool}
    {c c' : Context} {phase phase' : ReleasePhase}
    (h : ReleaseFacts cmd (c.world.items cmd.sku) phase c.rows)
    (hstep : ReleaseStep cmd i free c phase phase' c') :
    ReleaseFacts cmd (c'.world.items cmd.sku) phase' c'.rows := by
  obtain ⟨w, locks, session, rows⟩ := c
  cases hstep with
  | acquire => cases h; exact .checking
  | timeout => cases h; exact .failed
  | hit => cases h; exact .leaving _ _ _ .aside
  | miss => cases h; exact .selecting
  | missing => cases h; exact .leaving _ _ _ .aside
  | found item hfree hitem => cases h; exact .flushing item hitem
  | flush item hfree =>
      cases h with
      | flushing item hrow =>
          rw [show [cmd.sku] ∪ [cmd.sku] = [cmd.sku] by simp]
          exact .storing _ _ (.found item hrow)
  | store txn => cases h with | storing _ _ h => exact .leaving _ _ _ h
  | leave txn missed => cases h with | leaving _ _ _ h => exact .committing _ _ h
  | commit => exact .done

/-- What a seed request has pending was computed from a row that it has read. -/
inductive SeedFacts (req : SeedRequest) : SeedPhase → Prop
  | reading : SeedFacts req .reading
  | writing (row : Option InventoryItem) : SeedFacts req (.writing (seedWrite req row))
  | done : SeedFacts req .done

theorem SeedFacts.step {req : SeedRequest} {free : Sku → Bool} {c c' : Context}
    {phase phase' : SeedPhase} (hstep : SeedStep req free c phase phase' c') :
    SeedFacts req phase' := by
  cases hstep with
  | read => exact .writing _
  | commit => exact .done

/-! ## What the pending statements do to the row they were computed from -/

theorem writeAll_reserveWrite {w u : World} {cmd : ReserveInventory} {item : InventoryItem}
    (hitem : w.items cmd.sku = some item) (h : w.writeAll [reserveWrite cmd item] = some u) :
    ∃ item', u = w.setItem cmd.orderId cmd.sku item' cmd.qty ∧
      item'.available = item.available - cmd.qty ∧ item'.reserved = item.reserved + cmd.qty := by
  rw [reserveWrite] at h
  cases hcheck : InventoryItem.check (item.available - cmd.qty) (item.reserved + cmd.qty) with
  | none =>
      rw [w.writeAll_updateItem_none cmd.orderId cmd.sku hcheck] at h
      cases h
  | some item' =>
      obtain ⟨havailable, hreserved⟩ := InventoryItem.check_eq_some.1 hcheck
      have hgain : item.reserved + cmd.qty - item.reserved = cmd.qty := by omega
      rw [w.writeAll_updateItem cmd.orderId hitem hcheck, hgain] at h
      exact ⟨item', (Option.some.inj h).symm, havailable, hreserved⟩

theorem writeAll_releaseWrite {w u : World} {cmd : ReleaseInventory} {item : InventoryItem}
    (hitem : w.items cmd.sku = some item) (h : w.writeAll [releaseWrite cmd item] = some u) :
    ∃ item', u = w.setItem cmd.orderId cmd.sku item' (item'.reserved - item.reserved) ∧
      item'.available = item.available + cmd.qty ∧
      item'.reserved = max 0 (item.reserved - cmd.qty) := by
  rw [releaseWrite] at h
  cases hcheck : InventoryItem.check (item.available + cmd.qty)
      (max 0 (item.reserved - cmd.qty)) with
  | none =>
      rw [w.writeAll_updateItem_none cmd.orderId cmd.sku hcheck] at h
      cases h
  | some item' =>
      obtain ⟨havailable, hreserved⟩ := InventoryItem.check_eq_some.1 hcheck
      rw [w.writeAll_updateItem cmd.orderId hitem hcheck, ← hreserved] at h
      exact ⟨item', (Option.some.inj h).symm, havailable, hreserved⟩

/-- A seed request adds to the quantity that it has read, whatever it is now. -/
theorem write_seedWrite {w u : World} {req : SeedRequest} {row : Option InventoryItem}
    (h : w.write (seedWrite req row) = some u) :
    ∃ item, u.items = Function.update w.items req.sku (some item) ∧
      u.seeded = Function.update w.seeded req.sku (w.seeded req.sku + req.qty) ∧
      u.moves = w.moves ∧ item.reserved = w.reservedQty req.sku ∧
      (∀ old, row = some old → item.available = old.available + req.qty) ∧
      (row = none → w.availableQty req.sku = 0 ∧ item.available = req.qty) := by
  cases row with
  | none =>
      cases hitem : w.items req.sku with
      | some item => simp [seedWrite, World.write, hitem] at h
      | none =>
          simp only [seedWrite, World.write, hitem, Option.map_eq_some_iff] at h
          obtain ⟨item, hcheck, rfl⟩ := h
          obtain ⟨havailable, hreserved⟩ := InventoryItem.check_eq_some.1 hcheck
          refine ⟨item, rfl, rfl, rfl, ?_, by simp, fun _ => ⟨?_, havailable⟩⟩
          · simp [World.reservedQty, hitem, hreserved]
          · simp [World.availableQty, hitem]
  | some old =>
      cases hitem : w.items req.sku with
      | none => simp [seedWrite, World.write, hitem] at h
      | some now =>
          simp only [seedWrite, World.write, hitem, Option.map_eq_some_iff] at h
          obtain ⟨item, hcheck, rfl⟩ := h
          obtain ⟨havailable, hreserved⟩ := InventoryItem.check_eq_some.1 hcheck
          refine ⟨item, rfl, rfl, rfl, ?_, ?_, by simp⟩
          · simp [World.reservedQty, hitem, hreserved]
          · intro old' hold
            cases hold
            exact havailable

end InventoryService

open InventoryService PaymentService

/-- A task is at a phase of its job and knows the facts of that phase. -/
inductive TaskFacts (w : World) (task : Task) : Prop
  | seed (req : SeedRequest) (phase : SeedPhase) (hjob : task.job = .seed req)
      (hprog : task.prog = phase.prog req) (hsession : task.session = {})
      (hfacts : SeedFacts req phase) (hrows : task.rows = [])
  | reserve (cmd : ReserveInventory) (phase : ReservePhase) (hjob : task.job = .reserve cmd)
      (hprog : task.prog = phase.prog cmd) (hsession : task.session = phase.session)
      (hfacts : ReserveFacts cmd (w.items cmd.sku) phase task.rows)
  | release (cmd : ReleaseInventory) (phase : ReleasePhase) (hjob : task.job = .release cmd)
      (hprog : task.prog = phase.prog cmd) (hsession : task.session = phase.session)
      (hfacts : ReleaseFacts cmd (w.items cmd.sku) phase task.rows)
  | charge (cmd : ChargePayment) (phase : ChargePhase) (hjob : task.job = .charge cmd)
      (hprog : task.prog = phase.prog cmd) (hsession : task.session = phase.session cmd)
      (hrows : task.rows = [])

theorem taskFacts_new (w : World) (job : Job) : TaskFacts w (.new job) := by
  cases job with
  | seed req => exact .seed req .reading rfl rfl rfl .reading rfl
  | reserve cmd => exact .reserve cmd .acquiring rfl rfl rfl .acquiring
  | release cmd => exact .release cmd .acquiring rfl rfl rfl .acquiring
  | charge cmd => exact .charge cmd .acquiring rfl rfl rfl rfl

/-- A task keeps its facts while the rows it has locked stay. -/
theorem TaskFacts.congr {w w' : World} {task : Task} (h : TaskFacts w task)
    (hitems : ∀ sku ∈ task.rows, w'.items sku = w.items sku) : TaskFacts w' task := by
  cases h with
  | seed req phase hjob hprog hsession hfacts hrows =>
      exact .seed req phase hjob hprog hsession hfacts hrows
  | reserve cmd phase hjob hprog hsession hfacts =>
      exact .reserve cmd phase hjob hprog hsession (hfacts.congr (hitems _))
  | release cmd phase hjob hprog hsession hfacts =>
      exact .release cmd phase hjob hprog hsession (hfacts.congr (hitems _))
  | charge cmd phase hjob hprog hsession hrows =>
      exact .charge cmd phase hjob hprog hsession hrows

/-- A task that has flushed its move has the row locked. -/
theorem TaskFacts.locked {w : World} {task : Task} {cmd : ReserveInventory}
    (h : TaskFacts w task) (hjob : task.job = .reserve cmd) (htxn : task.session.txn ≠ []) :
    cmd.sku ∈ task.rows := by
  cases h with
  | seed req phase hjob' => cases hjob.symm.trans hjob'
  | release cmd phase hjob' => cases hjob.symm.trans hjob'
  | charge cmd phase hjob' => cases hjob.symm.trans hjob'
  | reserve cmd' phase hjob' hprog hsession hfacts =>
      cases hjob.symm.trans hjob'
      rw [hsession] at htxn
      have hdecision : ∀ {result : ReservationResult} {txn : List Write} {rows : List Sku},
          ReserveDecision cmd (w.items cmd.sku) result txn rows → txn ≠ [] → cmd.sku ∈ rows := by
        intro result txn rows hdecision hne
        cases hdecision with
        | aside => exact absurd rfl hne
        | short => exact absurd rfl hne
        | enough => exact List.mem_cons_self
      generalize task.rows = rows at hfacts
      cases hfacts with
      | storing result txn rows h => exact hdecision h htxn
      | leaving result txn missed rows h => exact hdecision h htxn
      | committing result txn rows h => exact hdecision h htxn
      | _ => exact absurd rfl htxn

/-- One call of a task, by its job; `commits` says that the task is through. -/
inductive TaskStep (i : ℕ) (free : Sku → Bool) (w : World) (locks : LockKey → Option ℕ)
    (task : Task) (c : Context) : Bool → Handler Unit → Prop
  | seed (req : SeedRequest) (phase phase' : SeedPhase) (commits : Bool)
      (hjob : task.job = .seed req) (hprog : task.prog = phase.prog req)
      (hfacts : SeedFacts req phase) (hsession : c.session = {})
      (hstep : SeedStep req free ⟨w, locks, task.session, task.rows⟩ phase phase' c)
      (hcommits : commits = true ↔ phase' = .done) :
      TaskStep i free w locks task c commits (phase'.prog req)
  | reserve (cmd : ReserveInventory) (phase phase' : ReservePhase) (commits : Bool)
      (hjob : task.job = .reserve cmd) (hprog : task.prog = phase.prog cmd)
      (hbefore : task.session = phase.session)
      (hfacts : ReserveFacts cmd (w.items cmd.sku) phase task.rows)
      (hsession : c.session = phase'.session)
      (hstep : ReserveStep cmd i free ⟨w, locks, task.session, task.rows⟩ phase phase' c)
      (hcommits : commits = true ↔ phase' = .done) :
      TaskStep i free w locks task c commits (phase'.prog cmd)
  | release (cmd : ReleaseInventory) (phase phase' : ReleasePhase) (commits : Bool)
      (hjob : task.job = .release cmd) (hprog : task.prog = phase.prog cmd)
      (hbefore : task.session = phase.session)
      (hfacts : ReleaseFacts cmd (w.items cmd.sku) phase task.rows)
      (hsession : c.session = phase'.session)
      (hstep : ReleaseStep cmd i free ⟨w, locks, task.session, task.rows⟩ phase phase' c)
      (hcommits : commits = true ↔ phase' = .done) :
      TaskStep i free w locks task c commits (phase'.prog cmd)
  | charge (cmd : ChargePayment) (phase phase' : ChargePhase) (commits : Bool)
      (hjob : task.job = .charge cmd) (hprog : task.prog = phase.prog cmd)
      (hbefore : task.session = phase.session cmd) (hrows : task.rows = [])
      (hsession : c.session = phase'.session cmd)
      (hstep : ChargeStep cmd i ⟨w, locks, task.session, task.rows⟩ phase phase' c) :
      TaskStep i free w locks task c commits (phase'.prog cmd)

/-- A task with its facts takes one of the steps of its job. -/
theorem TaskFacts.perform {s : Pool} {i : ℕ} {ω : Answers} {task : Task} {e : Effect}
    {k : e.Answer → Handler Unit} {r : e.Answer} {c : Context} (h : TaskFacts s.world task)
    (hprog : task.prog = .call e k)
    (hperform : FlashSale.perform i ω (s.free i) e (s.context task) = some (r, c)) :
    TaskStep i (s.free i) s.world s.locks task c e.isCommit (k r) := by
  cases h with
  | seed req phase hjob hphase hsession hfacts hrows =>
      obtain ⟨phase', hk, hsession', hstep, hcommit⟩ :=
        seed_perform (hphase.symm.trans hprog) hsession hperform
      rw [hk]
      exact .seed req phase phase' _ hjob hphase hfacts hsession' hstep hcommit
  | reserve cmd phase hjob hphase hsession hfacts =>
      obtain ⟨phase', hk, hsession', hstep, hcommit⟩ :=
        reserve_perform (hphase.symm.trans hprog) hsession hperform
      rw [hk]
      exact .reserve cmd phase phase' _ hjob hphase hsession hfacts hsession' hstep hcommit
  | release cmd phase hjob hphase hsession hfacts =>
      obtain ⟨phase', hk, hsession', hstep, hcommit⟩ :=
        release_perform (hphase.symm.trans hprog) hsession hperform
      rw [hk]
      exact .release cmd phase phase' _ hjob hphase hsession hfacts hsession' hstep hcommit
  | charge cmd phase hjob hphase hsession hrows =>
      obtain ⟨phase', hk, hsession', hstep⟩ :=
        charge_perform (hphase.symm.trans hprog) hsession hperform
      rw [hk]
      exact .charge cmd phase phase' _ hjob hphase hsession hrows hsession' hstep

/-- The facts of a task after its own step. -/
theorem TaskStep.facts {i : ℕ} {free : Sku → Bool} {w : World} {locks : LockKey → Option ℕ}
    {task : Task} {c : Context} {b : Bool} {p : Handler Unit}
    (h : TaskStep i free w locks task c b p)
    (hseed : ∀ req, task.job = .seed req → task.rows = []) :
    TaskFacts c.world { task with prog := p, session := c.session, rows := c.rows } := by
  cases h with
  | seed req phase phase' _ hjob hprog hfacts hsession hstep hcommits =>
      refine .seed req phase' hjob rfl hsession (SeedFacts.step hstep) ?_
      cases hstep with
      | read => exact hseed req hjob
      | commit => rfl
  | reserve cmd phase phase' _ hjob hprog hbefore hfacts hsession hstep hcommits =>
      exact .reserve cmd phase' hjob rfl hsession (hfacts.step hstep)
  | release cmd phase phase' _ hjob hprog hbefore hfacts hsession hstep hcommits =>
      exact .release cmd phase' hjob rfl hsession (hfacts.step hstep)
  | charge cmd phase phase' _ hjob hprog hbefore hrows hsession hstep =>
      refine .charge cmd phase' hjob rfl hsession ?_
      cases hstep <;> first | exact hrows | rfl

/-- What a call of a task does to the stock: nothing, or it commits the move of a
reservation, of a release or of a seed request. -/
inductive StockStep (w : World) (task : Task) (p : Handler Unit) (w' : World) : Prop
  | quiet (hitems : w'.items = w.items) (hseeded : w'.seeded = w.seeded)
      (hmoves : w'.moves = w.moves)
  | reserved (cmd : ReserveInventory) (item item' : InventoryItem)
      (hjob : task.job = .reserve cmd) (hitem : w.items cmd.sku = some item)
      (hqty : cmd.qty ≤ item.available)
      (hitems : w'.items = Function.update w.items cmd.sku (some item'))
      (havailable : item'.available = item.available - cmd.qty)
      (hreserved : item'.reserved = item.reserved + cmd.qty) (hseeded : w'.seeded = w.seeded)
      (hmoves : w'.moves = w.moves ++ [⟨cmd.orderId, cmd.sku, cmd.qty⟩])
  | released (cmd : ReleaseInventory) (item item' : InventoryItem)
      (hjob : task.job = .release cmd) (hwaiting : task.prog.waiting = true)
      (hitem : w.items cmd.sku = some item)
      (hitems : w'.items = Function.update w.items cmd.sku (some item'))
      (havailable : item'.available = item.available + cmd.qty)
      (hreserved : item'.reserved = max 0 (item.reserved - cmd.qty))
      (hseeded : w'.seeded = w.seeded)
      (hmoves : w'.moves =
        w.moves ++ [⟨cmd.orderId, cmd.sku, item'.reserved - item.reserved⟩])
      (hdone : p = .ret ())
  | seeded (req : SeedRequest) (row : Option InventoryItem) (item : InventoryItem)
      (hjob : task.job = .seed req)
      (hprog : task.prog = .call (.commit [seedWrite req row]) Prog.ret)
      (hitems : w'.items = Function.update w.items req.sku (some item))
      (hseeded : w'.seeded = Function.update w.seeded req.sku (w.seeded req.sku + req.qty))
      (hmoves : w'.moves = w.moves) (hreserved : item.reserved = w.reservedQty req.sku)
      (hsome : ∀ old, row = some old → item.available = old.available + req.qty)
      (hnone : row = none → w.availableQty req.sku = 0 ∧ item.available = req.qty)

theorem StockStep.mem_moves {w w' : World} {task : Task} {p : Handler Unit}
    (h : StockStep w task p w') {move : StockMove} (hmove : move ∈ w.moves) :
    move ∈ w'.moves := by
  cases h with
  | quiet hitems hseeded hmoves => rwa [hmoves]
  | reserved cmd item item' hjob hitem hqty hitems havailable hreserved hseeded hmoves =>
      rw [hmoves]
      exact List.mem_append_left _ hmove
  | released cmd item item' hjob hwaiting hitem hitems havailable hreserved hseeded hmoves =>
      rw [hmoves]
      exact List.mem_append_left _ hmove
  | seeded req row item hjob hprog hitems hseeded hmoves => rwa [hmoves]

theorem TaskStep.stock {i : ℕ} {free : Sku → Bool} {w : World} {locks : LockKey → Option ℕ}
    {task : Task} {c : Context} {b : Bool} {p : Handler Unit}
    (hwaiting : task.prog.waiting = true) (h : TaskStep i free w locks task c b p) :
    StockStep w task p c.world := by
  cases h with
  | seed req phase phase' _ hjob hprog hfacts hsession hstep hcommits =>
      cases hstep with
      | read => exact .quiet rfl rfl rfl
      | commit write u hfree hwrite =>
          cases hfacts with
          | writing row =>
              obtain ⟨item, hitems, hseeded, hmoves, hreserved, hsome, hnone⟩ :=
                write_seedWrite hwrite
              exact .seeded req row item hjob hprog hitems hseeded hmoves hreserved hsome hnone
  | reserve cmd phase phase' _ hjob hprog hbefore hfacts hsession hstep hcommits =>
      cases hstep with
      | commit result txn u hfree hwrite =>
          cases hfacts with
          | committing result txn rows hdecision =>
              generalize task.rows = rows at hdecision
              cases hdecision with
              | aside result =>
                  cases hwrite
                  exact .quiet rfl rfl rfl
              | short item hrow hqty =>
                  cases hwrite
                  exact .quiet rfl rfl rfl
              | enough item hrow hqty =>
                  obtain ⟨item', rfl, havailable, hreserved⟩ := writeAll_reserveWrite hrow hwrite
                  exact .reserved cmd item item' hjob hrow hqty rfl havailable hreserved rfl rfl
      | _ => exact .quiet rfl rfl rfl
  | release cmd phase phase' _ hjob hprog hbefore hfacts hsession hstep hcommits =>
      cases hstep with
      | commit txn u hfree hwrite =>
          cases hfacts with
          | committing txn rows hdecision =>
              generalize task.rows = rows at hdecision
              cases hdecision with
              | aside =>
                  cases hwrite
                  exact .quiet rfl rfl rfl
              | found item hrow =>
                  obtain ⟨item', rfl, havailable, hreserved⟩ := writeAll_releaseWrite hrow hwrite
                  exact .released cmd item item' hjob hwaiting hrow rfl havailable hreserved rfl
                    rfl rfl
      | _ => exact .quiet rfl rfl rfl
  | charge cmd phase phase' _ hjob hprog hbefore hrows hsession hstep =>
      cases hstep with
      | commit result id u hwrite =>
          simp only [World.write, Option.ite_none_left_eq_some, Option.some.injEq] at hwrite
          rw [← hwrite.2]
          exact .quiet rfl rfl rfl
      | _ => exact .quiet rfl rfl rfl

/-- Only a seed request sends the UPDATE of `available_qty` alone. -/
theorem TaskFacts.seed_of_setAvailable {w : World} {task : Task} {sku : Sku} {qty available : ℤ}
    {k : Unit → Handler Unit} (h : TaskFacts w task)
    (hprog : task.prog = .call (.commit [.setAvailable sku qty available]) k) :
    ∃ req, task.job = .seed req := by
  cases h with
  | seed req phase hjob => exact ⟨req, hjob⟩
  | reserve cmd phase hjob hphase =>
      rw [hphase] at hprog
      cases phase <;> cases hprog
  | release cmd phase hjob hphase =>
      rw [hphase] at hprog
      cases phase <;> cases hprog
  | charge cmd phase hjob hphase =>
      rw [hphase] at hprog
      cases phase <;> cases hprog

/-- The UPDATE of a seed request writes the quantity it was sent with. -/
theorem TaskStep.of_setAvailable {i : ℕ} {free : Sku → Bool} {w : World}
    {locks : LockKey → Option ℕ} {task : Task} {c : Context} {b : Bool} {p : Handler Unit}
    {sku : Sku} {qty available : ℤ} {k : Unit → Handler Unit}
    (h : TaskStep i free w locks task c b p) (hfacts : TaskFacts w task)
    (hprog : task.prog = .call (.commit [.setAvailable sku qty available]) k) :
    ∃ item, c.world.items = Function.update w.items sku (some item) ∧
      item.available = available ∧ item.reserved = w.reservedQty sku ∧
      c.world.seeded = Function.update w.seeded sku (w.seeded sku + qty) := by
  obtain ⟨req, hseed⟩ := hfacts.seed_of_setAvailable hprog
  cases h with
  | seed req phase phase' _ hjob hphase hpending hsession hstep hcommits =>
      rw [hphase] at hprog
      cases hpending with
      | reading => cases hprog
      | done => cases hprog
      | writing row =>
          cases hstep with
          | commit write u hfree hwrite =>
              obtain ⟨item, hitems, hseeded, -, hreserved, hsome, -⟩ := write_seedWrite hwrite
              cases row with
              | none => cases hprog
              | some old =>
                  cases hprog
                  exact ⟨item, hitems, hsome old rfl, hreserved, hseeded⟩
  | reserve cmd phase phase' _ hjob => rw [hseed] at hjob; cases hjob
  | release cmd phase phase' _ hjob => rw [hseed] at hjob; cases hjob
  | charge cmd phase phase' _ hjob => rw [hseed] at hjob; cases hjob

namespace Pool

/-- Row locks are exclusive, and every task knows its row. -/
structure RowInv (s : Pool) : Prop where
  exclusive : s.Exclusive
  facts : ∀ (i : ℕ) (task : Task), s.tasks[i]? = some task → TaskFacts s.world task

theorem rowInv_start (w : World) (locks : LockKey → Option ℕ) : (start w locks).RowInv where
  exclusive := exclusive_start w locks
  facts i task hi := by cases hi

/-- What a step of a task is, by its job. -/
theorem RowInv.step_exec {s s' : Pool} {i : ℕ} {ω : Answers} (h : s.RowInv)
    (hstep : s.step (.exec i ω) = some s') :
    ∃ task b p c, s.tasks[i]? = some task ∧ task.prog.waiting = true ∧
      s' = s.resume i task b p c ∧ TaskStep i (s.free i) s.world s.locks task c b p ∧
      ∀ (j : ℕ) (t : Task) (sku : Sku), s.tasks[j]? = some t → j ≠ i → sku ∈ t.rows →
        c.world.items sku = s.world.items sku := by
  obtain ⟨task, e, k, r, c, hi, hprog, hperform, rfl⟩ := Pool.step_exec hstep
  have hwaiting : task.prog.waiting = true := by
    rw [hprog]
    rfl
  refine ⟨task, _, _, c, hi, hwaiting, rfl, (h.facts i task hi).perform hprog hperform, ?_⟩
  intro j t sku hj hne hsku
  exact items_of_locked hj hsku hne hperform

/-- Every step keeps the row invariant. -/
theorem RowInv.step {s s' : Pool} {a : Action} (h : s.RowInv) (hstep : s.step a = some s') :
    s'.RowInv := by
  refine ⟨h.exclusive.step hstep, ?_⟩
  cases a with
  | spawn job =>
      intro j t hj
      rcases getElem?_spawn hstep hj with hold | ⟨-, rfl⟩
      · cases hstep
        exact h.facts j t hold
      · exact taskFacts_new _ job
  | expire key =>
      cases hstep
      exact h.facts
  | forget key =>
      cases hstep
      intro j t hj
      exact (h.facts j t hj).congr fun sku _ => by cases key <;> rfl
  | exec i ω =>
      obtain ⟨task, b, p, c, hi, -, rfl, htask, hframe⟩ := h.step_exec hstep
      intro j t hj
      rcases getElem?_resume hi hj with ⟨rfl, rfl⟩ | ⟨hne, hold⟩
      · refine htask.facts fun req hjob => ?_
        cases h.facts j task hi with
        | seed req phase hjob' hprog hsession hfacts hrows => exact hrows
        | reserve cmd phase hjob' => rw [hjob] at hjob'; cases hjob'
        | release cmd phase hjob' => rw [hjob] at hjob'; cases hjob'
        | charge cmd phase hjob' => rw [hjob] at hjob'; cases hjob'
      · exact (h.facts j t hold).congr fun sku hsku => hframe j t sku hold hne hsku

end Pool

end FlashSale
