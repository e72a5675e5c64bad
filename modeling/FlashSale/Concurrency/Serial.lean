import FlashSale.Concurrency.Workload
import Mathlib.Algebra.BigOperators.Group.List.Basic
import Mathlib.Algebra.Order.Ring.Int

/-!
# Reservations are serializable

Reservations and releases of distinct orders run concurrently. Whatever the
limiter, the distributed locks and their expiry do, the stock and the verdicts
are those of the tasks that reached the database, one at a time in the order of
their commits: the row lock alone orders them.

The events since the start account for the stock, so no more is granted than
there is.
-/

namespace FlashSale

open InventoryService

/-- Neither the lock nor the limiter is in the way. -/
def unhindered : Answers where
  acquired := true
  allowed := true
  gateway := ⟨true, "", none⟩
  newId := ""

namespace World

/-- The world after a job on its own. -/
def serve (w : World) (job : Job) : World :=
  (job.program.run (exec unhindered) (w, {})).2.1

/-- The world after jobs on their own, one at a time. -/
def serveAll (w : World) (jobs : List Job) : World := jobs.foldl serve w

/-- The events that the order of a job has got since `w`. -/
def verdict (w u : World) (job : Job) : List Message :=
  (w.since u).filter fun message => job.orderId = some message.orderId

theorem verdict_of_since {w u v : World} {message : Message} (job : Job)
    (h : w.since v = w.since u ++ [message]) :
    w.verdict v job =
      w.verdict u job ++ if job.orderId = some message.orderId then [message] else [] := by
  rw [verdict, h, List.filter_append, verdict, List.filter_singleton]
  simp

theorem verdict_eq_nil {w u : World} {job : Job}
    (h : ∀ message ∈ w.since u, job.orderId ≠ some message.orderId) : w.verdict u job = [] := by
  refine List.filter_eq_nil_iff.2 fun message hmessage => ?_
  simpa using h message hmessage

theorem serveAll_concat (w : World) (jobs : List Job) (job : Job) :
    w.serveAll (jobs ++ [job]) = (w.serveAll jobs).serve job := by
  rw [serveAll, List.foldl_append]
  rfl

theorem serve_of_completes {w u : World} {job : Job}
    (h : w.Completes job.program unhindered u) : w.serve job = u := by
  obtain ⟨session, h⟩ := h
  rw [serve, h]

end World

/-! ## One job on its own -/

theorem serve_reserve {u : World} {cmd : ReserveInventory} {item : InventoryItem}
    (hnone : u.reservations cmd.orderId = none) (hitem : u.items cmd.sku = some item)
    (hreserved : 0 ≤ item.reserved + cmd.qty) :
    (item.available < cmd.qty ∧
      u.serve (.reserve cmd) =
        (u.storeReservation cmd.orderId ⟨false, some "insufficient_stock"⟩).emit .inventory
          (.inventoryReservationFailed
            ⟨cmd.orderId, cmd.sku, cmd.qty, "insufficient_stock"⟩)) ∨
    (cmd.qty ≤ item.available ∧ ∃ item',
      item'.available = item.available - cmd.qty ∧ item'.reserved = item.reserved + cmd.qty ∧
      u.serve (.reserve cmd) =
        ((u.storeReservation cmd.orderId ⟨true, none⟩).setItem cmd.orderId cmd.sku item'
          cmd.qty).emit .inventory (.inventoryReserved ⟨cmd.orderId, cmd.sku, cmd.qty⟩)) := by
  rcases run_handleReserve unhindered u cmd with ⟨v, hv, hout⟩ | ⟨-, -, row, hrow, hneg⟩
  · have hserve : u.serve (.reserve cmd) = v := World.serve_of_completes hv
    rw [hserve]
    cases hout with
    | turnedAway reason hreason hturned => simp [unhindered] at hturned
    | repeated result hacquired hsome => simp [hnone] at hsome
    | refused reason hreason hacquired hallowed hcache hstock =>
        rw [hitem, Option.elim_some] at hreason
        exact Or.inl ⟨hstock item hitem, by rw [hreason]⟩
    | moved row item' hacquired hallowed hcache hrow hqty havailable hreserved =>
        rw [hitem, Option.some.injEq] at hrow
        subst hrow
        exact Or.inr ⟨hqty, item', havailable, hreserved, rfl⟩
  · rw [hitem, Option.some.injEq] at hrow
    subst hrow
    omega

theorem serve_release {u : World} {cmd : ReleaseInventory} {item item' : InventoryItem}
    (hnone : u.releases cmd.orderId = none) (hitem : u.items cmd.sku = some item)
    (havailable : item'.available = item.available + cmd.qty)
    (hreserved : item'.reserved = max 0 (item.reserved - cmd.qty)) :
    u.serve (.release cmd) =
      ((u.storeRelease cmd.orderId).setItem cmd.orderId cmd.sku item'
        (item'.reserved - item.reserved)).emit .inventory
          (.inventoryReleased ⟨cmd.orderId, cmd.sku, cmd.qty⟩) := by
  have hcheck : InventoryItem.check (item.available + cmd.qty)
      (max 0 (item.reserved - cmd.qty)) = some item' :=
    InventoryItem.check_eq_some.2 ⟨havailable, hreserved⟩
  refine World.serve_of_completes ⟨{}, ?_⟩
  rw [Job.program, handleRelease_eq, run_acquire]
  simp only [unhindered, if_true, run_getCachedRelease, hnone, run_selectItemForUpdate, hitem]
  exact run_giveBack unhindered cmd hitem hcheck

/-- A job whose commit is due gets on its own, from the same rows, the same event
and the same rows. -/
theorem CommitStep.serve {w u w' : World} {task : Task} (h : CommitStep w task w')
    (hrows : task.rows ≠ []) (hitems : u.items = w.items) (huncached : u.Uncached task.job) :
    ∃ message, w'.emitted = w.emitted ++ [message] ∧
      task.job.orderId = some message.orderId ∧
      (u.serve task.job).emitted = u.emitted ++ [message] ∧
      (u.serve task.job).items = w'.items ∧
      ∀ job, job.orderId ≠ task.job.orderId → u.Uncached job →
        (u.serve task.job).Uncached job := by
  cases h with
  | aside message hnil => exact absurd hnil hrows
  | short cmd item hjob hlocked hitem hqty h =>
      rw [hjob] at huncached ⊢
      rw [← hitems] at hitem
      have hnonneg : 0 ≤ item.reserved + cmd.qty := by
        have hreserved := item.reserved_nonneg
        have havailable := item.available_nonneg
        omega
      rcases serve_reserve huncached hitem hnonneg with ⟨-, hserve⟩ | ⟨hle, -⟩
      · refine ⟨.inventoryReservationFailed
          ⟨cmd.orderId, cmd.sku, cmd.qty, "insufficient_stock"⟩, ?_, rfl, ?_, ?_, ?_⟩
        · rw [h, World.emitted_emit]
        · rw [hserve, World.emitted_emit]
          rfl
        · rw [hserve, h]
          exact hitems
        · intro job hother hjob
          rw [hserve]
          exact hjob.storeReservation hother
      · omega
  | reserved cmd item item' hjob hlocked hitem hqty havailable hreserved h =>
      rw [hjob] at huncached ⊢
      rw [← hitems] at hitem
      rcases serve_reserve huncached hitem (hreserved ▸ item'.reserved_nonneg) with
        ⟨hlt, -⟩ | ⟨-, item'', havailable', hreserved', hserve⟩
      · omega
      · obtain rfl : item'' = item' :=
          InventoryItem.ext (havailable'.trans havailable.symm) (hreserved'.trans hreserved.symm)
        refine ⟨.inventoryReserved ⟨cmd.orderId, cmd.sku, cmd.qty⟩, ?_, rfl, ?_, ?_, ?_⟩
        · rw [h, World.emitted_emit]
          rfl
        · rw [hserve, World.emitted_emit]
          rfl
        · rw [hserve, h, World.emit_items, World.emit_items, World.setItem_items,
            World.setItem_items, ← hitems]
          rfl
        · intro job hother hjob
          rw [hserve]
          exact hjob.storeReservation hother
  | released cmd item item' hjob hlocked hitem havailable hreserved h =>
      rw [hjob] at huncached ⊢
      rw [← hitems] at hitem
      have hserve := serve_release huncached hitem havailable hreserved
      refine ⟨.inventoryReleased ⟨cmd.orderId, cmd.sku, cmd.qty⟩, ?_, rfl, ?_, ?_, ?_⟩
      · rw [h, World.emitted_emit]
        rfl
      · rw [hserve, World.emitted_emit]
        rfl
      · rw [hserve, h, World.emit_items, World.emit_items, World.setItem_items,
          World.setItem_items, ← hitems]
        rfl
      · intro job hother hjob
        rw [hserve]
        exact hjob.storeRelease hother

/-- The rows and the verdicts are those of the served jobs one at a time. -/
structure SerialInv (w u : World) (jobs : List Job) : Prop where
  distinct : jobs.Pairwise fun a b => a.orderId ≠ b.orderId
  items : u.items = (w.serveAll jobs).items
  uncached : ∀ job, w.Uncached job → (∀ job' ∈ jobs, job'.orderId ≠ job.orderId) →
    (w.serveAll jobs).Uncached job
  emitted : w.emitted <+: (w.serveAll jobs).emitted
  orders : ∀ message ∈ w.since (w.serveAll jobs), ∃ job ∈ jobs,
    job.orderId = some message.orderId
  verdicts : ∀ job ∈ jobs,
    w.verdict u job = w.verdict (w.serveAll jobs) job
  turnedAway : ∀ message ∈ w.since u,
    (∃ job ∈ jobs, job.orderId = some message.orderId) ∨
      ∃ job : Job, job.TurnedAway message

theorem serialInv_start (w : World) : SerialInv w w [] where
  distinct := List.Pairwise.nil
  items := rfl
  uncached job h _ := h
  emitted := List.prefix_refl _
  orders message h := by
    rw [World.since, show w.serveAll [] = w from rfl, List.drop_length] at h
    cases h
  verdicts job h := by cases h
  turnedAway message h := by
    rw [World.since, List.drop_length] at h
    cases h

/-- A job that is turned away adds its event and nothing else. -/
theorem SerialInv.aside {w u u' : World} {jobs : List Job} {job : Job} {message : Message}
    (h : SerialInv w u jobs) (hsince : w.since u' = w.since u ++ [message])
    (hitems : u'.items = u.items) (haway : job.TurnedAway message)
    (hnew : ∀ job' ∈ jobs, job'.orderId ≠ job.orderId) : SerialInv w u' jobs where
  distinct := h.distinct
  items := hitems.trans h.items
  uncached := h.uncached
  emitted := h.emitted
  orders := h.orders
  verdicts job' hjob' := by
    have hne : job'.orderId ≠ some message.orderId := by
      rw [← haway.orderId]
      exact hnew job' hjob'
    rw [World.verdict_of_since job' hsince, if_neg hne, List.append_nil]
    exact h.verdicts job' hjob'
  turnedAway message' hmessage := by
    rw [hsince] at hmessage
    rcases List.mem_append.1 hmessage with hold | hlast
    · exact h.turnedAway message' hold
    · rw [List.mem_singleton.1 hlast]
      exact Or.inr ⟨job, haway⟩

/-- A job that commits with its row locked is the next one. -/
theorem SerialInv.commit {w u u' : World} {jobs : List Job} {task : Task}
    (h : SerialInv w u jobs) (hemitted : w.emitted <+: u.emitted)
    (hcommit : CommitStep u task u') (hrows : task.rows ≠ []) (huncached : w.Uncached task.job)
    (hnew : ∀ job' ∈ jobs, job'.orderId ≠ task.job.orderId)
    (hsilent : ∀ message ∈ w.since u, task.job.orderId ≠ some message.orderId) :
    SerialInv w u' (jobs ++ [task.job]) := by
  obtain ⟨message, hpool, hid, hserial, hitems, huncached'⟩ :=
    hcommit.serve hrows h.items.symm (h.uncached task.job huncached hnew)
  have hsince := World.since_of_emitted hemitted hpool
  have hsince' := World.since_of_emitted h.emitted hserial
  rw [← World.serveAll_concat] at hserial hitems huncached' hsince'
  have hlast : task.job ∈ jobs ++ [task.job] := by simp
  refine ⟨?_, hitems.symm, ?_, ?_, ?_, ?_, ?_⟩
  · rw [List.pairwise_append]
    refine ⟨h.distinct, List.pairwise_singleton _ _, ?_⟩
    intro job hjob job' hjob'
    rw [List.mem_singleton.1 hjob']
    exact hnew job hjob
  · intro job hjob hothers
    have hother : job.orderId ≠ task.job.orderId := (hothers task.job hlast).symm
    refine huncached' job hother (h.uncached job hjob fun job' hjob' => ?_)
    exact hothers job' (List.mem_append_left _ hjob')
  · rw [hserial]
    exact h.emitted.trans (List.prefix_append _ _)
  · rw [hsince']
    intro message' hmessage
    rcases List.mem_append.1 hmessage with hold | hmessage
    · obtain ⟨job, hjob, hid'⟩ := h.orders message' hold
      exact ⟨job, List.mem_append_left _ hjob, hid'⟩
    · rw [List.mem_singleton.1 hmessage]
      exact ⟨task.job, hlast, hid⟩
  · intro job hjob
    rw [World.verdict_of_since job hsince, World.verdict_of_since job hsince']
    rcases List.mem_append.1 hjob with hold | hjob
    · rw [← hid, if_neg (hnew job hold), List.append_nil, List.append_nil]
      exact h.verdicts job hold
    · have hbefore : w.verdict (w.serveAll jobs) task.job = [] := by
        refine World.verdict_eq_nil fun message' hmessage hid' => ?_
        obtain ⟨job', hjob', hid''⟩ := h.orders message' hmessage
        exact hnew job' hjob' (hid''.trans hid'.symm)
      rw [List.mem_singleton.1 hjob, World.verdict_eq_nil hsilent, hbefore]
  · rw [hsince]
    intro message' hmessage
    rcases List.mem_append.1 hmessage with hold | hmessage
    · rcases h.turnedAway message' hold with ⟨job, hjob, hid'⟩ | haway
      · exact Or.inl ⟨job, List.mem_append_left _ hjob, hid'⟩
      · exact Or.inr haway
    · rw [List.mem_singleton.1 hmessage]
      exact Or.inl ⟨task.job, hlast, hid⟩

/-- Every step of a workload keeps the serial order. -/
theorem SerialInv.step {w : World} {s s' : Pool} (h : SerialInv w s.world s.servedJobs)
    (hemitted : w.emitted <+: s.world.emitted) (hstep : Pool.WorkStep w s s') :
    SerialInv w s'.world s'.servedJobs := by
  cases hstep with
  | quiet hitems houtbox hserved =>
      have hsame : s'.world.emitted = s.world.emitted := congrArg (List.map _) houtbox
      have hsince : w.since s'.world = w.since s.world := congrArg (List.drop _) hsame
      rw [hserved]
      refine ⟨h.distinct, hitems.trans h.items, h.uncached, h.emitted, h.orders, ?_, ?_⟩
      · intro job hjob
        rw [World.verdict, hsince]
        exact h.verdicts job hjob
      · rw [hsince]
        exact h.turnedAway
  | aside job message hworld hjob haway hnew hserved =>
      have hsince : w.since s'.world = w.since s.world ++ [message] := by
        refine World.since_of_emitted hemitted ?_
        rw [hworld, World.emitted_emit]
      rw [hserved]
      exact h.aside hsince (by rw [hworld]; rfl) haway hnew
  | commit task hcommit hrows huncached hnew hsilent hserved =>
      rw [hserved]
      exact h.commit hemitted hcommit hrows huncached hnew hsilent

/-! ## The events account for the stock -/

/-- What an event says was taken from the available stock of `sku`. -/
def Message.taken (sku : Sku) : Message → ℤ
  | .inventoryReserved event => if event.sku = sku then event.qty else 0
  | _ => 0

/-- What an event says was given back to the available stock of `sku`. -/
def Message.returned (sku : Sku) : Message → ℤ
  | .inventoryReleased event => if event.sku = sku then event.qty else 0
  | _ => 0

/-- The event grants a reservation of `sku`. -/
def Message.grants (sku : Sku) : Message → Bool
  | .inventoryReserved event => event.sku = sku
  | _ => false

/-- The event refuses a reservation of `sku` because the row is short. -/
def Message.refuses (sku : Sku) : Message → Bool
  | .inventoryReservationFailed event =>
      event.sku = sku ∧ event.reason = "insufficient_stock"
  | _ => false

/-- The units of `sku` granted in the events. -/
def acceptedQty (messages : List Message) (sku : Sku) : ℤ :=
  (messages.map (Message.taken sku)).sum

/-- The units of `sku` released in the events. -/
def releasedQty (messages : List Message) (sku : Sku) : ℤ :=
  (messages.map (Message.returned sku)).sum

/-- The jobs about `sku` are reservations of one unit. -/
def OneUnitEach (jobs : List Job) (sku : Sku) : Prop :=
  ∀ job ∈ jobs, job.sku = some sku → ∃ cmd, job = .reserve cmd ∧ cmd.qty = 1

/-- The number of jobs about `sku`. -/
def jobsOn (jobs : List Job) (sku : Sku) : ℕ := jobs.countP fun job => job.sku = some sku

/-- The events of jobs that reserve one unit of `sku` each. -/
structure UnitsInv (w u : World) (jobs : List Job) (sku : Sku) : Prop where
  answered : (w.since u).countP (Message.grants sku) + (w.since u).countP (Message.refuses sku) =
    jobsOn jobs sku
  granted : u.availableQty sku + (w.since u).countP (Message.grants sku) = w.availableQty sku
  refused : 0 < (w.since u).countP (Message.refuses sku) → u.availableQty sku = 0

/-- The events account for what was taken from the stock and given back. -/
structure LedgerInv (w u : World) (jobs : List Job) : Prop where
  balance : ∀ sku, u.availableQty sku + acceptedQty (w.since u) sku =
    w.availableQty sku + releasedQty (w.since u) sku
  units : ∀ sku, OneUnitEach jobs sku → UnitsInv w u jobs sku

theorem ledgerInv_start (w : World) : LedgerInv w w [] := by
  have hsince : w.since w = [] := by rw [World.since, List.drop_length]
  refine ⟨?_, ?_⟩
  · intro sku
    simp [hsince, acceptedQty, releasedQty]
  · intro sku _
    refine ⟨?_, ?_, ?_⟩
    · simp [hsince, jobsOn]
    · simp [hsince]
    · simp [hsince]

/-- The available stock after a move that is announced. -/
theorem World.availableQty_setItem_emit (w : World) (orderId : OrderId) (sku : Sku)
    (item : InventoryItem) (qty : ℤ) (service : Service) (message : Message) (sku' : Sku) :
    ((w.setItem orderId sku item qty).emit service message).availableQty sku' =
      if sku' = sku then item.available else w.availableQty sku' :=
  availableQty_of_update rfl sku'

/-- The event of a commit tells what the commit did to the available stock. -/
theorem CommitStep.ledger {u u' : World} {task : Task} (h : CommitStep u task u')
    (hrows : task.rows ≠ []) :
    ∃ message : Message, u'.emitted = u.emitted ++ [message] ∧
      (∀ sku, u'.availableQty sku + message.taken sku =
        u.availableQty sku + message.returned sku) ∧
      (∀ sku, task.job.sku ≠ some sku → message.grants sku = false ∧
        message.refuses sku = false ∧ u'.availableQty sku = u.availableQty sku) ∧
      (∀ cmd, task.job = .reserve cmd → cmd.qty = 1 →
        (message.grants cmd.sku = true ∧ message.refuses cmd.sku = false ∧
          0 < u.availableQty cmd.sku ∧
          u'.availableQty cmd.sku = u.availableQty cmd.sku - 1) ∨
        (message.grants cmd.sku = false ∧ message.refuses cmd.sku = true ∧
          u.availableQty cmd.sku = 0 ∧ u'.availableQty cmd.sku = 0)) := by
  cases h with
  | aside message hnil => exact absurd hnil hrows
  | short cmd item hjob hlocked hitem hqty h =>
      have hqty' := World.availableQty_of_item hitem
      have hsame : ∀ sku, u'.availableQty sku = u.availableQty sku := by
        intro sku
        rw [h]
        rfl
      refine ⟨_, by rw [h, World.emitted_emit], ?_, ?_, ?_⟩
      · intro sku
        rw [hsame sku]
        rfl
      · intro sku hsku
        refine ⟨rfl, ?_, hsame sku⟩
        rw [hjob] at hsku
        have hne : cmd.sku ≠ sku := fun heq => hsku (congrArg some heq)
        simp [Message.refuses, hne]
      · intro cmd' hcmd' hone
        cases hjob.symm.trans hcmd'
        have hnonneg := item.available_nonneg
        refine Or.inr ⟨rfl, by simp [Message.refuses], ?_, ?_⟩
        · omega
        · rw [hsame]
          omega
  | reserved cmd item item' hjob hlocked hitem hqty havailable hreserved h =>
      have hqty' := World.availableQty_of_item hitem
      subst h
      refine ⟨_, by rw [World.emitted_emit, World.emitted_setItem], ?_, ?_, ?_⟩
      · intro sku
        rw [World.availableQty_setItem_emit]
        by_cases hsku : sku = cmd.sku
        · simp only [Message.taken, Message.returned, hsku, if_true]
          omega
        · simp [Message.taken, Message.returned, hsku, Ne.symm hsku]
      · intro sku hsku
        rw [hjob] at hsku
        have hne : cmd.sku ≠ sku := fun heq => hsku (congrArg some heq)
        refine ⟨by simp [Message.grants, hne], rfl, ?_⟩
        rw [World.availableQty_setItem_emit, if_neg (Ne.symm hne)]
      · intro cmd' hcmd' hone
        cases hjob.symm.trans hcmd'
        refine Or.inl ⟨by simp [Message.grants], rfl, ?_, ?_⟩
        · omega
        · rw [World.availableQty_setItem_emit, if_pos rfl]
          omega
  | released cmd item item' hjob hlocked hitem havailable hreserved h =>
      have hqty' := World.availableQty_of_item hitem
      subst h
      refine ⟨_, by rw [World.emitted_emit, World.emitted_setItem], ?_, ?_, ?_⟩
      · intro sku
        rw [World.availableQty_setItem_emit]
        by_cases hsku : sku = cmd.sku
        · simp only [Message.taken, Message.returned, hsku, if_true]
          omega
        · simp [Message.taken, Message.returned, hsku, Ne.symm hsku]
      · intro sku hsku
        rw [hjob] at hsku
        have hne : cmd.sku ≠ sku := fun heq => hsku (congrArg some heq)
        refine ⟨rfl, rfl, ?_⟩
        rw [World.availableQty_setItem_emit, if_neg (Ne.symm hne)]
      · intro cmd' hcmd'
        cases hjob.symm.trans hcmd'

theorem acceptedQty_concat (messages : List Message) (message : Message) (sku : Sku) :
    acceptedQty (messages ++ [message]) sku = acceptedQty messages sku + message.taken sku := by
  simp [acceptedQty]

theorem releasedQty_concat (messages : List Message) (message : Message) (sku : Sku) :
    releasedQty (messages ++ [message]) sku = releasedQty messages sku + message.returned sku := by
  simp [releasedQty]

theorem jobsOn_concat (jobs : List Job) (job : Job) (sku : Sku) :
    jobsOn (jobs ++ [job]) sku = jobsOn jobs sku + if job.sku = some sku then 1 else 0 := by
  simp [jobsOn, List.countP_append, List.countP_singleton]

theorem countP_concat (messages : List Message) (message : Message) (p : Message → Bool) :
    (messages ++ [message]).countP p = messages.countP p + if p message then 1 else 0 := by
  rw [List.countP_append, List.countP_singleton]

theorem LedgerInv.commit {w u u' : World} {jobs : List Job} {task : Task}
    (h : LedgerInv w u jobs) (hemitted : w.emitted <+: u.emitted)
    (hcommit : CommitStep u task u') (hrows : task.rows ≠ []) :
    LedgerInv w u' (jobs ++ [task.job]) := by
  obtain ⟨message, hemit, hbalance, hother, hone⟩ := hcommit.ledger hrows
  have hsince := World.since_of_emitted hemitted hemit
  refine ⟨?_, ?_⟩
  · intro sku
    have hbefore := h.balance sku
    have hstep := hbalance sku
    rw [hsince, acceptedQty_concat, releasedQty_concat]
    omega
  · intro sku hunit
    obtain ⟨hanswered, hgranted, hrefused⟩ :=
      h.units sku fun job hjob => hunit job (List.mem_append_left _ hjob)
    by_cases hsku : task.job.sku = some sku
    · obtain ⟨cmd, hjob, hqty⟩ := hunit task.job (by simp) hsku
      rw [hjob] at hsku
      obtain rfl : cmd.sku = sku := Option.some.inj hsku
      rcases hone cmd hjob hqty with ⟨hgrants, hrefuses, hpos, hafter⟩ |
        ⟨hgrants, hrefuses, hzero, hafter⟩
      · refine ⟨?_, ?_, ?_⟩ <;>
          simp only [hsince, countP_concat, jobsOn_concat, hgrants, hrefuses, hjob, hsku, if_true]
        · simp only [Bool.false_eq_true, if_false]
          omega
        · push_cast
          omega
        · simp only [Bool.false_eq_true, if_false]
          intro hsome
          have hnone := hrefused hsome
          omega
      · refine ⟨?_, ?_, ?_⟩ <;>
          simp only [hsince, countP_concat, jobsOn_concat, hgrants, hrefuses, hjob, hsku, if_true]
        · simp only [Bool.false_eq_true, if_false]
          omega
        · simp only [Bool.false_eq_true, if_false]
          omega
        · intro _
          exact hafter
    · obtain ⟨hgrants, hrefuses, hsame⟩ := hother sku hsku
      refine ⟨?_, ?_, ?_⟩ <;>
        simp only [hsince, countP_concat, jobsOn_concat, hgrants, hrefuses, hsku, hsame,
          Bool.false_eq_true, if_false, Nat.add_zero]
      · exact hanswered
      · exact hgranted
      · exact hrefused

/-- A job that is turned away is neither granted nor refused a unit. -/
theorem LedgerInv.aside {w u u' : World} {jobs : List Job} {job : Job} {message : Message}
    (h : LedgerInv w u jobs) (hsince : w.since u' = w.since u ++ [message])
    (hitems : u'.items = u.items) (haway : job.TurnedAway message) : LedgerInv w u' jobs := by
  have havailable : ∀ sku, u'.availableQty sku = u.availableQty sku := by
    intro sku
    rw [World.availableQty, hitems, World.availableQty]
  obtain ⟨cmd, reason, -, rfl, hreason⟩ := haway
  have hrefuses : ∀ sku, Message.refuses sku (.inventoryReservationFailed
      ⟨cmd.orderId, cmd.sku, cmd.qty, reason⟩) = false := by
    intro sku
    rcases hreason with rfl | rfl
    · simp [Message.refuses]
    · simp [Message.refuses]
  refine ⟨?_, ?_⟩
  · intro sku
    rw [hsince, acceptedQty_concat, releasedQty_concat, havailable]
    simpa [Message.taken, Message.returned] using h.balance sku
  · intro sku hunit
    obtain ⟨hanswered, hgranted, hrefused⟩ := h.units sku hunit
    refine ⟨?_, ?_, ?_⟩ <;>
      simp only [hsince, countP_concat, hrefuses, havailable, Message.grants,
        Bool.false_eq_true, if_false, Nat.add_zero]
    · exact hanswered
    · exact hgranted
    · exact hrefused

/-- Every step of a workload keeps the account. -/
theorem LedgerInv.step {w : World} {s s' : Pool} (h : LedgerInv w s.world s.servedJobs)
    (hemitted : w.emitted <+: s.world.emitted) (hstep : Pool.WorkStep w s s') :
    LedgerInv w s'.world s'.servedJobs := by
  cases hstep with
  | quiet hitems houtbox hserved =>
      have hsame : s'.world.emitted = s.world.emitted := congrArg (List.map _) houtbox
      have hsince : w.since s'.world = w.since s.world := congrArg (List.drop _) hsame
      have havailable : ∀ sku, s'.world.availableQty sku = s.world.availableQty sku := by
        intro sku
        rw [World.availableQty, hitems, World.availableQty]
      rw [hserved]
      refine ⟨?_, ?_⟩
      · intro sku
        rw [hsince, havailable]
        exact h.balance sku
      · intro sku hunit
        obtain ⟨hanswered, hgranted, hrefused⟩ := h.units sku hunit
        rw [← hsince] at hanswered hgranted hrefused
        rw [← havailable sku] at hgranted hrefused
        exact ⟨hanswered, hgranted, hrefused⟩
  | aside job message hworld hjob haway hnew hserved =>
      have hsince : w.since s'.world = w.since s.world ++ [message] := by
        refine World.since_of_emitted hemitted ?_
        rw [hworld, World.emitted_emit]
      rw [hserved]
      exact h.aside hsince (by rw [hworld]; rfl) haway
  | commit task hcommit hrows huncached hnew hsilent hserved =>
      rw [hserved]
      exact h.commit hemitted hcommit hrows

/-! ## Serializability -/

/-- The rows and the verdicts of a workload are those of the jobs that reached
the database, each once, in the order of their commits; all others were turned
away. What is granted never exceeds what is there, and of reservations of one
unit as many are granted as there are units. -/
structure Serializable (w : World) (s : Pool) : Prop where
  distinct : s.servedJobs.Pairwise fun a b => a.orderId ≠ b.orderId
  items : s.world.items = (w.serveAll s.servedJobs).items
  verdicts : ∀ job ∈ s.servedJobs,
    w.verdict s.world job = w.verdict (w.serveAll s.servedJobs) job
  turnedAway : ∀ message ∈ w.since s.world,
    (∃ job ∈ s.servedJobs, job.orderId = some message.orderId) ∨
      ∃ job : Job, job.TurnedAway message
  accepted_le : ∀ sku, acceptedQty (w.since s.world) sku ≤
    w.availableQty sku + releasedQty (w.since s.world) sku
  lastUnits : ∀ sku, OneUnitEach s.servedJobs sku →
    ((w.since s.world).countP (Message.grants sku) : ℤ) =
        min (jobsOn s.servedJobs sku : ℤ) (w.availableQty sku) ∧
      (w.since s.world).countP (Message.refuses sku) =
        jobsOn s.servedJobs sku - (w.since s.world).countP (Message.grants sku)

theorem UnitsInv.granted_eq_min {w u : World} {jobs : List Job} {sku : Sku}
    (h : UnitsInv w u jobs sku) :
    ((w.since u).countP (Message.grants sku) : ℤ) =
      min (jobsOn jobs sku : ℤ) (w.availableQty sku) := by
  have hnonneg := u.availableQty_nonneg sku
  obtain ⟨hanswered, hgranted, hrefused⟩ := h
  rcases Nat.eq_zero_or_pos ((w.since u).countP (Message.refuses sku)) with hzero | hpos
  · rw [min_eq_left (by omega)]
    omega
  · have hnone := hrefused hpos
    rw [min_eq_right (by omega)]
    omega

namespace Pool

/-- Whatever the locks, the limiter and the expiries do, a workload is
serializable in the order of its commits. -/
theorem workload_serializable {w : World} {locks : LockKey → Option ℕ} {actions : List Action}
    {s : Pool} (hrun : Schedule.run step (start w locks) actions = some s)
    (hwork : Workload w s.jobs) : Serializable w s := by
  have hinv : Workload w s.jobs → WorkInv w s ∧ SerialInv w s.world s.servedJobs ∧
      LedgerInv w s.world s.servedJobs := by
    refine Schedule.run_invariant (I := fun s => Workload w s.jobs → WorkInv w s ∧
      SerialInv w s.world s.servedJobs ∧ LedgerInv w s.world s.servedJobs) ?_ ?_ hrun
    · intro t a t' h hstep hwork'
      have hwork := hwork'.of_jobs (jobs_step hstep)
      obtain ⟨hinv, hserial, hledger⟩ := h hwork
      have hwstep := hinv.workStep hwork hstep
      exact ⟨hinv.step hwork hstep, hserial.step hinv.emitted hwstep,
        hledger.step hinv.emitted hwstep⟩
    · intro _
      exact ⟨workInv_start w locks, serialInv_start w, ledgerInv_start w⟩
  obtain ⟨-, hserial, hledger⟩ := hinv hwork
  refine ⟨hserial.distinct, hserial.items, hserial.verdicts, hserial.turnedAway, ?_, ?_⟩
  · intro sku
    have hbalance := hledger.balance sku
    have hnonneg := s.world.availableQty_nonneg sku
    omega
  · intro sku hunit
    have hunits := hledger.units sku hunit
    have hanswered := hunits.answered
    exact ⟨hunits.granted_eq_min, by omega⟩

/-- One unit in stock. -/
def lastUnit : World :=
  { World.empty with items := fun _ => InventoryItem.check 1 0 }

/-- Two reservations of the last unit. The lock expires while the first one has
the row locked, and the second one waits for the row. -/
def lastUnitActions : List Action :=
  [.spawn (.reserve ⟨"order-1", "sku-1", 1⟩), .spawn (.reserve ⟨"order-2", "sku-1", 1⟩),
    .exec 0 unhindered, .exec 0 unhindered, .exec 0 unhindered, .exec 0 unhindered,
    .expire (.sku "sku-1"), .exec 1 unhindered, .exec 1 unhindered, .exec 1 unhindered,
    .exec 0 unhindered, .exec 0 unhindered, .exec 0 unhindered, .exec 0 unhindered,
    .exec 1 unhindered, .exec 1 unhindered, .exec 1 unhindered, .exec 1 unhindered]

theorem serializable_lastUnit :
    ∃ s, Schedule.run step (start lastUnit fun _ => none) lastUnitActions = some s ∧
      s.served = [0, 1] ∧ Serializable lastUnit s := by
  have hsome : ((Schedule.run step (start lastUnit fun _ => none) lastUnitActions).map
      fun s => (s.served, s.jobs)) = some ([0, 1],
        [.reserve ⟨"order-1", "sku-1", 1⟩, .reserve ⟨"order-2", "sku-1", 1⟩]) := by
    decide +kernel
  obtain ⟨s, hrun, hs⟩ := Option.map_eq_some_iff.1 hsome
  obtain ⟨hserved, hjobs⟩ := Prod.ext_iff.1 hs
  refine ⟨s, hrun, hserved, workload_serializable hrun ?_⟩
  rw [show s.jobs = _ from hjobs]
  refine ⟨?_, ?_, ?_, ?_⟩
  · decide
  · simp [Job.orderId]
  · simp [World.Uncached, lastUnit, World.empty]
  · simp [lastUnit, InventoryItem.check]

end Pool

end FlashSale
