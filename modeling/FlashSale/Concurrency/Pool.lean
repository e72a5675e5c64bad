import FlashSale.InventoryService.Main
import FlashSale.Library.Schedule
import FlashSale.PaymentService.Main

/-!
# Concurrent tasks

The broker client runs every delivery in a task of its own, and the seed
endpoint serves its requests concurrently. A `Pool` is a number of such tasks
over one world. They take turns at their awaited calls, in any order.

The distributed locks follow `DistributedLock`: `SET NX` with a token, here the
number of the task, and an unlock that first compares the token; a key can
expire at any time. The database follows READ COMMITTED: a statement reads what
is committed, `SELECT ... FOR UPDATE` and UPDATE lock the row until the commit
and wait while another transaction has it locked.

A step that is blocked, or that would fail, is not possible.
-/

namespace FlashSale

/-- The row of `inventory_items` that a statement writes. -/
def Write.sku : Write → Option Sku
  | .insertItem sku _ => some sku
  | .setAvailable sku _ _ => some sku
  | .updateItem _ sku _ _ => some sku
  | _ => none

/-- What a task runs: a request of the seed endpoint or the delivery of a
command. -/
inductive Job
  | seed (req : InventoryService.SeedRequest)
  | reserve (cmd : ReserveInventory)
  | release (cmd : ReleaseInventory)
  | charge (cmd : ChargePayment)
deriving DecidableEq

def Job.program : Job → Handler Unit
  | seed req => InventoryService.seedInventory req
  | reserve cmd => InventoryService.handleReserve cmd
  | release cmd => InventoryService.handleRelease cmd
  | charge cmd => PaymentService.handleCharge cmd

/-- A task: what is left of its program, its unit of work, and the rows that its
transaction has locked. -/
structure Task where
  job : Job
  prog : Handler Unit
  session : Session
  rows : List Sku

def Task.new (job : Job) : Task where
  job := job
  prog := job.program
  session := {}
  rows := []

/-- The tasks over the world and the distributed locks. `served` lists, in the
order of their commits, the tasks that committed with a row locked. -/
structure Pool where
  world : World
  locks : LockKey → Option ℕ
  tasks : List Task
  served : List ℕ

/-- What a call can read and change: the world and the locks, and the unit of
work and the row locks of its own task. -/
@[ext] structure Context where
  world : World
  locks : LockKey → Option ℕ
  session : Session
  rows : List Sku

/-- A call with no other meaning than the one for an attempt that is alone. -/
def Context.alone (c : Context) (ω : Answers) (e : Effect) : Option (e.Answer × Context) :=
  (exec ω e (c.world, c.session)).map fun r =>
    (r.1, { c with world := r.2.1, session := r.2.2 })

/-- One awaited call of the task `i`; `free` says which rows no other
transaction has locked. -/
def perform (i : ℕ) (ω : Answers) (free : Sku → Bool) :
    (e : Effect) → Context → Option (e.Answer × Context)
  | .acquire key, c =>
      if ω.acquired then
        if c.locks key = none then
          some (true, { c with locks := Function.update c.locks key (some i) })
        else none
      else some (false, c)
  | .release key, c =>
      some ((), { c with
        session := { c.session with missed := false }
        locks := if c.locks key = some i then Function.update c.locks key none else c.locks })
  | .selectItemForUpdate sku, c =>
      if free sku then
        some (c.world.items sku,
          { c with rows := if (c.world.items sku).isSome then c.rows.insert sku else c.rows })
      else none
  | .flush writes, c =>
      if (writes.filterMap Write.sku).all free then
        (c.alone ω (.flush writes)).map fun r =>
          (r.1, { r.2 with rows := writes.filterMap Write.sku ∪ c.rows })
      else none
  | .commit writes, c =>
      if ((c.session.txn ++ writes).filterMap Write.sku).all free then
        (c.alone ω (.commit writes)).map fun r => (r.1, { r.2 with rows := [] })
      else none
  | .getCachedResult key, c => c.alone ω (.getCachedResult key)
  | .storeResult key entry, c => c.alone ω (.storeResult key entry)
  | .allow sku, c => c.alone ω (.allow sku)
  | .charge orderId amountCents userId, c => c.alone ω (.charge orderId amountCents userId)
  | .refund paymentId amountCents, c => c.alone ω (.refund paymentId amountCents)
  | .selectOrder orderId, c => c.alone ω (.selectOrder orderId)
  | .selectSaga orderId, c => c.alone ω (.selectSaga orderId)
  | .selectPayment paymentId, c => c.alone ω (.selectPayment paymentId)
  | .selectItem sku, c => c.alone ω (.selectItem sku)
  | .flushNew row, c => c.alone ω (.flushNew row)

/-! ## The calls of a transaction -/

section Transactions

variable {i : ℕ} {ω : Answers} {free : Sku → Bool} {c c' : Context} {writes : List Write}

/-- What a commit is: the rows written are free, and the transaction ends. -/
theorem perform_commit {r : Unit} (h : perform i ω free (.commit writes) c = some (r, c')) :
    ((c.session.txn ++ writes).filterMap Write.sku).all free = true ∧
      ∃ w', c.world.writeAll (c.session.txn ++ writes) = some w' ∧
        c' = { c with world := w', session := { c.session with txn := [] }, rows := [] } := by
  simp only [perform, Context.alone, exec, commitWrites, Option.map_map,
    Option.ite_none_right_eq_some, Option.map_eq_some_iff] at h
  obtain ⟨hfree, w', hw', hc⟩ := h
  cases hc
  exact ⟨hfree, w', hw', rfl⟩

/-- What a flush is: the rows written are free, and they are locked. -/
theorem perform_flush {r : Unit} (h : perform i ω free (.flush writes) c = some (r, c')) :
    (writes.filterMap Write.sku).all free = true ∧
      c' = { c with
        session := { c.session with txn := c.session.txn ++ writes }
        rows := writes.filterMap Write.sku ∪ c.rows } := by
  simp only [perform, Context.alone, exec, flushWrites, Option.map_map,
    Option.ite_none_right_eq_some, Option.map_eq_some_iff] at h
  obtain ⟨hfree, w', -, hc⟩ := h
  cases hc
  exact ⟨hfree, rfl⟩

theorem perform_flushNew {row : String → Write} {r : String}
    (h : perform i ω free (.flushNew row) c = some (r, c')) :
    r = ω.newId ∧
      c' = { c with session := { c.session with txn := c.session.txn ++ [row ω.newId] } } := by
  simp only [perform, Context.alone, exec, flushWrites, Option.map_map,
    Option.map_eq_some_iff] at h
  obtain ⟨w', -, hc⟩ := h
  cases hc
  exact ⟨rfl, rfl⟩

end Transactions

/-! ## Rows that somebody else has locked -/

/-- A statement changes no row but the one it writes. -/
theorem World.write_items {w w' : World} {x : Write} {sku : Sku} (h : w.write x = some w')
    (hsku : x.sku ≠ some sku) : w'.items sku = w.items sku := by
  cases x with
  | insertItem sku' qty =>
      have hne : sku ≠ sku' := fun heq => hsku (by rw [heq]; rfl)
      cases hitem : w.items sku' with
      | some item => simp [World.write, hitem] at h
      | none =>
          simp only [World.write, hitem, Option.map_eq_some_iff] at h
          obtain ⟨item, -, rfl⟩ := h
          exact Function.update_of_ne hne _ _
  | setAvailable sku' qty available =>
      have hne : sku ≠ sku' := fun heq => hsku (by rw [heq]; rfl)
      cases hitem : w.items sku' with
      | none => simp [World.write, hitem] at h
      | some item =>
          simp only [World.write, hitem, Option.map_eq_some_iff] at h
          obtain ⟨item, -, rfl⟩ := h
          exact Function.update_of_ne hne _ _
  | updateItem orderId sku' available reserved =>
      have hne : sku ≠ sku' := fun heq => hsku (by rw [heq]; rfl)
      cases hitem : w.items sku' with
      | none => simp [World.write, hitem] at h
      | some item =>
          simp only [World.write, hitem, Option.map_eq_some_iff] at h
          obtain ⟨item, -, rfl⟩ := h
          exact Function.update_of_ne hne _ _
  | insertOrder order =>
      simp only [World.write, Option.ite_none_left_eq_some, Option.some.injEq] at h
      rw [← h.2]
  | insertPayment payment =>
      simp only [World.write, Option.ite_none_left_eq_some, Option.some.injEq] at h
      rw [← h.2]
  | saga orderId write =>
      cases write with
      | insert row =>
          cases hrow : w.sagas orderId <;> simp only [World.write, hrow] at h <;> cases h
          rfl
      | assign state paymentId failureReason =>
          cases hrow : w.sagas orderId <;> simp only [World.write, hrow] at h <;> cases h
          rfl
  | setOrderStatus orderId status | setPaymentStatus paymentId status
  | insertNotification notification | outbox service message =>
      cases h
      rfl

theorem World.writeAll_items {w w' : World} {xs : List Write} {sku : Sku}
    (h : w.writeAll xs = some w') (hsku : sku ∉ xs.filterMap Write.sku) :
    w'.items sku = w.items sku := by
  induction xs generalizing w with
  | nil =>
      cases h
      rfl
  | cons x xs ih =>
      rw [World.writeAll_cons, Option.bind_eq_some_iff] at h
      obtain ⟨u, hu, hrest⟩ := h
      have hx : x.sku ≠ some sku := by
        intro hsome
        exact hsku (List.mem_filterMap.2 ⟨x, List.mem_cons_self, hsome⟩)
      have hxs : sku ∉ xs.filterMap Write.sku := by
        intro hmem
        obtain ⟨y, hy, hsome⟩ := List.mem_filterMap.1 hmem
        exact hsku (List.mem_filterMap.2 ⟨y, List.mem_cons_of_mem _ hy, hsome⟩)
      rw [ih hrest hxs, World.write_items hu hx]

/-- Only a commit changes rows, and only rows that are free. -/
theorem perform_items {i : ℕ} {ω : Answers} {free : Sku → Bool} {e : Effect} {c c' : Context}
    {r : e.Answer} {sku : Sku} (h : perform i ω free e c = some (r, c'))
    (hsku : free sku = false) : c'.world.items sku = c.world.items sku := by
  cases e with
  | commit writes =>
      obtain ⟨hfree, w', hw', rfl⟩ := perform_commit h
      refine World.writeAll_items hw' fun hmem => ?_
      rw [List.all_eq_true.1 hfree sku hmem] at hsku
      cases hsku
  | flush writes =>
      obtain ⟨-, rfl⟩ := perform_flush h
      rfl
  | flushNew row =>
      obtain ⟨-, rfl⟩ := perform_flushNew h
      rfl
  | acquire key =>
      simp only [perform] at h
      split at h
      · rw [Option.ite_none_right_eq_some] at h
        cases h.2
        rfl
      · cases h
        rfl
  | selectItemForUpdate sku' =>
      simp only [perform, Option.ite_none_right_eq_some] at h
      cases h.2
      rfl
  | storeResult key entry =>
      cases h
      cases key <;> rfl
  | release | getCachedResult | allow | charge | refund | selectOrder | selectSaga
  | selectPayment | selectItem =>
      cases h
      rfl

/-- A transaction locks only rows that are free. -/
theorem perform_rows {i : ℕ} {ω : Answers} {free : Sku → Bool} {e : Effect} {c c' : Context}
    {r : e.Answer} {sku : Sku} (h : perform i ω free e c = some (r, c'))
    (hsku : sku ∈ c'.rows) : sku ∈ c.rows ∨ free sku = true := by
  cases e with
  | commit writes =>
      obtain ⟨-, w', -, rfl⟩ := perform_commit h
      cases hsku
  | flush writes =>
      obtain ⟨hfree, rfl⟩ := perform_flush h
      rcases List.mem_union_iff.1 hsku with hmem | hmem
      · exact Or.inr (List.all_eq_true.1 hfree sku hmem)
      · exact Or.inl hmem
  | flushNew row =>
      obtain ⟨-, rfl⟩ := perform_flushNew h
      exact Or.inl hsku
  | acquire key =>
      simp only [perform] at h
      split at h
      · rw [Option.ite_none_right_eq_some] at h
        cases h.2
        exact Or.inl hsku
      · cases h
        exact Or.inl hsku
  | selectItemForUpdate sku' =>
      simp only [perform, Option.ite_none_right_eq_some] at h
      obtain ⟨hfree, hc⟩ := h
      cases hc
      simp only at hsku
      split at hsku
      · rcases List.mem_insert_iff.1 hsku with rfl | hmem
        · exact Or.inr hfree
        · exact Or.inl hmem
      · exact Or.inl hsku
  | release | getCachedResult | storeResult | allow | charge | refund | selectOrder
  | selectSaga | selectPayment | selectItem =>
      cases h
      exact Or.inl hsku

namespace Pool

/-- No tasks yet; every lock may be held by somebody else. -/
def start (w : World) (locks : LockKey → Option ℕ) : Pool where
  world := w
  locks := locks
  tasks := []
  served := []

/-- No transaction but that of the task `i` has locked the row. -/
def free (s : Pool) (i : ℕ) (sku : Sku) : Bool :=
  s.tasks.zipIdx.all fun t => t.2 == i || !t.1.rows.contains sku

/-- What the task sees. -/
def context (s : Pool) (task : Task) : Context where
  world := s.world
  locks := s.locks
  session := task.session
  rows := task.rows

/-- The pool after a call of the task `i` that leaves the program `p`. -/
def resume (s : Pool) (i : ℕ) (task : Task) (commits : Bool) (p : Handler Unit) (c : Context) :
    Pool where
  world := c.world
  locks := c.locks
  tasks := s.tasks.set i { task with prog := p, session := c.session, rows := c.rows }
  served := if commits && !task.rows.isEmpty then s.served ++ [i] else s.served

/-- The actions: a task starts, a task takes its next call, a lock key or an
idempotency entry expires. -/
inductive Action
  | spawn (job : Job)
  | exec (i : ℕ) (ω : Answers)
  | expire (key : LockKey)
  | forget (key : IdemKey)

def step (s : Pool) : Action → Option Pool
  | .spawn job => some { s with tasks := s.tasks ++ [.new job] }
  | .exec i ω =>
      match s.tasks[i]? with
      | none => none
      | some task =>
          match task.prog with
          | .call e k =>
              (perform i ω (s.free i) e (s.context task)).map fun r =>
                s.resume i task e.isCommit (k r.1) r.2
          | _ => none
  | .expire key => some { s with locks := Function.update s.locks key none }
  | .forget key => some { s with world := s.world.setCache key none }

/-- The jobs of the tasks. -/
def jobs (s : Pool) : List Job := s.tasks.map Task.job

theorem free_iff {s : Pool} {i : ℕ} {sku : Sku} :
    s.free i sku = true ↔
      ∀ j task, s.tasks[j]? = some task → j ≠ i → sku ∉ task.rows := by
  simp only [free, List.all_eq_true, List.mem_zipIdx_iff_getElem?, Prod.forall, Bool.or_eq_true,
    beq_iff_eq, Bool.not_eq_true', List.contains_eq_mem, decide_eq_false_iff_not]
  constructor
  · intro h j task hj hne
    exact (h task j hj).resolve_left hne
  · intro h task j hj
    by_cases hne : j = i
    · exact Or.inl hne
    · exact Or.inr (h j task hj hne)

/-- What a step of a task is: it takes the next call of its program. -/
theorem step_exec {s s' : Pool} {i : ℕ} {ω : Answers} (h : s.step (.exec i ω) = some s') :
    ∃ task e k r c, s.tasks[i]? = some task ∧ task.prog = .call e k ∧
      perform i ω (s.free i) e (s.context task) = some (r, c) ∧
      s' = s.resume i task e.isCommit (k r) c := by
  rw [step] at h
  cases htask : s.tasks[i]? with
  | none =>
      rw [htask] at h
      cases h
  | some task =>
      rw [htask] at h
      cases hprog : task.prog with
      | ret a =>
          simp only [hprog] at h
          cases h
      | raise =>
          simp only [hprog] at h
          cases h
      | call e k =>
          simp only [hprog] at h
          obtain ⟨⟨r, c⟩, hperform, rfl⟩ := Option.map_eq_some_iff.1 h
          exact ⟨task, e, k, r, c, rfl, hprog, hperform, rfl⟩

theorem getElem?_resume_self {s : Pool} {i : ℕ} {task : Task} {b : Bool} {p : Handler Unit}
    {c : Context} (h : s.tasks[i]? = some task) :
    (s.resume i task b p c).tasks[i]? =
      some { task with prog := p, session := c.session, rows := c.rows } := by
  rw [resume, List.getElem?_set_self (List.getElem?_eq_some_iff.1 h).1]

theorem getElem?_resume_ne {s : Pool} {i j : ℕ} {task : Task} {b : Bool} {p : Handler Unit}
    {c : Context} (h : j ≠ i) : (s.resume i task b p c).tasks[j]? = s.tasks[j]? := by
  rw [resume, List.getElem?_set_ne h.symm]

/-- A task that is through is not the task `i` that takes a step. -/
theorem getElem?_resume_done {s : Pool} {i j : ℕ} {task t : Task} {b : Bool} {p : Handler Unit}
    {c : Context} (hi : s.tasks[i]? = some task) (hwaiting : task.prog.waiting = true)
    (hj : s.tasks[j]? = some t) (hdone : t.prog.waiting = false) :
    (s.resume i task b p c).tasks[j]? = some t := by
  have hne : j ≠ i := by
    rintro rfl
    rw [hi] at hj
    cases hj
    rw [hwaiting] at hdone
    cases hdone
  exact (getElem?_resume_ne hne).trans hj

/-- A task of the pool after a step of the task `i` is the task `i` with its
program advanced, or another task, as it was. -/
theorem getElem?_resume {s : Pool} {i j : ℕ} {task t : Task} {b : Bool} {p : Handler Unit}
    {c : Context} (hi : s.tasks[i]? = some task)
    (h : (s.resume i task b p c).tasks[j]? = some t) :
    (j = i ∧ t = { task with prog := p, session := c.session, rows := c.rows }) ∨
      (j ≠ i ∧ s.tasks[j]? = some t) := by
  by_cases hij : j = i
  · subst hij
    rw [getElem?_resume_self hi] at h
    exact Or.inl ⟨rfl, (Option.some.inj h).symm⟩
  · rw [getElem?_resume_ne hij] at h
    exact Or.inr ⟨hij, h⟩

theorem world_spawn {s s' : Pool} {job : Job} (hstep : s.step (.spawn job) = some s') :
    s'.world = s.world := by
  cases hstep
  rfl

theorem getElem?_spawn_old {s s' : Pool} {job : Job} {j : ℕ} {t : Task}
    (hstep : s.step (.spawn job) = some s') (hj : s.tasks[j]? = some t) :
    s'.tasks[j]? = some t := by
  cases hstep
  rw [← hj]
  exact List.getElem?_append_left (List.getElem?_eq_some_iff.1 hj).1

/-- A task of the pool after a spawn is the new one or an old one. -/
theorem getElem?_spawn {s s' : Pool} {job : Job} {j : ℕ} {t : Task}
    (hstep : s.step (.spawn job) = some s') (h : s'.tasks[j]? = some t) :
    s.tasks[j]? = some t ∨ j = s.tasks.length ∧ t = .new job := by
  cases hstep
  rcases Nat.lt_trichotomy j s.tasks.length with hlt | rfl | hgt
  · rw [List.getElem?_append_left hlt] at h
    exact Or.inl h
  · rw [List.getElem?_append_right Nat.le.refl, Nat.sub_self, List.getElem?_cons_zero] at h
    exact Or.inr ⟨rfl, (Option.some.inj h).symm⟩
  · rw [List.getElem?_eq_none (by rw [List.length_append, List.length_singleton]; omega)] at h
    cases h

/-- No row is locked by two transactions. -/
def Exclusive (s : Pool) : Prop :=
  ∀ (i j : ℕ) (task task' : Task) (sku : Sku), s.tasks[i]? = some task → s.tasks[j]? = some task' →
    sku ∈ task.rows → sku ∈ task'.rows → i = j

theorem exclusive_start (w : World) (locks : LockKey → Option ℕ) :
    (start w locks).Exclusive := by
  intro i j task task' sku hi
  cases hi

theorem free_eq_false {s : Pool} {i j : ℕ} {task : Task} {sku : Sku}
    (hj : s.tasks[j]? = some task) (hsku : sku ∈ task.rows) (hne : j ≠ i) :
    s.free i sku = false := by
  cases hfree : s.free i sku with
  | false => rfl
  | true => exact absurd hsku (free_iff.1 hfree j task hj hne)

/-- Row locks stay exclusive. -/
theorem Exclusive.step {s s' : Pool} {a : Action} (h : s.Exclusive)
    (hstep : s.step a = some s') : s'.Exclusive := by
  cases a with
  | spawn job =>
      intro i j task task' sku hi hj hsku hsku'
      rcases getElem?_spawn hstep hi with hi' | ⟨-, rfl⟩
      · rcases getElem?_spawn hstep hj with hj' | ⟨-, rfl⟩
        · exact h i j task task' sku hi' hj' hsku hsku'
        · cases hsku'
      · cases hsku
  | expire key =>
      cases hstep
      exact h
  | forget key =>
      cases hstep
      exact h
  | exec i ω =>
      obtain ⟨task, e, k, r, c, hi, hprog, hperform, rfl⟩ := step_exec hstep
      -- what the task `i` has locked was free for it or already its own
      have hown : ∀ j t sku, s.tasks[j]? = some t → sku ∈ t.rows → sku ∈ c.rows → j = i := by
        intro j t sku hj hsku hsku'
        rcases perform_rows hperform hsku' with hmem | hfree
        · exact h j i t task sku hj hi hsku hmem
        · by_contra hne
          exact free_iff.1 hfree j t hj hne hsku
      intro j j' t t' sku hj hj' hsku hsku'
      rcases getElem?_resume hi hj with ⟨rfl, rfl⟩ | ⟨hne, hold⟩
      · rcases getElem?_resume hi hj' with ⟨rfl, rfl⟩ | ⟨hne', hold'⟩
        · rfl
        · exact (hown j' t' sku hold' hsku' hsku).symm
      · rcases getElem?_resume hi hj' with ⟨rfl, rfl⟩ | ⟨hne', hold'⟩
        · exact hown j t sku hold hsku hsku'
        · exact h j j' t t' sku hold hold' hsku hsku'

/-- No step of another task changes a row that a task has locked. -/
theorem items_of_locked {s : Pool} {i j : ℕ} {ω : Answers} {t : Task} {sku : Sku} {e : Effect}
    {r : e.Answer} {c c' : Context} (hj : s.tasks[j]? = some t) (hsku : sku ∈ t.rows)
    (hne : j ≠ i) (hperform : perform i ω (s.free i) e c = some (r, c')) :
    c'.world.items sku = c.world.items sku :=
  perform_items hperform (free_eq_false hj hsku hne)

end Pool

end FlashSale
