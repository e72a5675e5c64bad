import FlashSale.Concurrency.RowLocks

/-!
# A lock that expires while it is held

Several deliveries of one `ChargePayment`, or of one `ReserveInventory`, run
concurrently. The key of the lock can expire while its holder is at work, and
nothing looks at the lock again before the gateway is called or the stock is
moved, so two of them can do it.

`atMostOnce_of_held` says when only one of them does: no key expires while the
delivery that holds it still needs it, that is until it has found an answer or
stored its own. Then at most one delivery is in the part of the critical section
that matters (`Held`): the lock is granted only while it is free, a delivery that
has lost it does not unlock it for the one that has it now, and the next one
finds the stored answer.
-/

namespace FlashSale

open InventoryService PaymentService

/-- How often the effect of a command has been had: the gateway calls made for
the order of a charge, the committed stock moves of a reservation. -/
def World.effects (w : World) : Job → ℕ
  | .charge cmd => (w.chargesOf cmd.orderId).length
  | .reserve cmd => (w.movesOf cmd.orderId).length
  | _ => 0

/-- The task has come to its decision and has yet to store it. -/
def Task.unsettled (task : Task) : Bool :=
  match task.prog with
  | .call (.flushNew _) _ => task.session.missed
  | .call (.commit _) _ => task.session.missed
  | .call (.storeResult _ _) _ => task.session.missed
  | _ => false

/-- The task needs its lock: it has taken it, and it has neither found a stored
answer nor stored its own. -/
def Task.exposed (task : Task) : Bool :=
  match task.prog with
  | .call (.getCachedResult _) _ => true
  | .call (.release _) _ => false
  | _ => task.session.missed

theorem Task.exposed_of_unsettled {task : Task} (h : task.unsettled = true) :
    task.exposed = true := by
  obtain ⟨job, prog, session, rows⟩ := task
  cases prog with
  | ret a => cases h
  | raise => cases h
  | call e k =>
      cases e with
      | flushNew row => exact h
      | commit writes => exact h
      | storeResult key entry => exact h
      | _ => cases h

theorem Task.exposed_new (job : Job) : (Task.new job).exposed = false := by
  cases job <;> rfl

/-- The key of the lock that a task takes. -/
def Job.lockKey : Job → Option LockKey
  | .seed _ => none
  | .reserve cmd => some (.sku cmd.sku)
  | .release cmd => some (.sku cmd.sku)
  | .charge cmd => some (.payment cmd.orderId)

/-- No answer to the command is stored. -/
def World.Unanswered (w : World) : Job → Prop
  | .charge cmd => w.chargeResults cmd.orderId = none
  | .reserve cmd => w.reservations cmd.orderId = none
  | _ => True

namespace Pool

/-- The actions of deliveries of one command; stored answers do not expire. -/
def Delivery (job : Job) : Action → Prop
  | .spawn job' => job' = job
  | .exec _ _ => True
  | .expire _ => True
  | .forget _ => False

/-- No state of the schedule has the effect of the command more than once. -/
def AtMostOnce (w : World) (locks : LockKey → Option ℕ) (job : Job) (actions : List Action) :
    Prop :=
  ∀ as s, as <+: actions → Schedule.run step (start w locks) as = some s →
    s.world.effects job ≤ w.effects job + 1

/-- No lock key expires while the delivery that holds it needs it. -/
def heldTillStored (s : Pool) : Action → Bool
  | .expire key => (s.locks key).all fun i => (s.tasks[i]?).all fun task =>
      !(decide (task.job.lockKey = some key) && task.exposed)
  | _ => true

theorem heldTillStored_expire {s : Pool} {key : LockKey} {i : ℕ} {task : Task}
    (h : s.heldTillStored (.expire key) = true) (hkey : s.locks key = some i)
    (hi : s.tasks[i]? = some task) (hjob : task.job.lockKey = some key) :
    task.exposed = false := by
  simpa only [heldTillStored, hkey, hi, hjob, Option.all_some, decide_true, Bool.true_and,
    Bool.not_eq_true'] using h

/-- What holds of deliveries of one command. -/
structure DeliveryInv (job : Job) (s : Pool) : Prop where
  rows : s.RowInv
  job : ∀ (i : ℕ) (task : Task), s.tasks[i]? = some task → task.job = job

theorem deliveryInv_start (job : Job) (w : World) (locks : LockKey → Option ℕ) :
    (start w locks).DeliveryInv job where
  rows := rowInv_start w locks
  job i task hi := by cases hi

theorem DeliveryInv.step {job : Job} {s s' : Pool} {a : Action} (h : s.DeliveryInv job)
    (ha : Delivery job a) (hstep : s.step a = some s') : s'.DeliveryInv job := by
  refine ⟨h.rows.step hstep, ?_⟩
  intro j t hj
  cases a with
  | spawn job' =>
      rcases getElem?_spawn hstep hj with hj | ⟨-, rfl⟩
      · exact h.job j t hj
      · exact ha
  | expire key =>
      cases hstep
      exact h.job j t hj
  | forget key => cases ha
  | exec i ω =>
      obtain ⟨task, b, p, c, hi, -, rfl, -, -⟩ := h.rows.step_exec hstep
      rcases getElem?_resume hi hj with ⟨rfl, rfl⟩ | ⟨-, hold⟩
      · exact h.job j task hi
      · exact h.job j t hold

/-! ## The lock -/

/-- What a call of a delivery does to its lock and to the stored answer: it takes
the lock, it goes on in need of it, it comes to its answer, or it has no need of
it. -/
inductive LockEffect (job : Job) (key : LockKey) (i : ℕ) (w w' : World)
    (locks locks' : LockKey → Option ℕ) (task task' : Task) : Prop
  | taken (hfree : locks key = none) (hkey : locks' key = some i)
      (hmissed : task'.session.missed = false)
  | working (hexposed : task.exposed = true) (hlocks : locks' = locks)
      (hfresh : (task.session.missed = true → w.Unanswered job) →
        task'.session.missed = true → w'.Unanswered job)
  | answered (hexposed : task.exposed = true) (hexposed' : task'.exposed = false)
  | aside (hexposed' : task'.exposed = false)
      (hkey : locks key ≠ some i → locks' key = locks key)
      (hanswer : w.Unanswered job → w'.Unanswered job)

theorem charge_lockEffect {cmd : ChargePayment} {i : ℕ} {w : World}
    {locks : LockKey → Option ℕ} {task : Task} {c : Context} {phase phase' : ChargePhase}
    (hprog : task.prog = phase.prog cmd) (hbefore : task.session = phase.session cmd)
    (hstep : ChargeStep cmd i ⟨w, locks, task.session, task.rows⟩ phase phase' c) :
    LockEffect (.charge cmd) (.payment cmd.orderId) i w c.world locks c.locks task
      { task with prog := phase'.prog cmd, session := c.session, rows := c.rows } := by
  have hexposed : ∀ b, (Task.mk task.job (phase.prog cmd) (phase.session cmd) task.rows).exposed
      = b → task.exposed = b := by
    intro b hb
    rw [← hb, Task.exposed, Task.exposed, hprog, hbefore]
  have hmissed : ∀ b, (phase.session cmd).missed = b → task.session.missed = b := by
    intro b hb
    rw [← hb, hbefore]
  cases hstep with
  | acquire h => exact .taken h (Function.update_self ..) (hmissed false rfl)
  | timeout => exact .aside (hmissed false rfl) (fun _ => rfl) id
  | hit cached h => exact .answered (hexposed true rfl) rfl
  | miss h => exact .working (hexposed true rfl) rfl fun _ _ => h
  | announce cached => exact .aside rfl (fun _ => rfl) id
  | charge result => exact .working (hexposed true rfl) rfl fun h _ => h (hmissed true rfl)
  | record result id => exact .working (hexposed true rfl) rfl fun h _ => h (hmissed true rfl)
  | commit result id u hwrite =>
      refine .working (hexposed true rfl) rfl fun h _ => ?_
      simp only [World.write, Option.ite_none_left_eq_some, Option.some.injEq] at hwrite
      rw [← hwrite.2]
      exact h (hmissed true rfl)
  | store result id => exact .answered (hexposed true rfl) rfl
  | leave => exact .aside rfl (fun hne => by rw [if_neg hne]) id

theorem reserve_lockEffect {cmd : ReserveInventory} {i : ℕ} {free : Sku → Bool} {w : World}
    {locks : LockKey → Option ℕ} {task : Task} {c : Context} {phase phase' : ReservePhase}
    (hprog : task.prog = phase.prog cmd) (hbefore : task.session = phase.session)
    (hfacts : ReserveFacts cmd (w.items cmd.sku) phase task.rows)
    (hstep : ReserveStep cmd i free ⟨w, locks, task.session, task.rows⟩ phase phase' c) :
    LockEffect (.reserve cmd) (.sku cmd.sku) i w c.world locks c.locks task
      { task with prog := phase'.prog cmd, session := c.session, rows := c.rows } := by
  have hexposed : ∀ b, (Task.mk task.job (phase.prog cmd) phase.session task.rows).exposed
      = b → task.exposed = b := by
    intro b hb
    rw [← hb, Task.exposed, Task.exposed, hprog, hbefore]
  have hmissed : ∀ b, phase.session.missed = b → task.session.missed = b := by
    intro b hb
    rw [← hb, hbefore]
  cases hstep with
  | acquire h => exact .taken h (Function.update_self ..) (hmissed false rfl)
  | timeout => exact .aside (hmissed false rfl) (fun _ => rfl) id
  | hit result h => exact .answered (hexposed true rfl) rfl
  | miss h => exact .working (hexposed true rfl) rfl fun _ _ => h
  | limit => exact .answered (hexposed true rfl) rfl
  | allowed => exact .working (hexposed true rfl) rfl fun h _ => h (hmissed true rfl)
  | unknown hfree h => exact .working (hexposed true rfl) rfl fun h _ => h (hmissed true rfl)
  | short item hfree h hqty =>
      exact .working (hexposed true rfl) rfl fun h _ => h (hmissed true rfl)
  | enough item hfree h hqty =>
      exact .working (hexposed true rfl) rfl fun h _ => h (hmissed true rfl)
  | flush item hfree => exact .working (hexposed true rfl) rfl fun h _ => h (hmissed true rfl)
  | store outcome txn => exact .answered (hexposed true rfl) rfl
  | leave result txn missed => exact .aside rfl (fun hne => by rw [if_neg hne]) id
  | commit result txn u hfree hwrite =>
      refine .aside rfl (fun _ => rfl) fun hnone => ?_
      cases hfacts with
      | committing result txn rows hdecision =>
          generalize task.rows = rows at hdecision
          cases hdecision with
          | aside result =>
              cases hwrite
              exact hnone
          | short item hitem hqty =>
              cases hwrite
              exact hnone
          | enough item hitem hqty =>
              obtain ⟨item', rfl, -, -⟩ := writeAll_reserveWrite hitem hwrite
              exact hnone

theorem lockEffect {job : Job} {key : LockKey} {i : ℕ} {free : Sku → Bool} {w : World}
    {locks : LockKey → Option ℕ} {task : Task} {c : Context} {b : Bool} {p : Handler Unit}
    (h : TaskStep i free w locks task c b p) (hjob : task.job = job)
    (hkey : job.lockKey = some key) (hrelease : ∀ cmd, job ≠ .release cmd) :
    LockEffect job key i w c.world locks c.locks task
      { task with prog := p, session := c.session, rows := c.rows } := by
  cases h with
  | seed req phase phase' _ hjob' =>
      cases hjob.symm.trans hjob'
      cases hkey
  | release cmd phase phase' _ hjob' =>
      exact absurd (hjob.symm.trans hjob') (hrelease cmd)
  | charge cmd phase phase' _ hjob' hprog hbefore hrows hsession hstep =>
      cases hjob.symm.trans hjob'
      cases hkey
      exact charge_lockEffect hprog hbefore hstep
  | reserve cmd phase phase' _ hjob' hprog hbefore hfacts hsession hstep =>
      cases hjob.symm.trans hjob'
      cases hkey
      exact reserve_lockEffect hprog hbefore hfacts hstep

/-- A delivery that needs its lock has it, and if it has found no answer there is
none. -/
structure Held (job : Job) (key : LockKey) (s : Pool) : Prop where
  holder : ∀ (i : ℕ) (task : Task), s.tasks[i]? = some task → task.exposed = true →
    s.locks key = some i
  fresh : ∀ (i : ℕ) (task : Task), s.tasks[i]? = some task → task.exposed = true →
    task.session.missed = true → s.world.Unanswered job

theorem held_start (job : Job) (key : LockKey) (w : World) (locks : LockKey → Option ℕ) :
    (start w locks).Held job key where
  holder i task hi := by cases hi
  fresh i task hi := by cases hi

/-- Two deliveries do not need the lock at the same time. -/
theorem Held.eq {job : Job} {key : LockKey} {s : Pool} (h : s.Held job key) {i j : ℕ}
    {task t : Task} (hi : s.tasks[i]? = some task) (hj : s.tasks[j]? = some t)
    (hexposed : task.exposed = true) (hexposed' : t.exposed = true) : i = j :=
  Option.some.inj ((h.holder i task hi hexposed).symm.trans (h.holder j t hj hexposed'))

theorem Held.resume {job : Job} {key : LockKey} {s : Pool} (h : s.Held job key) {i : ℕ}
    {task : Task} {b : Bool} {p : Handler Unit} {c : Context} (hi : s.tasks[i]? = some task)
    (heffect : LockEffect job key i s.world c.world s.locks c.locks task
      { task with prog := p, session := c.session, rows := c.rows }) :
    (s.resume i task b p c).Held job key := by
  cases heffect with
  | taken hfree hkey hmissed =>
      -- nobody else had the lock, so nobody else needs it
      have hnobody : ∀ (j : ℕ) (t : Task), s.tasks[j]? = some t → t.exposed ≠ true := by
        intro j t hj hexposed
        cases hfree.symm.trans (h.holder j t hj hexposed)
      constructor
      · intro j t hj hexposed
        rcases getElem?_resume hi hj with ⟨rfl, rfl⟩ | ⟨-, hold⟩
        · exact hkey
        · exact absurd hexposed (hnobody j t hold)
      · intro j t hj hexposed hmissed'
        rcases getElem?_resume hi hj with ⟨rfl, rfl⟩ | ⟨-, hold⟩
        · rw [hmissed] at hmissed'
          cases hmissed'
        · exact absurd hexposed (hnobody j t hold)
  | working hexposed hlocks hfresh =>
      have hlocked : c.locks key = some i := by
        rw [hlocks]
        exact h.holder i task hi hexposed
      constructor
      · intro j t hj hexposed'
        rcases getElem?_resume hi hj with ⟨rfl, rfl⟩ | ⟨hne, hold⟩
        · exact hlocked
        · exact absurd (h.eq hold hi hexposed' hexposed) hne
      · intro j t hj hexposed' hmissed
        rcases getElem?_resume hi hj with ⟨rfl, rfl⟩ | ⟨hne, hold⟩
        · exact hfresh (h.fresh j task hi hexposed) hmissed
        · exact absurd (h.eq hold hi hexposed' hexposed) hne
  | answered hexposed hexposed' =>
      have hnobody : ∀ (j : ℕ) (t : Task), (s.resume i task b p c).tasks[j]? = some t →
          t.exposed ≠ true := by
        intro j t hj hneeds
        rcases getElem?_resume hi hj with ⟨rfl, rfl⟩ | ⟨hne, hold⟩
        · rw [hexposed'] at hneeds
          cases hneeds
        · exact absurd (h.eq hold hi hneeds hexposed) hne
      exact ⟨fun j t hj hneeds => absurd hneeds (hnobody j t hj),
        fun j t hj hneeds => absurd hneeds (hnobody j t hj)⟩
  | aside hexposed' hkey hanswer =>
      constructor
      · intro j t hj hexposed
        rcases getElem?_resume hi hj with ⟨rfl, rfl⟩ | ⟨hne, hold⟩
        · rw [hexposed'] at hexposed
          cases hexposed
        · have hlocked := h.holder j t hold hexposed
          refine (hkey fun hmine => hne ?_).trans hlocked
          exact Option.some.inj (hlocked.symm.trans hmine)
      · intro j t hj hexposed hmissed
        rcases getElem?_resume hi hj with ⟨rfl, rfl⟩ | ⟨-, hold⟩
        · rw [hexposed'] at hexposed
          cases hexposed
        · exact hanswer (h.fresh j t hold hexposed hmissed)

theorem Held.step {job : Job} {key : LockKey} {s s' : Pool} {a : Action} (h : s.Held job key)
    (hdel : s.DeliveryInv job) (hkey : job.lockKey = some key)
    (hrelease : ∀ cmd, job ≠ .release cmd) (ha : Delivery job a)
    (hheld : s.heldTillStored a = true) (hstep : s.step a = some s') : s'.Held job key := by
  cases a with
  | spawn job' =>
      have hold : ∀ (j : ℕ) (t : Task), s'.tasks[j]? = some t → t.exposed = true →
          s.tasks[j]? = some t := by
        intro j t hj hexposed
        rcases getElem?_spawn hstep hj with hj | ⟨-, rfl⟩
        · exact hj
        · rw [Task.exposed_new] at hexposed
          cases hexposed
      cases hstep
      exact ⟨fun j t hj hexposed => h.holder j t (hold j t hj hexposed) hexposed,
        fun j t hj hexposed => h.fresh j t (hold j t hj hexposed) hexposed⟩
  | expire key' =>
      cases hstep
      refine ⟨?_, h.fresh⟩
      intro j t hj hexposed
      have hlocked := h.holder j t hj hexposed
      by_cases hsame : key' = key
      · subst hsame
        have hjob : t.job.lockKey = some key' := by rw [hdel.job j t hj, hkey]
        rw [heldTillStored_expire hheld hlocked hj hjob] at hexposed
        cases hexposed
      · exact (Function.update_of_ne (Ne.symm hsame) _ _).trans hlocked
  | forget key' => cases ha
  | exec i ω =>
      obtain ⟨task, b, p, c, hi, -, rfl, htask, -⟩ := hdel.rows.step_exec hstep
      exact h.resume hi (lockEffect htask (hdel.job i task hi) hkey hrelease)

/-! ## Charges -/

/-- What a call of a charge task does to what decides about its order: it calls
the gateway, it stores the answer, or neither. -/
inductive ChargeEffect (cmd : ChargePayment) (w w' : World) (task task' : Task) : Prop
  | called (k : GatewayResult → Handler Unit)
      (hprog : task.prog = .call (.charge cmd.orderId cmd.amountCents cmd.userId) k)
      (hexposed : task.exposed = true) (hmissed : task.session.missed = true)
      (heffects : w'.effects (.charge cmd) = w.effects (.charge cmd) + 1)
      (hunsettled : task'.unsettled = true)
  | stored (heffects : w'.effects (.charge cmd) = w.effects (.charge cmd))
      (hstored : w'.chargeResults cmd.orderId ≠ none)
  | neither (heffects : w'.effects (.charge cmd) = w.effects (.charge cmd))
      (hresults : w'.chargeResults = w.chargeResults)
      (hunsettled : task.unsettled = true → task'.unsettled = true)

theorem charge_effect {cmd : ChargePayment} {i : ℕ} {w : World} {locks : LockKey → Option ℕ}
    {task : Task} {c : Context} {phase phase' : ChargePhase} (hprog : task.prog = phase.prog cmd)
    (hbefore : task.session = phase.session cmd)
    (hstep : ChargeStep cmd i ⟨w, locks, task.session, task.rows⟩ phase phase' c) :
    ChargeEffect cmd w c.world task
      { task with prog := phase'.prog cmd, session := c.session, rows := c.rows } := by
  have hsettled : ∀ b, (Task.mk task.job (phase.prog cmd) (phase.session cmd) task.rows).unsettled
      = b → task.unsettled = b := by
    intro b hb
    rw [← hb, Task.unsettled, Task.unsettled, hprog, hbefore]
  cases hstep with
  | acquire h => exact .neither rfl rfl fun hu => by cases (hsettled false rfl).symm.trans hu
  | timeout => exact .neither rfl rfl fun hu => by cases (hsettled false rfl).symm.trans hu
  | hit cached h => exact .neither rfl rfl fun hu => by cases (hsettled false rfl).symm.trans hu
  | miss h => exact .neither rfl rfl fun hu => by cases (hsettled false rfl).symm.trans hu
  | announce cached =>
      exact .neither rfl rfl fun hu => by cases (hsettled false rfl).symm.trans hu
  | charge result =>
      refine .called _ hprog ?_ ?_ ?_ ?_
      · rw [Task.exposed, hprog, hbefore]
        rfl
      · rw [hbefore]
        rfl
      · simp [World.effects, World.chargesOf, World.charged]
      · rw [Task.unsettled, hbefore]
        rfl
  | record result id => exact .neither rfl rfl fun _ => rfl
  | commit result id u hwrite =>
      simp only [World.write, Option.ite_none_left_eq_some, Option.some.injEq] at hwrite
      refine .neither ?_ ?_ fun _ => rfl
      · rw [← hwrite.2]
        rfl
      · rw [← hwrite.2]
        rfl
  | store result id =>
      refine .stored rfl ?_
      simp
  | leave => exact .neither rfl rfl fun hu => by cases (hsettled false rfl).symm.trans hu

/-- A charge that was made is stored, or a delivery has yet to store it. -/
structure ChargeInv (w : World) (cmd : ChargePayment) (s : Pool) : Prop where
  once : s.world.effects (.charge cmd) ≤ w.effects (.charge cmd) + 1
  settled : w.effects (.charge cmd) < s.world.effects (.charge cmd) →
    s.world.chargeResults cmd.orderId ≠ none ∨
      ∃ (j : ℕ) (t : Task), s.tasks[j]? = some t ∧ t.unsettled = true

theorem ChargeInv.resume {w : World} {cmd : ChargePayment} {s : Pool} {i : ℕ} {task : Task}
    {b : Bool} {p : Handler Unit} {c : Context} (h : ChargeInv w cmd s)
    (hheld : s.Held (.charge cmd) (.payment cmd.orderId)) (hi : s.tasks[i]? = some task)
    (heffect : ChargeEffect cmd s.world c.world task
      { task with prog := p, session := c.session, rows := c.rows }) :
    ChargeInv w cmd (s.resume i task b p c) := by
  have hself := getElem?_resume_self (b := b) (p := p) (c := c) hi
  cases heffect with
  | called k hcall hexposed hmissed heffects hunsettled =>
      have hfirst : s.world.effects (.charge cmd) ≤ w.effects (.charge cmd) := by
        by_contra hmore
        rcases h.settled (Nat.lt_of_not_le hmore) with hstored | ⟨j, t, hj, hunsettled'⟩
        · exact hstored (hheld.fresh i task hi hexposed hmissed)
        · -- the delivery that has called the gateway still has the lock
          obtain rfl := hheld.eq hj hi (Task.exposed_of_unsettled hunsettled') hexposed
          cases hi.symm.trans hj
          rw [Task.unsettled, hcall] at hunsettled'
          cases hunsettled'
      refine ⟨?_, fun _ => Or.inr ⟨i, _, hself, hunsettled⟩⟩
      show c.world.effects (.charge cmd) ≤ _
      rw [heffects]
      exact Nat.add_le_add_right hfirst 1
  | stored heffects hstored =>
      refine ⟨?_, fun _ => Or.inl hstored⟩
      show c.world.effects (.charge cmd) ≤ _
      rw [heffects]
      exact h.once
  | neither heffects hresults hunsettled =>
      refine ⟨?_, fun hmore => ?_⟩
      · show c.world.effects (.charge cmd) ≤ _
        rw [heffects]
        exact h.once
      · have hmore' : w.effects (.charge cmd) < c.world.effects (.charge cmd) := hmore
        rw [heffects] at hmore'
        rcases h.settled hmore' with hstored | ⟨j, t, hj, hunsettled'⟩
        · refine Or.inl ?_
          show c.world.chargeResults cmd.orderId ≠ none
          rw [hresults]
          exact hstored
        · by_cases hne : j = i
          · subst hne
            rw [hi] at hj
            cases hj
            exact Or.inr ⟨j, _, hself, hunsettled hunsettled'⟩
          · exact Or.inr ⟨j, t, (getElem?_resume_ne hne).trans hj, hunsettled'⟩

theorem ChargeInv.step {w : World} {cmd : ChargePayment} {s s' : Pool} {a : Action}
    (h : ChargeInv w cmd s) (hdel : s.DeliveryInv (.charge cmd))
    (hheld : s.Held (.charge cmd) (.payment cmd.orderId)) (ha : Delivery (.charge cmd) a)
    (hstep : s.step a = some s') : ChargeInv w cmd s' := by
  cases a with
  | spawn job =>
      have hsame := world_spawn hstep
      refine ⟨?_, ?_⟩
      · rw [hsame]
        exact h.once
      · intro hmore
        rw [hsame] at hmore ⊢
        rcases h.settled hmore with hstored | ⟨j, t, hj, hunsettled⟩
        · exact Or.inl hstored
        · exact Or.inr ⟨j, t, getElem?_spawn_old hstep hj, hunsettled⟩
  | expire key =>
      cases hstep
      exact ⟨h.once, h.settled⟩
  | forget key => cases ha
  | exec i ω =>
      obtain ⟨task, b, p, c, hi, hwaiting, rfl, htask, -⟩ := hdel.rows.step_exec hstep
      have hjob := hdel.job i task hi
      cases htask with
      | seed req phase phase' _ hjob' => cases hjob.symm.trans hjob'
      | reserve cmd phase phase' _ hjob' => cases hjob.symm.trans hjob'
      | release cmd phase phase' _ hjob' => cases hjob.symm.trans hjob'
      | charge cmd' phase phase' _ hjob' hprog hbefore hrows hsession hstep' =>
          cases hjob.symm.trans hjob'
          exact h.resume hheld hi (charge_effect hprog hbefore hstep')

/-! ## Reservations -/

/-- What a call of a reservation task does to what decides about its order: it
flushes its move, it stores the answer, it commits its move, or none of these. -/
inductive MoveEffect (cmd : ReserveInventory) (w w' : World) (task task' : Task) : Prop
  | flushed (hexposed : task.exposed = true) (hmissed : task.session.missed = true)
      (heffects : w'.effects (.reserve cmd) = w.effects (.reserve cmd))
      (hanswers : w'.reservations = w.reservations) (hunsettled : task'.unsettled = true)
  | stored (heffects : w'.effects (.reserve cmd) = w.effects (.reserve cmd))
      (hstored : w'.reservations cmd.orderId ≠ none)
      (htxn : task'.session.txn = task.session.txn)
  | moved (htxn : task.session.txn ≠ []) (hsettled : task.unsettled = false)
      (heffects : w'.effects (.reserve cmd) = w.effects (.reserve cmd) + 1)
      (hanswers : w'.reservations = w.reservations) (htxn' : task'.session.txn = [])
  | neither (heffects : w'.effects (.reserve cmd) = w.effects (.reserve cmd))
      (hanswers : w'.reservations = w.reservations)
      (htxn : task'.session.txn ≠ [] → task.session.txn ≠ [] ∧ task.unsettled = false)

theorem move_effect {cmd : ReserveInventory} {i : ℕ} {free : Sku → Bool} {w : World}
    {locks : LockKey → Option ℕ} {task : Task} {c : Context} {phase phase' : ReservePhase}
    (hprog : task.prog = phase.prog cmd) (hbefore : task.session = phase.session)
    (hfacts : ReserveFacts cmd (w.items cmd.sku) phase task.rows)
    (hstep : ReserveStep cmd i free ⟨w, locks, task.session, task.rows⟩ phase phase' c) :
    MoveEffect cmd w c.world task
      { task with prog := phase'.prog cmd, session := c.session, rows := c.rows } := by
  have hnone : task.session.txn = [] → ∀ {p : Prop}, task.session.txn ≠ [] → p :=
    fun hnil _ hne => absurd hnil hne
  cases hstep with
  | acquire h => exact .neither rfl rfl (hnone (by rw [hbefore]; rfl))
  | timeout => exact .neither rfl rfl (hnone (by rw [hbefore]; rfl))
  | hit result h => exact .neither rfl rfl fun hne => absurd rfl hne
  | miss h => exact .neither rfl rfl fun hne => absurd rfl hne
  | limit => exact .neither rfl rfl (hnone (by rw [hbefore]; rfl))
  | allowed => exact .neither rfl rfl (hnone (by rw [hbefore]; rfl))
  | unknown hfree h => exact .neither rfl rfl (hnone (by rw [hbefore]; rfl))
  | short item hfree h hqty => exact .neither rfl rfl (hnone (by rw [hbefore]; rfl))
  | enough item hfree h hqty => exact .neither rfl rfl (hnone (by rw [hbefore]; rfl))
  | flush item hfree =>
      refine .flushed ?_ ?_ rfl rfl rfl
      · rw [Task.exposed, hprog, hbefore]
        rfl
      · rw [hbefore]
        rfl
  | store outcome txn =>
      refine .stored rfl ?_ ?_
      · simp
      · rw [hbefore]
        rfl
  | leave result txn missed =>
      refine .neither rfl rfl fun hne => ⟨?_, ?_⟩
      · rw [hbefore]
        exact hne
      · rw [Task.unsettled, hprog]
        rfl
  | commit result txn u hfree hwrite =>
      cases hfacts with
      | committing result txn rows hdecision =>
          generalize task.rows = rows at hdecision
          cases hdecision with
          | aside result =>
              cases hwrite
              exact .neither rfl rfl fun hne => absurd rfl hne
          | short item hitem hqty =>
              cases hwrite
              exact .neither rfl rfl fun hne => absurd rfl hne
          | enough item hitem hqty =>
              obtain ⟨item', rfl, -, -⟩ := writeAll_reserveWrite hitem hwrite
              refine .moved ?_ ?_ ?_ rfl rfl
              · rw [hbefore]
                exact List.cons_ne_nil _ _
              · rw [Task.unsettled, hprog, hbefore]
                rfl
              · simp [World.effects, World.movesOf]

/-- A move that was committed is stored, and while a move is pending none was. -/
structure MoveInv (w : World) (cmd : ReserveInventory) (s : Pool) : Prop where
  once : s.world.effects (.reserve cmd) ≤ w.effects (.reserve cmd) + 1
  stored : w.effects (.reserve cmd) < s.world.effects (.reserve cmd) →
    s.world.reservations cmd.orderId ≠ none
  pending : ∀ (j : ℕ) (t : Task), s.tasks[j]? = some t → t.session.txn ≠ [] →
    s.world.effects (.reserve cmd) ≤ w.effects (.reserve cmd) ∧
      (t.unsettled = false → s.world.reservations cmd.orderId ≠ none)

theorem MoveInv.resume {w : World} {cmd : ReserveInventory} {s : Pool} {i : ℕ} {task : Task}
    {b : Bool} {p : Handler Unit} {c : Context} (h : MoveInv w cmd s)
    (hdel : s.DeliveryInv (.reserve cmd)) (hheld : s.Held (.reserve cmd) (.sku cmd.sku))
    (hi : s.tasks[i]? = some task)
    (heffect : MoveEffect cmd s.world c.world task
      { task with prog := p, session := c.session, rows := c.rows }) :
    MoveInv w cmd (s.resume i task b p c) := by
  cases heffect with
  | flushed hexposed hmissed heffects hanswers hunsettled =>
      have hnone : s.world.reservations cmd.orderId = none :=
        hheld.fresh i task hi hexposed hmissed
      have hfirst : s.world.effects (.reserve cmd) ≤ w.effects (.reserve cmd) := by
        by_contra hmore
        exact h.stored (Nat.lt_of_not_le hmore) hnone
      rw [← heffects] at hfirst
      refine ⟨Nat.le_succ_of_le hfirst, fun hmore => absurd hfirst (Nat.not_le.2 hmore), ?_⟩
      intro j t hj htxn
      refine ⟨hfirst, ?_⟩
      rcases getElem?_resume hi hj with ⟨rfl, rfl⟩ | ⟨-, hold⟩
      · intro hsettled
        rw [hunsettled] at hsettled
        cases hsettled
      · intro hsettled
        exact absurd hnone ((h.pending j t hold htxn).2 hsettled)
  | stored heffects hstored htxn =>
      refine ⟨heffects ▸ h.once, fun _ => hstored, ?_⟩
      intro j t hj htxn'
      refine ⟨?_, fun _ => hstored⟩
      show c.world.effects (.reserve cmd) ≤ _
      rw [heffects]
      rcases getElem?_resume hi hj with ⟨rfl, rfl⟩ | ⟨-, hold⟩
      · rw [htxn] at htxn'
        exact (h.pending j task hi htxn').1
      · exact (h.pending j t hold htxn').1
  | moved htxn hsettled heffects hanswers htxn' =>
      obtain ⟨hfirst, hstored⟩ := h.pending i task hi htxn
      have hstored' : c.world.reservations cmd.orderId ≠ none := by
        rw [hanswers]
        exact hstored hsettled
      refine ⟨?_, fun _ => hstored', ?_⟩
      · show c.world.effects (.reserve cmd) ≤ _
        rw [heffects]
        exact Nat.add_le_add_right hfirst 1
      · intro j t hj hpending
        rcases getElem?_resume hi hj with ⟨rfl, rfl⟩ | ⟨hne, hold⟩
        · exact absurd htxn' hpending
        · -- both would have the row locked
          have hlocked := (hdel.rows.facts i task hi).locked (hdel.job i task hi) htxn
          have hlocked' :=
            (hdel.rows.facts j t hold).locked (hdel.job j t hold) hpending
          exact absurd (hdel.rows.exclusive j i t task _ hold hi hlocked' hlocked) hne
  | neither heffects hanswers htxn =>
      refine ⟨heffects ▸ h.once, ?_, ?_⟩
      · intro hmore
        have hmore' : w.effects (.reserve cmd) < c.world.effects (.reserve cmd) := hmore
        rw [heffects] at hmore'
        show c.world.reservations cmd.orderId ≠ none
        rw [hanswers]
        exact h.stored hmore'
      · intro j t hj hpending
        show c.world.effects (.reserve cmd) ≤ _ ∧
          (_ → c.world.reservations cmd.orderId ≠ none)
        rw [heffects, hanswers]
        rcases getElem?_resume hi hj with ⟨rfl, rfl⟩ | ⟨-, hold⟩
        · obtain ⟨hbefore', hsettled⟩ := htxn hpending
          obtain ⟨hfirst, hstored⟩ := h.pending j task hi hbefore'
          exact ⟨hfirst, fun _ => hstored hsettled⟩
        · exact h.pending j t hold hpending

theorem MoveInv.step {w : World} {cmd : ReserveInventory} {s s' : Pool} {a : Action}
    (h : MoveInv w cmd s) (hdel : s.DeliveryInv (.reserve cmd))
    (hheld : s.Held (.reserve cmd) (.sku cmd.sku)) (ha : Delivery (.reserve cmd) a)
    (hstep : s.step a = some s') : MoveInv w cmd s' := by
  cases a with
  | spawn job =>
      have hsame := world_spawn hstep
      refine ⟨?_, ?_, ?_⟩
      · rw [hsame]
        exact h.once
      · rw [hsame]
        exact h.stored
      · rw [hsame]
        intro j t hj htxn
        rcases getElem?_spawn hstep hj with hj | ⟨-, rfl⟩
        · exact h.pending j t hj htxn
        · exact absurd rfl htxn
  | expire key =>
      cases hstep
      exact ⟨h.once, h.stored, h.pending⟩
  | forget key => cases ha
  | exec i ω =>
      obtain ⟨task, b, p, c, hi, hwaiting, rfl, htask, -⟩ := hdel.rows.step_exec hstep
      have hjob := hdel.job i task hi
      cases htask with
      | seed req phase phase' _ hjob' => cases hjob.symm.trans hjob'
      | release cmd phase phase' _ hjob' => cases hjob.symm.trans hjob'
      | charge cmd phase phase' _ hjob' => cases hjob.symm.trans hjob'
      | reserve cmd' phase phase' _ hjob' hprog hbefore hfacts hsession hstep' =>
          cases hjob.symm.trans hjob'
          exact h.resume hdel hheld hi (move_effect hprog hbefore hfacts hstep')

/-! ## At most one effect -/

/-- What the deliveries keep as long as the lock is held by the one that needs it. -/
theorem invariant_of_held {w : World} {locks : LockKey → Option ℕ} {job : Job} {key : LockKey}
    {actions : List Action} {s : Pool} {I : Pool → Prop} (hkey : job.lockKey = some key)
    (hrelease : ∀ cmd, job ≠ .release cmd) (hstart : I (start w locks))
    (hkeep : ∀ s a s', s.DeliveryInv job → s.Held job key → I s → Delivery job a →
      s.step a = some s' → I s')
    (halong : Schedule.Along step (fun s a => Delivery job a ∧ s.heldTillStored a = true)
      (start w locks) actions)
    (hrun : Schedule.run step (start w locks) actions = some s) : I s := by
  have hinv : s.DeliveryInv job ∧ s.Held job key ∧ I s := by
    refine Schedule.run_preserves (I := fun s => s.DeliveryInv job ∧ s.Held job key ∧ I s) ?_
      ⟨deliveryInv_start job w locks, held_start job key w locks, hstart⟩ halong hrun
    intro t a t' ⟨hdel, hheld, hkept⟩ ha hstep
    exact ⟨hdel.step ha.1 hstep, hheld.step hdel hkey hrelease ha.1 ha.2 hstep,
      hkeep t a t' hdel hheld hkept ha.1 hstep⟩
  exact hinv.2.2

/-- When no key expires while the delivery that holds it needs it, the command
has its effect at most once. -/
theorem atMostOnce_of_held {w : World} {locks : LockKey → Option ℕ} {job : Job}
    {actions : List Action} (hdel : ∀ a ∈ actions, Delivery job a)
    (hheld : Schedule.Along step (fun s a => s.heldTillStored a = true) (start w locks)
      actions) : AtMostOnce w locks job actions := by
  rintro as s ⟨bs, rfl⟩ hrun
  have hdel' : Schedule.Along step (fun _ a => Delivery job a) (start w locks) as :=
    Schedule.along_of_forall fun a ha _ => hdel a (List.mem_append_left _ ha)
  have hboth := hdel'.and hheld.of_append
  cases job with
  | seed req => exact Nat.le_succ 0
  | release cmd => exact Nat.le_succ 0
  | charge cmd =>
      have hkey : (Job.charge cmd).lockKey = some (.payment cmd.orderId) := rfl
      have hstart : ChargeInv w cmd (start w locks) :=
        ⟨Nat.le_succ _, fun hmore => absurd hmore (Nat.lt_irrefl _)⟩
      have hinv : ChargeInv w cmd s :=
        invariant_of_held hkey (fun _ => nofun) hstart
          (fun _ _ _ hd hh hc ha hstep => hc.step hd hh ha hstep) hboth hrun
      exact hinv.once
  | reserve cmd =>
      have hkey : (Job.reserve cmd).lockKey = some (.sku cmd.sku) := rfl
      have hstart : MoveInv w cmd (start w locks) :=
        ⟨Nat.le_succ _, fun hmore => absurd hmore (Nat.lt_irrefl _), fun j t hj => by cases hj⟩
      have hinv : MoveInv w cmd s :=
        invariant_of_held hkey (fun _ => nofun) hstart
          (fun _ _ _ hd hh hm ha hstep => hm.step hd hh ha hstep) hboth hrun
      exact hinv.once

/-- A lock that is granted, a token, and a gateway that accepts. -/
def accepting : Answers := ⟨true, true, ⟨true, "ref-1", none⟩, "payment-1"⟩

/-- The lock of the first charge expires when it has stored its answer; the second
one takes it, and the first one leaves it alone on its way out. -/
theorem atMostOnce_expiredLate :
    AtMostOnce World.empty (fun _ => none) (.charge ⟨"order-1", "user-1", 100⟩)
      [.spawn (.charge ⟨"order-1", "user-1", 100⟩), .spawn (.charge ⟨"order-1", "user-1", 100⟩),
        .exec 0 accepting, .exec 0 accepting, .exec 0 accepting, .exec 0 accepting,
        .exec 0 accepting, .exec 0 accepting, .expire (.payment "order-1"), .exec 1 accepting,
        .exec 0 accepting, .exec 1 accepting, .exec 1 accepting, .exec 1 accepting] := by
  refine atMostOnce_of_held ?_ ?_
  · simp [Delivery]
  · decide +kernel

theorem not_atMostOnce_of_effects {w : World} {locks : LockKey → Option ℕ} {job : Job}
    {actions : List Action} {n : ℕ}
    (hrun : (Schedule.run step (start w locks) actions).map (fun s => s.world.effects job) =
      some n) (hn : w.effects job + 1 < n) : ¬ AtMostOnce w locks job actions := by
  obtain ⟨s, hs, rfl⟩ := Option.map_eq_some_iff.1 hrun
  intro honce
  exact absurd (honce actions s (List.prefix_refl _) hs) (Nat.not_le.2 hn)

/-- The lock of the first charge expires after it has found no stored answer, and
the second one finds none either. -/
def expiredCharge (job : Job) : List Action :=
  [.spawn job, .spawn job, .exec 0 accepting, .exec 0 accepting, .expire (.payment "order-1"),
    .exec 1 accepting, .exec 1 accepting, .exec 0 accepting, .exec 1 accepting]

/-- The same for two reservations, the first of which goes on when the second one
has committed. -/
def expiredReserve (job : Job) : List Action :=
  [.spawn job, .spawn job, .exec 0 accepting, .exec 0 accepting, .expire (.sku "sku-1")] ++
    List.replicate 8 (.exec 1 accepting) ++ List.replicate 6 (.exec 0 accepting)

/-- With an expired lock both deliveries call the gateway, or both move stock. -/
theorem not_atMostOnce_expiredLock :
    (∀ a ∈ expiredCharge (.charge ⟨"order-1", "user-1", 100⟩),
      Delivery (.charge ⟨"order-1", "user-1", 100⟩) a) ∧
    ¬ AtMostOnce World.empty (fun _ => none) (.charge ⟨"order-1", "user-1", 100⟩)
        (expiredCharge (.charge ⟨"order-1", "user-1", 100⟩)) ∧
    (∀ a ∈ expiredReserve (.reserve ⟨"order-1", "sku-1", 1⟩),
      Delivery (.reserve ⟨"order-1", "sku-1", 1⟩) a) ∧
    ¬ AtMostOnce { World.empty with items := fun _ => some ⟨2, 0, by decide, by decide⟩ }
        (fun _ => none) (.reserve ⟨"order-1", "sku-1", 1⟩)
        (expiredReserve (.reserve ⟨"order-1", "sku-1", 1⟩)) := by
  refine ⟨?_, not_atMostOnce_of_effects (n := 2) ?_ ?_, ?_,
    not_atMostOnce_of_effects (n := 2) ?_ ?_⟩
  · simp [expiredCharge, Delivery]
  · decide +kernel
  · decide
  · simp [expiredReserve, Delivery]
  · decide +kernel
  · decide

end Pool

end FlashSale
