import FlashSale.Concurrency.Verdicts

/-!
# Workloads of stock commands

A workload is a number of reservations and releases of distinct orders without a
stored answer. `WorkInv` holds of its tasks at any time, and `WorkStep` is all
that a step of a workload can do to the rows and to the outbox.
-/

namespace FlashSale

open InventoryService

namespace World

theorem since_of_emitted {w u v : World} {message : Message} (hext : w.emitted <+: u.emitted)
    (h : v.emitted = u.emitted ++ [message]) : w.since v = w.since u ++ [message] := by
  rw [since, since, h, List.drop_append_of_le_length hext.length_le]

end World

/-- Deliveries of stock commands for distinct orders without a stored answer,
about rows that exist. -/
structure Workload (w : World) (jobs : List Job) : Prop where
  movesStock : ∀ job ∈ jobs, job.movesStock = true
  distinct : jobs.Pairwise fun a b => a.orderId ≠ b.orderId
  uncached : ∀ job ∈ jobs, w.Uncached job
  row : ∀ job ∈ jobs, ∀ sku, job.sku = some sku → w.items sku ≠ none

namespace Pool

/-- The jobs that reached the database, in the order of their commits. -/
def servedJobs (s : Pool) : List Job :=
  s.served.filterMap fun i => s.tasks[i]?.map Task.job

theorem mem_servedJobs {s : Pool} {job : Job} :
    job ∈ s.servedJobs ↔ ∃ i ∈ s.served, ∃ task, s.tasks[i]? = some task ∧ task.job = job := by
  simp [servedJobs, List.mem_filterMap]

theorem jobs_resume {s : Pool} {i : ℕ} {task : Task} {b : Bool} {p : Handler Unit} {c : Context}
    (hi : s.tasks[i]? = some task) : (s.resume i task b p c).jobs = s.jobs := by
  refine List.ext_getElem? fun j => ?_
  rw [jobs, jobs, List.getElem?_map, List.getElem?_map]
  by_cases hij : j = i
  · subst hij
    rw [getElem?_resume_self hi, hi]
    rfl
  · rw [getElem?_resume_ne hij]

/-- Jobs are only added. -/
theorem jobs_step {s s' : Pool} {a : Action} (h : s.step a = some s') : s.jobs <+: s'.jobs := by
  cases a with
  | spawn job =>
      cases h
      exact ⟨[job], by simp [jobs, Task.new]⟩
  | expire key =>
      cases h
      exact List.prefix_refl _
  | forget key =>
      cases h
      exact List.prefix_refl _
  | exec i ω =>
      obtain ⟨task, e, k, r, c, hi, -, -, rfl⟩ := step_exec h
      exact (jobs_resume hi).symm ▸ List.prefix_refl _

theorem servedJobs_eq (s : Pool) : s.servedJobs = s.served.filterMap fun i => s.jobs[i]? := by
  simp [servedJobs, jobs]

/-- The served jobs after a step of the task `i`. -/
theorem servedJobs_resume {s : Pool} {i : ℕ} {task : Task} {b : Bool} {p : Handler Unit}
    {c : Context} (hi : s.tasks[i]? = some task) :
    (s.resume i task b p c).servedJobs =
      if b && !task.rows.isEmpty then s.servedJobs ++ [task.job] else s.servedJobs := by
  rw [servedJobs_eq, jobs_resume hi, servedJobs_eq]
  show (if b && !task.rows.isEmpty then s.served ++ [i] else s.served).filterMap _ = _
  split
  · rw [List.filterMap_append]
    simp [jobs, hi]
  · rfl

end Pool

theorem Workload.of_jobs {w : World} {jobs jobs' : List Job} (h : Workload w jobs')
    (hjobs : jobs <+: jobs') : Workload w jobs where
  movesStock job hjob := h.movesStock job (hjobs.subset hjob)
  distinct := h.distinct.sublist hjobs.sublist
  uncached job hjob := h.uncached job (hjobs.subset hjob)
  row job hjob := h.row job (hjobs.subset hjob)

/-- The tasks of a workload are for distinct orders. -/
theorem Workload.index_eq {w : World} {s : Pool} (h : Workload w s.jobs) {i j : ℕ}
    {t t' : Task} (hi : s.tasks[i]? = some t) (hj : s.tasks[j]? = some t')
    (hid : t.job.orderId = t'.job.orderId) : i = j := by
  have hlt : ∀ {i j : ℕ} {t t' : Task}, s.tasks[i]? = some t → s.tasks[j]? = some t' →
      t.job.orderId = t'.job.orderId → ¬ i < j := by
    intro i j t t' hi hj hid hij
    obtain ⟨hi', rfl⟩ := List.getElem?_eq_some_iff.1 hi
    obtain ⟨hj', rfl⟩ := List.getElem?_eq_some_iff.1 hj
    have hne := List.pairwise_iff_getElem.1 h.distinct i j (by simpa [Pool.jobs] using hi')
      (by simpa [Pool.jobs] using hj') hij
    simp only [Pool.jobs, List.getElem_map] at hne
    exact hne hid
  rcases Nat.lt_trichotomy i j with hij | hij | hij
  · exact absurd hij (hlt hi hj hid)
  · exact hij
  · exact absurd hij (hlt hj hi hid.symm)

namespace Pool

/-- What holds of the tasks of a workload. -/
structure WorkInv (w : World) (s : Pool) : Prop where
  rows : s.RowInv
  /-- An order whose tasks have not looked has no stored answer. -/
  uncached : ∀ job, w.Uncached job →
    (∀ (i : ℕ) (task : Task), s.tasks[i]? = some task → task.job.orderId = job.orderId →
      task.prog.unchecked = true) → s.world.Uncached job
  /-- Without the row the only verdict is to be turned away. -/
  aside : ∀ (i : ℕ) (task : Task) (message : Message), s.tasks[i]? = some task →
    task.rows = [] → task.prog.decided = some message → task.job.TurnedAway message
  kept : ∀ sku, w.items sku ≠ none → s.world.items sku ≠ none
  served : ∀ i ∈ s.served, ∃ task, s.tasks[i]? = some task ∧ task.prog.waiting = false
  emitted : w.emitted <+: s.world.emitted
  /-- A verdict is the end of its task. -/
  verdict : ∀ message ∈ w.since s.world, ∃ (i : ℕ) (task : Task), s.tasks[i]? = some task ∧
    task.prog.waiting = false ∧ task.job.orderId = some message.orderId

/-- A step of a workload as its verdicts and its rows show it. -/
inductive WorkStep (w : World) (s s' : Pool) : Prop
  | quiet (hitems : s'.world.items = s.world.items) (houtbox : s'.world.outbox = s.world.outbox)
      (hserved : s'.servedJobs = s.servedJobs)
  | aside (job : Job) (message : Message) (hworld : s'.world = s.world.emit .inventory message)
      (hjob : job.orderId = some message.orderId) (haway : job.TurnedAway message)
      (hnew : ∀ job' ∈ s.servedJobs, job'.orderId ≠ job.orderId)
      (hserved : s'.servedJobs = s.servedJobs)
  | commit (task : Task) (hstep : CommitStep s.world task s'.world) (hrows : task.rows ≠ [])
      (huncached : w.Uncached task.job)
      (hnew : ∀ job' ∈ s.servedJobs, job'.orderId ≠ task.job.orderId)
      (hsilent : ∀ message ∈ w.since s.world, task.job.orderId ≠ some message.orderId)
      (hserved : s'.servedJobs = s.servedJobs ++ [task.job])

theorem workInv_start (w : World) (locks : LockKey → Option ℕ) : WorkInv w (start w locks) where
  rows := rowInv_start w locks
  uncached job h _ := h
  aside i task message hi := by cases hi
  kept sku h := h
  served i hi := by cases hi
  emitted := List.prefix_refl _
  verdict message hmessage := by
    rw [World.since, show (start w locks).world = w from rfl, List.drop_length] at hmessage
    cases hmessage

/-- A task takes the next step of its job, a stock command of the workload. -/
theorem WorkInv.exec {w : World} {s s' : Pool} {i : ℕ} {ω : Answers} (h : WorkInv w s)
    (hwork : Workload w s.jobs) (hstep : s.step (.exec i ω) = some s') :
    ∃ task commits p c, s.tasks[i]? = some task ∧ task.prog.waiting = true ∧
      s' = s.resume i task commits p c ∧
      ((commits = false ∧ QuietStep s.world task p c) ∨
        (commits = true ∧ p = .ret () ∧ CommitStep s.world task c.world)) := by
  obtain ⟨task, commits, p, c, hi, hwaiting, hs', htask, -⟩ := h.rows.step_exec hstep
  have hmem : task.job ∈ s.jobs := List.mem_map.2 ⟨task, List.mem_of_getElem? hi, rfl⟩
  refine ⟨task, commits, p, c, hi, hwaiting, hs',
    htask.quiet_or_commit (hwork.movesStock _ hmem) ?_ ?_⟩
  · intro hunchecked
    refine h.uncached task.job (hwork.uncached _ hmem) ?_
    intro j t hj hid
    obtain rfl : j = i := hwork.index_eq hj hi hid
    rw [hi] at hj
    cases hj
    exact hunchecked
  · intro sku hsku
    exact h.kept sku (hwork.row _ hmem sku hsku)

/-- A served job is through, so a waiting task is for another order. -/
theorem WorkInv.served_ne {w : World} {s : Pool} {i : ℕ} {task : Task} (h : WorkInv w s)
    (hwork : Workload w s.jobs) (hi : s.tasks[i]? = some task)
    (hwaiting : task.prog.waiting = true) :
    ∀ job ∈ s.servedJobs, job.orderId ≠ task.job.orderId := by
  intro job hjob hid
  obtain ⟨j, hj, t, ht, rfl⟩ := mem_servedJobs.1 hjob
  obtain ⟨t', ht', hdone⟩ := h.served j hj
  obtain rfl : j = i := hwork.index_eq ht hi hid
  rw [hi] at ht'
  cases ht'
  rw [hwaiting] at hdone
  cases hdone

/-- A waiting task has no verdict yet. -/
theorem WorkInv.silent {w : World} {s : Pool} {i : ℕ} {task : Task} (h : WorkInv w s)
    (hwork : Workload w s.jobs) (hi : s.tasks[i]? = some task)
    (hwaiting : task.prog.waiting = true) :
    ∀ message ∈ w.since s.world, task.job.orderId ≠ some message.orderId := by
  intro message hmessage hid
  obtain ⟨j, t, hj, hdone, hid'⟩ := h.verdict message hmessage
  obtain rfl : j = i := hwork.index_eq hj hi (hid'.trans hid.symm)
  rw [hi] at hj
  cases hj
  rw [hwaiting] at hdone
  cases hdone

/-- What a step of a workload is. -/
theorem WorkInv.workStep {w : World} {s s' : Pool} {a : Action} (h : WorkInv w s)
    (hwork : Workload w s.jobs) (hstep : s.step a = some s') : WorkStep w s s' := by
  cases a with
  | spawn job =>
      cases hstep
      refine .quiet rfl rfl (List.filterMap_congr fun i hi => ?_)
      obtain ⟨task, htask, -⟩ := h.served i hi
      exact congrArg _ (List.getElem?_append_left (List.getElem?_eq_some_iff.1 htask).1)
  | expire key =>
      cases hstep
      exact .quiet rfl rfl rfl
  | forget key =>
      cases hstep
      refine .quiet ?_ ?_ rfl
      · cases key <;> rfl
      · cases key <;> rfl
  | exec i ω =>
      obtain ⟨task, commits, p, c, hi, hwaiting, rfl, hkind⟩ := h.exec hwork hstep
      rcases hkind with ⟨rfl, hquiet⟩ | ⟨rfl, rfl, hcommit⟩
      · exact .quiet hquiet.items hquiet.outbox (servedJobs_resume hi)
      · have hserved := servedJobs_resume (p := .ret ()) (c := c) (b := true) hi
        by_cases hrows : task.rows = []
        · rw [if_neg (by simp [hrows])] at hserved
          obtain ⟨message, hdecided, hworld⟩ := hcommit.of_rows_nil hrows
          have haway := h.aside i task message hi hrows hdecided
          exact .aside task.job message hworld haway.orderId haway
            (h.served_ne hwork hi hwaiting) hserved
        · rw [if_pos (by simpa using hrows)] at hserved
          have hmem : task.job ∈ s.jobs := List.mem_map.2 ⟨task, List.mem_of_getElem? hi, rfl⟩
          exact .commit task hcommit hrows (hwork.uncached _ hmem)
            (h.served_ne hwork hi hwaiting) (h.silent hwork hi hwaiting) hserved

theorem WorkInv.spawn {w : World} {s s' : Pool} {job : Job} (h : WorkInv w s)
    (hstep : s.step (.spawn job) = some s') : WorkInv w s' := by
  have hrows := h.rows.step hstep
  have hold : ∀ (j : ℕ) (t : Task), s.tasks[j]? = some t → s'.tasks[j]? = some t :=
    fun j t hj => getElem?_spawn_old hstep hj
  have hworld := world_spawn hstep
  have hserved : s'.served = s.served := by
    cases hstep
    rfl
  refine ⟨hrows, ?_, ?_, ?_, ?_, ?_, ?_⟩
  · intro job' hjob' hunchecked
    rw [hworld]
    exact h.uncached job' hjob' fun j t hj => hunchecked j t (hold j t hj)
  · intro j t message hj hnil hdecided
    rcases getElem?_spawn hstep hj with hj | ⟨-, rfl⟩
    · exact h.aside j t message hj hnil hdecided
    · cases job <;> cases hdecided
  · rw [hworld]
    exact h.kept
  · rw [hserved]
    intro j hj
    obtain ⟨t, ht, hdone⟩ := h.served j hj
    exact ⟨t, hold j t ht, hdone⟩
  · rw [hworld]
    exact h.emitted
  · rw [hworld]
    intro message hmessage
    obtain ⟨j, t, hj, hdone, hid⟩ := h.verdict message hmessage
    exact ⟨j, t, hold j t hj, hdone, hid⟩

theorem WorkInv.forget {w : World} {s s' : Pool} {key : IdemKey} (h : WorkInv w s)
    (hstep : s.step (.forget key) = some s') : WorkInv w s' := by
  have hrows := h.rows.step hstep
  cases hstep
  have hitems : (s.world.setCache key none).items = s.world.items := by cases key <;> rfl
  have hemitted : (s.world.setCache key none).emitted = s.world.emitted := by
    cases key <;> rfl
  refine ⟨hrows, ?_, h.aside, ?_, h.served, ?_, ?_⟩
  · intro job hjob hunchecked
    exact (h.uncached job hjob hunchecked).forget key
  · intro sku hsku
    show (s.world.setCache key none).items sku ≠ none
    rw [hitems]
    exact h.kept sku hsku
  · show w.emitted <+: (s.world.setCache key none).emitted
    rw [hemitted]
    exact h.emitted
  · intro message hmessage
    have hmessage' : message ∈ w.since (s.world.setCache key none) := hmessage
    rw [World.since, hemitted] at hmessage'
    exact h.verdict message hmessage'

/-- A task of another order is not the task `i` that takes a step. -/
theorem getElem?_resume_other {s : Pool} {i j : ℕ} {task t : Task} {b : Bool} {p : Handler Unit}
    {c : Context} (hi : s.tasks[i]? = some task) (hj : s.tasks[j]? = some t)
    (hid : t.job.orderId ≠ task.job.orderId) : (s.resume i task b p c).tasks[j]? = some t := by
  have hne : j ≠ i := by
    rintro rfl
    rw [hi] at hj
    cases hj
    exact hid rfl
  exact (getElem?_resume_ne hne).trans hj

/-- A step that neither writes a row nor emits. -/
theorem WorkInv.quiet {w : World} {s : Pool} {i : ℕ} {task : Task} {p : Handler Unit} {c : Context}
    (h : WorkInv w s) (hwork : Workload w s.jobs) (hi : s.tasks[i]? = some task)
    (hwaiting : task.prog.waiting = true) (hquiet : QuietStep s.world task p c)
    (hrows : (s.resume i task false p c).RowInv) : WorkInv w (s.resume i task false p c) := by
  have hself := getElem?_resume_self (b := false) (p := p) (c := c) hi
  have hemitted : c.world.emitted = s.world.emitted := by
    rw [World.emitted, hquiet.outbox, World.emitted]
  refine ⟨hrows, ?_, ?_, ?_, ?_, ?_, ?_⟩
  · intro job hjob hunchecked
    by_cases hid : task.job.orderId = job.orderId
    · obtain ⟨hbefore, hworld⟩ := hquiet.unchecked (hunchecked i _ hself hid)
      show c.world.Uncached job
      rw [hworld]
      refine h.uncached job hjob fun j t hj hjid => ?_
      obtain rfl : j = i := hwork.index_eq hj hi (hjid.trans hid.symm)
      rw [hi] at hj
      cases hj
      exact hbefore
    · refine hquiet.uncached job (Ne.symm hid) (h.uncached job hjob fun j t hj hjid => ?_)
      exact hunchecked j t (getElem?_resume_other hi hj (hjid.trans_ne (Ne.symm hid))) hjid
  · intro j t message hj hnil hdecided
    rcases getElem?_resume hi hj with ⟨rfl, rfl⟩ | ⟨-, hold⟩
    · rcases hquiet.decided message hnil hdecided with ⟨hnil', hdecided'⟩ | haway
      · exact h.aside j task message hi hnil' hdecided'
      · exact haway
    · exact h.aside j t message hold hnil hdecided
  · intro sku hsku
    show c.world.items sku ≠ none
    rw [hquiet.items]
    exact h.kept sku hsku
  · intro j hj
    obtain ⟨t, ht, hdone⟩ := h.served j hj
    exact ⟨t, getElem?_resume_done hi hwaiting ht hdone, hdone⟩
  · show w.emitted <+: c.world.emitted
    rw [hemitted]
    exact h.emitted
  · intro message hmessage
    have hmessage' : message ∈ w.since c.world := hmessage
    rw [World.since, hemitted] at hmessage'
    obtain ⟨j, t, hj, hdone, hid⟩ := h.verdict message hmessage'
    exact ⟨j, t, getElem?_resume_done hi hwaiting hj hdone, hdone, hid⟩

/-- The step that commits a verdict is the last one of its task. -/
theorem WorkInv.commit {w : World} {s : Pool} {i : ℕ} {task : Task} {c : Context}
    (h : WorkInv w s) (hi : s.tasks[i]? = some task) (hwaiting : task.prog.waiting = true)
    (hcommit : CommitStep s.world task c.world)
    (hrows : (s.resume i task true (.ret ()) c).RowInv) :
    WorkInv w (s.resume i task true (.ret ()) c) := by
  have hself := getElem?_resume_self (b := true) (p := .ret ()) (c := c) hi
  obtain ⟨message, hemitted, hid⟩ :=
    hcommit.emitted fun message hnil hdecided => h.aside i task message hi hnil hdecided
  refine ⟨hrows, ?_, ?_, ?_, ?_, ?_, ?_⟩
  · intro job hjob hunchecked
    refine hcommit.uncached (h.uncached job hjob fun j t hj hjid => ?_)
    have hne : j ≠ i := by
      rintro rfl
      rw [hi] at hj
      cases hj
      cases hunchecked j _ hself hjid
    exact hunchecked j t ((getElem?_resume_ne hne).trans hj) hjid
  · intro j t message hj hnil hdecided
    rcases getElem?_resume hi hj with ⟨rfl, rfl⟩ | ⟨-, hold⟩
    · cases hdecided
    · exact h.aside j t message hold hnil hdecided
  · intro sku hsku
    exact hcommit.kept (h.kept sku hsku)
  · intro j hj
    have hj' : j ∈ if true && !task.rows.isEmpty then s.served ++ [i] else s.served := hj
    have hcases : j ∈ s.served ∨ j = i := by
      split at hj'
      · exact (List.mem_append.1 hj').imp_right List.mem_singleton.1
      · exact Or.inl hj'
    rcases hcases with hold | rfl
    · obtain ⟨t, ht, hdone⟩ := h.served j hold
      exact ⟨t, getElem?_resume_done hi hwaiting ht hdone, hdone⟩
    · exact ⟨_, hself, rfl⟩
  · show w.emitted <+: c.world.emitted
    rw [hemitted]
    exact h.emitted.trans (List.prefix_append _ _)
  · intro message' hmessage
    have hmessage' : message' ∈ w.since c.world := hmessage
    rw [World.since_of_emitted h.emitted hemitted] at hmessage'
    rcases List.mem_append.1 hmessage' with hold | hnew
    · obtain ⟨j, t, hj, hdone, hid'⟩ := h.verdict message' hold
      exact ⟨j, t, getElem?_resume_done hi hwaiting hj hdone, hdone, hid'⟩
    · rw [List.mem_singleton.1 hnew]
      exact ⟨i, _, hself, rfl, hid⟩

/-- Every step of a workload keeps `WorkInv`. -/
theorem WorkInv.step {w : World} {s s' : Pool} {a : Action} (h : WorkInv w s)
    (hwork : Workload w s.jobs) (hstep : s.step a = some s') : WorkInv w s' := by
  have hrows := h.rows.step hstep
  cases a with
  | spawn job => exact h.spawn hstep
  | expire key =>
      cases hstep
      exact ⟨hrows, h.uncached, h.aside, h.kept, h.served, h.emitted, h.verdict⟩
  | forget key => exact h.forget hstep
  | exec i ω =>
      obtain ⟨task, commits, p, c, hi, hwaiting, rfl, hkind⟩ := h.exec hwork hstep
      rcases hkind with ⟨rfl, hquiet⟩ | ⟨rfl, rfl, hcommit⟩
      · exact h.quiet hwork hi hwaiting hquiet hrows
      · exact h.commit hi hwaiting hcommit hrows

end Pool

end FlashSale
