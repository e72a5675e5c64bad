import FlashSale.Concurrency.RowLocks
import Mathlib.Algebra.BigOperators.Group.List.Basic
import Mathlib.Algebra.Order.BigOperators.Group.List
import Mathlib.Algebra.Order.Ring.Int

/-!
# Conservation of stock

Seed requests, reservations and releases run concurrently on the same rows. A
reservation and a release read their row under the row lock, a seed request
reads it without, and writes back the sum of what it has read and its quantity.

`conserved_iff` says that the stock is conserved along a schedule exactly when
no seed request overwrites a change that it has not seen.
-/

namespace FlashSale

open InventoryService

/-- For every SKU, what is available and what is reserved is what was seeded,
and neither is negative. -/
structure World.Conserved (w : World) : Prop where
  available_nonneg : ∀ sku, 0 ≤ w.availableQty sku
  reserved_nonneg : ∀ sku, 0 ≤ w.reservedQty sku
  total : ∀ sku, w.availableQty sku + w.reservedQty sku = w.seeded sku

namespace Pool

/-- The stock is conserved in every state of the schedule. -/
def StaysConserved (w : World) (locks : LockKey → Option ℕ) (actions : List Action) : Prop :=
  ∀ as s, as <+: actions → Schedule.run step (start w locks) as = some s → s.world.Conserved

/-- Quantities are positive, and a release undoes a committed reservation of the
same quantity that no other release undoes. -/
def Admissible (s : Pool) : Action → Prop
  | .spawn (.reserve cmd) => 0 < cmd.qty
  | .spawn (.release cmd) =>
      0 < cmd.qty ∧ ⟨cmd.orderId, cmd.sku, cmd.qty⟩ ∈ s.world.moves ∧
        ∀ cmd', .release cmd' ∈ s.jobs → cmd'.orderId ≠ cmd.orderId
  | _ => True

/-- A seed request that updates a row finds the quantity that it has read. -/
def SeedCurrent (s : Pool) : Action → Prop
  | .exec i ω => ∀ task sku qty available k, s.tasks[i]? = some task →
      task.prog = .call (.commit [.setAvailable sku qty available]) k →
      s.step (.exec i ω) ≠ none → available = s.world.availableQty sku + qty
  | _ => True

/-- The quantity that the seed request of task `i` has read is that of the row, if its
UPDATE comes next. -/
def fresh (s : Pool) (i : ℕ) : Bool :=
  match s.tasks[i]?.map Task.prog with
  | some (.call (.commit [.setAvailable sku qty available]) _) =>
      available = s.world.availableQty sku + qty
  | _ => true

/-- An action that is not possible is no UPDATE. -/
theorem seedCurrent_of_blocked {s : Pool} {a : Action} (h : s.step a = none) :
    s.SeedCurrent a := by
  cases a with
  | exec i ω =>
      intro task sku qty available k hi hprog hpossible
      exact absurd h hpossible
  | spawn job => trivial
  | expire key => trivial
  | forget key => trivial

theorem seedCurrent_exec {s : Pool} {i : ℕ} {ω : Answers} :
    s.step (.exec i ω) = none ∨ s.fresh i = true ↔ s.SeedCurrent (.exec i ω) := by
  constructor
  · rintro (hblocked | hfresh)
    · exact seedCurrent_of_blocked hblocked
    · intro task sku qty available k hi hprog hpossible
      rw [fresh, hi, Option.map_some, hprog] at hfresh
      exact of_decide_eq_true hfresh
  · intro hcurrent
    by_cases hblocked : s.step (.exec i ω) = none
    · exact Or.inl hblocked
    · refine Or.inr ?_
      rw [fresh]
      split
      · next sku qty available k hprog =>
          obtain ⟨task, hi, htask⟩ := Option.map_eq_some_iff.1 hprog
          exact decide_eq_true (hcurrent task sku qty available k hi htask hblocked)
      · rfl

instance decidableSeedCurrent (s : Pool) : (a : Action) → Decidable (s.SeedCurrent a)
  | .exec i ω =>
      have : Decidable (s.step (.exec i ω) = none) := decidable_of_iff _ Option.isNone_iff_eq_none
      decidable_of_iff _ seedCurrent_exec
  | .spawn _ | .expire _ | .forget _ => isTrue trivial

/-- The job is to release the order. -/
def releasesOrder (orderId : OrderId) : Job → Bool
  | .release cmd => cmd.orderId = orderId
  | _ => false

instance decidableAdmissible (s : Pool) : (a : Action) → Decidable (s.Admissible a)
  | .spawn (.reserve cmd) => inferInstanceAs (Decidable (0 < cmd.qty))
  | .spawn (.release cmd) =>
      have : Decidable (∀ cmd', .release cmd' ∈ s.jobs → cmd'.orderId ≠ cmd.orderId) :=
        decidable_of_iff (∀ job ∈ s.jobs, releasesOrder cmd.orderId job = false)
          ⟨fun h cmd' hmem => of_decide_eq_false (h _ hmem), fun h job hmem => by
            cases job with
            | release cmd' => exact decide_eq_false (h cmd' hmem)
            | _ => rfl⟩
      inferInstanceAs (Decidable (_ ∧ _ ∧ _))
  | .spawn (.seed _) | .spawn (.charge _) | .exec _ _ | .expire _ | .forget _ => isTrue trivial

/-! ## Outstanding reservations -/

/-- The quantity of `sku` in a list of moves. -/
def quantity (moves : List StockMove) (sku : Sku) : ℤ :=
  (moves.map fun move => if move.sku = sku then move.qty else 0).sum

theorem quantity_concat (moves : List StockMove) (move : StockMove) (sku : Sku) :
    quantity (moves ++ [move]) sku =
      quantity moves sku + if move.sku = sku then move.qty else 0 := by
  simp [quantity]

theorem quantity_erase {moves : List StockMove} {move : StockMove} (h : move ∈ moves)
    (sku : Sku) :
    quantity moves sku =
      (if move.sku = sku then move.qty else 0) + quantity (moves.erase move) sku := by
  have hperm := (List.perm_cons_erase h).map fun move : StockMove =>
    if move.sku = sku then move.qty else 0
  rw [quantity, hperm.sum_eq, List.map_cons, List.sum_cons, quantity]

theorem quantity_nonneg {moves : List StockMove} (h : ∀ move ∈ moves, 0 < move.qty)
    (sku : Sku) : 0 ≤ quantity moves sku := by
  refine List.sum_nonneg ?_
  intro x hx
  obtain ⟨move, hmove, rfl⟩ := List.mem_map.1 hx
  split
  · exact (h move hmove).le
  · exact le_rfl

/-- A release of the order is through. -/
def Released (s : Pool) (orderId : OrderId) : Prop :=
  ∃ (i : ℕ) (task : Task) (cmd : ReleaseInventory), s.tasks[i]? = some task ∧
    task.job = .release cmd ∧ cmd.orderId = orderId ∧ task.prog.waiting = false

/-- The reservations that nobody has undone are covered by what is reserved. -/
structure Covered (s : Pool) (outstanding : List StockMove) : Prop where
  positive : ∀ move ∈ outstanding, 0 < move.qty
  covered : ∀ sku, quantity outstanding sku ≤ s.world.reservedQty sku
  granted : ∀ move ∈ s.world.moves, 0 < move.qty → ¬ s.Released move.orderId →
    move ∈ outstanding

/-- The jobs of the pool are admissible: a release undoes a reservation of its
own. -/
structure JobsInv (s : Pool) : Prop where
  reserve : ∀ (i : ℕ) (task : Task) (cmd : ReserveInventory), s.tasks[i]? = some task →
    task.job = .reserve cmd → 0 < cmd.qty
  release : ∀ (i : ℕ) (task : Task) (cmd : ReleaseInventory), s.tasks[i]? = some task →
    task.job = .release cmd → 0 < cmd.qty ∧ ⟨cmd.orderId, cmd.sku, cmd.qty⟩ ∈ s.world.moves
  unique : ∀ (i j : ℕ) (task task' : Task) (cmd cmd' : ReleaseInventory),
    s.tasks[i]? = some task → s.tasks[j]? = some task' → task.job = .release cmd →
    task'.job = .release cmd' → cmd.orderId = cmd'.orderId → i = j

/-- An old task that is through stays through when the task `i` goes on. -/
theorem Released.resume {s : Pool} {i : ℕ} {task : Task} {b : Bool} {p : Handler Unit}
    {c : Context} {orderId : OrderId} (h : s.Released orderId) (hi : s.tasks[i]? = some task)
    (hwaiting : task.prog.waiting = true) : (s.resume i task b p c).Released orderId := by
  obtain ⟨j, t, cmd, hj, hjob, hid, hdone⟩ := h
  exact ⟨j, t, cmd, getElem?_resume_done hi hwaiting hj hdone, hjob, hid, hdone⟩

theorem JobsInv.step {s s' : Pool} {a : Action} (h : s.JobsInv) (hrows : s.RowInv)
    (hadm : s.Admissible a) (hstep : s.step a = some s') : s'.JobsInv := by
  cases a with
  | spawn job =>
      have hmoves := world_spawn hstep
      have hold : ∀ (j : ℕ) (t : Task) (cmd : ReleaseInventory), s.tasks[j]? = some t →
          t.job = .release cmd → .release cmd ∈ s.jobs := by
        intro j t cmd hj hjob
        exact List.mem_map.2 ⟨t, List.mem_of_getElem? hj, hjob⟩
      refine ⟨?_, ?_, ?_⟩
      · intro i task cmd hi hjob
        rcases getElem?_spawn hstep hi with hi | ⟨-, rfl⟩
        · exact h.reserve i task cmd hi hjob
        · cases hjob
          exact hadm
      · intro i task cmd hi hjob
        rw [hmoves]
        rcases getElem?_spawn hstep hi with hi | ⟨-, rfl⟩
        · exact h.release i task cmd hi hjob
        · cases hjob
          exact ⟨hadm.1, hadm.2.1⟩
      · intro i j task task' cmd cmd' hi hj hjob hjob' hid
        rcases getElem?_spawn hstep hi with hi | ⟨hilen, rfl⟩
        · rcases getElem?_spawn hstep hj with hj | ⟨-, rfl⟩
          · exact h.unique i j task task' cmd cmd' hi hj hjob hjob' hid
          · cases hjob'
            exact absurd hid (hadm.2.2 cmd (hold i task cmd hi hjob))
        · rcases getElem?_spawn hstep hj with hj | ⟨hjlen, rfl⟩
          · cases hjob
            exact absurd hid.symm (hadm.2.2 cmd' (hold j task' cmd' hj hjob'))
          · rw [hilen, hjlen]
  | expire key =>
      cases hstep
      exact ⟨h.reserve, h.release, h.unique⟩
  | forget key =>
      cases hstep
      have hmoves : (s.world.setCache key none).moves = s.world.moves := by cases key <;> rfl
      refine ⟨h.reserve, ?_, h.unique⟩
      intro i task cmd hi hjob
      show _ ∧ _ ∈ (s.world.setCache key none).moves
      rw [hmoves]
      exact h.release i task cmd hi hjob
  | exec i ω =>
      obtain ⟨task, b, p, c, hi, hwaiting, rfl, htask, -⟩ := hrows.step_exec hstep
      have hstock := htask.stock hwaiting
      -- the jobs of the tasks do not change
      have hjobs : ∀ (j : ℕ) (t : Task), (s.resume i task b p c).tasks[j]? = some t →
          ∃ t', s.tasks[j]? = some t' ∧ t'.job = t.job := by
        intro j t hj
        rcases getElem?_resume hi hj with ⟨rfl, rfl⟩ | ⟨-, hj⟩
        · exact ⟨task, hi, rfl⟩
        · exact ⟨t, hj, rfl⟩
      refine ⟨?_, ?_, ?_⟩
      · intro j t cmd hj hjob
        obtain ⟨t', hj', hjob'⟩ := hjobs j t hj
        exact h.reserve j t' cmd hj' (hjob'.trans hjob)
      · intro j t cmd hj hjob
        obtain ⟨t', hj', hjob'⟩ := hjobs j t hj
        obtain ⟨hpos, hmem⟩ := h.release j t' cmd hj' (hjob'.trans hjob)
        exact ⟨hpos, hstock.mem_moves hmem⟩
      · intro j j' t t' cmd cmd' hj hj' hjob hjob' hid
        obtain ⟨u, hu, hujob⟩ := hjobs j t hj
        obtain ⟨u', hu', hujob'⟩ := hjobs j' t' hj'
        exact h.unique j j' u u' cmd cmd' hu hu' (hujob.trans hjob) (hujob'.trans hjob') hid

/-- The reservation that a release is about to undo is outstanding. -/
theorem Covered.mem_of_waiting {s : Pool} {i : ℕ} {task : Task} {cmd : ReleaseInventory}
    {outstanding : List StockMove} (h : s.Covered outstanding) (hjobs : s.JobsInv)
    (hi : s.tasks[i]? = some task) (hwaiting : task.prog.waiting = true)
    (hjob : task.job = .release cmd) : ⟨cmd.orderId, cmd.sku, cmd.qty⟩ ∈ outstanding := by
  obtain ⟨hpos, hmem⟩ := hjobs.release i task cmd hi hjob
  refine h.granted _ hmem hpos ?_
  rintro ⟨j, t, cmd', hj, hjob', hid, hdone⟩
  have hij := hjobs.unique j i t task cmd' cmd hj hi hjob' hjob hid
  subst hij
  rw [hi] at hj
  cases hj
  rw [hwaiting] at hdone
  cases hdone

/-- What is about to be given back is reserved. -/
theorem Covered.qty_le {s : Pool} {i : ℕ} {task : Task} {cmd : ReleaseInventory}
    {outstanding : List StockMove} (h : s.Covered outstanding) (hjobs : s.JobsInv)
    (hi : s.tasks[i]? = some task) (hwaiting : task.prog.waiting = true)
    (hjob : task.job = .release cmd) :
    cmd.qty + quantity (outstanding.erase ⟨cmd.orderId, cmd.sku, cmd.qty⟩) cmd.sku ≤
      s.world.reservedQty cmd.sku := by
  have hcovered := h.covered cmd.sku
  rw [quantity_erase (h.mem_of_waiting hjobs hi hwaiting hjob), if_pos rfl] at hcovered
  exact hcovered

/-- Steps that move no stock keep the outstanding reservations covered. -/
theorem Covered.congr {s s' : Pool} {outstanding : List StockMove} (h : s.Covered outstanding)
    (hitems : s'.world.items = s.world.items) (hmoves : s'.world.moves = s.world.moves)
    (hreleased : ∀ orderId, s.Released orderId → s'.Released orderId) :
    s'.Covered outstanding := by
  refine ⟨h.positive, ?_, ?_⟩
  · intro sku
    rw [World.reservedQty, hitems]
    exact h.covered sku
  · intro move hmove hpos hnot
    rw [hmoves] at hmove
    exact h.granted move hmove hpos fun hrel => hnot (hreleased _ hrel)

/-- A task that is through stays through when another one starts. -/
theorem Released.spawn {s s' : Pool} {job : Job} {orderId : OrderId} (h : s.Released orderId)
    (hstep : s.step (.spawn job) = some s') : s'.Released orderId := by
  obtain ⟨j, t, cmd, hj, hjob, hid, hdone⟩ := h
  exact ⟨j, t, cmd, getElem?_spawn_old hstep hj, hjob, hid, hdone⟩

/-- A step of a task keeps the outstanding reservations covered. -/
theorem Covered.resume {s : Pool} {i : ℕ} {task : Task} {b : Bool} {p : Handler Unit}
    {c : Context} {outstanding : List StockMove} (h : s.Covered outstanding)
    (hjobs : s.JobsInv) (hi : s.tasks[i]? = some task) (hwaiting : task.prog.waiting = true)
    (hstock : StockStep s.world task p c.world) :
    ∃ outstanding', (s.resume i task b p c).Covered outstanding' := by
  have hreleased : ∀ orderId, ¬ (s.resume i task b p c).Released orderId →
      ¬ s.Released orderId := fun orderId hnot hrel => hnot (hrel.resume hi hwaiting)
  cases hstock with
  | quiet hitems hseeded hmoves =>
      exact ⟨outstanding, h.congr hitems hmoves fun orderId hrel => hrel.resume hi hwaiting⟩
  | reserved cmd item item' hjob hitem hqty hitems havailable hreserved hseeded hmoves =>
      have hpos := hjobs.reserve i task cmd hi hjob
      refine ⟨outstanding ++ [⟨cmd.orderId, cmd.sku, cmd.qty⟩], ?_, ?_, ?_⟩
      · intro move hmove
        rcases List.mem_append.1 hmove with hmove | hmove
        · exact h.positive move hmove
        · rw [List.mem_singleton.1 hmove]
          exact hpos
      · intro sku
        have hcovered := h.covered sku
        show _ ≤ c.world.reservedQty sku
        rw [quantity_concat, World.reservedQty_of_update hitems]
        by_cases hsku : sku = cmd.sku
        · subst hsku
          rw [if_pos rfl, if_pos rfl, hreserved]
          rw [World.reservedQty_of_item hitem] at hcovered
          exact Int.add_le_add_right hcovered cmd.qty
        · rw [if_neg hsku, if_neg (Ne.symm hsku)]
          omega
      · intro move hmove hmpos hnot
        have hmove' : move ∈ c.world.moves := hmove
        rw [hmoves] at hmove'
        rcases List.mem_append.1 hmove' with hold | hnew
        · exact List.mem_append_left _ (h.granted move hold hmpos (hreleased _ hnot))
        · exact List.mem_append_right _ hnew
  | released cmd item item' hjob hwait hitem hitems havailable hreserved hseeded hmoves hdone =>
      have hmem := h.mem_of_waiting hjobs hi hwaiting hjob
      have hle := h.qty_le hjobs hi hwaiting hjob
      rw [World.reservedQty_of_item hitem] at hle
      refine ⟨outstanding.erase ⟨cmd.orderId, cmd.sku, cmd.qty⟩, ?_, ?_, ?_⟩
      · intro move hmove
        exact h.positive move (List.mem_of_mem_erase hmove)
      · intro sku
        show _ ≤ c.world.reservedQty sku
        rw [World.reservedQty_of_update hitems]
        by_cases hsku : sku = cmd.sku
        · subst hsku
          rw [if_pos rfl, hreserved]
          omega
        · have hcovered := h.covered sku
          rw [quantity_erase hmem, if_neg (Ne.symm hsku)] at hcovered
          rw [if_neg hsku]
          omega
      · intro move hmove hpos hnot
        have hmove' : move ∈ c.world.moves := hmove
        have hothers : move.orderId ≠ cmd.orderId := by
          intro hid
          refine hnot ⟨i, _, cmd, getElem?_resume_self hi, hjob, hid.symm, ?_⟩
          rw [hdone]
          rfl
        rw [hmoves, List.mem_append, List.mem_singleton] at hmove'
        rcases hmove' with hold | hnew
        · have hout := h.granted move hold hpos (hreleased _ hnot)
          refine (List.mem_erase_of_ne ?_).2 hout
          intro heq
          exact hothers (by rw [heq])
        · exact absurd (by rw [hnew]) hothers
  | seeded req row item hjob hprog hitems hseeded hmoves hreserved hsome hnone =>
      refine ⟨outstanding, h.positive, ?_, ?_⟩
      · intro sku
        show _ ≤ c.world.reservedQty sku
        rw [World.reservedQty_of_update hitems]
        by_cases hsku : sku = req.sku
        · rw [if_pos hsku, hreserved, ← hsku]
          exact h.covered sku
        · rw [if_neg hsku]
          exact h.covered sku
      · intro move hmove hpos hnot
        exact h.granted move (hmoves ▸ hmove) hpos (hreleased _ hnot)

/-! ## Conservation -/

/-- What holds along every admissible schedule whose seed requests are current. -/
structure ConservationInv (s : Pool) : Prop where
  rows : s.RowInv
  jobs : s.JobsInv
  covered : ∃ outstanding, s.Covered outstanding
  conserved : s.world.Conserved

theorem conservationInv_start {w : World} (hmoves : w.moves = []) (hw : w.Conserved)
    (locks : LockKey → Option ℕ) : (start w locks).ConservationInv where
  rows := rowInv_start w locks
  jobs := by
    refine ⟨?_, ?_, ?_⟩
    · intro i task cmd hi
      cases hi
    · intro i task cmd hi
      cases hi
    · intro i j task task' cmd cmd' hi
      cases hi
  covered := by
    refine ⟨[], by simp, fun sku => w.reservedQty_nonneg sku, ?_⟩
    intro move hmove
    have hmove' : move ∈ w.moves := hmove
    rw [hmoves] at hmove'
    cases hmove'
  conserved := hw

theorem conserved_of_total {w : World}
    (h : ∀ sku, w.availableQty sku + w.reservedQty sku = w.seeded sku) : w.Conserved :=
  ⟨w.availableQty_nonneg, w.reservedQty_nonneg, h⟩

/-- A step of a task conserves the stock when the UPDATE of a seed request is
current. -/
theorem ConservationInv.conserved_resume {s : Pool} {i : ℕ} {task : Task} {p : Handler Unit}
    {w' : World} (h : s.ConservationInv) (hi : s.tasks[i]? = some task)
    (hwaiting : task.prog.waiting = true) (hstock : StockStep s.world task p w')
    (hcurrent : ∀ sku qty available k,
      task.prog = .call (.commit [.setAvailable sku qty available]) k →
      available = s.world.availableQty sku + qty) : w'.Conserved := by
  refine conserved_of_total fun sku => ?_
  have htotal := h.conserved.total
  cases hstock with
  | quiet hitems hseeded hmoves =>
      rw [World.availableQty, World.reservedQty, hitems, hseeded]
      exact htotal sku
  | reserved cmd item item' hjob hitem hqty hitems havailable hreserved hseeded hmoves =>
      rw [World.availableQty_of_update hitems, World.reservedQty_of_update hitems, hseeded]
      by_cases hsku : sku = cmd.sku
      · have hrow := htotal cmd.sku
        rw [World.availableQty_of_item hitem, World.reservedQty_of_item hitem] at hrow
        rw [if_pos hsku, if_pos hsku, hsku]
        omega
      · rw [if_neg hsku, if_neg hsku]
        exact htotal sku
  | released cmd item item' hjob hwait hitem hitems havailable hreserved hseeded hmoves hdone =>
      rw [World.availableQty_of_update hitems, World.reservedQty_of_update hitems, hseeded]
      by_cases hsku : sku = cmd.sku
      · have hrow := htotal cmd.sku
        obtain ⟨outstanding, hcovered⟩ := h.covered
        have hle := hcovered.qty_le h.jobs hi hwaiting hjob
        have hrest := quantity_nonneg (fun move hmove => hcovered.positive move
          (List.mem_of_mem_erase (b := ⟨cmd.orderId, cmd.sku, cmd.qty⟩) hmove)) cmd.sku
        rw [World.reservedQty_of_item hitem] at hle
        rw [World.availableQty_of_item hitem, World.reservedQty_of_item hitem] at hrow
        rw [if_pos hsku, if_pos hsku, hsku]
        omega
      · rw [if_neg hsku, if_neg hsku]
        exact htotal sku
  | seeded req row item hjob hprog hitems hseeded hmoves hreserved hsome hnone =>
      rw [World.availableQty_of_update hitems, World.reservedQty_of_update hitems, hseeded]
      by_cases hsku : sku = req.sku
      · have hrow := htotal req.sku
        rw [if_pos hsku, if_pos hsku, hsku, Function.update_self, hreserved]
        cases row with
        | none =>
            obtain ⟨hzero, hqty⟩ := hnone rfl
            omega
        | some old =>
            have hold := hsome old rfl
            have hcur := hcurrent req.sku req.qty (old.available + req.qty) _ hprog
            omega
      · rw [if_neg hsku, if_neg hsku, Function.update_of_ne hsku]
        exact htotal sku

/-- The UPDATE of a seed request that is not current breaks the conservation. -/
theorem ConservationInv.seedCurrent {s s' : Pool} {a : Action} (h : s.ConservationInv)
    (hstep : s.step a = some s') (hconserved : s'.world.Conserved) : s.SeedCurrent a := by
  cases a with
  | exec i ω =>
      intro task sku qty available k hi hprog hpossible
      obtain ⟨task', b, p, c, hi', -, rfl, htask, -⟩ := h.rows.step_exec hstep
      rw [hi, Option.some.injEq] at hi'
      subst hi'
      obtain ⟨item, hitems, havailable, hreserved, hseeded⟩ :=
        htask.of_setAvailable (h.rows.facts i task hi) hprog
      have hrow := h.conserved.total sku
      have hafter : c.world.availableQty sku + c.world.reservedQty sku = c.world.seeded sku :=
        hconserved.total sku
      rw [World.availableQty_of_update hitems, World.reservedQty_of_update hitems, hseeded,
        if_pos rfl, if_pos rfl, Function.update_self] at hafter
      omega
  | spawn job => trivial
  | expire key => trivial
  | forget key => trivial

/-- An admissible step with a current seed request keeps the invariant. -/
theorem ConservationInv.step {s s' : Pool} {a : Action} (h : s.ConservationInv)
    (hadm : s.Admissible a) (hcurrent : s.SeedCurrent a) (hstep : s.step a = some s') :
    s'.ConservationInv := by
  refine ⟨h.rows.step hstep, h.jobs.step h.rows hadm hstep, ?_, ?_⟩
  · obtain ⟨outstanding, hcovered⟩ := h.covered
    cases a with
    | spawn job =>
        refine ⟨outstanding, hcovered.congr ?_ ?_ fun orderId hrel => hrel.spawn hstep⟩
        · cases hstep
          rfl
        · cases hstep
          rfl
    | expire key =>
        cases hstep
        exact ⟨outstanding, hcovered.congr rfl rfl fun orderId hrel => hrel⟩
    | forget key =>
        cases hstep
        refine ⟨outstanding, hcovered.congr ?_ ?_ fun orderId hrel => hrel⟩
        · cases key <;> rfl
        · cases key <;> rfl
    | exec i ω =>
        obtain ⟨task, b, p, c, hi, hwaiting, rfl, htask, -⟩ := h.rows.step_exec hstep
        exact hcovered.resume h.jobs hi hwaiting (htask.stock hwaiting)
  · cases a with
    | spawn job =>
        cases hstep
        exact h.conserved
    | expire key =>
        cases hstep
        exact h.conserved
    | forget key =>
        cases hstep
        cases key <;> exact ⟨h.conserved.1, h.conserved.2, h.conserved.3⟩
    | exec i ω =>
        have hpossible : s.step (.exec i ω) ≠ none := by
          rw [hstep]
          exact Option.some_ne_none s'
        obtain ⟨task, b, p, c, hi, hwaiting, rfl, htask, -⟩ := h.rows.step_exec hstep
        refine h.conserved_resume hi hwaiting (htask.stock hwaiting) ?_
        intro sku qty available k hprog
        exact hcurrent task sku qty available k hi hprog hpossible

/-- The stock is conserved along a schedule exactly when it is conserved at the
start and every seed request finds the quantity that it has read. -/
theorem conserved_iff {w : World} {locks : LockKey → Option ℕ} {actions : List Action}
    (hmoves : w.moves = [])
    (hadm : Schedule.Along step Admissible (start w locks) actions) :
    StaysConserved w locks actions ↔
      w.Conserved ∧ Schedule.Along step SeedCurrent (start w locks) actions := by
  have hrun : ∀ as s, as <+: actions → w.Conserved →
      Schedule.Along step SeedCurrent (start w locks) as →
      Schedule.run step (start w locks) as = some s → s.ConservationInv := by
    rintro as s ⟨bs, rfl⟩ hw hcurrent hs
    have hboth := hadm.of_append.and hcurrent
    refine Schedule.run_preserves ?_ (conservationInv_start hmoves hw locks) hboth hs
    intro t a t' hinv hP hstep
    exact hinv.step hP.1 hP.2 hstep
  constructor
  · intro hstays
    have hw : w.Conserved := hstays [] (start w locks) (List.nil_prefix) rfl
    refine ⟨hw, Schedule.along_of_forall_prefix ?_⟩
    rintro as a bs s rfl hcurrent hs
    have hinv := hrun as s (List.prefix_append _ _) hw hcurrent hs
    cases hstep : s.step a with
    | none => exact seedCurrent_of_blocked hstep
    | some s' =>
        refine hinv.seedCurrent hstep (hstays (as ++ [a]) s' ?_ ?_)
        · exact ⟨bs, by rw [List.append_assoc]; rfl⟩
        · exact Schedule.run_concat_eq_some.2 ⟨s, hs, hstep⟩
  · rintro ⟨hw, hcurrent⟩ as s ⟨bs, rfl⟩ hs
    exact (hrun as s (List.prefix_append _ _) hw hcurrent.of_append hs).conserved

/-- A request to add a unit. -/
def oneMore (sku : Sku) : SeedRequest := ⟨sku, 1, by decide⟩

/-- All calls of a task that is never refused. -/
def granted : Answers := ⟨true, true, ⟨true, "", none⟩, "id-1"⟩

/-- Two pieces are seeded and one of them is reserved. Then its release, another
reservation and another seed overlap: the lock of the release expires, and the seed reads
and commits before a row is locked. -/
def overlapping : List Action :=
  [.spawn (.seed ⟨"sku-1", 2, by decide⟩), .exec 0 granted, .exec 0 granted,
    .spawn (.reserve ⟨"order-1", "sku-1", 1⟩)] ++ List.replicate 8 (.exec 1 granted) ++
  [.spawn (.release ⟨"order-1", "sku-1", 1⟩), .spawn (.reserve ⟨"order-2", "sku-1", 1⟩),
    .spawn (.seed (oneMore "sku-1")), .exec 2 granted, .exec 2 granted, .expire (.sku "sku-1"),
    .exec 3 granted, .exec 4 granted, .exec 3 granted, .exec 4 granted, .exec 2 granted,
    .exec 3 granted] ++ List.replicate 4 (.exec 2 granted) ++ List.replicate 5 (.exec 3 granted)

theorem staysConserved_overlapping : ∃ s,
    Schedule.run step (start World.empty fun _ => none) overlapping = some s ∧
      StaysConserved World.empty (fun _ => none) overlapping ∧
      s.world.availableQty "sku-1" = 2 ∧ s.world.reservedQty "sku-1" = 1 := by
  have heval : (Schedule.run step (start World.empty fun _ => none) overlapping).map (fun s =>
      (s.world.availableQty "sku-1", s.world.reservedQty "sku-1")) = some (2, 1) := by
    decide +kernel
  obtain ⟨s, hs, hquantities⟩ := Option.map_eq_some_iff.1 heval
  obtain ⟨havailable, hreserved⟩ := Prod.mk.inj hquantities
  refine ⟨s, hs, (conserved_iff rfl ?_).2 ⟨conserved_of_total fun _ => rfl, ?_⟩, havailable,
    hreserved⟩
  · decide +kernel
  · decide +kernel

/-- Two seed requests read the same quantity; the second one overwrites what the
first one has added. -/
theorem not_staysConserved_twoSeeds :
    let w : World :=
      { World.empty with
        items := fun _ => some ⟨1, 0, by decide, by decide⟩
        seeded := fun _ => 1 }
    let actions : List Action :=
      [.spawn (.seed (oneMore "sku-1")), .spawn (.seed (oneMore "sku-1")), .exec 0 granted,
        .exec 1 granted, .exec 0 granted, .exec 1 granted]
    w.moves = [] ∧ w.Conserved ∧ Schedule.Along step Admissible (start w fun _ => none) actions ∧
      ¬ StaysConserved w (fun _ => none) actions := by
  intro w actions
  refine ⟨rfl, conserved_of_total fun _ => rfl, ?_, ?_⟩
  · exact Schedule.along_of_forall (by simp [actions, Admissible])
  · intro h
    have htotal := (h actions _ (List.prefix_refl _) rfl).total "sku-1"
    exact absurd htotal (by decide)

end Pool

end FlashSale
