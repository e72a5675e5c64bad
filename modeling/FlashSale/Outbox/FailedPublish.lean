import FlashSale.Outbox.Drain

/-!
# What a failed publication costs

A dispatcher that is never stopped, alone with its table. Its queries and commits
do not fail, the calls of the broker client may. One `try` and one commit cover a
whole poll: a publication that raises throws away the flags of the rows accepted
before it in the poll, and ends the poll for the rows behind it.

`costsNoOther_iff` says which runs are none the worse for it.
-/

namespace FlashSale

namespace Outbox

open RabbitMQClient Table

variable {P : Type}

/-- The calls of the database. -/
def ofDatabase : DispatcherCall P → Bool
  | .select | .commit _ => true
  | _ => false

/-- A call of `publish`: whether the broker has accepted the message of the row,
and whether the call has returned. -/
structure Publication (P : Type) where
  row : OutboxMessage P
  accepted : Bool
  returned : Bool
deriving DecidableEq

/-- The calls of `publish` that the loop over the rows makes. -/
def publications [DecidableEq P] (trusted : DispatcherCall P → Bool) (batch : ℕ) :
    Table P → List (OutboxMessage P) → List (Outcome P) → List (Publication P)
  | _, [], _ => []
  | s, row :: rows, outcomes =>
      match (publish row.routingKey row.payload).feed (trusting trusted batch) s outcomes with
      | none => []
      | some (some _, t, rest) =>
          ⟨row, s.accepted.length < t.accepted.length, true⟩ ::
            publications trusted batch t rows rest
      | some (none, t, _) => [⟨row, s.accepted.length < t.accepted.length, false⟩]

/-- The rows that an iteration selects. -/
def polled : List (Outcome P) → List (OutboxMessage P)
  | .selected rows :: _ => rows
  | _ => []

/-- A run of a dispatcher: the table before each iteration, and the outcomes of the
calls of each iteration. -/
structure Polling (P : Type) [DecidableEq P] (batch : ℕ) where
  table : ℕ → Table P
  outcomes : ℕ → List (Outcome P)
  keyed : (table 0).Keyed
  next : ∀ k, pass ofDatabase batch (table k) (outcomes k) = some (table (k + 1))

namespace Polling

variable [DecidableEq P] {batch : ℕ} (run : Polling P batch)

/-- The calls of `publish` in an iteration. -/
def publications (k : ℕ) : List (Publication P) :=
  Outbox.publications ofDatabase batch (run.table k) (polled (run.outcomes k))
    (run.outcomes k).tail

/-- The broker accepts the row in an iteration. -/
def Accepts (k : ℕ) (row : OutboxMessage P) : Prop :=
  ∃ call ∈ run.publications k, call.row = row ∧ call.accepted = true

/-- The publication of the row raises in an iteration. -/
def Fails (k : ℕ) (row : OutboxMessage P) : Prop :=
  ∃ call ∈ run.publications k, call.row = row ∧ call.returned = false

/-- The publication of the row raises again and again. -/
def KeepsFailing (row : OutboxMessage P) : Prop := ∀ k, ∃ j, k ≤ j ∧ run.Fails j row

/-- A row that the broker has accepted is marked and not published again. -/
def AcceptedOnce : Prop :=
  ∀ k row, run.Accepts k row →
    (∃ j, row.mark ∈ (run.table j).rows) ∧ ∀ j, k < j → ¬ run.Accepts j row

/-- The rows of the backlog that do not keep failing are published and marked. -/
def OthersPublished : Prop :=
  ∀ row ∈ (run.table 0).unpublished, ¬ run.KeepsFailing row →
    ∃ k, run.Accepts k row ∧ row.mark ∈ (run.table (k + 1)).rows

/-- A failed publication costs no other row. -/
structure CostsNoOther : Prop where
  once : run.AcceptedOnce
  others : run.OthersPublished

/-- A publication raises only where the broker has accepted nothing in its
iteration; and as long as a row is left that does not keep failing, there are
iterations to come that poll rows and in which nothing raises. -/
structure Spared : Prop where
  first : ∀ k row, run.Fails k row → ∀ other, ¬ run.Accepts k other
  turns : ∀ k, ∀ row ∈ (run.table k).unpublished, ¬ run.KeepsFailing row →
    ∃ j, k ≤ j ∧ polled (run.outcomes j) ≠ [] ∧ ∀ other, ¬ run.Fails j other

end Polling

/-! ## One iteration -/

section Iteration

variable [DecidableEq P] {trusted : DispatcherCall P → Bool} {batch : ℕ} {s t : Table P}

/-- What the loop does with its first row: the call of `publish` raises and ends it, or
the broker has accepted the row and the loop goes on with the others. -/
theorem publications_cons {row : OutboxMessage P} {rows : List (OutboxMessage P)}
    {outcomes rest : List (Outcome P)} {r : Option (List (OutboxMessage P))}
    (h : (publishRows (row :: rows)).feed (trusting trusted batch) s outcomes =
      some (r, t, rest)) :
    (r = none ∧ t.rows = s.rows ∧ ∃ accepted,
      publications trusted batch s (row :: rows) outcomes = [⟨row, accepted, false⟩]) ∨
    ∃ r' u left, r = r'.map (row.mark :: ·) ∧ u.rows = s.rows ∧
      (publishRows rows).feed (trusting trusted batch) u left = some (r', t, rest) ∧
      publications trusted batch s (row :: rows) outcomes =
        ⟨row, true, true⟩ :: publications trusted batch u rows left := by
  rw [feed_publishRows_cons] at h
  obtain ⟨⟨answer, u, left⟩, hpublish, hrest⟩ := Option.bind_eq_some_iff.1 h
  have hsends := sending_publish s outcomes answer u left hpublish
  cases answer with
  | none =>
      cases hrest
      refine Or.inl ⟨rfl, hsends.rows, decide (s.accepted.length < t.accepted.length), ?_⟩
      simp only [publications, hpublish]
  | some answer =>
      obtain ⟨⟨r', t', rest'⟩, hrows, heq⟩ := Option.map_eq_some_iff.1 hrest
      cases heq
      have hgrown : s.accepted.length < u.accepted.length := by
        obtain ⟨n, m, rfl, hpos⟩ := hsends
        have hn := hpos rfl
        simp only [sent, List.length_append, List.length_replicate]
        omega
      refine Or.inr ⟨r', u, left, rfl, hsends.rows, hrows, ?_⟩
      simp [publications, hpublish, hgrown]

/-- What the calls of `publish` say about the loop: it marks all rows and the broker
has accepted them all, or the last call has raised. -/
theorem publications_spec {rows : List (OutboxMessage P)} {outcomes rest : List (Outcome P)}
    {r : Option (List (OutboxMessage P))}
    (h : (publishRows rows).feed (trusting trusted batch) s outcomes = some (r, t, rest)) :
    t.rows = s.rows ∧
      (∀ call ∈ publications trusted batch s rows outcomes, call.row ∈ rows) ∧
      ((r = some (rows.map OutboxMessage.mark) ∧
          (∀ call ∈ publications trusted batch s rows outcomes, call.returned = true) ∧
          ∀ row ∈ rows, ∃ call ∈ publications trusted batch s rows outcomes,
            call.row = row ∧ call.accepted = true) ∨
        r = none ∧ ∃ call ∈ publications trusted batch s rows outcomes,
          call.returned = false) := by
  induction rows generalizing s outcomes r t with
  | nil =>
      change (Prog.ret [] : Dispatch P (List (OutboxMessage P))).feed
        (trusting trusted batch) s outcomes = _ at h
      rw [Prog.feed_ret] at h
      cases h
      exact ⟨rfl, by simp [publications], Or.inl ⟨rfl, by simp [publications], by simp⟩⟩
  | cons row rows ih =>
      obtain ⟨rfl, hsame, accepted, hcalls⟩ | ⟨r', u, left, rfl, hsame, hrest, hcalls⟩ :=
        publications_cons h
      · rw [hcalls]
        exact ⟨hsame, by simp, Or.inr ⟨rfl, by simp⟩⟩
      · obtain ⟨hsame', hmem, hends⟩ := ih hrest
        rw [hcalls]
        refine ⟨hsame'.trans hsame, ?_, ?_⟩
        · rw [List.forall_mem_cons]
          exact ⟨List.mem_cons_self, fun call hcall => List.mem_cons_of_mem _ (hmem call hcall)⟩
        · rcases hends with ⟨rfl, hreturned, haccepted⟩ | ⟨rfl, call, hcall, hraised⟩
          · refine Or.inl ⟨rfl, List.forall_mem_cons.2 ⟨rfl, hreturned⟩, ?_⟩
            rw [List.forall_mem_cons]
            refine ⟨⟨_, List.mem_cons_self, rfl, rfl⟩, fun row' hrow' => ?_⟩
            obtain ⟨call, hcall, hrow⟩ := haccepted row' hrow'
            exact ⟨call, List.mem_cons_of_mem _ hcall, hrow⟩
          · exact Or.inr ⟨rfl, call, List.mem_cons_of_mem _ hcall, hraised⟩

end Iteration

/-! ## Runs -/

namespace Polling

section Runs

variable [DecidableEq P] {batch : ℕ} {run : Polling P batch} {k j : ℕ} {row : OutboxMessage P}

omit [DecidableEq P] in
theorem unpublished_congr {s t : Table P} (h : t.rows = s.rows) :
    t.unpublished = s.unpublished := by
  rw [unpublished, h, unpublished]

/-- An iteration in which nothing raises has published and marked what it selected;
one in which something raises has marked nothing. -/
theorem next_spec (run : Polling P batch) (k : ℕ) :
    (run.table k).Selects batch (polled (run.outcomes k)) ∧
      (∀ row, run.Accepts k row → row ∈ polled (run.outcomes k)) ∧
      ((∀ row, ¬ run.Fails k row) ∧
          (∀ row ∈ polled (run.outcomes k), run.Accepts k row) ∧
          (run.table (k + 1)).rows = ((run.table k).drained (polled (run.outcomes k))).rows ∨
        (∃ row, run.Fails k row) ∧ (run.table (k + 1)).rows = (run.table k).rows) := by
  obtain ⟨r, hfeed⟩ := pass_eq_some.1 (run.next k)
  obtain ⟨rows, left, houtcomes, hrows⟩ := selects_of_feed_iteration rfl hfeed
  rw [houtcomes, feed_iteration hrows] at hfeed
  obtain ⟨⟨marked, u, rest⟩, hpublished, hend⟩ := Option.bind_eq_some_iff.1 hfeed
  obtain ⟨hsame, hmem, hcalls⟩ := publications_spec hpublished
  have hpublications : run.publications k =
      Outbox.publications ofDatabase batch (run.table k) rows left := by
    rw [publications, houtcomes]
    rfl
  simp only [Accepts, Fails, hpublications, houtcomes]
  refine ⟨hrows, ?_, ?_⟩
  · rintro row ⟨call, hcall, rfl, -⟩
    exact hmem call hcall
  rcases hcalls with ⟨rfl, hreturned, haccepted⟩ | ⟨rfl, call, hcall, hraised⟩
  · refine Or.inl ⟨?_, haccepted, ?_⟩
    · rintro row ⟨call, hcall, -, hraised⟩
      cases (hreturned call hcall).symm.trans hraised
    · obtain ⟨hupdate, -⟩ := update_of_feed_save rfl hend
      rw [hupdate, update, rows_drained]
      show u.rows.map _ = (run.table k).rows.map _
      rw [hsame, List.map_map]
      rfl
  · cases hend
    exact Or.inr ⟨⟨call.row, call, hcall, rfl, hraised⟩, hsame⟩

theorem keyed_table (run : Polling P batch) (k : ℕ) : (run.table k).Keyed := by
  induction k with
  | zero => exact run.keyed
  | succ k ih =>
      obtain ⟨-, -, ⟨-, -, hrows⟩ | ⟨-, hrows⟩⟩ := run.next_spec k
      · rw [Keyed, hrows]
        exact ih.drained _
      · rw [Keyed, hrows]
        exact ih

/-- Only unpublished rows are published. -/
theorem Accepts.unpublished (h : run.Accepts k row) : row ∈ (run.table k).unpublished := by
  obtain ⟨hselects, hmem, -⟩ := run.next_spec k
  exact hselects.subset row (hmem row h)

/-- A row without its flag is not one with it. -/
theorem not_mem_unpublished (run : Polling P batch) (h : row.mark ∈ (run.table k).rows) :
    row ∉ (run.table k).unpublished := by
  intro hmem
  obtain ⟨hrow, hpublished⟩ := List.mem_filter.1 hmem
  rw [(run.keyed_table k).eq_of_id hrow h rfl] at hpublished
  cases hpublished

theorem mark_mem_succ (h : row.mark ∈ (run.table k).rows) :
    row.mark ∈ (run.table (k + 1)).rows := by
  obtain ⟨-, -, ⟨-, -, hrows⟩ | ⟨-, hrows⟩⟩ := run.next_spec k
  · rw [hrows, rows_drained]
    exact List.mem_map.2 ⟨row.mark, h, by simp⟩
  · rw [hrows]
    exact h

/-- A flag stays set. -/
theorem mark_mem_of_le (h : row.mark ∈ (run.table k).rows) (hkj : k ≤ j) :
    row.mark ∈ (run.table j).rows := by
  induction hkj with
  | refl => exact h
  | step _ ih => exact mark_mem_succ ih

/-- An unpublished row stays so, or it is published and marked. -/
theorem unpublished_succ (h : row ∈ (run.table k).unpublished) :
    row ∈ (run.table (k + 1)).unpublished ∨
      run.Accepts k row ∧ row.mark ∈ (run.table (k + 1)).rows := by
  obtain ⟨-, -, ⟨-, haccepted, hrows⟩ | ⟨-, hrows⟩⟩ := run.next_spec k
  · by_cases hid : row.id ∈ (polled (run.outcomes k)).map OutboxMessage.id
    · right
      obtain ⟨hselects, -⟩ := run.next_spec k
      obtain ⟨other, hother, hsame⟩ := List.mem_map.1 hid
      have hrow := (List.mem_filter.1 h).1
      have heq : other = row := (run.keyed_table k).eq_of_id
        (List.mem_filter.1 (hselects.subset other hother)).1 hrow hsame
      refine ⟨haccepted row (heq ▸ hother), ?_⟩
      rw [hrows, rows_drained]
      exact List.mem_map.2 ⟨row, hrow, if_pos hid⟩
    · left
      rw [unpublished_congr hrows, unpublished_drained, List.mem_filter]
      exact ⟨h, decide_eq_true hid⟩
  · left
    rw [unpublished_congr hrows]
    exact h

/-- The backlog only shrinks. -/
theorem unpublished_of_succ (h : row ∈ (run.table (k + 1)).unpublished) :
    row ∈ (run.table k).unpublished := by
  obtain ⟨-, -, ⟨-, -, hrows⟩ | ⟨-, hrows⟩⟩ := run.next_spec k
  · rw [unpublished_congr hrows, unpublished_drained] at h
    exact (List.mem_filter.1 h).1
  · rw [unpublished_congr hrows] at h
    exact h

theorem unpublished_zero (h : row ∈ (run.table k).unpublished) :
    row ∈ (run.table 0).unpublished := by
  induction k with
  | zero => exact h
  | succ k ih => exact ih (unpublished_of_succ h)

theorem length_unpublished_le (hkj : k ≤ j) :
    (run.table j).unpublished.length ≤ (run.table k).unpublished.length := by
  induction hkj with
  | refl => exact Nat.le_refl _
  | @step j _ ih =>
      have hsub : (run.table (j + 1)).unpublished ⊆ (run.table j).unpublished :=
        fun _ h => unpublished_of_succ h
      have hnodup := (run.keyed_table (j + 1)).nodup_unpublished
      exact Nat.le_trans (List.Nodup.length_le_of_subset hnodup hsub) ih

/-- An iteration that polls rows and in which nothing raises makes the backlog
shorter. -/
theorem length_unpublished_lt (hpolled : polled (run.outcomes k) ≠ [])
    (hclean : ∀ row, ¬ run.Fails k row) :
    (run.table (k + 1)).unpublished.length < (run.table k).unpublished.length := by
  obtain ⟨hselects, -, ⟨-, -, hrows⟩ | ⟨⟨row, hfails⟩, -⟩⟩ := run.next_spec k
  · have hlength := (hselects.perm (run.keyed_table k)).length_eq
    have hpos := List.length_pos_of_ne_nil hpolled
    rw [List.length_append] at hlength
    rw [unpublished_congr hrows]
    omega
  · exact absurd hfails (hclean row)

/-- Between the time a row is unpublished and the time it is not, it is published and
marked. -/
theorem exists_accepts (hkj : k ≤ j) (h : row ∈ (run.table k).unpublished)
    (hleft : row ∉ (run.table j).unpublished) :
    ∃ i, k ≤ i ∧ i < j ∧ run.Accepts i row ∧ row.mark ∈ (run.table (i + 1)).rows := by
  induction hkj with
  | refl => exact absurd h hleft
  | @step j hkj ih =>
      by_cases hmem : row ∈ (run.table j).unpublished
      · obtain ⟨haccepts, hmark⟩ := (unpublished_succ hmem).resolve_left hleft
        exact ⟨j, hkj, Nat.lt_succ_self j, haccepts, hmark⟩
      · obtain ⟨i, hi, hij, haccepts, hmark⟩ := ih hmem
        exact ⟨i, hi, Nat.lt_succ_of_lt hij, haccepts, hmark⟩

end Runs

/-! ## The runs that are spared -/

section Spared

variable [DecidableEq P] {batch : ℕ} {run : Polling P batch}

/-- An iteration that accepts a row although nothing raises has marked it. -/
theorem Spared.marked (h : run.Spared) {k : ℕ} {row : OutboxMessage P}
    (haccepts : run.Accepts k row) : row.mark ∈ (run.table (k + 1)).rows := by
  refine ((unpublished_succ haccepts.unpublished).resolve_left fun hmem => ?_).2
  obtain ⟨hselects, hpolled, ⟨-, -, hrows⟩ | ⟨⟨other, hfails⟩, -⟩⟩ := run.next_spec k
  · rw [unpublished_congr hrows, unpublished_drained, List.mem_filter] at hmem
    exact of_decide_eq_true hmem.2 (List.mem_map_of_mem (hpolled row haccepts))
  · exact h.first k other hfails row haccepts

theorem Spared.acceptedOnce (h : run.Spared) : run.AcceptedOnce := by
  intro k row haccepts
  have hmark := h.marked haccepts
  refine ⟨⟨k + 1, hmark⟩, fun j hj hagain => ?_⟩
  exact run.not_mem_unpublished (mark_mem_of_le hmark hj) hagain.unpublished

/-- Each turn makes the backlog shorter, until the row is published. -/
theorem Spared.exists_marked (h : run.Spared) {row : OutboxMessage P}
    (hkeeps : ¬ run.KeepsFailing row) (n : ℕ) {k : ℕ}
    (hrow : row ∈ (run.table k).unpublished) (hn : (run.table k).unpublished.length = n) :
    ∃ i, run.Accepts i row ∧ row.mark ∈ (run.table (i + 1)).rows := by
  induction n using Nat.strongRecOn generalizing k with
  | _ n ih =>
      obtain ⟨j, hkj, hpolled, hclean⟩ := h.turns k row hrow hkeeps
      by_cases hj : row ∈ (run.table (j + 1)).unpublished
      · have hshorter : (run.table (j + 1)).unpublished.length < n :=
          hn ▸ Nat.lt_of_lt_of_le (length_unpublished_lt hpolled hclean)
            (length_unpublished_le hkj)
        exact ih _ hshorter hj rfl
      · obtain ⟨i, -, -, hi⟩ := exists_accepts (Nat.le_succ_of_le hkj) hrow hj
        exact ⟨i, hi⟩

theorem Spared.costsNoOther (h : run.Spared) : run.CostsNoOther :=
  ⟨h.acceptedOnce, fun _ hrow hkeeps => h.exists_marked hkeeps _ hrow rfl⟩

/-- What an iteration accepts before it raises is accepted again or never marked. -/
theorem CostsNoOther.first (h : run.CostsNoOther) {k : ℕ} {row other : OutboxMessage P}
    (hfails : run.Fails k row) : ¬ run.Accepts k other := by
  intro haccepts
  obtain ⟨⟨j, hmark⟩, honce⟩ := h.once k other haccepts
  have hstays : other ∈ (run.table (k + 1)).unpublished := by
    obtain ⟨-, -, ⟨hclean, -⟩ | ⟨-, hrows⟩⟩ := run.next_spec k
    · exact absurd hfails (hclean row)
    · rw [unpublished_congr hrows]
      exact haccepts.unpublished
  have hgone := run.not_mem_unpublished hmark
  rcases Nat.le_total (k + 1) j with hkj | hjk
  · obtain ⟨i, hi, -, hagain, -⟩ := exists_accepts hkj hstays hgone
    exact honce i hi hagain
  · exact run.not_mem_unpublished (mark_mem_of_le hmark hjk) hstays

theorem CostsNoOther.spared (h : run.CostsNoOther) : run.Spared := by
  refine ⟨fun k row hfails other => h.first hfails, fun k row hrow hkeeps => ?_⟩
  obtain ⟨j, haccepts, hmark⟩ := h.others row (unpublished_zero hrow) hkeeps
  refine ⟨j, ?_, ?_, fun other hfails => h.first hfails haccepts⟩
  · by_contra hjk
    exact run.not_mem_unpublished (mark_mem_of_le hmark (Nat.not_le.1 hjk)) hrow
  · obtain ⟨-, hpolled, -⟩ := run.next_spec j
    exact List.ne_nil_of_mem (hpolled row haccepts)

end Spared

/-- In a run of a dispatcher whose publications may raise, a row that the broker has
accepted is marked and not published again, and the rows that do not keep failing are
published and marked, exactly when the run is spared: a publication raises only in an
iteration in which the broker has accepted nothing, and while a row is left that does
not keep failing, iterations follow that poll rows and in which nothing raises. -/
theorem costsNoOther_iff [DecidableEq P] {batch : ℕ} (run : Polling P batch) :
    run.CostsNoOther ↔ run.Spared :=
  ⟨CostsNoOther.spared, Spared.costsNoOther⟩

end Polling

/-! ## A row that is never accepted -/

/-- Three rows, of which the broker accepts all but the second. -/
def firstRow : OutboxMessage String := ⟨"1", "OrderCreated", "order 1", false, 0⟩

def badRow : OutboxMessage String := ⟨"2", "OrderCreated", "order 2", false, 1⟩

def lastRow : OutboxMessage String := ⟨"3", "OrderCreated", "order 3", false, 2⟩

/-- The first row is accepted, the second one is refused at three attempts. -/
def poisonedOutcomes : List (Outcome String) :=
  [.selected [firstRow, badRow, lastRow], .done, .failed, .done, .failed, .done, .done, .done,
    .failed]

/-- The table before each iteration. -/
def poisonedTable : ℕ → Table String
  | 0 => { Table.empty with rows := [firstRow, badRow, lastRow] }
  | k + 1 =>
      ((((poisonedTable k).hand true firstRow.body).hand false badRow.body).hand false
        badRow.body).hand false badRow.body

theorem rows_poisonedTable (k : ℕ) :
    (poisonedTable k).rows = [firstRow, badRow, lastRow] := by
  induction k with
  | zero => rfl
  | succ k ih => exact ih

theorem selects_poisonedTable (k : ℕ) :
    (poisonedTable k).Selects 50 [firstRow, badRow, lastRow] := by
  have hzero : (poisonedTable 0).Selects 50 [firstRow, badRow, lastRow] := by decide
  have hsame : (poisonedTable k).unpublished = (poisonedTable 0).unpublished :=
    Polling.unpublished_congr (rows_poisonedTable k)
  refine ⟨hzero.nodup, ?_, hzero.ordered, hzero.bounded, ?_⟩
  · rw [hsame]
    exact hzero.subset
  · rw [hsame]
    exact hzero.oldest

theorem keyed_poisonedTable : (poisonedTable 0).Keyed := by
  unfold Keyed
  decide

theorem pass_poisonedTable (k : ℕ) :
    pass ofDatabase 50 (poisonedTable k) poisonedOutcomes = some (poisonedTable (k + 1)) := by
  have hrows : (publishRows [firstRow, badRow, lastRow]).feed (trusting ofDatabase 50)
      (poisonedTable k) poisonedOutcomes.tail = some (none, poisonedTable (k + 1), []) := rfl
  refine pass_eq_some.2 ⟨none, ?_⟩
  rw [poisonedOutcomes, feed_iteration (selects_poisonedTable k)]
  exact congrArg (Option.bind · _) hrows

/-- The second row fails in every iteration. -/
def poisoned : Polling String 50 where
  table := poisonedTable
  outcomes := fun _ => poisonedOutcomes
  keyed := keyed_poisonedTable
  next := pass_poisonedTable

theorem publications_poisoned (k : ℕ) :
    poisoned.publications k = [⟨firstRow, true, true⟩, ⟨badRow, false, false⟩] := by
  have hfirst : (publish firstRow.routingKey firstRow.payload).feed (trusting ofDatabase 50)
      (poisonedTable k) poisonedOutcomes.tail =
        some (some (), (poisonedTable k).hand true firstRow.body, poisonedOutcomes.tail.tail) := rfl
  have hbad : (publish badRow.routingKey badRow.payload).feed (trusting ofDatabase 50)
      ((poisonedTable k).hand true firstRow.body) poisonedOutcomes.tail.tail =
        some (none, poisonedTable (k + 1), []) := rfl
  show publications ofDatabase 50 (poisonedTable k) [firstRow, badRow, lastRow]
    poisonedOutcomes.tail = _
  simp only [publications, hfirst, hbad]
  simp [poisonedTable, hand]

/-- The first row is accepted in every iteration, and the last one in none. -/
theorem not_costsNoOther_poisoned : ¬ poisoned.CostsNoOther := by
  rintro ⟨honce, -⟩
  have haccepts (k : ℕ) : poisoned.Accepts k firstRow := by
    rw [Polling.Accepts, publications_poisoned]
    exact ⟨_, List.mem_cons_self, rfl, rfl⟩
  exact (honce 0 firstRow (haccepts 0)).2 1 Nat.one_pos (haccepts 1)

end Outbox

end FlashSale
