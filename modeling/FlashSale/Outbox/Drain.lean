import FlashSale.Outbox.Delivery
import FlashSale.Outbox.Iteration

/-!
# A backlog is drained in order

Iterations without faults over one table, into which nothing is inserted. An
iteration publishes the rows that it selects and marks them (`drained`); it has
no other way to go. What a number of iterations has done is recorded by
`Drains`: the rows sent so far are the oldest ones, in order, and the rest of the
backlog is still to come.
-/

namespace FlashSale

variable {P : Type}

@[simp] theorem OutboxMessage.mark_mark (row : OutboxMessage P) : row.mark.mark = row.mark := rfl

@[simp] theorem OutboxMessage.mark_id (row : OutboxMessage P) : row.mark.id = row.id := rfl

theorem OutboxMessage.mark_of_published {row : OutboxMessage P} (h : row.published = true) :
    row.mark = row := by
  rw [OutboxMessage.mark, ← h]

namespace Outbox

open Table

/-- The outcomes of the calls of an iteration without faults that selects `rows`. -/
def faultless (rows : List (OutboxMessage P)) : List (Outcome P) :=
  .selected rows :: (List.replicate rows.length .done ++ if rows.isEmpty then [] else [.done])

/-- The rows are published and marked. -/
def Table.drained (s : Table P) (rows : List (OutboxMessage P)) : Table P :=
  (s.sent (rows.map OutboxMessage.body) (rows.map OutboxMessage.body)).update
    (rows.map OutboxMessage.mark)

/-! ## An iteration without faults -/

section Iteration

variable [DecidableEq P] {trusted : DispatcherCall P → Bool} {batch : ℕ} {s t : Table P}

theorem feed_publishRows_done (s : Table P) (rows : List (OutboxMessage P))
    (rest : List (Outcome P)) :
    (publishRows rows).feed (trusting trusted batch) s
        (List.replicate rows.length .done ++ rest) =
      some (some (rows.map OutboxMessage.mark),
        s.sent (rows.map OutboxMessage.body) (rows.map OutboxMessage.body), rest) := by
  induction rows generalizing s with
  | nil =>
      show (Prog.ret [] : Dispatch P (List (OutboxMessage P))).feed _ s rest = _
      rw [Prog.feed_ret, List.map_nil, List.map_nil, sent_nil]
  | cons row rows ih =>
      rw [List.length_cons, List.replicate_succ, List.cons_append, feed_publishRows_cons,
        feed_publish_done]
      show Option.map _ ((publishRows rows).feed (trusting trusted batch) _ _) = _
      rw [ih, sent_sent]
      rfl

/-- An iteration without faults publishes and marks what it selects. -/
theorem pass_faultless {rows : List (OutboxMessage P)} (h : s.Selects batch rows) :
    pass trusted batch s (faultless rows) = some (s.drained rows) := by
  refine pass_eq_some.2 ⟨some (), ?_⟩
  rw [faultless, feed_iteration h, feed_publishRows_done]
  cases rows with
  | nil =>
      show (Prog.ret () : Dispatch P Unit).feed (trusting trusted batch) _ [] = _
      rw [Prog.feed_ret, drained, List.map_nil, List.map_nil, update_nil]
  | cons row rows => rfl

/-- A publication that cannot fail succeeds at the first attempt. -/
theorem done_of_feed_publish {row : OutboxMessage P} {outcomes : List (Outcome P)}
    {r : Option Unit × Table P × List (Outcome P)}
    (h : (RabbitMQClient.publish row.routingKey row.payload).feed
      (trusting (fun _ => true) batch) s outcomes = some r) :
    ∃ rest, outcomes = .done :: rest := by
  rw [RabbitMQClient.publish, Prog.feed_orElse] at h
  obtain ⟨r', hfirst, -⟩ := Option.bind_eq_some_iff.1 h
  cases outcomes with
  | nil => cases hfirst
  | cons outcome rest =>
      obtain ⟨answer, hanswer, -⟩ := Option.bind_eq_some_iff.1 hfirst
      cases outcome with
      | done => exact ⟨rest, rfl⟩
      | failed => cases hanswer
      | unconfirmed => cases hanswer
      | selected rows => cases hanswer

theorem done_of_feed_publishRows {rows : List (OutboxMessage P)} {outcomes : List (Outcome P)}
    {r : Option (List (OutboxMessage P)) × Table P × List (Outcome P)}
    (h : (publishRows rows).feed (trusting (fun _ => true) batch) s outcomes = some r) :
    ∃ rest, outcomes = List.replicate rows.length .done ++ rest := by
  induction rows generalizing s outcomes r with
  | nil => exact ⟨outcomes, rfl⟩
  | cons row rows ih =>
      rw [feed_publishRows_cons] at h
      obtain ⟨r', hfirst, hrest⟩ := Option.bind_eq_some_iff.1 h
      obtain ⟨rest, rfl⟩ := done_of_feed_publish hfirst
      rw [feed_publish_done] at hfirst
      cases hfirst
      obtain ⟨r'', hrows, -⟩ := Option.map_eq_some_iff.1 hrest
      obtain ⟨left, rfl⟩ := ih hrows
      exact ⟨left, rfl⟩

/-- An iteration in which no call fails is one without faults. -/
theorem faultless_of_pass {outcomes : List (Outcome P)}
    (h : pass (fun _ => true) batch s outcomes = some t) :
    ∃ rows, s.Selects batch rows ∧ t = s.drained rows := by
  obtain ⟨r, hfeed⟩ := pass_eq_some.1 h
  obtain ⟨rows, left, rfl, hrows⟩ := selects_of_feed_iteration rfl hfeed
  refine ⟨rows, hrows, ?_⟩
  rw [feed_iteration hrows] at hfeed
  obtain ⟨r', hpublished, hsaved⟩ := Option.bind_eq_some_iff.1 hfeed
  obtain ⟨rest, rfl⟩ := done_of_feed_publishRows hpublished
  rw [feed_publishRows_done] at hpublished
  cases hpublished
  exact (update_of_feed_save rfl hsaved).1

end Iteration

/-! ## What a poll selects -/

section Selection

variable {s : Table P} {rows : List (OutboxMessage P)}

/-- The primary key. -/
def Table.Keyed (s : Table P) : Prop := (s.rows.map OutboxMessage.id).Nodup

theorem Table.Keyed.eq_of_id (h : s.Keyed) {row row' : OutboxMessage P} (hrow : row ∈ s.rows)
    (hrow' : row' ∈ s.rows) (hid : row.id = row'.id) : row = row' :=
  List.inj_on_of_nodup_map h hrow hrow' hid

theorem Table.Keyed.nodup_unpublished (h : s.Keyed) : s.unpublished.Nodup :=
  (List.Nodup.of_map _ h).filter _

@[simp] theorem rows_drained (s : Table P) (rows : List (OutboxMessage P)) :
    (s.drained rows).rows = s.rows.map fun row =>
      if row.id ∈ rows.map OutboxMessage.id then row.mark else row := by
  have hids : (rows.map OutboxMessage.mark).map OutboxMessage.id =
      rows.map OutboxMessage.id := by
    rw [List.map_map]
    rfl
  rw [drained, update, hids]
  rfl

/-- Setting flags changes no id. -/
theorem Table.Keyed.of_marked {t : Table P} (h : s.Keyed) {ids : List String}
    (hrows : t.rows = s.rows.map fun row => if row.id ∈ ids then row.mark else row) :
    t.Keyed := by
  have hids : t.rows.map OutboxMessage.id = s.rows.map OutboxMessage.id := by
    rw [hrows, List.map_map]
    refine List.map_congr_left fun row _ => ?_
    show (if row.id ∈ ids then row.mark else row).id = row.id
    split <;> rfl
  rw [Keyed, hids]
  exact h

theorem Table.Keyed.drained (h : s.Keyed) (rows : List (OutboxMessage P)) :
    (s.drained rows).Keyed := h.of_marked (rows_drained s rows)

/-- What is left to publish. -/
theorem unpublished_drained (s : Table P) (rows : List (OutboxMessage P)) :
    (s.drained rows).unpublished =
      s.unpublished.filter fun row => row.id ∉ rows.map OutboxMessage.id := by
  rw [unpublished, unpublished, rows_drained]
  generalize rows.map OutboxMessage.id = ids
  induction s.rows with
  | nil => rfl
  | cons row rest ih =>
      rw [List.map_cons, List.filter_cons, List.filter_cons, ih]
      by_cases hid : row.id ∈ ids
      · rw [if_pos hid]
        cases hpublished : row.published with
        | true => simp [OutboxMessage.mark]
        | false => simp [OutboxMessage.mark, hid]
      · rw [if_neg hid]
        cases hpublished : row.published with
        | true => simp
        | false => simp [hid]

variable [DecidableEq P] {batch : ℕ}

/-- The rows selected and the rows left make up the backlog. -/
theorem Table.Selects.perm (h : s.Selects batch rows) (hkeys : s.Keyed) :
    (rows ++ (s.drained rows).unpublished).Perm s.unpublished := by
  have hmem (row : OutboxMessage P) : row ∈ rows ↔
      row ∈ s.unpublished.filter fun row => row.id ∈ rows.map OutboxMessage.id := by
    rw [List.mem_filter, decide_eq_true_iff, List.mem_map]
    constructor
    · intro hrow
      exact ⟨h.subset row hrow, row, hrow, rfl⟩
    · rintro ⟨hrow, other, hother, hid⟩
      have hother' := (List.mem_filter.1 (h.subset other hother)).1
      exact hkeys.eq_of_id hother' (List.mem_filter.1 hrow).1 hid ▸ hother
  have hrows : rows.Perm (s.unpublished.filter fun row => row.id ∈ rows.map OutboxMessage.id) :=
    (List.perm_ext_iff_of_nodup h.nodup (hkeys.nodup_unpublished.filter _)).2 hmem
  rw [unpublished_drained]
  refine (hrows.append_right _).trans ?_
  generalize rows.map OutboxMessage.id = ids
  simpa using List.filter_append_perm (fun row => decide (row.id ∈ ids)) s.unpublished

theorem Table.Selects.length_eq (h : s.Selects batch rows) (hkeys : s.Keyed) :
    rows.length = min batch s.unpublished.length := by
  have hle : rows.length ≤ s.unpublished.length := by
    have hlength := (h.perm hkeys).length_eq
    rw [List.length_append] at hlength
    omega
  by_cases hfull : rows.length = batch
  · omega
  · have hall : s.unpublished ⊆ rows := fun row hrow =>
      (h.oldest row hrow).resolve_right fun hcut => hfull hcut.1
    have hge := List.Nodup.length_le_of_subset hkeys.nodup_unpublished hall
    have hbounded := h.bounded
    omega

/-- The rows left are no older than the rows selected. -/
theorem Table.Selects.le_left (h : s.Selects batch rows) {row left : OutboxMessage P}
    (hrow : row ∈ rows) (hleft : left ∈ (s.drained rows).unpublished) :
    row.createdAt ≤ left.createdAt := by
  rw [unpublished_drained, List.mem_filter, decide_eq_true_iff] at hleft
  rcases h.oldest left hleft.1 with hmem | ⟨-, hcut⟩
  · exact absurd (List.mem_map_of_mem hmem) hleft.2
  · exact hcut row hrow

end Selection

/-! ## Many iterations -/

/-- What `k` iterations without faults have done: they have sent `sent`, the oldest
rows of the backlog in order. -/
structure Drains (batch : ℕ) (s : Table P) (k : ℕ) (sent : List (OutboxMessage P))
    (t : Table P) : Prop where
  backlog : (sent ++ t.unpublished).Perm s.unpublished
  ordered : sent.Pairwise fun a b => a.createdAt ≤ b.createdAt
  oldest : ∀ row ∈ sent, ∀ left ∈ t.unpublished, row.createdAt ≤ left.createdAt
  left : t.unpublished.length = s.unpublished.length - k * batch
  rows : t.rows = s.rows.map fun row =>
    if row.id ∈ sent.map OutboxMessage.id then row.mark else row
  accepted : t.accepted = s.accepted ++ sent.map OutboxMessage.body
  handed : t.handed = s.handed ++ sent.map OutboxMessage.body

theorem Drains.refl (batch : ℕ) (s : Table P) : Drains batch s 0 [] s where
  backlog := .refl _
  ordered := .nil
  oldest := by simp
  left := by simp
  rows := by simp
  accepted := by simp
  handed := by simp

/-- One more iteration, before the others. -/
theorem Drains.cons [DecidableEq P] {batch k : ℕ} {s t : Table P}
    {rows sent : List (OutboxMessage P)} (hkeys : s.Keyed) (hrows : s.Selects batch rows)
    (h : Drains batch (s.drained rows) k sent t) : Drains batch s (k + 1) (rows ++ sent) t where
  backlog := by
    rw [List.append_assoc]
    exact (h.backlog.append_left rows).trans (hrows.perm hkeys)
  ordered := by
    refine List.pairwise_append.2 ⟨hrows.ordered, h.ordered, ?_⟩
    intro row hrow left hleft
    exact hrows.le_left hrow (h.backlog.subset (List.mem_append_left _ hleft))
  oldest := by
    intro row hrow left hleft
    rcases List.mem_append.1 hrow with hrow | hrow
    · exact hrows.le_left hrow (h.backlog.subset (List.mem_append_right _ hleft))
    · exact h.oldest row hrow left hleft
  left := by
    have hlength := (hrows.perm hkeys).length_eq
    have hselected := hrows.length_eq hkeys
    rw [List.length_append] at hlength
    rw [h.left, Nat.add_mul]
    omega
  rows := by
    rw [h.rows, rows_drained, List.map_map]
    refine List.map_congr_left fun row _ => ?_
    rw [List.map_append]
    simp only [Function.comp_apply, List.mem_append]
    by_cases hid : row.id ∈ rows.map OutboxMessage.id
    · simp [hid]
    · simp [hid]
  accepted := by
    rw [h.accepted, List.map_append, ← List.append_assoc]
    rfl
  handed := by
    rw [h.handed, List.map_append, ← List.append_assoc]
    rfl

theorem Drains.of_run [DecidableEq P] {batch : ℕ} {s t : Table P}
    {iterations : List (List (Outcome P))} (hkeys : s.Keyed)
    (h : Schedule.run (pass (fun _ => true) batch) s iterations = some t) :
    ∃ sent, Drains batch s iterations.length sent t := by
  induction iterations generalizing s with
  | nil =>
      cases h
      exact ⟨[], .refl batch _⟩
  | cons outcomes iterations ih =>
      obtain ⟨u, hu, hrest⟩ := Schedule.run_cons_eq_some.1 h
      obtain ⟨rows, hrows, rfl⟩ := faultless_of_pass hu
      obtain ⟨sent, hsent⟩ := ih (hkeys.drained rows) hrest
      exact ⟨rows ++ sent, hsent.cons hkeys hrows⟩

/-- Without faults the loop goes on for as long as one likes. -/
theorem exists_run [DecidableEq P] (batch : ℕ) {s : Table P} (hkeys : s.Keyed) (k : ℕ) :
    ∃ iterations t, iterations.length = k ∧
      Schedule.run (pass (fun _ => true) batch) s iterations = some t := by
  induction k generalizing s with
  | zero => exact ⟨[], _, rfl, rfl⟩
  | succ k ih =>
      obtain ⟨rows, hrows⟩ := exists_selects (List.Nodup.of_map _ hkeys) batch
      obtain ⟨iterations, t, hlength, hrun⟩ := ih (hkeys.drained rows)
      refine ⟨faultless rows :: iterations, t, congrArg (· + 1) hlength, ?_⟩
      rw [Schedule.run_cons, pass_faultless hrows]
      exact hrun

/-- A drained backlog stays drained, and nothing more is sent. -/
theorem Drains.of_empty {batch k : ℕ} {s t : Table P} {sent : List (OutboxMessage P)}
    (h : Drains batch s k sent t) (hempty : s.unpublished = []) :
    t.accepted = s.accepted ∧ t.handed = s.handed := by
  have hnil : sent = [] := by
    have hlength := h.backlog.length_eq
    rw [hempty, List.length_append, List.length_nil] at hlength
    exact List.eq_nil_of_length_eq_zero (Nat.eq_zero_of_add_eq_zero_right hlength)
  subst hnil
  exact ⟨by simpa using h.accepted, by simpa using h.handed⟩

/-- A dispatcher alone with a table of `n` unpublished rows, without faults: whatever
rows of one age its polls prefer, after `⌈n / batch⌉` iterations every row is marked,
the unpublished rows have been published once each and no others, in the order of
`created_at`, and no later iteration publishes anything. -/
theorem backlog_drained [DecidableEq P] {batch : ℕ} (hbatch : 0 < batch) {s : Table P}
    (hkeys : s.Keyed) :
    (∀ k, ∃ iterations t, iterations.length = k ∧
        Schedule.run (pass (fun _ => true) batch) s iterations = some t) ∧
      ∀ iterations t, iterations.length = (s.unpublished.length + batch - 1) / batch →
        Schedule.run (pass (fun _ => true) batch) s iterations = some t →
          t.rows = s.rows.map OutboxMessage.mark ∧
          (∃ sent : List (OutboxMessage P), sent.Perm s.unpublished ∧
            sent.Pairwise (fun a b => a.createdAt ≤ b.createdAt) ∧
            t.accepted = s.accepted ++ sent.map OutboxMessage.body ∧
            t.handed = s.handed ++ sent.map OutboxMessage.body) ∧
          ∀ later u, Schedule.run (pass (fun _ => true) batch) t later = some u →
            u.accepted = t.accepted ∧ u.handed = t.handed := by
  refine ⟨exists_run batch hkeys, fun iterations t hlength hrun => ?_⟩
  obtain ⟨sent, h⟩ := Drains.of_run hkeys hrun
  have hempty : t.unpublished = [] := by
    have hall : s.unpublished.length ≤ iterations.length * batch := by
      rw [hlength]
      have hdiv := Nat.div_add_mod (s.unpublished.length + batch - 1) batch
      have hmod := Nat.mod_lt (s.unpublished.length + batch - 1) hbatch
      rw [Nat.mul_comm] at hdiv
      omega
    exact List.eq_nil_of_length_eq_zero (h.left.trans (Nat.sub_eq_zero_of_le hall))
  have hsent : sent.Perm s.unpublished := by simpa [hempty] using h.backlog
  refine ⟨?_, ⟨sent, hsent, h.ordered, h.accepted, h.handed⟩, ?_⟩
  · rw [h.rows]
    refine List.map_congr_left fun row hrow => ?_
    cases hpublished : row.published with
    | true => rw [OutboxMessage.mark_of_published hpublished, ite_self]
    | false =>
        have hmem : row ∈ sent := hsent.symm.subset
          (List.mem_filter.2 ⟨hrow, by simp [hpublished]⟩)
        rw [if_pos (List.mem_map_of_mem hmem)]
  · intro later u hlater
    obtain ⟨none, hnone⟩ := Drains.of_run (hkeys.of_marked h.rows) hlater
    exact hnone.of_empty hempty

/-- A published row and three unpublished ones, of which two are of one age. -/
def tied : Table String :=
  { Table.empty with
    rows := [⟨"1", "OrderCreated", "order 1", true, 4⟩, ⟨"2", "OrderCreated", "order 2", false, 9⟩,
      ⟨"3", "OrderCreated", "order 3", false, 5⟩, ⟨"4", "OrderCreated", "order 4", false, 9⟩] }

theorem tied_keyed : tied.Keyed := by
  unfold Keyed
  decide

theorem backlog_drained_tied : ∃ iterations t, iterations.length = 2 ∧
    Schedule.run (pass (fun _ => true) 2) tied iterations = some t ∧
      t.rows = tied.rows.map OutboxMessage.mark ∧
      ∃ sent : List (OutboxMessage String), sent.Perm tied.unpublished ∧
        sent.Pairwise (fun a b => a.createdAt ≤ b.createdAt) ∧
        t.accepted = tied.accepted ++ sent.map OutboxMessage.body := by
  have hdrained := backlog_drained (s := tied) (Nat.zero_lt_succ 1) tied_keyed
  obtain ⟨iterations, t, hlength, hrun⟩ := hdrained.1 2
  obtain ⟨hrows, ⟨sent, hperm, hordered, haccepted, -⟩, -⟩ :=
    hdrained.2 iterations t (hlength.trans (by decide)) hrun
  exact ⟨iterations, t, hlength, hrun, hrows, sent, hperm, hordered, haccepted⟩

end Outbox

end FlashSale
