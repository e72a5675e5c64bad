import FlashSale.Outbox.Ledger
import FlashSale.Outbox.Table

/-!
# The outbox loses nothing and invents nothing

Rows are never deleted and their contents never change (`Grows`), so the table
keeps backing the ledger of every running dispatcher. What a dispatcher commits
was therefore accepted, and what it hands to the broker is committed.
-/

namespace FlashSale

namespace Outbox

variable {P : Type}

/-- The program that a dispatcher is running. -/
def Dispatcher.prog : Dispatcher P → Option (Dispatch P Unit)
  | .starting prog => some prog
  | .polling prog => some prog
  | _ => none

namespace Table

variable {s t u : Table P}

/-- Rows are kept with their contents, and so is what the broker has accepted. -/
structure Grows (s t : Table P) : Prop where
  rows : ∀ row ∈ s.rows, row ∈ t.rows ∨ row.mark ∈ t.rows
  accepted : s.accepted ⊆ t.accepted

theorem Grows.refl (s : Table P) : s.Grows s :=
  ⟨fun _ hrow => Or.inl hrow, List.Subset.refl _⟩

theorem Grows.trans (hst : s.Grows t) (htu : t.Grows u) : s.Grows u := by
  refine ⟨fun row hrow => ?_, fun b hb => htu.accepted (hst.accepted hb)⟩
  rcases hst.rows row hrow with hrow | hrow
  · exact htu.rows row hrow
  · rcases htu.rows row.mark hrow with hmark | hmark
    · exact Or.inr hmark
    · exact Or.inr hmark

theorem grows_update (marked : List (OutboxMessage P)) : s.Grows (s.update marked) := by
  refine ⟨fun row hrow => ?_, List.Subset.refl _⟩
  by_cases hid : row.id ∈ marked.map OutboxMessage.id
  · exact Or.inr (List.mem_map.2 ⟨row, hrow, if_pos hid⟩)
  · exact Or.inl (List.mem_map.2 ⟨row, hrow, if_neg hid⟩)

theorem grows_hand (accepts : Bool) (body : String × P) : s.Grows (s.hand accepts body) := by
  refine ⟨fun row hrow => Or.inl hrow, ?_⟩
  cases accepts with
  | true => exact List.subset_append_left _ _
  | false => exact List.Subset.refl _

/-- The rows of a ledger are in the table, and its messages were accepted. -/
structure Backs (s : Table P) (g : Ledger P) : Prop where
  unread : ∀ row ∈ g.seen, row.published = false
  seen : ∀ row ∈ g.seen, row ∈ s.rows ∨ row.mark ∈ s.rows
  confirmed : g.confirmed ⊆ s.accepted

theorem Backs.mono {g : Ledger P} (h : s.Backs g) (hst : s.Grows t) : t.Backs g := by
  refine ⟨h.unread, fun row hrow => ?_, fun b hb => hst.accepted (h.confirmed hb)⟩
  rcases h.seen row hrow with hrow | hrow
  · exact hst.rows row hrow
  · rcases hst.rows row.mark hrow with hmark | hmark
    · exact Or.inr hmark
    · exact Or.inr hmark

/-- What holds of the table in every state reached. -/
structure Inv (s : Table P) : Prop where
  ids : s.ids.Nodup
  fresh : ∀ entry ∈ s.pending, entry.2.published = false
  published : ∀ row ∈ s.rows, row.published = true → row.body ∈ s.accepted
  handed : ∀ body ∈ s.handed, ∃ row ∈ s.rows, row.body = body

theorem mem_update {marked : List (OutboxMessage P)} {row' : OutboxMessage P}
    (h : row' ∈ (s.update marked).rows) :
    ∃ row ∈ s.rows, row' = row ∨ row.id ∈ marked.map OutboxMessage.id ∧ row' = row.mark := by
  obtain ⟨row, hrow, rfl⟩ := List.mem_map.1 h
  refine ⟨row, hrow, ?_⟩
  by_cases hid : row.id ∈ marked.map OutboxMessage.id
  · exact Or.inr ⟨hid, if_pos hid⟩
  · exact Or.inl (if_neg hid)

theorem ids_update (marked : List (OutboxMessage P)) : (s.update marked).ids = s.ids := by
  have hid : ∀ row : OutboxMessage P,
      (if row.id ∈ marked.map OutboxMessage.id then row.mark else row).id = row.id := by
    intro row
    split <;> rfl
  simp only [ids, update, List.map_map]
  exact congrArg (· ++ _) (List.map_congr_left fun row _ => hid row)

/-- Committing rows whose messages were confirmed. -/
theorem Inv.update {g : Ledger P} {marked : List (OutboxMessage P)} (h : s.Inv) (hg : s.Backs g)
    (hmarked : ∀ row ∈ marked, g.Marks row) : (s.update marked).Inv := by
  have hids : (s.rows.map OutboxMessage.id).Nodup := (List.nodup_append.1 h.ids).1
  refine ⟨(ids_update marked).symm ▸ h.ids, h.fresh, ?_, ?_⟩
  · intro row' hrow' hpublished
    obtain ⟨row, hrow, rfl | ⟨hid, rfl⟩⟩ := mem_update hrow'
    · exact h.published row' hrow hpublished
    · obtain ⟨m, hm, hmid⟩ := List.mem_map.1 hid
      obtain ⟨r, hr, rfl, hbody⟩ := hmarked m hm
      -- the row with the id of the one that was read has its contents
      have hsame : row.body = r.body := by
        rcases hg.seen r hr with hr | hr
        · rw [List.inj_on_of_nodup_map hids hr hrow hmid]
        · rw [← List.inj_on_of_nodup_map hids hr hrow hmid]
          rfl
      exact hsame ▸ hg.confirmed hbody
  · intro body hbody
    obtain ⟨row, hrow, rfl⟩ := h.handed body hbody
    rcases (grows_update marked).rows row hrow with hrow | hrow
    · exact ⟨row, hrow, rfl⟩
    · exact ⟨row.mark, hrow, rfl⟩

/-- Handing the broker the message of a row that was read. -/
theorem Inv.hand {g : Ledger P} {body : String × P} (h : s.Inv) (hg : s.Backs g)
    (hbody : ∃ row ∈ g.seen, row.body = body) (accepts : Bool) : (s.hand accepts body).Inv := by
  refine ⟨h.ids, h.fresh, ?_, ?_⟩
  · intro row hrow hpublished
    exact (grows_hand accepts body).accepted (h.published row hrow hpublished)
  · intro b hb
    rcases List.mem_append.1 hb with hb | hb
    · exact h.handed b hb
    · obtain ⟨row, hrow, rfl⟩ := hbody
      rw [List.mem_singleton.1 hb]
      rcases hg.seen row hrow with hrow | hrow
      · exact ⟨row, hrow, rfl⟩
      · exact ⟨row.mark, hrow, rfl⟩

/-- What one call of a dispatcher does to the table and to its ledger. -/
structure Performed (s : Table P) (g : Ledger P) (t : Table P) : Prop where
  inv : t.Inv
  grows : s.Grows t
  backs : t.Backs g
  dispatchers : t.dispatchers = s.dispatchers

theorem Inv.perform [DecidableEq P] {batch : ℕ} {outcome : Outcome P} {e : DispatcherCall P}
    {r : e.Answer × Table P} {g : Ledger P} (h : s.Inv) (hg : s.Backs g)
    (he : terms.admits g e) (hr : s.perform batch outcome e = some r) :
    Performed s (terms.next g e r.1) r.2 := by
  have hhand : ∀ accepts routingKey payload, e = .publish routingKey payload →
      Performed s g (s.hand accepts (routingKey, payload)) := by
    rintro accepts routingKey payload rfl
    exact ⟨h.hand hg he accepts, grows_hand _ _, hg.mono (grows_hand _ _), rfl⟩
  have hupdate : ∀ rows, e = .commit rows → Performed s g (s.update rows) := by
    rintro rows rfl
    exact ⟨h.update hg he, grows_update _, hg.mono (grows_update _), rfl⟩
  have hsame : Performed s g s := ⟨h, .refl s, hg, rfl⟩
  cases e with
  | select =>
      cases outcome with
      | selected rows =>
          simp only [Table.perform] at hr
          split at hr
          · rename_i hselects
            cases hr
            refine ⟨h, .refl s, ⟨?_, ?_, hg.confirmed⟩, rfl⟩
            · intro row hrow
              rcases List.mem_append.1 hrow with hrow | hrow
              · exact hg.unread row hrow
              · simpa using (List.mem_filter.1 (hselects.subset row hrow)).2
            · intro row hrow
              rcases List.mem_append.1 hrow with hrow | hrow
              · exact hg.seen row hrow
              · exact Or.inl (List.mem_filter.1 (hselects.subset row hrow)).1
          · cases hr
      | failed =>
          cases hr
          exact hsame
      | done => cases hr
      | unconfirmed => cases hr
  | publish routingKey payload =>
      cases outcome with
      | done =>
          cases hr
          obtain ⟨hinv, hgrows, hbacks, hsame⟩ := hhand true routingKey payload rfl
          refine ⟨hinv, hgrows, ⟨hbacks.unread, hbacks.seen, ?_⟩, hsame⟩
          intro b hb
          rcases List.mem_append.1 hb with hb | hb
          · exact hbacks.confirmed hb
          · exact List.mem_append_right _ hb
      | failed =>
          cases hr
          exact hhand false routingKey payload rfl
      | unconfirmed =>
          cases hr
          exact hhand true routingKey payload rfl
      | selected rows => cases hr
  | commit rows =>
      cases outcome with
      | done =>
          cases hr
          exact hupdate rows rfl
      | failed =>
          cases hr
          exact hsame
      | unconfirmed =>
          cases hr
          exact hupdate rows rfl
      | selected rows => cases hr
  | openChannel | close | connectRobust =>
      cases outcome with
      | done =>
          cases hr
          exact hsame
      | failed =>
          cases hr
          exact hsame
      | unconfirmed => cases hr
      | selected rows => cases hr

/-- Every running program keeps to a ledger that the table backs. -/
def Ledgers (s : Table P) : Prop :=
  ∀ i, ∀ prog ∈ (s.dispatchers i).prog, ∃ g, s.Backs g ∧ Sound prog g

theorem become_same (i : ℕ) (d : Dispatcher P) : (s.become i d).dispatchers i = d := by
  simp [become]

theorem become_other {i j : ℕ} {d : Dispatcher P} (h : j ≠ i) :
    (s.become i d).dispatchers j = s.dispatchers j := by
  simp [become, h]

theorem Ledgers.mono (h : s.Ledgers) (hst : s.Grows t) (hsame : t.dispatchers = s.dispatchers) :
    t.Ledgers := by
  intro i prog hprog
  obtain ⟨g, hg, hsound⟩ := h i prog (hsame ▸ hprog)
  exact ⟨g, hg.mono hst, hsound⟩

theorem Inv.become {i : ℕ} {d : Dispatcher P} (h : s.Inv) : (s.become i d).Inv :=
  ⟨h.ids, h.fresh, h.published, h.handed⟩

theorem grows_become (i : ℕ) (d : Dispatcher P) : s.Grows (s.become i d) :=
  ⟨fun _ hrow => Or.inl hrow, List.Subset.refl _⟩

theorem Ledgers.become {i : ℕ} {d : Dispatcher P} (h : s.Ledgers)
    (hd : ∀ prog ∈ d.prog, ∃ g, s.Backs g ∧ Sound prog g) : (s.become i d).Ledgers := by
  intro j prog hprog
  by_cases hj : j = i
  · subst hj
    rw [become_same] at hprog
    obtain ⟨g, hg, hsound⟩ := hd prog hprog
    exact ⟨g, hg.mono (grows_become j d), hsound⟩
  · rw [become_other hj] at hprog
    obtain ⟨g, hg, hsound⟩ := h j prog hprog
    exact ⟨g, hg.mono (grows_become i d), hsound⟩

/-- An empty ledger. -/
theorem backs_empty (s : Table P) : s.Backs ⟨[], []⟩ := ⟨by simp, by simp, by simp⟩

/-- A program that is started afresh. -/
theorem sound_turn {d d' : Dispatcher P} (h : turn d = some d') :
    ∀ prog ∈ d'.prog, ∃ g, s.Backs g ∧ Sound prog g := by
  rintro prog hprog
  cases d with
  | stopped => cases h
  | sleeping =>
      cases h
      cases hprog
      exact ⟨_, s.backs_empty, sound_iteration⟩
  | starting p =>
      cases p with
      | ret a =>
          cases h
          cases hprog
      | raise =>
          cases h
          cases hprog
      | call e k => cases h
  | polling p =>
      cases p with
      | ret a =>
          cases h
          cases hprog
      | raise =>
          cases h
          cases hprog
      | call e k => cases h

/-- One call of a running program. -/
theorem advance_spec [DecidableEq P] {batch i : ℕ} {outcome : Outcome P}
    {resume : Dispatch P Unit → Dispatcher P} {prog : Dispatch P Unit} (h : s.Inv)
    (hl : s.Ledgers) (hprog : prog ∈ (s.dispatchers i).prog)
    (hresume : ∀ p, (resume p).prog = some p)
    (ht : s.advance batch i outcome resume prog = some t) : t.Inv ∧ t.Ledgers ∧ s.Grows t := by
  obtain ⟨g, hg, hsound⟩ := hl i prog hprog
  cases prog with
  | ret a => cases ht
  | raise => cases ht
  | call e k =>
      obtain ⟨r, hr, rfl⟩ := Option.map_eq_some_iff.1 ht
      obtain ⟨hinv, hgrows, hbacks, hsame⟩ := h.perform hg hsound.1 hr
      refine ⟨hinv.become, ?_, hgrows.trans (grows_become i _)⟩
      refine (hl.mono hgrows hsame).become ?_
      intro p hp
      rw [hresume, Option.mem_some_iff] at hp
      exact hp ▸ ⟨_, hbacks, hsound.2 r.1⟩

/-- A row that is added has an id of its own. -/
theorem Inv.insert {txn : ℕ} {row : OutboxMessage P} (h : s.Inv)
    (hrow : row.published = false ∧ row.id ∉ s.ids) :
    Table.Inv { s with pending := s.pending ++ [(txn, row)] } := by
  have hids : s.ids ++ [row.id] = Table.ids { s with pending := s.pending ++ [(txn, row)] } := by
    simp [Table.ids]
  refine ⟨?_, ?_, h.published, h.handed⟩
  · rw [← hids]
    exact List.nodup_append.2 ⟨h.ids, List.nodup_singleton _, fun a ha b hb hab =>
      hrow.2 (List.mem_singleton.1 hb ▸ hab ▸ ha)⟩
  · intro entry hentry
    rcases List.mem_append.1 hentry with hentry | hentry
    · exact h.fresh entry hentry
    · rw [List.mem_singleton.1 hentry]
      exact hrow.1

/-- A transaction that commits moves its rows to the table. -/
theorem Inv.commit (h : s.Inv) (txn : ℕ) :
    Table.Inv { s with
      rows := s.rows ++ s.inserted txn
      pending := s.pending.filter fun entry => entry.1 ≠ txn } := by
  constructor
  · have hids : Table.ids { s with
            rows := s.rows ++ s.inserted txn
            pending := s.pending.filter fun entry => entry.1 ≠ txn } =
          s.rows.map OutboxMessage.id ++
            (((s.pending.filter fun entry => entry.1 = txn) ++
              s.pending.filter fun entry => entry.1 ≠ txn).map fun entry => entry.2.id) := by
      simp [Table.ids, Table.inserted, Function.comp_def]
    have hperm : ((s.pending.filter fun entry => entry.1 = txn) ++
        s.pending.filter fun entry => entry.1 ≠ txn).Perm s.pending := by
      simpa using List.filter_append_perm (fun entry : ℕ × OutboxMessage P => entry.1 = txn)
        s.pending
    rw [hids]
    exact ((hperm.map _).append_left _).nodup_iff.2 h.ids
  · intro entry hentry
    exact h.fresh entry (List.mem_filter.1 hentry).1
  · intro row hrow hpublished
    rcases List.mem_append.1 hrow with hrow | hrow
    · exact h.published row hrow hpublished
    · obtain ⟨entry, hentry, rfl⟩ := List.mem_map.1 hrow
      rw [h.fresh entry (List.mem_filter.1 hentry).1] at hpublished
      cases hpublished
  · intro body hbody
    obtain ⟨row, hrow, rfl⟩ := h.handed body hbody
    exact ⟨row, List.mem_append_left _ hrow, rfl⟩

theorem Inv.rollback (h : s.Inv) (txn : ℕ) :
    Table.Inv { s with pending := s.pending.filter fun entry => entry.1 ≠ txn } := by
  refine ⟨?_, ?_, h.published, h.handed⟩
  · exact h.ids.sublist ((List.Sublist.refl _).append (List.filter_sublist.map _))
  · intro entry hentry
    exact h.fresh entry (List.mem_filter.1 hentry).1

/-- Every action keeps the invariants, and every row with its contents. -/
theorem step_spec [DecidableEq P] {batch : ℕ} {a : Action P} (h : s.Inv) (hl : s.Ledgers)
    (ht : s.step batch a = some t) : t.Inv ∧ t.Ledgers ∧ s.Grows t := by
  cases a with
  | insert txn row =>
      rw [step, Option.ite_none_right_eq_some] at ht
      obtain ⟨hrow, hs⟩ := ht
      cases hs
      have hgrows : s.Grows { s with pending := s.pending ++ [(txn, row)] } :=
        ⟨fun _ hrow => Or.inl hrow, List.Subset.refl _⟩
      exact ⟨h.insert hrow, hl.mono hgrows rfl, hgrows⟩
  | commit txn =>
      cases ht
      have hgrows : s.Grows { s with
          rows := s.rows ++ s.inserted txn
          pending := s.pending.filter fun entry => entry.1 ≠ txn } :=
        ⟨fun _ hrow => Or.inl (List.mem_append_left _ hrow), List.Subset.refl _⟩
      exact ⟨h.commit txn, hl.mono hgrows rfl, hgrows⟩
  | rollback txn =>
      cases ht
      have hgrows : s.Grows { s with
          pending := s.pending.filter fun entry => entry.1 ≠ txn } :=
        ⟨fun _ hrow => Or.inl hrow, List.Subset.refl _⟩
      exact ⟨h.rollback txn, hl.mono hgrows rfl, hgrows⟩
  | launch i =>
      simp only [step] at ht
      split at ht
      · cases ht
        refine ⟨h.become, hl.become ?_, grows_become i _⟩
        intro prog hprog
        cases hprog
        exact ⟨_, s.backs_empty, sound_connect⟩
      · cases ht
  | call i outcome =>
      simp only [step] at ht
      split at ht
      · rename_i prog hi
        exact advance_spec h hl (by rw [hi]; rfl) (fun _ => rfl) ht
      · rename_i prog hi
        exact advance_spec h hl (by rw [hi]; rfl) (fun _ => rfl) ht
      · cases ht
  | turn i =>
      obtain ⟨d, hd, rfl⟩ := Option.map_eq_some_iff.1 ht
      exact ⟨h.become, hl.become (sound_turn hd), grows_become i d⟩
  | crash i =>
      cases ht
      refine ⟨h.become, hl.become ?_, grows_become i _⟩
      intro prog hprog
      cases hprog

theorem run_spec [DecidableEq P] {batch : ℕ} {actions : List (Action P)} (h : s.Inv)
    (hl : s.Ledgers) (ht : Schedule.run (step batch) s actions = some t) :
    t.Inv ∧ t.Ledgers ∧ s.Grows t :=
  Schedule.run_invariant (I := fun u : Table P => u.Inv ∧ u.Ledgers ∧ s.Grows u)
    (fun _ _ _ hu hstep => by
      obtain ⟨hinv, hledgers, hgrows⟩ := step_spec hu.1 hu.2.1 hstep
      exact ⟨hinv, hledgers, hu.2.2.trans hgrows⟩)
    ⟨h, hl, .refl s⟩ ht

theorem inv_empty : (Table.empty : Table P).Inv := by
  refine ⟨List.nodup_nil, ?_, ?_, ?_⟩
  · intro entry hentry
    cases hentry
  · intro row hrow
    cases hrow
  · intro body hbody
    cases hbody

theorem ledgers_empty : (Table.empty : Table P).Ledgers := by
  intro i prog hprog
  cases hprog

/-- A poll has an answer in every state. -/
theorem exists_selects [DecidableEq P] (hrows : s.rows.Nodup) (batch : ℕ) :
    ∃ rows, s.Selects batch rows := by
  have hperm := List.mergeSort_perm s.unpublished fun a b => decide (a.createdAt ≤ b.createdAt)
  have hsorted : (s.unpublished.mergeSort fun a b => decide (a.createdAt ≤ b.createdAt)).Pairwise
      fun a b => a.createdAt ≤ b.createdAt := by
    refine List.Pairwise.imp ?_ (List.pairwise_mergeSort ?_ ?_ s.unpublished)
    · intro a b hab
      exact of_decide_eq_true hab
    · intro a b c hab hbc
      exact decide_eq_true (Nat.le_trans (of_decide_eq_true hab) (of_decide_eq_true hbc))
    · intro a b
      simpa using Nat.le_total a.createdAt b.createdAt
  refine ⟨_, (hperm.nodup_iff.2 (hrows.filter _)).sublist (List.take_sublist batch _), ?_,
    hsorted.sublist (List.take_sublist batch _), List.length_take_le _ _, ?_⟩
  · intro row hrow
    exact hperm.subset (List.mem_of_mem_take hrow)
  · intro row hrow
    rw [← List.take_append_drop batch (List.mergeSort _ _)] at hperm hsorted
    rcases List.mem_append.1 (hperm.symm.subset hrow) with hmem | hmem
    · exact Or.inl hmem
    · refine Or.inr ⟨?_, fun r hr => (List.pairwise_append.1 hsorted).2.2 r hr row hmem⟩
      have hlong := List.length_pos_of_mem hmem
      rw [List.length_drop] at hlong
      rw [List.length_take]
      omega

end Table

open Table

/-- In every run of any number of dispatchers over one table: a row that is
committed as published has had its message accepted; a row that is not stays, with
its contents, among the rows that every poll selects the oldest of; and the broker
is handed messages of committed rows only. -/
theorem outbox_delivers [DecidableEq P] {batch : ℕ} {actions : List (Action P)} {s : Table P}
    (h : Schedule.run (step batch) Table.empty actions = some s) :
    (∀ row ∈ s.rows, row.published = true → row.body ∈ s.accepted) ∧
      (∀ later t, Schedule.run (step batch) s later = some t →
        ∀ row ∈ s.rows, row.published = false →
          row.mark ∈ t.rows ∨
            row ∈ t.rows ∧ ∀ rows, t.Selects batch rows →
              row ∈ rows ∨ rows.length = batch ∧ ∀ r ∈ rows, r.createdAt ≤ row.createdAt) ∧
      ∀ body ∈ s.handed, ∃ row ∈ s.rows, row.body = body := by
  obtain ⟨hinv, hledgers, -⟩ := run_spec inv_empty ledgers_empty h
  refine ⟨hinv.published, ?_, hinv.handed⟩
  intro later t ht row hrow hpublished
  obtain ⟨-, -, hgrows⟩ := run_spec hinv hledgers ht
  rcases hgrows.rows row hrow with hrow | hrow
  · refine Or.inr ⟨hrow, fun rows hrows => hrows.oldest row ?_⟩
    exact List.mem_filter.2 ⟨hrow, by simp [hpublished]⟩
  · exact Or.inl hrow

/-- A row whose first publication fails and is repeated on a new channel. -/
def retried : List (Action String) :=
  [.insert 0 ⟨"1", "OrderCreated", "order 7", false, 0⟩, .commit 0, .launch 0, .call 0 .done,
    .call 0 .done, .turn 0, .turn 0,
    .call 0 (.selected [⟨"1", "OrderCreated", "order 7", false, 0⟩]), .call 0 .failed,
    .call 0 .done, .call 0 .done, .call 0 .done]

theorem outbox_delivers_retried : ∃ s, Schedule.run (step 50) Table.empty retried = some s ∧
    (∀ row ∈ s.rows, row.published = true → row.body ∈ s.accepted) ∧
      (∀ later t, Schedule.run (step 50) s later = some t →
        ∀ row ∈ s.rows, row.published = false →
          row.mark ∈ t.rows ∨
            row ∈ t.rows ∧ ∀ rows, t.Selects 50 rows →
              row ∈ rows ∨ rows.length = 50 ∧ ∀ r ∈ rows, r.createdAt ≤ row.createdAt) ∧
      ∀ body ∈ s.handed, ∃ row ∈ s.rows, row.body = body := by
  have hrun : (Schedule.run (step 50) Table.empty retried).map Table.rows =
      some [⟨"1", "OrderCreated", "order 7", true, 0⟩] := by decide +kernel
  obtain ⟨s, hs, -⟩ := Option.map_eq_some_iff.1 hrun
  exact ⟨s, hs, outbox_delivers hs⟩

end Outbox

end FlashSale
