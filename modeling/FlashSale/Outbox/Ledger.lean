import FlashSale.Outbox.Dispatcher
import Mathlib.Data.List.Basic

/-!
# The ledger of a dispatcher

A dispatcher is judged by its `Ledger`: the rows it has read and the messages the
broker has confirmed to it. It only publishes what it has read, and it only
commits rows whose messages were confirmed (`sound_iteration`), whatever fails
on the way.
-/

namespace FlashSale

namespace Outbox

variable {P : Type}

/-- The rows that a dispatcher has read and the messages confirmed to it. -/
structure Ledger (P : Type) where
  seen : List (OutboxMessage P)
  confirmed : List (String × P)

/-- The row was read and its message confirmed. -/
def Ledger.Marks (g : Ledger P) (row : OutboxMessage P) : Prop :=
  ∃ r ∈ g.seen, row = r.mark ∧ r.body ∈ g.confirmed

/-- A dispatcher publishes rows that it has read, and commits rows that were
confirmed. -/
def terms : Prog.Terms (DispatcherCall P) DispatcherCall.Answer (Ledger P) where
  admits g
    | .publish routingKey payload => ∃ row ∈ g.seen, row.body = (routingKey, payload)
    | .commit rows => ∀ row ∈ rows, g.Marks row
    | _ => True
  next g
    | .select => fun answer => answer.elim g fun rows => { g with seen := g.seen ++ rows }
    | .publish routingKey payload => fun answer =>
        if answer then { g with confirmed := g.confirmed ++ [(routingKey, payload)] } else g
    | _ => fun _ => g

/-- What holds of a program of the dispatcher that may go on in any way. -/
def Sound (prog : Dispatch P Unit) (g : Ledger P) : Prop :=
  prog.Keeps terms (fun _ _ => True) (fun _ => True) g

/-- The ledger has only grown, and by no rows. -/
structure Ledger.Confirms (g g' : Ledger P) : Prop where
  seen : g'.seen = g.seen
  confirmed : g.confirmed ⊆ g'.confirmed

/-! ## The programs -/

section Programs

open RabbitMQClient

variable {g : Ledger P} {row : OutboxMessage P}

theorem keeps_ensure {ok : Bool} {post : Unit → Ledger P → Prop} {exc : Ledger P → Prop}
    (hpost : ok = true → post () g) (hexc : ok = false → exc g) :
    (ensure ok).Keeps terms post exc g := by
  cases ok with
  | true => exact hpost rfl
  | false => exact hexc rfl

theorem keeps_await {α : Type} {e : DispatcherCall P} {f : e.Answer → Dispatch P α}
    {post : α → Ledger P → Prop} {exc : Ledger P → Prop} :
    (e.await >>= f).Keeps terms post exc g ↔
      terms.admits g e ∧ ∀ answer, (f answer).Keeps terms post exc (terms.next g e answer) :=
  Iff.rfl

/-- What a publication of the row ends with: its message is confirmed, or nothing
has changed. -/
def Published (g : Ledger P) (row : OutboxMessage P) (prog : Dispatch P Unit) : Prop :=
  prog.Keeps terms (fun _ g' => g.Confirms g' ∧ row.body ∈ g'.confirmed) (fun g' => g' = g) g

theorem published_exchangePublish (hrow : row ∈ g.seen) :
    Published g row (exchangePublish row.routingKey row.payload) := by
  refine ⟨⟨row, hrow, rfl⟩, fun ok => ?_⟩
  cases ok with
  | false => exact rfl
  | true =>
      have hconfirms : g.Confirms { g with confirmed := g.confirmed ++ [row.body] } :=
        ⟨rfl, List.subset_append_left _ _⟩
      exact ⟨hconfirms, List.mem_append_right _ List.mem_cons_self⟩

/-- A call that opens or closes a connection before a publication. -/
theorem Published.after {e : DispatcherCall P} {f : e.Answer → Dispatch P Unit}
    (he : terms.admits g e) (hnext : ∀ answer, terms.next g e answer = g)
    (hf : ∀ answer, Published g row (f answer)) : Published g row (e.await >>= f) := by
  refine keeps_await.2 ⟨he, fun answer => ?_⟩
  rw [hnext]
  exact hf answer

theorem Published.ensure {prog : Dispatch P Unit} (h : Published g row prog) (ok : Bool) :
    Published g row (do ensure ok; prog) := by
  cases ok with
  | true => exact h
  | false => exact rfl

theorem Published.orElse {p q : Dispatch P Unit} (hp : Published g row p)
    (hq : Published g row q) : Published g row (p.orElse q) := by
  apply Prog.Keeps.orElse
  refine Prog.Keeps.mono hp (fun _ _ h => h) ?_
  rintro g' rfl
  exact hq

/-- Each of the three attempts confirms the message or fails without a trace. -/
theorem published_publish (hrow : row ∈ g.seen) :
    Published g row (publish row.routingKey row.payload) := by
  have hexchange := published_exchangePublish hrow
  have hopen : Published g row
      (do openChannel; exchangePublish row.routingKey row.payload) := by
    rw [openChannel, bind_assoc]
    exact .after trivial (fun _ => rfl) fun ok => hexchange.ensure ok
  have hreconnect : Published g row
      (do close; connect; exchangePublish row.routingKey row.payload) := by
    rw [close, connect, bind_assoc]
    refine .after trivial (fun _ => rfl) fun _ => ?_
    rw [Prog.pure_eq, Prog.ret_bind, bind_assoc]
    refine .after trivial (fun _ => rfl) fun ok => ?_
    rw [bind_assoc]
    exact hopen.ensure ok
  exact hexchange.orElse (hopen.orElse hreconnect)

/-- The loop marks rows whose messages were confirmed. -/
theorem keeps_publishRows {rows : List (OutboxMessage P)} (hrows : rows ⊆ g.seen) :
    (publishRows rows).Keeps terms
      (fun marked g' => g.Confirms g' ∧ ∀ row ∈ marked, g'.Marks row) (fun _ => True) g := by
  induction rows generalizing g with
  | nil => exact ⟨⟨rfl, List.Subset.refl _⟩, by simp⟩
  | cons row rows ih =>
      have hrow : row ∈ g.seen := hrows List.mem_cons_self
      have hrest : rows ⊆ g.seen := fun r hr => hrows (List.mem_cons_of_mem row hr)
      apply Prog.Keeps.bind
      refine Prog.Keeps.mono (published_publish hrow) ?_ fun _ _ => trivial
      rintro - g' ⟨hg, hbody⟩
      apply Prog.Keeps.bind
      refine Prog.Keeps.mono (ih (hg.seen.symm ▸ hrest)) ?_ fun _ _ => trivial
      rintro marked g'' ⟨hg', hmarked⟩
      refine ⟨⟨hg'.seen.trans hg.seen, fun b hb => hg'.confirmed (hg.confirmed hb)⟩, ?_⟩
      intro r hr
      rcases List.mem_cons.1 hr with rfl | hr
      · exact ⟨row, hg'.seen ▸ hg.seen ▸ hrow, rfl, hg'.confirmed hbody⟩
      · exact hmarked r hr

/-- Every iteration keeps to its ledger. -/
theorem sound_iteration : Sound iteration g := by
  refine keeps_await.2 ⟨trivial, fun answer => ?_⟩
  cases answer with
  | none => trivial
  | some rows =>
      apply Prog.Keeps.bind
      refine Prog.Keeps.mono (keeps_publishRows (List.subset_append_right g.seen rows)) ?_
        fun _ _ => trivial
      rintro marked g' ⟨-, hmarked⟩
      by_cases hempty : marked.isEmpty
      · rw [if_pos hempty]
        trivial
      · rw [if_neg hempty]
        exact ⟨hmarked, fun ok => keeps_ensure (fun _ => trivial) fun _ => trivial⟩

theorem sound_connect : Sound connect g := by
  refine keeps_await.2 ⟨trivial, fun ok => ?_⟩
  apply Prog.Keeps.bind
  refine keeps_ensure (fun _ => ?_) fun _ => trivial
  refine keeps_await.2 ⟨trivial, fun ok' => ?_⟩
  exact keeps_ensure (fun _ => trivial) fun _ => trivial

end Programs

end Outbox

end FlashSale
