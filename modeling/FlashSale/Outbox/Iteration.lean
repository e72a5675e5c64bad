import FlashSale.Library.Feed
import FlashSale.Outbox.Table

/-!
# One iteration of the polling loop

A single dispatcher runs its iterations one after the other. `pass` is one of
them, run to its end on the table with one outcome for every call; a call that
is `trusted` does not fail. What an iteration does is read off the programs:
`publish` sends the message of its row any number of times and at least once
when it returns, the loop over the rows stops at the first publication that
raises, and the flags are committed behind it.

A number of iterations is a schedule of the table with the dispatcher that runs
them (`schedule_of_passes`).
-/

namespace FlashSale

namespace Outbox

open RabbitMQClient

variable {P : Type}

namespace Table

/-- The meaning of a call that does not fail when it is trusted. -/
def trusting [DecidableEq P] (trusted : DispatcherCall P → Bool) (batch : ℕ)
    (e : DispatcherCall P) (outcome : Outcome P) (s : Table P) : Option (e.Answer × Table P) :=
  match outcome with
  | .failed | .unconfirmed => if trusted e then none else s.perform batch outcome e
  | _ => s.perform batch outcome e

/-- One iteration, with an outcome for each of its calls. -/
def pass [DecidableEq P] (trusted : DispatcherCall P → Bool) (batch : ℕ) (s : Table P)
    (outcomes : List (Outcome P)) : Option (Table P) :=
  match iteration.feed (trusting trusted batch) s outcomes with
  | some (_, t, []) => some t
  | _ => none

/-- Messages that the broker has accepted, and messages that it was handed. -/
def sent (s : Table P) (accepted handed : List (String × P)) : Table P :=
  { s with accepted := s.accepted ++ accepted, handed := s.handed ++ handed }

@[simp] theorem sent_nil (s : Table P) : s.sent [] [] = s := by
  simp [sent]

theorem sent_sent (s : Table P) (accepted handed accepted' handed' : List (String × P)) :
    (s.sent accepted handed).sent accepted' handed' =
      s.sent (accepted ++ accepted') (handed ++ handed') := by
  simp [sent, List.append_assoc]

theorem hand_eq_sent (s : Table P) (accepts : Bool) (body : String × P) :
    s.hand accepts body = s.sent (if accepts then [body] else []) [body] := by
  cases accepts <;> simp [hand, sent]

theorem pass_eq_some [DecidableEq P] {trusted : DispatcherCall P → Bool} {batch : ℕ}
    {s t : Table P} {outcomes : List (Outcome P)} :
    pass trusted batch s outcomes = some t ↔
      ∃ r, iteration.feed (trusting trusted batch) s outcomes = some (r, t, []) := by
  rw [pass]
  constructor
  · intro h
    split at h
    · rename_i r u heq
      cases h
      exact ⟨r, heq⟩
    · cases h
  · rintro ⟨r, h⟩
    rw [h]

end Table

open Table

/-! ## The publication of a row -/

/-- What a program that publishes a row has done when it ends. -/
def Sends (s : Table P) (row : OutboxMessage P) (r : Option Unit) (t : Table P) : Prop :=
  ∃ n m, t = s.sent (List.replicate n row.body) (List.replicate m row.body) ∧
    (r = some () → 0 < n)

theorem Sends.rows {s t : Table P} {row : OutboxMessage P} {r : Option Unit}
    (h : Sends s row r t) : t.rows = s.rows := by
  obtain ⟨n, m, rfl, -⟩ := h
  rfl

theorem Sends.trans {s t u : Table P} {row : OutboxMessage P} {r r' : Option Unit}
    (h : Sends s row r' u) (h' : Sends u row r t) : Sends s row r t := by
  obtain ⟨n, m, rfl, -⟩ := h
  obtain ⟨n', m', rfl, hpos⟩ := h'
  refine ⟨n + n', m + m', ?_, fun hr => Nat.lt_of_lt_of_le (hpos hr) (Nat.le_add_left n' n)⟩
  rw [sent_sent, List.replicate_append_replicate, List.replicate_append_replicate]

theorem Sends.silent (s : Table P) (row : OutboxMessage P) : Sends s row none s :=
  ⟨0, 0, by simp, fun h => by cases h⟩

section Publish

variable [DecidableEq P] {trusted : DispatcherCall P → Bool} {batch : ℕ} {s t : Table P}
  {outcomes rest : List (Outcome P)} {r : Option Unit} {row : OutboxMessage P}

/-- A program that publishes the row, whatever its calls end with. -/
def Sending (trusted : DispatcherCall P → Bool) (batch : ℕ) (row : OutboxMessage P)
    (prog : Dispatch P Unit) : Prop :=
  ∀ s outcomes r t rest,
    prog.feed (trusting trusted batch) s outcomes = some (r, t, rest) → Sends s row r t

theorem sending_ensure {prog : Dispatch P Unit} (h : Sending trusted batch row prog) (ok : Bool) :
    Sending trusted batch row (do ensure ok; prog) := by
  cases ok with
  | true => exact h
  | false =>
      intro s outcomes r t rest hfeed
      simp only [ensure, Prog.raise_bind, Prog.feed_raise] at hfeed
      cases hfeed
      exact .silent s row

/-- The calls that leave the table as it is. -/
theorem perform_connection {outcome : Outcome P} {e : DispatcherCall P}
    (he : e = .openChannel ∨ e = .close ∨ e = .connectRobust) {answer : e.Answer}
    (h : trusting trusted batch e outcome s = some (answer, t)) : t = s := by
  rcases he with rfl | rfl | rfl <;> cases outcome <;>
    simp only [trusting, perform] at h <;> (try split at h) <;> cases h <;> rfl

theorem sending_call {e : DispatcherCall P} {f : e.Answer → Dispatch P Unit}
    (he : e = .openChannel ∨ e = .close ∨ e = .connectRobust)
    (hf : ∀ answer, Sending trusted batch row (f answer)) :
    Sending trusted batch row (e.await >>= f) := by
  intro s outcomes r t rest hfeed
  cases outcomes with
  | nil => cases hfeed
  | cons outcome outcomes =>
      obtain ⟨⟨answer, u⟩, hu, hrest⟩ := Option.bind_eq_some_iff.1 hfeed
      cases perform_connection he hu
      exact hf answer s outcomes r t rest hrest

theorem sending_exchangePublish :
    Sending trusted batch row (exchangePublish row.routingKey row.payload) := by
  intro s outcomes r t rest hfeed
  cases outcomes with
  | nil => cases hfeed
  | cons outcome outcomes =>
      obtain ⟨⟨answer, u⟩, hu, hrest⟩ := Option.bind_eq_some_iff.1 hfeed
      have hsent : (∃ n, u = s.sent (List.replicate n row.body) [row.body] ∧
          (answer = true → 0 < n)) := by
        cases outcome <;> simp only [trusting, perform] at hu <;> (try split at hu) <;> cases hu
        · exact ⟨1, hand_eq_sent .., fun _ => Nat.one_pos⟩
        · exact ⟨0, hand_eq_sent .., fun h => by cases h⟩
        · exact ⟨1, hand_eq_sent .., fun h => by cases h⟩
      obtain ⟨n, rfl, hpos⟩ := hsent
      cases answer with
      | true =>
          cases hrest
          exact ⟨n, 1, rfl, fun _ => hpos rfl⟩
      | false =>
          cases hrest
          exact ⟨n, 1, rfl, fun h => by cases h⟩

theorem Sending.orElse {p q : Dispatch P Unit} (hp : Sending trusted batch row p)
    (hq : Sending trusted batch row q) : Sending trusted batch row (p.orElse q) := by
  intro s outcomes r t rest hfeed
  rw [Prog.feed_orElse] at hfeed
  obtain ⟨⟨a, u, left⟩, hu, hrest⟩ := Option.bind_eq_some_iff.1 hfeed
  have hfirst := hp s outcomes a u left hu
  cases a with
  | some a =>
      cases hrest
      exact hfirst
  | none => exact hfirst.trans (hq u left r t rest hrest)

/-- `publish` sends nothing but the message of its row. -/
theorem sending_publish : Sending trusted batch row (publish row.routingKey row.payload) := by
  have hexchange : Sending trusted batch row (exchangePublish row.routingKey row.payload) :=
    sending_exchangePublish
  have hopen : Sending trusted batch row
      (do openChannel; exchangePublish row.routingKey row.payload) := by
    rw [openChannel, bind_assoc]
    exact sending_call (Or.inl rfl) fun ok => sending_ensure hexchange ok
  have hreconnect : Sending trusted batch row
      (do close; connect; exchangePublish row.routingKey row.payload) := by
    rw [close, connect, bind_assoc]
    refine sending_call (Or.inr (Or.inl rfl)) fun _ => ?_
    rw [Prog.pure_eq, Prog.ret_bind, bind_assoc]
    refine sending_call (Or.inr (Or.inr rfl)) fun ok => ?_
    rw [bind_assoc]
    exact sending_ensure hopen ok
  exact hexchange.orElse (hopen.orElse hreconnect)

/-- A first attempt that succeeds is the only one. -/
theorem feed_publish_done (s : Table P) (rest : List (Outcome P)) :
    (publish row.routingKey row.payload).feed (trusting trusted batch) s (.done :: rest) =
      some (some (), s.sent [row.body] [row.body], rest) := by
  have hexchange : (exchangePublish row.routingKey row.payload).feed (trusting trusted batch) s
      (.done :: rest) = some (some (), s.sent [row.body] [row.body], rest) := by
    show (Prog.feed (trusting trusted batch) (.ret ()) (s.hand true row.body) rest) = _
    rw [Prog.feed_ret, hand_eq_sent]
    rfl
  rw [publish, Prog.feed_orElse, hexchange]
  rfl

end Publish

/-! ## The rows of a poll -/

section Rows

variable [DecidableEq P] {trusted : DispatcherCall P → Bool} {batch : ℕ}

omit [DecidableEq P] in
theorem publishRows_cons (row : OutboxMessage P) (rows : List (OutboxMessage P)) :
    publishRows (row :: rows) = (do
      publish row.routingKey row.payload
      let marked ← publishRows rows
      return row.mark :: marked) := rfl

theorem feed_publishRows_cons (s : Table P) (row : OutboxMessage P)
    (rows : List (OutboxMessage P)) (outcomes : List (Outcome P)) :
    (publishRows (row :: rows)).feed (trusting trusted batch) s outcomes =
      ((publish row.routingKey row.payload).feed (trusting trusted batch) s outcomes).bind fun r =>
        r.1.elim (some (none, r.2)) fun _ =>
          ((publishRows rows).feed (trusting trusted batch) r.2.1 r.2.2).map fun r' =>
            (r'.1.map fun marked => row.mark :: marked, r'.2) := by
  rw [publishRows_cons, Prog.feed_bind]
  refine congrArg _ (funext fun r => ?_)
  obtain ⟨answer, t, rest⟩ := r
  cases answer with
  | none => rfl
  | some _ => exact Prog.feed_bind_pure ..

/-- The end of an iteration: the rows changed in the session are committed. -/
def save (marked : List (OutboxMessage P)) : Dispatch P Unit :=
  if marked.isEmpty then return () else do ensure (← (DispatcherCall.commit marked).await)

omit [DecidableEq P] in
theorem iteration_eq : (iteration : Dispatch P Unit) =
    .call .select fun answer => answer.elim .raise fun rows => publishRows rows >>= save := by
  refine congrArg (Prog.call DispatcherCall.select) (funext fun answer => ?_)
  cases answer <;> rfl

/-- What follows the query of an iteration. -/
theorem feed_iteration {s : Table P} {rows : List (OutboxMessage P)}
    (h : s.Selects batch rows) (outcomes : List (Outcome P)) :
    iteration.feed (trusting trusted batch) s (.selected rows :: outcomes) =
      ((publishRows rows).feed (trusting trusted batch) s outcomes).bind fun r =>
        r.1.elim (some (none, r.2)) fun marked =>
          (save marked).feed (trusting trusted batch) r.2.1 r.2.2 := by
  have hselect : trusting trusted batch .select (.selected rows) s = some (some rows, s) := by
    simp only [trusting, perform, if_pos h]
  rw [iteration_eq, Prog.feed_call_cons, hselect]
  exact Prog.feed_bind ..

omit [DecidableEq P] in
@[simp] theorem update_nil (s : Table P) : s.update [] = s := by
  simp [update]

/-- A commit that cannot fail marks the rows. -/
theorem update_of_feed_save {s t : Table P} {marked : List (OutboxMessage P)}
    {outcomes rest : List (Outcome P)} {r : Option Unit}
    (htrusted : trusted (.commit marked) = true)
    (h : (save marked).feed (trusting trusted batch) s outcomes = some (r, t, rest)) :
    t = s.update marked ∧ r = some () := by
  cases marked with
  | nil =>
      change (Prog.ret () : Dispatch P Unit).feed (trusting trusted batch) s outcomes = _ at h
      rw [Prog.feed_ret] at h
      cases h
      exact ⟨(update_nil s).symm, rfl⟩
  | cons row marked =>
      cases outcomes with
      | nil => cases h
      | cons outcome outcomes =>
          obtain ⟨answer, hanswer, hend⟩ := Option.bind_eq_some_iff.1 h
          cases outcome with
          | done =>
              cases hanswer
              change (Prog.ret () : Dispatch P Unit).feed (trusting trusted batch) _ _ = _ at hend
              rw [Prog.feed_ret] at hend
              cases hend
              exact ⟨rfl, rfl⟩
          | failed => simp [trusting, htrusted] at hanswer
          | unconfirmed => simp [trusting, htrusted] at hanswer
          | selected rows => simp [trusting, perform] at hanswer

/-- A query that cannot fail has selected the rows that follow. -/
theorem selects_of_feed_iteration {s : Table P} {outcomes : List (Outcome P)}
    {r : Option Unit × Table P × List (Outcome P)} (htrusted : trusted .select = true)
    (h : iteration.feed (trusting trusted batch) s outcomes = some r) :
    ∃ rows left, outcomes = .selected rows :: left ∧ s.Selects batch rows := by
  cases outcomes with
  | nil => cases h
  | cons outcome left =>
      obtain ⟨answer, hanswer, -⟩ := Option.bind_eq_some_iff.1 h
      cases outcome with
      | done => simp [trusting, perform] at hanswer
      | failed => simp [trusting, htrusted] at hanswer
      | unconfirmed => simp [trusting, htrusted] at hanswer
      | selected rows =>
          refine ⟨rows, left, rfl, ?_⟩
          by_contra hnot
          simp [trusting, perform, hnot] at hanswer

end Rows

/-! ## Iterations as schedules of the table -/

section Schedules

variable [DecidableEq P] {trusted : DispatcherCall P → Bool} {batch : ℕ} {s t : Table P}

theorem perform_of_trusting {e : DispatcherCall P} {outcome : Outcome P}
    {answer : e.Answer × Table P} (h : trusting trusted batch e outcome s = some answer) :
    s.perform batch outcome e = some answer := by
  cases outcome <;> simp only [trusting] at h
  · exact h
  · exact (Option.ite_none_left_eq_some.1 h).2
  · exact (Option.ite_none_left_eq_some.1 h).2
  · exact h

/-- A call neither looks at the dispatchers nor changes them. -/
theorem perform_become (s : Table P) (i : ℕ) (d : Dispatcher P) (outcome : Outcome P)
    (e : DispatcherCall P) :
    (s.become i d).perform batch outcome e =
      (s.perform batch outcome e).map fun r => (r.1, r.2.become i d) := by
  cases e <;> cases outcome <;> try rfl
  rename_i rows
  show (if (s.become i d).Selects batch rows then _ else _) = _
  rw [perform]
  by_cases h : s.Selects batch rows
  · rw [if_pos h, if_pos ⟨h.nodup, h.subset, h.ordered, h.bounded, h.oldest⟩]
    rfl
  · rw [if_neg h, if_neg fun h' => h ⟨h'.nodup, h'.subset, h'.ordered, h'.bounded, h'.oldest⟩]
    rfl

omit [DecidableEq P] in
theorem become_become (s : Table P) (i : ℕ) (d d' : Dispatcher P) :
    (s.become i d).become i d' = s.become i d' := by
  simp [become]

/-- What is left of a program that has ended. -/
def ended : Option Unit → Dispatch P Unit
  | some _ => .ret ()
  | none => .raise

/-- The calls of an iteration, one at a time. -/
theorem step_of_feed (i : ℕ) {prog : Dispatch P Unit} {outcomes : List (Outcome P)}
    {r : Option Unit} (h : prog.feed (trusting trusted batch) s outcomes = some (r, t, [])) :
    Schedule.run (step batch) (s.become i (.polling prog)) (outcomes.map (.call i)) =
      some (t.become i (.polling (ended r))) := by
  induction prog generalizing s outcomes with
  | ret a =>
      rw [Prog.feed_ret] at h
      cases h
      rfl
  | raise =>
      rw [Prog.feed_raise] at h
      cases h
      rfl
  | call e k ih =>
      cases outcomes with
      | nil => cases h
      | cons outcome outcomes =>
          obtain ⟨⟨answer, u⟩, hanswer, hrest⟩ := Option.bind_eq_some_iff.1 h
          have hcall : step batch (s.become i (.polling (.call e k))) (.call i outcome) =
              some (u.become i (.polling (k answer))) := by
            have hself : (s.become i (.polling (.call e k))).dispatchers i =
                .polling (.call e k) := Function.update_self ..
            simp only [step, hself, advance, perform_become, perform_of_trusting hanswer,
              Option.map_some, become_become]
          rw [List.map_cons, Schedule.run_cons, hcall]
          exact ih answer hrest

/-- From the end of a program to what follows it. -/
theorem step_turn (s : Table P) (i : ℕ) {d d' : Dispatcher P} (h : turn d = some d') :
    step batch (s.become i d) (.turn i) = some (s.become i d') := by
  have hself : (s.become i d).dispatchers i = d := Function.update_self ..
  simp only [step, hself, h, Option.map_some, become_become]

/-- An iteration is a schedule of the table with the dispatcher that runs it. -/
theorem schedule_of_pass (i : ℕ) {outcomes : List (Outcome P)}
    (h : pass trusted batch s outcomes = some t) :
    ∃ actions, Schedule.run (step batch) (s.become i .sleeping) actions =
      some (t.become i .sleeping) := by
  obtain ⟨r, hfeed⟩ := pass_eq_some.1 h
  have hend : turn (.polling (ended r) : Dispatcher P) = some .sleeping := by
    cases r <;> rfl
  refine ⟨.turn i :: (outcomes.map (.call i) ++ [.turn i]), ?_⟩
  rw [Schedule.run_cons, step_turn s i rfl]
  exact Schedule.run_concat_eq_some.2 ⟨_, step_of_feed i hfeed, step_turn t i hend⟩

/-- So are any number of iterations, one after the other. -/
theorem schedule_of_passes (i : ℕ) {iterations : List (List (Outcome P))}
    (h : Schedule.run (pass trusted batch) s iterations = some t) :
    ∃ actions, Schedule.run (step batch) (s.become i .sleeping) actions =
      some (t.become i .sleeping) := by
  have hmatch : ∀ (u : Table P) outcomes u' (v : Table P), v = u.become i .sleeping →
      pass trusted batch u outcomes = some u' →
        ∃ actions v', Schedule.run (step batch) v actions = some v' ∧
          v' = u'.become i .sleeping := by
    rintro u outcomes u' v rfl hpass
    obtain ⟨actions, hactions⟩ := schedule_of_pass i hpass
    exact ⟨actions, _, hactions, rfl⟩
  obtain ⟨actions, v, hrun, rfl⟩ := Schedule.run_simulation hmatch rfl h
  exact ⟨actions, hrun⟩

end Schedules

end Outbox

end FlashSale
