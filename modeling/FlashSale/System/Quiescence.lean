import FlashSale.System.Deliveries

/-!
# Nothing in flight, nothing left to do

`Inv` holds in every reachable state of the system: every delivery that is being
processed will settle its message before it returns, and what the broker has
accepted is settled or in flight. `Inv.replace` covers all that can happen to a
delivery; the actions instantiate it.
-/

namespace FlashSale

open SagaCoordinator

namespace System

/-- The message is at the broker or being processed. -/
def InFlight (s : System) (message : Message) : Prop :=
  message ∈ s.queue ∨ ∃ worker attempt, s.running worker = some attempt ∧ attempt.message = message

/-- What holds in every reachable state. -/
structure Inv (s : System) : Prop where
  causal : Causal s.world
  queued : ∀ message ∈ s.queue, message ∈ s.world.emitted
  attempts : ∀ worker attempt, s.running worker = some attempt →
    AttemptInv s.world worker attempt
  handed : ∀ row ∈ s.world.outbox, row.published = true → row.handed = true
  live : ∀ row ∈ s.world.outbox, row.handed = true →
    Settled s.world row.message ∨ s.InFlight row.message

/-- One worker goes on with `next`, in a world that has progressed. -/
theorem Inv.replace {s : System} (h : s.Inv) {w : World} {worker : Worker}
    {next : Option Attempt} {queue : List Message} (hcausal : Causal w)
    (hadds : s.world.Adds w) (hprogress : s.world.Progresses w)
    (hsagas : ∀ other, other ≠ worker → other.service = .saga →
      ∀ attempt, s.running other = some attempt → w.sagas = s.world.sagas)
    (hnext : ∀ attempt, next = some attempt → AttemptInv w worker attempt)
    (hqueue : ∀ message ∈ queue, message ∈ s.world.emitted)
    (hqueued : ∀ message ∈ s.queue, message ∈ queue ∨
      ∃ attempt, next = some attempt ∧ attempt.message = message)
    (hrunning : ∀ attempt, s.running worker = some attempt → Settled w attempt.message ∨
      attempt.message ∈ queue ∨ ∃ attempt', next = some attempt' ∧
        attempt'.message = attempt.message) :
    (System.mk w queue (Function.update s.running worker next)).Inv := by
  have hself : Function.update s.running worker next worker = next := Function.update_self ..
  have hother (other : Worker) (hne : other ≠ worker) :
      Function.update s.running worker next other = s.running other :=
    Function.update_of_ne hne ..
  -- what was in flight is settled or still in flight
  have hflight (message : Message) (hmessage : s.InFlight message) : Settled w message ∨
      (System.mk w queue (Function.update s.running worker next)).InFlight message := by
    rcases hmessage with hmem | ⟨other, attempt, hattempt, rfl⟩
    · rcases hqueued message hmem with hin | ⟨attempt, hattempt, heq⟩
      · exact Or.inr (Or.inl hin)
      · exact Or.inr (Or.inr ⟨worker, attempt, hself.trans hattempt, heq⟩)
    · by_cases hne : other = worker
      · subst hne
        rcases hrunning attempt hattempt with hsettled | hin | ⟨attempt', hattempt', heq⟩
        · exact Or.inl hsettled
        · exact Or.inr (Or.inl hin)
        · exact Or.inr (Or.inr ⟨other, attempt', hself.trans hattempt', heq⟩)
      · exact Or.inr (Or.inr ⟨other, attempt, (hother other hne).trans hattempt, rfl⟩)
  obtain ⟨rows, houtbox, hnew⟩ := hadds
  refine ⟨hcausal, fun message hmem => hprogress.emitted (hqueue message hmem), ?_, ?_, ?_⟩
  · intro other attempt hattempt
    by_cases hne : other = worker
    · subst hne
      exact hnext attempt (hself.symm.trans hattempt)
    · have hold := (hother other hne).symm.trans hattempt
      exact (h.attempts other attempt hold).mono hprogress fun hsaga =>
        hsagas other hne hsaga attempt hold
  · intro row hrow hpublished
    rw [houtbox, List.mem_append] at hrow
    rcases hrow with hrow | hrow
    · exact h.handed row hrow hpublished
    · rw [(hnew row hrow).2] at hpublished
      cases hpublished
  · intro row hrow hhanded
    rw [houtbox, List.mem_append] at hrow
    rcases hrow with hrow | hrow
    · rcases h.live row hrow hhanded with hsettled | hin
      · exact Or.inl (hsettled.mono hprogress)
      · exact hflight row.message hin
    · rw [(hnew row hrow).1] at hhanded
      cases hhanded

/-! ## The actions -/

/-- A request grows the outboxes; no delivery is concerned. -/
theorem Inv.grow {s : System} (h : s.Inv) {w : World} (hcausal : Causal w)
    (hadds : s.world.Adds w) (hsagas : w.sagas = s.world.sagas) :
    (System.mk w s.queue s.running).Inv := by
  have hprogress : s.world.Progresses w := .of_sagas hadds.emitted hsagas
  have worker : Worker := ⟨.order, 0⟩
  have hreplace : (System.mk w s.queue
      (Function.update s.running worker (s.running worker))).Inv := by
    refine h.replace hcausal hadds hprogress (fun _ _ _ _ _ => hsagas) ?_ h.queued
      (fun message hmem => Or.inl hmem) ?_
    · intro attempt hattempt
      exact (h.attempts worker attempt hattempt).mono hprogress fun _ => hsagas
    · intro attempt hattempt
      exact Or.inr (Or.inr ⟨attempt, hattempt, rfl⟩)
  rwa [Function.update_eq_self] at hreplace

theorem Inv.checkout {s : System} (h : s.Inv) (req : OrderService.CheckoutRequest) (ω : Answers) :
    (System.mk (s.world.request (OrderService.checkout req) ω) s.queue s.running).Inv := by
  rcases OrderService.request_checkout ω s.world req with ⟨hsame, -⟩ | ⟨hfresh, hplace⟩
  · rw [hsame]
    exact h.grow h.causal (.of_eq rfl) rfl
  · rw [hplace]
    have hids : ∀ old ∈ s.world.orders, old.id ≠ (req.order ω.newId).id := by
      intro old hold hid
      rw [World.findOrder, List.find?_eq_none] at hfresh
      exact hfresh old hold (decide_eq_true hid)
    exact h.grow (h.causal.checkout hids req.qty_pos rfl rfl rfl rfl) (.of_new rfl) rfl

theorem Inv.seed {s : System} (h : s.Inv) (req : InventoryService.SeedRequest) (ω : Answers) :
    (System.mk (s.world.request (InventoryService.seedInventory req) ω) s.queue s.running).Inv := by
  obtain ⟨item, -, -, hcompletes⟩ := InventoryService.run_seedInventory ω s.world req
  rw [World.request_of_completes hcompletes]
  exact h.grow (h.causal.same ⟨rfl, rfl, rfl⟩) (.of_eq rfl) rfl

theorem Inv.forget {s : System} (h : s.Inv) (key : IdemKey) :
    (System.mk (s.world.setCache key none) s.queue s.running).Inv := by
  have hsame := s.world.same_setCache key none
  exact h.grow (h.causal.same hsame) (.of_eq hsame.outbox) hsame.sagas

/-- A flag of an outbox row is set. -/
theorem emitted_setRow {w : World} {n : ℕ} {row row' : OutboxRow} (h : w.outbox[n]? = some row)
    (hmessage : row'.message = row.message) : (w.setRow n row').emitted = w.emitted := by
  rw [World.emitted, World.setRow, List.map_set, World.emitted, hmessage]
  refine List.ext_getElem? fun i => ?_
  rw [List.getElem?_set]
  split
  · next hin =>
      subst hin
      rw [List.getElem?_map, h, List.length_map, if_pos (List.getElem?_eq_some_iff.1 h).1]
      rfl
  · rfl

theorem sagaDb_setRow {w : World} {n : ℕ} {row row' : OutboxRow} (h : w.outbox[n]? = some row)
    (hmessage : row'.message = row.message) (hservice : row'.service = row.service) :
    (w.setRow n row').sagaDb = w.sagaDb := by
  have hset : (w.outbox.set n row').map (fun r => (r.service, r.message)) =
      w.outbox.map fun r => (r.service, r.message) := by
    rw [List.map_set]
    refine List.ext_getElem? fun i => ?_
    rw [List.getElem?_set]
    split
    · next hin =>
        subst hin
        rw [List.getElem?_map, h, List.length_map, if_pos (List.getElem?_eq_some_iff.1 h).1,
          Option.map_some, hmessage, hservice]
    · rfl
  have hread (rows : List OutboxRow) :
      (rows.filter fun row => row.service = .saga).map OutboxRow.message =
        ((rows.map fun r => (r.service, r.message)).filter fun r => r.1 = .saga).map Prod.snd := by
    rw [List.filter_map, List.map_map]
    rfl
  rw [World.sagaDb, World.sagaDb, World.setRow]
  simp only [hread, hset]

theorem Inv.setRow {s : System} (h : s.Inv) {n : ℕ} {row row' : OutboxRow} {queue : List Message}
    (hrow : s.world.outbox[n]? = some row) (hmessage : row'.message = row.message)
    (hservice : row'.service = row.service)
    (hhanded : row'.published = true → row'.handed = true)
    (hqueue : ∀ message ∈ queue, message ∈ s.world.emitted) (hsub : s.queue ⊆ queue)
    (hlive : row'.handed = true → row.handed = true ∨ row.message.consumer = none ∨
      row.message ∈ queue) :
    (System.mk (s.world.setRow n row') queue s.running).Inv := by
  have hemitted := emitted_setRow hrow hmessage
  have hmem := List.mem_of_getElem? hrow
  have hprogress : s.world.Progresses (s.world.setRow n row') :=
    .of_sagas (hemitted ▸ List.Subset.refl _) rfl
  have hflight (message : Message) (hin : s.InFlight message) :
      (System.mk (s.world.setRow n row') queue s.running).InFlight message :=
    hin.imp_left fun hqueued => hsub hqueued
  have hrows : ∀ r ∈ s.world.outbox.set n row', r = row' ∨ r ∈ s.world.outbox := fun r hr =>
    (List.mem_or_eq_of_mem_set hr).symm
  refine ⟨?_, fun message hmessage => hemitted ▸ hqueue message hmessage, ?_, ?_, ?_⟩
  · refine h.causal.congr rfl (sagaDb_setRow hrow hmessage hservice) hemitted ?_
    intro r hr
    rcases hrows r hr with rfl | hold
    · rw [hmessage, hservice]
      exact h.causal.sent row hmem
    · exact h.causal.sent r hold
  · intro worker attempt hattempt
    exact (h.attempts worker attempt hattempt).mono hprogress fun _ => rfl
  · intro r hr hpublished
    rcases hrows r hr with rfl | hold
    · exact hhanded hpublished
    · exact h.handed r hold hpublished
  · intro r hr hhanded'
    rcases hrows r hr with rfl | hold
    · rw [hmessage]
      rcases hlive hhanded' with hbefore | hnone | hin
      · exact (h.live row hmem hbefore).imp (fun hs => hs.mono hprogress) (hflight _)
      · refine Or.inl ?_
        rw [Settled, hnone]
        trivial
      · exact Or.inr (Or.inl hin)
    · exact (h.live r hold hhanded').imp (fun hs => hs.mono hprogress) (hflight _)

/-- A worker takes a message from the queue. -/
theorem Inv.start {s : System} (h : s.Inv) {worker : Worker} {message : Message}
    (hmem : message ∈ s.queue) (hconsumer : message.consumer = some worker.service)
    (hidle : (s.running worker).isNone = true) (hslot : worker.service = .saga → worker.slot = 0) :
    (System.mk s.world (s.queue.erase message)
      (Function.update s.running worker (some (.new message)))).Inv := by
  have hemitted := h.queued message hmem
  refine h.replace h.causal (.of_eq rfl) (World.Same.refl _).progresses (fun _ _ _ _ _ => rfl) ?_
    (fun m hm => h.queued m (List.mem_of_mem_erase hm)) ?_ ?_
  · intro attempt hattempt
    cases hattempt
    refine ⟨hemitted, hconsumer, hslot, ?_, fun hservice => Or.inl ?_, fun hservice => ⟨rfl, ?_⟩⟩
    · intro x hx
      cases hx
    · exact commits_handler hconsumer hservice fun cmd => h.causal.ne_refundPayment hemitted cmd
    · have hhandler : message.handler = SagaCoordinator.handle message := by
        rw [Message.handler, hconsumer, hservice]
      show SagaAttempt s.world message message.handler
      rw [hhandler]
      exact .reading
  · intro m hm
    by_cases hne : m = message
    · exact Or.inr ⟨.new message, rfl, hne.symm⟩
    · exact Or.inl ((List.mem_erase_of_ne hne).2 hm)
  · intro attempt hattempt
    rw [hattempt] at hidle
    cases hidle

/-- A delivery ends, and its message is settled or queued again. -/
theorem Inv.release {s : System} (h : s.Inv) {worker : Worker} {attempt : Attempt}
    {queue : List Message} (hrunning : s.running worker = some attempt)
    (hqueue : ∀ message ∈ queue, message ∈ s.world.emitted) (hsub : s.queue ⊆ queue)
    (hdone : Settled s.world attempt.message ∨ attempt.message ∈ queue) :
    (s.release worker queue).Inv := by
  refine h.replace h.causal (.of_eq rfl) (World.Same.refl _).progresses (fun _ _ _ _ _ => rfl)
    (fun attempt hattempt => by cases hattempt) hqueue (fun m hm => Or.inl (hsub hm)) ?_
  intro attempt' hattempt'
  cases hrunning.symm.trans hattempt'
  exact hdone.imp_right Or.inl

/-- The message of an abandoned delivery is queued again. -/
theorem Inv.requeue {s : System} (h : s.Inv) {worker : Worker} {attempt : Attempt}
    (hrunning : s.running worker = some attempt) :
    (s.release worker (s.queue ++ [attempt.message])).Inv := by
  refine h.release hrunning ?_ (List.subset_append_left _ _)
    (Or.inr (List.mem_append_right _ List.mem_cons_self))
  intro message hmem
  rcases List.mem_append.1 hmem with hmem | hmem
  · exact h.queued message hmem
  · rw [List.mem_singleton.1 hmem]
    exact (h.attempts worker attempt hrunning).emitted

theorem Inv.resume {s : System} (h : s.Inv) {worker : Worker} {attempt : Attempt}
    (hrunning : s.running worker = some attempt) (ω : Answers) {e : Effect}
    {k : e.Answer → Handler Unit} (hprog : attempt.prog = .call e k) :
    (s.resume worker attempt ω e k).Inv := by
  obtain ⟨message, p, session⟩ := attempt
  obtain rfl : p = .call e k := hprog
  rw [System.resume]
  cases hexec : exec ω e (s.world, session) with
  | none => exact h.requeue hrunning
  | some result =>
      obtain ⟨r, w, session'⟩ := result
      have hattempt := h.attempts worker _ hrunning
      have hspec : CallSpec s.world w worker ⟨message, k r, session'⟩ := by
        by_cases hservice : worker.service = .saga
        · exact hattempt.call_saga h.causal hservice hexec
        · exact hattempt.call_commits h.causal hservice hexec
      refine h.replace hspec.causal hspec.adds hspec.progress ?_ ?_ h.queued
        (fun m hm => Or.inl hm) ?_
      · intro other hne hother attempt' hattempt'
        refine hspec.sagas fun hservice => hne ?_
        -- the coordinator has one slot
        have hslot := (h.attempts other attempt' hattempt').slot hother
        have hslot' := hattempt.slot hservice
        cases other
        cases worker
        simp only at hother hservice hslot hslot'
        rw [hother, hservice, hslot, hslot']
      · intro attempt' hattempt'
        cases hattempt'
        exact hspec.attempt
      · intro attempt' hattempt'
        cases hrunning.symm.trans hattempt'
        exact Or.inr (Or.inr ⟨_, rfl, rfl⟩)

/-- Every step keeps the invariant. -/
theorem Inv.step {s s' : System} {a : Action} (h : s.Inv) (hstep : s.step a = some s') :
    s'.Inv := by
  cases a with
  | checkout req ω =>
      cases hstep
      exact h.checkout req ω
  | seed req ω =>
      cases hstep
      exact h.seed req ω
  | forget key =>
      cases hstep
      exact h.forget key
  | publish n =>
      simp only [System.step, Option.map_eq_some_iff] at hstep
      obtain ⟨row, hrow, rfl⟩ := hstep
      have hemitted : row.message ∈ s.world.emitted :=
        mem_emitted.2 ⟨row, List.mem_of_getElem? hrow, rfl⟩
      refine h.setRow hrow rfl rfl (fun _ => rfl) ?_ ?_ fun _ => Or.inr ?_
      · intro message hmem
        rw [enqueue] at hmem
        split at hmem
        · rcases List.mem_append.1 hmem with hmem | hmem
          · exact h.queued message hmem
          · exact List.mem_singleton.1 hmem ▸ hemitted
        · exact h.queued message hmem
      · rw [enqueue]
        split
        · exact List.subset_append_left _ _
        · exact List.Subset.refl _
      · rw [enqueue]
        split
        · exact Or.inr (List.mem_append_right _ List.mem_cons_self)
        · next hnot =>
            rw [Option.not_isSome_iff_eq_none] at hnot
            exact Or.inl hnot
  | mark n =>
      simp only [System.step, Option.bind_eq_some_iff, Option.ite_none_right_eq_some] at hstep
      obtain ⟨row, hrow, hhanded, hs⟩ := hstep
      cases hs
      exact h.setRow hrow rfl rfl (fun _ => hhanded) h.queued (List.Subset.refl _) fun _ =>
        Or.inl hhanded
  | start worker message =>
      simp only [System.step, Option.ite_none_right_eq_some] at hstep
      obtain ⟨⟨hmem, hconsumer, hidle, hslot⟩, hs⟩ := hstep
      cases hs
      exact h.start hmem hconsumer hidle hslot
  | call worker ω =>
      simp only [System.step, Option.bind_eq_some_iff] at hstep
      obtain ⟨attempt, hrunning, hs⟩ := hstep
      cases hprog : attempt.prog with
      | ret a =>
          rw [hprog] at hs
          cases hs
      | raise =>
          rw [hprog] at hs
          cases hs
      | call e k =>
          rw [hprog] at hs
          cases hs
          exact h.resume hrunning ω hprog
  | finish worker =>
      simp only [System.step, Option.bind_eq_some_iff] at hstep
      obtain ⟨attempt, hrunning, hs⟩ := hstep
      cases hprog : attempt.prog with
      | ret a =>
          rw [hprog] at hs
          cases hs
          exact h.release hrunning h.queued (List.Subset.refl _)
            (Or.inl ((h.attempts worker attempt hrunning).settled hprog))
      | raise =>
          rw [hprog] at hs
          cases hs
      | call e k =>
          rw [hprog] at hs
          cases hs
  | abort worker =>
      simp only [System.step, Option.map_eq_some_iff] at hstep
      obtain ⟨attempt, hrunning, rfl⟩ := hstep
      exact h.requeue hrunning

theorem inv_start : System.start.Inv where
  causal := causal_empty
  queued message hmem := by cases hmem
  attempts worker attempt hattempt := by cases hattempt
  handed row hrow := by cases hrow
  live row hrow := by cases hrow

theorem inv_of_run {s : System} {actions : List Action}
    (h : Schedule.run step System.start actions = some s) : s.Inv :=
  Schedule.run_invariant (fun _ _ _ hinv hstep => hinv.step hstep) inv_start h

/-! ## Quiescent states -/

/-- In a quiescent state every message that was ever emitted is settled. -/
theorem Inv.settled_of_quiescent {s : System} (h : s.Inv) (hquiescent : s.Quiescent)
    {message : Message} (hmem : message ∈ s.world.emitted) : Settled s.world message := by
  obtain ⟨hqueue, hidle, hpublished⟩ := hquiescent
  obtain ⟨row, hrow, rfl⟩ := mem_emitted.1 hmem
  rcases h.live row hrow (h.handed row hrow (hpublished row hrow)) with hsettled | hin | hin
  · exact hsettled
  · rw [hqueue] at hin
    cases hin
  · obtain ⟨worker, attempt, hattempt, -⟩ := hin
    cases (hidle worker).symm.trans hattempt

/-- The answer to a settled command has taken the saga past the state that it is
for. -/
theorem Inv.not_awaited {s : System} (h : s.Inv) (hquiescent : s.Quiescent) {orderId : OrderId}
    {y : OrderCreated × Path} (hy : Traced s.world orderId (some y)) {event : Message}
    (hmem : event ∈ s.world.emitted) (hconsumer : event.consumer = some .saga)
    (hid : event.orderId = orderId) : event.awaited ≠ some y.2.state := by
  intro hawaited
  obtain ⟨row, hrow, hpast⟩ := past_of_settled hconsumer (h.settled_of_quiescent hquiescent hmem)
  rw [hid] at hrow
  cases hrow.symm.trans hy.agrees.row
  exact absurd (rank_lt (hpast _ hawaited)) (Nat.lt_irrefl _)

/-- The order is closed, and its saga has ended the same way. -/
def Closed (w : World) (order : Order) : Prop :=
  ∃ row, w.sagas order.id = some row ∧
    (order.status = .confirmed ∧ row.state = .confirmed ∨
      order.status = .cancelled ∧ row.state = .cancelled)

/-- The answer to the last command of a path is what its saga waits for, or it tells
the status that the path has led to. -/
theorem exists_last_command (created : OrderCreated) (p : Path) :
    ∃ command ∈ p.commands created, command.sender = .saga ∧ ∀ event, command.Answers event →
      (event.consumer = some .saga ∧ event.awaited = some p.state) ∨
        ∃ status, event.sender = .order ∧ event.status = some status ∧
          ((status = .confirmed ∧ p.state = .confirmed) ∨
            (status = .cancelled ∧ p.state = .cancelled)) := by
  cases p with
  | reserving =>
      refine ⟨_, List.mem_cons_self, rfl, fun event hans => Or.inl ?_⟩
      cases event <;> first | exact ⟨rfl, rfl⟩ | cases hans
  | charging =>
      refine ⟨_, List.mem_cons_of_mem _ List.mem_cons_self, rfl, fun event hans => Or.inl ?_⟩
      cases event <;> first | exact ⟨rfl, rfl⟩ | cases hans
  | compensating reason =>
      refine ⟨_, List.getLast_mem (by simp [Path.commands]), rfl, fun event hans => Or.inl ?_⟩
      cases event <;> first | exact ⟨rfl, rfl⟩ | cases hans
  | confirmed paymentId =>
      refine ⟨_, List.getLast_mem (by simp [Path.commands]), rfl, fun event hans =>
        Or.inr ⟨.confirmed, ?_⟩⟩
      cases event <;> first | exact ⟨rfl, rfl, Or.inl ⟨rfl, rfl⟩⟩ | cases hans
  | cancelledUnreserved reason =>
      refine ⟨_, List.getLast_mem (by simp [Path.commands]), rfl, fun event hans =>
        Or.inr ⟨.cancelled, ?_⟩⟩
      cases event <;> first | exact ⟨rfl, rfl, Or.inr ⟨rfl, rfl⟩⟩ | cases hans
  | cancelledUnpaid reason =>
      refine ⟨_, List.getLast_mem (by simp [Path.commands]), rfl, fun event hans =>
        Or.inr ⟨.cancelled, ?_⟩⟩
      cases event <;> first | exact ⟨rfl, rfl, Or.inr ⟨rfl, rfl⟩⟩ | cases hans

theorem Inv.closed_of_quiescent {s : System} (h : s.Inv) (hquiescent : s.Quiescent)
    {order : Order} (horder : order ∈ s.world.orders) : Closed s.world order := by
  have hsettled {message : Message} (hmem : message ∈ s.world.emitted) :=
    h.settled_of_quiescent hquiescent hmem
  obtain ⟨x, hx⟩ := h.causal.traced order.id
  obtain ⟨row, hrow, -⟩ := past_of_settled rfl (hsettled (h.causal.created order horder))
  have hagrees : s.world.sagas order.id = x.map fun y => y.2.row y.1 := hx.agrees.row
  cases x with
  | none => cases hrow.symm.trans hagrees
  | some y =>
      obtain ⟨created, p⟩ := y
      have hid : created.orderId = order.id := hx.agrees.id _ rfl
      -- the last command on the path has been answered
      obtain ⟨command, hcommand, hsender, hlast⟩ := exists_last_command created p
      obtain ⟨event, hmem, hans⟩ := answer_of_settled hsender (hsettled (hx.emitted hcommand))
      have horderId : event.orderId = order.id :=
        ((Message.orderId_of_answers hans).trans (p.commands_orderId created _ hcommand)).trans hid
      rcases hlast event hans with ⟨hconsumer, hawaited⟩ | ⟨status, hsender', hstatus, hended⟩
      · exact absurd hawaited (h.not_awaited hquiescent hx hmem hconsumer horderId)
      · have horderStatus : order.status = status :=
          (h.causal.announced event hmem hsender' status hstatus).2 order horder horderId.symm
        exact ⟨_, hagrees, horderStatus ▸ hended⟩

/-- **No order is left stuck.** When nothing is in flight and every outbox row is
published, every order is closed; and whenever the coordinator skips an event,
the saga of its order is past the state that the event is for. -/
theorem no_order_stuck {s : System} {actions : List Action}
    (hrun : Schedule.run step System.start actions = some s) :
    (s.Quiescent → ∀ order ∈ s.world.orders, Closed s.world order) ∧
      ∀ message reason, s.InFlight message → message.consumer = some .saga →
        transition message (s.world.sagas message.orderId) = .skipped reason →
        Past s.world message := by
  have hinv := inv_of_run hrun
  refine ⟨fun hquiescent order horder => hinv.closed_of_quiescent hquiescent horder, ?_⟩
  intro message reason hflight hconsumer hskip
  have hemitted : message ∈ s.world.emitted := by
    rcases hflight with hmem | ⟨worker, attempt, hattempt, rfl⟩
    · exact hinv.queued message hmem
    · exact (hinv.attempts worker attempt hattempt).emitted
  exact hinv.causal.past_of_skipped hemitted hconsumer hskip

/-- A worker that no action starts stays idle. -/
theorem idle_of_run {s : System} {actions : List Action} {worker : Worker}
    (hrun : Schedule.run step System.start actions = some s)
    (hworker : ∀ message, Action.start worker message ∉ actions) : s.running worker = none := by
  refine Schedule.run_preserves (I := fun s => s.running worker = none)
    (P := fun _ a => ∀ message, a ≠ .start worker message) ?_ rfl
    (Schedule.along_of_forall ?_) hrun
  · intro s a s' hidle hnot hstep
    have hne {other : Worker} {attempt : Attempt} (hrunning : s.running other = some attempt) :
        worker ≠ other := by
      rintro rfl
      cases hidle.symm.trans hrunning
    cases a with
    | checkout | seed | forget =>
        cases hstep
        exact hidle
    | publish n =>
        simp only [System.step, Option.map_eq_some_iff] at hstep
        obtain ⟨row, -, rfl⟩ := hstep
        exact hidle
    | mark n =>
        simp only [System.step, Option.bind_eq_some_iff, Option.ite_none_right_eq_some] at hstep
        obtain ⟨row, -, -, hs⟩ := hstep
        cases hs
        exact hidle
    | start other message =>
        simp only [System.step, Option.ite_none_right_eq_some] at hstep
        obtain ⟨-, hs⟩ := hstep
        cases hs
        refine (Function.update_of_ne ?_ ..).trans hidle
        rintro rfl
        exact hnot message rfl
    | call other ω =>
        simp only [System.step, Option.bind_eq_some_iff] at hstep
        obtain ⟨attempt, hrunning, hs⟩ := hstep
        split at hs
        · cases hs
          rw [System.resume]
          split <;> exact (Function.update_of_ne (hne hrunning) ..).trans hidle
        · cases hs
    | finish other =>
        simp only [System.step, Option.bind_eq_some_iff] at hstep
        obtain ⟨attempt, hrunning, hs⟩ := hstep
        split at hs
        · cases hs
          exact (Function.update_of_ne (hne hrunning) ..).trans hidle
        · cases hs
    | abort other =>
        simp only [System.step, Option.map_eq_some_iff] at hstep
        obtain ⟨attempt, hrunning, rfl⟩ := hstep
        exact (Function.update_of_ne (hne hrunning) ..).trans hidle
  · rintro a ha - message rfl
    exact hworker message ha

/-- The answers of a run in which everything is granted. -/
def granting : Answers := ⟨true, true, ⟨true, "ref-1", none⟩, "id-1"⟩

/-- A row is published and marked, and the message is processed in `n` calls. -/
def processed (row : ℕ) (service : Service) (message : Message) (n : ℕ) : List Action :=
  [.publish row, .mark row, .start ⟨service, 0⟩ message] ++
    List.replicate n (.call ⟨service, 0⟩ granting) ++ [.finish ⟨service, 0⟩]

/-- Ten phones are seeded, and one of them is ordered. -/
def tenPhones : InventoryService.SeedRequest := ⟨"phone", 10, by decide⟩

def onePhone : OrderService.CheckoutRequest :=
  ⟨"user-1", "phone", 1, 100, Int.one_pos, by decide⟩

/-- One order from the checkout to the notification. -/
def sold : List Action :=
  [.seed tenPhones granting, .checkout onePhone granting] ++
  processed 0 .saga (.orderCreated ⟨"id-1", "phone", 1, "user-1", 100⟩) 2 ++
  processed 1 .inventory (.reserveInventory ⟨"id-1", "phone", 1⟩) 8 ++
  processed 2 .saga (.inventoryReserved ⟨"id-1", "phone", 1⟩) 2 ++
  processed 3 .payment (.chargePayment ⟨"id-1", "user-1", 100⟩) 7 ++
  processed 4 .saga (.paymentSucceeded ⟨"id-1", "id-1", 100⟩) 2 ++
  processed 5 .order (.confirmOrder ⟨"id-1"⟩) 2 ++
  processed 6 .notification (.orderConfirmed ⟨"id-1"⟩) 1

theorem no_order_stuck_sold : ∃ s, Schedule.run step System.start sold = some s ∧
    s.Quiescent ∧ s.world.orders ≠ [] ∧ ∀ order ∈ s.world.orders, Closed s.world order := by
  have hrun : (Schedule.run step System.start sold).map (fun s =>
      (s.queue, s.world.outbox.all OutboxRow.published, s.world.orders.map Order.status,
        [Service.saga, .inventory, .payment, .order, .notification].all fun service =>
          (s.running ⟨service, 0⟩).isNone)) = some ([], true, [.confirmed], true) := by
    decide +kernel
  obtain ⟨s, hs, heval⟩ := Option.map_eq_some_iff.1 hrun
  simp only [Prod.mk.injEq] at heval
  obtain ⟨hqueue, hpublished, hstatus, hidle⟩ := heval
  have hquiescent : s.Quiescent := by
    refine ⟨hqueue, ?_, fun row hrow => List.all_eq_true.1 hpublished row hrow⟩
    rintro ⟨service, slot⟩
    by_cases hslot : slot = 0
    · subst hslot
      rw [← Option.isNone_iff_eq_none]
      exact List.all_eq_true.1 hidle service (by cases service <;> decide)
    · have hslots : sold.all (fun a => match a with
          | .start worker _ => worker.slot == 0
          | _ => true) = true := by decide
      refine idle_of_run hs fun message hmem => hslot ?_
      exact of_decide_eq_true (List.all_eq_true.1 hslots _ hmem)
  refine ⟨s, hs, hquiescent, ?_, (no_order_stuck hs).1 hquiescent⟩
  intro hnil
  rw [hnil] at hstatus
  cases hstatus

end System

end FlashSale
