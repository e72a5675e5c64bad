import FlashSale.System.Progress

/-!
# A delivery in progress

`AttemptInv` is what holds of a delivery at every point of its callback: it still
commits, or it has committed and its message is settled. The coordinator's
callback reads the saga row, decides, and commits on the row that it has read.
`AttemptInv.call_commits` and `AttemptInv.call_saga` say what one awaited call
does to the delivery and to the world.
-/

namespace FlashSale

open SagaCoordinator

/-- What is left of the coordinator's callback, in the world `w`. -/
inductive SagaAttempt (w : World) (message : Message) : Handler Unit → Prop
  | reading : SagaAttempt w message (SagaCoordinator.handle message)
  | committing (write : SagaWrite) (command : Message)
      (ht : transition message (w.sagas message.orderId) = .applied write command) :
      SagaAttempt w message (commit [.saga message.orderId write, .outbox .saga command])
  | done (h : Settled w message) : SagaAttempt w message (.ret ())

/-- What holds of a delivery that is being processed. -/
structure AttemptInv (w : World) (worker : Worker) (attempt : Attempt) : Prop where
  emitted : attempt.message ∈ w.emitted
  consumer : attempt.message.consumer = some worker.service
  slot : worker.service = .saga → worker.slot = 0
  silent : ∀ x ∈ attempt.session.txn, x.silent = true
  commits : worker.service ≠ .saga → Handler.Commits attempt.message attempt.prog ∨
    Handler.Fits attempt.message attempt.prog ∧ Settled w attempt.message
  saga : worker.service = .saga →
    attempt.session.txn = [] ∧ SagaAttempt w attempt.message attempt.prog

theorem SagaAttempt.mono {w w' : World} {message : Message} {p : Handler Unit}
    (h : SagaAttempt w message p) (hprogress : w.Progresses w') (hsagas : w'.sagas = w.sagas) :
    SagaAttempt w' message p := by
  cases h with
  | reading => exact .reading
  | committing write command ht => exact .committing write command (hsagas ▸ ht)
  | done h => exact .done (h.mono hprogress)

/-- A delivery keeps its facts when the world progresses. The coordinator's needs
the sagas to stay. -/
theorem AttemptInv.mono {w w' : World} {worker : Worker} {attempt : Attempt}
    (h : AttemptInv w worker attempt) (hprogress : w.Progresses w')
    (hsagas : worker.service = .saga → w'.sagas = w.sagas) : AttemptInv w' worker attempt where
  emitted := hprogress.emitted h.emitted
  consumer := h.consumer
  slot := h.slot
  silent := h.silent
  commits hne := (h.commits hne).imp_right fun hfits => ⟨hfits.1, hfits.2.mono hprogress⟩
  saga hsaga := ⟨(h.saga hsaga).1, (h.saga hsaga).2.mono hprogress (hsagas hsaga)⟩

/-- A delivery that returns has settled its message. -/
theorem AttemptInv.settled {w : World} {worker : Worker} {attempt : Attempt}
    (h : AttemptInv w worker attempt) (hprog : attempt.prog = .ret ()) :
    Settled w attempt.message := by
  by_cases hservice : worker.service = .saga
  · have hsaga := (h.saga hservice).2
    rw [hprog] at hsaga
    generalize hp : (Prog.ret () : Handler Unit) = p at hsaga
    cases hsaga with
    | done hsettled => exact hsettled
    | committing write command ht => cases hp
    | reading =>
        have hconsumer := h.consumer
        rw [hservice] at hconsumer
        generalize attempt.message = message at hconsumer hp
        cases message <;> cases hconsumer <;> cases hp
  · rcases h.commits hservice with hcommits | ⟨-, hsettled⟩
    · rw [hprog] at hcommits
      exact absurd hcommits (by simp [Handler.Commits])
    · exact hsettled

/-! ## One call of a delivery -/

/-- What a call leaves behind, for the world and for the delivery. -/
structure CallSpec (w w' : World) (worker : Worker) (attempt : Attempt) : Prop where
  causal : Causal w'
  adds : w.Adds w'
  progress : w.Progresses w'
  sagas : worker.service ≠ .saga → w'.sagas = w.sagas
  attempt : AttemptInv w' worker attempt

theorem World.Same.progresses {w w' : World} (h : w.Same w') : w.Progresses w' := by
  refine .of_sagas ?_ h.sagas
  rw [World.emitted, World.emitted, h.outbox]
  exact List.Subset.refl _

/-- An order that a command asks for is found. -/
theorem finds_of_exec {message : Message} {ω : Answers} {w w' : World}
    {session session' : Session} {e : Effect} {r : e.Answer} (hcausal : Causal w)
    (hmem : message ∈ w.emitted) (hfits : e.Fits message)
    (h : exec ω e (w, session) = some (r, w', session')) : e.Finds r := by
  cases e with
  | selectOrder orderId =>
      obtain ⟨rfl, hsender⟩ := hfits
      obtain ⟨order, horder, hid⟩ := hcausal.order hmem hsender
      cases h
      cases hfind : w.findOrder message.orderId with
      | none =>
          rw [World.findOrder, List.find?_eq_none] at hfind
          exact absurd (decide_eq_true hid) (hfind order horder)
      | some found => exact ⟨found, rfl, World.findOrder_id hfind⟩
  | _ => trivial

/-- A call of a consumer that is not the coordinator. -/
theorem AttemptInv.call_commits {w w' : World} {worker : Worker} {message : Message}
    {session session' : Session} {ω : Answers} {e : Effect} {k : e.Answer → Handler Unit}
    {r : e.Answer} (h : AttemptInv w worker ⟨message, .call e k, session⟩) (hcausal : Causal w)
    (hservice : worker.service ≠ .saga)
    (hexec : exec ω e (w, session) = some (r, w', session')) :
    CallSpec w w' worker ⟨message, k r, session'⟩ := by
  have hcommits : Handler.Commits message (.call e k) ∨
      Handler.Fits message (.call e k) ∧ Settled w message := h.commits hservice
  have hfits : e.Fits message := by
    rcases hcommits with (⟨htarget, -⟩ | ⟨hbenign, -⟩) | ⟨hfits, -⟩
    · exact htarget.2
    · exact hbenign
    · exact hfits.1
  have hfinds := finds_of_exec hcausal h.emitted hfits hexec
  obtain ⟨hsilent, hcall⟩ := exec_of_fits hfits h.silent hexec
  rcases hcall with ⟨hquiet, hsame⟩ | ⟨u, writes, hsame, hcloses, hwrite⟩
  · refine ⟨hcausal.same hsame, .of_eq hsame.outbox, hsame.progresses, fun _ => hsame.sagas, ?_⟩
    refine ⟨hsame.progresses.emitted h.emitted, h.consumer, h.slot, hsilent, fun _ => ?_,
      fun hsaga => absurd hsaga hservice⟩
    rcases hcommits with (⟨htarget, -⟩ | ⟨-, hrest⟩) | ⟨hrest, hsettled⟩
    · rw [hquiet] at htarget
      cases htarget.1
    · exact Or.inl (hrest r hfinds)
    · exact Or.inr ⟨hrest.2 r hfinds, hsettled.mono hsame.progresses⟩
  · have hemitted : message ∈ u.emitted := hsame.progresses.emitted h.emitted
    obtain ⟨hcausal', hsagas, hadds, hanswer⟩ :=
      hcloses.causal (hcausal.same hsame) hemitted hwrite
    have hsagas' : w'.sagas = w.sagas := hsagas.trans hsame.sagas
    have hadds' : w.Adds w' := by
      obtain ⟨rows, houtbox, hnew⟩ := hadds
      exact ⟨rows, by rw [houtbox, hsame.outbox], hnew⟩
    have hprogress : w.Progresses w' := .of_sagas hadds'.emitted hsagas'
    have hsettled : Settled w' message := by
      rcases hanswer with hnotification | ⟨event, hmem, hans⟩
      · rw [Settled, hnotification]
        trivial
      · exact settled_of_answer hmem hans
    refine ⟨hcausal', hadds', hprogress, fun _ => hsagas', ?_⟩
    refine ⟨hprogress.emitted h.emitted, h.consumer, h.slot, hsilent, fun _ => ?_,
      fun hsaga => absurd hsaga hservice⟩
    rcases hcommits with (⟨-, hrest⟩ | ⟨-, hrest⟩) | ⟨hrest, -⟩
    · exact Or.inr ⟨hrest r hfinds, hsettled⟩
    · exact Or.inl (hrest r hfinds)
    · exact Or.inr ⟨hrest.2 r hfinds, hsettled⟩

/-- The coordinator's callback reads the saga row first. -/
theorem SagaCoordinator.handle_eq {message : Message} (h : message.consumer = some .saga) :
    SagaCoordinator.handle message = .call (.selectSaga message.orderId) fun saga =>
      match transition message saga with
      | .applied write command => commit [.saga message.orderId write, .outbox .saga command]
      | .skipped _ => .ret () := by
  cases message <;> first | rfl | cases h

/-- The saga row of an order is written. -/
def World.setSaga (w : World) (orderId : OrderId) (row : SagaRow) : World :=
  { w with sagas := Function.update w.sagas orderId (some row) }

/-- The transaction of the coordinator. -/
theorem World.of_writeAll_saga {w w' : World} {orderId : OrderId} {write : SagaWrite}
    {command : Message}
    (h : w.writeAll [.saga orderId write, .outbox .saga command] = some w') :
    ∃ row, SagaDb.written (w.sagas orderId) write = some row ∧
      w' = (w.setSaga orderId row).emit .saga command := by
  rw [World.writeAll_cons, Option.bind_eq_some_iff] at h
  obtain ⟨u, hu, hlast⟩ := h
  cases hlast
  cases write with
  | insert new =>
      cases hrow : w.sagas orderId with
      | some old => simp [World.write, hrow] at hu
      | none =>
          simp only [World.write, hrow, Option.some.injEq] at hu
          subst hu
          exact ⟨new, rfl, rfl⟩
  | assign state paymentId failureReason =>
      cases hrow : w.sagas orderId with
      | none => simp [World.write, hrow] at hu
      | some old =>
          simp only [World.write, hrow, Option.some.injEq] at hu
          subst hu
          exact ⟨_, rfl, rfl⟩

/-- A call of the coordinator. -/
theorem AttemptInv.call_saga {w w' : World} {worker : Worker} {message : Message}
    {session session' : Session} {ω : Answers} {e : Effect} {k : e.Answer → Handler Unit}
    {r : e.Answer} (h : AttemptInv w worker ⟨message, .call e k, session⟩) (hcausal : Causal w)
    (hservice : worker.service = .saga)
    (hexec : exec ω e (w, session) = some (r, w', session')) :
    CallSpec w w' worker ⟨message, k r, session'⟩ := by
  obtain ⟨htxn, hsaga⟩ := h.saga hservice
  have hconsumer : message.consumer = some .saga := h.consumer.trans (congrArg some hservice)
  simp only at htxn hsaga
  generalize hp : (Prog.call e k : Handler Unit) = p at hsaga
  cases hsaga with
  | done hsettled => cases hp
  | reading =>
      rw [SagaCoordinator.handle_eq hconsumer] at hp
      cases hp
      cases hexec
      refine ⟨hcausal, .of_eq rfl, (World.Same.refl w).progresses, fun _ => rfl, ?_⟩
      refine ⟨h.emitted, h.consumer, h.slot, h.silent, fun hne => absurd hservice hne,
        fun _ => ⟨htxn, ?_⟩⟩
      cases ht : transition message (w.sagas message.orderId) with
      | applied write command =>
          simp only [ht]
          exact .committing write command ht
      | skipped reason =>
          simp only [ht]
          refine .done ?_
          rw [Settled, hconsumer]
          exact hcausal.past_of_skipped h.emitted hconsumer ht
  | committing write command ht =>
      cases hp
      simp only [exec, commitWrites, Option.map_map, Option.map_eq_some_iff] at hexec
      obtain ⟨v, hv, hr⟩ := hexec
      cases hr
      rw [htxn, List.nil_append] at hv
      obtain ⟨row, hw, rfl⟩ := World.of_writeAll_saga hv
      have hadds : w.Adds ((w.setSaga message.orderId row).emit .saga command) := .of_new rfl
      have hprogress : w.Progresses ((w.setSaga message.orderId row).emit .saga command) := by
        refine ⟨hadds.emitted, fun orderId old hold => ?_⟩
        by_cases hid : orderId = message.orderId
        · subst hid
          refine ⟨row, Function.update_self .., ?_⟩
          rcases edge_of_applied ht hw with ⟨hnone, -⟩ | ⟨old', hold', -, hedge⟩
          · cases hold.symm.trans hnone
          · cases hold.symm.trans hold'
            exact .single hedge
        · exact ⟨old, (Function.update_of_ne hid ..).trans hold, .refl⟩
      have hsettled : Settled ((w.setSaga message.orderId row).emit .saga command) message := by
        rw [Settled, hconsumer]
        refine ⟨row, Function.update_self .., fun state hstate => ?_⟩
        rcases edge_of_applied ht hw with ⟨-, hnone⟩ | ⟨old, -, hawaited, hedge⟩
        · cases hnone.symm.trans hstate
        · cases hawaited.symm.trans hstate
          exact .single hedge
      refine ⟨hcausal.saga h.emitted ht hw rfl rfl rfl, hadds, hprogress,
        fun hne => absurd hservice hne, ?_⟩
      refine ⟨hprogress.emitted h.emitted, h.consumer, h.slot, ?_,
        fun hne => absurd hservice hne, fun _ => ⟨rfl, .done hsettled⟩⟩
      intro x hx
      cases hx

end FlashSale
