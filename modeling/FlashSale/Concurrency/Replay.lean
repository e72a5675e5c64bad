import FlashSale.Concurrency.ChargePhases

/-!
# Replayed charges

Any number of deliveries of `ChargePayment` for one order run concurrently, with
whatever amounts and users; no key expires. The event is built from the answer
of the gateway by one of them and from the stored entry by the others.

`ReplayInv` follows the order through three stages: nothing is recorded, the row
and its event are committed, the entry is stored. Only the holder of the lock
moves the order to the next stage.
-/

namespace FlashSale

open PaymentService

/-- The event and the payment row tell the same outcome. -/
def Message.Agrees (row : Payment) : Message → Prop
  | .paymentSucceeded event =>
      row.status = .succeeded ∧ event.orderId = row.orderId ∧ event.paymentId = row.id ∧
        event.amountCents = row.amountCents
  | .paymentFailed event =>
      row.status = .failed ∧ event.orderId = row.orderId ∧
        event.reason = orUnknown row.failureReason
  | _ => False

namespace PaymentService

/-- The event that the stored entry of a payment row gives. -/
def announcement (row : Payment) : Message :=
  eventFromCachedCharge row.orderId (cachePayload row)

/-- The event built from the answer of the gateway is the one that its stored
entry gives. -/
theorem announcement_payment (cmd : ChargePayment) (result : GatewayResult) (id : PaymentId) :
    announcement (payment cmd result id) = chargeEvent cmd result id := by
  cases hsuccess : result.success with
  | true =>
      simp [announcement, eventFromCachedCharge, cachePayload, payment, chargeEvent, hsuccess]
  | false =>
      simp [announcement, eventFromCachedCharge, cachePayload, payment, chargeEvent, hsuccess]

theorem announcement_agrees {row : Payment} (h : row.status ≠ .refunded) :
    (announcement row).Agrees row := by
  rw [announcement, eventFromCachedCharge]
  cases hstatus : row.status with
  | succeeded => simp [cachePayload, hstatus, Message.Agrees]
  | failed => simp [cachePayload, hstatus, Message.Agrees]
  | refunded => exact absurd hstatus h

/-- How far the charge of an order has come. -/
inductive Stage
  | untouched
  | recorded (row : Payment)
  | stored (row : Payment)

/-- The row of the stage. -/
def Stage.row : Stage → Option Payment
  | untouched => none
  | recorded row => some row
  | stored row => some row

/-- The row whose entry is stored. -/
def Stage.entry : Stage → Option Payment
  | stored row => some row
  | _ => none

/-- No row waits for its entry. -/
def Stage.Calm : Stage → Prop
  | recorded _ => False
  | _ => True

/-- What a delivery at a phase knows of the stage; `holds` says that it has the
lock. -/
def ChargePhase.Fits (stage : Stage) (holds : Prop) (cmd : ChargePayment) : ChargePhase → Prop
  | .acquiring | .failed => True
  | .checking => holds ∧ stage.Calm
  | .announcing cached => holds ∧ ∃ row, stage = .stored row ∧ cached = cachePayload row
  | .charging | .recording _ | .committing _ _ => holds ∧ stage = .untouched
  | .storing result id => holds ∧ stage = .recorded (payment cmd result id)
  | .leaving => holds ∧ ∃ row, stage = .stored row
  | .done => ∃ row, stage = .stored row

/-- A delivery that does not hold the lock is not concerned when the holder
moves the order to its next stage. -/
theorem ChargePhase.Fits.other {stage stage' : Stage} {holds holds' : Prop} {cmd : ChargePayment}
    {phase : ChargePhase} (h : phase.Fits stage holds cmd) (hnot : ¬ holds)
    (hstage : ∀ row, stage = .stored row → stage' = .stored row) :
    phase.Fits stage' holds' cmd := by
  cases phase with
  | acquiring => trivial
  | failed => trivial
  | done =>
      obtain ⟨row, hrow⟩ := h
      exact ⟨row, hstage row hrow⟩
  | _ => exact absurd h.1 hnot

end PaymentService

/-- The order is at the stage. What was emitted since `w` repeats the row. -/
structure World.At (w : World) (orderId : OrderId) (stage : Stage) (u : World) : Prop where
  payments : u.paymentsOf orderId = stage.row.toList
  entry : u.chargeResults orderId = stage.entry.map cachePayload
  row : ∀ row, stage.row = some row → row.orderId = orderId ∧ row.status ≠ .refunded
  emitted : ∃ events, u.emitted = w.emitted ++ events ∧
    ∀ event ∈ events, ∃ row, stage.row = some row ∧ event = announcement row

namespace PaymentService

variable {w : World} {orderId : OrderId} {stage : Stage} {u : World}

/-- The row and its event are committed. -/
theorem at_recorded {cmd : ChargePayment} {result : GatewayResult} {id : PaymentId} {v : World}
    (h : w.At cmd.orderId .untouched u)
    (hwrite : u.write (.insertPayment (payment cmd result id)) = some v) :
    w.At cmd.orderId (.recorded (payment cmd result id))
      (v.emit .payment (chargeEvent cmd result id)) := by
  simp only [World.write, Option.ite_none_left_eq_some, Option.some.injEq] at hwrite
  obtain ⟨-, rfl⟩ := hwrite
  obtain ⟨events, hemitted, hevents⟩ := h.emitted
  have hnil : events = [] := by
    refine List.eq_nil_iff_forall_not_mem.2 fun event hevent => ?_
    obtain ⟨row, hrow, -⟩ := hevents event hevent
    cases hrow
  constructor
  · have hpayments : (u.paymentsOf cmd.orderId) = [] := h.payments
    rw [World.paymentsOf] at hpayments ⊢
    simp [List.filter_append, hpayments, Stage.row, payment]
  · exact h.entry
  · intro row hrow
    cases hrow
    refine ⟨rfl, ?_⟩
    cases hsuccess : result.success <;> simp [payment, hsuccess]
  · refine ⟨[chargeEvent cmd result id], ?_, ?_⟩
    · rw [World.emitted_emit, ← List.append_nil w.emitted, ← hnil, ← hemitted]
      rfl
    · intro event hevent
      refine ⟨_, rfl, ?_⟩
      rw [announcement_payment]
      exact List.mem_singleton.1 hevent

/-- The entry is stored. -/
theorem at_stored {row : Payment} (h : w.At orderId (.recorded row) u) :
    w.At orderId (.stored row) (u.storeCharge orderId (cachePayload row)) where
  payments := h.payments
  entry := by simp [Stage.entry]
  row := h.row
  emitted := h.emitted

/-- The stored entry is announced again. -/
theorem at_announced {row : Payment} (h : w.At orderId (.stored row) u) :
    w.At orderId (.stored row)
      (u.emit .payment (eventFromCachedCharge orderId (cachePayload row))) where
  payments := h.payments
  entry := h.entry
  row := h.row
  emitted := by
    obtain ⟨events, hemitted, hevents⟩ := h.emitted
    refine ⟨events ++ [announcement row], ?_, ?_⟩
    · rw [World.emitted_emit, hemitted, List.append_assoc, announcement, (h.row row rfl).1]
    · intro event hevent
      rcases List.mem_append.1 hevent with hold | hnew
      · exact hevents event hold
      · exact ⟨row, rfl, List.mem_singleton.1 hnew⟩

/-- One call of a delivery: the order stays at its stage and the lock with its
holder, or the delivery has the lock, or it takes the free lock. -/
theorem ChargeStep.advance {cmd : ChargePayment} {i : ℕ} {c c' : Context}
    {phase phase' : ChargePhase} (hstep : ChargeStep cmd i c phase phase' c')
    (hat : w.At cmd.orderId stage c.world)
    (hcalm : c.locks (.payment cmd.orderId) = none → stage.Calm)
    (hfits : phase.Fits stage (c.locks (.payment cmd.orderId) = some i) cmd) :
    ∃ stage', w.At cmd.orderId stage' c'.world ∧
      (c'.locks (.payment cmd.orderId) = none → stage'.Calm) ∧
      phase'.Fits stage' (c'.locks (.payment cmd.orderId) = some i) cmd ∧
      (∀ row, stage = .stored row → stage' = .stored row) ∧
      (c'.locks = c.locks ∧ stage' = stage ∨ c.locks (.payment cmd.orderId) = none ∨
        c.locks (.payment cmd.orderId) = some i) := by
  cases hstep with
  | acquire h =>
      refine ⟨stage, hat, ?_, ⟨?_, hcalm h⟩, fun _ hrow => hrow, Or.inr (Or.inl h)⟩
      · intro hnone
        simp at hnone
      · simp
  | timeout => exact ⟨stage, hat, hcalm, trivial, fun _ hrow => hrow, Or.inl ⟨rfl, rfl⟩⟩
  | hit cached h =>
      obtain ⟨hholds, hstage⟩ := hfits
      have hentry := hat.entry
      rw [h] at hentry
      cases stage with
      | untouched => cases hentry
      | recorded row => cases hstage
      | stored row =>
          refine ⟨.stored row, hat, hcalm, ⟨hholds, row, rfl, Option.some.inj hentry⟩, ?_, ?_⟩
          · exact fun _ hrow => hrow
          · exact Or.inl ⟨rfl, rfl⟩
  | miss h =>
      obtain ⟨hholds, hstage⟩ := hfits
      have hentry := hat.entry
      rw [h] at hentry
      cases stage with
      | untouched =>
          exact ⟨.untouched, hat, hcalm, ⟨hholds, rfl⟩, fun _ hrow => hrow, Or.inl ⟨rfl, rfl⟩⟩
      | recorded row => cases hstage
      | stored row => cases hentry
  | announce cached =>
      obtain ⟨hholds, row, rfl, rfl⟩ := hfits
      exact ⟨.stored row, at_announced hat, hcalm, ⟨hholds, row, rfl⟩, fun _ hrow => hrow,
        Or.inl ⟨rfl, rfl⟩⟩
  | charge result =>
      exact ⟨stage, ⟨hat.payments, hat.entry, hat.row, hat.emitted⟩, hcalm, hfits,
        fun _ hrow => hrow, Or.inl ⟨rfl, rfl⟩⟩
  | record result id =>
      exact ⟨stage, hat, hcalm, hfits, fun _ hrow => hrow, Or.inl ⟨rfl, rfl⟩⟩
  | commit result id v hwrite =>
      obtain ⟨hholds, rfl⟩ := hfits
      refine ⟨_, at_recorded hat hwrite, ?_, ⟨hholds, rfl⟩, ?_, Or.inr (Or.inr hholds)⟩
      · intro hnone
        rw [hholds] at hnone
        cases hnone
      · intro row hrow
        cases hrow
  | store result id =>
      obtain ⟨hholds, rfl⟩ := hfits
      refine ⟨_, at_stored hat, fun _ => trivial, ⟨hholds, _, rfl⟩, ?_, Or.inr (Or.inr hholds)⟩
      intro row hrow
      cases hrow
  | leave =>
      obtain ⟨hholds, row, rfl⟩ := hfits
      exact ⟨_, hat, fun _ => trivial, ⟨row, rfl⟩, fun _ hrow => hrow, Or.inr (Or.inr hholds)⟩

/-- A charge task that has completed is through all its phases. -/
theorem ChargePhase.eq_done {cmd : ChargePayment} {phase : ChargePhase}
    (h : phase.prog cmd = .ret ()) : phase = .done := by
  cases phase with
  | done => rfl
  | acquiring =>
      rw [ChargePhase.prog, handleCharge_eq] at h
      cases h
  | _ => cases h

end PaymentService

namespace Pool

/-- The actions of deliveries of `ChargePayment` for one order. No lock and no
entry expires. -/
def ChargesOf (orderId : OrderId) : Action → Prop
  | .spawn (.charge cmd) => cmd.orderId = orderId
  | .spawn _ => False
  | .exec _ _ => True
  | .expire _ => False
  | .forget _ => False

/-- The deliveries of the pool fit the stage of the order. -/
structure ReplayInv (w : World) (orderId : OrderId) (stage : Stage) (s : Pool) : Prop where
  reached : w.At orderId stage s.world
  calm : s.locks (.payment orderId) = none → stage.Calm
  fits : ∀ (j : ℕ) (t : Task), s.tasks[j]? = some t → ∃ cmd phase, cmd.orderId = orderId ∧
    t.prog = ChargePhase.prog cmd phase ∧ t.session = phase.session cmd ∧
      phase.Fits stage (s.locks (.payment orderId) = some j) cmd

theorem ReplayInv.step {w : World} {orderId : OrderId} {stage : Stage} {s s' : Pool} {a : Action}
    (h : ReplayInv w orderId stage s) (ha : ChargesOf orderId a) (hstep : s.step a = some s') :
    ∃ stage', ReplayInv w orderId stage' s' := by
  cases a with
  | expire key => cases ha
  | forget key => cases ha
  | spawn job =>
      cases job with
      | charge cmd =>
          refine ⟨stage, ?_, ?_, ?_⟩
          · cases hstep
            exact h.reached
          · cases hstep
            exact h.calm
          · intro j t hj
            have hlocks : s'.locks = s.locks := by
              cases hstep
              rfl
            rw [hlocks]
            rcases getElem?_spawn hstep hj with hold | ⟨-, rfl⟩
            · exact h.fits j t hold
            · exact ⟨cmd, .acquiring, ha, rfl, rfl, trivial⟩
      | _ => cases ha
  | exec i ω =>
      obtain ⟨task, e, k, r, c, hi, hprog, hperform, rfl⟩ := step_exec hstep
      obtain ⟨cmd, phase, rfl, hphase, hsession, hfits⟩ := h.fits i task hi
      obtain ⟨phase', hk, hsession', hcharge⟩ :=
        charge_perform (hphase.symm.trans hprog) hsession hperform
      obtain ⟨stage', hreached, hcalm, hfits', hstored, hlock⟩ :=
        hcharge.advance h.reached h.calm hfits
      refine ⟨stage', hreached, hcalm, ?_⟩
      intro j t hj
      rcases getElem?_resume hi hj with ⟨rfl, rfl⟩ | ⟨hne, hold⟩
      · exact ⟨cmd, phase', rfl, hk, hsession', hfits'⟩
      · obtain ⟨cmd', phase'', horder, hphase', hbefore, hother⟩ := h.fits j t hold
        refine ⟨cmd', phase'', horder, hphase', hbefore, ?_⟩
        rcases hlock with ⟨hlocks, rfl⟩ | hnone | hself
        · have hlocks' : c.locks = s.locks := hlocks
          rw [show (s.resume i task e.isCommit (k r) c).locks = s.locks from hlocks']
          exact hother
        · refine hother.other ?_ hstored
          intro hj
          cases hnone.symm.trans hj
        · refine hother.other ?_ hstored
          intro hj
          exact hne (Option.some.inj (hj.symm.trans hself))

/-- The charge of an order has one outcome. Everything emitted since `w` is one
event, which tells what the one payment row of the order tells. -/
structure OneOutcome (w : World) (orderId : OrderId) (s : Pool) : Prop where
  one : ∀ task ∈ s.tasks, task.prog = .ret () → ∃ row, s.world.paymentsOf orderId = [row]
  same : ∀ event ∈ w.since s.world, ∀ event' ∈ w.since s.world, event = event'
  agrees : ∀ event ∈ w.since s.world, ∃ row,
    s.world.paymentsOf orderId = [row] ∧ event.Agrees row

theorem ReplayInv.oneOutcome {w : World} {orderId : OrderId} {stage : Stage} {s : Pool}
    (h : ReplayInv w orderId stage s) : OneOutcome w orderId s := by
  obtain ⟨events, hemitted, hevents⟩ := h.reached.emitted
  have hsince : w.since s.world = events := by
    rw [World.since, hemitted, List.drop_left]
  have hpayments : ∀ row, stage.row = some row → s.world.paymentsOf orderId = [row] := by
    intro row hrow
    rw [h.reached.payments, hrow]
    rfl
  constructor
  · intro task htask hdone
    obtain ⟨j, hj⟩ := List.getElem?_of_mem htask
    obtain ⟨cmd, phase, -, hprog, -, hfits⟩ := h.fits j task hj
    rw [ChargePhase.eq_done (hprog.symm.trans hdone)] at hfits
    obtain ⟨row, rfl⟩ := hfits
    exact ⟨row, hpayments row rfl⟩
  · rw [hsince]
    intro event hevent event' hevent'
    obtain ⟨row, hrow, rfl⟩ := hevents event hevent
    obtain ⟨row', hrow', rfl⟩ := hevents event' hevent'
    rw [Option.some.inj (hrow.symm.trans hrow')]
  · rw [hsince]
    intro event hevent
    obtain ⟨row, hrow, rfl⟩ := hevents event hevent
    exact ⟨row, hpayments row hrow, announcement_agrees (h.reached.row row hrow).2⟩

/-- Replayed charges repeat the outcome of the first one, in every interleaving
of the deliveries of an order of which nothing is recorded. -/
theorem replays_repeat {w : World} {orderId : OrderId} {locks : LockKey → Option ℕ}
    {actions : List Action} {s : Pool} (hpayments : w.paymentsOf orderId = [])
    (hentry : w.chargeResults orderId = none)
    (hactions : ∀ a ∈ actions, ChargesOf orderId a)
    (hrun : Schedule.run step (start w locks) actions = some s) : OneOutcome w orderId s := by
  have halong : Schedule.Along step (fun _ a => ChargesOf orderId a) (start w locks) actions :=
    Schedule.along_of_forall fun a ha _ => hactions a ha
  have hstart : ReplayInv w orderId .untouched (start w locks) := by
    refine ⟨⟨hpayments, hentry, ?_, [], ?_, ?_⟩, fun _ => trivial, ?_⟩
    · intro row hrow
      cases hrow
    · exact (List.append_nil _).symm
    · intro event hevent
      cases hevent
    · intro j t hj
      cases hj
  obtain ⟨stage, hinv⟩ := Schedule.run_preserves
    (I := fun s => ∃ stage, ReplayInv w orderId stage s)
    (fun _ _ _ ⟨_, ht⟩ ha hstep => ht.step ha hstep) ⟨.untouched, hstart⟩ halong hrun
  exact hinv.oneOutcome

/-- A gateway that declines. -/
def declining : Answers := ⟨true, true, ⟨false, "ref-1", some "card_declined"⟩, "payment-1"⟩

/-- No lock in time. -/
def timingOut : Answers := { declining with acquired := false }

/-- A charge is declined, a second delivery with another amount comes while it is
at work, and a third one gives up. -/
def declinedTwice : List Action :=
  [.spawn (.charge ⟨"order-1", "user-1", 100⟩), .exec 0 declining,
    .spawn (.charge ⟨"order-1", "user-2", 250⟩), .spawn (.charge ⟨"order-1", "user-1", 100⟩),
    .exec 2 timingOut] ++ List.replicate 6 (.exec 0 declining) ++
    List.replicate 4 (.exec 1 declining)

theorem replays_repeat_declinedTwice : ∃ s,
    Schedule.run step (start World.empty fun _ => none) declinedTwice = some s ∧
      s.world.emitted = List.replicate 2 (.paymentFailed ⟨"order-1", "card_declined"⟩) ∧
      OneOutcome World.empty "order-1" s := by
  have hrun : (Schedule.run step (start World.empty fun _ => none) declinedTwice).map
      (fun s => s.world.emitted) =
        some (List.replicate 2 (.paymentFailed ⟨"order-1", "card_declined"⟩)) := by
    decide +kernel
  obtain ⟨s, hs, hemitted⟩ := Option.map_eq_some_iff.1 hrun
  refine ⟨s, hs, hemitted, replays_repeat rfl rfl ?_ hs⟩
  simp [declinedTwice, ChargesOf]

end Pool

end FlashSale
