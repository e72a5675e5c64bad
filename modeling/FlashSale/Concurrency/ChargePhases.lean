import FlashSale.Concurrency.Pool
import FlashSale.PaymentService.Outcome

/-!
# The points of a charge task

The phases of the charge handler, in the form of `ReservePhases`.
-/

namespace FlashSale

namespace PaymentService

/-- The points at which a charge task waits for its next call; without the lock
it raises. -/
inductive ChargePhase
  | acquiring
  | checking
  | announcing (cached : CachedCharge)
  | charging
  | recording (result : GatewayResult)
  | committing (result : GatewayResult) (id : PaymentId)
  | storing (result : GatewayResult) (id : PaymentId)
  | leaving
  | done
  | failed

namespace ChargePhase

/-- What is left of the program. -/
def prog (cmd : ChargePayment) : ChargePhase → Handler Unit
  | acquiring => handleCharge cmd
  | checking => do
      match ← getCachedCharge cmd.orderId with
      | some cached =>
          commit [.outbox .payment (eventFromCachedCharge cmd.orderId cached)]
          release (.payment cmd.orderId)
      | none =>
          let result ← charge cmd.orderId cmd.amountCents cmd.userId
          record cmd result
  | announcing cached => do
      commit [.outbox .payment (eventFromCachedCharge cmd.orderId cached)]
      release (.payment cmd.orderId)
  | charging => do
      let result ← charge cmd.orderId cmd.amountCents cmd.userId
      record cmd result
  | recording result => record cmd result
  | committing result id => do
      commit [.outbox .payment (chargeEvent cmd result id)]
      storeCharge cmd.orderId (cachePayload (payment cmd result id))
      release (.payment cmd.orderId)
  | storing result id => do
      storeCharge cmd.orderId (cachePayload (payment cmd result id))
      release (.payment cmd.orderId)
  | leaving => release (.payment cmd.orderId)
  | done => return ()
  | failed => Prog.raise

/-- The unit of work. -/
def session (cmd : ChargePayment) : ChargePhase → Session
  | acquiring | checking | announcing _ | leaving | done | failed => {}
  | charging | recording _ | storing _ _ => { missed := true }
  | committing result id =>
      { txn := [.insertPayment (payment cmd result id)], missed := true }

end ChargePhase

/-- One call of a charge task with number `i`. -/
inductive ChargeStep (cmd : ChargePayment) (i : ℕ) (c : Context) :
    ChargePhase → ChargePhase → Context → Prop
  | acquire (h : c.locks (.payment cmd.orderId) = none) :
      ChargeStep cmd i c .acquiring .checking
        { c with locks := Function.update c.locks (.payment cmd.orderId) (some i) }
  | timeout : ChargeStep cmd i c .acquiring .failed c
  | hit (cached : CachedCharge) (h : c.world.chargeResults cmd.orderId = some cached) :
      ChargeStep cmd i c .checking (.announcing cached) { c with session := {} }
  | miss (h : c.world.chargeResults cmd.orderId = none) :
      ChargeStep cmd i c .checking .charging { c with session := { missed := true } }
  | announce (cached : CachedCharge) :
      ChargeStep cmd i c (.announcing cached) .leaving
        { c with
          world := c.world.emit .payment (eventFromCachedCharge cmd.orderId cached)
          session := {}
          rows := [] }
  | charge (result : GatewayResult) :
      ChargeStep cmd i c .charging (.recording result)
        { c with world := c.world.charged cmd.orderId cmd.amountCents cmd.userId result }
  | record (result : GatewayResult) (id : PaymentId) :
      ChargeStep cmd i c (.recording result) (.committing result id)
        { c with
          session := { txn := [.insertPayment (payment cmd result id)], missed := true } }
  | commit (result : GatewayResult) (id : PaymentId) (w : World)
      (hwrite : c.world.write (.insertPayment (payment cmd result id)) = some w) :
      ChargeStep cmd i c (.committing result id) (.storing result id)
        { c with
          world := w.emit .payment (chargeEvent cmd result id)
          session := { missed := true }
          rows := [] }
  | store (result : GatewayResult) (id : PaymentId) :
      ChargeStep cmd i c (.storing result id) .leaving
        { c with
          world := c.world.storeCharge cmd.orderId (cachePayload (payment cmd result id))
          session := {} }
  | leave :
      ChargeStep cmd i c .leaving .done
        { c with
          session := {}
          locks := if c.locks (.payment cmd.orderId) = some i
            then Function.update c.locks (.payment cmd.orderId) none else c.locks }

/-- A charge task takes one of the steps of `ChargeStep`. -/
theorem charge_perform {cmd : ChargePayment} {i : ℕ} {ω : Answers} {free : Sku → Bool}
    {phase : ChargePhase} {c c' : Context} {e : Effect} {k : e.Answer → Handler Unit}
    {r : e.Answer} (hprog : phase.prog cmd = .call e k)
    (hsession : c.session = phase.session cmd) (h : perform i ω free e c = some (r, c')) :
    ∃ phase', k r = phase'.prog cmd ∧ c'.session = phase'.session cmd ∧
      ChargeStep cmd i c phase phase' c' := by
  obtain ⟨w, locks, session, rows⟩ := c
  obtain rfl : session = phase.session cmd := hsession
  cases phase with
  | acquiring =>
      rw [ChargePhase.prog, handleCharge_eq] at hprog
      cases hprog
      simp only [perform] at h
      split at h
      · rw [Option.ite_none_right_eq_some] at h
        cases h.2
        exact ⟨.checking, rfl, rfl, .acquire h.1⟩
      · cases h
        exact ⟨.failed, rfl, rfl, .timeout⟩
  | checking =>
      cases hprog
      cases h
      have hcache : w.cache (.charge cmd.orderId) = w.chargeResults cmd.orderId := rfl
      cases hentry : w.chargeResults cmd.orderId with
      | some cached =>
          rw [hentry] at hcache
          simp only [hcache]
          exact ⟨.announcing cached, rfl, rfl, .hit cached hentry⟩
      | none =>
          rw [hentry] at hcache
          simp only [hcache]
          exact ⟨.charging, rfl, rfl, .miss hentry⟩
  | announcing cached =>
      cases hprog
      obtain ⟨hfree, w', hwrite, rfl⟩ := perform_commit h
      cases hwrite
      exact ⟨.leaving, rfl, rfl, .announce cached⟩
  | charging =>
      cases hprog
      cases h
      exact ⟨.recording ω.gateway, rfl, rfl, .charge ω.gateway⟩
  | recording result =>
      cases hprog
      obtain ⟨rfl, rfl⟩ := perform_flushNew h
      exact ⟨.committing result ω.newId, rfl, rfl, .record result ω.newId⟩
  | committing result id =>
      cases hprog
      obtain ⟨hfree, w', hwrite, rfl⟩ := perform_commit h
      obtain ⟨u, hu, rfl⟩ := World.of_writeAll_concat_outbox hwrite
      rw [ChargePhase.session, World.writeAll_singleton] at hu
      exact ⟨.storing result id, rfl, rfl, .commit result id u hu⟩
  | storing result id =>
      cases hprog
      cases h
      exact ⟨.leaving, rfl, rfl, .store result id⟩
  | leaving =>
      cases hprog
      cases h
      exact ⟨.done, rfl, rfl, .leave⟩
  | done => cases hprog
  | failed => cases hprog

end PaymentService

end FlashSale
