import FlashSale.PaymentService.Main
import FlashSale.Shared.Attempts

/-!
# What the charge handler does

`handleCharge_eq` flattens the handler into one sequence of calls. From it
follows the world that an attempt leaves behind after any number of calls: it
has not reached the gateway, or has an answer and no row, or a row and no entry,
or it is through.
-/

namespace FlashSale

namespace PaymentService

/-- What is left to do once the gateway has answered. -/
def record (cmd : ChargePayment) (result : GatewayResult) : Handler Unit := do
  let id ← flushNew fun id => .insertPayment (payment cmd result id)
  commit [.outbox .payment (chargeEvent cmd result id)]
  storeCharge cmd.orderId (cachePayload (payment cmd result id))
  release (.payment cmd.orderId)

theorem handleCharge_eq (cmd : ChargePayment) :
    handleCharge cmd = (do
      if ← acquire (.payment cmd.orderId) then
        match ← getCachedCharge cmd.orderId with
        | some cached =>
            commit [.outbox .payment (eventFromCachedCharge cmd.orderId cached)]
            release (.payment cmd.orderId)
        | none =>
            let result ← charge cmd.orderId cmd.amountCents cmd.userId
            record cmd result
      else Prog.raise) := by
  rw [handleCharge]
  refine congrArg _ (funext fun acquired => ?_)
  cases acquired with
  | false => rfl
  | true =>
      simp only [if_true, handleChargeLocked, bind_assoc]
      refine congrArg _ (funext fun cached => ?_)
      cases cached with
      | some cached => rfl
      | none => simp only [bind_assoc, record]

/-- The row that an attempt adds with the answers `ω`. -/
def row (cmd : ChargePayment) (ω : Answers) : Payment := payment cmd ω.gateway ω.newId

/-- The world in which the gateway has answered. -/
def called (w : World) (cmd : ChargePayment) (ω : Answers) : World :=
  w.charged cmd.orderId cmd.amountCents cmd.userId ω.gateway

/-- The world in which the row and the event are committed. -/
def recorded (w : World) (cmd : ChargePayment) (ω : Answers) : World :=
  ((called w cmd ω).addPayment (row cmd ω)).emit .payment (chargeEvent cmd ω.gateway ω.newId)

/-- The world that an attempt leaves behind after `n` calls. -/
inductive ChargeStop (ω : Answers) (w : World) (cmd : ChargePayment) (n : ℕ) : World → Prop
  /-- The attempt has no lock, or it has only looked. -/
  | unchanged (h : ω.acquired = false ∨ n < 3) : ChargeStop ω w cmd n w
  /-- The stored answer is announced again. -/
  | repeated (cached : CachedCharge) (hacquired : ω.acquired = true)
      (hcache : w.chargeResults cmd.orderId = some cached) (hn : 3 ≤ n) :
      ChargeStop ω w cmd n
        (w.emit .payment (eventFromCachedCharge cmd.orderId cached))
  /-- The gateway has answered, and nothing is recorded. -/
  | called (hacquired : ω.acquired = true) (hcache : w.chargeResults cmd.orderId = none)
      (hn : 3 ≤ n) (h : n < 5 ∨ ω.newId ∈ w.payments.map Payment.id) :
      ChargeStop ω w cmd n (called w cmd ω)
  /-- The row and the event are committed, and nothing is stored. -/
  | recorded (hacquired : ω.acquired = true) (hcache : w.chargeResults cmd.orderId = none)
      (hn : n = 5) (hid : ω.newId ∉ w.payments.map Payment.id) :
      ChargeStop ω w cmd n (recorded w cmd ω)
  /-- The answer is stored as well. -/
  | stored (hacquired : ω.acquired = true) (hcache : w.chargeResults cmd.orderId = none)
      (hn : 6 ≤ n) (hid : ω.newId ∉ w.payments.map Payment.id) :
      ChargeStop ω w cmd n
        ((recorded w cmd ω).storeCharge cmd.orderId (cachePayload (row cmd ω)))

/-- Three more calls record and store the answer of the gateway. -/
theorem stop_after_charge {ω : Answers} {w : World} {cmd : ChargePayment}
    (hacq : ω.acquired = true) (hcache : w.chargeResults cmd.orderId = none) {missed : Bool}
    (n : ℕ) :
    ChargeStop ω w cmd (n + 3)
      ((record cmd ω.gateway).cut (exec ω) n (called w cmd ω, { missed := missed })).2.1 := by
  rw [record]
  cases n with
  | zero => exact .called hacq hcache (by omega) (Or.inl (by omega))
  | succ n =>
      by_cases hid : ω.newId ∈ w.payments.map Payment.id
      · have hwrite : (called w cmd ω).writeAll
            [.insertPayment (payment cmd ω.gateway ω.newId)] = none :=
          World.writeAll_insertPayment_none hid
        rw [cut_flushNew_none ω n (called w cmd ω) { missed := missed }
          (fun id => .insertPayment (payment cmd ω.gateway id)) _ hwrite]
        exact .called hacq hcache (by omega) (Or.inr hid)
      · have hwrite : (called w cmd ω).writeAll
            [.insertPayment (payment cmd ω.gateway ω.newId)] =
              some ((called w cmd ω).addPayment (row cmd ω)) :=
          World.writeAll_insertPayment hid
        have hcommit := World.writeAll_concat_outbox .payment
          (chargeEvent cmd ω.gateway ω.newId) hwrite
        rw [cut_flushNew ω n (called w cmd ω) { missed := missed }
          (fun id => .insertPayment (payment cmd ω.gateway id)) _ hwrite]
        cases n with
        | zero => exact .called hacq hcache (by omega) (Or.inl (by omega))
        | succ n =>
            rw [cut_commit ω n (called w cmd ω) _ _ hcommit]
            cases n with
            | zero => exact .recorded hacq hcache rfl hid
            | succ n =>
                rw [cut_storeCharge, cut_release_last]
                exact .stored hacq hcache (by omega) hid

/-- An attempt leaves one of the five worlds behind. -/
theorem after_handleCharge (ω : Answers) (w : World) (cmd : ChargePayment) (n : ℕ) :
    ChargeStop ω w cmd n (w.after (handleCharge cmd) ω n) := by
  rw [World.after, handleCharge_eq]
  cases n with
  | zero => exact .unchanged (Or.inr (by omega))
  | succ n =>
      rw [cut_acquire]
      cases hacq : ω.acquired with
      | false =>
          rw [if_neg Bool.false_ne_true, Prog.cut_raise]
          exact .unchanged (Or.inl hacq)
      | true =>
          rw [if_pos rfl]
          cases n with
          | zero => exact .unchanged (Or.inr (by omega))
          | succ n =>
              rw [cut_getCachedCharge]
              cases hcache : w.chargeResults cmd.orderId with
              | some cached =>
                  simp only
                  cases n with
                  | zero => exact .unchanged (Or.inr (by omega))
                  | succ n =>
                      have hstop := ChargeStop.repeated (n := n + 3) cached hacq hcache (by omega)
                      rw [cut_commit ω n w _ _ (w.writeAll_outbox .payment _)]
                      rw [cut_release_last]
                      exact hstop
              | none =>
                  simp only
                  cases n with
                  | zero => exact .unchanged (Or.inr (by omega))
                  | succ n =>
                      rw [cut_charge]
                      exact stop_after_charge hacq hcache n

theorem run_record {ω : Answers} {w : World} (cmd : ChargePayment)
    (hid : ω.newId ∉ w.payments.map Payment.id) :
    (record cmd ω.gateway).run (exec ω) (called w cmd ω, { missed := true }) =
      (some (), (recorded w cmd ω).storeCharge cmd.orderId (cachePayload (row cmd ω)), {}) := by
  have hwrite : (called w cmd ω).writeAll
      [.insertPayment (payment cmd ω.gateway ω.newId)] =
        some ((called w cmd ω).addPayment (row cmd ω)) :=
    World.writeAll_insertPayment hid
  have hcommit := World.writeAll_concat_outbox .payment
    (chargeEvent cmd ω.gateway ω.newId) hwrite
  rw [record, run_flushNew ω (called w cmd ω) { missed := true }
    (fun id => .insertPayment (payment cmd ω.gateway id)) _ hwrite,
    run_commit_bind ω (called w cmd ω) _ _ hcommit, run_storeCharge]
  rfl

theorem run_record_none {ω : Answers} {w : World} (cmd : ChargePayment)
    (hid : ω.newId ∈ w.payments.map Payment.id) :
    (record cmd ω.gateway).run (exec ω) (called w cmd ω, { missed := true }) =
      (none, called w cmd ω, { missed := true }) := by
  have hwrite : (called w cmd ω).writeAll
      [.insertPayment (payment cmd ω.gateway ω.newId)] = none :=
    World.writeAll_insertPayment_none hid
  rw [record, run_flushNew_none ω (called w cmd ω) { missed := true }
    (fun id => .insertPayment (payment cmd ω.gateway id)) _ hwrite]

/-- The uninterrupted handler announces the stored answer, or records and stores
a new one, or raises: it has no lock, or the drawn primary key is taken. -/
theorem run_handleCharge (ω : Answers) (w : World) (cmd : ChargePayment) :
    (∃ cached, ω.acquired = true ∧ w.chargeResults cmd.orderId = some cached ∧
        w.Completes (handleCharge cmd) ω
          (w.emit .payment (eventFromCachedCharge cmd.orderId cached))) ∨
      (ω.acquired = true ∧ w.chargeResults cmd.orderId = none ∧
        ω.newId ∉ w.payments.map Payment.id ∧
        w.Completes (handleCharge cmd) ω
          ((recorded w cmd ω).storeCharge cmd.orderId (cachePayload (row cmd ω)))) ∨
      (((handleCharge cmd).run (exec ω) (w, {})).1 = none ∧
        (ω.acquired = false ∧ ((handleCharge cmd).run (exec ω) (w, {})).2.1 = w ∨
          w.chargeResults cmd.orderId = none ∧ ω.newId ∈ w.payments.map Payment.id ∧
            ((handleCharge cmd).run (exec ω) (w, {})).2.1 = called w cmd ω)) := by
  simp only [World.Completes, handleCharge_eq, run_acquire]
  cases hacq : ω.acquired with
  | false => exact Or.inr (Or.inr ⟨rfl, Or.inl ⟨rfl, rfl⟩⟩)
  | true =>
      simp only [if_true, run_getCachedCharge]
      cases hcache : w.chargeResults cmd.orderId with
      | some cached =>
          refine Or.inl ⟨cached, trivial, rfl, {}, ?_⟩
          simp only
          rw [run_commit_bind ω w _ _ (w.writeAll_outbox .payment _)]
          rfl
      | none =>
          simp only [run_charge]
          by_cases hid : ω.newId ∈ w.payments.map Payment.id
          · have hrun := run_record_none cmd hid
            exact Or.inr (Or.inr ⟨congrArg Prod.fst hrun,
              Or.inr ⟨trivial, hid, congrArg (fun r => r.2.1) hrun⟩⟩)
          · exact Or.inr (Or.inl ⟨trivial, trivial, hid, {}, run_record cmd hid⟩)

end PaymentService

end FlashSale
