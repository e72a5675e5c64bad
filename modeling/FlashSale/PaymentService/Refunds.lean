import FlashSale.Library.Schedule
import FlashSale.PaymentService.Outcome
import Mathlib.Data.List.Nodup

/-!
# Refunds after charges

Deliveries of `ChargePayment` and `RefundPayment`, each handled to its end before
the next one, with idempotency entries that may expire in between. The refund
handler asks the gateway before it looks for the payment row, for the amount of the
command, and writes REFUNDED over whatever status the row has.

`refunds_iff` says which sequences of deliveries refund what was charged.
-/

namespace FlashSale

namespace PaymentService

/-- A delivery with the answers that it gets, or an entry that expires. -/
inductive Delivery
  | charge (cmd : ChargePayment) (ω : Answers)
  | refund (cmd : RefundPayment) (ω : Answers)
  | expire (key : IdemKey)

/-- The world after a handler that does not raise. -/
def completed (w : World) (p : Handler Unit) (ω : Answers) : Option World :=
  match p.run (exec ω) (w, {}) with
  | (some _, w', _) => some w'
  | (none, _) => none

def step (w : World) : Delivery → Option World
  | .charge cmd ω => completed w (handle (.chargePayment cmd)) ω
  | .refund cmd ω => completed w (handle (.refundPayment cmd)) ω
  | .expire key => some (w.setCache key none)

/-- The calls of `gateway.refund` that `w'` has made and its earlier state `w` has not. -/
def newRefunds (w w' : World) : List RefundCall := w'.refunds.drop w.refunds.length

/-- A row becomes REFUNDED only from SUCCEEDED; and a refund is the first one of its
payment, whose charge succeeded, and of the amount charged. -/
structure Sound (w w' : World) : Prop where
  status : ∀ row ∈ w'.payments, row.status = .refunded →
    ∃ old ∈ w.payments, old.id = row.id ∧ (old.status = .succeeded ∨ old.status = .refunded)
  calls : ∀ call ∈ newRefunds w w', call.paymentId ∉ w.refunds.map RefundCall.paymentId ∧
    ∃ row ∈ w.payments, row.id = call.paymentId ∧
      (row.status = .succeeded ∨ row.status = .refunded) ∧ row.amountCents = call.amountCents

/-- The delivery refunds what was charged. -/
def Refunds (w : World) (delivery : Delivery) : Prop :=
  ∀ w', step w delivery = some w' → Sound w w'

/-- A refund without an entry is for a payment that has succeeded, and of its amount. -/
def Matching (w : World) : Delivery → Prop
  | .refund cmd _ => w.refundResults cmd.paymentId = none →
      ∃ row ∈ w.payments, row.id = cmd.paymentId ∧ row.status = .succeeded ∧
        row.amountCents = cmd.amountCents
  | _ => True

instance (w : World) (delivery : Delivery) : Decidable (Matching w delivery) :=
  match delivery with
  | .charge _ _ => isTrue trivial
  | .refund cmd _ => inferInstanceAs (Decidable (w.refundResults cmd.paymentId = none →
      ∃ row ∈ w.payments, row.id = cmd.paymentId ∧ row.status = .succeeded ∧
        row.amountCents = cmd.amountCents))
  | .expire _ => isTrue trivial

/-! ## What the refund handler does -/

/-- A row once its payment is refunded. -/
def refundRow (paymentId : PaymentId) (row : Payment) : Payment :=
  if row.id = paymentId then { row with status := .refunded } else row

/-- The world after a refund that is made: the gateway has refunded the amount of the
command, and the row of the payment, if there is one, is REFUNDED. -/
def refunded (w : World) (cmd : RefundPayment) (ω : Answers) : World :=
  (({ w.refundCalled cmd.paymentId cmd.amountCents with
      payments := w.payments.map (refundRow cmd.paymentId) }).emit .payment
    (.paymentRefunded ⟨cmd.orderId, cmd.paymentId, cmd.amountCents⟩)).storeRefund
      cmd.paymentId ω.newId

theorem run_handleRefund_cached {w : World} {cmd : RefundPayment} {ω : Answers}
    {gatewayRef : String} (hacquired : ω.acquired = true)
    (hcache : w.refundResults cmd.paymentId = some gatewayRef) :
    completed w (handleRefund cmd) ω = some (w.emit .payment
      (.paymentRefunded ⟨cmd.orderId, cmd.paymentId, cmd.amountCents⟩)) := by
  simp only [completed, handleRefund, run_acquire, hacquired, if_true, handleRefundLocked,
    bind_assoc, run_getCachedRefund, hcache]
  rw [run_commit_bind ω w _ _ (w.writeAll_outbox .payment _)]
  rfl

theorem map_refundRow_of_find_none {payments : List Payment} {paymentId : PaymentId}
    (h : payments.find? (fun payment => payment.id = paymentId) = none) :
    payments.map (refundRow paymentId) = payments := by
  rw [List.find?_eq_none] at h
  have hkeep (row : Payment) (hrow : row ∈ payments) : refundRow paymentId row = row :=
    if_neg fun hid => h row hrow (decide_eq_true hid)
  exact (List.map_congr_left hkeep).trans (List.map_id payments)

theorem run_handleRefund {w : World} {cmd : RefundPayment} {ω : Answers}
    (hacquired : ω.acquired = true) (hcache : w.refundResults cmd.paymentId = none) :
    completed w (handleRefund cmd) ω = some (refunded w cmd ω) := by
  simp only [completed, handleRefund, run_acquire, hacquired, if_true, handleRefundLocked,
    bind_assoc, run_getCachedRefund, hcache, run_refund, run_selectPayment,
    World.refundCalled_payments]
  cases hfind : w.payments.find? fun payment => payment.id = cmd.paymentId with
  | none =>
      simp only [bind_assoc]
      rw [run_commit_bind ω _ _ _ (World.writeAll_outbox _ .payment _), run_storeRefund]
      rw [refunded, map_refundRow_of_find_none hfind]
      rfl
  | some row =>
      have hid : row.id = cmd.paymentId := by simpa using List.find?_some hfind
      have hwrite : (w.refundCalled cmd.paymentId cmd.amountCents).writeAll
          [.setPaymentStatus cmd.paymentId .refunded] =
            some { w.refundCalled cmd.paymentId cmd.amountCents with
              payments := w.payments.map (refundRow cmd.paymentId) } := rfl
      have hcommit := World.writeAll_concat_outbox .payment
        (.paymentRefunded ⟨cmd.orderId, cmd.paymentId, cmd.amountCents⟩) hwrite
      simp only [bind_assoc, hid]
      rw [run_commit_bind ω _ _ _ hcommit, run_storeRefund]
      rfl

theorem completed_eq {w w' : World} {p : Handler Unit} {ω : Answers}
    (h : completed w p ω = some w') :
    (p.run (exec ω) (w, {})).1 = some () ∧ (p.run (exec ω) (w, {})).2.1 = w' := by
  rw [completed] at h
  split at h
  · rename_i heq
    cases h
    rw [heq]
    exact ⟨rfl, rfl⟩
  · cases h

/-! ## One delivery -/

/-- What a delivery does: it announces a stored answer again, or it charges, or it
refunds; an entry that expires changes no row. -/
inductive Change (w : World) : Delivery → World → Prop
  | quiet (delivery : Delivery) (w' : World) (hpayments : w'.payments = w.payments)
      (hrefunds : w'.refunds = w.refunds) (hmatching : Matching w delivery) :
      Change w delivery w'
  | charged (cmd : ChargePayment) (ω : Answers)
      (hid : ω.newId ∉ w.payments.map Payment.id) :
      Change w (.charge cmd ω) ((recorded w cmd ω).storeCharge cmd.orderId
        (cachePayload (row cmd ω)))
  | refunded (cmd : RefundPayment) (ω : Answers)
      (hcache : w.refundResults cmd.paymentId = none) :
      Change w (.refund cmd ω) (refunded w cmd ω)

theorem step_change {w w' : World} {delivery : Delivery} (h : step w delivery = some w') :
    Change w delivery w' := by
  cases delivery with
  | charge cmd ω =>
      obtain ⟨hreturned, hworld⟩ := completed_eq h
      change ((handleCharge cmd).run (exec ω) (w, {})).1 = some () at hreturned
      change ((handleCharge cmd).run (exec ω) (w, {})).2.1 = w' at hworld
      rcases run_handleCharge ω w cmd with ⟨cached, -, -, session, hrun⟩ |
        ⟨-, -, hid, session, hrun⟩ | ⟨hraised, -⟩
      · rw [hrun] at hworld
        exact .quiet _ _ (hworld ▸ rfl) (hworld ▸ rfl) trivial
      · rw [hrun] at hworld
        exact hworld ▸ .charged cmd ω hid
      · cases hraised.symm.trans hreturned
  | refund cmd ω =>
      change completed w (handleRefund cmd) ω = some w' at h
      cases hacquired : ω.acquired with
      | false =>
          simp only [completed, handleRefund, run_acquire, hacquired] at h
          cases h
      | true =>
          cases hcache : w.refundResults cmd.paymentId with
          | none =>
              rw [run_handleRefund hacquired hcache] at h
              cases h
              exact .refunded cmd ω hcache
          | some gatewayRef =>
              rw [run_handleRefund_cached hacquired hcache] at h
              cases h
              exact .quiet _ _ rfl rfl fun hnone => by cases hcache.symm.trans hnone
  | expire key =>
      cases h
      cases key <;> exact .quiet _ _ rfl rfl trivial

/-! ## The books -/

/-- The refunded payments are those with a REFUNDED row. -/
structure Books (w : World) : Prop where
  ids : (w.payments.map Payment.id).Nodup
  called : ∀ row ∈ w.payments, row.status = .refunded →
    row.id ∈ w.refunds.map RefundCall.paymentId
  marked : ∀ id ∈ w.refunds.map RefundCall.paymentId,
    ∃ row ∈ w.payments, row.id = id ∧ row.status = .refunded

theorem books_empty : Books World.empty where
  ids := List.nodup_nil
  called := fun _ hrow => nomatch hrow
  marked := fun _ hid => nomatch hid

@[simp] theorem refundRow_id (paymentId : PaymentId) (row : Payment) :
    (refundRow paymentId row).id = row.id := by
  rw [refundRow]
  split <;> rfl

section Change

variable {w w' : World} {delivery : Delivery}

theorem Books.eq_of_id (h : Books w) {row row' : Payment} (hrow : row ∈ w.payments)
    (hrow' : row' ∈ w.payments) (hid : row.id = row'.id) : row = row' :=
  List.inj_on_of_nodup_map h.ids hrow hrow' hid

theorem sound_of_same (hpayments : w'.payments = w.payments) (hrefunds : w'.refunds = w.refunds) :
    Sound w w' where
  status := fun row hrow hstatus => ⟨row, hpayments ▸ hrow, rfl, Or.inr hstatus⟩
  calls := by
    intro call hcall
    rw [newRefunds, hrefunds, List.drop_length] at hcall
    cases hcall

/-- The row of a charge is not a refunded one. -/
theorem row_status_ne_refunded (cmd : ChargePayment) (ω : Answers) :
    (row cmd ω).status ≠ .refunded := by
  cases hsuccess : ω.gateway.success <;> simp [row, payment, hsuccess]

theorem newRefunds_refunded (w : World) (cmd : RefundPayment) (ω : Answers) :
    newRefunds w (refunded w cmd ω) = [⟨cmd.paymentId, cmd.amountCents⟩] :=
  List.drop_left

/-- A refund of a payment that has succeeded, of its amount, is sound. -/
theorem Books.sound_refunded (h : Books w) {cmd : RefundPayment} {ω : Answers} {row : Payment}
    (hrow : row ∈ w.payments) (hid : row.id = cmd.paymentId) (hstatus : row.status = .succeeded)
    (hamount : row.amountCents = cmd.amountCents) : Sound w (refunded w cmd ω) where
  status := by
    intro new hnew hrefunded
    obtain ⟨old, hold, rfl⟩ := List.mem_map.1 hnew
    refine ⟨old, hold, (refundRow_id ..).symm, ?_⟩
    by_cases heq : old.id = cmd.paymentId
    · exact Or.inl (h.eq_of_id hold hrow (heq.trans hid.symm) ▸ hstatus)
    · rw [refundRow, if_neg heq] at hrefunded
      exact Or.inr hrefunded
  calls := by
    intro call hcall
    rw [newRefunds_refunded, List.mem_singleton] at hcall
    subst hcall
    refine ⟨fun hmem => ?_, row, hrow, hid, Or.inl hstatus, hamount⟩
    obtain ⟨other, hother, hsame, hrefunded⟩ := h.marked _ hmem
    rw [h.eq_of_id hother hrow (hsame.trans hid.symm), hstatus] at hrefunded
    cases hrefunded

/-- A sound refund is of a payment that has succeeded, and of its amount. -/
theorem Books.matching_of_sound (h : Books w) {cmd : RefundPayment} {ω : Answers}
    (hsound : Sound w (refunded w cmd ω)) :
    ∃ row ∈ w.payments, row.id = cmd.paymentId ∧ row.status = .succeeded ∧
      row.amountCents = cmd.amountCents := by
  have hcall : ⟨cmd.paymentId, cmd.amountCents⟩ ∈
      newRefunds w (refunded w cmd ω) := by
    rw [newRefunds_refunded]
    exact List.mem_singleton_self _
  obtain ⟨hfirst, row, hrow, hid, hstatus, hamount⟩ := hsound.calls _ hcall
  refine ⟨row, hrow, hid, hstatus.resolve_right fun hrefunded => ?_, hamount⟩
  exact hfirst (hid ▸ h.called row hrow hrefunded)

/-- A delivery refunds what was charged exactly if it matches the payment. -/
theorem Books.sound_iff_matching (h : Books w) (hchange : Change w delivery w') :
    Sound w w' ↔ Matching w delivery := by
  cases hchange with
  | quiet _ _ hpayments hrefunds hmatching =>
      exact iff_of_true (sound_of_same hpayments hrefunds) hmatching
  | charged cmd ω hid =>
      refine iff_of_true ⟨?_, ?_⟩ trivial
      · intro new hnew hrefunded
        rcases List.mem_append.1 hnew with hold | hnew
        · exact ⟨new, hold, rfl, Or.inr hrefunded⟩
        · rw [List.mem_singleton.1 hnew] at hrefunded
          exact absurd hrefunded (row_status_ne_refunded cmd ω)
      · have hsame : Sound w w := sound_of_same rfl rfl
        exact hsame.calls
  | refunded cmd ω hcache =>
      constructor
      · exact fun hsound _ => h.matching_of_sound hsound
      · intro hmatching
        obtain ⟨row, hrow, hid, hstatus, hamount⟩ := hmatching hcache
        exact h.sound_refunded hrow hid hstatus hamount

/-- A row that is REFUNDED stays so. -/
theorem refundRow_status {paymentId : PaymentId} {row : Payment}
    (h : row.id = paymentId ∨ row.status = .refunded) :
    (refundRow paymentId row).status = .refunded := by
  rw [refundRow]
  split
  · rfl
  · exact h.resolve_left ‹_›

theorem Books.refund (h : Books w) {cmd : RefundPayment} {ω : Answers} {row : Payment}
    (hrow : row ∈ w.payments) (hid : row.id = cmd.paymentId) : Books (refunded w cmd ω) where
  ids := by
    have hids : (refunded w cmd ω).payments.map Payment.id = w.payments.map Payment.id := by
      show (w.payments.map (refundRow cmd.paymentId)).map Payment.id = _
      rw [List.map_map]
      exact List.map_congr_left fun old _ => refundRow_id cmd.paymentId old
    rw [hids]
    exact h.ids
  called := by
    intro new hnew hrefunded
    obtain ⟨old, hold, rfl⟩ := List.mem_map.1 hnew
    show _ ∈ (w.refunds ++ [_]).map RefundCall.paymentId
    rw [refundRow_id, List.map_append, List.mem_append]
    by_cases heq : old.id = cmd.paymentId
    · exact Or.inr (heq ▸ List.mem_singleton_self _)
    · rw [refundRow, if_neg heq] at hrefunded
      exact Or.inl (h.called old hold hrefunded)
  marked := by
    intro id hmem
    change id ∈ (w.refunds ++ [_]).map RefundCall.paymentId at hmem
    rw [List.map_append, List.mem_append] at hmem
    rcases hmem with hmem | hmem
    · obtain ⟨old, hold, rfl, hrefunded⟩ := h.marked id hmem
      exact ⟨_, List.mem_map_of_mem hold, refundRow_id .., refundRow_status (Or.inr hrefunded)⟩
    · rw [List.mem_singleton.1 hmem]
      exact ⟨_, List.mem_map_of_mem hrow, (refundRow_id ..).trans hid,
        refundRow_status (Or.inl hid)⟩

theorem Books.charge (h : Books w) {cmd : ChargePayment} {ω : Answers}
    (hid : ω.newId ∉ w.payments.map Payment.id) :
    Books ((recorded w cmd ω).storeCharge cmd.orderId (cachePayload (row cmd ω))) where
  ids := by
    show ((w.payments ++ [row cmd ω]).map Payment.id).Nodup
    rw [List.map_append]
    refine List.nodup_append.2 ⟨h.ids, List.nodup_singleton _, ?_⟩
    rintro id hmem _ hnew rfl
    rw [List.mem_singleton.1 hnew] at hmem
    exact hid hmem
  called := by
    intro new hnew hrefunded
    rcases List.mem_append.1 hnew with hold | hnew
    · exact h.called new hold hrefunded
    · rw [List.mem_singleton.1 hnew] at hrefunded
      exact absurd hrefunded (row_status_ne_refunded cmd ω)
  marked := by
    intro id hmem
    obtain ⟨old, hold, hrest⟩ := h.marked id hmem
    exact ⟨old, List.mem_append_left _ hold, hrest⟩

/-- Deliveries that match their payments keep the books. -/
theorem Books.change (h : Books w) (hchange : Change w delivery w')
    (hmatching : Matching w delivery) : Books w' := by
  cases hchange with
  | quiet _ _ hpayments hrefunds =>
      refine ⟨?_, ?_, ?_⟩
      · rw [hpayments]
        exact h.ids
      · rw [hpayments, hrefunds]
        exact h.called
      · rw [hpayments, hrefunds]
        exact h.marked
  | charged cmd ω hid => exact h.charge hid
  | refunded cmd ω hcache =>
      obtain ⟨row, hrow, hid, -⟩ := hmatching hcache
      exact h.refund hrow hid

end Change

/-! ## Sequences of deliveries -/

theorem Books.along_iff {w u : World} {deliveries : List Delivery} (h : Books w)
    (hrun : Schedule.run step w deliveries = some u) :
    Schedule.Along step Refunds w deliveries ↔ Schedule.Along step Matching w deliveries := by
  induction deliveries generalizing w with
  | nil => exact Iff.rfl
  | cons delivery deliveries ih =>
      obtain ⟨w', hstep, hrest⟩ := Schedule.run_cons_eq_some.1 hrun
      have hchange := step_change hstep
      have hsound : Refunds w delivery ↔ Matching w delivery := by
        refine Iff.trans ⟨fun hall => hall w' hstep, ?_⟩ (h.sound_iff_matching hchange)
        intro hsound t ht
        cases hstep.symm.trans ht
        exact hsound
      rw [Schedule.along_cons, Schedule.along_cons, hsound]
      refine and_congr_right fun hmatching => ?_
      have htail := ih (h.change hchange hmatching) hrest
      constructor
      · intro hall t ht
        cases hstep.symm.trans ht
        exact htail.1 (hall w' hstep)
      · intro hall t ht
        cases hstep.symm.trans ht
        exact htail.2 (hall w' hstep)

/-- In every sequence of deliveries that are handled without failures: rows become
REFUNDED only from SUCCEEDED, and the gateway refunds a payment once, after its charge
has succeeded, and the amount charged, if and only if every `RefundPayment` that finds
no entry names a payment that has succeeded, with its amount. -/
theorem refunds_iff {deliveries : List Delivery} {w : World}
    (h : Schedule.run step World.empty deliveries = some w) :
    Schedule.Along step Refunds World.empty deliveries ↔
      Schedule.Along step Matching World.empty deliveries := books_empty.along_iff h

/-- A charge that goes through, its refund and a second copy of the refund. -/
def refundedTwice : List Delivery :=
  [.charge ⟨"order-1", "user-1", 100⟩ ⟨true, true, ⟨true, "ref-1", none⟩, "payment-1"⟩,
    .refund ⟨"order-1", "payment-1", 100⟩ ⟨true, true, ⟨true, "ref-2", none⟩, "ref-2"⟩,
    .refund ⟨"order-1", "payment-1", 100⟩ ⟨true, true, ⟨true, "ref-3", none⟩, "ref-3"⟩]

theorem refunds_iff_refundedTwice : ∃ w, Schedule.run step World.empty refundedTwice = some w ∧
    Schedule.Along step Refunds World.empty refundedTwice := by
  have hrun : (Schedule.run step World.empty refundedTwice).isSome = true := by decide +kernel
  obtain ⟨w, hw⟩ := Option.isSome_iff_exists.1 hrun
  exact ⟨w, hw, (refunds_iff hw).2 (by decide +kernel)⟩

/-- A charge of 100 that the gateway declines, and a refund of 250 for it. -/
def declinedRefunded : List Delivery :=
  [.charge ⟨"order-1", "user-1", 100⟩
      ⟨true, true, ⟨false, "ref-1", some "card_declined"⟩, "payment-1"⟩,
    .refund ⟨"order-1", "payment-1", 250⟩ ⟨true, true, ⟨true, "ref-2", none⟩, "ref-2"⟩]

/-- The gateway is asked to pay 250 back, and the failed payment becomes REFUNDED. -/
theorem not_refunds_declinedRefunded :
    (∃ w, Schedule.run step World.empty declinedRefunded = some w ∧
      w.refunds = [⟨"payment-1", 250⟩] ∧ w.payments.map Payment.status = [.refunded]) ∧
      ¬ Schedule.Along step Refunds World.empty declinedRefunded := by
  have hrun : (Schedule.run step World.empty declinedRefunded).map
      (fun w => (w.refunds, w.payments.map Payment.status)) =
        some ([⟨"payment-1", 250⟩], [.refunded]) := by decide +kernel
  obtain ⟨w, hw, hrows⟩ := Option.map_eq_some_iff.1 hrun
  have hmatching : ¬ Schedule.Along step Matching World.empty declinedRefunded := by
    decide +kernel
  obtain ⟨hrefunds, hstatus⟩ := Prod.mk.inj hrows
  exact ⟨⟨w, hw, hrefunds, hstatus⟩, fun hall => hmatching ((books_empty.along_iff hw).1 hall)⟩

end PaymentService

end FlashSale
