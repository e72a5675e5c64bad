import FlashSale.Library.Schedule
import FlashSale.PaymentService.Outcome
import Mathlib.Data.Fintype.EquivFin

/-!
# Redeliveries of one charge

A history is a list of attempts at one `ChargePayment`, one after the other;
each may stop after any number of calls. `ExactlyOnce` is the promise of the
payment service, and `ChargeLost` describes the attempts whose answer from the
gateway does not reach the idempotency store.

`exactlyOnce_iff` says that the promise survives a further redelivery exactly
when no attempt of the history lost its charge.
-/

namespace FlashSale

namespace PaymentService

/-- The number of successful gateway calls made for an order. -/
def successes (w : World) (orderId : OrderId) : ℕ :=
  ((w.chargesOf orderId).filter ChargeCall.success).length

/-- The number of payment rows of an order. -/
def rows (w : World) (orderId : OrderId) : ℕ := (w.paymentsOf orderId).length

/-- A `PaymentFailed` event of the order has been committed. -/
def Declined (w : World) (orderId : OrderId) : Prop :=
  ∃ event, .paymentFailed event ∈ w.emitted ∧ event.orderId = orderId

/-- The order is charged at most once and has at most one payment row, and a
committed `PaymentFailed` means that it was not charged. -/
structure ExactlyOnce (w : World) (orderId : OrderId) : Prop where
  charged : successes w orderId ≤ 1
  recorded : rows w orderId ≤ 1
  declined : Declined w orderId → successes w orderId = 0

/-- Nothing has been done about the payment of the order. -/
structure Untouched (w : World) (orderId : OrderId) : Prop where
  notCharged : successes w orderId = 0
  notRecorded : rows w orderId = 0
  notDeclined : ¬ Declined w orderId
  notStored : w.chargeResults orderId = none

/-- One attempt: the answers it gets and the number of calls it makes. -/
abbrev Attempt := Answers × ℕ

/-- An attempt at the command leaves a world behind. -/
def attempt (cmd : ChargePayment) (w : World) (a : Attempt) : Option World :=
  some (w.after (handleCharge cmd) a.1 a.2)

/-- The attempt finds no entry and stores none, although the gateway has
accepted the charge or the row has been committed. The charge is the third call,
the flush, the commit and `store_result` are the next three; the flush fails
when the drawn primary key is taken. -/
def ChargeLost (cmd : ChargePayment) (w : World) (a : Attempt) : Prop :=
  a.1.acquired = true ∧ w.chargeResults cmd.orderId = none ∧
    (a.1.gateway.success = true ∧ 3 ≤ a.2 ∧
        (a.2 < 6 ∨ a.1.newId ∈ w.payments.map Payment.id) ∨
      a.2 = 5 ∧ a.1.newId ∉ w.payments.map Payment.id)

/-! ## What the steps of an attempt count for -/

theorem declined_emit {w : World} {orderId : OrderId} {message : Message} :
    Declined (w.emit .payment message) orderId ↔
      Declined w orderId ∨ ∃ event, message = .paymentFailed event ∧ event.orderId = orderId := by
  simp only [Declined, World.emitted_emit, List.mem_append, List.mem_singleton, or_and_right,
    exists_or]
  refine or_congr_right ⟨?_, ?_⟩
  · rintro ⟨event, rfl, hid⟩
    exact ⟨event, rfl, hid⟩
  · rintro ⟨event, rfl, hid⟩
    exact ⟨event, rfl, hid⟩

@[simp] theorem successes_called (w : World) (cmd : ChargePayment) (ω : Answers) :
    successes (called w cmd ω) cmd.orderId =
      successes w cmd.orderId + if ω.gateway.success then 1 else 0 := by
  cases h : ω.gateway.success <;>
    simp [successes, World.chargesOf, called, World.charged, List.filter_append, h]

@[simp] theorem successes_recorded (w : World) (cmd : ChargePayment) (ω : Answers) :
    successes (recorded w cmd ω) cmd.orderId =
      successes w cmd.orderId + if ω.gateway.success then 1 else 0 :=
  successes_called w cmd ω

@[simp] theorem rows_recorded (w : World) (cmd : ChargePayment) (ω : Answers) :
    rows (recorded w cmd ω) cmd.orderId = rows w cmd.orderId + 1 := by
  simp [rows, World.paymentsOf, recorded, called, World.charged, List.filter_append, row, payment]

theorem declined_recorded (w : World) (cmd : ChargePayment) (ω : Answers) :
    Declined (recorded w cmd ω) cmd.orderId ↔
      Declined w cmd.orderId ∨ ω.gateway.success = false := by
  rw [recorded, declined_emit]
  refine or_congr Iff.rfl ?_
  cases h : ω.gateway.success <;> simp [chargeEvent, h]

/-! ## Attempts that lose nothing -/

/-- Either nothing has happened yet, or the stored entry tells what happened. -/
structure Clean (w : World) (orderId : OrderId) : Prop where
  fresh : w.chargeResults orderId = none → Untouched w orderId
  stored : ∀ cached, w.chargeResults orderId = some cached → rows w orderId ≤ 1 ∧
    (cached.status = .succeeded → successes w orderId ≤ 1 ∧ ¬ Declined w orderId) ∧
    (cached.status ≠ .succeeded → successes w orderId = 0)

theorem Untouched.clean {w : World} {orderId : OrderId} (h : Untouched w orderId) :
    Clean w orderId where
  fresh _ := h
  stored cached hcached := by
    rw [h.notStored] at hcached
    cases hcached

theorem Clean.exactlyOnce {w : World} {orderId : OrderId} (h : Clean w orderId) :
    ExactlyOnce w orderId := by
  cases hcache : w.chargeResults orderId with
  | none =>
      have hfresh := h.fresh hcache
      have hcharged := hfresh.notCharged
      have hrecorded := hfresh.notRecorded
      exact ⟨by omega, by omega, fun _ => hcharged⟩
  | some cached =>
      obtain ⟨hrows, hsucceeded, hother⟩ := h.stored cached hcache
      by_cases hstatus : cached.status = .succeeded
      · exact ⟨(hsucceeded hstatus).1, hrows, fun hd => absurd hd (hsucceeded hstatus).2⟩
      · have hcharged := hother hstatus
        exact ⟨by omega, hrows, fun _ => hcharged⟩

/-- Announcing the stored answer again counts for nothing new. -/
theorem Clean.repeated {w : World} {orderId : OrderId} {cached : CachedCharge}
    (h : Clean w orderId) (hcache : w.chargeResults orderId = some cached) :
    Clean (w.emit .payment (eventFromCachedCharge orderId cached)) orderId := by
  obtain ⟨hrows, hsucceeded, hother⟩ := h.stored cached hcache
  refine ⟨?_, ?_⟩
  · intro hnone
    rw [World.emit_chargeResults, hcache] at hnone
    cases hnone
  · intro cached' hcached
    rw [World.emit_chargeResults, hcache, Option.some.injEq] at hcached
    subst hcached
    refine ⟨hrows, ?_, hother⟩
    intro hstatus
    refine ⟨(hsucceeded hstatus).1, ?_⟩
    rw [declined_emit]
    rintro (hd | ⟨event, hevent, -⟩)
    · exact (hsucceeded hstatus).2 hd
    · simp [eventFromCachedCharge, hstatus] at hevent

/-- A recorded and stored answer is the only thing that has happened. -/
theorem Untouched.clean_stored {w : World} {cmd : ChargePayment}
    (h : Untouched w cmd.orderId) (ω : Answers) :
    Clean ((recorded w cmd ω).storeCharge cmd.orderId (cachePayload (row cmd ω)))
      cmd.orderId := by
  have hs : successes (recorded w cmd ω) cmd.orderId = if ω.gateway.success then 1 else 0 := by
    rw [successes_recorded, h.notCharged, Nat.zero_add]
  have hr : rows (recorded w cmd ω) cmd.orderId = 1 := by rw [rows_recorded, h.notRecorded]
  have hd : Declined (recorded w cmd ω) cmd.orderId ↔ ω.gateway.success = false := by
    rw [declined_recorded]
    exact or_iff_right h.notDeclined
  refine ⟨by simp, ?_⟩
  intro cached hcached
  simp only [World.storeCharge_chargeResults, Function.update_self, Option.some.injEq] at hcached
  subst hcached
  show rows (recorded w cmd ω) cmd.orderId ≤ 1 ∧
    (_ → successes (recorded w cmd ω) cmd.orderId ≤ 1 ∧ ¬ Declined (recorded w cmd ω) cmd.orderId) ∧
      (_ → successes (recorded w cmd ω) cmd.orderId = 0)
  rw [hs, hr, hd]
  cases hsuccess : ω.gateway.success <;> simp [cachePayload, row, payment, hsuccess]

/-- An attempt that loses no charge keeps the order clean. -/
theorem Clean.attempt {w : World} {cmd : ChargePayment} {a : Attempt}
    (h : Clean w cmd.orderId) (hkept : ¬ ChargeLost cmd w a) :
    Clean (w.after (handleCharge cmd) a.1 a.2) cmd.orderId := by
  have hstop := after_handleCharge a.1 w cmd a.2
  revert hstop
  generalize w.after (handleCharge cmd) a.1 a.2 = u
  intro hstop
  cases hstop with
  | unchanged => exact h
  | repeated cached hacq hcache hn => exact h.repeated hcache
  | called hacq hcache hn hearly =>
      have huntouched := h.fresh hcache
      have hdeclined : a.1.gateway.success = false := by
        by_contra hsuccess
        rw [Bool.not_eq_false] at hsuccess
        exact hkept ⟨hacq, hcache, Or.inl ⟨hsuccess, hn, hearly.imp (by omega) id⟩⟩
      refine ⟨fun _ => ⟨?_, huntouched.notRecorded, huntouched.notDeclined, hcache⟩, ?_⟩
      · simp [huntouched.notCharged, hdeclined]
      · intro cached hcached
        rw [show (called w cmd a.1).chargeResults = w.chargeResults from rfl, hcache] at hcached
        cases hcached
  | recorded hacq hcache hn hid => exact absurd ⟨hacq, hcache, Or.inr ⟨hn, hid⟩⟩ hkept
  | stored hacq hcache hn hid => exact (h.fresh hcache).clean_stored a.1

/-! ## Attempts after a lost charge -/

/-- The promise is broken, or the next charge will break it. -/
def Doomed (w : World) (orderId : OrderId) : Prop :=
  ¬ ExactlyOnce w orderId ∨
    w.chargeResults orderId = none ∧ (0 < successes w orderId ∨ 0 < rows w orderId)

theorem ChargeLost.doomed {w : World} {cmd : ChargePayment} {a : Attempt}
    (h : ChargeLost cmd w a) :
    Doomed (w.after (handleCharge cmd) a.1 a.2) cmd.orderId := by
  obtain ⟨hacq, hcache, hlost⟩ := h
  have hstop := after_handleCharge a.1 w cmd a.2
  revert hstop
  generalize w.after (handleCharge cmd) a.1 a.2 = u
  intro hstop
  cases hstop with
  | unchanged hlook =>
      rw [hacq] at hlook
      rcases hlook with hacq' | hn
      · cases hacq'
      · omega
  | repeated cached hacq' hcached hn =>
      rw [hcache] at hcached
      cases hcached
  | called hacq' hcache' hn hearly =>
      rcases hlost with ⟨hsuccess, -, -⟩ | ⟨hn', hid⟩
      · exact Or.inr ⟨hcache, Or.inl (by simp [hsuccess])⟩
      · rcases hearly with hlt | htaken
        · omega
        · exact absurd htaken hid
  | recorded hacq' hcache' hn hid => exact Or.inr ⟨hcache, Or.inr (by simp)⟩
  | stored hacq' hcache' hn hid =>
      rcases hlost with ⟨-, -, hlt | htaken⟩ | ⟨hn', -⟩
      · omega
      · exact absurd htaken hid
      · omega

/-- What has happened stays. -/
theorem ExactlyOnce.of_le {w u : World} {orderId : OrderId} (h : ExactlyOnce u orderId)
    (hs : successes w orderId ≤ successes u orderId) (hr : rows w orderId ≤ rows u orderId)
    (hd : Declined w orderId → Declined u orderId) : ExactlyOnce w orderId where
  charged := hs.trans h.charged
  recorded := hr.trans h.recorded
  declined hdeclined := Nat.le_zero.1 (hs.trans (h.declined (hd hdeclined)).le)

theorem ExactlyOnce.of_emit {w : World} {orderId : OrderId} {message : Message}
    (h : ExactlyOnce (w.emit .payment message) orderId) : ExactlyOnce w orderId :=
  h.of_le Nat.le.refl Nat.le.refl fun hd => declined_emit.2 (Or.inl hd)

theorem ExactlyOnce.of_storeCharge {w : World} {orderId orderId' : OrderId}
    {cached : CachedCharge} (h : ExactlyOnce (w.storeCharge orderId' cached) orderId) :
    ExactlyOnce w orderId := ⟨h.charged, h.recorded, h.declined⟩

theorem ExactlyOnce.of_recorded {w : World} {cmd : ChargePayment} {ω : Answers}
    (h : ExactlyOnce (PaymentService.recorded w cmd ω) cmd.orderId) :
    ExactlyOnce w cmd.orderId := by
  refine h.of_le ?_ ?_ fun hd => (declined_recorded w cmd ω).2 (Or.inl hd)
  · rw [successes_recorded]
    exact Nat.le_add_right _ _
  · rw [rows_recorded]
    exact Nat.le_add_right _ _

/-- Recording one more answer for a doomed order breaks the promise. -/
theorem Doomed.not_exactlyOnce_recorded {w : World} {cmd : ChargePayment}
    (h : Doomed w cmd.orderId) (ω : Answers) :
    ¬ ExactlyOnce (recorded w cmd ω) cmd.orderId := by
  intro honce
  rcases h with hbroken | ⟨-, hcharged | hrecorded⟩
  · exact hbroken honce.of_recorded
  · cases hsuccess : ω.gateway.success with
    | true =>
        have := honce.charged
        rw [successes_recorded, hsuccess, if_pos rfl] at this
        omega
    | false =>
        have := honce.declined ((declined_recorded w cmd ω).2 (Or.inr hsuccess))
        rw [successes_recorded] at this
        omega
  · have := honce.recorded
    rw [rows_recorded] at this
    omega

/-- No attempt makes up for a lost charge. -/
theorem Doomed.attempt {w : World} {cmd : ChargePayment} (h : Doomed w cmd.orderId)
    (a : Attempt) : Doomed (w.after (handleCharge cmd) a.1 a.2) cmd.orderId := by
  have hstop := after_handleCharge a.1 w cmd a.2
  revert hstop
  generalize w.after (handleCharge cmd) a.1 a.2 = u
  intro hstop
  cases hstop with
  | unchanged => exact h
  | repeated cached hacq hcached hn =>
      rcases h with hbroken | ⟨hcache, -⟩
      · exact Or.inl fun honce => hbroken honce.of_emit
      · rw [hcache] at hcached
        cases hcached
  | called hacq hcache hn hearly =>
      rcases h with hbroken | ⟨-, hcharged | hrecorded⟩
      · refine Or.inl fun honce => hbroken (honce.of_le ?_ Nat.le.refl id)
        rw [successes_called]
        exact Nat.le_add_right _ _
      · refine Or.inr ⟨hcache, Or.inl ?_⟩
        rw [successes_called]
        omega
      · exact Or.inr ⟨hcache, Or.inr hrecorded⟩
  | recorded hacq hcache hn hid => exact Or.inl (h.not_exactlyOnce_recorded a.1)
  | stored hacq hcache hn hid =>
      exact Or.inl fun honce => h.not_exactlyOnce_recorded a.1 honce.of_storeCharge

/-- There is always a redelivery that completes and shows the damage. -/
theorem Doomed.exists_redelivery {w : World} {cmd : ChargePayment}
    (h : Doomed w cmd.orderId) :
    ∃ ω u, w.Completes (handleCharge cmd) ω u ∧ ¬ ExactlyOnce u cmd.orderId := by
  obtain ⟨id, hid⟩ := Infinite.exists_notMem_finset (w.payments.map Payment.id).toFinset
  rw [List.mem_toFinset] at hid
  let ω : Answers := ⟨true, true, ⟨true, "", none⟩, id⟩
  rcases run_handleCharge ω w cmd with ⟨cached, -, hcached, hrun⟩ | ⟨-, -, -, hrun⟩ |
    ⟨-, ⟨hacq, -⟩ | ⟨-, htaken, -⟩⟩
  · refine ⟨ω, _, hrun, ?_⟩
    rcases h with hbroken | ⟨hcache, -⟩
    · exact fun honce => hbroken honce.of_emit
    · rw [hcache] at hcached
      cases hcached
  · exact ⟨ω, _, hrun, fun honce => h.not_exactlyOnce_recorded ω honce.of_storeCharge⟩
  · cases hacq
  · exact absurd htaken hid

/-! ## The promise over histories -/

/-- A redelivery that completes keeps the promise of a clean order. -/
theorem Clean.redelivery {w u : World} {cmd : ChargePayment} {ω : Answers}
    (h : Clean w cmd.orderId) (hu : w.Completes (handleCharge cmd) ω u) :
    ExactlyOnce u cmd.orderId := by
  rcases run_handleCharge ω w cmd with ⟨cached, -, hcached, hrun⟩ | ⟨-, hcache, -, hrun⟩ |
    ⟨hraise, -⟩
  · rw [hu.unique hrun]
    exact (h.repeated hcached).exactlyOnce
  · rw [hu.unique hrun]
    exact ((h.fresh hcache).clean_stored ω).exactlyOnce
  · obtain ⟨session, hu⟩ := hu
    rw [hu] at hraise
    cases hraise

/-- **The promise survives a further redelivery exactly when no attempt lost its
charge.** -/
theorem exactlyOnce_iff {cmd : ChargePayment} {w u : World} {history : List Attempt}
    (hw : Untouched w cmd.orderId) (hrun : Schedule.run (attempt cmd) w history = some u) :
    (∀ ω v, u.Completes (handleCharge cmd) ω v → ExactlyOnce v cmd.orderId) ↔
      Schedule.Along (attempt cmd) (fun w a => ¬ ChargeLost cmd w a) w history := by
  have hclean : ∀ w a v, Clean w cmd.orderId → ¬ ChargeLost cmd w a →
      attempt cmd w a = some v → Clean v cmd.orderId := by
    intro w a v h hkept hstep
    exact Option.some.inj hstep ▸ h.attempt hkept
  have hdoomed : ∀ w a v, Doomed w cmd.orderId → attempt cmd w a = some v →
      Doomed v cmd.orderId := by
    intro w a v h hstep
    exact Option.some.inj hstep ▸ h.attempt a
  constructor
  · intro honce
    refine Schedule.along_of_forall_prefix ?_
    rintro before a later v rfl hbefore hv hlost
    obtain ⟨v', hv', hlater⟩ := Schedule.run_append_eq_some.1 hrun
    rw [hv] at hv'
    cases hv'
    obtain ⟨v', hstep, hlater⟩ := Schedule.run_cons_eq_some.1 hlater
    have hfirst : Doomed v' cmd.orderId := Option.some.inj hstep ▸ hlost.doomed
    have hlast : Doomed u cmd.orderId :=
      Schedule.run_invariant (I := fun w => Doomed w cmd.orderId) hdoomed hfirst hlater
    obtain ⟨ω, v, hcompletes, hbroken⟩ := hlast.exists_redelivery
    exact hbroken (honce ω v hcompletes)
  · intro hkept ω v hcompletes
    have hlast : Clean u cmd.orderId :=
      Schedule.run_preserves (I := fun w => Clean w cmd.orderId) hclean hw.clean hkept hrun
    exact hlast.redelivery hcompletes

theorem untouched_empty (orderId : OrderId) : Untouched World.empty orderId where
  notCharged := rfl
  notRecorded := rfl
  notDeclined := by
    rintro ⟨event, hmem, -⟩
    cases hmem
  notStored := rfl

/-- A gateway that accepts, and the primary key that the flush draws. -/
def accepting (id : PaymentId) : Answers where
  acquired := true
  allowed := true
  gateway := { success := true, gatewayRef := "ref", failureReason := none }
  newId := id

/-- An attempt that runs to its end loses nothing. -/
theorem exactlyOnce_afterCompleted :
    ∃ u v, Schedule.run (attempt ⟨"order-1", "user-1", 100⟩) World.empty
        [(accepting "payment-1", 7)] = some u ∧
      u.Completes (handleCharge ⟨"order-1", "user-1", 100⟩) (accepting "payment-2") v ∧
      ExactlyOnce v "order-1" := by
  have hrun : Schedule.run (attempt ⟨"order-1", "user-1", 100⟩) World.empty
      [(accepting "payment-1", 7)] = some (World.empty.after
        (handleCharge ⟨"order-1", "user-1", 100⟩) (accepting "payment-1") 7) := rfl
  have hcompletes : ∃ v, (World.empty.after (handleCharge ⟨"order-1", "user-1", 100⟩)
      (accepting "payment-1") 7).Completes (handleCharge ⟨"order-1", "user-1", 100⟩)
        (accepting "payment-2") v := ⟨_, _, rfl⟩
  obtain ⟨v, hv⟩ := hcompletes
  refine ⟨_, v, hrun, hv, ?_⟩
  refine (exactlyOnce_iff (untouched_empty _) hrun).2 ⟨?_, fun _ _ => trivial⟩ _ v hv
  rintro ⟨-, -, ⟨-, -, hn | hid⟩ | ⟨hn, -⟩⟩
  · exact absurd hn (by decide)
  · exact absurd hid (by decide)
  · exact absurd hn (by decide)

/-- The gateway accepts, the commit fails, and the redelivery charges again. -/
theorem not_exactlyOnce_lostCommit :
    Untouched World.empty "order-1" ∧
      ∃ u v, Schedule.run (attempt ⟨"order-1", "user-1", 100⟩) World.empty
          [(accepting "payment-1", 4)] = some u ∧
        u.Completes (handleCharge ⟨"order-1", "user-1", 100⟩) (accepting "payment-2") v ∧
        ¬ ExactlyOnce v "order-1" := by
  refine ⟨untouched_empty _, _, _, rfl, ⟨_, rfl⟩, ?_⟩
  intro h
  exact absurd h.charged (by decide)

end PaymentService

end FlashSale
