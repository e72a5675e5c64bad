import FlashSale.Library.Contract
import FlashSale.System.Accounts

/-!
# Nothing is confirmed unpaid

A charge can be abandoned between the call of the gateway and the commit of its
row, and the gateway is then called again. `Backed` is what is left of the books of
the payment service: a row records a call that was made for an emitted command, and
an entry or an event repeats a row. It holds in every run, so an order is never
CONFIRMED, and its stock never given back, without the answer of the gateway that
it takes.

A delivery of a charge is judged by what it knows (`Known`): the calls that it has
made, the rows that it has inserted or committed, the entry that it has found. The
steps of the other services do not matter (`System.local_invariant`).
-/

namespace FlashSale

open PaymentService

/-- The event that tells what a payment row records. -/
def Payment.announcement (row : Payment) : Message :=
  eventFromCachedCharge row.orderId (cachePayload row)

theorem chargeEvent_eq (cmd : ChargePayment) (result : GatewayResult) (id : PaymentId) :
    chargeEvent cmd result id = (payment cmd result id).announcement := by
  cases hsuccess : result.success <;>
    simp [chargeEvent, Payment.announcement, eventFromCachedCharge, cachePayload, payment, hsuccess]

/-- What the payment service has recorded is backed by calls of the gateway. -/
structure Backed (w : World) : Prop where
  charges : ∀ call ∈ w.charges, ∃ cmd, .chargePayment cmd ∈ w.emitted ∧
    call = ⟨cmd.orderId, cmd.userId, cmd.amountCents, call.success⟩
  rows : ∀ row ∈ w.payments, row.call ∈ w.charges
  entries : ∀ orderId cached, w.chargeResults orderId = some cached →
    ∃ row ∈ w.payments, row.orderId = orderId ∧ cached = cachePayload row
  events : ∀ row ∈ w.outbox, row.service = .payment →
    ∃ payment ∈ w.payments, row.message = payment.announcement

/-! ## What a charge knows -/

/-- What the delivery of a charge has found out and done so far. -/
structure Known where
  calls : List ChargeCall
  pending : List Payment
  rows : List Payment
  entries : List (OrderId × CachedCharge)

namespace Known

def start : Known := ⟨[], [], [], []⟩

/-- The event repeats a row, or an entry that was found. -/
def Tells (g : Known) (event : Message) : Prop :=
  (∃ row ∈ g.pending, event = row.announcement) ∨
    ∃ entry ∈ g.entries, event = eventFromCachedCharge entry.1 entry.2

/-- The calls that a charge may make, given what it knows. -/
def Admits (cmd : ChargePayment) (g : Known) : Effect → Prop
  | .acquire _ | .release _ | .getCachedResult (.charge _) => True
  | .charge orderId amountCents userId =>
      orderId = cmd.orderId ∧ amountCents = cmd.amountCents ∧ userId = cmd.userId
  | .flushNew row => ∀ id, ∃ payment, row id = .insertPayment payment ∧ payment.call ∈ g.calls
  | .commit writes => ∃ event, writes = [.outbox .payment event] ∧ g.Tells event
  | .storeResult (.charge orderId) cached =>
      ∃ row ∈ g.rows, row.orderId = orderId ∧ cached = cachePayload row
  | _ => False

/-- What it knows after a call. -/
def next (g : Known) : (e : Effect) → e.Answer → Known
  | .getCachedResult (.charge orderId), some cached =>
      { g with entries := (orderId, cached) :: g.entries }
  | .charge orderId amountCents userId, result =>
      { g with calls := ⟨orderId, userId, amountCents, result.success⟩ :: g.calls }
  | .flushNew row, id =>
      match row id with
      | .insertPayment payment => { g with pending := g.pending ++ [payment] }
      | _ => g
  | .commit _, _ => { g with pending := [], rows := g.pending ++ g.rows }
  | _, _ => g

def terms (cmd : ChargePayment) : Prog.Terms Effect Effect.Answer Known where
  admits := Admits cmd
  next := next

/-- What it knows is so. -/
structure Valid (g : Known) (w : World) (txn : List Write) : Prop where
  txn : txn = g.pending.map .insertPayment
  calls : ∀ call ∈ g.calls, call ∈ w.charges
  pending : ∀ row ∈ g.pending, row.call ∈ w.charges
  rows : ∀ row ∈ g.rows, row ∈ w.payments
  entries : ∀ entry ∈ g.entries,
    ∃ row ∈ w.payments, row.orderId = entry.1 ∧ entry.2 = cachePayload row

variable {g : Known} {w w' : World} {txn : List Write}

theorem valid_start (w : World) : start.Valid w [] where
  txn := rfl
  calls call hcall := by cases hcall
  pending row hrow := by cases hrow
  rows row hrow := by cases hrow
  entries entry hentry := by cases hentry

theorem Valid.mono (h : g.Valid w txn) (hcharges : w.charges ⊆ w'.charges)
    (hpayments : w.payments ⊆ w'.payments) : g.Valid w' txn where
  txn := h.txn
  calls call hcall := hcharges (h.calls call hcall)
  pending row hrow := hcharges (h.pending row hrow)
  rows row hrow := hpayments (h.rows row hrow)
  entries entry hentry := by
    obtain ⟨row, hrow, heq⟩ := h.entries entry hentry
    exact ⟨row, hpayments hrow, heq⟩

end Known

/-- The callback makes only the calls that its knowledge admits. -/
def Handler.Honest (cmd : ChargePayment) (p : Handler Unit) (g : Known) : Prop :=
  p.Keeps (Known.terms cmd) (fun _ _ => True) (fun _ => True) g

theorem honest_handleCharge (cmd : ChargePayment) : (handleCharge cmd).Honest cmd .start := by
  rw [handleCharge_eq]
  refine ⟨trivial, fun acquired => ?_⟩
  cases acquired with
  | false => trivial
  | true =>
      refine ⟨trivial, fun cached => ?_⟩
      cases cached with
      | some cached =>
          refine ⟨⟨_, rfl, Or.inr ⟨(cmd.orderId, cached), List.mem_cons_self, rfl⟩⟩, ?_⟩
          exact fun _ => ⟨trivial, fun _ => trivial⟩
      | none =>
          refine ⟨⟨rfl, rfl, rfl⟩, fun result => ⟨fun id => ⟨_, rfl, ?_⟩, fun id => ?_⟩⟩
          · rw [Payment.call_payment]
            exact List.mem_cons_self
          · have htells : (payment cmd result id) ∈ [payment cmd result id] := List.mem_cons_self
            refine ⟨⟨_, rfl, Or.inl ⟨_, htells, chargeEvent_eq cmd result id⟩⟩, fun _ => ?_⟩
            exact ⟨⟨_, htells, rfl, rfl⟩, fun _ => ⟨trivial, fun _ => trivial⟩⟩

/-! ## One call of a charge -/

theorem World.writeAll_insertPayments {w w' : World} {rows : List Payment}
    (h : w.writeAll (rows.map .insertPayment) = some w') :
    w' = { w with payments := w.payments ++ rows } := by
  induction rows generalizing w with
  | nil =>
      cases h
      rw [List.append_nil]
  | cons row rows ih =>
      rw [List.map_cons, World.writeAll_cons, Option.bind_eq_some_iff] at h
      obtain ⟨u, hu, hrest⟩ := h
      simp only [World.write, Option.ite_none_left_eq_some, Option.some.injEq] at hu
      rw [ih hrest, ← hu.2, List.append_assoc]
      rfl

/-- What a call of a charge leaves behind. -/
structure Known.Kept (g : Known) (w w' : World) (txn : List Write) : Prop where
  backed : Backed w'
  valid : g.Valid w' txn
  charges : w.charges ⊆ w'.charges
  payments : w.payments ⊆ w'.payments

/-- The world has not changed. -/
theorem Known.Valid.kept {g : Known} {w : World} {txn : List Write} (hg : g.Valid w txn)
    (h : Backed w) : g.Kept w w txn :=
  ⟨h, hg, List.Subset.refl _, List.Subset.refl _⟩

theorem Known.Valid.commit {g : Known} {w w' : World} {event : Message}
    (hg : g.Valid w (g.pending.map .insertPayment)) (h : Backed w) (htells : g.Tells event)
    (hwrite : w.writeAll (g.pending.map .insertPayment ++ [.outbox .payment event]) = some w') :
    Known.Kept { g with pending := [], rows := g.pending ++ g.rows } w w' [] := by
  obtain ⟨u, hu, rfl⟩ := World.of_writeAll_concat_outbox hwrite
  rw [World.writeAll_insertPayments hu]
  have hsub : w.payments ⊆ w.payments ++ g.pending := List.subset_append_left _ _
  refine ⟨⟨fun call hcall => ?_, fun row hrow => ?_, fun orderId cached hcache => ?_,
    fun row hrow hservice => ?_⟩, ⟨rfl, hg.calls, ?_, fun row hrow => ?_, fun entry hentry => ?_⟩,
    List.Subset.refl _, hsub⟩
  · obtain ⟨cmd, hcmd, heq⟩ := h.charges call hcall
    refine ⟨cmd, ?_, heq⟩
    rw [World.emitted_emit]
    exact List.mem_append_left _ hcmd
  · exact (List.mem_append.1 hrow).elim (h.rows row) (hg.pending row)
  · obtain ⟨row, hrow, heq⟩ := h.entries orderId cached hcache
    exact ⟨row, hsub hrow, heq⟩
  · rcases List.mem_append.1 hrow with hold | hnew
    · obtain ⟨payment, hpayment, heq⟩ := h.events row hold hservice
      exact ⟨payment, hsub hpayment, heq⟩
    · rw [List.mem_singleton.1 hnew]
      rcases htells with ⟨payment, hpayment, heq⟩ | ⟨entry, hentry, heq⟩
      · exact ⟨payment, List.mem_append_right _ hpayment, heq⟩
      · obtain ⟨payment, hpayment, hid, hcached⟩ := hg.entries entry hentry
        refine ⟨payment, hsub hpayment, ?_⟩
        rw [Payment.announcement, hid, ← hcached]
        exact heq
  · intro row hrow
    cases hrow
  · rcases List.mem_append.1 hrow with hnew | hold
    · exact List.mem_append_right _ hnew
    · exact hsub (hg.rows row hold)
  · obtain ⟨row, hrow, heq⟩ := hg.entries entry hentry
    exact ⟨row, hsub hrow, heq⟩

theorem Known.Valid.charge {g : Known} {w : World} {cmd : ChargePayment} {txn : List Write}
    (hg : g.Valid w txn) (h : Backed w) (hcmd : .chargePayment cmd ∈ w.emitted)
    (result : GatewayResult) :
    Known.Kept
      { g with calls := ⟨cmd.orderId, cmd.userId, cmd.amountCents, result.success⟩ :: g.calls }
      w (w.charged cmd.orderId cmd.amountCents cmd.userId result) txn := by
  have hsub : w.charges ⊆ (w.charged cmd.orderId cmd.amountCents cmd.userId result).charges :=
    List.subset_append_left _ _
  refine ⟨⟨fun call hcall => ?_, fun row hrow => hsub (h.rows row hrow), h.entries, h.events⟩,
    ⟨hg.txn, fun call hcall => ?_, fun row hrow => hsub (hg.pending row hrow), hg.rows,
      hg.entries⟩, hsub, List.Subset.refl _⟩
  · rcases List.mem_append.1 hcall with hold | hnew
    · exact h.charges call hold
    · exact ⟨cmd, hcmd, by rw [List.mem_singleton.1 hnew]⟩
  · rcases List.mem_cons.1 hcall with rfl | hold
    · exact List.mem_append_right _ List.mem_cons_self
    · exact hsub (hg.calls call hold)

theorem Known.Valid.exec {g : Known} {w w' : World} {cmd : ChargePayment}
    {session session' : Session} {ω : Answers} {e : Effect} {r : e.Answer}
    (hg : g.Valid w session.txn) (h : Backed w) (hcmd : .chargePayment cmd ∈ w.emitted)
    (he : g.Admits cmd e) (hexec : exec ω e (w, session) = some (r, w', session')) :
    (g.next e r).Kept w w' session'.txn := by
  cases e with
  | acquire | release =>
      cases hexec
      exact hg.kept h
  | getCachedResult key =>
      cases key with
      | charge orderId =>
          cases hexec
          show (g.next (.getCachedResult (.charge orderId)) (w.chargeResults orderId)).Kept w w _
          cases hcache : w.chargeResults orderId with
          | none => exact hg.kept h
          | some cached =>
              refine Known.Valid.kept ⟨hg.txn, hg.calls, hg.pending, hg.rows, ?_⟩ h
              exact List.forall_mem_cons.2 ⟨h.entries orderId cached hcache, hg.entries⟩
      | _ => cases he
  | charge orderId amountCents userId =>
      obtain ⟨rfl, rfl, rfl⟩ := he
      cases hexec
      exact hg.charge h hcmd ω.gateway
  | flushNew row =>
      simp only [FlashSale.exec, flushWrites, Option.map_map, Option.map_eq_some_iff] at hexec
      obtain ⟨v, -, hr⟩ := hexec
      cases hr
      obtain ⟨payment, hrow, hcall⟩ := he ω.newId
      simp only [Known.next, hrow]
      refine Known.Valid.kept ⟨?_, hg.calls, ?_, hg.rows, hg.entries⟩ h
      · rw [hg.txn, List.map_append]
        rfl
      · intro other hother
        rcases List.mem_append.1 hother with hold | hnew
        · exact hg.pending other hold
        · rw [List.mem_singleton.1 hnew]
          exact hg.calls _ hcall
  | commit writes =>
      obtain ⟨event, rfl, htells⟩ := he
      simp only [FlashSale.exec, commitWrites, Option.map_map, Option.map_eq_some_iff] at hexec
      obtain ⟨v, hv, hr⟩ := hexec
      cases hr
      rw [hg.txn] at hv
      exact (hg.txn ▸ hg).commit h htells hv
  | storeResult key entry =>
      cases key with
      | charge orderId =>
          cases hexec
          obtain ⟨row, hrow, hid, hentry⟩ := he
          refine ⟨⟨h.charges, h.rows, fun other cached hcache => ?_, h.events⟩,
            ⟨hg.txn, hg.calls, hg.pending, hg.rows, hg.entries⟩, List.Subset.refl _,
            List.Subset.refl _⟩
          by_cases hother : other = orderId
          · subst hother
            have hself : (w.setCache (.charge other) (some entry)).chargeResults other =
                some entry := Function.update_self ..
            cases hself.symm.trans hcache
            exact ⟨row, hg.rows row hrow, hid, hentry⟩
          · exact h.entries other cached ((Function.update_of_ne hother ..).symm.trans hcache)
      | _ => cases he
  | _ => cases he

/-! ## Every reachable state -/

theorem World.of_part_payment {w w' : World} (h : w'.part .payment = w.part .payment) :
    w'.charges = w.charges ∧ w'.payments = w.payments ∧ w'.chargeResults = w.chargeResults ∧
      w'.outbox.filter (fun row => row.service = .payment) =
        w.outbox.filter fun row => row.service = .payment := by
  have hcharges := congrArg World.charges h
  have hpayments := congrArg World.payments h
  have hentries := congrArg World.chargeResults h
  have houtbox := congrArg World.outbox h
  exact ⟨hcharges, hpayments, hentries, houtbox⟩

/-- The books of the payment service depend on what it owns. -/
theorem Backed.congr {w w' : World} (h : Backed w) (hpart : w'.part .payment = w.part .payment)
    (hemitted : w.emitted ⊆ w'.emitted) : Backed w' := by
  obtain ⟨hcharges, hpayments, hentries, houtbox⟩ := World.of_part_payment hpart
  refine ⟨fun call hcall => ?_, ?_, ?_, fun row hrow hservice => ?_⟩
  · obtain ⟨cmd, hcmd, heq⟩ := h.charges call (hcharges ▸ hcall)
    exact ⟨cmd, hemitted hcmd, heq⟩
  · rw [hpayments, hcharges]
    exact h.rows
  · rw [hentries, hpayments]
    exact h.entries
  · have hmem : row ∈ w'.outbox.filter fun row => row.service = .payment :=
      List.mem_filter.2 ⟨hrow, decide_eq_true hservice⟩
    rw [houtbox] at hmem
    rw [hpayments]
    exact h.events row (List.mem_filter.1 hmem).1 hservice

theorem Backed.setRow {w : World} {n : ℕ} {row row' : OutboxRow} (h : Backed w)
    (hrow : w.outbox[n]? = some row) (hmessage : row'.message = row.message)
    (hservice : row'.service = row.service) : Backed (w.setRow n row') := by
  refine ⟨fun call hcall => ?_, h.rows, h.entries, fun r hr hpayment => ?_⟩
  · rw [System.emitted_setRow hrow hmessage]
    exact h.charges call hcall
  · rcases List.mem_or_eq_of_mem_set hr with hold | rfl
    · exact h.events r hold hpayment
    · rw [hmessage]
      exact h.events row (List.mem_of_getElem? hrow) (hservice ▸ hpayment)

/-- An entry has expired. -/
theorem Backed.forget {w : World} (h : Backed w) (key : IdemKey) :
    Backed (w.setCache key none) := by
  cases key with
  | charge orderId =>
      refine ⟨h.charges, h.rows, fun other cached hcache => ?_, h.events⟩
      by_cases hother : other = orderId
      · subst hother
        have hself : (w.setCache (.charge other) none).chargeResults other = none :=
          Function.update_self ..
        cases hself.symm.trans hcache
      · exact h.entries other cached ((Function.update_of_ne hother ..).symm.trans hcache)
  | _ => exact ⟨h.charges, h.rows, h.entries, h.events⟩

/-- The delivery is that of a charge, and what it tells it knows. -/
def Attempt.Honest (w : World) (attempt : Attempt) : Prop :=
  ∃ cmd g, attempt.message = .chargePayment cmd ∧ attempt.prog.Honest cmd g ∧
    Known.Valid g w attempt.session.txn

theorem Attempt.Honest.mono {w w' : World} {attempt : Attempt} (h : attempt.Honest w)
    (hcharges : w.charges ⊆ w'.charges) (hpayments : w.payments ⊆ w'.payments) :
    attempt.Honest w' := by
  obtain ⟨cmd, g, hmessage, hprog, hg⟩ := h
  exact ⟨cmd, g, hmessage, hprog, hg.mono hcharges hpayments⟩

namespace System

/-- What holds of the payment service in every reachable state. -/
structure Paying (s : System) : Prop where
  backed : Backed s.world
  attempts : ∀ worker attempt, worker.service = .payment → s.running worker = some attempt →
    attempt.Honest s.world

theorem Paying.replace {s : System} (h : s.Paying) {w : World} {worker : Worker}
    {next : Option Attempt} {queue : List Message} (hbacked : Backed w)
    (hcharges : s.world.charges ⊆ w.charges) (hpayments : s.world.payments ⊆ w.payments)
    (hnext : ∀ attempt, next = some attempt → attempt.Honest w) :
    (System.mk w queue (Function.update s.running worker next)).Paying := by
  refine ⟨hbacked, fun other attempt hservice hattempt => ?_⟩
  by_cases hne : other = worker
  · subst hne
    have hself : Function.update s.running other next other = next := Function.update_self ..
    exact hnext attempt (hself.symm.trans hattempt)
  · have hold := (Function.update_of_ne hne ..).symm.trans hattempt
    exact (h.attempts other attempt hservice hold).mono hcharges hpayments

/-- The deliveries are not concerned. -/
theorem Paying.grow {s : System} (h : s.Paying) {w : World} {queue : List Message}
    (hbacked : Backed w) (hcharges : w.charges = s.world.charges)
    (hpayments : w.payments = s.world.payments) : (System.mk w queue s.running).Paying := by
  refine ⟨hbacked, fun worker attempt hservice hattempt => ?_⟩
  refine (h.attempts worker attempt hservice hattempt).mono ?_ ?_
  · exact fun call hcall => hcharges.symm ▸ hcall
  · exact fun row hrow => hpayments.symm ▸ hrow

theorem Paying.release {s : System} (h : s.Paying) (worker : Worker) (queue : List Message) :
    (s.release worker queue).Paying :=
  h.replace h.backed (List.Subset.refl _) (List.Subset.refl _)
    fun attempt hattempt => by cases hattempt

/-- The steps of the payment service. -/
theorem Paying.step {s s' : System} {a : Action} (hinv : s.Inv) (h : s.Paying)
    (hactor : s.actor a = some .payment) (hstep : s.step a = some s') : s'.Paying := by
  cases a with
  | checkout | seed => cases hactor
  | forget key =>
      cases hstep
      have hsame : (s.world.setCache key none).charges = s.world.charges ∧
          (s.world.setCache key none).payments = s.world.payments := by
        cases key <;> exact ⟨rfl, rfl⟩
      exact h.grow (h.backed.forget key) hsame.1 hsame.2
  | publish n =>
      simp only [System.step, Option.map_eq_some_iff] at hstep
      obtain ⟨row, hrow, rfl⟩ := hstep
      exact h.grow (h.backed.setRow hrow rfl rfl) rfl rfl
  | mark n =>
      simp only [System.step, Option.bind_eq_some_iff, Option.ite_none_right_eq_some] at hstep
      obtain ⟨row, hrow, -, hs⟩ := hstep
      cases hs
      exact h.grow (h.backed.setRow hrow rfl rfl) rfl rfl
  | start worker message =>
      simp only [System.step, Option.ite_none_right_eq_some] at hstep
      obtain ⟨⟨hmem, hconsumer, -⟩, hs⟩ := hstep
      cases hs
      refine h.replace h.backed (List.Subset.refl _) (List.Subset.refl _) fun attempt hattempt => ?_
      cases hattempt
      have hpayment : message.consumer = some .payment := hconsumer.trans hactor
      have hrefund := hinv.causal.ne_refundPayment (hinv.queued message hmem)
      cases message with
      | chargePayment cmd =>
          exact ⟨cmd, .start, rfl, honest_handleCharge cmd, Known.valid_start s.world⟩
      | refundPayment cmd => exact absurd rfl (hrefund cmd)
      | _ => cases hpayment
  | call worker ω =>
      simp only [System.step, Option.bind_eq_some_iff] at hstep
      obtain ⟨⟨message, p, session⟩, hrunning, hs⟩ := hstep
      have hservice : worker.service = .payment := Option.some.inj hactor
      obtain ⟨cmd, g, hmessage, hprog, hg⟩ := h.attempts worker _ hservice hrunning
      have hcmd : .chargePayment cmd ∈ s.world.emitted :=
        hmessage ▸ (hinv.attempts worker _ hrunning).emitted
      split at hs
      · next e k hp =>
          obtain rfl : p = .call e k := hp
          cases hs
          rw [System.resume]
          cases hexec : exec ω e (s.world, session) with
          | none => exact h.release worker _
          | some result =>
              obtain ⟨r, w, session'⟩ := result
              have hkept := hg.exec h.backed hcmd hprog.1 hexec
              refine h.replace hkept.backed hkept.charges hkept.payments fun attempt hattempt => ?_
              cases hattempt
              exact ⟨cmd, g.next e r, hmessage, hprog.2 r, hkept.valid⟩
      · cases hs
  | finish worker =>
      simp only [System.step, Option.bind_eq_some_iff] at hstep
      obtain ⟨attempt, -, hs⟩ := hstep
      split at hs
      · cases hs
        exact h.release worker _
      · cases hs
  | abort worker =>
      simp only [System.step, Option.map_eq_some_iff] at hstep
      obtain ⟨attempt, -, rfl⟩ := hstep
      exact h.release worker _

theorem backed_empty : Backed World.empty where
  charges call hcall := by cases hcall
  rows row hrow := by cases hrow
  entries orderId cached hcache := by cases hcache
  events row hrow := by cases hrow

theorem paying_of_run {s : System} {actions : List Action}
    (hrun : Schedule.run step System.start actions = some s) : s.Paying := by
  refine local_invariant (I := Paying) (fun s s' h hpart hworkers hemitted => ?_)
    (fun s a s' hinv _ h hactor hstep => h.step hinv hactor hstep)
    ⟨backed_empty, fun _ _ _ hattempt => by cases hattempt⟩ hrun
  obtain ⟨hcharges, hpayments, -⟩ := World.of_part_payment hpart
  refine ⟨h.backed.congr hpart hemitted, fun worker attempt hservice hattempt => ?_⟩
  have hold := (hworkers worker hservice).symm.trans hattempt
  refine (h.attempts worker attempt hservice hold).mono ?_ ?_
  · exact fun call hcall => hcharges.symm ▸ hcall
  · exact fun row hrow => hpayments.symm ▸ hrow

end System

/-! ## What the coordinator was told -/

section

variable {w : World}

/-- The gateway is called for orders only, with their own user and amount. -/
theorem Backed.exists_order (h : Backed w) (hcausal : Causal w) {call : ChargeCall}
    (hcall : call ∈ w.charges) :
    ∃ order ∈ w.orders, call = { order.taken with success := call.success } := by
  obtain ⟨cmd, hcmd, heq⟩ := h.charges call hcall
  obtain ⟨order, horder, rfl⟩ := hcausal.order_of_charge hcmd
  exact ⟨order, horder, heq⟩

/-- A charge that was announced is in the books. -/
theorem Backed.announced (h : Backed w) (hcausal : Causal w) {event : Message}
    (hmem : event ∈ w.emitted) (hsender : event.sender = .payment) :
    ∃ payment ∈ w.payments, event = payment.announcement := by
  obtain ⟨row, hrow, rfl⟩ := mem_emitted.1 hmem
  exact h.events row hrow ((hcausal.sent row hrow).symm.trans hsender)

theorem Payment.of_announced_succeeded {row : Payment} {event : PaymentSucceeded}
    (h : .paymentSucceeded event = row.announcement) :
    row.status = .succeeded ∧ event = ⟨row.orderId, row.id, row.amountCents⟩ := by
  rw [Payment.announcement, eventFromCachedCharge] at h
  split at h
  · next hstatus =>
      cases h
      exact ⟨hstatus, rfl⟩
  · cases h

theorem Payment.of_announced_failed {row : Payment} {event : PaymentFailed}
    (h : .paymentFailed event = row.announcement) :
    row.status ≠ .succeeded ∧ event = ⟨row.orderId, orUnknown row.failureReason⟩ := by
  rw [Payment.announcement, eventFromCachedCharge] at h
  split at h
  · cases h
  · next hstatus =>
      cases h
      exact ⟨hstatus, rfl⟩

/-- A CONFIRMED order was paid by the payment that its saga names. -/
theorem Backed.of_confirmed (h : Backed w) (hcausal : Causal w) {order : Order}
    (horder : order ∈ w.orders) (hstatus : order.status = .confirmed) :
    order.taken ∈ w.charges ∧ ∃ row ∈ w.payments, row.call = order.taken ∧
      ∃ saga, w.sagas order.id = some saga ∧ saga.paymentId = some row.id := by
  obtain ⟨paymentId, hx⟩ := hcausal.confirmed_path horder hstatus
  obtain ⟨-, amountCents, hevent⟩ := hx.taken _ rfl
  obtain ⟨row, hrow, hannounced⟩ := h.announced hcausal hevent rfl
  obtain ⟨hsucceeded, heq⟩ := Payment.of_announced_succeeded hannounced
  simp only [PaymentSucceeded.mk.injEq] at heq
  obtain ⟨hid, rfl, -⟩ := heq
  obtain ⟨found, hfound, hcall⟩ := h.exists_order hcausal (h.rows row hrow)
  have hfoundId : found.id = order.id := (congrArg ChargeCall.orderId hcall).symm.trans hid.symm
  obtain rfl : found = order := List.inj_on_of_nodup_map hcausal.ids hfound horder hfoundId
  have hsuccess : row.call.success = true := decide_eq_true hsucceeded
  rw [hsuccess] at hcall
  have htaken : row.call = found.taken := hcall
  exact ⟨htaken ▸ h.rows row hrow, row, hrow, htaken, _, hx.agrees.row, rfl⟩

/-- Stock is given back for an order whose charge the gateway has declined, for the
reason that the saga names. -/
theorem Backed.of_release (h : Backed w) (hcausal : Causal w) {cmd : ReleaseInventory}
    (hcmd : .releaseInventory cmd ∈ w.emitted) :
    ∃ row ∈ w.payments, row.orderId = cmd.orderId ∧ row.call ∈ w.charges ∧
      row.call.success = false ∧ ∃ saga, w.sagas cmd.orderId = some saga ∧
        saga.failureReason = some (orUnknown row.failureReason) := by
  obtain ⟨order, -, p, -, hx, hcommand⟩ := hcausal.of_command hcmd rfl
  have htold : ∃ reason, .paymentFailed ⟨cmd.orderId, reason⟩ ∈ w.emitted ∧
      (p.row order.created).failureReason = some reason := by
    have htaken := hx.taken _ rfl
    cases p with
    | compensating reason => exact ⟨reason, htaken.2, rfl⟩
    | cancelledUnpaid reason => exact ⟨reason, htaken.2.1, rfl⟩
    | _ => simp [SagaCoordinator.Path.commands] at hcommand
  obtain ⟨reason, hevent, hreason⟩ := htold
  obtain ⟨row, hrow, hannounced⟩ := h.announced hcausal hevent rfl
  obtain ⟨hfailed, heq⟩ := Payment.of_announced_failed hannounced
  simp only [PaymentFailed.mk.injEq] at heq
  obtain ⟨hid, rfl⟩ := heq
  exact ⟨row, hrow, hid.symm, h.rows row hrow, decide_eq_false hfailed, _, hx.agrees.row, hreason⟩

end

namespace System

/-- **Nothing is confirmed unpaid**, and no stock is given back for a charge that
was not declined, however often deliveries are abandoned. The gateway is called for
orders only, with their own user and amount, and no row is made up. -/
theorem backed_of_run {s : System} {actions : List Action}
    (hrun : Schedule.run step System.start actions = some s) :
    (∀ call ∈ s.world.charges,
      ∃ order ∈ s.world.orders, call = { order.taken with success := call.success }) ∧
      (∀ row ∈ s.world.payments, row.call ∈ s.world.charges) ∧
      (∀ order ∈ s.world.orders, order.status = .confirmed →
        order.taken ∈ s.world.charges ∧ ∃ row ∈ s.world.payments, row.call = order.taken ∧
          ∃ saga, s.world.sagas order.id = some saga ∧ saga.paymentId = some row.id) ∧
      ∀ cmd, .releaseInventory cmd ∈ s.world.emitted →
        ∃ row ∈ s.world.payments, row.orderId = cmd.orderId ∧ row.call ∈ s.world.charges ∧
          row.call.success = false ∧ ∃ saga, s.world.sagas cmd.orderId = some saga ∧
            saga.failureReason = some (orUnknown row.failureReason) := by
  have hcausal : Causal s.world := (inv_of_run hrun).causal
  have hbacked : Backed s.world := (paying_of_run hrun).backed
  refine ⟨fun call hcall => ?_, hbacked.rows, fun order horder => ?_, fun cmd hcmd => ?_⟩
  · exact hbacked.exists_order hcausal hcall
  · exact hbacked.of_confirmed hcausal horder
  · exact hbacked.of_release hcausal hcmd

/-- The sale of one phone, in which the payment service is stopped once the gateway
has answered, and is handed the command again. -/
def chargedTwice : List Action :=
  [.seed tenPhones granting, .checkout onePhone granting] ++
  processed 0 .saga (.orderCreated ⟨"id-1", "phone", 1, "user-1", 100⟩) 2 ++
  processed 1 .inventory (.reserveInventory ⟨"id-1", "phone", 1⟩) 8 ++
  processed 2 .saga (.inventoryReserved ⟨"id-1", "phone", 1⟩) 2 ++
  [.publish 3, .start ⟨.payment, 0⟩ (.chargePayment ⟨"id-1", "user-1", 100⟩)] ++
  List.replicate 3 (.call ⟨.payment, 0⟩ granting) ++ [.abort ⟨.payment, 0⟩] ++
  processed 3 .payment (.chargePayment ⟨"id-1", "user-1", 100⟩) 7 ++
  processed 4 .saga (.paymentSucceeded ⟨"id-1", "id-1", 100⟩) 2 ++
  processed 5 .order (.confirmOrder ⟨"id-1"⟩) 2

theorem backed_chargedTwice : ∃ s, Schedule.run step System.start chargedTwice = some s ∧
    s.world.orders.map Order.status = [.confirmed] ∧ s.world.charges.length = 2 ∧
    ∀ order ∈ s.world.orders, order.taken ∈ s.world.charges ∧
      ∃ row ∈ s.world.payments, row.call = order.taken := by
  have hrun : (Schedule.run step System.start chargedTwice).map (fun s =>
      (s.world.orders.map Order.status, s.world.charges.length)) = some ([.confirmed], 2) := by
    decide +kernel
  obtain ⟨s, hs, heval⟩ := Option.map_eq_some_iff.1 hrun
  simp only [Prod.mk.injEq] at heval
  obtain ⟨hstatus, hcharges⟩ := heval
  refine ⟨s, hs, hstatus, hcharges, fun order horder => ?_⟩
  have hconfirmed : order.status = .confirmed := by
    have hmem : order.status ∈ s.world.orders.map Order.status := List.mem_map_of_mem horder
    rw [hstatus] at hmem
    exact List.mem_singleton.1 hmem
  obtain ⟨htaken, row, hrow, hcall, -⟩ := (backed_of_run hs).2.2.1 order horder hconfirmed
  exact ⟨htaken, row, hrow, hcall⟩

end System

end FlashSale
