import FlashSale.InventoryService.Sequence

/-!
# The verdicts on one order

An order's command may be delivered any number of times, and every delivery that
returns announces a verdict. A refusal for want of a token is deliberately not
stored, so that a later delivery gets another chance; a decision is stored, and
from then on every delivery that takes the lock repeats it. The decision falls
with the first token.
-/

namespace FlashSale

/-- What a reservation event says: its kind, and the reason of a failure. -/
inductive Verdict
  | reserved
  | failed (reason : String)
deriving DecidableEq

/-- The verdict that an event announces. -/
def Message.verdict : Message → Option Verdict
  | inventoryReserved _ => some .reserved
  | inventoryReservationFailed event => some (.failed event.reason)
  | _ => none

/-- The verdict that a stored answer is announced with. -/
def ReservationResult.verdict (result : ReservationResult) : Verdict :=
  if result.success then .reserved else .failed (orUnknown result.reason)

/-- The verdict that the event announces on the order. -/
def Message.verdictOn (orderId : OrderId) (message : Message) : Option Verdict :=
  if message.orderId = orderId then message.verdict else none

/-- The verdicts announced on an order, in the order of their events. -/
def World.verdicts (w : World) (orderId : OrderId) : List Verdict :=
  w.emitted.filterMap (Message.verdictOn orderId)

namespace InventoryService

/-- The handler of the request takes the lock. -/
def Request.locks : Request → Bool
  | .seed _ _ => false
  | .reserve _ ω => ω.acquired
  | .release _ ω => ω.acquired

/-- The limiter has a token for the request. -/
def Request.allowed : Request → Bool
  | .seed _ ω => ω.allowed
  | .reserve _ ω => ω.allowed
  | .release _ ω => ω.allowed

/-- The verdicts that a request announces on an order. -/
def announces (orderId : OrderId) (w : World) (request : Request) : List Verdict :=
  (w.since (handleOne w request)).filterMap (Message.verdictOn orderId)

/-- The verdicts announced on an order by requests that take the lock, each with
whether there was a token for the request. -/
def lockedVerdicts (orderId : OrderId) : World → List Request → List (Bool × Verdict)
  | _, [] => []
  | w, request :: requests =>
      (if request.locks then (announces orderId w request).map (request.allowed, ·) else []) ++
        lockedVerdicts orderId (handleOne w request) requests

/-- What a request does to the verdicts on an order. -/
inductive Announcement (orderId : OrderId) (w : World) (request : Request) (w' : World) : Prop
  /-- It does not concern the order. -/
  | quiet (hsame : w'.reservations orderId = w.reservations orderId)
      (hnone : announces orderId w request = [])
  /-- It could not take the lock. -/
  | unlocked (hsame : w'.reservations orderId = w.reservations orderId)
      (hlocks : request.locks = false)
  /-- It got no token. -/
  | limited (hbefore : w.reservations orderId = none) (hafter : w'.reservations orderId = none)
      (hlocks : request.locks = true) (hallowed : request.allowed = false)
      (hverdict : announces orderId w request = [.failed "rate_limited"])
  /-- It is decided, and the decision is stored. -/
  | decided (result : ReservationResult) (hbefore : w.reservations orderId = none)
      (hafter : w'.reservations orderId = some result) (hlocks : request.locks = true)
      (hallowed : request.allowed = true)
      (hresult : result.verdict ∈
        [.reserved, .failed "unknown_sku", .failed "insufficient_stock"])
      (hverdict : announces orderId w request = [result.verdict])
  /-- The stored decision is repeated. -/
  | repeated (result : ReservationResult) (hbefore : w.reservations orderId = some result)
      (hafter : w'.reservations orderId = some result)
      (hverdict : announces orderId w request = [result.verdict])

variable {orderId : OrderId} {w w' : World} {request : Request}

theorem announces_eq {message : Message} (h : (handleOne w request).emitted =
    w.emitted ++ [message]) :
    announces orderId w request = (Message.verdictOn orderId message).toList := by
  rw [announces, World.since, h, List.drop_left]
  cases hverdict : Message.verdictOn orderId message with
  | none => simp [hverdict]
  | some verdict => simp [hverdict]

theorem announces_nil (h : (handleOne w request).emitted = w.emitted) :
    announces orderId w request = [] := by
  rw [announces, World.since, h, List.drop_length]
  rfl

/-- The event of a reservation announces the verdict of its result. -/
theorem verdictOn_reservationEvent (cmd : ReserveInventory) (result : ReservationResult) :
    Message.verdictOn cmd.orderId (reservationEvent cmd result) = some result.verdict := by
  rw [reservationEvent, ReservationResult.verdict]
  split
  · simp [Message.verdictOn, Message.orderId, Message.verdict]
  · simp [Message.verdictOn, Message.orderId, Message.verdict]

theorem verdictOn_other {message : Message} (h : message.orderId ≠ orderId) :
    Message.verdictOn orderId message = none := if_neg h

theorem ReserveOutcome.announcement {ω : Answers} {cmd : ReserveInventory}
    (hw' : handleOne w (.reserve cmd ω) = w') (h : ReserveOutcome ω w cmd w') :
    Announcement orderId w (.reserve cmd ω) w' := by
  by_cases horder : cmd.orderId = orderId
  · subst horder
    cases h with
    | turnedAway reason hreason hturned =>
        cases hacquired : ω.acquired with
        | false => exact .unlocked rfl hacquired
        | true =>
            obtain ⟨hcache, hallowed⟩ := hturned.resolve_left (by simp [hacquired])
            rw [hacquired, if_pos rfl] at hreason
            subst hreason
            refine .limited hcache hcache hacquired hallowed ?_
            rw [announces_eq (congrArg World.emitted hw' |>.trans (World.emitted_emit _ _ _))]
            simp [Message.verdictOn, Message.orderId, Message.verdict]
    | repeated result hacquired hcache =>
        refine .repeated result hcache hcache ?_
        rw [announces_eq (congrArg World.emitted hw' |>.trans (World.emitted_emit _ _ _)),
          verdictOn_reservationEvent]
        rfl
    | refused reason hreason hacquired hallowed hcache hstock =>
        have hverdict : announces cmd.orderId w (.reserve cmd ω) = [.failed reason] := by
          rw [announces_eq (congrArg World.emitted hw' |>.trans (World.emitted_emit _ _ _))]
          simp [Message.verdictOn, Message.orderId, Message.verdict]
        have hafter : (World.emit (w.storeReservation cmd.orderId ⟨false, some reason⟩) .inventory
            (.inventoryReservationFailed ⟨cmd.orderId, cmd.sku, cmd.qty, reason⟩)).reservations
              cmd.orderId = some ⟨false, some reason⟩ := by simp
        cases hitem : w.items cmd.sku with
        | none =>
            rw [hitem, Option.elim_none] at hreason
            subst hreason
            exact .decided _ hcache hafter hacquired hallowed (by decide) hverdict
        | some item =>
            rw [hitem, Option.elim_some] at hreason
            subst hreason
            exact .decided _ hcache hafter hacquired hallowed (by decide) hverdict
    | moved item item' hacquired hallowed hcache hitem hqty havailable hreserved =>
        refine .decided ⟨true, none⟩ hcache (by simp) hacquired hallowed (by decide) ?_
        rw [announces_eq (congrArg World.emitted hw' |>.trans (World.emitted_emit _ _ _))]
        simp [Message.verdictOn, Message.orderId, Message.verdict, ReservationResult.verdict]
  · have hother : orderId ≠ cmd.orderId := Ne.symm horder
    have hquiet : ∀ message : Message, message.orderId = cmd.orderId →
        w'.emitted = w.emitted ++ [message] → announces orderId w (.reserve cmd ω) = [] := by
      intro message hid hemitted
      rw [announces_eq (hw' ▸ hemitted), verdictOn_other (by rw [hid]; exact horder)]
      rfl
    cases h with
    | turnedAway reason hreason hturned =>
        exact .quiet rfl (hquiet _ rfl (World.emitted_emit _ _ _))
    | repeated result hacquired hcache =>
        refine .quiet rfl (hquiet _ ?_ (World.emitted_emit _ _ _))
        rw [reservationEvent]
        split <;> rfl
    | refused reason hreason hacquired hallowed hcache hstock =>
        exact .quiet (by simp [hother]) (hquiet _ rfl (World.emitted_emit _ _ _))
    | moved item item' hacquired hallowed hcache hitem hqty havailable hreserved =>
        exact .quiet (by simp [hother]) (hquiet _ rfl (World.emitted_emit _ _ _))

theorem announcement (orderId : OrderId) (w : World) (request : Request) :
    Announcement orderId w request (handleOne w request) := by
  cases request with
  | seed req ω =>
      obtain ⟨item, -, -, hrun⟩ := run_seedInventory ω w req
      have hsame : handleOne w (.seed req ω) = w.seedItem req.sku item req.qty :=
        World.request_of_completes hrun
      rw [hsame]
      exact .quiet rfl (announces_nil (by rw [hsame]; rfl))
  | reserve cmd ω =>
      rcases run_handleReserve ω w cmd with ⟨w', hw', hout⟩ | ⟨-, hsame, -⟩
      · have hw' : handleOne w (.reserve cmd ω) = w' := World.request_of_completes hw'
        rw [hw']
        exact hout.announcement hw'
      · have hsame : handleOne w (.reserve cmd ω) = w := hsame
        rw [hsame]
        exact .quiet rfl (announces_nil (by rw [hsame]))
  | release cmd ω =>
      rcases run_handleRelease ω w cmd with ⟨w', hw', hout⟩ | ⟨-, hsame⟩
      · have hw' : handleOne w (.release cmd ω) = w' := World.request_of_completes hw'
        have hnone : announces orderId w (.release cmd ω) = [] := by
          have hemitted : w'.emitted =
              w.emitted ++ [.inventoryReleased ⟨cmd.orderId, cmd.sku, cmd.qty⟩] := by
            cases hout <;> exact World.emitted_emit _ _ _
          rw [announces_eq (hw' ▸ hemitted)]
          simp [Message.verdictOn, Message.verdict]
        rw [hw']
        cases hout <;> exact .quiet rfl hnone
      · have hsame : handleOne w (.release cmd ω) = w := hsame
        rw [hsame]
        exact .quiet rfl (announces_nil (by rw [hsame]))

/-! ## Runs -/

/-- Once a decision is stored it is repeated. -/
theorem lockedVerdicts_stored (requests : List Request) {w : World} {result : ReservationResult}
    (h : w.reservations orderId = some result) :
    ∀ x ∈ lockedVerdicts orderId w requests, x.2 = result.verdict := by
  induction requests generalizing w with
  | nil => nofun
  | cons request requests ih =>
      intro x hx
      rw [lockedVerdicts, List.mem_append] at hx
      have hskip : (handleOne w request).reservations orderId = w.reservations orderId →
          (request.locks = true → announces orderId w request = []) →
            x.2 = result.verdict := by
        intro hsame hnone
        rcases hx with hx | hx
        · split at hx
          · rename_i hlocks
            rw [hnone hlocks] at hx
            cases hx
          · cases hx
        · exact ih (hsame.trans h) x hx
      cases announcement orderId w request with
      | quiet hsame hnone => exact hskip hsame fun _ => hnone
      | unlocked hsame hlocks =>
          exact hskip hsame fun hfalse => absurd hfalse (by simp [hlocks])
      | limited hbefore => exact absurd (hbefore.symm.trans h) (by simp)
      | decided _ hbefore => exact absurd (hbefore.symm.trans h) (by simp)
      | repeated result' hbefore hafter hverdict =>
          rw [h, Option.some.injEq] at hbefore
          subst hbefore
          rcases hx with hx | hx
          · rw [hverdict] at hx
            split at hx
            · rw [List.map_singleton, List.mem_singleton] at hx
              rw [hx]
            · cases hx
          · exact ih hafter x hx

/-- What the verdicts on an order are like: refusals of requests for which there
was no token, and from the first one with a token on a single decision. -/
structure Settling (verdict : Verdict) (refused given : List (Bool × Verdict)) : Prop where
  refused : ∀ x ∈ refused, x = (false, .failed "rate_limited")
  first : ∀ x ∈ given.head?, x.1 = true
  given : ∀ x ∈ given, x.2 = verdict
  decision : verdict ∈ [Verdict.reserved, .failed "unknown_sku", .failed "insufficient_stock"]

theorem lockedVerdicts_undecided (requests : List Request) {w : World}
    (h : w.reservations orderId = none) :
    ∃ verdict refused given, lockedVerdicts orderId w requests = refused ++ given ∧
      Settling verdict refused given := by
  induction requests generalizing w with
  | nil => exact ⟨.reserved, [], [], rfl, nofun, nofun, nofun, by decide⟩
  | cons request requests ih =>
      rw [lockedVerdicts]
      cases announcement orderId w request with
      | quiet hsame hnone =>
          rw [hnone, List.map_nil, ite_self]
          exact ih (hsame.trans h)
      | unlocked hsame hlocks =>
          rw [hlocks, if_neg (by decide)]
          exact ih (hsame.trans h)
      | limited hbefore hafter hlocks hallowed hverdict =>
          obtain ⟨verdict, refused, given, hrest, hsettling⟩ := ih hafter
          rw [hrest, hverdict, hallowed, if_pos hlocks]
          refine ⟨verdict, (false, .failed "rate_limited") :: refused, given, rfl, ?_,
            hsettling.first, hsettling.given, hsettling.decision⟩
          intro x hx
          rcases List.mem_cons.1 hx with rfl | hx
          · rfl
          · exact hsettling.refused x hx
      | decided result hbefore hafter hlocks hallowed hresult hverdict =>
          rw [hverdict, hallowed, if_pos hlocks]
          refine ⟨result.verdict, [], _, rfl, nofun, ?_, ?_, hresult⟩
          · intro x hx
            cases hx
            rfl
          · intro x hx
            rcases List.mem_cons.1 hx with rfl | hx
            · rfl
            · exact lockedVerdicts_stored requests hafter x hx
      | repeated result hbefore => exact absurd (hbefore.symm.trans h) (by simp)

/-- Of the verdicts announced on an order by deliveries that take the lock, those
before the first one with a token are refusals for want of one, and from it on
all are the same decision. -/
theorem lockedVerdicts_stable (orderId : OrderId) (requests : List Request) :
    ∃ verdict refused given, lockedVerdicts orderId World.empty requests = refused ++ given ∧
      Settling verdict refused given :=
  lockedVerdicts_undecided requests rfl

/-- A command that finds no token and is delivered again. -/
def retriedCommand : List Request :=
  [.seed ⟨"phone", 6, by decide⟩ answers,
    .reserve ⟨"1", "phone", 2⟩ { answers with allowed := false },
    .reserve ⟨"1", "phone", 2⟩ answers]
where
  answers : Answers := ⟨true, true, ⟨true, "ref", none⟩, "id"⟩

/-- The verdicts on an order are not all the same. -/
theorem verdicts_change :
    ¬ ∀ (line : OrderId → Line) (requests : List Request) (w : World) (orderId : OrderId),
      (∀ request ∈ requests, request.Carries line) →
        Schedule.run step World.empty requests = some w →
          ∀ verdict ∈ w.verdicts orderId, (w.verdicts orderId).head? = some verdict := by
  intro h
  have hrun : (Schedule.run step World.empty retriedCommand).map (fun w => w.verdicts "1") =
      some [.failed "rate_limited", .reserved] := by decide +kernel
  obtain ⟨w, hw, hverdicts⟩ := Option.map_eq_some_iff.1 hrun
  have hsame := h (fun _ => ⟨"phone", 2, by decide⟩) retriedCommand w "1" (by decide +kernel) hw
    .reserved (by rw [hverdicts]; decide)
  rw [hverdicts] at hsame
  exact absurd hsame (by decide)

end InventoryService

end FlashSale
