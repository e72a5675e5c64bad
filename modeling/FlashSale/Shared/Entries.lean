import FlashSale.PaymentService.Main
import FlashSale.Shared.Wire

/-!
# The texts of the idempotency entries

`store_result` stores an entry as a JSON text, and `get_cached_result` reads the text
back from Redis, which holds its bytes. The entries of a reservation and of a charge are
the dicts that `try_reserve` and `_handle_charge` make; what a redelivered command reads
in them is what the first delivery decided.
-/

namespace FlashSale

/-- The string in the `status` column. -/
def PaymentStatus.value : PaymentStatus → String
  | .succeeded => "SUCCEEDED"
  | .failed => "FAILED"
  | .refunded => "REFUNDED"

namespace Entries

open Wire

variable {F T : Type} {float : List Char → F} {repr : F → List Char}

/-- The bytes under a key; `none` when `json.dumps` raises. -/
def storeResult (repr : F → List Char) (entry : List (String × Json F)) : Option (List UInt8) :=
  (Json.dumps repr (.dict (payload entry))).map Consumer.encode

/-- `json.loads` of the text under a key. -/
def getCachedResult (float : List Char → F) (bytes : List UInt8) : Option (Payload F) :=
  match (Consumer.decode bytes).bind (Json.loads float) with
  | some (.dict data) => some data
  | _ => none

/-- A string or `None`. -/
def optional : Option String → Json F
  | none => .null
  | some s => string s

/-! ## Reservations -/

/-- `{"success": outcome.success, "reason": outcome.reason}`. -/
def reservation (outcome : ReservationResult) : List (String × Json F) :=
  [("success", .bool outcome.success), ("reason", optional outcome.reason)]

/-- `data["success"]`. -/
def successOf (data : Payload F) : Option Bool :=
  match get data "success" with
  | some (.bool success) => some success
  | _ => none

/-- `data.get("reason")`. -/
def reasonOf (data : Payload F) : Option (Option String) :=
  match get data "reason" with
  | none => some none
  | some .null => some none
  | some (.str s) => (ofCodes s).map some
  | _ => none

/-- `ReservationResult(success=data["success"], reason=data.get("reason"))`. -/
def cachedReservation (data : Payload F) : Option ReservationResult := do
  return ⟨← successOf data, ← reasonOf data⟩

/-! ## Charges -/

/-- The `cache_payload` of `_handle_charge`. -/
def charge (cached : CachedCharge) : List (String × Json F) :=
  [("status", string cached.status.value), ("payment_id", string cached.paymentId),
    ("amount_cents", .int cached.amountCents), ("failure_reason", optional cached.failureReason)]

/-- `cached["status"] == "SUCCEEDED"`. -/
def succeeded (cached : Payload F) : Option Bool :=
  (get cached "status").map fun
    | .str s => s = codes "SUCCEEDED"
    | _ => false

/-- `value or "unknown"`, which has to be a string. -/
def reasonOrUnknown : Option (Json F) → Option String
  | none => some "unknown"
  | some .null => some "unknown"
  | some (.bool false) => some "unknown"
  | some (.int 0) => some "unknown"
  | some (.list []) => some "unknown"
  | some (.dict []) => some "unknown"
  | some (.str []) => some "unknown"
  | some (.str (n :: s)) => ofCodes (n :: s)
  | _ => none

/-- `_event_from_cached_charge`; `none` when it raises. -/
def eventFromCachedCharge (P : Pydantic F T) (orderId : OrderId) (cached : Payload F) :
    Option Message := do
  if ← succeeded cached then
    return .paymentSucceeded
      ⟨orderId, ← strField cached "payment_id", ← intField P cached "amount_cents"⟩
  else return .paymentFailed ⟨orderId, ← reasonOrUnknown (get cached "failure_reason")⟩

/-! ## The entries are read back -/

theorem isField_optional (Q : F → Prop) (reason : Option String) :
    IsField Q (optional reason) := by
  cases reason with
  | none => exact .none
  | some s => exact .ofString s

theorem getCachedResult_storeResult {entry : List (String × Json F)} {bytes : List UInt8}
    (hentry : Plain (.dict (payload entry) : Json F)) (h : storeResult repr entry = some bytes) :
    getCachedResult float bytes = some (payload entry) := by
  obtain ⟨text, htext, rfl⟩ := Option.map_eq_some_iff.1 h
  rw [getCachedResult, Consumer.decode_encode, Option.bind_some,
    Json.loads_dumps (fun _ hx => hx.elim) hentry htext]

theorem plain_reservation (outcome : ReservationResult) :
    Plain (.dict (payload (reservation outcome)) : Json F) := by
  refine ⟨nodup_payload (by simp [reservation]), isText_codes _, trivial, isText_codes _, ?_,
    trivial⟩
  cases outcome.reason with
  | none => trivial
  | some s => exact isText_codes s

theorem cachedReservation_reservation (outcome : ReservationResult) :
    cachedReservation (payload (reservation outcome) : Payload F) = some outcome := by
  obtain ⟨success, reason⟩ := outcome
  have hsuccess : successOf (payload (reservation ⟨success, reason⟩) : Payload F) =
      some success := by
    rw [successOf, get_payload]
    rfl
  have hreason : reasonOf (payload (reservation ⟨success, reason⟩) : Payload F) =
      some reason := by
    rw [reasonOf, get_payload]
    cases reason with
    | none => rfl
    | some s => exact congrArg (Option.map some) (ofCodes_codes s)
  rw [cachedReservation, hsuccess, hreason]
  rfl

theorem reasonOrUnknown_optional (reason : Option String) :
    reasonOrUnknown (some (optional reason) : Option (Json F)) = some (orUnknown reason) := by
  cases reason with
  | none => rfl
  | some s =>
      rw [optional, string, orUnknown]
      cases hcodes : codes s with
      | nil => rw [if_pos (codes_injective hcodes)]; rfl
      | cons n rest =>
          have hne : s ≠ "" := by
            rintro rfl
            cases hcodes
          rw [if_neg hne, reasonOrUnknown, ← hcodes, ofCodes_codes]

theorem eventFromCachedCharge_charge (P : Pydantic F T) (orderId : OrderId)
    (cached : CachedCharge) :
    eventFromCachedCharge P orderId (payload (charge cached)) =
      some (PaymentService.eventFromCachedCharge orderId cached) := by
  have hstatus : succeeded (payload (charge cached) : Payload F) =
      some (decide (cached.status = .succeeded)) := by
    rw [succeeded, get_payload]
    cases hvalue : cached.status <;> simp [charge, hvalue, PaymentStatus.value, string] <;> decide
  have hreason : reasonOrUnknown (get (payload (charge cached) : Payload F) "failure_reason") =
      some (orUnknown cached.failureReason) := by
    rw [get_payload]
    exact reasonOrUnknown_optional cached.failureReason
  have hid : strField (payload (charge cached) : Payload F) "payment_id" = some cached.paymentId :=
    strField_payload rfl
  have hamount : intField P (payload (charge cached)) "amount_cents" = some cached.amountCents :=
    intField_payload rfl
  rw [eventFromCachedCharge, PaymentService.eventFromCachedCharge, hstatus, hid, hamount, hreason]
  by_cases hsucceeded : cached.status = .succeeded
  · rw [if_pos hsucceeded, decide_eq_true hsucceeded]
    rfl
  · rw [if_neg hsucceeded, decide_eq_false hsucceeded]
    rfl

theorem plain_charge {cached : CachedCharge} {bytes : List UInt8}
    (h : storeResult repr (charge cached) = some bytes) :
    Plain (.dict (payload (charge cached)) : Json F) := by
  obtain ⟨text, htext, -⟩ := Option.map_eq_some_iff.1 h
  refine (flat_payload (by simp [charge]) ?_).wellFormed htext
  simp [charge, IsField.ofString, IsField.ofInt, isField_optional]

/-- What a redelivered command reads in Redis is what the first delivery decided. The
entry of a reservation is always written, and is read as the same result, reason
included; and the event that a redelivered charge makes of the entry of the first one is
the event of the first one, up to `message_id` and `occurred_at`. -/
theorem redelivery_reads (P : Pydantic F T) (cmd : ChargePayment) (result : GatewayResult)
    (id : PaymentId) {bytes : List UInt8}
    (h : storeResult repr
      (charge (PaymentService.cachePayload (PaymentService.payment cmd result id))) = some bytes) :
    (getCachedResult float bytes).bind (eventFromCachedCharge P cmd.orderId) =
        some (PaymentService.chargeEvent cmd result id) ∧
      ∀ outcome, ∃ stored, storeResult repr (reservation outcome) = some stored ∧
        (getCachedResult float stored).bind cachedReservation = some outcome := by
  constructor
  · have hevent : PaymentService.eventFromCachedCharge cmd.orderId
        (PaymentService.cachePayload (PaymentService.payment cmd result id)) =
          PaymentService.chargeEvent cmd result id := by
      cases hresult : result.success <;>
        simp [PaymentService.eventFromCachedCharge, PaymentService.cachePayload,
          PaymentService.payment, PaymentService.chargeEvent, hresult]
    rw [getCachedResult_storeResult (plain_charge h) h, Option.bind_some,
      eventFromCachedCharge_charge, hevent]
  · intro outcome
    obtain ⟨text, htext⟩ := Json.exists_dumps repr _ (plain_reservation outcome)
    have hstored : storeResult repr (reservation outcome) = some (Consumer.encode text) :=
      Option.map_eq_some_iff.2 ⟨text, htext, rfl⟩
    refine ⟨_, hstored, ?_⟩
    rw [getCachedResult_storeResult (plain_reservation outcome) hstored, Option.bind_some,
      cachedReservation_reservation]

theorem redelivery_reads_declined : ∃ bytes,
    storeResult (fun _ : Unit => "1.5".toList)
        (charge (PaymentService.cachePayload
          (PaymentService.payment ⟨"o", "u", 1999⟩ ⟨false, "g", some "card_declined"⟩ "p"))) =
        some bytes ∧
      ((getCachedResult (fun _ => ()) bytes).bind (eventFromCachedCharge texts "o") =
          some (.paymentFailed ⟨"o", "card_declined"⟩) ∧
        ∀ outcome, ∃ stored,
          storeResult (fun _ : Unit => "1.5".toList) (reservation outcome) = some stored ∧
            (getCachedResult (fun _ => ()) stored).bind cachedReservation = some outcome) := by
  have hstored : (storeResult (fun _ : Unit => "1.5".toList)
      (charge (PaymentService.cachePayload (PaymentService.payment ⟨"o", "u", 1999⟩
        ⟨false, "g", some "card_declined"⟩ "p")))).isSome = true := by decide +kernel
  obtain ⟨bytes, hbytes⟩ := Option.isSome_iff_exists.1 hstored
  exact ⟨bytes, hbytes, redelivery_reads texts ⟨"o", "u", 1999⟩
    ⟨false, "g", some "card_declined"⟩ "p" hbytes⟩

end Entries

end FlashSale
