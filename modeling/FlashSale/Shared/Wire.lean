import FlashSale.Library.JsonNesting
import FlashSale.Shared.Encoding
import FlashSale.Shared.Events

/-!
# Messages on the wire

The way of a message from the service that emits it to the handler that receives it:
`model_dump` makes a dict of it, the JSON column of the outbox row holds this dict as a
text, the dispatcher reads the text and `publish` writes it again and encodes it, and
the consumer decodes and reads the body and hands it to its handler, which calls
`model_validate`. Here the fields `message_id` and `occurred_at` are there.

The floats of JSON are the type `F`, with `float` and `repr` between them and their
texts. `Pydantic` holds what the library does with the values that no message class of
this program writes, and with points in time, and `Client` what `publish` can be given.
-/

namespace FlashSale

namespace Wire

variable {F T : Type}

/-! ## Strings -/

/-- The code points of a string. -/
def codes (s : String) : List ℕ := s.toList.map Char.toNat

/-- The string with the given code points, none of which may be a surrogate. -/
def ofCodes (s : List ℕ) : Option String :=
  if ∀ n ∈ s, n.isValidChar then some (String.ofList (s.map Char.ofNat)) else none

theorem ofCodes_codes (s : String) : ofCodes (codes s) = some s := by
  have hvalid : ∀ n ∈ codes s, n.isValidChar := by
    intro n hn
    obtain ⟨c, -, rfl⟩ := List.mem_map.1 hn
    exact c.valid
  have hchars : (codes s).map Char.ofNat = s.toList := by
    rw [codes, List.map_map]
    refine (List.map_congr_left fun c _ => ?_).trans (List.map_id _)
    exact Char.ofNat_toNat c
  rw [ofCodes, if_pos hvalid, hchars, String.ofList_toList]

theorem codes_injective : Function.Injective codes := by
  intro s t h
  have hs := ofCodes_codes s
  rw [h, ofCodes_codes t] at hs
  exact (Option.some.inj hs).symm

theorem isText_codes (s : String) : Json.IsText (codes s) := by
  have hchars : ∀ cs : List Char, Json.IsText (cs.map Char.toNat) := by
    intro cs
    induction cs with
    | nil => exact Json.isText_nil
    | cons c cs ih =>
        have hvalid : c.toNat < 0xD800 ∨ 0xDFFF < c.toNat ∧ c.toNat < 0x110000 := c.valid
        refine ih.cons (by omega) (Bool.eq_false_iff.2 fun hbad => ?_)
        have hrange := Json.isHighSurrogate_iff.1 hbad
        omega
  exact hchars s.toList

/-! ## The message classes -/

/-- A message with the fields that `BaseMessage` adds. -/
structure Stamped (T : Type) where
  messageId : String
  occurredAt : T
  message : Message
deriving DecidableEq

/-- What `pydantic` does besides: the integer that it makes of a value that is none, the
time that it makes of a value, the text of a time, and the defaults of the two fields. -/
structure Pydantic (F T : Type) where
  lax : Json F → Option ℤ
  datetime : Json F → Option T
  isoformat : T → String
  newId : String
  now : T

/-- A dict. -/
abbrev Payload (F : Type) := List (List ℕ × Json F)

/-- A string as a value. -/
def string (s : String) : Json F := .str (codes s)

/-- The fields of a class, in its order. -/
def ownFields : Message → List (String × Json F)
  | .orderCreated event =>
      [("sku", string event.sku), ("qty", .int event.qty), ("user_id", string event.userId),
        ("amount_cents", .int event.amountCents)]
  | .inventoryReserved event => [("sku", string event.sku), ("qty", .int event.qty)]
  | .inventoryReservationFailed event =>
      [("sku", string event.sku), ("qty", .int event.qty), ("reason", string event.reason)]
  | .inventoryReleased event => [("sku", string event.sku), ("qty", .int event.qty)]
  | .paymentSucceeded event =>
      [("payment_id", string event.paymentId), ("amount_cents", .int event.amountCents)]
  | .paymentFailed event => [("reason", string event.reason)]
  | .paymentRefunded event =>
      [("payment_id", string event.paymentId), ("amount_cents", .int event.amountCents)]
  | .orderConfirmed _ => []
  | .orderCancelled event => [("reason", string event.reason)]
  | .reserveInventory cmd => [("sku", string cmd.sku), ("qty", .int cmd.qty)]
  | .releaseInventory cmd => [("sku", string cmd.sku), ("qty", .int cmd.qty)]
  | .chargePayment cmd =>
      [("user_id", string cmd.userId), ("amount_cents", .int cmd.amountCents)]
  | .refundPayment cmd =>
      [("payment_id", string cmd.paymentId), ("amount_cents", .int cmd.amountCents)]
  | .confirmOrder _ => []
  | .cancelOrder cmd => [("reason", string cmd.reason)]

/-- The dict with the given items. -/
def payload (fields : List (String × Json F)) : Payload F :=
  fields.map fun field => (codes field.1, field.2)

section Validation

variable (P : Pydantic F T)

/-- The fields of a message, those of `BaseMessage` first. -/
def fields (m : Stamped T) : List (String × Json F) :=
  ("message_id", string m.messageId) :: ("order_id", string m.message.orderId) ::
    ("occurred_at", string (P.isoformat m.occurredAt)) :: ownFields m.message

/-- `model_dump(mode="json")`. -/
def modelDump (m : Stamped T) : Payload F := payload (fields P m)

/-- The value at a key. -/
def get (p : Payload F) (key : String) : Option (Json F) := p.lookup (codes key)

/-- A field of type `str`. -/
def strField (p : Payload F) (key : String) : Option String :=
  (get p key).bind fun
    | .str s => ofCodes s
    | _ => none

/-- A field of type `int`. -/
def intField (p : Payload F) (key : String) : Option ℤ :=
  (get p key).bind fun
    | .int n => some n
    | j => P.lax j

/-- `message_id`, with its default. -/
def messageIdField (p : Payload F) : Option String :=
  if (get p "message_id").isNone then some P.newId else strField p "message_id"

/-- `occurred_at`, with its default. -/
def occurredAtField (p : Payload F) : Option T :=
  match get p "occurred_at" with
  | none => some P.now
  | some j => P.datetime j

def orderCreated (p : Payload F) : Option OrderCreated := do
  return ⟨← strField p "order_id", ← strField p "sku", ← intField P p "qty",
    ← strField p "user_id", ← intField P p "amount_cents"⟩

def inventoryReserved (p : Payload F) : Option InventoryReserved := do
  return ⟨← strField p "order_id", ← strField p "sku", ← intField P p "qty"⟩

def inventoryReservationFailed (p : Payload F) : Option InventoryReservationFailed := do
  return ⟨← strField p "order_id", ← strField p "sku", ← intField P p "qty",
    ← strField p "reason"⟩

def inventoryReleased (p : Payload F) : Option InventoryReleased := do
  return ⟨← strField p "order_id", ← strField p "sku", ← intField P p "qty"⟩

def paymentSucceeded (p : Payload F) : Option PaymentSucceeded := do
  return ⟨← strField p "order_id", ← strField p "payment_id", ← intField P p "amount_cents"⟩

def paymentFailed (p : Payload F) : Option PaymentFailed := do
  return ⟨← strField p "order_id", ← strField p "reason"⟩

def paymentRefunded (p : Payload F) : Option PaymentRefunded := do
  return ⟨← strField p "order_id", ← strField p "payment_id", ← intField P p "amount_cents"⟩

def orderConfirmed (p : Payload F) : Option OrderConfirmed := do
  return ⟨← strField p "order_id"⟩

def orderCancelled (p : Payload F) : Option OrderCancelled := do
  return ⟨← strField p "order_id", ← strField p "reason"⟩

def reserveInventory (p : Payload F) : Option ReserveInventory := do
  return ⟨← strField p "order_id", ← strField p "sku", ← intField P p "qty"⟩

def releaseInventory (p : Payload F) : Option ReleaseInventory := do
  return ⟨← strField p "order_id", ← strField p "sku", ← intField P p "qty"⟩

def chargePayment (p : Payload F) : Option ChargePayment := do
  return ⟨← strField p "order_id", ← strField p "user_id", ← intField P p "amount_cents"⟩

def refundPayment (p : Payload F) : Option RefundPayment := do
  return ⟨← strField p "order_id", ← strField p "payment_id", ← intField P p "amount_cents"⟩

def confirmOrder (p : Payload F) : Option ConfirmOrder := do
  return ⟨← strField p "order_id"⟩

def cancelOrder (p : Payload F) : Option CancelOrder := do
  return ⟨← strField p "order_id", ← strField p "reason"⟩

/-- `MESSAGE_TYPES`: the class of a routing key, by its `model_validate`. -/
def messageTypes : List (String × (Payload F → Option Message)) :=
  [("OrderCreated", fun p => (orderCreated P p).map .orderCreated),
    ("InventoryReserved", fun p => (inventoryReserved P p).map .inventoryReserved),
    ("InventoryReservationFailed",
      fun p => (inventoryReservationFailed P p).map .inventoryReservationFailed),
    ("InventoryReleased", fun p => (inventoryReleased P p).map .inventoryReleased),
    ("PaymentSucceeded", fun p => (paymentSucceeded P p).map .paymentSucceeded),
    ("PaymentFailed", fun p => (paymentFailed p).map .paymentFailed),
    ("PaymentRefunded", fun p => (paymentRefunded P p).map .paymentRefunded),
    ("OrderConfirmed", fun p => (orderConfirmed p).map .orderConfirmed),
    ("OrderCancelled", fun p => (orderCancelled p).map .orderCancelled),
    ("ReserveInventory", fun p => (reserveInventory P p).map .reserveInventory),
    ("ReleaseInventory", fun p => (releaseInventory P p).map .releaseInventory),
    ("ChargePayment", fun p => (chargePayment P p).map .chargePayment),
    ("RefundPayment", fun p => (refundPayment P p).map .refundPayment),
    ("ConfirmOrder", fun p => (confirmOrder p).map .confirmOrder),
    ("CancelOrder", fun p => (cancelOrder p).map .cancelOrder)]

/-- `MESSAGE_TYPES[routing_key].model_validate(payload)`. -/
def modelValidate (routingKey : String) : Json F → Option (Stamped T)
  | .dict p => do
      let validate ← (messageTypes P).lookup routingKey
      return ⟨← messageIdField P p, ← occurredAtField P p, ← validate p⟩
  | _ => none

end Validation

/-! ## Looking up the fields -/

theorem get_payload (fields : List (String × Json F)) (key : String) :
    get (payload fields) key = fields.lookup key := by
  induction fields with
  | nil => rfl
  | cons field fields ih =>
      have hkey : (codes key == codes field.1) = (key == field.1) := by
        rw [Bool.eq_iff_iff, beq_iff_eq, beq_iff_eq]
        exact codes_injective.eq_iff
      rw [get, payload, List.map_cons, List.lookup_cons, List.lookup_cons, hkey]
      rw [get, payload] at ih
      rw [ih]

section Fields

variable {P : Pydantic F T} {fields : List (String × Json F)} {key : String}

theorem strField_payload {s : String} (h : fields.lookup key = some (string s)) :
    strField (payload fields) key = some s := by
  rw [strField, get_payload, h]
  exact ofCodes_codes s

theorem intField_payload {n : ℤ} (h : fields.lookup key = some (.int n)) :
    intField P (payload fields) key = some n := by
  rw [intField, get_payload, h]
  rfl

end Fields

section Validation

variable {P : Pydantic F T}

/-- The class of a message accepts what was dumped. -/
theorem lookup_messageTypes (m : Stamped T) :
    ∃ validate, (messageTypes P).lookup m.message.routingKey = some validate ∧
      validate (modelDump P m) = some m.message := by
  obtain ⟨messageId, occurredAt, message⟩ := m
  cases message <;> refine ⟨_, rfl, ?_⟩ <;>
    simp [modelDump, fields, ownFields, Message.orderId, strField, intField, get_payload,
      List.lookup_cons, string, ofCodes_codes, orderCreated, inventoryReserved,
      inventoryReservationFailed, inventoryReleased, paymentSucceeded, paymentFailed,
      paymentRefunded, orderConfirmed, orderCancelled, reserveInventory, releaseInventory,
      chargePayment, refundPayment, confirmOrder, cancelOrder]

/-- `model_validate` undoes `model_dump`. -/
theorem modelValidate_modelDump (hdatetime : ∀ t, P.datetime (string (P.isoformat t)) = some t)
    (m : Stamped T) :
    modelValidate P m.message.routingKey (.dict (modelDump P m)) = some m := by
  obtain ⟨validate, hlookup, hvalidate⟩ := lookup_messageTypes (P := P) m
  have hid : messageIdField P (modelDump P m) = some m.messageId := by
    rw [messageIdField, modelDump, get_payload, strField_payload rfl]
    rfl
  have htime : occurredAtField P (modelDump P m) = some m.occurredAt := by
    rw [occurredAtField, modelDump, get_payload]
    exact hdatetime m.occurredAt
  rw [modelValidate, hlookup, hid, htime]
  change (validate (modelDump P m)).bind _ = _
  rw [hvalidate]
  rfl

end Validation

/-! ## Writing the fields -/

/-- Without a float, for which nothing has to be known. -/
abbrev Plain : Json F → Prop := Json.WellFormed fun _ => False

/-- The values that stand in a dict of this program: nothing is nested. -/
inductive IsField (Q : F → Prop) : Json F → Prop
  | none : IsField Q .null
  | ofBool (b : Bool) : IsField Q (.bool b)
  | ofInt (n : ℤ) : IsField Q (.int n)
  | ofFloat {x : F} (h : Q x) : IsField Q (.float x)
  | ofString (s : String) : IsField Q (string s)

/-- A dict of such values. -/
structure Flat (Q : F → Prop) (items : Payload F) : Prop where
  keys : (items.map Prod.fst).Nodup
  values : ∀ item ∈ items, Json.IsText item.1 ∧ IsField Q item.2

theorem nodup_payload {fields : List (String × Json F)} (h : (fields.map Prod.fst).Nodup) :
    ((payload fields).map Prod.fst).Nodup := by
  have hkeys : (payload fields).map Prod.fst = (fields.map Prod.fst).map codes := by
    rw [payload, List.map_map, List.map_map]
    rfl
  rw [hkeys]
  exact h.map codes_injective

theorem flat_payload {Q : F → Prop} {fields : List (String × Json F)}
    (hkeys : (fields.map Prod.fst).Nodup) (hfields : ∀ field ∈ fields, IsField Q field.2) :
    Flat Q (payload fields) := by
  refine ⟨nodup_payload hkeys, fun item hitem => ?_⟩
  obtain ⟨field, hfield, rfl⟩ := List.mem_map.1 hitem
  exact ⟨isText_codes field.1, hfields field hfield⟩

theorem IsField.depth {Q : F → Prop} {j : Json F} (h : IsField Q j) : j.depth = 0 := by
  cases h <;> rfl

theorem Flat.depth {Q : F → Prop} {items : Payload F} (h : Flat Q items) :
    (Json.dict items).depth = 1 := by
  have hzero : ∀ items : Payload F, (∀ item ∈ items, IsField Q item.2) →
      Json.depthMembers items = 0 := by
    intro items hitems
    induction items with
    | nil => rfl
    | cons item items ih =>
        rw [Json.depthMembers, (hitems item List.mem_cons_self).depth,
          ih fun i hi => hitems i (List.mem_cons_of_mem item hi)]
        rfl
  rw [Json.depth, hzero items fun item hitem => (h.values item hitem).2]

theorem flat_modelDump (P : Pydantic F T) (Q : F → Prop) (m : Stamped T) :
    Flat Q (modelDump P m) := by
  have hown : ∀ field ∈ ownFields (F := F) m.message, IsField Q field.2 := by
    cases m.message <;> simp [ownFields, IsField.ofString, IsField.ofInt]
  refine flat_payload ?_ ?_
  · rw [fields]
    cases m.message <;> simp [ownFields]
  · simpa [fields, IsField.ofString] using hown

variable {float : List Char → F} {repr : F → List Char}

/-- A field that can be written can be read. -/
theorem IsField.wellFormed {Q : F → Prop} {j : Json F} {text : List Char} (hj : IsField Q j)
    (h : Json.dumps repr j = some text) : Json.WellFormed Q j := by
  cases hj with
  | none => trivial
  | ofBool b => trivial
  | ofInt n => exact (Option.ite_none_right_eq_some.1 h).1
  | ofFloat hx => exact hx
  | ofString s => exact isText_codes s

theorem wellFormed_members {Q : F → Prop} : (items : Payload F) → {text : List Char} →
    (∀ item ∈ items, Json.IsText item.1 ∧ IsField Q item.2) →
      Json.dumpsMembers repr items = some text → Json.WellFormedMembers Q items
  | [], _, _, _ => trivial
  | [item], _, hitems, h => by
      obtain ⟨text, htext, -⟩ := Option.bind_eq_some_iff.1 h
      obtain ⟨hkey, hvalue⟩ := hitems item List.mem_cons_self
      exact ⟨hkey, hvalue.wellFormed htext, trivial⟩
  | item :: next :: items, _, hitems, h => by
      obtain ⟨text, htext, h⟩ := Option.bind_eq_some_iff.1 h
      obtain ⟨texts, htexts, -⟩ := Option.bind_eq_some_iff.1 h
      obtain ⟨hkey, hvalue⟩ := hitems item List.mem_cons_self
      exact ⟨hkey, hvalue.wellFormed htext, wellFormed_members (next :: items)
        (fun i hi => hitems i (List.mem_cons_of_mem item hi)) htexts⟩

/-- A dict of such values that can be written can be read. -/
theorem Flat.wellFormed {Q : F → Prop} {items : Payload F} {text : List Char}
    (hitems : Flat Q items) (h : Json.dumps repr (.dict items) = some text) : Json.WellFormed Q (.dict items) := by
  obtain ⟨members, hmembers, -⟩ := Option.map_eq_some_iff.1 h
  exact ⟨hitems.keys, wellFormed_members items hitems.values hmembers⟩

/-! ## From the service to the handler -/

/-- The column `payload` of the outbox row of a message; `none` when the flush raises. -/
def column (P : Pydantic F T) (repr : F → List Char) (m : Stamped T) : Option (List Char) :=
  Json.dumps repr (.dict (modelDump P m))

/-- What the dispatcher's process can do: how many calls of `loads` and of `dumps` may nest,
and which values the client library takes as the `message_id` of a message. -/
structure Client (F : Type) where
  reads : ℕ
  writes : ℕ
  accepts : Json F → Bool

/-- `payload.get("message_id")`. -/
def messageId (p : Payload F) : Json F := (get p "message_id").getD .null

/-- The body that `publish` sends of a payload; `none` when it raises. A payload that is no
dict has no `get`. -/
def body (C : Client F) (repr : F → List Char) : Json F → Option (List UInt8)
  | .dict p => do
      let text ← Json.dumpsWithin C.writes repr (.dict p)
      if C.accepts (messageId p) then some (Consumer.encode text) else none
  | _ => none

/-- What the dispatcher publishes of a row with the given column. -/
def republish (C : Client F) (float : List Char → F) (repr : F → List Char)
    (text : List Char) : Option (List UInt8) :=
  (Json.loadsWithin C.reads float text).bind (body C repr)

theorem plain_modelDump {P : Pydantic F T} {m : Stamped T} {text : List Char}
    (h : column P repr m = some text) : Plain (.dict (modelDump P m) : Json F) :=
  (flat_modelDump P _ m).wellFormed h

variable {C : Client F}

/-- When `publish` does not raise. -/
theorem body_eq_some {j : Json F} {bytes : List UInt8} :
    body C repr j = some bytes ↔
      ∃ p text, j = .dict p ∧ j.depth ≤ C.writes ∧ C.accepts (messageId p) = true ∧
        Json.dumps repr j = some text ∧ Consumer.encode text = bytes := by
  cases j with
  | dict p =>
      simp only [body, Option.bind_eq_bind, Option.bind_eq_some_iff, Json.dumpsWithin,
        Option.ite_none_right_eq_some, Option.some.injEq]
      constructor
      · rintro ⟨text, ⟨hdepth, htext⟩, haccepts, rfl⟩
        exact ⟨p, text, rfl, hdepth, haccepts, htext, rfl⟩
      · rintro ⟨p', text, heq, hdepth, haccepts, htext, rfl⟩
        cases heq
        exact ⟨text, ⟨hdepth, htext⟩, haccepts, rfl⟩
  | _ =>
      refine iff_of_false nofun ?_
      rintro ⟨p, text, heq, -⟩
      cases heq

/-- A body that was written from a payload is read as this payload. -/
theorem loads_body {j : Json F} {Q : F → Prop} {bytes : List UInt8} {limit : ℕ}
    (hQ : ∀ x, Q x → Json.ReadsBack float repr x)
    (hrepr : ∀ x, Q x → ∀ c ∈ repr x, Json.Unbracketed c) (hj : Json.WellFormed Q j)
    (hdepth : j.depth ≤ limit) (h : body C repr j = some bytes) :
    (Consumer.decode bytes).bind (Json.loadsWithin limit float) = some j := by
  obtain ⟨p, text, -, -, -, htext, rfl⟩ := body_eq_some.1 h
  rw [Consumer.decode_encode]
  exact Json.loadsWithin_dumps hQ hrepr hj hdepth htext

/-- The message of a service in the outbox: its row could be written, and the body is what
the dispatcher publishes of the row. -/
def Published (P : Pydantic F T) (C : Client F) (float : List Char → F) (repr : F → List Char)
    (m : Stamped T) (message : Consumer.IncomingMessage) : Prop :=
  message.routingKey = some m.message.routingKey ∧
    ∃ text, column P repr m = some text ∧ republish C float repr text = some message.body

section Delivery

variable {P : Pydantic F T} {m : Stamped T}

/-- The column of a message is read as the dict that was written. -/
theorem loadsWithin_column {limit : ℕ} (hlimit : 0 < limit) {text : List Char}
    (h : column P repr m = some text) :
    Json.loadsWithin limit float text = some (.dict (modelDump P m)) := by
  refine Json.loadsWithin_dumps (fun _ hx => hx.elim) (fun _ hx => hx.elim) (plain_modelDump h)
    ?_ h
  rw [(flat_modelDump P (fun _ => False) m).depth]
  exact hlimit

theorem published_payload {message : Consumer.IncomingMessage} {limit : ℕ} (hlimit : 0 < limit)
    (h : Published P C float repr m message) :
    (Consumer.decode message.body).bind (Json.loadsWithin limit float) =
      some (.dict (modelDump P m)) := by
  obtain ⟨-, text, hcolumn, hpublished⟩ := h
  obtain ⟨j, hj, hbody⟩ := Option.bind_eq_some_iff.1 hpublished
  -- what the dispatcher has read is the dict, because it has read something
  have hread : Json.loads float text = some j := (Option.ite_none_right_eq_some.1 hj).2
  have hplain := plain_modelDump hcolumn
  rw [Json.loads_dumps (fun _ hx => hx.elim) hplain hcolumn] at hread
  cases hread
  refine loads_body (fun _ hx => hx.elim) (fun _ hx => hx.elim) hplain ?_ hbody
  rw [(flat_modelDump P (fun _ => False) m).depth]
  exact hlimit

/-- The outbox row of a message can be published whenever it could be written. -/
theorem exists_published (hreads : 0 < C.reads) (hwrites : 0 < C.writes)
    (haccepts : C.accepts (string m.messageId) = true) {text : List Char}
    (h : column P repr m = some text) :
    ∃ bytes, Published P C float repr m ⟨some m.message.routingKey, bytes⟩ := by
  refine ⟨Consumer.encode text, rfl, text, h, ?_⟩
  rw [republish, loadsWithin_column hreads h, Option.bind_some]
  refine body_eq_some.2 ⟨_, text, rfl, ?_, ?_, h, rfl⟩
  · rw [(flat_modelDump P (fun _ => False) m).depth]
    exact hwrites
  · rw [messageId, modelDump, get_payload]
    exact haccepts

theorem get_orderId (P : Pydantic F T) (m : Stamped T) :
    get (modelDump P m) "order_id" = some (string m.message.orderId) := by
  rw [modelDump, get_payload]
  rfl

theorem get_reason (P : Pydantic F T) {m : Stamped T} {cmd : CancelOrder}
    (h : m.message = .cancelOrder cmd) :
    get (modelDump P m) "reason" = some (string cmd.reason) := by
  rw [modelDump, get_payload, fields, h]
  rfl

/-- A message reaches the handler: the callback awaits it with the name of the class and a
payload in which `model_validate` finds every field of the message again. The order
service looks up `order_id` and `reason` in the payload itself. -/
def Received (P : Pydantic F T) (loads : List Char → Option (Json F)) (m : Stamped T)
    (message : Consumer.IncomingMessage) : Prop :=
  ∃ p k, (Consumer.onMessage loads message).run =
      .call (.handler m.message.routingKey (.dict p)) k ∧
    modelValidate P m.message.routingKey (.dict p) = some m ∧
    get p "order_id" = some (string m.message.orderId) ∧
    ∀ cmd, m.message = .cancelOrder cmd → get p "reason" = some (string cmd.reason)

theorem Published.received (hdatetime : ∀ t, P.datetime (string (P.isoformat t)) = some t)
    {limit : ℕ} (hlimit : 0 < limit) {message : Consumer.IncomingMessage}
    (h : Published P C float repr m message) :
    Received P (Json.loadsWithin limit float) m message := by
  have hcall := Consumer.onMessage_of_loads (published_payload hlimit h)
  rw [h.1, Option.getD_some] at hcall
  exact ⟨_, _, hcall, modelValidate_modelDump hdatetime m, get_orderId P m,
    fun _ hcmd => get_reason P hcmd⟩

/-- The deliveries of a channel keep their messages. -/
theorem message_of_step {loads : List Char → Option (Json F)} {s t : Consumer.Channel (Json F)}
    {a : Consumer.Action} (h : Consumer.step loads s a = some t) {d : Consumer.Delivery (Json F)}
    (hd : d ∈ t) : (∃ e ∈ s, e.message = d.message) ∨ a = .deliver d.message := by
  cases a with
  | deliver message =>
      obtain ⟨-, heq⟩ := Option.ite_none_right_eq_some.1 h
      cases heq
      rcases List.mem_append.1 hd with hd | hd
      · exact Or.inl ⟨d, hd, rfl⟩
      · rw [List.mem_singleton.1 hd]
        exact Or.inr rfl
  | answer tag answer =>
      obtain ⟨e, he, hrest⟩ := Option.bind_eq_some_iff.1 h
      obtain ⟨e', he', rfl⟩ := Option.map_eq_some_iff.1 hrest
      rcases List.mem_or_eq_of_mem_set hd with hd | rfl
      · exact Or.inl ⟨d, hd, rfl⟩
      · refine Or.inl ⟨e, List.mem_of_getElem? he, ?_⟩
        unfold Consumer.Delivery.resume at he'
        split at he'
        · cases he'; rfl
        · obtain ⟨-, heq⟩ := Option.ite_none_right_eq_some.1 he'
          cases heq; rfl
        · obtain ⟨-, heq⟩ := Option.ite_none_right_eq_some.1 he'
          cases heq; rfl
        · cases he'

/-- In every run of a channel that delivers what the dispatchers publish of the messages
of the services: every delivery comes to its handler with the message that was emitted,
and the deliveries are settled once their callbacks have ended, so that none of them
blocks the channel, exactly if no handler raises anything but an `Exception`. -/
theorem received_of_run (hdatetime : ∀ t, P.datetime (string (P.isoformat t)) = some t)
    {limit : ℕ} (hlimit : 0 < limit) {actions : List Consumer.Action}
    {s : Consumer.Channel (Json F)}
    (hpublished : ∀ message, .deliver message ∈ actions →
      ∃ m, Published P C float repr m message)
    (hrun : Schedule.run (Consumer.step (Json.loadsWithin limit float)) [] actions = some s) :
    (Consumer.EverySettled s ↔ ∀ d ∈ s, d.handled ≠ some .escapes) ∧
      ∀ d ∈ s, ∃ m, Published P C float repr m d.message ∧
        Received P (Json.loadsWithin limit float) m d.message := by
  have hall : ∀ d ∈ s, ∃ m, Published P C float repr m d.message := by
    refine Schedule.run_preserves
      (I := fun u : Consumer.Channel (Json F) =>
        ∀ d ∈ u, ∃ m, Published P C float repr m d.message)
      (P := fun _ a => ∀ message, a = .deliver message → ∃ m, Published P C float repr m message)
      (fun u a v hu ha hstep d hd => ?_) (fun _ hd => (List.not_mem_nil hd).elim)
      (Schedule.along_of_forall fun a ha _ message heq => hpublished message (by rwa [← heq])) hrun
    rcases message_of_step hstep hd with ⟨e, he, heq⟩ | heq
    · exact heq ▸ hu e he
    · exact ha _ heq
  have hread : ∀ d ∈ s, Consumer.Readable (Json.loadsWithin limit float) d.message := by
    intro d hd
    obtain ⟨m, hm⟩ := hall d hd
    rw [Consumer.Readable, published_payload hlimit hm]
    rfl
  have hstages := Consumer.stage_of_run hrun
  refine ⟨⟨fun hsettled d hd => ?_, fun hcaught => .of_settles fun d hd => ?_⟩, fun d hd => ?_⟩
  · exact ((hstages d hd).settles_iff_caught.1 (hsettled.settles d hd)).2
  · exact (hstages d hd).settles_iff_caught.2 ⟨hread d hd, hcaught d hd⟩
  · obtain ⟨m, hm⟩ := hall d hd
    exact ⟨m, hm, hm.received hdatetime hlimit⟩

/-- Whatever JSON text the column of an outbox row holds, with floats, nested values, keys
that are set twice or lone surrogates in it: `publish` raises at the payload that the
dispatcher reads only if it is no dict, is nested too deeply, or has a `message_id` that
the client library does not take; and the consumer hands exactly this payload to the
handler, unless it is nested too deeply for it. -/
theorem republish_of_loads (hfloat : ∀ x, Json.ReadsBack float repr x)
    (hrepr : ∀ x, ∀ c ∈ repr x, Json.Unbracketed c) {text : List Char} {j : Json F}
    (h : Json.loadsWithin C.reads float text = some j) (routingKey : Option String) :
    ((republish C float repr text).isSome = true ↔
      ∃ p, j = .dict p ∧ j.depth ≤ C.writes ∧ C.accepts (messageId p) = true) ∧
    ∀ bytes limit, republish C float repr text = some bytes → j.depth ≤ limit →
      ∃ k, (Consumer.onMessage (Json.loadsWithin limit float) ⟨routingKey, bytes⟩).run =
        .call (.handler (routingKey.getD "") j) k := by
  have hj := Json.wellFormed_of_loads (Option.ite_none_right_eq_some.1 h).2
  have hbody : republish C float repr text = body C repr j := by
    rw [republish, h, Option.bind_some]
  rw [hbody]
  refine ⟨⟨fun hsome => ?_, ?_⟩, fun bytes limit hbytes hdepth => ?_⟩
  · obtain ⟨bytes, hbytes⟩ := Option.isSome_iff_exists.1 hsome
    obtain ⟨p, text', hp, hdepth, haccepts, -, -⟩ := body_eq_some.1 hbytes
    exact ⟨p, hp, hdepth, haccepts⟩
  · rintro ⟨p, hp, hdepth, haccepts⟩
    obtain ⟨text', htext'⟩ := Json.exists_dumps repr j hj
    exact Option.isSome_iff_exists.2
      ⟨_, body_eq_some.2 ⟨p, text', hp, hdepth, haccepts, htext', rfl⟩⟩
  · exact ⟨_, Consumer.onMessage_of_loads
      (loads_body (fun x _ => hfloat x) (fun x _ => hrepr x) hj hdepth hbytes)⟩

end Delivery

/-- A library that writes times as texts, and knows no float. -/
def texts : Pydantic Unit String where
  lax := fun _ => none
  datetime := fun
    | .str s => ofCodes s
    | _ => none
  isoformat := id
  newId := "new"
  now := "2025-01-01T00:00:00Z"

/-- An order of two, with a quote and a letter beyond ASCII in it. -/
def stampedOrder : Stamped String :=
  ⟨"m", "2025-06-01T12:00:00Z", .orderCreated ⟨"o", "snäker \"42\"", 2, "u", 1999⟩⟩

/-- A process that may nest a hundred calls, with a library that takes strings. -/
def client : Client Unit where
  reads := 100
  writes := 100
  accepts := fun
    | .null => true
    | .str _ => true
    | _ => false

theorem received_stampedOrder : ∃ message : Consumer.IncomingMessage, ∃ s,
    Schedule.run (Consumer.step (Json.loadsWithin 100 fun _ => ())) [] [.deliver message] =
        some s ∧
      (Consumer.EverySettled s ↔ ∀ d ∈ s, d.handled ≠ some .escapes) ∧
      ∀ d ∈ s, ∃ m, Published texts client (fun _ => ()) (fun _ => "1.5".toList) m d.message ∧
        Received texts (Json.loadsWithin 100 fun _ => ()) m d.message := by
  have hcolumn : (column texts (fun _ => "1.5".toList) stampedOrder).isSome = true := by
    decide +kernel
  obtain ⟨text, htext⟩ := Option.isSome_iff_exists.1 hcolumn
  obtain ⟨bytes, hbytes⟩ : ∃ bytes, Published texts client (fun _ => ())
      (fun _ => "1.5".toList) stampedOrder ⟨some "OrderCreated", bytes⟩ :=
    exists_published (by decide) (by decide) rfl htext
  have hrun : Schedule.run (Consumer.step (Json.loadsWithin 100 fun _ => ())) []
      [.deliver ⟨some "OrderCreated", bytes⟩] =
        some [⟨⟨some "OrderCreated", bytes⟩, (Consumer.onMessage
          (Json.loadsWithin 100 fun _ => ()) ⟨some "OrderCreated", bytes⟩).run, none, 0, 0⟩] :=
    rfl
  refine ⟨_, _, hrun, received_of_run (fun t => ofCodes_codes t) (by decide)
    (fun message hmem => ?_) hrun⟩
  cases List.mem_singleton.1 hmem
  exact ⟨stampedOrder, hbytes⟩

/-- The float 1.5 and its text. -/
theorem readsBack_half (x : Unit) :
    Json.ReadsBack (fun _ => ()) (fun _ => ['1', '.', '5']) x := by
  intro n rest hrest
  have hall : ∀ d ∈ ['5'], d.isDigit = true := fun d hd => by
    rw [List.mem_singleton.1 hd]
    rfl
  have hdigits := Json.takeWhile_digits hall hrest
  have hfraction : Json.scanFraction ('.' :: (['5'] ++ rest)) = (['.', '5'], rest) := by
    rw [Json.scanFraction, hdigits.1, hdigits.2]
    rfl
  have hscan : Json.scanDigits ('1' :: '.' :: (['5'] ++ rest)) =
      some (['1'], '.' :: (['5'] ++ rest)) := rfl
  change Json.scanUnsigned (fun _ => ()) false ('1' :: '.' :: (['5'] ++ rest)) = _
  simp only [Json.scanUnsigned, hscan, Option.bind_eq_bind, Option.bind_some, hfraction,
    Json.scanExponent_of_ends hrest]
  rfl

/-- A text with a float, a repeated key and a lone surrogate. -/
def storedText : List Char :=
  "\x7b\"a\": 1, \"b\": [1.5, \"\\ud83d\"], \"a\": null\x7d".toList

theorem republish_storedText : ∃ bytes j,
    republish client (fun _ => ()) (fun _ => ['1', '.', '5']) storedText = some bytes ∧
      ∃ k, (Consumer.onMessage (Json.loadsWithin 2 fun _ => ())
        ⟨some "CancelOrder", bytes⟩).run = .call (.handler "CancelOrder" j) k := by
  have hread : (Json.loadsWithin 100 (fun _ => ()) storedText).isSome = true := by
    decide +kernel
  obtain ⟨j, hj⟩ := Option.isSome_iff_exists.1 hread
  have hdepth : (Json.loadsWithin 100 (fun _ => ()) storedText).all (fun j => j.depth ≤ 2) =
      true := by
    decide +kernel
  rw [hj] at hdepth
  have hsome : (republish client (fun _ => ()) (fun _ => ['1', '.', '5']) storedText).isSome =
      true := by
    decide +kernel
  obtain ⟨bytes, hbytes⟩ := Option.isSome_iff_exists.1 hsome
  have hplain : ∀ _ : Unit, ∀ c ∈ ['1', '.', '5'], Json.Unbracketed c := by
    simp [Json.Unbracketed]
  have hboth := republish_of_loads (C := client) readsBack_half hplain hj (some "CancelOrder")
  exact ⟨bytes, j, hbytes, hboth.2 bytes 2 hbytes (of_decide_eq_true hdepth)⟩

end Wire

end FlashSale
