import FlashSale.Library.Prog
import FlashSale.Shared.Store

/-!
# The awaited calls of the services

`Effect` lists the calls at which a handler can be suspended: the lock, the
idempotency store and the rate limiter in Redis, the payment gateway, and the
statements sent to the service's own database. A `Handler` is a program over
them.

`exec` is the meaning of one call for an attempt that is alone with the
databases. What the code outside the repository decides (whether the lock was
acquired in time, whether a token was granted, what the gateway answered, which
fresh uuid was drawn) is read from `Answers`, so it is arbitrary.

A `Session` is the open unit of work: the statements flushed but not committed.
`missed` records that the attempt has found its idempotency entry missing and
has since neither stored it nor left the lock.
-/

namespace FlashSale

/-- `GatewayResult` of `payment_service/gateway.py`. -/
structure GatewayResult where
  success : Bool
  gatewayRef : String
  failureReason : Option String
deriving DecidableEq

/-- The calls a handler awaits. The order a charge is made for is recorded for
the history only; the gateway is not told. -/
inductive Effect
  | acquire (key : LockKey)
  | release (key : LockKey)
  | getCachedResult (key : IdemKey)
  | storeResult (key : IdemKey) (entry : key.Entry)
  | allow (sku : Sku)
  | charge (orderId : OrderId) (amountCents : ℤ) (userId : UserId)
  | refund (paymentId : PaymentId) (amountCents : ℤ)
  | selectOrder (orderId : OrderId)
  | selectSaga (orderId : OrderId)
  | selectPayment (paymentId : PaymentId)
  | selectItem (sku : Sku)
  | selectItemForUpdate (sku : Sku)
  | flushNew (row : String → Write)
  | flush (writes : List Write)
  | commit (writes : List Write)

/-- What an awaited call returns. `flushNew` inserts a row whose primary key is
a fresh uuid and returns the key. -/
@[reducible] def Effect.Answer : Effect → Type
  | acquire _ => Bool
  | release _ => Unit
  | getCachedResult key => Option key.Entry
  | storeResult _ _ => Unit
  | allow _ => Bool
  | charge _ _ _ => GatewayResult
  | refund _ _ => GatewayResult
  | selectOrder _ => Option Order
  | selectSaga _ => Option SagaRow
  | selectPayment _ => Option Payment
  | selectItem _ => Option InventoryItem
  | selectItemForUpdate _ => Option InventoryItem
  | flushNew _ => String
  | flush _ => Unit
  | commit _ => Unit

/-- The call commits the unit of work. -/
def Effect.isCommit : Effect → Bool
  | .commit _ => true
  | _ => false

/-- A program of the services. -/
abbrev Handler := Prog Effect Effect.Answer

def acquire (key : LockKey) : Handler Bool := Prog.await (Effect.acquire key)

def release (key : LockKey) : Handler Unit := Prog.await (Effect.release key)

/-- `get_cached_result` of `reserve:{order_id}` and `json.loads`; the other three
families of keys follow. -/
def getCachedReservation (orderId : OrderId) : Handler (Option ReservationResult) :=
  Prog.await (Effect.getCachedResult (.reserve orderId))

def storeReservation (orderId : OrderId) (result : ReservationResult) : Handler Unit :=
  Prog.await (Effect.storeResult (.reserve orderId) result)

def getCachedRelease (orderId : OrderId) : Handler (Option Unit) :=
  Prog.await (Effect.getCachedResult (.release orderId))

def storeRelease (orderId : OrderId) : Handler Unit :=
  Prog.await (Effect.storeResult (.release orderId) ())

def getCachedCharge (orderId : OrderId) : Handler (Option CachedCharge) :=
  Prog.await (Effect.getCachedResult (.charge orderId))

def storeCharge (orderId : OrderId) (cached : CachedCharge) : Handler Unit :=
  Prog.await (Effect.storeResult (.charge orderId) cached)

def getCachedRefund (paymentId : PaymentId) : Handler (Option String) :=
  Prog.await (Effect.getCachedResult (.refund paymentId))

def storeRefund (paymentId : PaymentId) (gatewayRef : String) : Handler Unit :=
  Prog.await (Effect.storeResult (.refund paymentId) gatewayRef)

def allow (sku : Sku) : Handler Bool := Prog.await (Effect.allow sku)

def charge (orderId : OrderId) (amountCents : ℤ) (userId : UserId) : Handler GatewayResult :=
  Prog.await (Effect.charge orderId amountCents userId)

def refund (paymentId : PaymentId) (amountCents : ℤ) : Handler GatewayResult :=
  Prog.await (Effect.refund paymentId amountCents)

def selectOrder (orderId : OrderId) : Handler (Option Order) :=
  Prog.await (Effect.selectOrder orderId)

def selectSaga (orderId : OrderId) : Handler (Option SagaRow) :=
  Prog.await (Effect.selectSaga orderId)

def selectPayment (paymentId : PaymentId) : Handler (Option Payment) :=
  Prog.await (Effect.selectPayment paymentId)

def selectItem (sku : Sku) : Handler (Option InventoryItem) := Prog.await (Effect.selectItem sku)

def selectItemForUpdate (sku : Sku) : Handler (Option InventoryItem) :=
  Prog.await (Effect.selectItemForUpdate sku)

def flushNew (row : String → Write) : Handler String := Prog.await (Effect.flushNew row)

def flush (writes : List Write) : Handler Unit := Prog.await (Effect.flush writes)

def commit (writes : List Write) : Handler Unit := Prog.await (Effect.commit writes)

/-- The answers that the handler's own code does not determine. -/
structure Answers where
  acquired : Bool
  allowed : Bool
  gateway : GatewayResult
  newId : String
deriving DecidableEq

/-- The open unit of work of an attempt. -/
structure Session where
  txn : List Write := []
  missed : Bool := false
deriving DecidableEq

/-- Sending statements to the database; they stay invisible until the commit. -/
def flushWrites (w : World) (session : Session) (writes : List Write) :
    Option (World × Session) :=
  (w.writeAll (session.txn ++ writes)).map fun _ =>
    (w, { session with txn := session.txn ++ writes })

/-- Committing what was flushed together with what is still pending. -/
def commitWrites (w : World) (session : Session) (writes : List Write) :
    Option (World × Session) :=
  (w.writeAll (session.txn ++ writes)).map fun w' => (w', { session with txn := [] })

/-- The gateway answers a charge made for an order. -/
def World.charged (w : World) (orderId : OrderId) (amountCents : ℤ) (userId : UserId)
    (result : GatewayResult) : World :=
  { w with charges := w.charges ++ [⟨orderId, userId, amountCents, result.success⟩] }

/-- The gateway refunds a payment. -/
@[simps -fullyApplied payments]
def World.refundCalled (w : World) (paymentId : PaymentId) (amountCents : ℤ) : World :=
  { w with refunds := w.refunds ++ [⟨paymentId, amountCents⟩] }

/-- The meaning of one awaited call; `none` when it raises. -/
def exec (ω : Answers) :
    (e : Effect) → World × Session → Option (e.Answer × (World × Session))
  | .acquire _, s => some (ω.acquired, s)
  | .release _, (w, session) => some ((), w, { session with missed := false })
  | .getCachedResult key, (w, session) =>
      some (w.cache key, w, { session with missed := (w.cache key).isNone })
  | .storeResult key entry, (w, session) =>
      some ((), w.setCache key (some entry), { session with missed := false })
  | .allow _, s => some (ω.allowed, s)
  | .charge orderId amountCents userId, (w, session) =>
      some (ω.gateway, w.charged orderId amountCents userId ω.gateway, session)
  | .refund paymentId amountCents, (w, session) =>
      some ({ success := true, gatewayRef := ω.newId, failureReason := none },
        { w with refunds := w.refunds ++ [⟨paymentId, amountCents⟩] }, session)
  | .selectOrder orderId, (w, session) => some (w.findOrder orderId, w, session)
  | .selectSaga orderId, (w, session) => some (w.sagas orderId, w, session)
  | .selectPayment paymentId, (w, session) =>
      some (w.payments.find? fun payment => payment.id = paymentId, w, session)
  | .selectItem sku, (w, session) => some (w.items sku, w, session)
  | .selectItemForUpdate sku, (w, session) => some (w.items sku, w, session)
  | .flushNew row, (w, session) =>
      (flushWrites w session [row ω.newId]).map fun s => (ω.newId, s)
  | .flush writes, (w, session) => (flushWrites w session writes).map fun s => ((), s)
  | .commit writes, (w, session) => (commitWrites w session writes).map fun s => ((), s)

/-! ## Running one call

Each lemma runs the first call of a program and leaves the continuation at its
answer. -/

section Run

variable (ω : Answers) (w : World) (session : Session) {α : Type}

@[simp] theorem run_acquire (key : LockKey) (f : Bool → Handler α) :
    (acquire key >>= f).run (exec ω) (w, session) =
      (f ω.acquired).run (exec ω) (w, session) := rfl

@[simp] theorem run_release (key : LockKey) (f : Unit → Handler α) :
    (release key >>= f).run (exec ω) (w, session) =
      (f ()).run (exec ω) (w, { session with missed := false }) := rfl

@[simp] theorem run_getCachedReservation (orderId : OrderId)
    (f : Option ReservationResult → Handler α) :
    (getCachedReservation orderId >>= f).run (exec ω) (w, session) =
      (f (w.reservations orderId)).run (exec ω)
        (w, { session with missed := (w.reservations orderId).isNone }) := rfl

@[simp] theorem run_storeReservation (orderId : OrderId) (result : ReservationResult)
    (f : Unit → Handler α) :
    (storeReservation orderId result >>= f).run (exec ω) (w, session) =
      (f ()).run (exec ω)
        (w.storeReservation orderId result, { session with missed := false }) := rfl

@[simp] theorem run_getCachedRelease (orderId : OrderId) (f : Option Unit → Handler α) :
    (getCachedRelease orderId >>= f).run (exec ω) (w, session) =
      (f (w.releases orderId)).run (exec ω)
        (w, { session with missed := (w.releases orderId).isNone }) := rfl

@[simp] theorem run_storeRelease (orderId : OrderId) (f : Unit → Handler α) :
    (storeRelease orderId >>= f).run (exec ω) (w, session) =
      (f ()).run (exec ω) (w.storeRelease orderId, { session with missed := false }) := rfl

@[simp] theorem run_getCachedCharge (orderId : OrderId) (f : Option CachedCharge → Handler α) :
    (getCachedCharge orderId >>= f).run (exec ω) (w, session) =
      (f (w.chargeResults orderId)).run (exec ω)
        (w, { session with missed := (w.chargeResults orderId).isNone }) := rfl

@[simp] theorem run_storeCharge (orderId : OrderId) (cached : CachedCharge)
    (f : Unit → Handler α) :
    (storeCharge orderId cached >>= f).run (exec ω) (w, session) =
      (f ()).run (exec ω) (w.storeCharge orderId cached, { session with missed := false }) := rfl

@[simp] theorem run_allow (sku : Sku) (f : Bool → Handler α) :
    (allow sku >>= f).run (exec ω) (w, session) =
      (f ω.allowed).run (exec ω) (w, session) := rfl

@[simp] theorem run_charge (orderId : OrderId) (amountCents : ℤ) (userId : UserId)
    (f : GatewayResult → Handler α) :
    (charge orderId amountCents userId >>= f).run (exec ω) (w, session) =
      (f ω.gateway).run (exec ω) (w.charged orderId amountCents userId ω.gateway, session) :=
  rfl

@[simp] theorem run_getCachedRefund (paymentId : PaymentId) (f : Option String → Handler α) :
    (getCachedRefund paymentId >>= f).run (exec ω) (w, session) =
      (f (w.refundResults paymentId)).run (exec ω)
        (w, { session with missed := (w.refundResults paymentId).isNone }) := rfl

@[simp] theorem run_storeRefund (paymentId : PaymentId) (gatewayRef : String)
    (f : Unit → Handler α) :
    (storeRefund paymentId gatewayRef >>= f).run (exec ω) (w, session) =
      (f ()).run (exec ω)
        (w.storeRefund paymentId gatewayRef, { session with missed := false }) := rfl

@[simp] theorem run_refund (paymentId : PaymentId) (amountCents : ℤ)
    (f : GatewayResult → Handler α) :
    (refund paymentId amountCents >>= f).run (exec ω) (w, session) =
      (f ⟨true, ω.newId, none⟩).run (exec ω) (w.refundCalled paymentId amountCents, session) :=
  rfl

@[simp] theorem run_selectPayment (paymentId : PaymentId) (f : Option Payment → Handler α) :
    (selectPayment paymentId >>= f).run (exec ω) (w, session) =
      (f (w.payments.find? fun payment => payment.id = paymentId)).run (exec ω)
        (w, session) := rfl

@[simp] theorem run_selectOrder (orderId : OrderId) (f : Option Order → Handler α) :
    (selectOrder orderId >>= f).run (exec ω) (w, session) =
      (f (w.findOrder orderId)).run (exec ω) (w, session) := rfl

@[simp] theorem run_selectSaga (orderId : OrderId) (f : Option SagaRow → Handler α) :
    (selectSaga orderId >>= f).run (exec ω) (w, session) =
      (f (w.sagas orderId)).run (exec ω) (w, session) := rfl

@[simp] theorem run_selectItem (sku : Sku) (f : Option InventoryItem → Handler α) :
    (selectItem sku >>= f).run (exec ω) (w, session) =
      (f (w.items sku)).run (exec ω) (w, session) := rfl

@[simp] theorem run_selectItemForUpdate (sku : Sku) (f : Option InventoryItem → Handler α) :
    (selectItemForUpdate sku >>= f).run (exec ω) (w, session) =
      (f (w.items sku)).run (exec ω) (w, session) := rfl

theorem run_flushNew (row : String → Write) {w' : World} (f : String → Handler α)
    (h : w.writeAll (session.txn ++ [row ω.newId]) = some w') :
    (flushNew row >>= f).run (exec ω) (w, session) =
      (f ω.newId).run (exec ω) (w, { session with txn := session.txn ++ [row ω.newId] }) := by
  refine Prog.run_call_some ?_
  simp [exec, flushWrites, h]

theorem run_flushNew_none (row : String → Write) (f : String → Handler α)
    (h : w.writeAll (session.txn ++ [row ω.newId]) = none) :
    (flushNew row >>= f).run (exec ω) (w, session) = (none, w, session) := by
  refine Prog.run_call_none ?_
  simp [exec, flushWrites, h]

theorem run_flush {writes : List Write} {w' : World} (f : Unit → Handler α)
    (h : w.writeAll (session.txn ++ writes) = some w') :
    (flush writes >>= f).run (exec ω) (w, session) =
      (f ()).run (exec ω) (w, { session with txn := session.txn ++ writes }) := by
  refine Prog.run_call_some ?_
  simp [exec, flushWrites, h]

theorem run_flush_none {writes : List Write} (f : Unit → Handler α)
    (h : w.writeAll (session.txn ++ writes) = none) :
    (flush writes >>= f).run (exec ω) (w, session) = (none, w, session) := by
  refine Prog.run_call_none ?_
  simp [exec, flushWrites, h]

theorem run_commit_bind {writes : List Write} {w' : World} (f : Unit → Handler α)
    (h : w.writeAll (session.txn ++ writes) = some w') :
    (commit writes >>= f).run (exec ω) (w, session) =
      (f ()).run (exec ω) (w', { session with txn := [] }) := by
  refine Prog.run_call_some ?_
  simp [exec, commitWrites, h]

theorem run_commit {writes : List Write} {w' : World}
    (h : w.writeAll (session.txn ++ writes) = some w') :
    (commit writes).run (exec ω) (w, session) =
      (some (), w', { session with txn := [] }) := by
  refine Prog.run_call_some ?_
  simp [exec, commitWrites, h]

end Run

end FlashSale
