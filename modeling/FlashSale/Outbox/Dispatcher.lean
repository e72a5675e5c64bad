import FlashSale.Library.Contract

/-!
# The outbox dispatcher

`run_outbox_dispatcher` of `shared/outbox.py` and the publishing half of
`RabbitMQClient` of `shared/rabbitmq.py`, as programs over the calls they await.
A call that can fail answers whether it succeeded, and `ensure` raises when it
did not; `orElse` is the `try`/`except` around it.

The rows are those of every service's `OutboxMessage` table. The payload type is
arbitrary; a message on the exchange is a routing key with a payload.
-/

namespace FlashSale

/-- A row of an `outbox` table. -/
structure OutboxMessage (P : Type) where
  id : String
  routingKey : String
  payload : P
  published : Bool
  createdAt : ℕ
deriving DecidableEq

/-- What is published for a row. -/
def OutboxMessage.body {P : Type} (row : OutboxMessage P) : String × P :=
  (row.routingKey, row.payload)

/-- The row with its flag set. -/
def OutboxMessage.mark {P : Type} (row : OutboxMessage P) : OutboxMessage P :=
  { row with published := true }

/-- The calls that a dispatcher awaits: the query for unpublished rows, the calls
of the broker client, and the commit of the rows changed in the session. -/
inductive DispatcherCall (P : Type)
  | select
  | publish (routingKey : String) (payload : P)
  | openChannel
  | close
  | connectRobust
  | commit (rows : List (OutboxMessage P))

/-- What a call returns: the rows, or none when the query fails; for the others,
whether the call succeeded. -/
@[reducible] def DispatcherCall.Answer {P : Type} : DispatcherCall P → Type
  | select => Option (List (OutboxMessage P))
  | _ => Bool

/-- A program of the dispatcher. -/
abbrev Dispatch (P : Type) := Prog (DispatcherCall P) DispatcherCall.Answer

variable {P : Type}

/-- Awaiting one call. -/
def DispatcherCall.await (e : DispatcherCall P) : Dispatch P e.Answer := Prog.await e

namespace RabbitMQClient

/-- Raises when a call did not succeed. -/
def ensure : Bool → Dispatch P Unit
  | true => return ()
  | false => Prog.raise

/-- `self._exchange.publish`. -/
def exchangePublish (routingKey : String) (payload : P) : Dispatch P Unit := do
  ensure (← (DispatcherCall.publish routingKey payload).await)

def openChannel : Dispatch P Unit := do
  ensure (← DispatcherCall.openChannel.await)

/-- An error while closing is ignored. -/
def close : Dispatch P Unit := do
  let _ ← DispatcherCall.close.await

def connect : Dispatch P Unit := do
  ensure (← DispatcherCall.connectRobust.await)
  openChannel

/-- Three attempts: as it is, on a new channel, on a new connection. -/
def publish (routingKey : String) (payload : P) : Dispatch P Unit :=
  (exchangePublish routingKey payload).orElse <|
    Prog.orElse
      (do
        openChannel
        exchangePublish routingKey payload)
      (do
        close
        connect
        exchangePublish routingKey payload)

end RabbitMQClient

namespace Outbox

open RabbitMQClient

/-- The loop over the rows of one poll: a row is published, then its flag is set
in memory. The rows changed in the session are returned. -/
def publishRows : List (OutboxMessage P) → Dispatch P (List (OutboxMessage P))
  | [] => return []
  | row :: rows => do
      publish row.routingKey row.payload
      let marked ← publishRows rows
      return row.mark :: marked

/-- The body of `while True` before its sleep. -/
def iteration : Dispatch P Unit := do
  match ← DispatcherCall.select.await with
  | none => Prog.raise
  | some rows =>
      let marked ← publishRows rows
      if marked.isEmpty then return ()
      else ensure (← (DispatcherCall.commit marked).await)

end Outbox

end FlashSale
