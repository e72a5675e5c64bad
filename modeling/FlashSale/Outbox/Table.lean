import FlashSale.Library.Schedule
import FlashSale.Outbox.Dispatcher
import Mathlib.Data.List.Nodup
import Mathlib.Logic.Function.Basic

/-!
# Dispatchers over one outbox table

One table, any number of dispatchers that take one call at a time, and business
transactions that insert rows. A dispatcher reads committed rows without locking
them, so several can work on the same rows. Each call of the broker client and
each commit may fail, with or without its effect having taken place, and a
dispatcher may crash between any two calls.

`accepted` is what the broker has accepted, `handed` what it was ever handed.
-/

namespace FlashSale

namespace Outbox

variable {P : Type}

/-- What a dispatcher is doing: it is not running, opens its connection, sleeps
between two polls, or is inside an iteration. -/
inductive Dispatcher (P : Type)
  | stopped
  | starting (prog : Dispatch P Unit)
  | sleeping
  | polling (prog : Dispatch P Unit)

/-- The committed rows, the rows that open transactions have inserted, the
messages at the broker, and the dispatchers. -/
structure Table (P : Type) where
  rows : List (OutboxMessage P)
  pending : List (ℕ × OutboxMessage P)
  accepted : List (String × P)
  handed : List (String × P)
  dispatchers : ℕ → Dispatcher P

/-- An empty table and no dispatcher. -/
def Table.empty : Table P where
  rows := []
  pending := []
  accepted := []
  handed := []
  dispatchers := fun _ => .stopped

/-- How a call ends: it takes effect and returns, it has no effect and raises, or
it takes effect and raises. A query returns the rows that it selects. -/
inductive Outcome (P : Type)
  | done
  | failed
  | unconfirmed
  | selected (rows : List (OutboxMessage P))

/-- The actions: those of the business transactions, and those of the dispatchers.
`turn` goes on from the end of a program to what follows it. -/
inductive Action (P : Type)
  | insert (txn : ℕ) (row : OutboxMessage P)
  | commit (txn : ℕ)
  | rollback (txn : ℕ)
  | launch (i : ℕ)
  | call (i : ℕ) (outcome : Outcome P)
  | turn (i : ℕ)
  | crash (i : ℕ)

namespace Table

/-- The committed rows that are not marked published. -/
def unpublished (s : Table P) : List (OutboxMessage P) :=
  s.rows.filter fun row => !row.published

/-- The rows a poll may return: the oldest of the unpublished rows, as many as the
batch allows, rows of one age in any order. -/
structure Selects [DecidableEq P] (batch : ℕ) (s : Table P) (rows : List (OutboxMessage P)) :
    Prop where
  nodup : rows.Nodup
  subset : ∀ row ∈ rows, row ∈ s.unpublished
  ordered : rows.Pairwise fun a b => a.createdAt ≤ b.createdAt
  bounded : rows.length ≤ batch
  oldest : ∀ row ∈ s.unpublished, row ∈ rows ∨
    rows.length = batch ∧ ∀ r ∈ rows, r.createdAt ≤ row.createdAt

instance [DecidableEq P] (batch : ℕ) (s : Table P) (rows : List (OutboxMessage P)) :
    Decidable (s.Selects batch rows) :=
  decidable_of_iff
    (rows.Nodup ∧ (∀ row ∈ rows, row ∈ s.unpublished) ∧
      rows.Pairwise (fun a b => a.createdAt ≤ b.createdAt) ∧ rows.length ≤ batch ∧
      ∀ row ∈ s.unpublished, row ∈ rows ∨
        rows.length = batch ∧ ∀ r ∈ rows, r.createdAt ≤ row.createdAt)
    ⟨fun ⟨h₁, h₂, h₃, h₄, h₅⟩ => ⟨h₁, h₂, h₃, h₄, h₅⟩,
      fun ⟨h₁, h₂, h₃, h₄, h₅⟩ => ⟨h₁, h₂, h₃, h₄, h₅⟩⟩

/-- The rows whose flag the session has set are updated by their ids. -/
def update (s : Table P) (marked : List (OutboxMessage P)) : Table P :=
  { s with
    rows := s.rows.map fun row =>
      if row.id ∈ marked.map OutboxMessage.id then row.mark else row }

/-- A message handed to the broker, and whether it accepts it. -/
def hand (s : Table P) (accepts : Bool) (body : String × P) : Table P :=
  { s with
    accepted := if accepts then s.accepted ++ [body] else s.accepted
    handed := s.handed ++ [body] }

/-- One call of a dispatcher: its answer and the table after it. -/
def perform [DecidableEq P] (batch : ℕ) (s : Table P) (outcome : Outcome P) :
    (e : DispatcherCall P) → Option (e.Answer × Table P)
  | .select =>
      match outcome with
      | .selected rows => if s.Selects batch rows then some (some rows, s) else none
      | .failed => some (none, s)
      | _ => none
  | .publish routingKey payload =>
      match outcome with
      | .done => some (true, s.hand true (routingKey, payload))
      | .failed => some (false, s.hand false (routingKey, payload))
      | .unconfirmed => some (false, s.hand true (routingKey, payload))
      | .selected _ => none
  | .commit rows =>
      match outcome with
      | .done => some (true, s.update rows)
      | .failed => some (false, s)
      | .unconfirmed => some (false, s.update rows)
      | .selected _ => none
  | .openChannel | .close | .connectRobust =>
      match outcome with
      | .done => some (true, s)
      | .failed => some (false, s)
      | _ => none

/-- The dispatcher goes on as `d`. -/
def become (s : Table P) (i : ℕ) (d : Dispatcher P) : Table P :=
  { s with dispatchers := Function.update s.dispatchers i d }

/-- One call of the program of a dispatcher. -/
def advance [DecidableEq P] (batch : ℕ) (s : Table P) (i : ℕ) (outcome : Outcome P)
    (resume : Dispatch P Unit → Dispatcher P) : Dispatch P Unit → Option (Table P)
  | .call e k => (s.perform batch outcome e).map fun r => r.2.become i (resume (k r.1))
  | _ => none

/-- What follows a program that has ended: a dispatcher that could not connect
stops; an iteration is followed by a sleep, whether it raised or not. -/
def turn : Dispatcher P → Option (Dispatcher P)
  | .stopped => none
  | .starting (.ret _) => some .sleeping
  | .starting .raise => some .stopped
  | .sleeping => some (.polling iteration)
  | .polling (.ret _) => some .sleeping
  | .polling .raise => some .sleeping
  | _ => none

/-- The rows inserted by a transaction. -/
def inserted (s : Table P) (txn : ℕ) : List (OutboxMessage P) :=
  (s.pending.filter fun entry => entry.1 = txn).map Prod.snd

/-- The ids in use. A primary key is taken by an open transaction, too. -/
def ids (s : Table P) : List String :=
  s.rows.map OutboxMessage.id ++ s.pending.map fun entry => entry.2.id

def step [DecidableEq P] (batch : ℕ) (s : Table P) : Action P → Option (Table P)
  | .insert txn row =>
      if row.published = false ∧ row.id ∉ s.ids then
        some { s with pending := s.pending ++ [(txn, row)] }
      else none
  | .commit txn =>
      some { s with
        rows := s.rows ++ s.inserted txn
        pending := s.pending.filter fun entry => entry.1 ≠ txn }
  | .rollback txn =>
      some { s with pending := s.pending.filter fun entry => entry.1 ≠ txn }
  | .launch i =>
      match s.dispatchers i with
      | .stopped => some (s.become i (.starting RabbitMQClient.connect))
      | _ => none
  | .call i outcome =>
      match s.dispatchers i with
      | .starting prog => s.advance batch i outcome .starting prog
      | .polling prog => s.advance batch i outcome .polling prog
      | _ => none
  | .turn i => (turn (s.dispatchers i)).map (s.become i)
  | .crash i => some (s.become i .stopped)

end Table

end Outbox

end FlashSale
