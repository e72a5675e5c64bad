import FlashSale.InventoryService.Main
import FlashSale.Library.Schedule
import FlashSale.NotificationService.Main
import FlashSale.OrderService.Main
import FlashSale.PaymentService.Main
import FlashSale.SagaCoordinator.Database
import FlashSale.Shared.Attempts

/-!
# The whole system

The five services over one world, with the messages that the broker has and the
deliveries that are being processed. A delivery takes one awaited call at a time
and can be abandoned at any of them: its unit of work is rolled back, what it
wrote to Redis and asked of the gateway stays, and its message is queued again.
The calls of different deliveries alternate in any order; the answers of the
locks and of the limiter are arbitrary, so no interleaving is left out.

All queues are bound from the start and the broker loses nothing. It may deliver
a message that it has accepted any number of times. A service works on as many
deliveries at once as it likes, the saga coordinator on one.
-/

namespace FlashSale

/-- The callback that the consumer of a message runs. -/
def Message.handler (message : Message) : Handler Unit :=
  match message.consumer with
  | some .order => OrderService.handle message
  | some .inventory => InventoryService.handle message
  | some .payment => PaymentService.handle message
  | some .saga => SagaCoordinator.handle message
  | some .notification => NotificationService.handle message
  | none => return ()

/-- A place at which a service works on a delivery. -/
structure Worker where
  service : Service
  slot : ℕ
deriving DecidableEq

/-- A delivery that is being processed: its message, what is left of the callback
and its unit of work. -/
structure Attempt where
  message : Message
  prog : Handler Unit
  session : Session

def Attempt.new (message : Message) : Attempt where
  message := message
  prog := message.handler
  session := {}

/-- The world in which the row `n` of the outbox is replaced. -/
def World.setRow (w : World) (n : ℕ) (row : OutboxRow) : World :=
  { w with outbox := w.outbox.set n row }

/-- The services, the messages queued at the broker, and the deliveries that are
being processed. -/
@[ext] structure System where
  world : World
  queue : List Message
  running : Worker → Option Attempt

namespace System

/-- Empty databases, no message, no delivery. -/
def start : System where
  world := World.empty
  queue := []
  running := fun _ => none

/-- The actions. `publish n` hands the message of the outbox row `n` to the
broker, the first time or again, and `mark n` commits its `published` flag. -/
inductive Action
  | checkout (req : OrderService.CheckoutRequest) (ω : Answers)
  | seed (req : InventoryService.SeedRequest) (ω : Answers)
  | publish (n : ℕ)
  | mark (n : ℕ)
  | start (worker : Worker) (message : Message)
  | call (worker : Worker) (ω : Answers)
  | finish (worker : Worker)
  | abort (worker : Worker)
  | forget (key : IdemKey)

/-- A message at the broker; without a bound queue it is dropped. -/
def enqueue (queue : List Message) (message : Message) : List Message :=
  if message.consumer.isSome then queue ++ [message] else queue

/-- A delivery ends; what it has not committed is gone. -/
def release (s : System) (worker : Worker) (queue : List Message) : System where
  world := s.world
  queue := queue
  running := Function.update s.running worker none

/-- One awaited call of a delivery. When it raises, the message is queued again. -/
def resume (s : System) (worker : Worker) (attempt : Attempt) (ω : Answers) (e : Effect)
    (k : e.Answer → Handler Unit) : System :=
  match exec ω e (s.world, attempt.session) with
  | none => s.release worker (s.queue ++ [attempt.message])
  | some (r, w, session) =>
      { world := w
        queue := s.queue
        running := Function.update s.running worker (some ⟨attempt.message, k r, session⟩) }

def step (s : System) : Action → Option System
  | .checkout req ω => some { s with world := s.world.request (OrderService.checkout req) ω }
  | .seed req ω => some { s with world := s.world.request (InventoryService.seedInventory req) ω }
  | .publish n =>
      s.world.outbox[n]?.map fun row =>
        { s with
          world := s.world.setRow n { row with handed := true }
          queue := enqueue s.queue row.message }
  | .mark n =>
      s.world.outbox[n]?.bind fun row =>
        if row.handed then some { s with world := s.world.setRow n { row with published := true } }
        else none
  | .start worker message =>
      if message ∈ s.queue ∧ message.consumer = some worker.service ∧
          (s.running worker).isNone = true ∧ (worker.service = .saga → worker.slot = 0) then
        some
          { s with
            queue := s.queue.erase message
            running := Function.update s.running worker (some (.new message)) }
      else none
  | .call worker ω =>
      (s.running worker).bind fun attempt =>
        match attempt.prog with
        | .call e k => some (s.resume worker attempt ω e k)
        | _ => none
  | .finish worker =>
      (s.running worker).bind fun attempt =>
        match attempt.prog with
        | .ret _ => some (s.release worker s.queue)
        | _ => none
  | .abort worker =>
      (s.running worker).map fun attempt => s.release worker (s.queue ++ [attempt.message])
  | .forget key => some { s with world := s.world.setCache key none }

/-- Nothing is left to do: no message is queued or being processed, and every
outbox row is published. -/
def Quiescent (s : System) : Prop :=
  s.queue = [] ∧ (∀ worker, s.running worker = none) ∧
    ∀ row ∈ s.world.outbox, row.published = true

end System

end FlashSale
