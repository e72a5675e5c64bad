import FlashSale.Library.Schedule
import FlashSale.Library.Prog
import FlashSale.OrderService.Main
import FlashSale.InventoryService.Main
import FlashSale.PaymentService.Main
import FlashSale.NotificationService.Main
import FlashSale.SagaCoordinator.Transitions
import FlashSale.SagaCoordinator.Diagram
import FlashSale.SagaCoordinator.Refinement
import FlashSale.SagaCoordinator.Concurrent
import FlashSale.InventoryService.Outcome
import FlashSale.InventoryService.FailedAttempt
import FlashSale.PaymentService.Outcome
import FlashSale.PaymentService.Redelivery
import FlashSale.Concurrency.Pool
import FlashSale.Concurrency.ReservePhases
import FlashSale.Concurrency.ChargePhases
import FlashSale.Concurrency.ReleasePhases
import FlashSale.Concurrency.RowLocks
import FlashSale.Concurrency.Conservation
import FlashSale.Concurrency.Verdicts
import FlashSale.Concurrency.Serial
import FlashSale.Concurrency.LostLock
import FlashSale.System.Network
import FlashSale.System.Causality
import FlashSale.Library.Reservoir
import FlashSale.Shared.TokenBucket
import FlashSale.Library.Contract
import FlashSale.Outbox.Dispatcher
import FlashSale.Outbox.Table
import FlashSale.Outbox.Delivery
import FlashSale.Outbox.Startup
import FlashSale.System.Announcement
import FlashSale.InventoryService.Books
import FlashSale.InventoryService.Stability
import FlashSale.Concurrency.Replay
import FlashSale.Scripts.VerifyConsistency
import FlashSale.System.Progress
import FlashSale.System.Quiescence
import FlashSale.System.Agreement
import FlashSale.System.SoldOut
import FlashSale.System.Settlement
import FlashSale.Library.Feed
import FlashSale.Outbox.Iteration
import FlashSale.Outbox.Drain
import FlashSale.Outbox.FailedPublish
import FlashSale.Shared.Consumer
import FlashSale.PaymentService.Refunds
import FlashSale.InventoryService.Range
import FlashSale.Shared.Lease
import FlashSale.Concurrency.Leases
import FlashSale.Library.Json
import FlashSale.Library.JsonRoundTrip
import FlashSale.Shared.Encoding
import FlashSale.Shared.Wire
import FlashSale.Shared.Entries
import FlashSale.Shared.SeqLogging
import FlashSale.Library.JsonLines
import FlashSale.System.Notices
import FlashSale.System.Recovery
import FlashSale.Scripts.Audit
import FlashSale.System.Accounts
import FlashSale.System.Backing
import FlashSale.Library.Independence
import FlashSale.System.Independence
import FlashSale.System.Columns
