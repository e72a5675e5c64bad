import FlashSale.Shared.Effects

/-!
# The notification service

`notification_service/main.py`: the consumer of `OrderConfirmed` and
`OrderCancelled`. It commits a notification row and publishes nothing.
-/

namespace FlashSale

namespace NotificationService

/-- `str.startswith`. -/
def startsWith (text initial : String) : Bool :=
  initial.toList.isPrefixOf text.toList

/-- `_friendly_cancellation_message`. -/
def friendlyCancellationMessage (orderId : OrderId) (reason : String) : String :=
  if startsWith reason "payment_failed" then
    "Sorry, order " ++ orderId ++
      " couldn't go through -- your payment was declined. You have not been charged."
  else if startsWith reason "inventory_unavailable" then
    "Sorry, order " ++ orderId ++ " couldn't be completed -- that item just sold out."
  else "Sorry, order " ++ orderId ++ " was cancelled (" ++ reason ++ ")."

def confirmation (event : OrderConfirmed) : Notification where
  orderId := event.orderId
  notificationType := .orderConfirmed
  message := "Your order " ++ event.orderId ++ " is confirmed! It's on its way."

def cancellation (event : OrderCancelled) : Notification where
  orderId := event.orderId
  notificationType := .orderCancelled
  message := friendlyCancellationMessage event.orderId event.reason

/-- The callback of `_consume_order_outcomes`. -/
def handle : Message → Handler Unit
  | .orderConfirmed event => commit [.insertNotification (confirmation event)]
  | .orderCancelled event => commit [.insertNotification (cancellation event)]
  | _ => return ()

end NotificationService

end FlashSale
