import PaymentLab.Services.Runtime

/-!
# The transactional outbox

The producer half of `services/webhooks.py`: one event for each accepted payment version, with the
full snapshot of the payment in it. The event is staged here and inserted by the flush that follows.
-/

namespace PaymentLab

/-- `_payment_payload`: the nested object of an event, every field of the row. -/
def paymentPayload (payment : PaymentRecord) : PaymentSnapshot := .fromPayment payment

/-- `create_outbox_event`: the event of the payment's current version. `hex` is the generated
part of its id. -/
def createOutboxEvent (payment : PaymentRecord) (eventType : WebhookEventType) (hex : String) :
    WebhookEventRecord :=
  let eventId := "evt_" ++ hex
  let createdAt := payment.updatedAt
  { id := eventId
    paymentId := payment.id
    eventType := eventType
    aggregateVersion := payment.version
    payload :=
      { aggregateVersion := payment.version
        createdAt := createdAt
        id := eventId
        payment := paymentPayload payment
        type := eventType }
    status := .pending
    attemptCount := 0
    nextAttemptAt := createdAt
    leaseToken := none
    leaseExpiresAt := none
    createdAt := createdAt
    deliveredAt := none }

end PaymentLab
