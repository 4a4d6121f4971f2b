import PaymentLab.Services.Runtime

/-!
# Exception handlers

The handlers `create_app` installs in `main.py`: the status and the body an exception is answered
with. An exception without a handler is answered by the framework, with 500 and no content of the
service.
-/

namespace PaymentLab.Api

/-- What a route may raise: an exception of a service, one of the route's own, a request that does
not validate, or anything else, which no handler answers. -/
inductive ApiError where
  | service (error : ServiceError)
  /-- `FailureInjectionDisabledError` -/
  | failureInjectionDisabled
  /-- `InvalidConfirmationPayloadError` -/
  | invalidConfirmationPayload (message : String)
  /-- `MerchantProjectionNotFoundError` -/
  | merchantProjectionNotFound (paymentId : String)
  /-- `RequestValidationError` -/
  | requestValidation
  /-- an exception of the route itself: an `AssertionError`, a `ValidationError` of a stored text -/
  | internal
  deriving DecidableEq, Repr

/-- The content of an error answer. The codes and messages are the service's; the details of a
validation error, which are FastAPI's, are not kept. -/
inductive ErrorContent where
  | coded (code message : String)
  /-- of `RefundAmountExceededError` -/
  | refundExceeded (code message : String) (requestedAmount refundableAmount : Int)
  /-- of FastAPI, for a request that does not validate -/
  | validation
  /-- of Starlette, for an exception without a handler -/
  | serverError
  deriving DecidableEq, Repr

/-- The status and content of an error answer, as `create_app` registers them for each exception. -/
structure ErrorAnswer where
  status : Nat
  content : ErrorContent
  deriving DecidableEq, Repr

/-- A `JSONResponse` with a code and a message. -/
def coded (status : Nat) (code message : String) : ErrorAnswer :=
  { status := status, content := .coded code message }

/-- An exception without a handler. -/
def unhandled : ErrorAnswer := { status := 500, content := .serverError }

/-- The handlers of the domain errors. -/
def handleDomain : DomainError → ErrorAnswer
  | .invalidTransition operation status =>
    coded 409 "invalid_payment_transition"
      ("Cannot " ++ operation.value ++ " payment in " ++ status.value ++ " state")
  | .refundAmountExceeded requested available =>
    { status := 409
      content := .refundExceeded "refund_amount_exceeded"
        ("Refund amount " ++ toString requested ++ " exceeds refundable amount " ++
          toString available) requested available }
  | .valueError _ | .keyError => unhandled

/-- The handlers of the service errors. -/
def handleService : ServiceError → ErrorAnswer
  | .domain error => handleDomain error
  | .paymentNotFound paymentId =>
    coded 404 "payment_not_found" ("Payment " ++ paymentId ++ " was not found")
  | .idempotencyConflict =>
    coded 409 "idempotency_conflict" "Idempotency key was already used for another request"
  | .confirmationProcessingUnavailable =>
    coded 503 "confirmation_processing_unavailable"
      "Retry with the same confirmation ID and payload"
  | .confirmationPending =>
    coded 409 "confirmation_pending"
      "A payment confirmation is pending. Check the payment status before cancelling."
  | .cancellationUnavailable =>
    coded 503 "cancellation_unavailable" "Retry cancellation with the same idempotency key"
  | .confirmationIdConflict =>
    coded 409 "confirmation_id_conflict" "Confirmation ID was already used for another payload"
  | .invalidConfirmationSignature message =>
    coded 401 "invalid_confirmation_signature" message
  | .confirmationNotFound confirmationId =>
    coded 404 "confirmation_not_found" ("Confirmation " ++ confirmationId ++ " was not found")
  | .concurrentPaymentUpdate _ =>
    coded 409 "concurrent_payment_update"
      "Payment changed concurrently; retrieve it before retrying"
  | .simulatedPaymentTimeout _ =>
    coded 504 "payment_timeout" "Payment outcome is uncertain; retry with the same idempotency key"
  | .invalidWebhookSignature message => coded 401 "invalid_webhook_signature" message
  | .invalidWebhookPayload message => coded 422 "invalid_webhook_payload" message
  | .webhookEventCollision _ =>
    coded 409 "webhook_event_collision" "Webhook event ID was reused with different content"
  | .webhookVersionConflict _ =>
    coded 409 "webhook_version_conflict" "Payment version conflicts with the merchant projection"
  | .concurrentWebhookConsumer _ =>
    coded 409 "concurrent_webhook_consumer"
      "Merchant projection changed concurrently; retry the event"
  | .webhookDeliveryNotReady _ =>
    coded 409 "webhook_delivery_not_ready" "Webhook event is not ready for a delivery attempt"
  | .webhookEventNotFound eventId =>
    coded 404 "webhook_event_not_found" ("Webhook event " ++ eventId ++ " was not found")
  | .simulatedConsumerPersistence =>
    coded 503 "simulated_consumer_failure" "Consumer transaction failed before commit"
  | .settlementBatchNotFound batchId =>
    coded 404 "settlement_batch_not_found" ("Settlement batch " ++ batchId ++ " was not found")
  | .settlementPaymentNotFound paymentId =>
    coded 422 "settlement_payment_not_found"
      ("Settlement payment " ++ paymentId ++ " was not found")
  | .settlementPaymentOutsideCutoff paymentId =>
    coded 422 "settlement_payment_outside_cutoff"
      ("Settlement payment " ++ paymentId ++ " was created after the cutoff")
  | .valueError _ | .assertionError | .runtimeError _ | .integrityError | .staleData
  | .storageFailure | .lookupError _ | .indexError | .receiverError => unhandled

/-- The answer to whatever a route raises. -/
def handle : ApiError → ErrorAnswer
  | .service error => handleService error
  | .failureInjectionDisabled =>
    coded 403 "failure_injection_disabled" "Test failure controls are disabled"
  | .invalidConfirmationPayload message => coded 422 "invalid_confirmation_payload" message
  | .merchantProjectionNotFound paymentId =>
    coded 404 "merchant_projection_not_found"
      ("Merchant projection " ++ paymentId ++ " was not found")
  | .requestValidation => { status := 422, content := .validation }
  | .internal => unhandled

/-! ## Statuses -/

/-- No exception is answered as a success. -/
theorem handle_refuses (error : ApiError) : 400 ≤ (handle error).status := by
  cases error with
  | service error =>
    cases error with
    | domain error => cases error <;> exact Nat.le_of_ble_eq_true rfl
    | _ => exact Nat.le_of_ble_eq_true rfl
  | _ => exact Nat.le_of_ble_eq_true rfl

end PaymentLab.Api
