import PaymentLab.Api.Handlers
import PaymentLab.Api.Schemas
import PaymentLab.Runs.Courier
import PaymentLab.Services.Queries

/-!
# The routes

`api/routes.py` up to the call of a service and from its result on: what a request must be to reach
a service (`Call.admit`), in the order FastAPI asks for it, and what a result is answered with. A
dependency that raises comes before the errors of the parameters, which come together; a body that is
no JSON comes before both.

What runs in between is a party of the platform, or a reading of the store.
-/

namespace PaymentLab.Api

/-- What `create_app` keeps in the state of the application: whether failures may be injected, and
the two secrets. -/
structure App where
  failureInjectionEnabled : Bool
  webhookSigningSecret : String
  confirmationSigningSecret : String

/-- A body that FastAPI decodes before the route sees it. The routes that check a signature take the
bytes as they are instead. -/
inductive HttpBody where
  | absent
  /-- no JSON text -/
  | malformed
  | json (value : Json)

/-- A request of the API: the parameters of the path, the headers as they were sent, the body. -/
inductive Call where
  | health
  | createPayment (key failure : Option String) (body : HttpBody)
  | captureAuthorization (paymentId : String) (key failure : Option String)
  | cancelAuthorization (paymentId : String) (key failure : Option String)
  | refundCapture (paymentId : String) (key failure : Option String) (body : HttpBody)
  | retrievePayment (paymentId : String)
  | retrieveLedger (paymentId : String)
  | receivePaymentConfirmation (body : Bytes) (signature : Option String)
  | retrieveConfirmationReceipt (confirmationId : String)
  | retrievePaymentConfirmation (confirmationId : String)
  | retrieveWebhookEvents
  | retrieveWebhookAttempts (eventId : String)
  | receiveWebhook (body : Bytes) (signature fault : Option String)
  | deliverWebhookEvent (eventId : String) (fault : Option String)
  | retrieveMerchantProjection (paymentId : String)
  | importSettlementBatch (body : HttpBody)
  | retrieveSettlementBatch (batchId : String)
  | createReconciliationReport (body : HttpBody)

/-- What the handling of a request reads and draws: the clocks of the application, the wall clock, the
generated values, and whether the driver refuses the consumer's write. -/
structure Readings where
  paymentClock : Datetime
  /-- the reading of the route -/
  confirmationClock : Datetime
  /-- the reading under the writer reservation -/
  acceptanceClock : Datetime
  claimedAt : Instant
  now : Instant
  draws : Draws
  hex : String
  rowDraws : Nat → String
  refused : Bool

/-- A question that one reading of the store answers: nothing is written, and no session outlives it. -/
inductive Question where
  | health
  | payment (paymentId : String)
  | ledger (paymentId : String)
  | receipt (confirmationId : String)
  | confirmation (confirmationId : String)
  | events
  | attempts (eventId : String)
  | projection (paymentId : String)
  | batch (batchId : String)

/-- What a request has become once it is admitted: a call of a service, or a question. -/
inductive Handling where
  | client (client : Client)
  | courier (courier : Courier)
  | consumer (thread : ConsumerThread)
  | asking (question : Question)
  /-- the import, then the reading of its rows -/
  | importing (request : SettlementBatchCreateRequest) (readings : Readings)
      (imported : Option SettlementBatchRecord)
  /-- the comparison, then the section -/
  | reporting (batchId : String) (clock : Instant) (report : Option ReconciliationReport)

/-! ## Dependencies -/

/-- The members of `FailurePoint`. -/
def failurePoints : List FailurePoint := [.beforeCommit, .afterCommit]

/-- The control text of a delivery fault. -/
def deliveryFaultText : DeliveryFault → String
  | .beforeDelivery => "before_delivery"
  | .ackLostAfterConsumer => "ack_lost_after_consumer"

/-- The members of `DeliveryFault`. -/
def deliveryFaults : List DeliveryFault := [.beforeDelivery, .ackLostAfterConsumer]

/-- `ConsumerFault`. -/
inductive ConsumerFault where
  | afterInbox
  deriving DecidableEq, Repr

/-- The control text of a consumer fault. -/
def consumerFaultText : ConsumerFault → String
  | .afterInbox => "after_inbox"

/-- A test control: its header, and whether the application allows it. -/
def resolveControl {α : Type} (app : App) (members : List α) (text : α → String) :
    Option String → Except ApiError (Option α)
  | none => .ok none
  | some header =>
    match Json.memberOf members text header with
    | none => .error .requestValidation
    | some control =>
      if app.failureInjectionEnabled then .ok (some control) else .error .failureInjectionDisabled

/-- `resolve_failure_point`. -/
def resolveFailurePoint (app : App) : Option String → Except ApiError (Option FailurePoint) :=
  resolveControl app failurePoints FailurePoint.value

/-- `resolve_delivery_fault`. -/
def resolveDeliveryFault (app : App) : Option String → Except ApiError (Option DeliveryFault) :=
  resolveControl app deliveryFaults deliveryFaultText

/-- `resolve_consumer_fault`. -/
def resolveConsumerFault (app : App) : Option String → Except ApiError (Option ConsumerFault) :=
  resolveControl app [.afterInbox] consumerFaultText

/-- A value that validates. -/
def validated {α : Type} (value : Option α) : Except ApiError α :=
  match value with
  | some a => .ok a
  | none => .error .requestValidation

/-- `IdempotencyKey`. -/
def readKey (header : Option String) : Except ApiError (Text 8 128) :=
  validated (header.bind (readLength 8 128))

/-- A body that is no JSON is refused before anything else. -/
def HttpBody.decoded : HttpBody → Except ApiError Unit
  | .malformed => .error .requestValidation
  | _ => .ok ()

/-- The validated body. -/
def HttpBody.read {α : Type} (body : HttpBody) (validate : Json → Option α) : Except ApiError α :=
  match body with
  | .json value => validated (validate value)
  | _ => .error .requestValidation

/-! ## Admission -/

/-- An exception of a service. -/
def liftError {α : Type} : Except ServiceError α → Except ApiError α
  | .ok a => .ok a
  | .error e => .error (.service e)

/-- A call of a service on a new session. -/
def clientOf (request : Request) : Handling :=
  .client { request := request, identity := ∅, phase := .ready }

section Admission

variable (app : App) (pydantic : Pydantic) (lib : StandardLibrary)

/-- `receive_payment_confirmation` up to `process_confirmation`. -/
def admitConfirmation (readings : Readings) (body : Bytes) (signature : Option String) :
    Except ApiError Handling := do
  match readings.confirmationClock with
  | .naive _ =>
    .error (.service (.valueError "Confirmation clock must be a timezone-aware datetime"))
  | .aware receivedAt =>
    liftError (verifyConfirmationSignature lib.hmacSha256 lib.readInt body signature
      app.confirmationSigningSecret (.aware receivedAt))
    match PaymentConfirmationRequest.validateJson pydantic body with
    | none =>
      .error (.invalidConfirmationPayload
        "Confirmation payload does not match the required contract")
    | some payload =>
      return clientOf
        (.process payload.command none (some readings.acceptanceClock) readings.draws)

/-- What becomes of a request before a service is called. -/
def Call.admit (readings : Readings) : Call → Except ApiError Handling
  | .health => .ok (.asking .health)
  | .createPayment key failure body => do
    body.decoded
    let failurePoint ← resolveFailurePoint app failure
    let key ← readKey key
    let payload ← body.read (AuthorizePaymentRequest.validate pydantic)
    return clientOf
      (.authorize payload.command key.val failurePoint readings.paymentClock readings.draws)
  | .captureAuthorization paymentId key failure => do
    let failurePoint ← resolveFailurePoint app failure
    let key ← readKey key
    return clientOf
      (.capture paymentId key.val failurePoint readings.claimedAt readings.now readings.draws)
  | .cancelAuthorization paymentId key failure => do
    let failurePoint ← resolveFailurePoint app failure
    let key ← readKey key
    return clientOf
      (.cancel paymentId key.val failurePoint readings.claimedAt readings.now readings.draws)
  | .refundCapture paymentId key failure body => do
    body.decoded
    let failurePoint ← resolveFailurePoint app failure
    let key ← readKey key
    let payload ← body.read (RefundPaymentRequest.validate pydantic)
    return clientOf
      (.refund paymentId payload.amount.val key.val failurePoint readings.claimedAt readings.now
        readings.draws)
  | .retrievePayment paymentId => .ok (.asking (.payment paymentId))
  | .retrieveLedger paymentId => .ok (.asking (.ledger paymentId))
  | .receivePaymentConfirmation body signature =>
    admitConfirmation app pydantic lib readings body signature
  | .retrieveConfirmationReceipt confirmationId => .ok (.asking (.receipt confirmationId))
  | .retrievePaymentConfirmation confirmationId => .ok (.asking (.confirmation confirmationId))
  | .retrieveWebhookEvents => .ok (.asking .events)
  | .retrieveWebhookAttempts eventId => .ok (.asking (.attempts eventId))
  | .receiveWebhook body signature fault => do
    let fault ← resolveConsumerFault app fault
    let signature ← validated (signature.filter fun text => decide (1 ≤ text.length))
    let call : ConsumerCall :=
      { payload := body
        signatureHeader := signature
        secret := app.webhookSigningSecret
        now := .aware readings.now
        faults := { afterInbox := decide (fault = some .afterInbox), storage := readings.refused } }
    return .consumer { call := call, phase := .ready }
  | .deliverWebhookEvent eventId fault => do
    let fault ← resolveDeliveryFault app fault
    let request : CourierRequest :=
      { eventId := eventId
        secret := app.webhookSigningSecret
        now := .aware readings.now
        fault := fault
        hex := readings.hex
        refused := readings.refused }
    return .courier { request := request, identity := ∅, phase := .ready, consumer := none }
  | .retrieveMerchantProjection paymentId => .ok (.asking (.projection paymentId))
  | .importSettlementBatch body => do
    body.decoded
    let request ← body.read (SettlementBatchCreateRequest.validate pydantic)
    return .importing request readings none
  | .retrieveSettlementBatch batchId => .ok (.asking (.batch batchId))
  | .createReconciliationReport body => do
    body.decoded
    let request ← body.read ReconciliationRequest.validate
    return .reporting request.settlementBatchId.val readings.now none

end Admission

/-! ## Answers -/

/-- The content of an answer, by the schema that renders it. -/
inductive Body where
  | health
  | payment (payment : PaymentResponse)
  | ledger (entries : List LedgerEntryRecord)
  /-- `PaymentConfirmationResponse` -/
  | acknowledgement (accepted : Bool)
  | receipt (receipt : ConfirmationReceiptResponse)
  | confirmation (confirmation : PaymentConfirmationDiagnosticResponse)
  | events (events : List WebhookEventResponse)
  | attempts (attempts : List WebhookDeliveryAttemptResponse)
  /-- `WebhookConsumerResponse`, with every field of the outcome -/
  | consumed (outcome : ConsumerOutcome)
  /-- `WebhookDeliveryResponse`, with every field of the result -/
  | delivery (result : DeliveryResult)
  /-- `MerchantProjectionResponse`, with every field of the row -/
  | projection (projection : MerchantPaymentProjectionRecord)
  | batch (batch : SettlementBatchResponse)
  /-- `ReconciliationReportResponse`, with every field of the report, and its section -/
  | report (report : ReconciliationReport) (confirmationSection : ConfirmationReport)
  | error (content : ErrorContent)
  deriving DecidableEq, Repr

/-- An answer: its status, whether it has the header `Idempotent-Replayed: true`, its content. -/
structure Response where
  status : Nat
  replayed : Bool
  body : Body
  deriving DecidableEq, Repr

/-- An answer with 200. -/
def Response.ok (body : Body) : Response := { status := 200, replayed := false, body := body }

/-- The answer to an exception. -/
def Response.error (error : ApiError) : Response :=
  { status := (handle error).status, replayed := false, body := .error (handle error).content }

/-- The answer to a service error. -/
def Response.serviceError (error : ServiceError) : Response := .error (.service error)

/-- An answer, or that of the exception in its place. -/
def Response.ofExcept {α : Type} (render : α → Body) : Except ServiceError α → Response
  | .ok a => .ok (render a)
  | .error e => .serviceError e

/-- `create_payment` and `_lifecycle_response`: a creation that is no replay is answered with 201. -/
def Response.ofOutcome (created : Bool) (outcome : PaymentOutcome) : Response where
  status := if created && !outcome.replayed then 201 else 200
  replayed := outcome.replayed
  body := .payment (.ofOutcome outcome.payment)

/-- `receive_payment_confirmation` after `process_confirmation`. -/
def Response.ofConfirmation (pydantic : Pydantic) (outcome : ConfirmationOutcome) : Response :=
  match readAcknowledgement pydantic outcome.confirmation.responseSnapshot with
  | some accepted => { status := 200, replayed := outcome.replayed, body := .acknowledgement accepted }
  | none => .error .internal

/-- Whether a request is that of `create_payment`. -/
def isCreation : Request → Bool
  | .authorize .. => true
  | _ => false

/-- The answer to a call of a service. -/
def Response.ofResult (pydantic : Pydantic) (request : Request) :
    Except ServiceError Answer → Response
  | .error e => .serviceError e
  | .ok (.payment outcome) => .ofOutcome (isCreation request) outcome
  | .ok (.confirmation outcome) => .ofConfirmation pydantic outcome
  -- no route makes the other calls
  | .ok (.accepted _) | .ok (.identities _) => .error .internal

/-- The answer to a question. -/
def Question.answer (db : Database) : Question → Response
  | .health => .ok .health
  | .payment paymentId => .ofExcept (.payment ∘ .fromRecord) (readPayment db paymentId)
  | .ledger paymentId => .ofExcept .ledger (getLedgerEntries db paymentId)
  | .receipt confirmationId =>
    .ofExcept (.receipt ∘ .fromRecord) (getConfirmationReceipt db confirmationId)
  | .confirmation confirmationId =>
    .ofExcept (.confirmation ∘ .fromRecord) (getConfirmation db confirmationId)
  | .events => .ok (.events ((getWebhookEvents db).map .fromRecord))
  | .attempts eventId =>
    .ofExcept (fun rows => .attempts (rows.map .fromRecord)) (getDeliveryAttempts db eventId)
  | .projection paymentId =>
    match getMerchantProjection db paymentId with
    | some row => .ok (.projection row)
    | none => .error (.merchantProjectionNotFound paymentId)
  | .batch batchId =>
    match getSettlementRecords db batchId with
    | .error e => .serviceError e
    | .ok records =>
      match db.settlementBatches.get batchId with
      | some row => .ok (.batch (.fromRecords row records))
      | none => .error .internal

end PaymentLab.Api
