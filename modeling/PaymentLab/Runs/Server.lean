import PaymentLab.Api.Routes
import PaymentLab.Runs.Platform

/-!
# The server

Any number of HTTP requests against one database, each handled transaction by transaction on a session
of its own, in any order. A request that is not admitted is answered when it arrives; one that is
admitted becomes a party of the platform, or a reading. Its handling may break off at any point, and
then promises no answer.

Seen through the parties, a run of the server is a run of the platform (`Served.running`): what holds
of every run of the platform holds behind the API.

On arrival the request is read, the dependencies are asked and the body is validated; nothing of the
store is touched in it. What a request that breaks off has committed stays committed, and a client
cannot tell it from one that has not begun. Connections, timeouts and the order in which answers
reach their clients are not part of the server.
-/

namespace PaymentLab.Api

open Relational Transactional Transactional.Service

/-! ## Connections -/

/-- How the handling of a request ended. What a client that hears nothing should make of it is not
part of the server. -/
inductive Ending where
  | answered (response : Response)
  /-- a crash or a storage failure; no answer is promised -/
  | broken

/-- A request, what it has become, and how that ended. The readings are the clock and the generated
values it will draw, fixed on arrival and otherwise arbitrary. -/
structure Connection where
  call : Call
  readings : Readings
  handling : Handling
  ending : Option Ending

section Next

variable (app : App) (pydantic : Pydantic) (sha256 : String → String) (lib : StandardLibrary)

/-- A request arrives. -/
def Connection.arrive (readings : Readings) (call : Call) : Connection :=
  match call.admit app pydantic lib readings with
  | .ok handling => { call := call, readings := readings, handling := handling, ending := none }
  | .error error =>
    { call := call
      readings := readings
      handling := .asking .health
      ending := some (.answered (.error error)) }

/-- The answer of a call of a service, once it has ended. -/
def clientEnding (client : Client) : Option Ending :=
  match client.phase with
  | .finished result => some (.answered (.ofResult pydantic client.request result))
  | .interrupted => some .broken
  | _ => none

/-- What the receiver of a courier raised. -/
def raised (courier : Courier) : ServiceError :=
  match courier.consumer with
  | some ⟨_, .finished (.error error)⟩ => error
  | _ => .receiverError

/-- The answer of a delivery, once it has ended: an exception of the receiver goes through it. -/
def courierEnding (before after : Courier) : Option Ending :=
  match after.phase with
  | .finished (.ok result) => some (.answered (.ok (.delivery result)))
  | .finished (.error .receiverError) => some (.answered (.serviceError (raised before)))
  | .finished (.error error) => some (.answered (.serviceError error))
  | .interrupted => some .broken
  | _ => none

/-- The answer of the consumer, once its call has ended. -/
def consumerEnding (thread : ConsumerThread) : Option Ending :=
  match thread.phase with
  | .finished result => some (.answered (.ofExcept .consumed result))
  | _ => none

/-- The answer to an import: its rows, as they are read back. -/
def importAnswer (db : Database) (batch : SettlementBatchRecord) : Response :=
  match getSettlementRecords db batch.id with
  | .ok records =>
    { status := 201, replayed := false, body := .batch (.fromRecords batch records) }
  | .error error => .serviceError error

/-- The next thing the handling of a request does. -/
def Handling.next (db : Database) : Handling → Database × Handling × Option Ending
  | .client c =>
    let (db', after) := c.act sha256 db
    (db', .client after, clientEnding pydantic after)
  | .courier c =>
    let (db', after) := c.next lib db
    (db', .courier after, courierEnding c after)
  | .consumer thread =>
    let (db', after) := thread.act lib db
    (db', .consumer after, consumerEnding after)
  | .asking question => (db, .asking question, some (.answered (question.answer db)))
  | .importing request readings none =>
    let (result, session) := createSettlementBatch request.cutoff
      (request.entries.val.map SettlementEntryRequest.input) readings.now readings.hex
      readings.rowDraws (Session.start db ∅)
    match result with
    | .ok batch => (session.committed, .importing request readings (some batch), none)
    | .error error =>
      (session.committed, .importing request readings none,
        some (.answered (.serviceError error)))
  | .importing request readings (some batch) =>
    (db, .importing request readings (some batch), some (.answered (importAnswer db batch)))
  | .reporting batchId clock none =>
    match reconcileSettlementBatch db batchId with
    | .ok report => (db, .reporting batchId clock (some report), none)
    | .error error => (db, .reporting batchId clock none, some (.answered (.serviceError error)))
  | .reporting batchId clock (some report) =>
    let (result, session) := confirmationSection batchId (.aware clock) (Session.start db ∅)
    (session.committed, .reporting batchId clock (some report),
      some (.answered (.ofExcept (.report report) result)))

/-- The handling of a request that breaks off. -/
def Handling.broken : Handling → Handling
  | .client c => .client { c with phase := .interrupted }
  | .courier c => .courier { c with phase := .interrupted, consumer := none }
  | handling => handling

/-- What one connection does: the next step of its handling, which may answer it, or a break, after
which nothing of it happens any more. -/
inductive Server : Pool.Protocol Database Connection
  | next {db db' : Database} {connection : Connection} {handling : Handling}
      {ending : Option Ending} : connection.ending = none →
      connection.handling.next pydantic sha256 lib db = (db', handling, ending) →
      Server db connection db' { connection with handling := handling, ending := ending }
  | breaks {db : Database} {connection : Connection} : connection.ending = none →
      Server db connection db
        { connection with handling := connection.handling.broken, ending := some .broken }

/-- The next thing a connection does, when it is not answered. -/
def Connection.next (db : Database) (connection : Connection) : Option (Database × Connection) :=
  match connection.ending with
  | some _ => none
  | none =>
    let (db', handling, ending) := connection.handling.next pydantic sha256 lib db
    some (db', { connection with handling := handling, ending := ending })

variable {pydantic sha256 lib}

theorem Connection.next_eq_some {db db' : Database} {connection after : Connection}
    (h : connection.next pydantic sha256 lib db = some (db', after)) :
    Server pydantic sha256 lib db connection db' after := by
  unfold Connection.next at h
  split at h
  · cases h
  · next unended =>
    obtain ⟨d, handling, ending, hnext⟩ : ∃ d handling ending,
      connection.handling.next pydantic sha256 lib db = (d, handling, ending) := ⟨_, _, _, rfl⟩
    rw [hnext] at h
    cases h
    exact .next unended hnext

end Next

/-- The party a request has become. -/
def Handling.party : Handling → Party
  | .client c => .client c
  | .courier c => .courier c
  | .consumer thread => .consumer thread
  | .asking _ | .importing .. | .reporting .. => .office

/-- The party of a connection. -/
def Connection.party (connection : Connection) : Party := connection.handling.party

/-! ## Steps of the platform -/

section Steps

variable {app : App} {pydantic : Pydantic} {sha256 : String → String} {lib : StandardLibrary}
  {db db' : Database}

/-- A handling that has not ended. -/
def Handling.Unfinished : Handling → Prop
  | .client c => ¬c.phase.Ended
  | .courier c => ¬c.phase.Ended
  | .consumer thread => ∀ result, thread.phase ≠ .finished result
  | _ => True

/-- A connection that is not answered is still being handled. -/
def Connection.Open (connection : Connection) : Prop :=
  connection.ending = none → connection.handling.Unfinished

theorem clientEnding_eq_none {client : Client} (h : clientEnding pydantic client = none) :
    ¬client.phase.Ended := by
  unfold clientEnding at h
  split at h
  · cases h
  · cases h
  · next hresult hinterrupted =>
    intro ended
    cases hphase : client.phase with
    | finished result => exact hresult result hphase
    | interrupted => exact hinterrupted hphase
    | _ => rw [hphase] at ended; exact ended

theorem courierEnding_eq_none {before after : Courier} (h : courierEnding before after = none) :
    ¬after.phase.Ended := by
  unfold courierEnding at h
  split at h
  · cases h
  · cases h
  · cases h
  · cases h
  · next hok _ herror hinterrupted =>
    intro ended
    cases hphase : after.phase with
    | finished result =>
      cases result with
      | ok result => exact hok result hphase
      | error e => exact herror e hphase
    | interrupted => exact hinterrupted hphase
    | _ => rw [hphase] at ended; exact ended

theorem consumerEnding_eq_none {thread : ConsumerThread} (h : consumerEnding thread = none) :
    ∀ result, thread.phase ≠ .finished result := by
  intro result hphase
  unfold consumerEnding at h
  rw [hphase] at h
  cases h

/-- What the next thing of a handling is. -/
inductive Handling.Does (pydantic : Pydantic) (sha256 : String → String) (lib : StandardLibrary)
    (db db' : Database) : Handling → Handling → Option Ending → Prop
  | client {client after : Client} : client.act sha256 db = (db', after) →
      Handling.Does pydantic sha256 lib db db' (.client client) (.client after)
        (clientEnding pydantic after)
  | courier {courier after : Courier} : courier.next lib db = (db', after) →
      Handling.Does pydantic sha256 lib db db' (.courier courier) (.courier after)
        (courierEnding courier after)
  | consumer {thread after : ConsumerThread} : thread.act lib db = (db', after) →
      Handling.Does pydantic sha256 lib db db' (.consumer thread) (.consumer after)
        (consumerEnding after)
  | asked {question : Question} : db' = db →
      Handling.Does pydantic sha256 lib db db' (.asking question) (.asking question)
        (some (.answered (question.answer db)))
  | imported {request : SettlementBatchCreateRequest} {readings : Readings}
      {batch : SettlementBatchRecord} : Imports db db' →
      db'.settlementBatches.get batch.id = some batch →
      Handling.Does pydantic sha256 lib db db' (.importing request readings none)
        (.importing request readings (some batch)) none
  | unimported {request : SettlementBatchCreateRequest} {readings : Readings} {e : ServiceError} :
      Imports db db' → db' = db →
      Handling.Does pydantic sha256 lib db db' (.importing request readings none)
        (.importing request readings none) (some (.answered (.serviceError e)))
  | listed {request : SettlementBatchCreateRequest} {readings : Readings}
      {batch : SettlementBatchRecord} : db' = db →
      Handling.Does pydantic sha256 lib db db' (.importing request readings (some batch))
        (.importing request readings (some batch)) (some (.answered (importAnswer db batch)))
  | compared {batchId : String} {clock : Instant} {report : Option ReconciliationReport}
      {ending : Option Ending} : db' = db →
      (ending = none ∨ ∃ e, ending = some (.answered (.serviceError e))) →
      Handling.Does pydantic sha256 lib db db' (.reporting batchId clock none)
        (.reporting batchId clock report) ending
  | reported {batchId : String} {clock : Instant} {report : ReconciliationReport}
      {result : Except ServiceError ConfirmationReport} : Reports db db' →
      SectionAnswered batchId (.aware clock) db db' result →
      Handling.Does pydantic sha256 lib db db' (.reporting batchId clock (some report))
        (.reporting batchId clock (some report))
        (some (.answered (.ofExcept (.report report) result)))

/-- **The next thing of a handling.** -/
theorem Handling.next_does {handling after : Handling} {ending : Option Ending}
    (h : handling.next pydantic sha256 lib db = (db', after, ending)) :
    Handling.Does pydantic sha256 lib db db' handling after ending := by
  unfold Handling.next at h
  cases handling with
  | client client =>
    obtain ⟨d, c, hact⟩ : ∃ d c, client.act sha256 db = (d, c) := ⟨_, _, rfl⟩
    simp only [hact] at h
    cases h
    exact .client hact
  | courier courier =>
    obtain ⟨d, c, hnext⟩ : ∃ d c, courier.next lib db = (d, c) := ⟨_, _, rfl⟩
    simp only [hnext] at h
    cases h
    exact .courier hnext
  | consumer thread =>
    obtain ⟨d, c, hact⟩ : ∃ d c, thread.act lib db = (d, c) := ⟨_, _, rfl⟩
    simp only [hact] at h
    cases h
    exact .consumer hact
  | asking question =>
    cases h
    exact .asked rfl
  | importing request readings imported =>
    cases imported with
    | none =>
      obtain ⟨r, s', hcreate⟩ : ∃ r s', createSettlementBatch request.cutoff
        (request.entries.val.map SettlementEntryRequest.input) readings.now readings.hex
        readings.rowDraws (Session.start db ∅) = (r, s') := ⟨_, _, rfl⟩
      have imports : Imports db s'.committed := .call (congrArg (·.2.committed) hcreate)
      simp only [hcreate] at h
      rcases createSettlementBatch_cases hcreate with ⟨e, rfl, same⟩ | ⟨batch, rfl, result⟩
      · cases h
        exact .unimported imports same
      · cases h
        exact .imported imports (Table.get_insert_self result.stored)
    | some batch =>
      cases h
      exact .listed rfl
  | reporting batchId clock report =>
    cases report with
    | none =>
      dsimp only at h
      cases hreport : reconcileSettlementBatch db batchId with
      | ok report =>
        rw [hreport] at h
        cases h
        exact .compared rfl (.inl rfl)
      | error e =>
        rw [hreport] at h
        cases h
        exact .compared rfl (.inr ⟨e, rfl⟩)
    | some report =>
      obtain ⟨r, s', hsection⟩ : ∃ r s', confirmationSection batchId (.aware clock)
        (Session.start db ∅) = (r, s') := ⟨_, _, rfl⟩
      have reports : Reports db s'.committed := .call (congrArg (·.2.committed) hsection)
      have answered := confirmationSection_cases hsection
      simp only [hsection] at h
      cases h
      exact .reported reports answered

/-- The next thing a handling does leaves it unfinished, unless it ends it. -/
theorem Handling.Does.unfinished {handling after : Handling} {ending : Option Ending}
    (h : Handling.Does pydantic sha256 lib db db' handling after ending) (unended : ending = none) :
    after.Unfinished := by
  cases h with
  | client => exact clientEnding_eq_none unended
  | courier => exact courierEnding_eq_none unended
  | consumer => exact consumerEnding_eq_none unended
  | asked => trivial
  | imported => trivial
  | unimported => trivial
  | listed => trivial
  | compared => trivial
  | reported => trivial

/-- Whether a step of the server is one of the platform: not a reading, and not the end of a handling
that keeps nothing between two of its steps. -/
def moves (before after : Connection) : Bool :=
  match before.handling, after.ending with
  | .client _, _ | .courier _, _ => true
  | .consumer _, some .broken | .importing _ _ none, some .broken
  | .reporting _ _ (some _), some .broken => false
  | .consumer _, _ | .importing _ _ none, _ | .reporting _ _ (some _), _ => true
  | .asking _, _ | .importing _ _ (some _), _ | .reporting _ _ none, _ => false

/-- **A step of the server, seen through the parties.** -/
theorem Server.platform {before after : Connection}
    (h : Server pydantic sha256 lib db before db' after) (opened : before.Open) :
    (moves before after = true → Platform sha256 lib db before.party db' after.party) ∧
      (moves before after = false → db' = db ∧ after.party = before.party) := by
  obtain ⟨call, readings, handling, ending⟩ := before
  cases h with
  | next unended hnext =>
    have unfinished : handling.Unfinished := opened unended
    cases Handling.next_does hnext with
    | client hact => exact ⟨fun _ => .client (.act unfinished hact), nofun⟩
    | courier hstep => exact ⟨fun _ => .courier (.next unfinished hstep), nofun⟩
    | @consumer _ after hact =>
      refine ⟨fun _ => .consume ⟨unfinished, hact⟩, fun hmoves => ?_⟩
      obtain ⟨call, phase⟩ := after
      cases phase <;> cases hmoves
    | asked hsame => exact ⟨nofun, fun _ => ⟨hsame, rfl⟩⟩
    | imported himports => exact ⟨fun _ => .imports himports, nofun⟩
    | unimported himports => exact ⟨fun _ => .imports himports, nofun⟩
    | listed hsame => exact ⟨nofun, fun _ => ⟨hsame, rfl⟩⟩
    | compared hsame => exact ⟨nofun, fun _ => ⟨hsame, rfl⟩⟩
    | reported hreports => exact ⟨fun _ => .reports hreports, nofun⟩
  | breaks unended =>
    have unfinished : handling.Unfinished := opened unended
    cases handling with
    | client client => exact ⟨fun _ => .client (.interrupt unfinished), nofun⟩
    | courier courier => exact ⟨fun _ => .courier (.crash unfinished), nofun⟩
    | consumer thread => exact ⟨nofun, fun _ => ⟨rfl, rfl⟩⟩
    | asking question => exact ⟨nofun, fun _ => ⟨rfl, rfl⟩⟩
    | importing _ _ imported => cases imported <;> exact ⟨nofun, fun _ => ⟨rfl, rfl⟩⟩
    | reporting _ _ report => cases report <;> exact ⟨nofun, fun _ => ⟨rfl, rfl⟩⟩

/-- A step leaves its connection open, or ended. -/
theorem Server.opened {connection after : Connection}
    (h : Server pydantic sha256 lib db connection db' after) : after.Open := by
  cases h with
  | next _ hnext => exact fun unended => (Handling.next_does hnext).unfinished unended
  | breaks =>
    intro unended
    cases unended

end Steps

/-! ## Admitted requests -/

section Admission

variable {app : App} {pydantic : Pydantic} {lib : StandardLibrary}

/-- The calls of a service that the routes make: their arguments are validated, and a failure point
needs an application that allows it. The services can be called in other ways, which the results
about the API do not speak of. -/
inductive ApiRequest (app : App) : Request → Prop
  | authorize (payload : AuthorizePaymentRequest) (key : Text 8 128)
      {failurePoint : Option FailurePoint} {clock : Datetime} {draws : Draws} :
      (failurePoint ≠ none → app.failureInjectionEnabled = true) →
      ApiRequest app (.authorize payload.command key.val failurePoint clock draws)
  | capture (paymentId : String) (key : Text 8 128) {failurePoint : Option FailurePoint}
      {claimedAt now : Instant} {draws : Draws} :
      (failurePoint ≠ none → app.failureInjectionEnabled = true) →
      ApiRequest app (.capture paymentId key.val failurePoint claimedAt now draws)
  | cancel (paymentId : String) (key : Text 8 128) {failurePoint : Option FailurePoint}
      {claimedAt now : Instant} {draws : Draws} :
      (failurePoint ≠ none → app.failureInjectionEnabled = true) →
      ApiRequest app (.cancel paymentId key.val failurePoint claimedAt now draws)
  | refund (paymentId : String) (payload : RefundPaymentRequest) (key : Text 8 128)
      {failurePoint : Option FailurePoint} {claimedAt now : Instant} {draws : Draws} :
      (failurePoint ≠ none → app.failureInjectionEnabled = true) →
      ApiRequest app (.refund paymentId payload.amount.val key.val failurePoint claimedAt now draws)
  | process (payload : PaymentConfirmationRequest) {clock : Datetime} {draws : Draws} :
      ApiRequest app (.process payload.command none (some clock) draws)

/-- What an admitted request has become, before it is handled. -/
inductive Admitted (app : App) : Handling → Prop
  | client {request : Request} : ApiRequest app request → Admitted app (clientOf request)
  | courier {request : CourierRequest} :
      (request.fault ≠ none → app.failureInjectionEnabled = true) →
      Admitted app
        (.courier { request := request, identity := ∅, phase := .ready, consumer := none })
  | consumer {call : ConsumerCall} :
      (call.faults.afterInbox = true → app.failureInjectionEnabled = true) →
      Admitted app (.consumer { call := call, phase := .ready })
  | asking (question : Question) : Admitted app (.asking question)
  | importing (request : SettlementBatchCreateRequest) (readings : Readings) :
      Admitted app (.importing request readings none)
  | reporting (batchId : String) (clock : Instant) : Admitted app (.reporting batchId clock none)

/-- A test control is resolved where the application allows it. -/
theorem resolveControl_eq_ok {α : Type} {members : List α} {text : α → String}
    {header : Option String} {control : Option α}
    (h : resolveControl app members text header = .ok control) :
    control ≠ none → app.failureInjectionEnabled = true := by
  unfold resolveControl at h
  split at h
  · cases h
    exact fun hne => absurd rfl hne
  · split at h
    · cases h
    · split at h
      · next henabled => exact fun _ => henabled
      · cases h

/-- **What is admitted.** -/
theorem Call.admit_eq_ok {readings : Readings} {call : Call} {handling : Handling}
    (h : call.admit app pydantic lib readings = .ok handling) : Admitted app handling := by
  unfold Call.admit at h
  cases call with
  | health => cases h; exact .asking _
  | createPayment key failure body =>
    obtain ⟨_, _, h⟩ := except_bind_eq_ok h
    obtain ⟨failurePoint, hresolve, h⟩ := except_bind_eq_ok h
    obtain ⟨key, _, h⟩ := except_bind_eq_ok h
    obtain ⟨payload, _, h⟩ := except_bind_eq_ok h
    cases h
    exact .client (.authorize payload key (resolveControl_eq_ok hresolve))
  | captureAuthorization paymentId key failure =>
    obtain ⟨failurePoint, hresolve, h⟩ := except_bind_eq_ok h
    obtain ⟨key, _, h⟩ := except_bind_eq_ok h
    cases h
    exact .client (.capture paymentId key (resolveControl_eq_ok hresolve))
  | cancelAuthorization paymentId key failure =>
    obtain ⟨failurePoint, hresolve, h⟩ := except_bind_eq_ok h
    obtain ⟨key, _, h⟩ := except_bind_eq_ok h
    cases h
    exact .client (.cancel paymentId key (resolveControl_eq_ok hresolve))
  | refundCapture paymentId key failure body =>
    obtain ⟨_, _, h⟩ := except_bind_eq_ok h
    obtain ⟨failurePoint, hresolve, h⟩ := except_bind_eq_ok h
    obtain ⟨key, _, h⟩ := except_bind_eq_ok h
    obtain ⟨payload, _, h⟩ := except_bind_eq_ok h
    cases h
    exact .client (.refund paymentId payload key (resolveControl_eq_ok hresolve))
  | retrievePayment => cases h; exact .asking _
  | retrieveLedger => cases h; exact .asking _
  | receivePaymentConfirmation body signature =>
    have h : admitConfirmation app pydantic lib readings body signature = .ok handling := h
    unfold admitConfirmation at h
    split at h
    · cases h
    · obtain ⟨_, _, h⟩ := except_bind_eq_ok h
      split at h
      · cases h
      · next payload _ =>
        cases h
        exact .client (.process payload)
  | retrieveConfirmationReceipt => cases h; exact .asking _
  | retrievePaymentConfirmation => cases h; exact .asking _
  | retrieveWebhookEvents => cases h; exact .asking _
  | retrieveWebhookAttempts => cases h; exact .asking _
  | receiveWebhook body signature fault =>
    obtain ⟨fault, hresolve, h⟩ := except_bind_eq_ok h
    obtain ⟨signature, _, h⟩ := except_bind_eq_ok h
    cases h
    refine .consumer fun hfault => resolveControl_eq_ok hresolve ?_
    rw [of_decide_eq_true hfault]
    exact Option.some_ne_none _
  | deliverWebhookEvent eventId fault =>
    obtain ⟨fault, hresolve, h⟩ := except_bind_eq_ok h
    cases h
    exact .courier (resolveControl_eq_ok hresolve)
  | retrieveMerchantProjection => cases h; exact .asking _
  | importSettlementBatch body =>
    obtain ⟨_, _, h⟩ := except_bind_eq_ok h
    obtain ⟨request, _, h⟩ := except_bind_eq_ok h
    cases h
    exact .importing request readings
  | retrieveSettlementBatch => cases h; exact .asking _
  | createReconciliationReport body =>
    obtain ⟨_, _, h⟩ := except_bind_eq_ok h
    obtain ⟨request, _, h⟩ := except_bind_eq_ok h
    cases h
    exact .reporting _ _

/-- What is admitted has begun nothing. -/
theorem Admitted.idle {handling : Handling} (h : Admitted app handling) :
    handling.party.Idle ∧ handling.Unfinished := by
  cases h with
  | client => exact ⟨⟨rfl, rfl⟩, id⟩
  | courier => exact ⟨⟨rfl, rfl⟩, id⟩
  | consumer => exact ⟨rfl, nofun⟩
  | asking => exact ⟨trivial, trivial⟩
  | importing => exact ⟨trivial, trivial⟩
  | reporting => exact ⟨trivial, trivial⟩

variable (app pydantic lib) in
/-- A request arrives admitted, or answered. -/
theorem Connection.arrive_cases (readings : Readings) (call : Call) :
    Admitted app (arrive app pydantic lib readings call).handling ∧
      (arrive app pydantic lib readings call).Open := by
  unfold arrive
  split
  · next handling hadmit =>
    have admitted := Call.admit_eq_ok hadmit
    exact ⟨admitted, fun _ => admitted.idle.2⟩
  · exact ⟨.asking _, nofun⟩

end Admission

/-! ## What a connection holds -/

/-- What admission asks of a party, and its handling keeps: the faults it carries are ones the
application allows. -/
def Handling.Proper (app : App) : Handling → Prop
  | .client c => ApiRequest app c.request
  | .courier c => c.request.fault ≠ none → app.failureInjectionEnabled = true
  | .consumer thread => thread.call.faults.afterInbox = true → app.failureInjectionEnabled = true
  | _ => True

/-- What holds of a connection beside any other: it is open while unanswered, admitted properly, and
its party is coherent on the platform. -/
structure Connection.Coherent (app : App) (lib : StandardLibrary) (db : Database)
    (connection : Connection) : Prop where
  opened : connection.Open
  proper : connection.handling.Proper app
  party : connection.party.Coherent lib db

section Coherent

variable {app : App} {pydantic : Pydantic} {sha256 : String → String} {lib : StandardLibrary}
  {db db' : Database}

theorem Admitted.proper {handling : Handling} (h : Admitted app handling) : handling.Proper app := by
  cases h with
  | client proper => exact proper
  | courier proper => exact proper
  | consumer proper => exact proper
  | asking => trivial
  | importing => trivial
  | reporting => trivial

/-- The next thing a courier does is for the same request. -/
theorem Courier.next_request {courier after : Courier} (unfinished : ¬courier.phase.Ended)
    (h : courier.next lib db = (db', after)) : after.request = courier.request := by
  cases Courier.next_cases unfinished h with
  | called _ _ _ hafter => rw [hafter]
  | consumed _ _ _ hafter => rw [hafter]
  | dispatched _ _ hafter => rw [hafter]

/-- The next thing of a handling keeps what admission asked of it. -/
theorem Handling.Does.proper {handling after : Handling} {ending : Option Ending}
    (h : Handling.Does pydantic sha256 lib db db' handling after ending)
    (unfinished : handling.Unfinished) (proper : handling.Proper app) : after.Proper app := by
  cases h with
  | client hact =>
    cases hact
    exact proper
  | courier hnext =>
    unfold Handling.Proper
    dsimp only
    rw [Courier.next_request unfinished hnext]
    exact proper
  | consumer hact =>
    unfold Handling.Proper
    dsimp only
    rw [(ConsumerThread.act_moves ⟨unfinished, hact⟩).1]
    exact proper
  | asked => trivial
  | imported => trivial
  | unimported => trivial
  | listed => trivial
  | compared => trivial
  | reported => trivial

theorem Handling.broken_proper {handling : Handling} (h : handling.Proper app) :
    handling.broken.Proper app := by
  cases handling with
  | _ => exact h

/-- What others do leaves a connection coherent. -/
theorem Connection.Coherent.kept {connection : Connection} (h : connection.Coherent app lib db)
    (evolves : Evolves db db') : connection.Coherent app lib db' :=
  ⟨h.opened, h.proper, h.party.kept evolves⟩

/-- **A step of the server** evolves the store and leaves its connection coherent. -/
theorem Server.coherent {before after : Connection}
    (h : Server pydantic sha256 lib db before db' after) (tracked : Tracked db)
    (coherent : before.Coherent app lib db) : Evolves db db' ∧ after.Coherent app lib db' := by
  have proper : after.handling.Proper app := by
    cases h with
    | next unended hnext =>
      exact (Handling.next_does hnext).proper (coherent.opened unended) coherent.proper
    | breaks => exact Handling.broken_proper coherent.proper
  obtain ⟨moved, still⟩ := h.platform coherent.opened
  cases hmoves : moves before after with
  | true =>
    obtain ⟨evolves, party⟩ := (moved hmoves).coherent tracked coherent.party
    exact ⟨evolves, h.opened, proper, party⟩
  | false =>
    obtain ⟨hsame, hparty⟩ := still hmoves
    refine ⟨.of_same tracked (by rw [hsame]) (by rw [hsame]) (by rw [hsame])
      (.of_same (by rw [hsame])), h.opened, proper, ?_⟩
    rw [hsame, hparty]
    exact coherent.party

theorem Admitted.coherent {handling : Handling} (h : Admitted app handling) :
    handling.party.Coherent lib db := by
  cases h with
  | client => exact ⟨.inr (.inl rfl), sound_empty _⟩
  | courier => exact Courier.Coherent.idle rfl (.inl rfl)
  | consumer => exact .ready _
  | asking => trivial
  | importing => trivial
  | reporting => trivial

/-- **What a step of the server commits**: what a validated request may, or nothing of the service. -/
theorem Server.commits {before after : Connection}
    (h : Server pydantic sha256 lib db before db' after) (coherent : before.Coherent app lib db) :
    Background db db' ∨ ∃ client, before.handling = .client client ∧
      ApiRequest app client.request ∧ Commits sha256 client.request db db' := by
  obtain ⟨call, readings, handling, ending⟩ := before
  cases h with
  | breaks => exact .inl (.refl db)
  | next unended hnext =>
    have unfinished : handling.Unfinished := coherent.opened unended
    cases Handling.next_does hnext with
    | @client client after hact =>
      have party : client.Coherent db := coherent.party
      have result := Client.act_commits sha256 party.admits unfinished party.sound
      rw [hact] at result
      exact .inr ⟨client, rfl, coherent.proper, result.commits⟩
    | courier hstep => exact .inl (Courier.Step.next unfinished hstep).background.1
    | consumer hact =>
      rw [(ConsumerThread.act_moves ⟨unfinished, hact⟩).2.rest]
      exact .inl ⟨rfl, rfl, rfl, ⟨rfl, rfl⟩, rfl⟩
    | asked hsame => exact .inl (hsame ▸ .refl db)
    | imported himports => exact .inl himports.background
    | unimported himports => exact .inl himports.background
    | listed hsame => exact .inl (hsame ▸ .refl db)
    | compared hsame => exact .inl (hsame ▸ .refl db)
    | reported hreports => exact .inl hreports.background

theorem Server.effects {before after : Connection}
    (h : Server pydantic sha256 lib db before db' after) (coherent : before.Coherent app lib db) :
    Relation.ReflTransGen (Effect sha256) db db' := by
  rcases h.commits coherent with background | ⟨_, _, _, commits⟩
  · exact .single (.background background)
  · exact commits.effects

/-- The step of a call of a service. -/
theorem Server.client_cases {before after : Connection}
    (h : Server pydantic sha256 lib db before db' after) (coherent : before.Coherent app lib db)
    {client : Client} (handled : before.handling = .client client) :
    ¬client.phase.Ended ∧ client.Coherent db ∧ ((db' = db ∧ after.ending = some .broken) ∨
      (client.act sha256 db).1 = db' ∧
        after.ending = clientEnding pydantic (client.act sha256 db).2) := by
  obtain ⟨call, readings, handling, ending⟩ := before
  obtain rfl : handling = .client client := handled
  cases h with
  | breaks unended => exact ⟨coherent.opened unended, coherent.party, .inl ⟨rfl, rfl⟩⟩
  | next unended hnext =>
    cases hnext
    exact ⟨coherent.opened unended, coherent.party, .inr ⟨rfl, rfl⟩⟩

/-- The step of a delivery. -/
theorem Server.courier_cases {before after : Connection}
    (h : Server pydantic sha256 lib db before db' after) (coherent : before.Coherent app lib db)
    {courier : Courier} (handled : before.handling = .courier courier) :
    ¬courier.phase.Ended ∧ ((db' = db ∧ after.ending = some .broken) ∨ ∃ next,
      courier.next lib db = (db', next) ∧ after.ending = courierEnding courier next) := by
  obtain ⟨call, readings, handling, ending⟩ := before
  obtain rfl : handling = .courier courier := handled
  cases h with
  | breaks unended => exact ⟨coherent.opened unended, .inl ⟨rfl, rfl⟩⟩
  | next unended hnext =>
    cases hnext
    exact ⟨coherent.opened unended, .inr ⟨_, rfl, rfl⟩⟩

/-- A request has just arrived coherent. -/
theorem Connection.Coherent.arrive (readings : Readings) (call : Call) :
    Connection.Coherent app lib .empty (.arrive app pydantic lib readings call) := by
  obtain ⟨admitted, opened⟩ := Connection.arrive_cases app pydantic lib readings call
  exact ⟨opened, admitted.proper, admitted.coherent⟩

end Coherent

/-! ## What a connection handles -/

/-- What a handling was when its request was admitted. -/
def Handling.origin : Handling → Handling
  | .client c => clientOf c.request
  | .courier c =>
    .courier { request := c.request, identity := ∅, phase := .ready, consumer := none }
  | .consumer thread => .consumer { call := thread.call, phase := .ready }
  | .asking question => .asking question
  | .importing request readings _ => .importing request readings none
  | .reporting batchId clock _ => .reporting batchId clock none

section Faithful

variable {app : App} {pydantic : Pydantic} {sha256 : String → String} {lib : StandardLibrary}
  {db db' : Database}

variable (app pydantic lib) in
/-- A connection that is not answered handles what its request was admitted as. -/
def Connection.Faithful (connection : Connection) : Prop :=
  connection.ending = none →
    connection.call.admit app pydantic lib connection.readings = .ok connection.handling.origin

theorem Admitted.origin {handling : Handling} (h : Admitted app handling) :
    handling.origin = handling := by
  cases h with
  | _ => rfl

variable (app pydantic lib) in
theorem Connection.arrive_faithful (readings : Readings) (call : Call) :
    (arrive app pydantic lib readings call).Faithful app pydantic lib := by
  intro unended
  unfold arrive at unended ⊢
  split at unended
  · next handling hadmit =>
    rw [(Call.admit_eq_ok hadmit).origin]
    exact hadmit
  · cases unended

/-- The next thing of a handling is for the same request. -/
theorem Handling.Does.origin {handling after : Handling} {ending : Option Ending}
    (h : Handling.Does pydantic sha256 lib db db' handling after ending)
    (unfinished : handling.Unfinished) : after.origin = handling.origin := by
  cases h with
  | client hact =>
    cases hact
    rfl
  | courier hnext =>
    unfold Handling.origin
    dsimp only
    rw [Courier.next_request unfinished hnext]
  | consumer hact =>
    unfold Handling.origin
    dsimp only
    rw [(ConsumerThread.act_moves ⟨unfinished, hact⟩).1]
  | asked => rfl
  | imported => rfl
  | unimported => rfl
  | listed => rfl
  | compared => rfl
  | reported => rfl

/-- A step is for the request of its connection. -/
theorem Server.request {before after : Connection}
    (h : Server pydantic sha256 lib db before db' after) :
    after.call = before.call ∧ after.readings = before.readings := by
  cases h with
  | next => exact ⟨rfl, rfl⟩
  | breaks => exact ⟨rfl, rfl⟩

theorem Server.faithful {before after : Connection}
    (h : Server pydantic sha256 lib db before db' after) (opened : before.Open)
    (faithful : before.Faithful app pydantic lib) : after.Faithful app pydantic lib := by
  cases h with
  | next unended hnext =>
    intro _
    rw [(Handling.next_does hnext).origin (opened unended)]
    exact faithful unended
  | breaks =>
    intro unended
    cases unended

end Faithful

/-! ## Runs -/

section Runs

variable {ι : Type} {app : App} {pydantic : Pydantic} {sha256 : String → String}
  {lib : StandardLibrary}

/-- A start: the store is empty and every request has just arrived. Which of them is handled first,
and how they overlap, is left to the run. -/
structure Arrivals (app : App) (pydantic : Pydantic) (lib : StandardLibrary)
    (w : Pool.World Database ι Connection) : Prop where
  empty : w.shared = .empty
  arrived : ∀ i, ∃ readings call, w.threads i = .arrive app pydantic lib readings call

theorem server_establishes : Pool.Establishes (ι := ι) (Server pydantic sha256 lib) Tracked
    (fun _ db connection => connection.Coherent app lib db) := by
  intro i db connection db' after tracked coherent step
  obtain ⟨evolves, coherent'⟩ := step.coherent tracked coherent
  exact ⟨evolves.delivers.tracked tracked, coherent'⟩

theorem server_nonInterfering : Pool.NonInterfering (ι := ι) (Server pydantic sha256 lib) Tracked
    (fun _ db connection => connection.Coherent app lib db) := by
  intro i j db connection db' after other _ tracked coherent coherent' step
  exact coherent'.kept (step.coherent tracked coherent).1

theorem Arrivals.opening {w : Pool.World Database ι Connection}
    (h : Arrivals app pydantic lib w) : Opening (w.map Connection.party) := by
  refine ⟨h.empty, fun i => ?_⟩
  obtain ⟨readings, call, hcall⟩ := h.arrived i
  show (w.threads i).party.Idle
  rw [hcall]
  exact (Connection.arrive_cases app pydantic lib readings call).1.idle.1

theorem Arrivals.holds {w : Pool.World Database ι Connection} (h : Arrivals app pydantic lib w) :
    Pool.Holds Tracked (fun _ db connection => connection.Coherent app lib db) w := by
  refine ⟨h.empty ▸ tracked_empty, fun i => ?_⟩
  obtain ⟨readings, call, hcall⟩ := h.arrived i
  rw [h.empty, hcall]
  exact .arrive readings call

variable [DecidableEq ι]

/-- A run of the server, from requests that have just arrived. A request that arrives later is one
whose first step comes late. -/
def Served (app : App) (pydantic : Pydantic) (sha256 : String → String) (lib : StandardLibrary)
    (ts : List (Pool.Transition Database ι Connection)) (v : Pool.World Database ι Connection) :
    Prop :=
  ∃ w, Arrivals app pydantic lib w ∧ Pool.Run (Server pydantic sha256 lib) w ts v

/-- The steps of the platform in a run of the server. -/
def platformSteps (ts : List (Pool.Transition Database ι Connection)) :
    List (Pool.Transition Database ι Party) :=
  (ts.filter fun t => moves t.before t.after).map (Pool.Transition.map Connection.party)

variable {ts us : List (Pool.Transition Database ι Connection)}
  {v u w : Pool.World Database ι Connection}

/-- The steps of a run, seen through the parties. -/
theorem platform_of_run
    (holds : Pool.Holds Tracked (fun _ db connection => connection.Coherent app lib db) w)
    (run : Pool.Run (Server pydantic sha256 lib) w ts v) :
    Pool.Run (Platform sha256 lib) (w.map Connection.party) (platformSteps ts)
      (v.map Connection.party) := by
  have steps : ∀ t ∈ ts, (moves t.before t.after = true →
      Platform sha256 lib t.pre t.before.party t.post t.after.party) ∧
        (moves t.before t.after = false → t.post = t.pre ∧ t.after.party = t.before.party) := by
    intro t mem
    obtain ⟨_, coherent, step⟩ :=
      run.transition server_establishes server_nonInterfering holds mem
    exact step.platform coherent.opened
  exact run.map_filter Connection.party _ (fun t mem => (steps t mem).1)
    (fun t mem => (steps t mem).2)

/-- **Behind the API runs the platform.** -/
theorem Served.running (h : Served app pydantic sha256 lib ts v) :
    Running sha256 lib (platformSteps ts) (v.map Connection.party) := by
  obtain ⟨w, arrivals, run⟩ := h
  exact ⟨w.map Connection.party, arrivals.opening, platform_of_run arrivals.holds run⟩

theorem Served.append (h : Served app pydantic sha256 lib ts v)
    (k : Pool.Run (Server pydantic sha256 lib) v us u) :
    Served app pydantic sha256 lib (ts ++ us) u := by
  obtain ⟨w, arrivals, run⟩ := h
  exact ⟨w, arrivals, run.append k⟩

theorem Served.holds (h : Served app pydantic sha256 lib ts v) :
    Pool.Holds Tracked (fun _ db connection => connection.Coherent app lib db) v := by
  obtain ⟨w, arrivals, run⟩ := h
  exact run.invariant server_establishes server_nonInterfering arrivals.holds

/-- Every step of a run is one of the server, from a tracked store and a coherent connection. -/
theorem Served.transition (h : Served app pydantic sha256 lib ts v)
    {t : Pool.Transition Database ι Connection} (mem : t ∈ ts) :
    Tracked t.pre ∧ t.before.Coherent app lib t.pre ∧
      Server pydantic sha256 lib t.pre t.before t.post t.after := by
  obtain ⟨w, arrivals, run⟩ := h
  exact run.transition server_establishes server_nonInterfering arrivals.holds mem

/-- Induction along a run of the server: every step is one from a tracked store, by a coherent
connection. -/
theorem Served.induction
    {P : List (Pool.Transition Database ι Connection) → Pool.World Database ι Connection → Prop}
    (h : Served app pydantic sha256 lib ts v)
    (start : ∀ w, Arrivals app pydantic lib w → P [] w)
    (step : ∀ ts t v, Served app pydantic sha256 lib ts v →
      Pool.Enabled (Server pydantic sha256 lib) v t → Tracked t.pre →
      t.before.Coherent app lib t.pre → P ts v → P (ts ++ [t]) (v.apply t)) :
    P ts v := by
  obtain ⟨w, arrivals, run⟩ := h
  induction run with
  | nil => exact start w arrivals
  | @snoc u us t run enabled ih =>
    have served : Served app pydantic sha256 lib us u := ⟨w, arrivals, run⟩
    obtain ⟨tracked, coherent⟩ := served.holds
    have coherent := coherent t.thread
    rw [← enabled.2.1, ← enabled.1] at coherent
    rw [← enabled.1] at tracked
    exact step us t u served enabled tracked coherent ih

/-- What holds of the empty store and is kept by every step holds of every store reached. -/
theorem Served.invariant {I : Database → Prop} (empty : I .empty)
    (step : ∀ db connection db' after, Tracked db → connection.Coherent app lib db →
      Server pydantic sha256 lib db connection db' after → I db → I db')
    (h : Served app pydantic sha256 lib ts v) : I v.shared := by
  refine h.induction (P := fun _ v => I v.shared) (fun w arrivals => arrivals.empty ▸ empty) ?_
  intro _ t v _ enabled tracked coherent ih
  rw [← enabled.1] at ih
  exact step _ _ _ _ tracked coherent enabled.2.2 ih

/-- What a connection was admitted as is what it handles, to its answer. -/
theorem Served.faithful (h : Served app pydantic sha256 lib ts v) (i : ι) :
    (v.threads i).Faithful app pydantic lib := by
  refine h.induction (P := fun _ v => ∀ i, (v.threads i).Faithful app pydantic lib)
    (fun w arrivals i => ?_) ?_ i
  · obtain ⟨readings, call, hcall⟩ := arrivals.arrived i
    rw [hcall]
    exact Connection.arrive_faithful app pydantic lib readings call
  · intro ts t v _ enabled _ coherent faithful i
    by_cases hi : i = t.thread
    · subst hi
      rw [Pool.World.apply_threads_self]
      exact enabled.2.2.faithful coherent.opened (enabled.2.1 ▸ faithful t.thread)
    · rw [Pool.World.apply_threads_of_ne v t hi]
      exact faithful i

/-- Every connection has one request, in every state of a run. -/
theorem requests_of_run (run : Pool.Run (Server pydantic sha256 lib) w ts v) (i : ι) :
    (v.threads i).call = (w.threads i).call ∧ (v.threads i).readings = (w.threads i).readings := by
  induction run with
  | nil => exact ⟨rfl, rfl⟩
  | @snoc v ts t run enabled ih =>
    by_cases hi : i = t.thread
    · subst hi
      obtain ⟨hcall, hreadings⟩ := enabled.2.2.request
      rw [Pool.World.apply_threads_self, hcall, hreadings, enabled.2.1]
      exact ih
    · rw [Pool.World.apply_threads_of_ne v t hi]
      exact ih

/-- A step is for the requests of its run. -/
theorem calls_apply {t : Pool.Transition Database ι Connection}
    (enabled : Pool.Enabled (Server pydantic sha256 lib) v t) (i : ι) :
    ((v.apply t).threads i).call = (v.threads i).call :=
  (requests_of_run (.snoc (.nil v) enabled) i).1

/-- Induction along a run of the server whose requests are all of one kind: every step is for one of
them, and handles it as it was admitted. -/
theorem Served.sent_induction {S : Call → Prop} {P : Pool.World Database ι Connection → Prop}
    (h : Served app pydantic sha256 lib ts v) (sends : ∀ i, S (v.threads i).call)
    (start : ∀ w, Arrivals app pydantic lib w → P w)
    (step : ∀ (t : Pool.Transition Database ι Connection) v,
      Pool.Enabled (Server pydantic sha256 lib) v t → t.before.Coherent app lib t.pre →
      t.before.Faithful app pydantic lib → S t.before.call → P v → P (v.apply t)) : P v := by
  refine h.induction (P := fun _ v => (∀ i, S (v.threads i).call) → P v)
    (fun w arrivals _ => start w arrivals) ?_ sends
  intro ts t v served enabled _ coherent ih sends
  have sends : ∀ i, S (v.threads i).call := by
    intro i
    rw [← calls_apply enabled i]
    exact sends i
  have faithful : t.before.Faithful app pydantic lib := by
    rw [enabled.2.1]
    exact served.faithful t.thread
  have sent : S t.before.call := by
    rw [enabled.2.1]
    exact sends t.thread
  exact step t v enabled coherent faithful sent (ih sends)

/-- The run before a step, and the run after it. -/
theorem Served.split {t : Pool.Transition Database ι Connection}
    (h : Served app pydantic sha256 lib (us ++ t :: ts) v) :
    ∃ u, Served app pydantic sha256 lib us u ∧ Pool.Enabled (Server pydantic sha256 lib) u t ∧
      Pool.Run (Server pydantic sha256 lib) u (t :: ts) v := by
  obtain ⟨w, arrivals, run⟩ := h
  obtain ⟨u, first, second⟩ := run.split_append
  exact ⟨u, ⟨w, arrivals, first⟩, second.head, second⟩

variable (pydantic sha256 lib) in
/-- A schedule of the connections is a run, of the requests that arrived. -/
theorem Served.operate_calls (arrivals : Arrivals app pydantic lib w) (schedule : List ι) :
    ∃ ts, Served app pydantic sha256 lib ts
        (Pool.operate (Connection.next pydantic sha256 lib) schedule w) ∧
      ∀ i, ((Pool.operate (Connection.next pydantic sha256 lib) schedule w).threads i).call =
        (w.threads i).call := by
  obtain ⟨ts, run, _⟩ := Pool.run_of_operate Connection.next_eq_some schedule w
  exact ⟨ts, ⟨w, arrivals, run⟩, fun i => (requests_of_run run i).1⟩

variable (pydantic sha256 lib) in
/-- A schedule of the connections is a run. -/
theorem Served.operate (arrivals : Arrivals app pydantic lib w) (schedule : List ι) :
    ∃ ts, Served app pydantic sha256 lib ts
      (Pool.operate (Connection.next pydantic sha256 lib) schedule w) := by
  obtain ⟨ts, served, _⟩ := Served.operate_calls pydantic sha256 lib arrivals schedule
  exact ⟨ts, served⟩

end Runs

end PaymentLab.Api
