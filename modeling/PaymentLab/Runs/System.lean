import Mathlib.Logic.Relation
import PaymentLab.Library.Pool
import PaymentLab.Services.Confirmations

/-!
# Concurrent calls

The service as a pool of clients on one database. A call runs its source function transaction by
transaction; between two of its transactions any other client may commit. A client may load a payment
into its session, may begin another call on that session when one has ended, and a call may be
interrupted by a storage failure before any of its commits. Delivery and the merchant act beside the
clients (`Background`).

`Request.step` gives the next transaction of a call. Each one runs the very blocks the source
functions are made of; `Runs/Sequential` proves that the transactions of a call, run back to back,
are the source function.
-/

namespace PaymentLab

open Transactional

/-- What a client asks for: one service function with its arguments, the values it draws and the wall
clock readings it makes. They are fixed when the call begins, and arbitrary, so that no law depends
on what a clock or a generator answers unless it says so. -/
inductive Request where
  | authorize (command : AuthorizationCommand) (key : String) (failurePoint : Option FailurePoint)
      (clock : Datetime) (draws : Draws)
  | capture (paymentId key : String) (failurePoint : Option FailurePoint)
      (claimedAt now : Instant) (draws : Draws)
  | cancel (paymentId key : String) (failurePoint : Option FailurePoint)
      (claimedAt now : Instant) (draws : Draws)
  | refund (paymentId : String) (amount : Int) (key : String) (failurePoint : Option FailurePoint)
      (claimedAt now : Instant) (draws : Draws)
  | accept (command : ConfirmationCommand) (clock : Datetime)
  | complete (confirmationId : String) (draws : Draws)
  | process (command : ConfirmationCommand) (receivedAt clock : Option Datetime) (draws : Draws)
  | recover (limit : Int) (draws : String → Draws)
  | expire (now : Datetime) (limit : Int) (hex : String → String)

/-- What a call returns, where it returns. An exception is no answer but the other way a call can
end. -/
inductive Answer where
  | payment (outcome : PaymentOutcome)
  | accepted (replayed : Bool)
  | confirmation (outcome : ConfirmationOutcome)
  | identities (ids : List String)
  deriving DecidableEq

/-- Where a call stands between two of its transactions. Another client may take its transactions at
any phase; within a transaction it may not, because the writer is one. -/
inductive Phase where
  /-- nothing has run yet -/
  | ready
  /-- the key was free when it was looked up -/
  | claiming (claimedAt : Instant)
  /-- another call holds the key -/
  | rereading
  /-- the confirmation is accepted -/
  | completing (replayed : Bool)
  /-- the receipts still to complete, of those selected -/
  | recovering (ids todo : List String)
  | finished (result : Except ServiceError Answer)
  /-- a storage failure ended the call -/
  | interrupted

/-- A call that has ended, with a result or without. -/
def Phase.Ended : Phase → Prop
  | .finished _ | .interrupted => True
  | _ => False

/-- A client: the call it makes, the objects its session holds, and how far the call is. The session
is kept from one call to the next, with whatever it has loaded. -/
structure Client where
  request : Request
  identity : IdentityMap
  phase : Phase

section Step

variable (sha256 : String → String)

/-- The first transaction of a keyed request: the lookup of its key. -/
def lookUp (key fingerprint : String) (claimedAt : Instant) : Service Phase := do
  match ← findIdempotentSnapshot key fingerprint with
  | some snapshot => return .finished (.ok (.payment (.replay snapshot)))
  | none => return .claiming claimedAt

/-- The second: the claim and everything under it, or the loss of the claim. -/
def attempt (claim : IdempotencyRecord) (body : IdempotencyRecord → Service PaymentOutcome) :
    Service Phase := do
  if ← insertClaim claim then
    return .finished (.ok (.payment (← rollbackOnError (body claim))))
  else return .rereading

/-- After a lost claim, the response of the winner. -/
def reread (key fingerprint : String) : Service Phase := do
  return .finished (.ok (.payment (.replay (← replayConcurrentResult key fingerprint))))

/-- A lifecycle request that is not coordinated: capture or refund. -/
def lifecycleStep (command : LifecycleCommand) (key : String) (failurePoint : Option FailurePoint)
    (claimedAt now : Instant) (draws : Draws) : Phase → Service Phase
  | .ready => lookUp key (command.fingerprint sha256) claimedAt
  | .claiming claimedAt =>
    attempt (newClaim key (command.fingerprint sha256) command.operation.value claimedAt)
      fun claim => executeClaimedLifecycleOperation command claim failurePoint now draws
  | .rereading => reread key (command.fingerprint sha256)
  | phase => return phase

/-- The next transaction of a call. -/
def Request.step : Request → Phase → Service Phase
  | .authorize command key failurePoint clock draws, phase =>
    match phase with
    | .ready => do
      let now ← readClock clock
      lookUp key (command.fingerprint sha256) now
    | .claiming now =>
      attempt (newClaim key (command.fingerprint sha256) "AUTHORIZE" now)
        fun claim => executeClaimedAuthorization command claim failurePoint now draws
    | .rereading => reread key (command.fingerprint sha256)
    | phase => return phase
  | .capture paymentId key failurePoint claimedAt now draws, phase =>
    lifecycleStep sha256 (.capture paymentId) key failurePoint claimedAt now draws phase
  | .cancel paymentId key failurePoint claimedAt now draws, phase =>
    match phase with
    | .ready => do
      return .finished (.ok (.payment
        (← cancelPayment sha256 paymentId key failurePoint claimedAt now draws)))
    | phase => return phase
  | .refund paymentId amount key failurePoint claimedAt now draws, phase =>
    lifecycleStep sha256 (.refund paymentId amount) key failurePoint claimedAt now draws phase
  | .accept command clock, phase =>
    match phase with
    | .ready => do return .finished (.ok (.accepted (← acceptConfirmation sha256 command clock)))
    | phase => return phase
  | .complete confirmationId draws, phase =>
    match phase with
    | .ready => do
      return .finished (.ok (.confirmation (← completeConfirmation sha256 confirmationId draws)))
    | phase => return phase
  | .process command receivedAt clock draws, phase =>
    match phase with
    | .ready => do
      let clock ← processingClock receivedAt clock
      return .completing (← processAcceptance sha256 command clock)
    | .completing replayed => do
      let outcome ← processCompletion sha256 command.confirmationId draws
      return .finished (.ok (.confirmation
        { confirmation := outcome.confirmation, replayed := replayed || outcome.replayed }))
    | phase => return phase
  | .recover limit draws, phase =>
    match phase with
    | .ready => do
      let ids ← selectPending limit
      return .recovering ids ids
    | .recovering ids (confirmationId :: todo) => do
      let _ ← completeConfirmation sha256 confirmationId (draws confirmationId)
      return .recovering ids todo
    | .recovering ids [] => return .finished (.ok (.identities ids))
    | phase => return phase
  | .expire now limit hex, phase =>
    match phase with
    | .ready => do return .finished (.ok (.identities (← expireDuePayments now limit hex)))
    | phase => return phase

/-- The phase a transaction leads to: an exception ends the call. -/
def Phase.ofResult : Except ServiceError Phase → Phase
  | .ok phase => phase
  | .error error => .finished (.error error)

/-- The session a transaction runs in. -/
def Client.session (client : Client) (db : Database) : DatabaseSession :=
  Session.start db client.identity

/-- One transaction of a client: the database and the client afterwards. -/
def Client.act (client : Client) (db : Database) : Database × Client :=
  let (result, session) := client.request.step sha256 client.phase (client.session db)
  (session.committed,
    { client with identity := session.identity, phase := .ofResult result })

/-- What one client does: it begins a call, loads a payment, takes the next transaction of its call,
or is interrupted. -/
inductive Client.Step : Pool.Protocol Database Client
  /-- a new call on a session whose last call has ended -/
  | begin {db : Database} {client : Client} (request : Request) : client.phase.Ended →
      Step db client db { request := request, identity := client.identity, phase := .ready }
  /-- a payment is loaded into the session -/
  | load {db : Database} {client : Client} {payment : PaymentRecord} :
      db.payments.get payment.id = some payment →
      Step db client db { client with identity := holdPayment payment client.identity }
  /-- the next transaction of the call -/
  | act {db db' : Database} {client after : Client} : ¬client.phase.Ended →
      client.act sha256 db = (db', after) → Step db client db' after
  /-- a storage failure before the next commit -/
  | interrupt {db : Database} {client : Client} : ¬client.phase.Ended →
      Step db client db { client with phase := .interrupted }

end Step

end PaymentLab
