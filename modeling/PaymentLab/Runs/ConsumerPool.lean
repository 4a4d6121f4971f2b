import PaymentLab.Library.Pool
import PaymentLab.Runs.Consumer

/-!
# Concurrent consumers

Any number of consumer calls on one database. A call reads the inbox, reads the projection, and
writes; between two of these any other call may commit. The phases are made of the very blocks of
`consumeEnvelope`, and run back to back they are a call (`ConsumerCall.acts_run`).

Between the two reads and the write no lock is held and no version is remembered but the one that
was read, so the model puts no restriction on what may come in between. The inbox row and the
projection are written together; a call that fails there has written neither.
-/

namespace PaymentLab

open Transactional Transactional.Service

/-- Where a call of the consumer stands between two of its statements. Another call may run between
any two of them, which is how a comparison of versions gets out of date. -/
inductive ConsumerPhase where
  | ready
  /-- the event was not in the inbox -/
  | unseen (envelope : WebhookEnvelope)
  /-- the versions are compared -/
  | decided (envelope : WebhookEnvelope) (decision : ConsumerDecision)
  | finished (result : Except ServiceError ConsumerOutcome)

/-- A call and how far it is. -/
structure ConsumerThread where
  call : ConsumerCall
  phase : ConsumerPhase

section Pool

variable (lib : StandardLibrary)

/-- The next phase of a call: the first read, the second read with the comparison, the write. -/
def ConsumerCall.advance (call : ConsumerCall) : ConsumerPhase → Service ConsumerPhase
  | .ready => do
    let envelope ← liftService (call.accepted lib)
    match ← readInbox envelope.id with
    | some existing =>
      return .finished (.ok (← answerRepeated existing envelope.id (lib.sha256 call.payload)))
    | none => return .unseen envelope
  | .unseen envelope => do
    match decideProjection (← readProjection envelope.payment.id) envelope with
    | .error error => throw error
    | .ok decision => return .decided envelope decision
  | .decided envelope decision => do
    return .finished (.ok
      (← writeConsumption envelope (lib.sha256 call.payload) decision call.now call.faults))
  | .finished result => return .finished result

/-- An exception ends the call. -/
def ConsumerPhase.ofResult : Except ServiceError ConsumerPhase → ConsumerPhase
  | .ok phase => phase
  | .error error => .finished (.error error)

/-- The session of a call that has read. -/
def readSession (db : Database) : DatabaseSession := { Session.start db ∅ with begun := true }

/-- The session a phase runs in. -/
def ConsumerPhase.session (phase : ConsumerPhase) (db : Database) : DatabaseSession :=
  match phase with
  | .ready => Session.start db ∅
  | _ => readSession db

/-- One phase of a call: the database and the call afterwards. -/
def ConsumerThread.act (thread : ConsumerThread) (db : Database) : Database × ConsumerThread :=
  let (result, session) := thread.call.advance lib thread.phase (thread.phase.session db)
  (session.committed, { thread with phase := .ofResult result })

/-- The consumers: each call takes its next phase, in any order. -/
def ConsumerPool : Pool.Protocol Database ConsumerThread := fun db thread db' after =>
  (∀ result, thread.phase ≠ .finished result) ∧ thread.act lib db = (db', after)

/-- What one phase of a call does. -/
inductive ConsumerMoves (thread : ConsumerThread) (db : Database) : Database → ConsumerPhase → Prop
  /-- the call ends and commits nothing -/
  | ended {result : Except ServiceError ConsumerOutcome} :
      ConsumerMoves thread db db (.finished result)
  | read {envelope : WebhookEnvelope} : thread.phase = .ready →
      thread.call.accepted lib = .ok envelope →
      db.processedWebhooks.get envelope.id = none → ConsumerMoves thread db db (.unseen envelope)
  | compared {envelope : WebhookEnvelope} {decision : ConsumerDecision} :
      thread.phase = .unseen envelope →
      decideProjection (db.merchantProjections.get envelope.payment.id) envelope = .ok decision →
      ConsumerMoves thread db db (.decided envelope decision)
  | wrote {envelope : WebhookEnvelope} {decision : ConsumerDecision} {db' : Database} :
      thread.phase = .decided envelope decision →
      Consumes envelope (lib.sha256 thread.call.payload) decision thread.call.now db db' →
      thread.call.faults.storage = false → thread.call.faults.afterInbox = false →
      ConsumerMoves thread db db' (.finished (.ok (decision.outcome envelope.id)))

variable {lib} {call : ConsumerCall} {db : Database} {envelope : WebhookEnvelope}
  {decision : ConsumerDecision}

/-! ## The phases as functions -/

theorem ConsumerThread.act_refused {e : ServiceError} (h : call.accepted lib = .error e) :
    ConsumerThread.act lib ⟨call, .ready⟩ db = (db, ⟨call, .finished (.error e)⟩) := by
  unfold act ConsumerCall.advance
  rw [h]
  rfl

theorem ConsumerThread.act_ready (h : call.accepted lib = .ok envelope) :
    ConsumerThread.act lib ⟨call, .ready⟩ db =
      match db.processedWebhooks.get envelope.id with
      | some existing =>
        (db, ⟨call, .finished (repeatedAnswer existing envelope.id (lib.sha256 call.payload))⟩)
      | none => (db, ⟨call, .unseen envelope⟩) := by
  have hworking : (ConsumerPhase.ready.session db).working = db := rfl
  unfold act ConsumerCall.advance readInbox
  dsimp only
  rw [h, bind_ok (liftService_ok envelope _), bind_ok (query_apply _ _), hworking]
  cases db.processedWebhooks.get envelope.id with
  | none => rfl
  | some existing =>
    dsimp only
    unfold repeatedAnswer answerRepeated
    split <;> rfl

theorem ConsumerThread.act_unseen :
    ConsumerThread.act lib ⟨call, .unseen envelope⟩ db =
      match decideProjection (db.merchantProjections.get envelope.payment.id) envelope with
      | .error e => (db, ⟨call, .finished (.error e)⟩)
      | .ok decision => (db, ⟨call, .decided envelope decision⟩) := by
  have hworking : ((ConsumerPhase.unseen envelope).session db).working = db := rfl
  unfold act ConsumerCall.advance readProjection
  dsimp only
  rw [bind_ok (query_apply _ _), hworking]
  cases decideProjection (db.merchantProjections.get envelope.payment.id) envelope with
  | error e => rfl
  | ok decision => rfl

theorem ConsumerThread.act_decided :
    ConsumerThread.act lib ⟨call, .decided envelope decision⟩ db =
      ((writeConsumption envelope (lib.sha256 call.payload) decision call.now call.faults
          (readSession db)).2.committed,
        ⟨call, .finished (writeConsumption envelope (lib.sha256 call.payload) decision call.now
          call.faults (readSession db)).1⟩) := by
  have hsession : (ConsumerPhase.decided envelope decision).session db = readSession db := rfl
  unfold act ConsumerCall.advance
  dsimp only
  rw [bind_apply, hsession]
  generalize writeConsumption envelope (lib.sha256 call.payload) decision call.now call.faults
    (readSession db) = written
  obtain ⟨result, session⟩ := written
  cases result <;> rfl

/-- A call as one transaction, by the same cases. -/
theorem consumeEnvelope_start (payloadHash : String) (now : Datetime) (faults : ConsumerFaults) :
    consumeEnvelope envelope payloadHash now faults (Session.start db ∅) =
      match db.processedWebhooks.get envelope.id with
      | some existing => (repeatedAnswer existing envelope.id payloadHash, readSession db)
      | none =>
        match decideProjection (db.merchantProjections.get envelope.payment.id) envelope with
        | .error e => (.error e, readSession db)
        | .ok decision =>
          writeConsumption envelope payloadHash decision now faults (readSession db) := by
  have hworking : (Session.start db (∅ : IdentityMap)).working = db := rfl
  unfold consumeEnvelope readInbox readProjection
  rw [bind_ok (query_apply _ _), hworking]
  cases db.processedWebhooks.get envelope.id with
  | some existing => exact answerRepeated_apply _ _ _ _
  | none =>
    dsimp only
    rw [bind_ok (query_apply _ _)]
    dsimp only
    cases decideProjection (db.merchantProjections.get envelope.payment.id) envelope with
    | error e => rfl
    | ok decision => rfl

/-- **The phases back to back are the call.** -/
theorem ConsumerCall.acts_run (call : ConsumerCall) (db : Database) :
    let next (x : Database × ConsumerThread) := x.2.act lib x.1
    next (next (next (db, ⟨call, .ready⟩))) =
      ((call.run lib db).2, ⟨call, .finished (call.run lib db).1⟩) := by
  have stays : ∀ (db : Database) (result : Except ServiceError ConsumerOutcome),
      ConsumerThread.act lib ⟨call, .finished result⟩ db = (db, ⟨call, .finished result⟩) :=
    fun _ _ => rfl
  dsimp only
  cases haccepted : call.accepted lib with
  | error e =>
    rw [ConsumerThread.act_refused haccepted, call.run_refused lib haccepted db]
    dsimp only
    rw [stays]
    dsimp only
    rw [stays]
  | ok envelope =>
    rw [ConsumerThread.act_ready haccepted, call.run_accepted lib haccepted db,
      consumeEnvelope_start]
    cases db.processedWebhooks.get envelope.id with
    | some existing =>
      dsimp only
      rw [stays]
      dsimp only
      rw [stays]
      rfl
    | none =>
      dsimp only
      rw [ConsumerThread.act_unseen]
      cases decideProjection (db.merchantProjections.get envelope.payment.id) envelope with
      | error e =>
        dsimp only
        rw [stays]
        rfl
      | ok decision =>
        dsimp only
        rw [ConsumerThread.act_decided]

/-- **One phase of a call**, by what it does. -/
theorem ConsumerThread.act_moves {thread after : ConsumerThread} {db' : Database}
    (h : ConsumerPool lib db thread db' after) :
    after.call = thread.call ∧ ConsumerMoves lib thread db db' after.phase := by
  obtain ⟨unfinished, hact⟩ := h
  obtain ⟨call, phase⟩ := thread
  cases phase with
  | ready =>
    cases haccepted : call.accepted lib with
    | error e =>
      rw [act_refused haccepted] at hact
      cases hact
      exact ⟨rfl, .ended⟩
    | ok envelope =>
      rw [act_ready haccepted] at hact
      cases hinbox : db.processedWebhooks.get envelope.id with
      | some existing =>
        rw [hinbox] at hact
        cases hact
        exact ⟨rfl, .ended⟩
      | none =>
        rw [hinbox] at hact
        cases hact
        exact ⟨rfl, .read rfl haccepted hinbox⟩
  | unseen envelope =>
    rw [act_unseen] at hact
    cases hdecide : decideProjection (db.merchantProjections.get envelope.payment.id) envelope with
    | error e =>
      rw [hdecide] at hact
      cases hact
      exact ⟨rfl, .ended⟩
    | ok decision =>
      rw [hdecide] at hact
      cases hact
      exact ⟨rfl, .compared rfl hdecide⟩
  | decided envelope decision =>
    rw [act_decided] at hact
    obtain ⟨r, s', hwrite⟩ : ∃ r s', writeConsumption envelope (lib.sha256 call.payload) decision
        call.now call.faults (readSession db) = (r, s') := ⟨_, _, rfl⟩
    rw [hwrite] at hact
    cases hact
    refine ⟨rfl, ?_⟩
    rcases writeConsumption_cases rfl hwrite with ⟨rfl, consumes, hstorage, hafter⟩ | ⟨hsame, _⟩
    · exact .wrote rfl consumes hstorage hafter
    · rw [hsame]
      exact .ended
  | finished result => exact absurd rfl (unfinished result)

end Pool

end PaymentLab
