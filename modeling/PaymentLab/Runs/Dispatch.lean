import PaymentLab.Delivery.Track
import PaymentLab.Library.Pool

/-!
# Concurrent dispatchers

Workers that run `dispatch_webhook`, any number of them on one database. A call claims its event,
loads it, calls the receiver and finalizes: between two of these, while the receiver runs above all,
any other worker may act. A worker may crash between any two of them, and a later call may run on a
session that holds objects of earlier ones.

The `_cases` lemmas say what each transaction can do, once (`Worker.act_cases` for all of them); no
later proof unfolds the source functions.

A session that already holds the event answers a later read with the object it holds, which may be
older than the row. The model keeps these objects with the worker (`IdentityMap`), because the check
of a lease reads one of them; leaving them out would make the check stronger than the code's.
-/

namespace PaymentLab

open Relational Transactional Transactional.Service

/-- The arguments of one `dispatch_webhook` call, and the generated part of its lease token. -/
structure Dispatch where
  eventId : String
  secret : String
  receiver : WebhookReceiver
  now : Datetime
  fault : Option DeliveryFault
  hex : String

/-- The lease token of a call. -/
def Dispatch.leaseToken (call : Dispatch) : String := "lease_" ++ call.hex

/-- Where a call stands between two of its transactions. The receiver is called outside of any
transaction, so that its answer is a phase of its own. -/
inductive DispatchPhase where
  /-- nothing has run yet -/
  | ready
  /-- the event is claimed -/
  | leased (leaseToken : String)
  /-- the event is loaded and signed -/
  | prepared (leaseToken : String) (payload : EventPayload) (signature : String)
  /-- the receiver has answered -/
  | answered (leaseToken : String) (delivery : Delivery)
  | finished (result : Except ServiceError DeliveryResult)
  /-- the worker crashed -/
  | interrupted
  deriving DecidableEq

/-- A call that has ended, with a result or by a crash. -/
def DispatchPhase.Ended : DispatchPhase → Prop
  | .finished _ | .interrupted => True
  | _ => False

instance : DecidablePred DispatchPhase.Ended := fun phase => by
  cases phase <;> unfold DispatchPhase.Ended <;> infer_instance

/-- A worker: its call, the objects its session holds, and how far the call is. The session outlives
the call; what it holds is what a later read of the same row answers with. -/
structure Worker where
  call : Dispatch
  identity : IdentityMap
  phase : DispatchPhase

section Step

variable (hmacSha256 : String → Int → EventPayload → String)

/-- The next transaction of a call, or the call of the receiver. -/
def Dispatch.step (call : Dispatch) : DispatchPhase → Service DispatchPhase
  | .ready => do return .leased (← claimDelivery call.eventId call.now call.hex)
  | .leased leaseToken => do
    let (payload, signature) ← prepareDelivery hmacSha256 call.eventId call.secret call.now
    return .prepared leaseToken payload signature
  | .prepared leaseToken payload signature => do
    return .answered leaseToken
      (← callReceiver call.receiver call.fault payload signature call.now)
  | .answered leaseToken delivery => do
    return .finished (.ok (← finalizeDelivery call.eventId leaseToken call.now delivery))
  | phase => return phase

/-- The phase a transaction leads to: an exception ends the call. -/
def DispatchPhase.ofResult : Except ServiceError DispatchPhase → DispatchPhase
  | .ok phase => phase
  | .error error => .finished (.error error)

/-- One transaction of a worker: the database and the worker afterwards. -/
def Worker.act (worker : Worker) (db : Database) : Database × Worker :=
  let (result, session) :=
    worker.call.step hmacSha256 worker.phase (Session.start db worker.identity)
  (session.committed,
    { worker with identity := session.identity, phase := .ofResult result })

/-- What one worker does: it begins a call when the last has ended, takes its next transaction, or
dies. -/
inductive Worker.Step : Pool.Protocol Database Worker
  /-- a new call, on a session that may hold objects already -/
  | begin {db : Database} {worker : Worker} (call : Dispatch) (identity : IdentityMap) :
      worker.phase.Ended → Step db worker db { call := call, identity := identity, phase := .ready }
  /-- the next transaction of the call -/
  | act {db db' : Database} {worker after : Worker} : ¬worker.phase.Ended →
      worker.act hmacSha256 db = (db', after) → Step db worker db' after
  /-- a crash between two transactions -/
  | crash {db : Database} {worker : Worker} : ¬worker.phase.Ended →
      Step db worker db { worker with phase := .interrupted }

end Step

/-! ## What a transaction writes -/

/-- An event is leased: it could be claimed at the time, and its row now carries the token and the
deadline. Nothing else in the store has changed. -/
structure Leases (event : WebhookEventRecord) (leaseToken : String) (current : Instant)
    (db db' : Database) : Prop where
  stored : db.webhookEvents.get event.id = some event
  claimable : event.claimable current = true
  events : db.webhookEvents.update (event.leased leaseToken current) = some db'.webhookEvents
  rest : db' = { db with webhookEvents := db'.webhookEvents }

/-- An attempt is recorded, from the event object as it was loaded: the changed columns of that
object are written over the row, and the attempt is numbered by it. -/
structure RecordsAttempt (loaded : WebhookEventRecord) (current : Instant) (delivery : Delivery)
    (db db' : Database) : Prop where
  events : ∃ stored finalized next, db.webhookEvents.get loaded.id = some stored ∧
    loaded.finalized current delivery = .ok (finalized, next) ∧
    db.webhookEvents.update (loaded.writeChanges finalized stored) = some db'.webhookEvents
  attempts : db.deliveryAttempts.insert (newAttempt loaded current delivery) =
    some db'.deliveryAttempts
  rest : db' =
    { db with webhookEvents := db'.webhookEvents, deliveryAttempts := db'.deliveryAttempts }

/-- How a finalize ends, from the event object the session answers with. The token is compared on
that object; whether the row still carries it is not asked. -/
inductive Finalizes (eventId leaseToken : String) (current : Instant) (delivery : Delivery)
    (found : Option WebhookEventRecord) (db db' : Database) :
    Except ServiceError DeliveryResult → Prop
  | missing : found = none → db' = db →
      Finalizes eventId leaseToken current delivery found db db'
        (.error (.webhookEventNotFound eventId))
  | superseded {loaded : WebhookEventRecord} : found = some loaded →
      loaded.leaseToken ≠ some leaseToken → db' = db →
      Finalizes eventId leaseToken current delivery found db db'
        (.error (.webhookDeliveryNotReady eventId))
  | refused {loaded finalized : WebhookEventRecord} {next : Option Instant} {e : ServiceError} :
      found = some loaded → loaded.leaseToken = some leaseToken →
      loaded.finalized current delivery = .ok (finalized, next) →
      recordAttempt loaded finalized (newAttempt loaded current delivery) db = .error e → db' = db →
      Finalizes eventId leaseToken current delivery found db db' (.error e)
  | recorded {loaded : WebhookEventRecord} {result : DeliveryResult} : found = some loaded →
      loaded.leaseToken = some leaseToken → RecordsAttempt loaded current delivery db db' →
      Finalizes eventId leaseToken current delivery found db db' (.ok result)

/-! ## The statements -/

/-- The event object a session holds. -/
def heldEvent (eventId : String) (m : IdentityMap) : Option WebhookEventRecord :=
  m.events.find? fun e => decide (e.id = eventId)

theorem heldEvent_id {eventId : String} {m : IdentityMap} {event : WebhookEventRecord}
    (h : heldEvent eventId m = some event) : event.id = eventId := by
  simpa only [decide_eq_true_eq] using List.find?_some h

@[simp] theorem heldEvent_holdEvent (event : WebhookEventRecord) (m : IdentityMap) :
    heldEvent event.id (holdEvent event m) = some event := by
  simp [heldEvent, holdEvent]

@[simp] theorem heldEvent_empty (eventId : String) :
    heldEvent eventId (∅ : IdentityMap) = none := rfl

/-- The event a session answers with: the held object, or else the row. -/
def answeredEvent (eventId : String) (m : IdentityMap) (db : Database) :
    Option WebhookEventRecord := (heldEvent eventId m).or (db.webhookEvents.get eventId)

/-- A read of an event writes nothing, and the session holds what it answered with. -/
theorem sessionGetEvent_cases {eventId : String} {s s' : DatabaseSession}
    {r : Except ServiceError (Option WebhookEventRecord)} (h : sessionGetEvent eventId s = (r, s')) :
    r = .ok (answeredEvent eventId s.identity s.working) ∧ s'.committed = s.committed ∧
      s'.working = s.working ∧
      ∀ event, r = .ok (some event) → heldEvent eventId s'.identity = some event := by
  unfold sessionGetEvent at h
  rw [getThrough_apply] at h
  unfold answeredEvent
  split at h
  · next event hheld =>
    have hheld : heldEvent eventId s.identity = some event := hheld
    cases h
    refine ⟨by rw [hheld, Option.some_or], rfl, rfl, fun event' heq => ?_⟩
    cases heq
    exact hheld
  · next hnone =>
    have hnone : heldEvent eventId s.identity = none := hnone
    rw [hnone, Option.none_or]
    split at h
    · next event hstored =>
      cases h
      refine ⟨congrArg Except.ok hstored.symm, rfl, rfl, fun event' heq => ?_⟩
      have hevent : event = event' := by simpa using heq
      have hid : event.id = eventId := (Table.get_eq_some hstored).2
      rw [← hevent, ← hid]
      exact heldEvent_holdEvent event s.identity
    · next hmissing =>
      cases h
      refine ⟨congrArg Except.ok hmissing.symm, rfl, rfl, fun _ heq => ?_⟩
      cases heq

/-- The `UPDATE` of a claim matched one row: that row is leased. -/
theorem updateClaimed_eq_ok {eventId leaseToken : String} {current : Instant} {db db' : Database}
    (matched : claimedRows eventId current db = 1)
    (h : updateClaimed eventId leaseToken current db = .ok db') :
    ∃ event, event.id = eventId ∧ Leases event leaseToken current db db' := by
  unfold claimedRows at matched
  split at matched
  · next hany =>
    obtain ⟨event, hstored, hclaimable⟩ := Option.any_eq_true _ _ |>.mp hany
    have hid : event.id = eventId := (Table.get_eq_some hstored).2
    unfold updateClaimed at h
    simp only [hstored, if_pos hclaimable] at h
    obtain ⟨events, hupdate, rfl⟩ := updateIn_eq_ok h
    exact ⟨event, hid, hid ▸ hstored, hclaimable, hupdate, rfl⟩
  · cases matched

/-- The `UPDATE` of a claim that matched no row left the database as it was. -/
theorem updateClaimed_of_ne {eventId leaseToken : String} {current : Instant} {db db' : Database}
    (unmatched : claimedRows eventId current db ≠ 1)
    (h : updateClaimed eventId leaseToken current db = .ok db') : db' = db := by
  unfold updateClaimed at h
  split at h
  · cases h
    rfl
  · next event hstored =>
    split at h
    · next hclaimable =>
      exact absurd (by simp [claimedRows, hstored, hclaimable]) unmatched
    · cases h
      rfl

theorem updateClaimed_eq_error {eventId leaseToken : String} {current : Instant} {db : Database}
    {e : ServiceError} (h : updateClaimed eventId leaseToken current db = .error e) :
    e = .integrityError := by
  unfold updateClaimed at h
  split at h
  · cases h
  · split at h
    · exact updateIn_eq_error h
    · cases h

/-- **A claim**: refused without a trace, or the event is leased and every loaded object expired. -/
theorem claimDelivery_cases {eventId hex : String} {now : Datetime} {identity : IdentityMap}
    {db : Database} {s' : DatabaseSession} {r : Except ServiceError String}
    (h : claimDelivery eventId now hex (Session.start db identity) = (r, s')) :
    ((∃ e, r = .error e ∧ e ≠ .indexError) ∧ s'.committed = db) ∨
      ∃ event, event.id = eventId ∧ r = .ok ("lease_" ++ hex) ∧ s'.identity = ∅ ∧
        Leases event ("lease_" ++ hex) (asUtc now) db s'.committed := by
  unfold claimDelivery at h
  rcases bind_cases h with ⟨e, hget, rfl⟩ | ⟨found, s₁, hget, hrest⟩
  · obtain ⟨hr, -, -, -⟩ := sessionGetEvent_cases hget
    cases hr
  · obtain ⟨-, hcommitted, hworking, -⟩ := sessionGetEvent_cases hget
    cases found with
    | none =>
      cases hrest
      exact .inl ⟨⟨_, rfl, nofun⟩, hcommitted⟩
    | some =>
      dsimp only at hrest
      rw [bind_ok (query_apply _ s₁)] at hrest
      rcases bind_cases hrest with ⟨e, hflush, rfl⟩ | ⟨_, s₂, hflush, hrest⟩
      · obtain ⟨hrefused, rfl⟩ := flush_eq_error hflush
        have he : e = .integrityError := updateClaimed_eq_error hrefused
        exact .inl ⟨⟨e, rfl, by rw [he]; exact nofun⟩, hcommitted⟩
      · obtain ⟨db', hupdate, rfl⟩ := flush_eq_ok hflush
        rw [bind_ok (commit_apply _)] at hrest
        have hdb : s₁.working = db := hworking
        simp only [hdb] at hupdate hrest
        split at hrest
        · next hunmatched =>
          cases hrest
          exact .inl ⟨⟨_, rfl, nofun⟩, updateClaimed_of_ne hunmatched hupdate⟩
        · next hmatched =>
          cases hrest
          obtain ⟨event, hid, hclaimed⟩ := updateClaimed_eq_ok (not_not.mp hmatched) hupdate
          exact .inr ⟨event, hid, rfl, rfl, hclaimed⟩

/-- **The load of a claimed event**: it writes nothing, and the session holds the event it signed. -/
theorem prepareDelivery_cases {hmacSha256 : String → Int → EventPayload → String}
    {eventId secret : String} {now : Datetime} {identity : IdentityMap} {db : Database}
    {s' : DatabaseSession} {r : Except ServiceError (EventPayload × String)}
    (h : prepareDelivery hmacSha256 eventId secret now (Session.start db identity) = (r, s')) :
    s'.committed = db ∧ ((∃ e, r = .error e ∧ e ≠ .indexError) ∨
      ∃ event signature, r = .ok (event.payload, signature) ∧
        answeredEvent eventId identity db = some event ∧
        heldEvent eventId s'.identity = some event) := by
  unfold prepareDelivery at h
  rcases bind_cases h with ⟨e, hget, rfl⟩ | ⟨found, s₁, hget, hrest⟩
  · obtain ⟨hr, -, -, -⟩ := sessionGetEvent_cases hget
    cases hr
  · obtain ⟨hr, hcommitted, -, hheld⟩ := sessionGetEvent_cases hget
    cases found with
    | none =>
      cases hrest
      exact ⟨hcommitted, .inl ⟨_, rfl, nofun⟩⟩
    | some event =>
      have hfound : answeredEvent eventId identity db = some event := (Except.ok.inj hr).symm
      have hheld := hheld event rfl
      unfold signWebhook at hrest
      by_cases hsecret : secret = ""
      · simp only [if_pos hsecret] at hrest
        cases hrest
        exact ⟨hcommitted, .inl ⟨_, rfl, nofun⟩⟩
      · simp only [if_neg hsecret] at hrest
        cases hrest
        exact ⟨hcommitted, .inr ⟨event, _, rfl, hfound, hheld⟩⟩

/-- The call of the receiver: what becomes of its reply, the session of the dispatcher left alone. -/
theorem callReceiver_apply (receiver : WebhookReceiver) (fault : Option DeliveryFault)
    (payload : EventPayload) (signature : String) (now : Datetime) (s : DatabaseSession) :
    callReceiver receiver fault payload signature now s =
      (if invokesReceiver fault then observeReply fault (receiver payload signature (asUtc now))
        else .ok timedOut, s) := by
  unfold callReceiver
  by_cases hinvokes : invokesReceiver fault = true
  · rw [if_pos hinvokes, if_pos hinvokes]
    cases observeReply fault (receiver payload signature (asUtc now)) <;> rfl
  · rw [if_neg hinvokes, if_neg hinvokes]
    rfl

theorem recordAttempt_steps {loaded finalized : WebhookEventRecord}
    {attempt : WebhookDeliveryAttemptRecord} {db db' : Database}
    (h : recordAttempt loaded finalized attempt db = .ok db') :
    ∃ db₁, updateEvent loaded finalized db = .ok db₁ ∧
      insertDeliveryAttempt attempt db₁ = .ok db' := by
  unfold recordAttempt at h
  cases hevent : updateEvent loaded finalized db with
  | error e =>
    rw [hevent] at h
    cases h
  | ok db₁ =>
    rw [hevent] at h
    exact ⟨db₁, rfl, h⟩

/-- The flush of a finalize: the event row by its id, then the attempt. -/
theorem recordAttempt_eq_ok {loaded finalized : WebhookEventRecord} {current : Instant}
    {delivery : Delivery} {next : Option Instant} {db db' : Database}
    (final : loaded.finalized current delivery = .ok (finalized, next))
    (h : recordAttempt loaded finalized (newAttempt loaded current delivery) db = .ok db') :
    RecordsAttempt loaded current delivery db db' := by
  obtain ⟨db₁, hevent, hattempt⟩ := recordAttempt_steps h
  unfold updateEvent at hevent
  cases hstored : db.webhookEvents.get loaded.id with
  | none =>
    rw [hstored] at hevent
    cases hevent
  | some stored =>
    rw [hstored] at hevent
    obtain ⟨events, hupdate, rfl⟩ := updateIn_eq_ok hevent
    obtain ⟨attempts, hinsert, rfl⟩ := insertInto_eq_ok hattempt
    exact ⟨⟨stored, finalized, next, hstored, final, hupdate⟩, hinsert, rfl⟩

/-- What a refused flush raises. -/
theorem recordAttempt_eq_error {loaded finalized : WebhookEventRecord}
    {attempt : WebhookDeliveryAttemptRecord} {db : Database} {e : ServiceError}
    (h : recordAttempt loaded finalized attempt db = .error e) :
    e = .staleData ∨ e = .integrityError := by
  unfold recordAttempt at h
  cases hevent : updateEvent loaded finalized db with
  | error e' =>
    rw [hevent] at h
    cases h
    unfold updateEvent at hevent
    split at hevent
    · cases hevent
      exact .inl rfl
    · exact .inr (updateIn_eq_error hevent)
  | ok db₁ =>
    rw [hevent] at h
    have hinsert : insertDeliveryAttempt attempt db₁ = .error e := h
    exact .inr (insertInto_eq_error hinsert)

/-- **A finalize**: it compares the token of the object the session answers with, and writes the
event and the attempt together or not at all. -/
theorem finalizeDelivery_cases {eventId leaseToken : String} {now : Datetime} {delivery : Delivery}
    {identity : IdentityMap} {db : Database} {s' : DatabaseSession}
    {r : Except ServiceError DeliveryResult}
    (h : finalizeDelivery eventId leaseToken now delivery (Session.start db identity) = (r, s')) :
    Finalizes eventId leaseToken (asUtc now) delivery (answeredEvent eventId identity db) db
      s'.committed r := by
  unfold finalizeDelivery at h
  rcases bind_cases h with ⟨e, hget, rfl⟩ | ⟨event, s₁, hget, hrest⟩
  · obtain ⟨hr, -, -, -⟩ := sessionGetEvent_cases hget
    cases hr
  · obtain ⟨hr, hcommitted, hworking, -⟩ := sessionGetEvent_cases hget
    have hanswer : answeredEvent eventId identity db = event := (Except.ok.inj hr).symm
    have hdb : s₁.working = db := hworking
    rw [hanswer]
    cases event with
    | none =>
      cases hrest
      exact .missing rfl hcommitted
    | some loaded =>
      by_cases htoken : loaded.leaseToken = some leaseToken
      · obtain ⟨⟨finalized, next⟩, hfinal⟩ := loaded.finalized_isOk (asUtc now) delivery
        simp only [htoken, ne_eq, not_true_eq_false, if_false, hfinal] at hrest
        rcases bind_cases hrest with ⟨e, hguard, rfl⟩ | ⟨_, s₂, hguard, hrest⟩
        · obtain ⟨s₂, hflush, hsame, -⟩ := discard_cases hguard
          obtain ⟨hrefused, rfl⟩ := flush_eq_error hflush
          rw [hdb] at hrefused
          exact .refused rfl htoken hfinal hrefused (hsame.trans hcommitted)
        · have hflush := tryCatch_eq_ok (fun _ _ => ⟨_, _, rfl⟩) hguard
          obtain ⟨db', hrecord, rfl⟩ := flush_eq_ok hflush
          rw [hdb] at hrecord
          cases hrest
          exact .recorded rfl htoken (recordAttempt_eq_ok hfinal hrecord)
      · simp only [htoken, ne_eq, not_false_eq_true, if_true] at hrest
        cases hrest
        exact .superseded rfl htoken hcommitted

/-! ## One transaction of a worker -/

/-- What one transaction of a worker does, with all it leaves in the store and in the session. Every
invariant of delivery is derived from this and not from the code of the call. -/
inductive Worker.Acts (worker : Worker) (db db' : Database) (after : Worker) : Prop
  /-- the event is leased, and every loaded object expired -/
  | claimed {event : WebhookEventRecord} : worker.phase = .ready →
      event.id = worker.call.eventId →
      Leases event worker.call.leaseToken (asUtc worker.call.now) db db' →
      after = { worker with identity := ∅, phase := .leased worker.call.leaseToken } →
      Worker.Acts worker db db' after
  /-- the event is loaded -/
  | loaded {leaseToken signature : String} {event : WebhookEventRecord} {identity : IdentityMap} :
      worker.phase = .leased leaseToken → db' = db →
      answeredEvent worker.call.eventId worker.identity db = some event →
      heldEvent worker.call.eventId identity = some event →
      after =
        { worker with
          identity := identity
          phase := .prepared leaseToken event.payload signature } →
      Worker.Acts worker db db' after
  /-- the receiver is called, or a fault keeps it from being called -/
  | replied {leaseToken signature : String} {payload : EventPayload} :
      worker.phase = .prepared leaseToken payload signature → db' = db →
      after = { worker with phase := .ofResult ((
        if invokesReceiver worker.call.fault then
          observeReply worker.call.fault
            (worker.call.receiver payload signature (asUtc worker.call.now))
        else .ok timedOut).map (.answered leaseToken)) } →
      Worker.Acts worker db db' after
  /-- the attempt is finalized -/
  | finalized {leaseToken : String} {delivery : Delivery} {identity : IdentityMap}
      {result : Except ServiceError DeliveryResult} :
      worker.phase = .answered leaseToken delivery →
      Finalizes worker.call.eventId leaseToken (asUtc worker.call.now) delivery
        (answeredEvent worker.call.eventId worker.identity db) db db' result →
      after = { worker with identity := identity, phase := .finished result } →
      Worker.Acts worker db db' after
  /-- the claim or the load raises -/
  | failed {identity : IdentityMap} {e : ServiceError} :
      (worker.phase = .ready ∨ ∃ leaseToken, worker.phase = .leased leaseToken) →
      e ≠ .indexError → db' = db →
      after = { worker with identity := identity, phase := .finished (.error e) } →
      Worker.Acts worker db db' after

variable {hmacSha256 : String → Int → EventPayload → String}

/-- A transaction, from the run of its program. -/
theorem Worker.act_eq {worker : Worker} {db : Database} {r : Except ServiceError DispatchPhase}
    {s' : DatabaseSession}
    (h : worker.call.step hmacSha256 worker.phase (Session.start db worker.identity) = (r, s')) :
    worker.act hmacSha256 db =
      (s'.committed, { worker with identity := s'.identity, phase := .ofResult r }) := by
  unfold Worker.act
  rw [h]

/-- **One transaction of a worker.** -/
theorem Worker.act_cases {worker after : Worker} {db db' : Database}
    (unfinished : ¬worker.phase.Ended) (h : worker.act hmacSha256 db = (db', after)) :
    Worker.Acts worker db db' after := by
  obtain ⟨call, identity, phase⟩ := worker
  obtain ⟨r, s', hrun⟩ : ∃ r s', call.step hmacSha256 phase (Session.start db identity) = (r, s') :=
    ⟨_, _, rfl⟩
  rw [Worker.act_eq hrun] at h
  cases h
  cases phase with
  | ready =>
    obtain ⟨claimed, hclaim, rfl⟩ := bind_pure_cases hrun
    rcases claimDelivery_cases hclaim with
      ⟨⟨e, rfl, he⟩, hsame⟩ | ⟨event, hid, rfl, hempty, hclaimed⟩
    · exact .failed (.inl rfl) he hsame rfl
    · exact .claimed rfl hid hclaimed (by rw [hempty]; rfl)
  | leased leaseToken =>
    obtain ⟨prepared, hprepare, rfl⟩ :=
      bind_pure_cases
        (f := fun p : EventPayload × String => DispatchPhase.prepared leaseToken p.1 p.2) hrun
    obtain ⟨hsame, ⟨e, rfl, he⟩ | ⟨event, signature, rfl, hanswer, hheld⟩⟩ :=
      prepareDelivery_cases hprepare
    · exact .failed (.inr ⟨leaseToken, rfl⟩) he hsame rfl
    · exact .loaded rfl hsame hanswer hheld rfl
  | prepared leaseToken payload signature =>
    obtain ⟨reply, hcall, rfl⟩ := bind_pure_cases hrun
    rw [callReceiver_apply] at hcall
    cases hcall
    exact .replied rfl rfl rfl
  | answered leaseToken delivery =>
    obtain ⟨result, hfinalize, rfl⟩ := bind_pure_cases hrun
    have houtcome := finalizeDelivery_cases hfinalize
    cases result with
    | ok result => exact .finalized rfl houtcome rfl
    | error e => exact .finalized rfl houtcome rfl
  | finished => exact absurd trivial unfinished
  | interrupted => exact absurd trivial unfinished

/-- What a reply may raise is the receiver's own exception. -/
theorem observeReply_eq_error {fault : Option DeliveryFault} {reply : Reply} {e : ServiceError}
    (h : observeReply fault reply = .error e) : e = .receiverError ∧ reply = .raised := by
  cases reply with
  | status code =>
    simp only [observeReply] at h
    split at h
    · cases h
    · split at h <;> cases h
  | timeoutError => cases h
  | connectionError => cases h
  | raised =>
    cases h
    exact ⟨rfl, rfl⟩

/-- **No transaction of a worker runs past the retry delays.** -/
theorem Worker.Acts.inRange {worker after : Worker} {db db' : Database}
    (h : worker.Acts db db' after) : after.phase ≠ .finished (.error .indexError) := by
  cases h with
  | claimed _ _ _ hafter => rw [hafter]; exact nofun
  | loaded _ _ _ _ hafter => rw [hafter]; exact nofun
  | replied _ _ hafter =>
    rw [hafter]
    generalize hreply : (if invokesReceiver worker.call.fault then _ else _ :
      Except ServiceError Delivery) = reply
    cases reply with
    | ok delivery => exact nofun
    | error e =>
      split at hreply
      · rw [(observeReply_eq_error hreply).1]
        exact nofun
      · cases hreply
  | finalized _ hfinalizes hafter =>
    rw [hafter]
    cases hfinalizes with
    | missing => exact nofun
    | superseded => exact nofun
    | refused _ _ _ hrefused _ =>
      rcases recordAttempt_eq_error hrefused with rfl | rfl <;> exact nofun
    | recorded => exact nofun
  | failed _ he _ hafter =>
    rw [hafter]
    intro heq
    cases heq
    exact he rfl

/-! ## A call on its own -/

/-- The receiver call a worker is about to make: its reply, when a fault does not prevent it. -/
def Worker.invocation (worker : Worker) : List Reply :=
  match worker.phase with
  | .prepared _ payload signature =>
    if invokesReceiver worker.call.fault then
      [worker.call.receiver payload signature (asUtc worker.call.now)]
    else []
  | _ => []

/-- The transactions a call still has ahead of it, at most. -/
def DispatchPhase.ahead : DispatchPhase → Nat
  | .ready => 4
  | .leased _ => 3
  | .prepared .. => 2
  | .answered .. => 1
  | .finished _ | .interrupted => 0

variable (hmacSha256) in
/-- The transactions of a call back to back: the replies of the receiver, the store and the worker
afterwards. -/
def Worker.run : Nat → Worker → Database → List Reply × Database × Worker
  | 0, worker, db => ([], db, worker)
  | n + 1, worker, db =>
    if worker.phase.Ended then ([], db, worker)
    else
      let x := worker.act hmacSha256 db
      let rest := Worker.run n x.2 x.1
      (worker.invocation ++ rest.1, rest.2)

/-- A transaction ends the call or brings it nearer to its end. -/
theorem Worker.Acts.ahead {worker after : Worker} {db db' : Database}
    (h : worker.Acts db db' after) :
    after.phase.ahead < worker.phase.ahead ∧ after.phase ≠ .interrupted := by
  cases h with
  | claimed hphase _ _ hafter =>
    rw [hphase, hafter]
    exact ⟨by simp [DispatchPhase.ahead], nofun⟩
  | loaded hphase _ _ _ hafter =>
    rw [hphase, hafter]
    exact ⟨by simp [DispatchPhase.ahead], nofun⟩
  | replied hphase _ hafter =>
    rw [hphase, hafter]
    generalize (if invokesReceiver worker.call.fault then _ else _ : Except ServiceError Delivery) =
      reply
    cases reply <;> exact ⟨by simp [DispatchPhase.ahead, DispatchPhase.ofResult, Except.map], nofun⟩
  | finalized hphase _ hafter =>
    rw [hphase, hafter]
    exact ⟨by simp [DispatchPhase.ahead], nofun⟩
  | failed hphase _ _ hafter =>
    rw [hafter]
    rcases hphase with hphase | ⟨_, hphase⟩ <;> rw [hphase] <;>
      exact ⟨by simp [DispatchPhase.ahead], nofun⟩

variable (hmacSha256) in
/-- **Every call returns or raises.** -/
theorem Worker.run_finishes (n : Nat) (worker : Worker) (db : Database)
    (enough : worker.phase.ahead ≤ n) (running : worker.phase ≠ .interrupted) :
    ∃ result, (worker.run hmacSha256 n db).2.2.phase = .finished result := by
  induction n generalizing worker db with
  | zero =>
    obtain ⟨call, identity, phase⟩ := worker
    cases phase with
    | finished result => exact ⟨result, rfl⟩
    | interrupted => exact absurd rfl running
    | ready => exact absurd enough (by simp [DispatchPhase.ahead])
    | leased => exact absurd enough (by simp [DispatchPhase.ahead])
    | prepared => exact absurd enough (by simp [DispatchPhase.ahead])
    | answered => exact absurd enough (by simp [DispatchPhase.ahead])
  | succ n ih =>
    unfold Worker.run
    by_cases ended : worker.phase.Ended
    · rw [if_pos ended]
      obtain ⟨call, identity, phase⟩ := worker
      cases phase with
      | finished result => exact ⟨result, rfl⟩
      | interrupted => exact absurd rfl running
      | ready => exact ended.elim
      | leased => exact ended.elim
      | prepared => exact ended.elim
      | answered => exact ended.elim
    · rw [if_neg ended]
      obtain ⟨db', after, hact⟩ : ∃ db' after, worker.act hmacSha256 db = (db', after) :=
        ⟨_, _, rfl⟩
      obtain ⟨hahead, hrunning⟩ := (Worker.act_cases ended hact).ahead
      rw [hact]
      exact ih after db' (by omega) hrunning

/-- A finalize from a session that holds its event. -/
theorem finalizeDelivery_held {eventId : String} (leaseToken : String) (now : Datetime)
    (delivery : Delivery) {s : DatabaseSession} {event : WebhookEventRecord}
    (held : heldEvent eventId s.identity = some event) (begun : Bool) :
    ∃ b, (finalizeDelivery eventId leaseToken now delivery { s with begun := begun }) =
      ((finalizeDelivery eventId leaseToken now delivery s).1,
        { (finalizeDelivery eventId leaseToken now delivery s).2 with begun := b }) := by
  have hget : ∀ t : DatabaseSession, t.identity = s.identity →
      sessionGetEvent eventId t = (.ok (some event), t) := by
    intro t ht
    unfold sessionGetEvent
    rw [getThrough_apply]
    unfold heldEvent at held
    rw [ht]
    simp only [held]
  unfold finalizeDelivery
  rw [bind_ok (hget s rfl), bind_ok (hget { s with begun := begun } rfl)]
  dsimp only
  split
  · exact ⟨begun, rfl⟩
  · cases event.finalized (asUtc now) delivery with
    | error e => exact ⟨begun, rfl⟩
    | ok finalized =>
      dsimp only
      cases hrecord : recordAttempt event finalized.1 (newAttempt event (asUtc now) delivery)
          s.working with
      | error e =>
        have hrefused : ∀ t : DatabaseSession, t.working = s.working →
            (tryCatch (flush (recordAttempt event finalized.1
              (newAttempt event (asUtc now) delivery)))
              fun e => rollback >>= fun _ => throw e : Service Unit) t =
              (.error e, { t with working := t.committed, begun := false, reserved := false, identity := ∅ }) := by
          intro t ht
          rw [tryCatch_error (flush_error (by rw [ht, hrecord]))]
          rfl
        rw [bind_error (hrefused s rfl), bind_error (hrefused { s with begun := begun } rfl)]
        exact ⟨false, rfl⟩
      | ok db =>
        have hflushed : ∀ t : DatabaseSession, t.working = s.working →
            (tryCatch (flush (recordAttempt event finalized.1
              (newAttempt event (asUtc now) delivery)))
              fun e => rollback >>= fun _ => throw e : Service Unit) t =
              (.ok (), { t with working := db, begun := true }) := by
          intro t ht
          exact tryCatch_ok (flush_ok (by rw [ht, hrecord]))
        rw [bind_ok (hflushed s rfl), bind_ok (hflushed { s with begun := begun } rfl)]
        exact ⟨false, rfl⟩

theorem sessionGetEvent_session {eventId : String} {s s' : DatabaseSession}
    {r : Except ServiceError (Option WebhookEventRecord)} (h : sessionGetEvent eventId s = (r, s')) :
    s' = { s with begun := s'.begun, identity := s'.identity } := by
  unfold sessionGetEvent at h
  rw [getThrough_apply] at h
  split at h
  · cases h
    rfl
  · split at h <;> cases h <;> rfl

theorem prepareDelivery_session {eventId secret : String} {now : Datetime} {s s' : DatabaseSession}
    {r : Except ServiceError (EventPayload × String)}
    (h : prepareDelivery hmacSha256 eventId secret now s = (r, s')) :
    s' = { s with begun := s'.begun, identity := s'.identity } := by
  unfold prepareDelivery at h
  rcases bind_cases h with ⟨e, hget, rfl⟩ | ⟨found, s₁, hget, hrest⟩
  · exact sessionGetEvent_session hget
  · have hsession := sessionGetEvent_session hget
    cases found with
    | none =>
      cases hrest
      exact hsession
    | some event =>
      unfold signWebhook at hrest
      by_cases hsecret : secret = ""
      · simp only [if_pos hsecret] at hrest
        cases hrest
        exact hsession
      · simp only [if_neg hsecret] at hrest
        cases hrest
        exact hsession

theorem claimDelivery_session {eventId hex leaseToken : String} {now : Datetime}
    {s s' : DatabaseSession} (h : claimDelivery eventId now hex s = (.ok leaseToken, s')) :
    s' = Session.start s'.committed ∅ := by
  unfold claimDelivery at h
  obtain ⟨found, s₁, -, hrest⟩ := bind_eq_ok h
  cases found with
  | none => cases hrest
  | some =>
    dsimp only at hrest
    rw [bind_ok (query_apply _ s₁)] at hrest
    obtain ⟨_, s₂, -, hrest⟩ := bind_eq_ok hrest
    rw [bind_ok (commit_apply _)] at hrest
    split at hrest
    · cases hrest
    · cases hrest
      rfl

/-- A call that has ended runs no further. -/
theorem Worker.run_of_ended {n : Nat} {worker : Worker} {db : Database} (ended : worker.phase.Ended) :
    (worker.run hmacSha256 n db).2 = (db, worker) := by
  cases n with
  | zero => rfl
  | succ n =>
    unfold Worker.run
    rw [if_pos ended]

/-- One more transaction of a run. -/
theorem Worker.run_succ {n : Nat} {worker : Worker} {db : Database} {s' : DatabaseSession}
    {r : Except ServiceError DispatchPhase} (unfinished : ¬worker.phase.Ended)
    (h : worker.call.step hmacSha256 worker.phase (Session.start db worker.identity) = (r, s')) :
    (worker.run hmacSha256 (n + 1) db).2 =
      (Worker.run hmacSha256 n { worker with identity := s'.identity, phase := .ofResult r }
        s'.committed).2 := by
  unfold Worker.run
  rw [if_neg unfinished, Worker.act_eq h]
  cases n <;> rfl

/-- **The transactions of a call, back to back, are `dispatch_webhook`.** -/
theorem Worker.run_dispatch (call : Dispatch) (identity : IdentityMap) (db : Database)
    {r : Except ServiceError DeliveryResult} {s' : DatabaseSession}
    (h : dispatchWebhook hmacSha256 call.eventId call.secret call.receiver call.now call.fault
      call.hex (Session.start db identity) = (r, s')) :
    (Worker.run hmacSha256 4 ⟨call, identity, .ready⟩ db).2 =
      (s'.committed, ⟨call, s'.identity, .finished r⟩) := by
  unfold dispatchWebhook at h
  rcases bind_cases h with ⟨e, hclaim, rfl⟩ | ⟨leaseToken, s₁, hclaim, h⟩
  · have hstep : call.step hmacSha256 .ready (Session.start db identity) = (.error e, s') :=
      bind_error hclaim
    rw [Worker.run_succ id hstep]
    exact Worker.run_of_ended trivial
  have hstep : call.step hmacSha256 .ready (Session.start db identity) =
      (.ok (.leased leaseToken), s₁) := bind_ok hclaim
  rw [Worker.run_succ id hstep]
  have hstart := claimDelivery_session hclaim
  have hexpired : s₁.identity = ∅ := by rw [hstart]; rfl
  rcases bind_cases h with ⟨e, hprepare, rfl⟩ | ⟨⟨payload, signature⟩, s₂, hprepare, h⟩
  · have hstep : call.step hmacSha256 (.leased leaseToken) (Session.start s₁.committed s₁.identity) =
        (.error e, s') := bind_error (by rw [hexpired, ← hstart]; exact hprepare)
    rw [Worker.run_succ id hstep]
    exact Worker.run_of_ended trivial
  have hprepare' : prepareDelivery hmacSha256 call.eventId call.secret call.now
      (Session.start s₁.committed s₁.identity) = (.ok (payload, signature), s₂) := by
    rw [hexpired, ← hstart]
    exact hprepare
  have hstep : call.step hmacSha256 (.leased leaseToken) (Session.start s₁.committed s₁.identity) =
      (.ok (.prepared leaseToken payload signature), s₂) := bind_ok hprepare'
  rw [Worker.run_succ id hstep]
  have hsession := prepareDelivery_session hprepare'
  obtain ⟨hsame, ⟨_, herror, -⟩ | ⟨event, _, -, -, hheld⟩⟩ := prepareDelivery_cases hprepare'
  · cases herror
  dsimp only at h
  obtain ⟨reply, hreply⟩ : ∃ reply, ∀ s : DatabaseSession,
      callReceiver call.receiver call.fault payload signature call.now s = (reply, s) :=
    ⟨_, callReceiver_apply call.receiver call.fault payload signature call.now⟩
  cases reply with
  | error e =>
    rw [bind_error (hreply s₂)] at h
    cases h
    have hstep : call.step hmacSha256 (.prepared leaseToken payload signature)
        (Session.start s'.committed s'.identity) =
        (.error e, Session.start s'.committed s'.identity) := bind_error (hreply _)
    rw [Worker.run_succ id hstep]
    exact Worker.run_of_ended trivial
  | ok delivery =>
    rw [bind_ok (hreply s₂)] at h
    have hstep : call.step hmacSha256 (.prepared leaseToken payload signature)
        (Session.start s₂.committed s₂.identity) =
        (.ok (.answered leaseToken delivery), Session.start s₂.committed s₂.identity) :=
      bind_ok (hreply _)
    rw [Worker.run_succ id hstep]
    -- the store the load left is the one it found, so the finalize starts in the same session
    have hstart₂ : Session.start s₂.committed s₂.identity = { s₂ with begun := false } := by
      rw [hsession]
      rfl
    obtain ⟨begun, hfinalize⟩ := finalizeDelivery_held leaseToken call.now delivery hheld false
    rw [h] at hfinalize
    have hstep : call.step hmacSha256 (.answered leaseToken delivery)
        (Session.start s₂.committed s₂.identity) =
        (r.map fun result => .finished (.ok result), { s' with begun := begun }) := by
      show (finalizeDelivery call.eventId leaseToken call.now delivery >>= fun result =>
        pure (DispatchPhase.finished (.ok result))) (Session.start s₂.committed s₂.identity) = _
      rw [bind_apply, hstart₂, hfinalize]
      cases r <;> rfl
    rw [Worker.run_succ id hstep]
    cases r <;> exact Worker.run_of_ended trivial

end PaymentLab
