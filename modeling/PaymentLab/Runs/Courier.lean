import PaymentLab.Consumer.Wire
import PaymentLab.Runs.ConsumerPool
import PaymentLab.Runs.Deliveries

/-!
# Couriers

The route `deliver_webhook_event`: a dispatch whose receiver is `consume_webhook` in a session of its
own. A courier runs the transactions of the dispatch; between the load of its event and the finalize
it runs the phases of the consumer, and anyone else may commit between any two of them. The receiver
is no function here: its reply is how the consumer's call ended (`ConsumerPhase.reply`).

`Courier.next_cases` says what one transaction of a courier does, once. The assertions of a courier
(`Courier.Coherent`) and of any call of the consumer (`ConsumerThread.Sound`) follow from it.

The reply is an acknowledgement where the call of the consumer answers and an exception where it
raises. None of these exceptions is one that the dispatcher catches, so a call that raises ends the
dispatch without recording an attempt. A courier that dies takes its consumer with it, and what each
has committed by then stays.
-/

namespace PaymentLab

open Relational Transactional Transactional.Service

/-! ## The route -/

/-- A request of the route: the event, the secret of both halves, the clock, the fault, the generated
part of the lease token, and whether the driver refuses the consumer's write. The route has one
secret, so what it sends is signed as its consumer expects. -/
structure CourierRequest where
  eventId : String
  secret : String
  now : Datetime
  fault : Option DeliveryFault
  hex : String
  refused : Bool

/-- The dispatch of a request, with the reply of its receiver. -/
def CourierRequest.dispatch (request : CourierRequest) (reply : Reply) : Dispatch where
  eventId := request.eventId
  secret := request.secret
  receiver := fun _ _ _ => reply
  now := request.now
  fault := request.fault
  hex := request.hex

/-- What `receiver` calls: the consumer, on the signed body, at the time of the dispatch. -/
def CourierRequest.consumerCall (request : CourierRequest) (payload : EventPayload)
    (signature : String) : ConsumerCall where
  payload := payload.body
  signatureHeader := signature
  secret := request.secret
  now := .aware (asUtc request.now)
  faults := { afterInbox := false, storage := request.refused }

/-- What `receiver` returns once its call has ended: 200, or the exception of the consumer. -/
def ConsumerPhase.reply : ConsumerPhase → Option Reply
  | .finished (.ok _) => some (.status 200)
  | .finished (.error _) => some .raised
  | _ => none

/-- A courier: its request, the objects of the dispatching session, how far the dispatch is, and the
call of the consumer while it runs. The consumer has a session of its own. -/
structure Courier where
  request : CourierRequest
  identity : IdentityMap
  phase : DispatchPhase
  consumer : Option ConsumerThread

/-- The dispatching half, with the reply it is about to see. -/
def Courier.worker (courier : Courier) (reply : Reply) : Worker :=
  { call := courier.request.dispatch reply, identity := courier.identity, phase := courier.phase }

/-- The call of the consumer that comes before the next transaction of the dispatch. -/
def Courier.invocation (courier : Courier) : Option ConsumerCall :=
  match courier.phase with
  | .prepared _ payload signature =>
    if invokesReceiver courier.request.fault then
      some (courier.request.consumerCall payload signature)
    else none
  | _ => none

section Step

variable (lib : StandardLibrary)

/-- The signature of a body is that of its bytes. -/
def StandardLibrary.signs (secret : String) (timestamp : Int) (payload : EventPayload) : String :=
  lib.hmacSha256 secret timestamp payload.body

/-- The next transaction of the dispatch. -/
def Courier.dispatch (courier : Courier) (reply : Reply) (db : Database) : Database × Courier :=
  let (db', worker) := (courier.worker reply).act lib.signs db
  (db', { courier with identity := worker.identity, phase := worker.phase, consumer := none })

/-- The next thing a courier does: it calls the consumer, runs the consumer's next phase, or runs
the next transaction of the dispatch. -/
def Courier.next (courier : Courier) (db : Database) : Database × Courier :=
  match courier.invocation with
  -- no reply is read before the receiver is called
  | none => courier.dispatch lib .raised db
  | some call =>
    match courier.consumer with
    | none => (db, { courier with consumer := some { call := call, phase := .ready } })
    | some thread =>
      match thread.phase.reply with
      | none =>
        let (db', after) := thread.act lib db
        (db', { courier with consumer := some after })
      | some reply => courier.dispatch lib reply db

/-- What one courier does: it begins a request when the last has ended, takes the next transaction of
the one it has, or dies. -/
inductive Courier.Step : Pool.Protocol Database Courier
  /-- a new request, on a session that may hold objects already -/
  | begin {db : Database} {courier : Courier} (request : CourierRequest) (identity : IdentityMap) :
      courier.phase.Ended →
      Step db courier db
        { request := request, identity := identity, phase := .ready, consumer := none }
  | next {db db' : Database} {courier after : Courier} : ¬courier.phase.Ended →
      courier.next lib db = (db', after) → Step db courier db' after
  /-- a crash between two transactions takes the consumer's call with it -/
  | crash {db : Database} {courier : Courier} : ¬courier.phase.Ended →
      Step db courier db { courier with phase := .interrupted, consumer := none }

/-- What the next transaction of a courier is: the receiver is called, the call runs on, or the
dispatch takes a transaction. A call that has ended is answered to the dispatch by the step that
follows. -/
inductive Courier.Moves (courier : Courier) (db db' : Database) (after : Courier) : Prop
  | called {call : ConsumerCall} : courier.invocation = some call → courier.consumer = none →
      db' = db → after = { courier with consumer := some { call := call, phase := .ready } } →
      Courier.Moves courier db db' after
  | consumed {call : ConsumerCall} {thread thread' : ConsumerThread} :
      courier.invocation = some call → courier.consumer = some thread →
      ConsumerPool lib db thread db' thread' →
      after = { courier with consumer := some thread' } → Courier.Moves courier db db' after
  | dispatched {reply : Reply} {worker : Worker} :
      (∀ call, courier.invocation = some call → ∃ thread, courier.consumer = some thread ∧
        thread.phase.reply = some reply) →
      (courier.worker reply).Acts db db' worker →
      after =
        { courier with identity := worker.identity, phase := worker.phase, consumer := none } →
      Courier.Moves courier db db' after

variable {lib}

/-- A phase without a reply has not ended. -/
theorem ConsumerPhase.unfinished {phase : ConsumerPhase} (h : phase.reply = none) :
    ∀ result, phase ≠ .finished result := by
  rintro result rfl
  cases result <;> cases h

/-- **The next transaction of a courier.** -/
theorem Courier.next_cases {courier after : Courier} {db db' : Database}
    (unfinished : ¬courier.phase.Ended) (h : courier.next lib db = (db', after)) :
    Courier.Moves lib courier db db' after := by
  have dispatched : ∀ reply, (∀ call, courier.invocation = some call →
      ∃ thread, courier.consumer = some thread ∧ thread.phase.reply = some reply) →
      courier.dispatch lib reply db = (db', after) → Courier.Moves lib courier db db' after := by
    intro reply known hdispatch
    unfold Courier.dispatch at hdispatch
    obtain ⟨db₁, worker, hact⟩ : ∃ db₁ worker, (courier.worker reply).act lib.signs db =
      (db₁, worker) := ⟨_, _, rfl⟩
    rw [hact] at hdispatch
    cases hdispatch
    exact .dispatched known (Worker.act_cases unfinished hact) rfl
  unfold Courier.next at h
  cases hcall : courier.invocation with
  | none =>
    rw [hcall] at h
    refine dispatched .raised (fun call hsome => ?_) h
    rw [hcall] at hsome
    cases hsome
  | some call =>
    rw [hcall] at h
    dsimp only at h
    cases hthread : courier.consumer with
    | none =>
      rw [hthread] at h
      cases h
      exact .called hcall hthread rfl rfl
    | some thread =>
      rw [hthread] at h
      dsimp only at h
      cases hreply : thread.phase.reply with
      | none =>
        rw [hreply] at h
        cases h
        exact .consumed hcall hthread ⟨ConsumerPhase.unfinished hreply, rfl⟩ rfl
      | some reply =>
        rw [hreply] at h
        exact dispatched reply (fun _ _ => ⟨thread, hthread, hreply⟩) h

end Step

/-! ## A call of the consumer -/

section Sound

variable (lib : StandardLibrary)

/-- What holds of every call of the consumer: it works on the envelope its body was accepted as, and
once it has answered, the event is in the inbox under the digest of the body. The event may have been
put there by another call. -/
structure ConsumerThread.Sound (db : Database) (thread : ConsumerThread) : Prop where
  unseen : ∀ envelope, thread.phase = .unseen envelope → thread.call.accepted lib = .ok envelope
  decided : ∀ envelope decision, thread.phase = .decided envelope decision →
    thread.call.accepted lib = .ok envelope
  answered : ∀ outcome, thread.phase = .finished (.ok outcome) → ∃ envelope row,
    thread.call.accepted lib = .ok envelope ∧
      db.processedWebhooks.get envelope.id = some row ∧
      row.payloadHash = lib.sha256 thread.call.payload

/-- The inbox only grows. -/
def KeepsInbox (db db' : Database) : Prop :=
  ∀ id row, db.processedWebhooks.get id = some row → db'.processedWebhooks.get id = some row

variable {lib} {db db' : Database}

theorem KeepsInbox.refl (db : Database) : KeepsInbox db db := fun _ _ h => h

theorem KeepsInbox.of_same (h : db'.processedWebhooks = db.processedWebhooks) :
    KeepsInbox db db' := by
  intro id row hrow
  rw [h]
  exact hrow

theorem Consumes.keepsInbox {envelope : WebhookEnvelope} {payloadHash : String}
    {decision : ConsumerDecision} {now : Datetime}
    (h : Consumes envelope payloadHash decision now db db') : KeepsInbox db db' :=
  fun _ _ hrow => Table.get_insert_of_some h.inbox hrow

theorem ConsumerMoves.keepsInbox {thread : ConsumerThread} {phase : ConsumerPhase}
    (h : ConsumerMoves lib thread db db' phase) : KeepsInbox db db' := by
  cases h with
  | ended => exact .refl db
  | read => exact .refl db
  | compared => exact .refl db
  | wrote _ consumes => exact consumes.keepsInbox

theorem ConsumerThread.Sound.ready (call : ConsumerCall) :
    ConsumerThread.Sound lib db ⟨call, .ready⟩ := by
  refine ⟨fun _ h => ?_, fun _ _ h => ?_, fun _ h => ?_⟩ <;> cases h

theorem ConsumerThread.Sound.kept {thread : ConsumerThread} (h : thread.Sound lib db)
    (kept : KeepsInbox db db') : thread.Sound lib db' := by
  refine ⟨h.unseen, h.decided, fun outcome hphase => ?_⟩
  obtain ⟨envelope, row, haccepted, hrow, hhash⟩ := h.answered outcome hphase
  exact ⟨envelope, row, haccepted, kept _ _ hrow, hhash⟩

/-- A call that has ended with an answer from the inbox, or with an exception. -/
theorem ConsumerThread.Sound.repeated {call : ConsumerCall} {envelope : WebhookEnvelope}
    {existing : ProcessedWebhookRecord} (haccepted : call.accepted lib = .ok envelope)
    (hexisting : db.processedWebhooks.get envelope.id = some existing) :
    ConsumerThread.Sound lib db
      ⟨call, .finished (repeatedAnswer existing envelope.id (lib.sha256 call.payload))⟩ := by
  refine ⟨fun _ h => ?_, fun _ _ h => ?_, fun outcome hphase => ?_⟩
  · cases h
  · cases h
  refine ⟨envelope, existing, haccepted, hexisting, ?_⟩
  have hanswer : repeatedAnswer existing envelope.id (lib.sha256 call.payload) = .ok outcome :=
    ConsumerPhase.finished.inj hphase
  unfold repeatedAnswer at hanswer
  split at hanswer
  · cases hanswer
  · next hsame => exact not_not.mp hsame

theorem ConsumerThread.Sound.raised {call : ConsumerCall} {e : ServiceError} :
    ConsumerThread.Sound lib db ⟨call, .finished (.error e)⟩ := by
  refine ⟨fun _ h => ?_, fun _ _ h => ?_, fun _ h => ?_⟩ <;> cases h

/-- **One phase of a sound call leaves it sound.** -/
theorem ConsumerThread.Sound.step {thread after : ConsumerThread} (h : thread.Sound lib db)
    (step : ConsumerPool lib db thread db' after) : after.Sound lib db' := by
  obtain ⟨unfinished, hact⟩ := step
  obtain ⟨call, phase⟩ := thread
  cases phase with
  | ready =>
    cases haccepted : call.accepted lib with
    | error e =>
      rw [act_refused haccepted] at hact
      cases hact
      exact .raised
    | ok envelope =>
      rw [act_ready haccepted] at hact
      cases hinbox : db.processedWebhooks.get envelope.id with
      | some existing =>
        rw [hinbox] at hact
        cases hact
        exact .repeated haccepted hinbox
      | none =>
        rw [hinbox] at hact
        cases hact
        refine ⟨fun found h => ?_, fun _ _ h => ?_, fun _ h => ?_⟩
        · cases h
          exact haccepted
        · cases h
        · cases h
  | unseen envelope =>
    have haccepted := h.unseen envelope rfl
    rw [act_unseen] at hact
    cases hdecide : decideProjection (db.merchantProjections.get envelope.payment.id) envelope with
    | error e =>
      rw [hdecide] at hact
      cases hact
      exact .raised
    | ok decision =>
      rw [hdecide] at hact
      cases hact
      refine ⟨fun _ h => ?_, fun found decided h => ?_, fun _ h => ?_⟩
      · cases h
      · cases h
        exact haccepted
      · cases h
  | decided envelope decision =>
    have haccepted := h.decided envelope decision rfl
    rw [act_decided] at hact
    obtain ⟨r, s', hwrite⟩ : ∃ r s', writeConsumption envelope (lib.sha256 call.payload) decision
        call.now call.faults (readSession db) = (r, s') := ⟨_, _, rfl⟩
    rw [hwrite] at hact
    cases hact
    rcases writeConsumption_cases rfl hwrite with ⟨rfl, consumes, _⟩ | ⟨hsame, unapplied⟩
    · refine ⟨fun _ h => ?_, fun _ _ h => ?_, fun _ _ => ?_⟩
      · cases h
      · cases h
      · exact ⟨envelope, _, haccepted, Table.get_insert_self consumes.inbox, rfl⟩
    · rw [show s'.committed = db from hsame]
      cases unapplied with
      | repeated hexisting => exact .repeated haccepted hexisting
      | raised => exact .raised
  | finished result => exact absurd rfl (unfinished result)

end Sound

/-! ## Couriers between their transactions -/

section Coherent

variable (lib : StandardLibrary)

/-- The body of an event was accepted as an event that is in the inbox, under the digest of the body.
It says nothing of the projection. -/
def Answered (db : Database) (payload : EventPayload) : Prop :=
  ∃ envelope row, parseWebhookPayload lib.loads lib.fromIsoformat payload.body = .ok envelope ∧
    db.processedWebhooks.get envelope.id = some row ∧ row.payloadHash = lib.sha256 payload.body

/-- What holds of every courier: its dispatch is coherent, it holds the body of its event, its
consumer works on that body, and it has been acknowledged only for an event in the inbox. It is kept
by the courier's own steps and by everybody else's. -/
structure Courier.Coherent (db : Database) (courier : Courier) : Prop where
  worker : (courier.worker .raised).Coherent db
  loaded : ∀ leaseToken payload signature, courier.phase = .prepared leaseToken payload signature →
    ∃ event, db.webhookEvents.get courier.request.eventId = some event ∧ event.payload = payload
  consumer : ∀ thread, courier.consumer = some thread →
    courier.invocation = some thread.call ∧ thread.Sound lib db
  acknowledged : ∀ leaseToken delivery, courier.phase = .answered leaseToken delivery →
    delivery.succeeded = true → ∃ event,
      db.webhookEvents.get courier.request.eventId = some event ∧ Answered lib db event.payload

variable {lib} {db db' : Database}

theorem Answered.kept {payload : EventPayload} (h : Answered lib db payload)
    (kept : KeepsInbox db db') : Answered lib db' payload := by
  obtain ⟨envelope, row, hparse, hrow, hhash⟩ := h
  exact ⟨envelope, row, hparse, kept _ _ hrow, hhash⟩

/-- A call of the consumer on the body of an event that answered. -/
theorem ConsumerThread.Sound.payload {thread : ConsumerThread} {request : CourierRequest}
    {payload : EventPayload} {signature : String} {outcome : ConsumerOutcome}
    (h : thread.Sound lib db) (hcall : thread.call = request.consumerCall payload signature)
    (hphase : thread.phase = .finished (.ok outcome)) : Answered lib db payload := by
  obtain ⟨envelope, row, haccepted, hrow, hhash⟩ := h.answered outcome hphase
  rw [hcall] at haccepted hhash
  exact ⟨envelope, row, ConsumerCall.accepted_parse haccepted, hrow, hhash⟩

/-- A courier that waits or has ended. -/
theorem Courier.Coherent.idle {courier : Courier} (consumer : courier.consumer = none)
    (idle : courier.phase = .ready ∨ courier.phase.Ended) : courier.Coherent lib db := by
  obtain ⟨request, identity, phase, thread⟩ := courier
  cases consumer
  refine ⟨?_, fun _ _ _ hphase => ?_, fun _ hthread => ?_, fun _ _ hphase => ?_⟩
  · rcases idle with rfl | ended
    · trivial
    · cases phase <;> trivial
  · cases hphase
    rcases idle with heq | ended
    · cases heq
    · exact ended.elim
  · cases hthread
  · cases hphase
    rcases idle with heq | ended
    · cases heq
    · exact ended.elim

/-- What others do leaves a courier coherent. -/
theorem Courier.Coherent.kept {courier : Courier} (h : courier.Coherent lib db)
    (delivers : Delivers db db') (kept : KeepsInbox db db') : courier.Coherent lib db' := by
  refine ⟨h.worker.delivers delivers, fun leaseToken payload signature hphase => ?_,
    fun thread hthread => ⟨(h.consumer thread hthread).1, (h.consumer thread hthread).2.kept kept⟩,
    fun leaseToken delivery hphase hsucceeded => ?_⟩
  · obtain ⟨event, hstored, hpayload⟩ := h.loaded leaseToken payload signature hphase
    obtain ⟨event', hstored', hlater⟩ := delivers.later hstored
    refine ⟨event', hstored', ?_⟩
    rw [← hpayload]
    exact congrArg PublishedEvent.payload hlater.published
  · obtain ⟨event, hstored, hanswered⟩ := h.acknowledged leaseToken delivery hphase hsucceeded
    obtain ⟨event', hstored', hlater⟩ := delivers.later hstored
    refine ⟨event', hstored', ?_⟩
    have hpayload : event'.payload = event.payload :=
      congrArg PublishedEvent.payload hlater.published
    rw [hpayload]
    exact hanswered.kept kept

/-- An acknowledged attempt had an answer of the consumer. -/
theorem observeReply_status {fault : Option DeliveryFault} {reply : Reply} {delivery : Delivery}
    (h : observeReply fault reply = .ok delivery) (succeeded : delivery.succeeded = true) :
    ∃ code, reply = .status code := by
  cases reply with
  | status code => exact ⟨code, rfl⟩
  | timeoutError =>
    cases h
    cases succeeded
  | connectionError =>
    cases h
    cases succeeded
  | raised => cases h

theorem ConsumerPhase.reply_status {phase : ConsumerPhase} {code : Int}
    (h : phase.reply = some (.status code)) : ∃ outcome, phase = .finished (.ok outcome) := by
  cases phase with
  | finished result =>
    cases result with
    | ok outcome => exact ⟨outcome, rfl⟩
    | error e => cases h
  | ready => cases h
  | unseen envelope => cases h
  | decided envelope decision => cases h

/-- A phase of the consumer writes the inbox and the projections, and nothing else. -/
theorem ConsumerMoves.rest {thread : ConsumerThread} {phase : ConsumerPhase}
    (h : ConsumerMoves lib thread db db' phase) :
    db' =
      { db with
        processedWebhooks := db'.processedWebhooks
        merchantProjections := db'.merchantProjections } := by
  cases h with
  | ended => rfl
  | read => rfl
  | compared => rfl
  | wrote _ consumes => exact consumes.rest

/-- A transaction of a dispatch writes the events and the attempts, and nothing else. -/
theorem Worker.Acts.rest {worker after : Worker} (h : worker.Acts db db' after) :
    db' =
      { db with
        webhookEvents := db'.webhookEvents
        deliveryAttempts := db'.deliveryAttempts } := by
  have unchanged : db' = db → db' =
      { db with
        webhookEvents := db'.webhookEvents
        deliveryAttempts := db'.deliveryAttempts } := fun hsame => by rw [hsame]
  cases h with
  | claimed _ _ hleases _ =>
    have hrest := hleases.rest
    generalize db'.webhookEvents = events at hrest ⊢
    rw [hrest]
  | loaded _ hsame _ _ _ => exact unchanged hsame
  | replied _ hsame _ => exact unchanged hsame
  | failed _ _ hsame _ => exact unchanged hsame
  | finalized _ hfinalizes _ =>
    cases hfinalizes with
    | missing _ hsame => exact unchanged hsame
    | superseded _ _ hsame => exact unchanged hsame
    | refused _ _ _ _ hsame => exact unchanged hsame
    | recorded _ _ hrecords => exact hrecords.rest

theorem Worker.Acts.keepsInbox {worker after : Worker} (h : worker.Acts db db' after) :
    KeepsInbox db db' := .of_same (by rw [h.rest])

/-- A courier after a transaction of its dispatch. -/
theorem Courier.Coherent.dispatched {courier : Courier} {reply : Reply} {worker : Worker}
    (h : courier.Coherent lib db) (coherent : worker.Coherent db')
    (known : ∀ call, courier.invocation = some call → ∃ thread, courier.consumer = some thread ∧
      thread.phase.reply = some reply)
    (acts : (courier.worker reply).Acts db db' worker) :
    Courier.Coherent lib db'
      { courier with identity := worker.identity, phase := worker.phase, consumer := none } := by
  obtain ⟨request, identity, phase, consumer⟩ := courier
  cases acts with
  | claimed hphase _ _ hafter =>
    subst hafter
    refine ⟨coherent, fun _ _ _ h => ?_, fun _ h => ?_, fun _ _ h => ?_⟩ <;> cases h
  | @loaded leaseToken signature event identity' hphase hsame hanswer hheld hafter =>
    cases hphase
    subst hafter hsame
    refine ⟨coherent, fun _ _ _ heq => ?_, fun _ heq => ?_, fun _ _ heq => ?_⟩
    · cases heq
      -- nothing is held after a claim, so the row itself is loaded
      have hempty : identity = ∅ := h.worker
      have hanswer : answeredEvent request.eventId identity _ = some event := hanswer
      rw [hempty] at hanswer
      exact ⟨event, hanswer, rfl⟩
    · cases heq
    · cases heq
  | @replied leaseToken signature payload hphase hsame hafter =>
    cases hphase
    subst hafter hsame
    generalize hreply : (if invokesReceiver ((Courier.worker
      ⟨request, identity, .prepared leaseToken payload signature, consumer⟩ reply)).call.fault
        then _ else _ : Except ServiceError Delivery) = observed at coherent
    cases observed with
    | error e => exact .idle rfl (.inr trivial)
    | ok delivery =>
      refine ⟨coherent, fun _ _ _ heq => ?_, fun _ heq => ?_, fun _ _ heq succeeded => ?_⟩
      · cases heq
      · cases heq
      cases heq
      split at hreply
      · next hinvokes =>
        obtain ⟨code, rfl⟩ := observeReply_status hreply succeeded
        have hinvocation : Courier.invocation
            ⟨request, identity, .prepared leaseToken payload signature, consumer⟩ =
              some (request.consumerCall payload signature) := if_pos hinvokes
        obtain ⟨thread, hthread, hended⟩ := known _ hinvocation
        obtain ⟨outcome, hphase⟩ := ConsumerPhase.reply_status hended
        obtain ⟨hcall, sound⟩ := h.consumer thread hthread
        obtain ⟨event, hstored, hpayload⟩ := h.loaded _ _ _ rfl
        refine ⟨event, hstored, ?_⟩
        rw [hpayload]
        exact sound.payload (Option.some.inj (hcall.symm.trans hinvocation)) hphase
      · cases hreply
        cases succeeded
  | finalized _ _ hafter =>
    subst hafter
    exact .idle rfl (.inr trivial)
  | failed _ _ _ hafter =>
    subst hafter
    exact .idle rfl (.inr trivial)

/-- What a step of a courier does to the tables of delivery and to the inbox. -/
theorem Courier.Step.coherent {courier after : Courier} (h : Courier.Step lib db courier db' after)
    (tracked : Tracked db) (coherent : courier.Coherent lib db) :
    Delivers db db' ∧ KeepsInbox db db' ∧ after.Coherent lib db' := by
  cases h with
  | begin request identity =>
    exact ⟨tracked.unchanged, .refl db, .idle rfl (.inl rfl)⟩
  | crash => exact ⟨tracked.unchanged, .refl db, .idle rfl (.inr trivial)⟩
  | next unfinished hnext =>
    cases Courier.next_cases unfinished hnext with
    | called hcall hnone hsame hafter =>
      subst hsame hafter
      refine ⟨tracked.unchanged, .refl _, coherent.worker, coherent.loaded, fun thread hthread => ?_,
        coherent.acknowledged⟩
      cases hthread
      exact ⟨hcall, .ready _⟩
    | @consumed call thread thread' hcall hthread hstep hafter =>
      subst hafter
      obtain ⟨hsame, moves⟩ := ConsumerThread.act_moves hstep
      have delivers : Delivers db db' :=
        (Publishes.of_same (by rw [moves.rest]) (by rw [moves.rest])).delivers tracked
      have kept := coherent.kept delivers moves.keepsInbox
      refine ⟨delivers, moves.keepsInbox, kept.worker, kept.loaded, fun found hfound => ?_,
        kept.acknowledged⟩
      cases hfound
      obtain ⟨hinvocation, sound⟩ := coherent.consumer thread hthread
      rw [hsame]
      exact ⟨hinvocation, sound.step hstep⟩
    | dispatched known acts hafter =>
      subst hafter
      obtain ⟨delivers, coherent'⟩ := acts.delivers tracked coherent.worker
      exact ⟨delivers, acts.keepsInbox, coherent.dispatched coherent' known acts⟩

end Coherent

end PaymentLab
