import PaymentLab.Laws.Answers

/-!
# The contract between the API and the merchant

What the schemas demand of a request holds of everything the server ever stores (`Served.bounded`).
So the body of every event passes the consumer's own checks: a signature the dispatcher makes is
accepted, and so is the body under it (`deliveries_accepted`). No delivery over the API is answered
with 401 or 422.

The standard library is a parameter, and `Reads` names what is relied on of it: that what was
rendered is read back, and that a digest is hexadecimal. A delivery may still be refused for other
reasons, as a conflict or for want of its event, and may fail; and a request for a delivery that is
turned away when it arrives is answered before there is anything to send.
-/

namespace PaymentLab

open Relational Transactional Transactional.Service

/-! ## Signatures -/

section Signatures

variable {lib : StandardLibrary} {db db' : Database}

/-- The header a dispatcher makes for a body. -/
def signatureOf (lib : StandardLibrary) (secret : String) (timestamp : Int)
    (payload : EventPayload) : String :=
  "t=" ++ toString timestamp ++ ",v1=" ++ lib.signs secret timestamp payload

/-- The seconds a dispatcher signs. -/
def CourierRequest.timestamp (request : CourierRequest) : Int := wholeSeconds request.now

/-- What a courier makes of a request for an event. -/
def CourierRequest.delivery (lib : StandardLibrary) (request : CourierRequest)
    (event : WebhookEventRecord) : EventDelivery where
  event := event
  signatureHeader := signatureOf lib request.secret request.timestamp event.payload
  secret := request.secret
  now := .aware (asUtc request.now)
  faults := ⟨false, request.refused⟩

/-- What a courier is about to send is signed by its secret, which is not empty, at its time. -/
def Courier.Signed (lib : StandardLibrary) (courier : Courier) : Prop :=
  ∀ leaseToken payload signature, courier.phase = .prepared leaseToken payload signature →
    courier.request.secret ≠ "" ∧
      signature = signatureOf lib courier.request.secret courier.request.timestamp payload

/-- The load of a claimed event signs what it answers. -/
theorem prepareDelivery_signed {eventId secret signature : String} {now : Datetime}
    {payload : EventPayload} {s s' : DatabaseSession}
    (h : prepareDelivery lib.signs eventId secret now s = (.ok (payload, signature), s')) :
    secret ≠ "" ∧ signature = signatureOf lib secret (wholeSeconds now) payload := by
  unfold prepareDelivery at h
  obtain ⟨found, s₁, _, hrest⟩ := bind_eq_ok h
  cases found with
  | none => cases hrest
  | some event =>
    obtain ⟨made, s₂, hsign, hreturn⟩ := bind_eq_ok hrest
    cases hreturn
    unfold signWebhook at hsign
    split at hsign
    · cases hsign
    · next named =>
      cases hsign
      exact ⟨named, rfl⟩

/-- Only the load of a claimed event prepares a delivery. -/
theorem Dispatch.step_signed {call : Dispatch} {phase : DispatchPhase} {leaseToken : String}
    {payload : EventPayload} {signature : String} {s s' : DatabaseSession}
    (unfinished : ¬phase.Ended)
    (h : call.step lib.signs phase s = (.ok (.prepared leaseToken payload signature), s')) :
    call.secret ≠ "" ∧
      signature = signatureOf lib call.secret (wholeSeconds call.now) payload := by
  cases phase with
  | ready =>
    obtain ⟨_, _, _, hreturn⟩ := bind_eq_ok h
    cases hreturn
  | leased token =>
    obtain ⟨prepared, _, hprepare, hreturn⟩ := bind_eq_ok h
    cases hreturn
    exact prepareDelivery_signed hprepare
  | prepared =>
    obtain ⟨_, _, _, hreturn⟩ := bind_eq_ok h
    cases hreturn
  | answered =>
    obtain ⟨_, _, _, hreturn⟩ := bind_eq_ok h
    cases hreturn
  | finished => exact absurd trivial unfinished
  | interrupted => exact absurd trivial unfinished

/-- The phase a courier goes on to: the one it has, or that of a transaction of the dispatch. -/
theorem Courier.next_phase {courier after : Courier} (h : courier.next lib db = (db', after)) :
    after.request = courier.request ∧ (after.phase = courier.phase ∨ ∃ reply r s',
      (courier.request.dispatch reply).step lib.signs courier.phase
          (Session.start db courier.identity) = (r, s') ∧ after.phase = .ofResult r) := by
  have dispatched : ∀ reply, courier.dispatch lib reply db = (db', after) →
      after.request = courier.request ∧ (after.phase = courier.phase ∨ ∃ reply r s',
        (courier.request.dispatch reply).step lib.signs courier.phase
            (Session.start db courier.identity) = (r, s') ∧ after.phase = .ofResult r) := by
    intro reply hdispatch
    cases hdispatch
    exact ⟨rfl, .inr ⟨reply, _, _, rfl, rfl⟩⟩
  unfold Courier.next at h
  split at h
  · exact dispatched _ h
  · split at h
    · cases h
      exact ⟨rfl, .inl rfl⟩
    · split at h
      · cases h
        exact ⟨rfl, .inl rfl⟩
      · exact dispatched _ h

/-- The next thing a courier does leaves it signed. -/
theorem Courier.Signed.next {courier after : Courier} (h : courier.Signed lib)
    (unfinished : ¬courier.phase.Ended) (hnext : courier.next lib db = (db', after)) :
    after.Signed lib := by
  intro leaseToken payload signature hphase
  obtain ⟨hrequest, hsame | ⟨reply, r, s', hrun, hafter⟩⟩ := Courier.next_phase hnext
  · rw [hrequest]
    exact h leaseToken payload signature (hsame ▸ hphase)
  · rw [hrequest]
    rw [hafter] at hphase
    cases r with
    | error e => cases hphase
    | ok phase =>
      obtain rfl : phase = .prepared leaseToken payload signature := hphase
      exact Dispatch.step_signed unfinished hrun

end Signatures

namespace Api

/-! ## Bounds -/

/-- The bounds of `AuthorizePaymentRequest`. -/
structure Within (merchantReference : String) (amount : Int) : Prop where
  named : 1 ≤ merchantReference.length
  short : merchantReference.length ≤ 64
  positive : 0 < amount
  bounded : amount ≤ 999999999

/-- Every stored payment and every published version is within the bounds. -/
structure Bounded (db : Database) : Prop where
  payments : ∀ p, db.payments.get p.id = some p → Within p.merchantReference p.amount
  events : ∀ event ∈ db.webhookEvents.rows.map (·.published),
    Within event.payload.payment.merchantReference event.payload.payment.amount

section Steps

variable {app : App} {pydantic : Pydantic} {sha256 : String → String} {lib : StandardLibrary}
  {db db' : Database}

theorem AuthorizePaymentRequest.within (request : AuthorizePaymentRequest) :
    Within request.command.merchantReference request.command.amount :=
  ⟨request.merchantReference.property.1, request.merchantReference.property.2,
    request.amount.property.1, request.amount.property.2⟩

theorem bounded_empty : Bounded .empty := by
  refine ⟨fun _ stored => ?_, fun _ mem => ?_⟩
  · cases stored
  · cases mem

theorem Bounded.kept (h : Bounded db) (payments : db'.payments = db.payments)
    (events : db'.webhookEvents.rows.map (·.published) =
      db.webhookEvents.rows.map (·.published)) : Bounded db' := by
  refine ⟨fun p stored => h.payments p ?_, fun event mem => h.events event ?_⟩
  · rwa [payments] at stored
  · rwa [events] at mem

/-- A version of a payment within the bounds, with its event. -/
theorem Bounded.published (h : Bounded db) {payment : PaymentRecord} {eventType : WebhookEventType}
    {hex : String} (within : Within payment.merchantReference payment.amount)
    (payments : ∀ p, db'.payments.get p.id = some p → db.payments.get p.id = some p ∨ p = payment)
    (events : db.webhookEvents.insert (createOutboxEvent payment eventType hex) =
      some db'.webhookEvents) : Bounded db' := by
  refine ⟨fun p stored => ?_, fun event mem => ?_⟩
  · rcases payments p stored with earlier | rfl
    · exact h.payments p earlier
    · exact within
  · rw [Table.insert_rows events, List.map_append] at mem
    rcases List.mem_append.mp mem with mem | mem
    · exact h.events event mem
    · rw [List.mem_singleton.mp mem]
      exact within

theorem Bounded.advances (h : Bounded db) {step : LifecycleStep} {before after : PaymentRecord}
    (advances : Advances step before after db db') : Bounded db' := by
  obtain ⟨_, hevents⟩ := advances.events
  have same := advances.decided.sameIdentity
  refine h.published ?_ (fun p stored => ?_) hevents
  · rw [same.merchantReference, same.amount]
    exact h.payments before advances.stored
  · by_cases hid : p.id = before.id
    · rw [hid, advances.stored_after] at stored
      exact .inr (Option.some.inj stored).symm
    · rw [advances.get_of_ne hid] at stored
      exact .inl stored

/-- What a validated request commits is within its bounds. -/
theorem Commits.bounded {request : Request} (proper : ApiRequest app request)
    (h : Commits sha256 request db db') (bounded : Bounded db) : Bounded db' := by
  cases h with
  | nothing h => rwa [h]
  | @keyed _ _ payment hkey h =>
    cases h with
    | created h =>
      obtain ⟨_, _, _, _, _, _, hpayment, hevents⟩ := h.terms
      have within : Within payment.merchantReference payment.amount := by
        rw [hpayment]
        cases proper with
        | authorize payload =>
          cases hkey
          exact payload.within
        | _ => cases hkey
      refine bounded.published within (fun p stored => ?_) hevents
      rw [Table.get_insert h.payments] at stored
      split at stored
      · exact .inr (Option.some.inj stored).symm
      · exact .inl stored
    | operated h =>
      obtain ⟨_, _, hadvances⟩ := h.advances
      exact bounded.advances hadvances
  | received _ h =>
    exact bounded.kept h.accounts.payments (by rw [h.accounts.webhookEvents])
  | settled _ h =>
    cases h.effect with
    | none _ hsame _ => exact bounded.kept hsame.payments (by rw [hsame.webhookEvents])
    | captured _ _ _ _ hadvances => exact bounded.advances hadvances
    | expired _ _ _ _ _ hadvances => exact bounded.advances hadvances
  | swept _ h =>
    induction h with
    | refl => exact bounded
    | tail _ one ih =>
      obtain ⟨_, _, hexpired⟩ := one
      exact ih.advances hexpired.advances

variable {ι : Type} [DecidableEq ι] {ts : List (Pool.Transition Database ι Connection)}
  {v : Pool.World Database ι Connection}

/-- **Everything stored is within the bounds of the schemas.** -/
theorem Served.bounded (h : Served app pydantic sha256 lib ts v) : Bounded v.shared := by
  refine h.invariant bounded_empty fun db _ db' _ _ coherent step bounded => ?_
  rcases step.commits coherent with background | ⟨_, _, proper, commits⟩
  · exact bounded.kept background.payments background.published
  · exact Commits.bounded proper commits bounded

/-- **What is answered is well formed**: an answered payment is within the bounds of the schemas, and
its amounts are in order. -/
theorem answers_sound (h : Served app pydantic sha256 lib ts v)
    {t : Pool.Transition Database ι Connection} (mem : t ∈ ts) {replayed : Bool}
    {payment : PaymentResponse} (answered : AnswersPayment replayed payment t) :
    Within payment.merchantReference payment.amount ∧
      ∃ snapshot : PaymentSnapshot, payment = .fromSnapshot snapshot ∧ snapshot.Sound := by
  obtain ⟨event, stored, rfl⟩ := h.answers.1 t mem replayed payment answered
  exact ⟨h.bounded.events _ (List.mem_map_of_mem stored), _, rfl,
    (h.stores.1.sound event stored).1⟩

end Steps

/-! ## Refusals -/

section Refusals

variable {lib : StandardLibrary} {db db' : Database}

/-- An exception that is answered neither as an invalid signature nor as an invalid body. It may be
any other refusal, or a failure of the server. -/
def Unrefused (e : ServiceError) : Prop :=
  (handleService e).status ≠ 401 ∧ (handleService e).status ≠ 422

theorem unrefused_of {e : ServiceError}
    (h : ((handleService e).status == 401 || (handleService e).status == 422) = false) :
    Unrefused e := by
  obtain ⟨h401, h422⟩ := Bool.or_eq_false_iff.mp h
  exact ⟨beq_eq_false_iff_ne.mp h401, beq_eq_false_iff_ne.mp h422⟩

theorem unrefused_integrityError : Unrefused .integrityError := unrefused_of rfl

/-- Once the body is accepted, the consumer refuses neither it nor its signature. -/
theorem raises_answerRepeated (existing : ProcessedWebhookRecord) (eventId payloadHash : String) :
    Raises Unrefused (answerRepeated existing eventId payloadHash) := by
  unfold answerRepeated
  split
  · exact raises_throw (unrefused_of rfl)
  · exact raises_pure _

theorem raises_flushProjection (write : ProjectionWrite) :
    Raises Unrefused (flush (flushProjection write) : Service Unit) := by
  refine raises_flush fun d e h => ?_
  cases write with
  | insert row =>
    have h : insertMerchantProjection row d = .error e := h
    rw [insertInto_eq_error h]
    exact unrefused_integrityError
  | update loaded current =>
    unfold flushProjection at h
    dsimp only at h
    split at h
    · cases h
      exact unrefused_of rfl
    · rw [updateIn_eq_error h]
      exact unrefused_integrityError
  | keep => cases h

theorem raises_writeConsumption (envelope : WebhookEnvelope) (payloadHash : String)
    (decision : ConsumerDecision) (now : Datetime) (faults : ConsumerFaults) :
    Raises Unrefused (writeConsumption envelope payloadHash decision now faults) := by
  refine Raises.tryCatch (Q := Unrefused) (Raises.bind ?_ fun _ => raises_pure _) fun e he => ?_
  · unfold commitConsumption
    split
    · exact raises_throw (unrefused_of rfl)
    · refine (raises_flush fun d e h => ?_).bind fun _ =>
        (raises_flushProjection _).bind fun _ => ?_
      · rw [insertInto_eq_error h]
        exact unrefused_integrityError
      · split
        · exact raises_throw (unrefused_of rfl)
        · exact raises_commit
  · refine raises_rollback.bind fun _ => ?_
    split
    · refine (raises_query _).bind fun found => ?_
      cases found with
      | none => exact raises_throw (unrefused_of rfl)
      | some existing => exact raises_answerRepeated _ _ _
    · exact raises_throw he

/-- On an accepted body, no phase of the consumer raises a refusal. -/
theorem raises_advance {call : ConsumerCall} {envelope : WebhookEnvelope}
    (haccepted : call.accepted lib = .ok envelope) (phase : ConsumerPhase) :
    Raises Unrefused (call.advance lib phase) := by
  cases phase with
  | ready =>
    unfold ConsumerCall.advance
    rw [haccepted]
    refine (raises_pure _).bind fun _ => (raises_query _).bind fun found => ?_
    cases found with
    | none => exact raises_pure _
    | some existing => exact (raises_answerRepeated _ _ _).bind fun _ => raises_pure _
  | unseen found =>
    refine (raises_query _).bind fun projection => ?_
    cases hdecide : decideProjection projection found with
    | error e =>
      obtain ⟨paymentId, rfl⟩ : ∃ paymentId, e = .webhookVersionConflict paymentId := by
        unfold decideProjection at hdecide
        split at hdecide
        · cases hdecide
        · split at hdecide
          · cases hdecide
          · split at hdecide
            · cases hdecide
            · split at hdecide
              · cases hdecide
              · cases hdecide
                exact ⟨_, rfl⟩
      exact raises_throw (unrefused_of rfl)
    | ok decision => exact raises_pure _
  | decided found decision =>
    exact (raises_writeConsumption _ _ _ _ _).bind fun _ => raises_pure _
  | finished result => exact raises_pure _

/-- An unfinished call ends with an exception only by raising it. -/
theorem advance_raises {call : ConsumerCall} {phase : ConsumerPhase} {s s' : DatabaseSession}
    {e : ServiceError} (unfinished : ∀ result, phase ≠ .finished result)
    (h : call.advance lib phase s = (.ok (.finished (.error e)), s')) : False := by
  cases phase with
  | ready =>
    obtain ⟨_, _, _, hrest⟩ := bind_eq_ok h
    obtain ⟨found, _, _, hrest⟩ := bind_eq_ok hrest
    cases found with
    | none => cases hrest
    | some existing =>
      obtain ⟨_, _, _, hreturn⟩ := bind_eq_ok hrest
      cases hreturn
  | unseen found =>
    obtain ⟨projection, _, _, hrest⟩ := bind_eq_ok h
    cases hdecide : decideProjection projection found with
    | error e' =>
      rw [hdecide] at hrest
      cases hrest
    | ok decision =>
      rw [hdecide] at hrest
      cases hrest
  | decided =>
    obtain ⟨_, _, _, hreturn⟩ := bind_eq_ok h
    cases hreturn
  | finished result => exact unfinished result rfl

/-- A call of the consumer on an accepted body that ended with an exception: it is no refusal of a
signature or of a body. What the call wrote is not its concern. -/
def Checked (lib : StandardLibrary) (thread : ConsumerThread) : Prop :=
  ∀ envelope, thread.call.accepted lib = .ok envelope → ∀ e,
    thread.phase = .finished (.error e) → Unrefused e

theorem Checked.step {thread after : ConsumerThread} (h : ConsumerPool lib db thread db' after) :
    Checked lib after := by
  obtain ⟨unfinished, hact⟩ := h
  intro envelope haccepted e hphase
  rw [(ConsumerThread.act_moves ⟨unfinished, hact⟩).1] at haccepted
  unfold ConsumerThread.act at hact
  obtain ⟨r, s', hrun⟩ : ∃ r s', thread.call.advance lib thread.phase (thread.phase.session db) =
    (r, s') := ⟨_, _, rfl⟩
  rw [hrun] at hact
  cases hact
  cases r with
  | error e' =>
    cases hphase
    exact raises_advance haccepted _ _ _ _ hrun
  | ok phase =>
    obtain rfl : phase = .finished (.error e) := hphase
    exact (advance_raises unfinished hrun).elim

/-- The dispatching half raises no refusal either. -/
theorem raises_updateClaimed (eventId leaseToken : String) (current : Instant) :
    Raises Unrefused (flush (updateClaimed eventId leaseToken current) : Service Unit) := by
  refine raises_flush fun d e h => ?_
  unfold updateClaimed at h
  split at h
  · cases h
  · split at h
    · rw [updateIn_eq_error h]
      exact unrefused_integrityError
    · cases h

theorem raises_claimDelivery (eventId : String) (now : Datetime) (hex : String) :
    Raises Unrefused (claimDelivery eventId now hex) := by
  unfold claimDelivery
  refine (raises_getThrough _ _ _).bind fun found => ?_
  cases found with
  | none => exact raises_throw (unrefused_of rfl)
  | some event =>
    refine (raises_query _).bind fun rowcount => (raises_updateClaimed _ _ _).bind fun _ => ?_
    refine raises_commit.bind fun _ => ?_
    split
    · exact raises_throw (unrefused_of rfl)
    · exact raises_expireAll.bind fun _ => raises_pure _

theorem raises_prepareDelivery (eventId secret : String) (now : Datetime) :
    Raises Unrefused (prepareDelivery lib.signs eventId secret now) := by
  refine (raises_getThrough _ _ _).bind fun found => ?_
  cases found with
  | none => exact raises_throw (unrefused_of rfl)
  | some event =>
    refine Raises.bind ?_ fun _ => raises_pure _
    unfold signWebhook
    split
    · exact raises_throw (unrefused_of rfl)
    · exact raises_pure _

theorem raises_callReceiver (receiver : WebhookReceiver) (fault : Option DeliveryFault)
    (payload : EventPayload) (signature : String) (now : Datetime) :
    Raises Unrefused (callReceiver receiver fault payload signature now) := by
  unfold callReceiver
  split
  · cases hreply : observeReply fault (receiver payload signature (asUtc now)) with
    | ok delivery => exact raises_pure _
    | error e =>
      rw [(observeReply_eq_error hreply).1]
      exact raises_throw (unrefused_of rfl)
  · exact raises_pure _

theorem finalized_eq_error {event : WebhookEventRecord} {current : Instant} {delivery : Delivery}
    {e : ServiceError} (h : event.finalized current delivery = .error e) : e = .indexError := by
  unfold WebhookEventRecord.finalized at h
  split at h
  · cases h
  · split at h
    · cases h
    · split at h
      · cases h
        rfl
      · cases h

theorem raises_finalizeDelivery (eventId leaseToken : String) (now : Datetime)
    (delivery : Delivery) : Raises Unrefused (finalizeDelivery eventId leaseToken now delivery) := by
  unfold finalizeDelivery
  refine (raises_getThrough _ _ _).bind fun found => ?_
  cases found with
  | none => exact raises_throw (unrefused_of rfl)
  | some event =>
    dsimp only
    split
    · exact raises_throw (unrefused_of rfl)
    · cases hfinalized : event.finalized (asUtc now) delivery with
      | error e =>
        rw [finalized_eq_error hfinalized]
        exact raises_throw (unrefused_of rfl)
      | ok finalized =>
        refine (Raises.tryCatch (Q := Unrefused) (raises_flush fun d e h => ?_) fun e he =>
          raises_rollback.bind fun _ => raises_throw he).bind fun _ => raises_commit.bind fun _ =>
            (raises_remember _).bind fun _ => raises_pure _
        rcases recordAttempt_eq_error h with rfl | rfl
        · exact unrefused_of rfl
        · exact unrefused_integrityError

/-- No transaction of a dispatch raises a refusal. -/
theorem raises_step (call : Dispatch) : ∀ phase, Raises Unrefused (call.step lib.signs phase)
  | .ready => (raises_claimDelivery _ _ _).bind fun _ => raises_pure _
  | .leased _ => (raises_prepareDelivery _ _ _).bind fun _ => raises_pure _
  | .prepared .. => (raises_callReceiver _ _ _ _ _).bind fun _ => raises_pure _
  | .answered .. => (raises_finalizeDelivery _ _ _ _).bind fun _ => raises_pure _
  | .finished _ => raises_pure _
  | .interrupted => raises_pure _

/-- A dispatch that ends with an exception raised it. -/
theorem step_raises {call : Dispatch} {phase : DispatchPhase} {s s' : DatabaseSession}
    {e : ServiceError} (unfinished : ¬phase.Ended)
    (h : call.step lib.signs phase s = (.ok (.finished (.error e)), s')) : False := by
  cases phase with
  | ready =>
    obtain ⟨_, _, _, hreturn⟩ := bind_eq_ok h
    cases hreturn
  | leased =>
    obtain ⟨_, _, _, hreturn⟩ := bind_eq_ok h
    cases hreturn
  | prepared =>
    obtain ⟨_, _, _, hreturn⟩ := bind_eq_ok h
    cases hreturn
  | answered =>
    obtain ⟨_, _, _, hreturn⟩ := bind_eq_ok h
    cases hreturn
  | finished => exact unfinished trivial
  | interrupted => exact unfinished trivial

theorem Courier.next_raises {courier after : Courier} (unfinished : ¬courier.phase.Ended)
    (h : courier.next lib db = (db', after)) {e : ServiceError}
    (hphase : after.phase = .finished (.error e)) : Unrefused e := by
  obtain ⟨_, hsame | ⟨reply, r, s', hrun, hafter⟩⟩ := Courier.next_phase h
  · rw [← hsame, hphase] at unfinished
    exact absurd trivial unfinished
  · rw [hafter] at hphase
    cases r with
    | error e' =>
      cases hphase
      exact raises_step _ _ _ _ _ hrun
    | ok phase =>
      obtain rfl : phase = .finished (.error e) := hphase
      exact (step_raises unfinished hrun).elim

end Refusals

/-! ## Deliveries -/

section Deliveries

variable {ι : Type} {app : App} {pydantic : Pydantic} {sha256 : String → String}
  {lib : StandardLibrary} {db db' : Database}

/-- What a delivery holds: it is signed, and its call of the consumer is checked. -/
structure Handling.Prepared (lib : StandardLibrary) (handling : Handling) : Prop where
  signed : ∀ courier, handling = .courier courier → courier.Signed lib
  checked : ∀ courier thread, handling = .courier courier → courier.consumer = some thread →
    Checked lib thread

theorem Admitted.prepared {handling : Handling} (h : Admitted app handling) :
    handling.Prepared lib := by
  cases h with
  | courier =>
    refine ⟨fun courier heq => ?_, fun courier thread heq hthread => ?_⟩ <;> cases heq
    · intro _ _ _ hphase
      cases hphase
    · cases hthread
  | _ => exact ⟨fun _ heq => (by cases heq), fun _ _ heq => (by cases heq)⟩

/-- A step of the server keeps what a delivery holds. -/
theorem Server.prepared {before after : Connection}
    (h : Server pydantic sha256 lib db before db' after) (coherent : before.Coherent app lib db)
    (prepared : before.handling.Prepared lib) : after.handling.Prepared lib := by
  obtain ⟨call, readings, handling, ending⟩ := before
  cases h with
  | breaks =>
    refine ⟨fun courier heq => ?_, fun courier thread heq hthread => ?_⟩ <;>
      cases handling <;> cases heq
    · intro _ _ _ hphase
      cases hphase
    · cases hthread
  | next unended hnext =>
    have unfinished : handling.Unfinished := coherent.opened unended
    cases Handling.next_does hnext with
    | @courier courier after hstep =>
      refine ⟨fun _ heq => ?_, fun _ thread heq hthread => ?_⟩ <;> cases heq
      · exact (prepared.signed _ rfl).next unfinished hstep
      · cases Courier.next_cases unfinished hstep with
        | called _ _ _ hafter =>
          rw [hafter] at hthread
          cases hthread
          intro _ _ _ hphase
          cases hphase
        | consumed _ _ hconsumed hafter =>
          rw [hafter] at hthread
          cases hthread
          exact .step hconsumed
        | dispatched _ _ hafter =>
          rw [hafter] at hthread
          cases hthread
    | _ => exact ⟨fun _ heq => (by cases heq), fun _ _ heq => (by cases heq)⟩

/-- A call of the consumer by a courier is of the body it is about to send. -/
theorem Courier.invocation_eq_some {courier : Courier} {call : ConsumerCall}
    (h : courier.invocation = some call) : ∃ leaseToken payload signature,
      courier.phase = .prepared leaseToken payload signature ∧
        call = courier.request.consumerCall payload signature := by
  unfold Courier.invocation at h
  split at h
  · next leaseToken payload signature hphase =>
    split at h
    · cases h
      exact ⟨leaseToken, payload, signature, hphase, rfl⟩
    · cases h
  · cases h

/-- What the code relies on of the standard library, on the bodies of one store: digests are
hexadecimal, and `int`, `json.loads` and `fromisoformat` read what `str`, `json.dumps` and
`isoformat` wrote. That two bodies have two digests is not assumed. -/
structure Reads (lib : StandardLibrary) (db : Database) : Prop where
  hex : HexDigest lib.hmacSha256
  int : ∀ n : Int, lib.readInt (toString n) = some n
  back : ∀ event ∈ db.webhookEvents.rows,
    ReadsBack lib.loads lib.fromIsoformat event.payload

theorem Reads.earlier (h : Reads lib db') (delivers : Delivers db db') : Reads lib db := by
  refine ⟨h.hex, h.int, fun event mem => ?_⟩
  obtain ⟨event', stored, later⟩ := delivers.later (Table.get_of_mem mem)
  have hpayload : event'.payload = event.payload := congrArg PublishedEvent.payload later.published
  rw [← hpayload]
  exact h.back event' (Table.get_eq_some stored).1

/-- What a courier signs is a valid delivery. -/
theorem CourierRequest.valid {request : CourierRequest} {event : WebhookEventRecord}
    (named : request.secret ≠ "") (reads : Reads lib db) (mem : event ∈ db.webhookEvents.rows) :
    (request.delivery lib event).Valid lib db := by
  refine ⟨mem, verify_signed named reads.hex (reads.int _) ?_, reads.back event mem⟩
  show |wholeSeconds request.now - wholeSeconds request.now| ≤ _
  rw [sub_self, abs_zero]
  decide

/-- **What a courier sends is accepted.** -/
theorem Courier.accepted {courier : Courier} {thread : ConsumerThread}
    (coherent : courier.Coherent lib db) (signed : courier.Signed lib)
    (calls : courier.consumer = some thread) (store : ProducerStore db) (bounded : Bounded db)
    (reads : Reads lib db) :
    ∃ event ∈ db.webhookEvents.rows, thread.call.accepted lib = .ok event.payload.envelope := by
  obtain ⟨leaseToken, payload, signature, hphase, hcall⟩ :=
    Courier.invocation_eq_some (coherent.consumer thread calls).1
  obtain ⟨event, stored, rfl⟩ := coherent.loaded leaseToken payload signature hphase
  obtain ⟨named, rfl⟩ := signed leaseToken _ signature hphase
  have mem := (Table.get_eq_some stored).1
  have within := bounded.events _ (List.mem_map_of_mem mem)
  refine ⟨event, mem, ?_⟩
  rw [hcall]
  refine (CourierRequest.valid named reads mem).accepted store fun hempty => ?_
  have hlength := within.named
  rw [show event.published.payload.payment.merchantReference = "" from hempty] at hlength
  cases hlength

/-- What a delivery is answered with, once it is over. -/
theorem courierEnding_unrefused {before after : Courier} {response : Response}
    (hnext : before.next lib db = (db', after)) (unfinished : ¬before.phase.Ended)
    (checked : ∀ thread, before.consumer = some thread → ∀ e,
      thread.phase = .finished (.error e) → Unrefused e)
    (answered : courierEnding before after = some (.answered response)) :
    response.status ≠ 401 ∧ response.status ≠ 422 := by
  unfold courierEnding at answered
  split at answered
  · cases answered
    show 200 ≠ 401 ∧ 200 ≠ 422
    decide
  · cases answered
    unfold raised
    split
    · next call e hconsumer => exact checked _ hconsumer e rfl
    · exact unrefused_of rfl
  · next e _ hphase =>
    cases answered
    exact Courier.next_raises unfinished hnext hphase
  · cases answered
  · cases answered

/-- What a step of a delivery sends and is answered with: bodies the consumer accepts, and no refusal
of a signature or of a body. It speaks of deliveries that were admitted, the ones with a courier: a
request for a delivery that is turned away when it arrives, as one with an unknown failure control
is, has none and may be answered with 422. -/
structure Agrees (lib : StandardLibrary) (t : Pool.Transition Database ι Connection) : Prop where
  accepted : ∀ courier thread, t.before.handling = .courier courier →
    courier.consumer = some thread → ∃ event ∈ t.pre.webhookEvents.rows,
      thread.call.accepted lib = .ok event.payload.envelope
  answered : ∀ courier response, t.before.handling = .courier courier → Answers response t →
    response.status ≠ 401 ∧ response.status ≠ 422

/-- A step of the server agrees, where its connection is prepared. -/
theorem Server.agrees {t : Pool.Transition Database ι Connection}
    (step : Server pydantic sha256 lib t.pre t.before t.post t.after)
    (coherent : t.before.Coherent app lib t.pre) (prepared : t.before.handling.Prepared lib)
    (store : ProducerStore t.pre) (bounded : Bounded t.pre) (reads : Reads lib t.pre) :
    Agrees lib t := by
  have accepted : ∀ courier thread, t.before.handling = .courier courier →
      courier.consumer = some thread → ∃ event ∈ t.pre.webhookEvents.rows,
        thread.call.accepted lib = .ok event.payload.envelope := by
    intro courier thread handled calls
    have party := coherent.party
    unfold Connection.party at party
    rw [handled] at party
    exact Courier.accepted party (prepared.signed courier handled) calls store bounded reads
  refine ⟨accepted, fun courier response handled answered => ?_⟩
  obtain ⟨unfinished, ⟨_, broken⟩ | ⟨next, hnext, hending⟩⟩ := step.courier_cases coherent handled
  · cases broken.symm.trans answered
  · refine courierEnding_unrefused hnext unfinished (fun thread calls e hphase => ?_)
      (hending.symm.trans answered)
    obtain ⟨event, _, haccepted⟩ := accepted courier thread handled calls
    exact prepared.checked courier thread handled calls _ haccepted e hphase

variable [DecidableEq ι] {ts : List (Pool.Transition Database ι Connection)}
  {v : Pool.World Database ι Connection}

/-- **Deliveries agree with the merchant**: over the API, every body that an admitted delivery sends
is accepted by the consumer, signature and content, and no such delivery is answered with 401 or 422.
Stored fields keep the bounds of the schemas they came in by, so the rendered body passes the same
checks on its way back. -/
theorem deliveries_accepted (h : Served app pydantic sha256 lib ts v) (reads : Reads lib v.shared) :
    ∀ t ∈ ts, Agrees lib t := by
  suffices hall : (∀ i, (v.threads i).handling.Prepared lib) ∧
      (Reads lib v.shared → ∀ t ∈ ts, Agrees lib t) from hall.2 reads
  refine h.induction (P := fun ts v => (∀ i, (v.threads i).handling.Prepared lib) ∧
    (Reads lib v.shared → ∀ t ∈ ts, Agrees lib t)) (fun w arrivals => ⟨fun i => ?_, ?_⟩) ?_
  · obtain ⟨readings, call, hcall⟩ := arrivals.arrived i
    rw [hcall]
    exact (Connection.arrive_cases app pydantic lib readings call).1.prepared
  · exact fun _ _ mem => absurd mem List.not_mem_nil
  intro ts u v served enabled tracked coherent ⟨prepared, agreed⟩
  obtain ⟨hpre, hbefore, step⟩ := enabled
  have before : u.before.handling.Prepared lib := hbefore ▸ prepared u.thread
  refine ⟨fun i => ?_, fun reads t mem => ?_⟩
  · by_cases hi : i = u.thread
    · subst hi
      rw [Pool.World.apply_threads_self]
      exact step.prepared coherent before
    · rw [Pool.World.apply_threads_of_ne _ _ hi]
      exact prepared i
  · have earlier : Reads lib u.pre :=
      Reads.earlier reads (step.coherent tracked coherent).1.delivers
    rcases List.mem_append.mp mem with mem | mem
    · exact agreed (hpre ▸ earlier) t mem
    · rw [List.mem_singleton.mp mem]
      exact step.agrees coherent before (hpre ▸ served.stores.1) (hpre ▸ served.bounded) earlier

end Deliveries

/-- The events of a day of the shop. -/
theorem closingHour_payloads : closingHour.shared.webhookEvents.rows.map (·.payload) =
    [Follower.first.event.payload, Follower.slow.event.payload] := by
  decide +kernel

theorem readDigits_repr (n : Nat) : readDigits n.repr.toList = some n := by
  unfold readDigits
  rw [Nat.toList_repr, Nat.ofDigitChars_ten_toDigits, if_pos]
  refine ⟨Nat.toDigits_ne_nil, List.all_eq_true.mpr fun c mem => ?_⟩
  exact Nat.isDigit_of_mem_toDigits (by decide) (by decide) mem

theorem readDecimal_toString (n : Int) : readDecimal (toString n) = some n := by
  unfold readDecimal
  rw [Int.toString_eq_repr, Int.repr_eq_if]
  by_cases hn : 0 ≤ n
  · rw [if_pos hn]
    split
    · next digits hdigits =>
      have mem : '-' ∈ Nat.toDigits 10 n.toNat := by
        rw [← Nat.toList_repr, hdigits]
        exact List.mem_cons_self
      exact absurd (Nat.isDigit_of_mem_toDigits (by decide) (by decide) mem) (by decide)
    · rw [readDigits_repr, Option.map_some, Int.toNat_of_nonneg hn]
  · rw [if_neg hn, String.toList_append]
    show (readDigits (-n).toNat.repr.toList).map (fun n : Nat => -(n : Int)) = some n
    rw [readDigits_repr, Option.map_some, Int.toNat_of_nonneg (by omega), Int.neg_neg]

theorem emptyDigest_hex : HexDigest emptyDigest := by
  intro _ _ _
  unfold emptyDigest
  exact ⟨by decide +kernel, by simp⟩

theorem shopLibrary_reads : Reads shopLibrary closingHour.shared := by
  refine ⟨emptyDigest_hex, readDecimal_toString, fun event mem => ?_⟩
  have hpayload : event.payload ∈ closingHour.shared.webhookEvents.rows.map (·.payload) :=
    List.mem_map_of_mem mem
  rw [closingHour_payloads] at hpayload
  rcases List.mem_cons.mp hpayload with heq | hlast
  · rw [heq]
    exact (Follower.valid .first).readsBack
  · rw [List.mem_singleton.mp hlast]
    exact (Follower.valid .slow).readsBack

/-- The deliveries of that day. -/
theorem closingHour_agrees : ∃ ts, Served shopApp plainPydantic id shopLibrary ts closingHour ∧
    ∀ t ∈ ts, Agrees shopLibrary t := by
  obtain ⟨ts, h⟩ := closingHour_served
  exact ⟨ts, h, deliveries_accepted h shopLibrary_reads⟩

end Api

end PaymentLab
