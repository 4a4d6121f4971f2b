import Mathlib.Data.Finset.Order
import PaymentLab.Laws.Contract
import PaymentLab.Laws.Merchant

/-!
# Draining the outbox

Whatever clients, crashed couriers and lost acknowledgements have left behind, the outbox is never
stuck: from every store the platform reaches, one courier that works while the others rest delivers
each event that is not exhausted, one attempt an event, and then every payment whose newest event was
not exhausted is shown to the merchant as it is stored (`Running.drains`).

The courier that works it off is a schedule, not a fair run: the statement is that the steps exist
and how many attempts they take, from any store that was reached and at times of its choosing, late
enough for leases and retries to have run out. That other parties rest meanwhile is part of it. What
has to be assumed of the run before, for the merchant's view at the end, is named in `Honest`;
nothing is assumed of the order in which the run before it delivered, or of the couriers that were
lost in it.
-/

namespace PaymentLab

open Relational Transactional Transactional.Service

/-! ## A courier on its own -/

section Alone

variable {lib : StandardLibrary} {db : Database} {event : WebhookEventRecord}
  {request : CourierRequest}

/-- A courier that calls nobody runs the next transaction of its dispatch. -/
theorem Courier.next_dispatch {courier : Courier} (uncalled : courier.invocation = none) :
    courier.next lib db = courier.dispatch lib .raised db := by
  unfold Courier.next
  rw [uncalled]

/-- A session that holds nothing reads the row. -/
theorem sessionGetEvent_start {eventId : String} {s : DatabaseSession} (empty : s.identity = ∅)
    (stored : s.working.webhookEvents.get eventId = some event) :
    ∃ s', sessionGetEvent eventId s = (.ok (some event), s') ∧ s'.working = s.working := by
  obtain ⟨r, s', hget⟩ : ∃ r s', sessionGetEvent eventId s = (r, s') := ⟨_, _, rfl⟩
  obtain ⟨rfl, _, hworking, _⟩ := sessionGetEvent_cases hget
  refine ⟨s', ?_, hworking⟩
  rw [hget]
  unfold answeredEvent
  rw [empty, heldEvent_empty, Option.none_or, stored]

/-- An event that may be claimed is claimed. -/
theorem claimDelivery_claims (hex : String) {eventId : String} {now : Datetime}
    (stored : db.webhookEvents.get eventId = some event)
    (claimable : event.claimable (asUtc now) = true) :
    ∃ s', claimDelivery eventId now hex (Session.start db ∅) = (.ok ("lease_" ++ hex), s') := by
  obtain ⟨s₁, hget, hworking⟩ :=
    sessionGetEvent_start (s := Session.start db (∅ : IdentityMap)) rfl stored
  have hworking : s₁.working = db := hworking
  have hid : event.id = eventId := (Table.get_eq_some stored).2
  obtain ⟨events, hupdate⟩ := updateEvents_isSome (event.leased ("lease_" ++ hex) (asUtc now))
    (hid ▸ stored : db.webhookEvents.get event.id = some event) rfl
  have hflush : updateClaimed eventId ("lease_" ++ hex) (asUtc now) s₁.working =
      .ok { db with webhookEvents := events } := by
    unfold updateClaimed
    rw [hworking, stored]
    dsimp only
    rw [if_pos claimable]
    exact updateIn_ok hupdate
  have hmatched : claimedRows eventId (asUtc now) s₁.working = 1 := by
    unfold claimedRows
    rw [hworking, stored, Option.any_some, if_pos claimable]
  have hflushed : (flush (updateClaimed eventId ("lease_" ++ hex) (asUtc now)) : Service Unit)
      { s₁ with begun := true } =
        (.ok (), { s₁ with working := { db with webhookEvents := events }, begun := true }) :=
    flush_ok hflush
  unfold claimDelivery
  rw [bind_ok hget]
  dsimp only
  rw [bind_ok (query_apply _ s₁), bind_ok hflushed, bind_ok (commit_apply _), hmatched,
    if_neg (not_not.mpr rfl), bind_ok (expireAll_apply _)]
  exact ⟨_, rfl⟩

variable (lib) in
/-- A courier claims its event. -/
theorem Courier.claims (stored : db.webhookEvents.get request.eventId = some event)
    (claimable : event.claimable (asUtc request.now) = true) :
    ∃ db', Courier.next lib ⟨request, ∅, .ready, none⟩ db =
        (db', ⟨request, ∅, .leased ("lease_" ++ request.hex), none⟩) ∧
      Leases event ("lease_" ++ request.hex) (asUtc request.now) db db' := by
  obtain ⟨s', hclaim⟩ := claimDelivery_claims request.hex stored claimable
  rcases claimDelivery_cases hclaim with ⟨⟨e, herror, _⟩, _⟩ | ⟨leased, hid, _, hempty, leases⟩
  · cases herror
  · obtain rfl : leased = event := by
      rw [← hid] at stored
      exact Option.some.inj (leases.stored.symm.trans stored)
    refine ⟨s'.committed, ?_, leases⟩
    have hstep : (request.dispatch .raised).step lib.signs .ready (Session.start db ∅) =
        (.ok (.leased ("lease_" ++ request.hex)), s') := bind_ok hclaim
    rw [Courier.next_dispatch rfl]
    unfold Courier.dispatch Courier.worker
    rw [Worker.act_eq hstep, hempty]
    rfl

variable (lib) in
/-- A courier loads what it claimed, and signs it. -/
theorem Courier.loads (leaseToken : String)
    (stored : db.webhookEvents.get request.eventId = some event) (named : request.secret ≠ "") :
    ∃ identity, Courier.next lib ⟨request, ∅, .leased leaseToken, none⟩ db =
        (db, ⟨request, identity, .prepared leaseToken event.payload
          (signatureOf lib request.secret request.timestamp event.payload), none⟩) ∧
      heldEvent request.eventId identity = some event := by
  obtain ⟨s₁, hget, _⟩ := sessionGetEvent_start (s := Session.start db (∅ : IdentityMap)) rfl stored
  obtain ⟨_, hcommitted, _, hheld⟩ := sessionGetEvent_cases hget
  have hprepare : prepareDelivery lib.signs request.eventId request.secret request.now
      (Session.start db ∅) = (.ok (event.payload,
        signatureOf lib request.secret request.timestamp event.payload), s₁) := by
    unfold prepareDelivery signWebhook
    rw [bind_ok hget]
    dsimp only
    rw [if_neg named]
    rfl
  have hstep : (request.dispatch .raised).step lib.signs (.leased leaseToken)
      (Session.start db ∅) = (.ok (.prepared leaseToken event.payload
        (signatureOf lib request.secret request.timestamp event.payload)), s₁) :=
    bind_ok hprepare
  refine ⟨s₁.identity, ?_, hheld event rfl⟩
  rw [Courier.next_dispatch rfl]
  unfold Courier.dispatch Courier.worker
  rw [Worker.act_eq hstep, show s₁.committed = db from hcommitted]
  rfl

/-- A courier without a fault calls the consumer. -/
theorem Courier.calls {identity : IdentityMap} {leaseToken signature : String}
    {payload : EventPayload} (sent : request.fault = none) :
    Courier.next lib ⟨request, identity, .prepared leaseToken payload signature, none⟩ db =
      (db, ⟨request, identity, .prepared leaseToken payload signature,
        some ⟨request.consumerCall payload signature, .ready⟩⟩) := by
  unfold Courier.next Courier.invocation
  dsimp only
  rw [sent]
  rfl

/-- The consumer's call runs its next phase. -/
theorem Courier.consumes {identity : IdentityMap} {leaseToken signature : String}
    {payload : EventPayload} {thread : ConsumerThread} (sent : request.fault = none)
    (unfinished : thread.phase.reply = none) :
    Courier.next lib ⟨request, identity, .prepared leaseToken payload signature, some thread⟩ db =
      ((thread.act lib db).1, ⟨request, identity, .prepared leaseToken payload signature,
        some (thread.act lib db).2⟩) := by
  unfold Courier.next Courier.invocation
  dsimp only
  rw [sent]
  simp only [unfinished]
  rfl

/-- A courier takes the consumer's 200 for an acknowledgement. -/
theorem Courier.acknowledges {identity : IdentityMap} {leaseToken signature : String}
    {payload : EventPayload} {call : ConsumerCall} {outcome : ConsumerOutcome}
    (sent : request.fault = none) :
    Courier.next lib ⟨request, identity, .prepared leaseToken payload signature,
        some ⟨call, .finished (.ok outcome)⟩⟩ db =
      (db, ⟨request, identity, .answered leaseToken
        { outcome := "SUCCESS", responseStatus := some 200, errorCode := none }, none⟩) := by
  unfold Courier.next Courier.invocation
  dsimp only
  rw [sent]
  show Courier.dispatch lib _ (.status 200) db = _
  have hcall : callReceiver (fun _ _ _ => .status 200) request.fault payload signature request.now
      (Session.start db identity) =
        (.ok { outcome := "SUCCESS", responseStatus := some 200, errorCode := none },
          Session.start db identity) := by
    rw [callReceiver_apply, sent]
    rfl
  have hstep : (request.dispatch (.status 200)).step lib.signs
      (.prepared leaseToken payload signature) (Session.start db identity) =
        (.ok (.answered leaseToken
          { outcome := "SUCCESS", responseStatus := some 200, errorCode := none }),
          Session.start db identity) := bind_ok hcall
  unfold Courier.dispatch Courier.worker
  rw [Worker.act_eq hstep]
  rfl

/-- A courier that holds the row as it is stored records its attempt. -/
theorem Courier.records {identity : IdentityMap} {leaseToken : String} (delivery : Delivery)
    (tracked : Tracked db) (held : heldEvent request.eventId identity = some event)
    (stored : db.webhookEvents.get request.eventId = some event)
    (token : event.leaseToken = some leaseToken) :
    ∃ db' identity' result, Courier.next lib ⟨request, identity, .answered leaseToken delivery, none⟩
        db = (db', ⟨request, identity', .finished (.ok result), none⟩) ∧
      RecordsTrack event (asUtc request.now) delivery db db' := by
  have hid : event.id = request.eventId := (Table.get_eq_some stored).2
  obtain ⟨db', after, hnext⟩ : ∃ db' after, Courier.next lib
    ⟨request, identity, .answered leaseToken delivery, none⟩ db = (db', after) := ⟨_, _, rfl⟩
  have unfinished : ¬(DispatchPhase.answered leaseToken delivery).Ended := id
  cases Courier.next_cases unfinished hnext with
  | called hcall => cases hcall
  | consumed hcall => cases hcall
  | dispatched _ acts hafter =>
    cases acts with
    | claimed hphase => cases hphase
    | loaded hphase => cases hphase
    | replied hphase => cases hphase
    | failed hphase =>
      rcases hphase with hphase | ⟨_, hphase⟩ <;> cases hphase
    | finalized hphase hfinalizes hworker =>
      cases hphase
      subst hworker
      have hanswer : answeredEvent request.eventId identity db = some event :=
        answeredEvent_held held
      have hfinalizes : Finalizes request.eventId leaseToken (asUtc request.now) delivery
        (answeredEvent request.eventId identity db) db db' _ := hfinalizes
      rw [hanswer] at hfinalizes
      cases hfinalizes with
      | missing hfound => cases hfound
      | superseded hfound htoken =>
        cases hfound
        exact absurd token htoken
      | refused hfound _ _ hrefused =>
        cases hfound
        obtain ⟨_, hrecord⟩ := recordAttempt_isOk tracked (hid ▸ stored) _ (asUtc request.now) delivery
        rw [hrecord] at hrefused
        cases hrefused
      | recorded hfound htoken hrecords =>
        cases hfound
        refine ⟨_, _, _, hnext.trans (by rw [hafter]), ?_⟩
        exact hrecords.track tracked (hid ▸ stored) (tracked.holds stored) htoken

end Alone

/-! ## One event -/

/-- A turn of a courier whose call of the consumer is not overtaken. -/
def Party.Delivering (db : Database) : Party → Prop
  | .courier c => ∀ thread, c.consumer = some thread → ¬Overtaken db thread
  | _ => False

/-- What a courier reaches while the others rest. -/
abbrev Alone (sha256 : String → String) (lib : StandardLibrary) (db : Database)
    (courier : Courier) (n : Nat) (db' : Database) (after : Courier) : Prop :=
  Pool.Solo (Platform sha256 lib) Party.Delivering db (.courier courier) n db' (.courier after)

section Event

variable {sha256 : String → String} {lib : StandardLibrary} {db db' : Database}
  {event : WebhookEventRecord} {request : CourierRequest} {courier after : Courier}

variable (sha256) in
/-- One turn. -/
theorem Alone.next (unfinished : ¬courier.phase.Ended)
    (fresh : ∀ thread, courier.consumer = some thread → ¬Overtaken db thread)
    (h : courier.next lib db = (db', after)) : Alone sha256 lib db courier 1 db' after :=
  .single fresh (.courier (.next unfinished h))

/-- A call that is not about to write is not overtaken. -/
theorem not_overtaken {thread : ConsumerThread}
    (h : ∀ envelope decision, thread.phase ≠ .decided envelope decision) : ¬Overtaken db thread := by
  rintro ⟨envelope, decision, _, _, _, hphase, _⟩
  exact h envelope decision hphase

/-- A call that decided on what is stored is not overtaken. -/
theorem Compared.not_overtaken {envelope : WebhookEnvelope} {decision : ConsumerDecision}
    {call : ConsumerCall}
    (compared : Compared envelope (db.merchantProjections.get envelope.payment.id) decision) :
    ¬Overtaken db ⟨call, .decided envelope decision⟩ := by
  rintro ⟨_, _, loaded, current, stored, hphase, hwrite, _, _, _, hstored, hnewer⟩
  cases hphase
  rw [hstored] at compared
  cases compared with
  | advanced holder => exact absurd hnewer (by omega)
  | stale => cases hwrite
  | redundant => cases hwrite

/-- What a call of the consumer leaves as it was. -/
structure SameProducer (db db' : Database) : Prop where
  payments : db'.payments = db.payments
  events : db'.webhookEvents = db.webhookEvents
  attempts : db'.deliveryAttempts = db.deliveryAttempts

/-- One phase of the consumer's call. -/
theorem Alone.consumes {identity : IdentityMap} {leaseToken signature : String}
    {payload : EventPayload} {thread thread' : ConsumerThread} (sent : request.fault = none)
    (unfinished : thread.phase.reply = none) (fresh : ¬Overtaken db thread)
    (h : thread.act lib db = (db', thread')) :
    Alone sha256 lib db ⟨request, identity, .prepared leaseToken payload signature, some thread⟩ 1
      db' ⟨request, identity, .prepared leaseToken payload signature, some thread'⟩ := by
  refine .next sha256 id (fun found heq => ?_) ((Courier.consumes sent unfinished).trans (by rw [h]))
  cases heq
  exact fresh

/-- A delivery that is not yet in the inbox and whose projection has been decided is written. -/
theorem consumer_writes {decision : ConsumerDecision}
    (hdecide : decideProjection (db.merchantProjections.get event.payload.envelope.payment.id)
      event.payload.envelope = .ok decision)
    (hfree : db.processedWebhooks.get event.payload.envelope.id = none)
    (written : request.refused = false) :
    ∃ db' outcome, SameProducer db db' ∧ ConsumerThread.act lib
      ⟨(request.delivery lib event).call, .decided event.payload.envelope decision⟩ db =
        (db', ⟨(request.delivery lib event).call, .finished (.ok outcome)⟩) := by
  obtain ⟨r, s', hwrite⟩ : ∃ r s', writeConsumption event.payload.envelope
    (lib.sha256 (request.delivery lib event).call.payload) decision
    (request.delivery lib event).call.now (request.delivery lib event).call.faults
    (readSession db) = (r, s') := ⟨_, _, rfl⟩
  have compared := decideProjection_eq_ok hdecide
  have afterInbox : (request.delivery lib event).call.faults.afterInbox = false := rfl
  have hok : r = .ok (decision.outcome event.payload.envelope.id) := by
    rw [← writeConsumption_succeeds (s := readSession db) hfree
      (fun t => Compared.flushes compared) written afterInbox, hwrite]
  have hdecided : ConsumerThread.act lib
      ⟨(request.delivery lib event).call, .decided event.payload.envelope decision⟩ db =
        (s'.committed, ⟨(request.delivery lib event).call, .finished r⟩) := by
    rw [ConsumerThread.act_decided, hwrite]
  rcases writeConsumption_cases rfl hwrite with ⟨rfl, consumes, _⟩ | ⟨_, unapplied⟩
  · refine ⟨s'.committed, decision.outcome event.payload.envelope.id, ?_, hdecided⟩
    rw [consumes.rest]
    exact ⟨rfl, rfl, rfl⟩
  · cases unapplied with
    | repeated hexisting =>
      rw [show (readSession db).committed = db from rfl, hfree] at hexisting
      cases hexisting
    | raised => cases hok

variable (sha256) in
/-- **A consumer whose tables are the view of the events consumed answers** a courier that calls it
alone. -/
theorem consumer_answers (view : View lib db db.consumedEvents db) (store : ProducerStore db)
    (valid : (request.delivery lib event).Valid lib db)
    (body : event.payload.payment.merchantReference ≠ "") (sent : request.fault = none)
    (written : request.refused = false) (identity : IdentityMap) (leaseToken signature : String) :
    ∃ n ≤ 3, ∃ db' outcome, SameProducer db db' ∧
      Alone sha256 lib db
        ⟨request, identity, .prepared leaseToken event.payload signature,
          some ⟨(request.delivery lib event).call, .ready⟩⟩ n db'
        ⟨request, identity, .prepared leaseToken event.payload signature,
          some ⟨(request.delivery lib event).call, .finished (.ok outcome)⟩⟩ := by
  have haccepted := valid.accepted store body
  obtain ⟨hid, hpayment, _, _⟩ := store.payload _ valid.event
  have hid : event.payload.envelope.id = event.id := hid
  have hpayment : event.payload.envelope.payment.id = event.paymentId := hpayment
  have hready : ConsumerThread.act lib ⟨(request.delivery lib event).call, .ready⟩ db = _ :=
    ConsumerThread.act_ready haccepted
  have unread : ¬Overtaken db ⟨(request.delivery lib event).call, .ready⟩ :=
    not_overtaken fun _ _ hphase => by cases hphase
  by_cases hseen : event ∈ db.consumedEvents
  · -- a repetition is answered from the inbox
    obtain ⟨row, hrow, hhash⟩ := view.recorded event hseen
    rw [← hid] at hrow
    have hanswer : ∃ outcome, repeatedAnswer row event.payload.envelope.id
        (lib.sha256 (request.delivery lib event).call.payload) = .ok outcome := by
      unfold repeatedAnswer
      exact ⟨_, if_neg (not_not.mpr hhash)⟩
    obtain ⟨outcome, hanswer⟩ := hanswer
    rw [show (request.delivery lib event).event.payload.envelope.id =
      event.payload.envelope.id from rfl, hrow] at hready
    dsimp only at hready
    rw [hanswer] at hready
    exact ⟨1, by omega, db, outcome, ⟨rfl, rfl, rfl⟩, .consumes sent rfl unread hready⟩
  · obtain ⟨decision, hdecide⟩ := view.decides store valid hseen
    have hfree := view.free valid hseen
    have hdecide : decideProjection (db.merchantProjections.get event.payload.envelope.payment.id)
        event.payload.envelope = .ok decision := by
      rw [hpayment]
      exact hdecide
    have hfree : db.processedWebhooks.get event.payload.envelope.id = none := by
      rw [hid]
      exact hfree
    have compared := decideProjection_eq_ok hdecide
    rw [show (request.delivery lib event).event.payload.envelope.id =
      event.payload.envelope.id from rfl, hfree] at hready
    have hunseen : ConsumerThread.act lib
        ⟨(request.delivery lib event).call, .unseen event.payload.envelope⟩ db =
          (db, ⟨(request.delivery lib event).call, .decided event.payload.envelope decision⟩) := by
      rw [ConsumerThread.act_unseen, hdecide]
    obtain ⟨db', outcome, same, hdecided⟩ := consumer_writes hdecide hfree written
    have undecided : ¬Overtaken db
        ⟨(request.delivery lib event).call, .unseen event.payload.envelope⟩ :=
      not_overtaken fun _ _ hphase => by cases hphase
    exact ⟨3, le_refl _, db', outcome, same,
      ((Alone.consumes sent rfl unread hready).append
        (Alone.consumes sent rfl undecided hunseen)).append
          (Alone.consumes sent rfl compared.not_overtaken hdecided)⟩

variable (sha256 lib request) in
/-- A courier that is not in the middle of a call of the consumer takes up a request. -/
theorem Alone.begins (idle : courier.consumer = none) :
    ∃ n ≤ 2, Alone sha256 lib db courier n db ⟨request, ∅, .ready, none⟩ := by
  obtain ⟨old, identity, phase, consumer⟩ := courier
  obtain rfl : consumer = none := idle
  have fresh : ∀ phase, Party.Delivering db (.courier ⟨old, identity, phase, none⟩) := by
    intro _ _ hthread
    cases hthread
  by_cases ended : phase.Ended
  · exact ⟨1, by omega, .single (fresh _) (.courier (.begin request ∅ ended))⟩
  · -- what it was doing is given up
    exact ⟨2, le_refl _, .snoc (.single (fresh _) (.courier (.crash ended))) (fresh _)
      (.courier (.begin request ∅ trivial))⟩

/-- What a courier holds once it has claimed its event and loaded it: the body and the header of the
delivery, the row as its session read it, and a lease under its own token. -/
structure Courier.Prepared (lib : StandardLibrary) (request : CourierRequest)
    (event : WebhookEventRecord) (db : Database) (courier : Courier) : Prop where
  courier : ∃ identity, courier = ⟨request, identity, .prepared ("lease_" ++ request.hex)
      event.payload (request.delivery lib event).signatureHeader, none⟩ ∧
    heldEvent request.eventId identity = some event
  stored : db.webhookEvents.get request.eventId = some event
  token : event.leaseToken = some ("lease_" ++ request.hex)

variable (sha256 lib) in
/-- **Alone, a courier leases any event that may be claimed.** -/
theorem Alone.prepares (stored : db.webhookEvents.get request.eventId = some event)
    (claimable : event.claimable (asUtc request.now) = true) (named : request.secret ≠ "")
    (idle : courier.consumer = none) :
    ∃ n ≤ 4, ∃ db' after, Alone sha256 lib db courier n db' after ∧
      Leases event ("lease_" ++ request.hex) (asUtc request.now) db db' ∧
      Courier.Prepared lib request (event.leased ("lease_" ++ request.hex) (asUtc request.now)) db'
        after := by
  obtain ⟨n, hn, begins⟩ : ∃ n ≤ 2, Alone sha256 lib db courier n db ⟨request, ∅, .ready, none⟩ :=
    Alone.begins sha256 lib request idle
  obtain ⟨db', hclaims, leases⟩ := Courier.claims lib stored claimable
  have hid : event.id = request.eventId := (Table.get_eq_some stored).2
  have stored' := leases.stored'
  rw [hid] at stored'
  obtain ⟨identity, hloads, held⟩ := Courier.loads lib ("lease_" ++ request.hex) stored' named
  have claims : Alone sha256 lib db ⟨request, ∅, .ready, none⟩ 1 db' _ :=
    .next sha256 id (fun _ hthread => by cases hthread) hclaims
  have loads : Alone sha256 lib db' _ 1 db' _ :=
    .next sha256 id (fun _ hthread => by cases hthread) hloads
  exact ⟨n + 1 + 1, by omega, db', _, (begins.append claims).append loads, leases,
    ⟨identity, rfl, held⟩, stored', rfl⟩

variable (sha256) in
/-- **Alone, a courier that has loaded its event delivers it.** -/
theorem Alone.delivers (prepared : Courier.Prepared lib request event db courier)
    (tracked : Tracked db)
    (view : View lib db db.consumedEvents db) (store : ProducerStore db)
    (valid : (request.delivery lib event).Valid lib db)
    (body : event.payload.payment.merchantReference ≠ "") (sent : request.fault = none)
    (written : request.refused = false) :
    ∃ n ≤ 6, ∃ mid db' after delivery, Alone sha256 lib db courier n db' after ∧
      after.consumer = none ∧ SameProducer db mid ∧ delivery.succeeded = true ∧
      RecordsTrack event (asUtc request.now) delivery mid db' := by
  obtain ⟨⟨identity, rfl, held⟩, stored, token⟩ := prepared
  have unread : ∀ (db : Database) (thread : ConsumerThread), none = some thread →
      ¬Overtaken db thread := fun _ _ hthread => by cases hthread
  have hcalls : Courier.next lib ⟨request, identity, .prepared ("lease_" ++ request.hex)
      event.payload (request.delivery lib event).signatureHeader, none⟩ db = (db, _) :=
    Courier.calls sent
  have calls := Alone.next sha256 id (unread db) hcalls
  obtain ⟨n, hn, mid, outcome, same, answers⟩ := consumer_answers sha256 view store valid body sent
    written identity ("lease_" ++ request.hex) (request.delivery lib event).signatureHeader
  have hacknowledges : Courier.next lib ⟨request, identity, .prepared ("lease_" ++ request.hex)
      event.payload (request.delivery lib event).signatureHeader,
      some ⟨(request.delivery lib event).call, .finished (.ok outcome)⟩⟩ mid = (mid, _) :=
    Courier.acknowledges sent
  have acknowledges := Alone.next sha256 id (fun _ hthread => by
    cases hthread
    exact not_overtaken fun _ _ hphase => by cases hphase) hacknowledges
  have tracked' : Tracked mid :=
    ((Publishes.of_same same.events same.attempts).delivers tracked).tracked tracked
  have stored' : mid.webhookEvents.get request.eventId = some event := by
    rw [same.events]
    exact stored
  obtain ⟨db', identity', result, hrecords, records⟩ :=
    Courier.records { outcome := "SUCCESS", responseStatus := some 200, errorCode := none }
      tracked' held stored' token
  have finalizes := Alone.next sha256 id (unread mid) hrecords
  exact ⟨1 + n + 1 + 1, by omega, mid, db', _, _,
    ((calls.append answers).append acknowledges).append finalizes, rfl, same, rfl, records⟩

end Event

/-! ## The platform -/

section Platform

variable {ι : Type} [DecidableEq ι] {sha256 : String → String} {lib : StandardLibrary}

/-- A run behind which the merchant's tables are in order. The assumptions are named one by one:
`reads` is what the code relies on of the standard library, the read-back of every body included;
`named` that no payment was created with an empty reference, which the route refuses and the service
does not; `signed` that nobody but the producer holds the secret, so that every body the consumer
accepts is one of the producer's; `ahead` that no write of a consumer is overtaken, which two
deliveries of one payment at a time can bring about. Nothing is assumed of the order or the number of
deliveries, of crashed couriers, or of lost acknowledgements. -/
structure Honest (sha256 : String → String) (lib : StandardLibrary)
    (ts : List (Pool.Transition Database ι Party)) (v : Pool.World Database ι Party) : Prop where
  running : Running sha256 lib ts v
  reads : Api.Reads lib v.shared
  named : ∀ event ∈ v.shared.webhookEvents.rows, event.payload.payment.merchantReference ≠ ""
  signed : ∀ t ∈ ts, ∀ thread, t.before = .consumer thread → thread.call.Genuine lib v.shared
  ahead : ∀ t ∈ ts, ∀ thread, t.before.consuming = some thread → ¬Overtaken t.pre thread

/-- Payments and published events are the same on both sides. -/
structure SamePublished (db db' : Database) : Prop where
  payments : db'.payments = db.payments
  published : db'.webhookEvents.rows.map (·.published) = db.webhookEvents.rows.map (·.published)

theorem SamePublished.trans {a b c : Database} (h : SamePublished a b) (k : SamePublished b c) :
    SamePublished a c := ⟨k.payments.trans h.payments, k.published.trans h.published⟩

/-- A published event was there before, with the same body. -/
theorem SamePublished.before {db db' : Database} (h : SamePublished db db')
    {event : WebhookEventRecord} (mem : event ∈ db'.webhookEvents.rows) :
    ∃ before ∈ db.webhookEvents.rows, before.published = event.published := by
  have published : event.published ∈ db'.webhookEvents.rows.map (·.published) :=
    List.mem_map_of_mem mem
  rw [h.published] at published
  obtain ⟨before, mem, hpublished⟩ := List.mem_map.mp published
  exact ⟨before, mem, hpublished⟩

theorem SamePublished.symm {db db' : Database} (h : SamePublished db db') : SamePublished db' db :=
  ⟨h.payments.symm, h.published.symm⟩

/-- Couriers publish nothing. -/
theorem Alone.samePublished {db db' : Database} {courier after : Courier} {n : Nat}
    (h : Alone sha256 lib db courier n db' after) : SamePublished db db' := by
  refine h.invariant (I := SamePublished db) (fun d party d' party' same delivering step => ?_)
    ⟨rfl, rfl⟩
  cases step with
  | courier step =>
    have background := step.background.1
    exact same.trans ⟨background.payments, background.published⟩
  | client => exact delivering.elim
  | receive => exact delivering.elim
  | consume => exact delivering.elim
  | imports => exact delivering.elim
  | reports => exact delivering.elim

variable {ts : List (Pool.Transition Database ι Party)} {v : Pool.World Database ι Party} {i : ι}

/-- **What one courier does alone goes on an honest run.** -/
theorem Honest.extend (h : Honest sha256 lib ts v) {courier after : Courier} {n : Nat}
    {db : Database} (mine : v.threads i = .courier courier)
    (alone : Alone sha256 lib v.shared courier n db after) :
    ∃ us u, Pool.Run (Platform sha256 lib) v us u ∧ us.length = n ∧ u.shared = db ∧
      u.threads i = .courier after ∧ (∀ t ∈ us, t.thread = i) ∧ Honest sha256 lib (ts ++ us) u := by
  have same := alone.samePublished
  have alone : Pool.Solo (Platform sha256 lib) Party.Delivering v.shared (v.threads i) n db
      (.courier after) := by
    rw [mine]
    exact alone
  obtain ⟨us, u, run, hlength, rfl, hafter, own⟩ := alone.run
  have before : ∀ event ∈ u.shared.webhookEvents.rows, ∃ old ∈ v.shared.webhookEvents.rows,
    old.published = event.published := fun event mem => same.before mem
  refine ⟨us, u, run, hlength, rfl, hafter, fun t mem => (own t mem).1, h.running.append run,
    ⟨h.reads.hex, h.reads.int, fun event mem => ?_⟩, fun event mem => ?_, fun t mem thread heq => ?_,
    fun t mem thread heq => ?_⟩
  · obtain ⟨old, hold, hpublished⟩ := before event mem
    rw [← show old.payload = event.payload from congrArg PublishedEvent.payload hpublished]
    exact h.reads.back old hold
  · obtain ⟨old, hold, hpublished⟩ := before event mem
    rw [← show old.payload = event.payload from congrArg PublishedEvent.payload hpublished]
    exact h.named old hold
  · rcases List.mem_append.mp mem with mem | mem
    · intro envelope haccepted
      obtain ⟨old, hold, hbody⟩ := h.signed t mem thread heq envelope haccepted
      obtain ⟨event, hevent, hpublished⟩ := same.symm.before hold
      refine ⟨event, hevent, hbody.trans ?_⟩
      rw [show old.payload = event.payload from congrArg PublishedEvent.payload hpublished.symm]
    · have delivering := (own t mem).2
      rw [heq] at delivering
      exact delivering.elim
  · rcases List.mem_append.mp mem with mem | mem
    · exact h.ahead t mem thread heq
    · have delivering := (own t mem).2
      cases hparty : t.before with
      | courier c =>
        rw [hparty] at heq delivering
        exact delivering thread heq
      | client => rw [hparty] at delivering; exact delivering.elim
      | consumer => rw [hparty] at delivering; exact delivering.elim
      | office => rw [hparty] at delivering; exact delivering.elim

/-- The merchant's tables behind an honest run. -/
theorem Honest.view (h : Honest sha256 lib ts v) :
    View lib v.shared v.shared.consumedEvents v.shared :=
  h.running.view h.reads.back h.signed h.ahead

/-- What one courier has done while the others rested. -/
structure Worked (sha256 : String → String) (lib : StandardLibrary) (i : ι) (n : Nat)
    (ts : List (Pool.Transition Database ι Party)) (v : Pool.World Database ι Party)
    (us : List (Pool.Transition Database ι Party)) (u : Pool.World Database ι Party) : Prop where
  run : Pool.Run (Platform sha256 lib) v us u
  own : ∀ t ∈ us, t.thread = i
  bounded : us.length ≤ n
  honest : Honest sha256 lib (ts ++ us) u
  same : SamePublished v.shared u.shared
  idle : ∃ courier, u.threads i = .courier courier ∧ courier.consumer = none

variable {us ws : List (Pool.Transition Database ι Party)} {u w : Pool.World Database ι Party}
  {n m : Nat}

theorem Worked.append (h : Worked sha256 lib i n ts v us u)
    (k : Worked sha256 lib i m (ts ++ us) u ws w) : Worked sha256 lib i (n + m) ts v (us ++ ws) w := by
  refine ⟨h.run.append k.run, fun t mem => ?_, ?_, ?_, h.same.trans k.same, k.idle⟩
  · rcases List.mem_append.mp mem with mem | mem
    · exact h.own t mem
    · exact k.own t mem
  · have := h.bounded
    have := k.bounded
    rw [List.length_append]
    omega
  · rw [← List.append_assoc]
    exact k.honest

/-- The event of a track. -/
theorem Database.track_event (db : Database) (id : String) :
    (db.track id).map (·.event) = db.webhookEvents.get id := by
  unfold Database.track
  cases db.webhookEvents.get id with
  | none => rfl
  | some event => rfl

/-- **One event.** A courier that works alone delivers any event that may be claimed, and touches no
other. -/
theorem Honest.deliver (h : Honest sha256 lib ts v) (request : CourierRequest)
    {event : WebhookEventRecord} {courier : Courier} (mine : v.threads i = .courier courier)
    (idle : courier.consumer = none)
    (stored : v.shared.webhookEvents.get request.eventId = some event)
    (claimable : event.claimable (asUtc request.now) = true) (named : request.secret ≠ "")
    (sent : request.fault = none) (written : request.refused = false) :
    ∃ us u delivered, Worked sha256 lib i 10 ts v us u ∧
      u.shared.webhookEvents.get request.eventId = some delivered ∧
      delivered.status = .delivered ∧ ∀ other, other ≠ request.eventId →
        u.shared.webhookEvents.get other = v.shared.webhookEvents.get other := by
  obtain ⟨n, hn, db, claimed, prepares, leases, prepared⟩ :=
    Alone.prepares sha256 lib stored claimable named idle
  obtain ⟨us, u, run, hlength, rfl, hclaimed, own, honest⟩ := h.extend mine prepares
  have mem := (Table.get_eq_some prepared.stored).1
  have valid := Api.CourierRequest.valid named honest.reads mem
  have store := honest.running.execution.producerStore
  obtain ⟨m, hm, mid, db', after, delivery, delivers, hidle, same, succeeded, records⟩ :=
    Alone.delivers sha256 prepared honest.running.holds.1 honest.view store valid
      (honest.named _ mem) sent written
  obtain ⟨ws, w, run', hlength', rfl, hafter, own', honest'⟩ := honest.extend hclaimed delivers
  have hid : event.id = request.eventId := (Table.get_eq_some stored).2
  obtain ⟨finalized, next, hfinal, hstored⟩ := records.event
  have hkey : (event.leased ("lease_" ++ request.hex) (asUtc request.now)).id = request.eventId := hid
  rw [hkey] at hstored
  refine ⟨us ++ ws, w, finalized, ⟨run.append run', fun t mem => ?_, ?_, ?_,
    prepares.samePublished.trans delivers.samePublished, after, hafter, hidle⟩, hstored,
    (WebhookEventRecord.finalized_spec hfinal).delivered.mpr succeeded, fun other hne => ?_⟩
  · rcases List.mem_append.mp mem with mem | mem
    · exact own t mem
    · exact own' t mem
  · rw [List.length_append]
    omega
  · rw [← List.append_assoc]
    exact honest'
  · have hrecorded := records.others other fun heq => hne (heq.symm.trans hkey)
    have hleased := leases.track_of_ne fun heq => hne (heq.symm.trans hid)
    calc w.shared.webhookEvents.get other
        = mid.webhookEvents.get other := by rw [← Database.track_event, hrecorded, Database.track_event]
      _ = u.shared.webhookEvents.get other := by rw [same.events]
      _ = v.shared.webhookEvents.get other := by
        rw [← Database.track_event, hleased, Database.track_event]

/-- Every event that is not at its end may be claimed. -/
def Database.Due (db : Database) (current : Instant) : Prop :=
  ∀ id event, db.webhookEvents.get id = some event →
    event.status.Final ∨ event.claimable current = true

/-- When an event that waits is due, and when its lease has run out. -/
def WebhookEventRecord.dueAt (event : WebhookEventRecord) : Instant :=
  max event.nextAttemptAt (event.leaseExpiresAt.getD 0)

theorem WebhookEventRecord.claimable_of_dueAt {event : WebhookEventRecord} {current : Instant}
    (hopen : ¬event.status.Final) (expiry : event.leaseExpiresAt.isSome ↔ event.status = .processing)
    (h : event.dueAt ≤ current) : event.claimable current = true := by
  obtain ⟨hnext, hlease⟩ := max_le_iff.mp h
  unfold WebhookEventRecord.claimable
  cases hstatus : event.status with
  | pending => simp [hnext]
  | processing =>
    obtain ⟨expires, hexpires⟩ := Option.isSome_iff_exists.mp (expiry.mpr hstatus)
    rw [hexpires] at hlease ⊢
    have hlease : expires ≤ current := hlease
    simp [hlease]
  | delivered => exact absurd (.inl hstatus) hopen
  | exhausted => exact absurd (.inr hstatus) hopen

/-- **In the end everything is due.** -/
theorem Tracked.due {db : Database} (h : Tracked db) :
    ∃ start, ∀ current, start ≤ current → db.Due current := by
  obtain ⟨start, hstart⟩ := (db.webhookEvents.rows.map (·.dueAt)).toFinset.exists_le
  refine ⟨start, fun current hcurrent id event stored => ?_⟩
  by_cases hfinal : event.status.Final
  · exact .inl hfinal
  have hdue : event.dueAt ≤ start := by
    refine hstart _ (List.mem_toFinset.mpr (List.mem_map_of_mem ?_))
    exact (Table.get_eq_some stored).1
  have consistent := h.consistent _ _ (Database.track_of_get stored)
  exact .inr (WebhookEventRecord.claimable_of_dueAt hfinal consistent.expiry (hdue.trans hcurrent))

/-- What a drain leaves of the events: each is delivered by now, or as it was. -/
def Drained (db db' : Database) : Prop :=
  ∀ id event, db'.webhookEvents.get id = some event →
    event.status = .delivered ∨ db.webhookEvents.get id = some event

theorem Drained.trans {a b c : Database} (h : Drained a b) (k : Drained b c) : Drained a c := by
  intro id event stored
  rcases k id event stored with delivered | earlier
  · exact .inl delivered
  · exact h id event earlier

/-- **One event after another.** -/
theorem Honest.deliverEach {request : CourierRequest} (named : request.secret ≠ "")
    (sent : request.fault = none) (written : request.refused = false) :
    ∀ (ids : List String) {ts : List (Pool.Transition Database ι Party)}
      {v : Pool.World Database ι Party} {courier : Courier},
      Honest sha256 lib ts v → v.threads i = .courier courier → courier.consumer = none →
      v.shared.Due (asUtc request.now) →
      ∃ us u, Worked sha256 lib i (10 * ids.length) ts v us u ∧ Drained v.shared u.shared ∧
        ∀ id ∈ ids, ∀ event, u.shared.webhookEvents.get id = some event → event.status.Final := by
  intro ids
  induction ids with
  | nil =>
    intro ts v courier h mine idle due
    refine ⟨[], v, ⟨.nil v, fun _ mem => absurd mem List.not_mem_nil, le_refl _, ?_, ⟨rfl, rfl⟩,
      courier, mine, idle⟩, fun _ _ stored => .inr stored, fun _ mem => absurd mem List.not_mem_nil⟩
    rw [List.append_nil]
    exact h
  | cons id rest ih =>
    intro ts v courier h mine idle due
    by_cases hopen : ∃ event, v.shared.webhookEvents.get id = some event ∧ ¬event.status.Final
    · obtain ⟨event, stored, hopen⟩ := hopen
      have claimable := (due id event stored).resolve_left hopen
      obtain ⟨us, u, delivered, worked, hstored, hdelivered, others⟩ :=
        h.deliver { request with eventId := id } mine idle stored claimable named sent written
      have drained : Drained v.shared u.shared := by
        intro other event' stored'
        by_cases hid : other = id
        · subst hid
          cases hstored.symm.trans stored'
          exact .inl hdelivered
        · exact .inr ((others other hid).symm.trans stored')
      have due' : u.shared.Due (asUtc request.now) := by
        intro other event' stored'
        rcases drained other event' stored' with hdelivered | earlier
        · exact .inl (.inl hdelivered)
        · exact due other event' earlier
      obtain ⟨after, hafter, hidle⟩ := worked.idle
      obtain ⟨ws, w, worked', drained', ended⟩ := ih worked.honest hafter hidle due'
      refine ⟨us ++ ws, w, ?_, drained.trans drained', fun other mem event' stored' => ?_⟩
      · have := worked.append worked'
        rwa [show 10 + 10 * rest.length = 10 * (id :: rest).length by
          rw [List.length_cons]; omega] at this
      · rcases List.mem_cons.mp mem with rfl | mem
        · rcases drained' _ event' stored' with hdelivered' | earlier
          · exact .inl hdelivered'
          · cases hstored.symm.trans earlier
            exact .inl hdelivered
        · exact ended other mem event' stored'
    · -- the event is at its end, or there is none
      obtain ⟨us, u, worked, drained, ended⟩ := ih h mine idle due
      refine ⟨us, u, { worked with bounded := ?_ }, drained, fun other mem event' stored' => ?_⟩
      · have := worked.bounded
        rw [List.length_cons]
        omega
      · rcases List.mem_cons.mp mem with rfl | mem
        · rcases drained _ event' stored' with hdelivered | earlier
          · exact .inl hdelivered
          · exact not_not.mp fun hfinal => hopen ⟨event', earlier, hfinal⟩
        · exact ended other mem event' stored'

/-- What a drained outbox is: nothing waits and nothing is leased, what is exhausted was exhausted
before, and a payment whose newest event is not exhausted is shown as it is stored and compares as
matched. Of a payment whose newest event is exhausted nothing is said: its deliveries were used up
before the drain began. -/
structure OutboxDrained (db db' : Database) : Prop where
  payments : db'.payments = db.payments
  events : ∀ id event, db'.webhookEvents.get id = some event → event.status = .delivered ∨
    event.status = .exhausted ∧ db.webhookEvents.get id = some event
  shown : ∀ p, db'.payments.get p.id = some p → ∃ latest, latestEvent db' p.id = some latest ∧
    (latest.status = .exhausted ∨ ∃ shown, db'.merchantProjections.get p.id = some shown ∧
      shown.Shows (.fromPayment p) ∧ shown.lastEventId = latest.id ∧
      projectionStatus p (some shown) latest (db'.processedWebhooks.get latest.id).isSome = .matched)

/-- **The outbox is never stuck**: from every store an honest run reaches, a courier that works alone,
late enough, drains it, in at most ten steps an event. -/
theorem outbox_drains (h : Honest sha256 lib ts v) {courier : Courier}
    (mine : v.threads i = .courier courier) (idle : courier.consumer = none) :
    ∃ start, ∀ request : CourierRequest, start ≤ asUtc request.now → request.secret ≠ "" →
      request.fault = none → request.refused = false →
      ∃ us u, Pool.Run (Platform sha256 lib) v us u ∧ (∀ t ∈ us, t.thread = i) ∧
        us.length ≤ 10 * v.shared.webhookEvents.rows.length ∧ OutboxDrained v.shared u.shared := by
  obtain ⟨start, due⟩ := h.running.holds.1.due
  refine ⟨start, fun request late named sent written => ?_⟩
  obtain ⟨us, u, worked, drained, ended⟩ := Honest.deliverEach named sent written
    (v.shared.webhookEvents.rows.map (·.id)) h mine idle (due _ late)
  have hlength := worked.bounded
  rw [List.length_map] at hlength
  have events : ∀ id event, u.shared.webhookEvents.get id = some event →
      event.status = .delivered ∨
        event.status = .exhausted ∧ v.shared.webhookEvents.get id = some event := by
    intro id event stored
    obtain ⟨mem, hid⟩ := Table.get_eq_some stored
    obtain ⟨before, hbefore, hpublished⟩ := worked.same.before mem
    have hsame : before.id = id := (congrArg PublishedEvent.id hpublished).trans hid
    rcases ended id (hsame ▸ List.mem_map_of_mem hbefore) event stored with hdelivered | hexhausted
    · exact .inl hdelivered
    · refine .inr ⟨hexhausted, (drained id event stored).resolve_left fun hdelivered => ?_⟩
      rw [hexhausted] at hdelivered
      cases hdelivered
  refine ⟨us, u, worked.run, worked.own, hlength, worked.same.payments, events, fun p stored => ?_⟩
  have honest := worked.honest
  obtain ⟨latest, mem, hlatest, _⟩ := honest.running.execution.producerStore.latest p stored
  refine ⟨latest, hlatest, ?_⟩
  rcases events latest.id latest (Table.get_of_mem mem) with hdelivered | ⟨hexhausted, _⟩
  · obtain ⟨row, hrow, _⟩ := honest.running.consumed mem hdelivered (honest.reads.back latest mem)
    exact .inr (honest.view.matched honest.running.execution.producerStore stored hlatest hrow)
  · exact .inl hexhausted

end Platform

/-! ## An abandoned delivery -/

/-- The order is placed, and its event claimed and loaded by a courier that comes no further. -/
def abandoning : List Keeper := List.replicate 2 .customer ++ List.replicate 2 .courier

def abandonedShop : Pool.World Database Keeper Party :=
  operate (fun _ => "") Api.shopLibrary abandoning shop

/-- A courier that is not in the middle of a call of the consumer. -/
def Party.resting : Party → Bool
  | .courier c => c.consumer.isNone
  | _ => false

theorem Party.resting_eq_true {party : Party} (h : party.resting = true) :
    ∃ courier, party = .courier courier ∧ courier.consumer = none := by
  cases party with
  | courier courier => exact ⟨courier, rfl, Option.isNone_iff_eq_none.mp h⟩
  | client => cases h
  | consumer => cases h
  | office => cases h

/-- The event it left is leased. -/
theorem abandonedShop_events : abandonedShop.shared.webhookEvents.rows =
    [{ Follower.first.event with
        status := .processing, leaseToken := some "lease_1", leaseExpiresAt := some 30000000 }] := by
  decide +kernel

/-- The outbox of the abandoned shop. -/
theorem abandonedShop_drains : ∃ ts, Honest (fun _ => "") Api.shopLibrary ts abandonedShop ∧
    ∃ start, ∀ request : CourierRequest, start ≤ asUtc request.now → request.secret ≠ "" →
      request.fault = none → request.refused = false →
      ∃ us u, Pool.Run (Platform (fun _ => "") Api.shopLibrary) abandonedShop us u ∧
        (∀ t ∈ us, t.thread = .courier) ∧
        us.length ≤ 10 * abandonedShop.shared.webhookEvents.rows.length ∧
        OutboxDrained abandonedShop.shared u.shared := by
  obtain ⟨ts, h, watched⟩ := Running.operate (fun _ => "") Api.shopLibrary shop_opening abandoning
  have afresh : ∀ t ∈ ts, t.before.WritesAfresh = true :=
    watched Party.WritesAfresh (by decide +kernel)
  have bodies : ∀ event ∈ abandonedShop.shared.webhookEvents.rows,
      event.payload = Follower.first.event.payload := by
    intro event mem
    rw [abandonedShop_events, List.mem_singleton] at mem
    rw [mem]
  have honest : Honest (fun _ => "") Api.shopLibrary ts abandonedShop := by
    refine ⟨h, ⟨Api.emptyDigest_hex, Api.readDecimal_toString, fun event mem => ?_⟩,
      fun event mem => ?_, fun t mem thread hthread => ?_,
      fun t mem thread hthread => Party.ahead_of_writesAfresh (afresh t mem) hthread⟩
    · rw [bodies event mem]
      exact (Follower.valid .first).readsBack
    · rw [bodies event mem]
      decide
    · have quiet := afresh t mem
      rw [hthread] at quiet
      cases quiet
  have resting : (abandonedShop.threads .courier).resting = true := by decide +kernel
  obtain ⟨courier, mine, idle⟩ := Party.resting_eq_true resting
  exact ⟨ts, honest, outbox_drains honest mine idle⟩

end PaymentLab
