import PaymentLab.Laws.Convergence
import PaymentLab.Laws.Platform
import PaymentLab.Laws.Reconciliation

/-!
# The merchant on the platform

What the merchant's tables hold along a run of the platform, while payments go on and their events
are delivered beside. Where nobody but the producer signs bodies and no write is overtaken, they are
at every point the view of the events consumed so far (`Running.view`), so a payment whose newest
event is delivered is shown as it is stored (`delivered_matched`).

The events of the store a run ends in stand for the producer: every event that was ever delivered is
one of them, and what it published has not changed.

Two assumptions carry it and neither can be dropped. A body that somebody else signs is believed, so
the producer has to be the only one with the secret; and a write that is overtaken puts an older
snapshot back, so there must be none. Both are conditions on the run, and the deliveries themselves
may be lost, repeated and reordered.
-/

namespace PaymentLab

open Relational Transactional Transactional.Service

/-- The call of the consumer a party is running. -/
def Party.consuming : Party → Option ConsumerThread
  | .courier c => c.consumer
  | .consumer thread => some thread
  | _ => none

section Merchant

variable (lib : StandardLibrary) (producer : Database)

/-- Nobody but the producer signs: what a call accepts is the body of a published event. It says
nothing of calls that the consumer refuses. -/
def ConsumerCall.Genuine (call : ConsumerCall) : Prop :=
  ∀ envelope, call.accepted lib = .ok envelope →
    ∃ event ∈ producer.webhookEvents.rows, call.payload = event.payload.body

/-- The merchant's tables, against the events of a producer: each projection shows a consumed event,
none is behind a consumed event, and each inbox row is of a published event, under the digest of its
body. Which events have been consumed is not said; the view is read off whatever set that is. -/
structure Merchant (db : Database) : Prop where
  shows : ShowsConsumed producer db
  current : ∀ event ∈ producer.webhookEvents.rows,
    (∃ row, db.processedWebhooks.get event.id = some row) →
    ∃ p, db.merchantProjections.get event.paymentId = some p ∧
      event.aggregateVersion ≤ p.aggregateVersion
  inbox : ∀ id row, db.processedWebhooks.get id = some row →
    ∃ event ∈ producer.webhookEvents.rows, event.id = id ∧
      row.payloadHash = lib.sha256 event.payload.body

/-- A genuine call that is accepted is tracked between its phases. -/
def ConsumerThread.Trusted (db : Database) (thread : ConsumerThread) : Prop :=
  thread.call.Genuine lib producer → ∀ envelope, thread.call.accepted lib = .ok envelope →
    thread.Tracks lib producer (LoadedBefore producer) db

variable {lib producer} {db db' : Database}

/-- A genuine call that is accepted is a valid delivery. -/
theorem ConsumerCall.Genuine.delivery {call : ConsumerCall} (genuine : call.Genuine lib producer)
    (back : ∀ event ∈ producer.webhookEvents.rows,
      ReadsBack lib.loads lib.fromIsoformat event.payload)
    {envelope : WebhookEnvelope} (haccepted : call.accepted lib = .ok envelope) :
    ∃ delivery : EventDelivery, delivery.Valid lib producer ∧ call = delivery.call := by
  obtain ⟨event, mem, hbody⟩ := genuine envelope haccepted
  have signed : verifyWebhookSignature lib.hmacSha256 lib.readInt call.payload
      call.signatureHeader call.secret call.now = .ok () := by
    obtain ⟨u, hverify, _⟩ := except_bind_eq_ok haccepted
    exact hverify
  obtain ⟨payload, signatureHeader, secret, now, faults⟩ := call
  obtain rfl : payload = event.payload.body := hbody
  exact ⟨⟨event, signatureHeader, secret, now, faults⟩, ⟨mem, signed, back event mem⟩, rfl⟩

/-- A call is trusted when it begins. -/
theorem ConsumerThread.Trusted.ready (call : ConsumerCall)
    (back : ∀ event ∈ producer.webhookEvents.rows,
      ReadsBack lib.loads lib.fromIsoformat event.payload) :
    ConsumerThread.Trusted lib producer db ⟨call, .ready⟩ := by
  intro genuine envelope haccepted
  refine ⟨genuine.delivery back haccepted, fun _ hphase => ?_, fun _ _ hphase => ?_⟩
  · cases hphase
  · cases hphase

theorem ConsumerThread.Trusted.kept {thread : ConsumerThread} (h : thread.Trusted lib producer db)
    (neverBack : NeverBack db db') : thread.Trusted lib producer db' := by
  intro genuine envelope haccepted
  refine (h genuine envelope haccepted).beside fun id p loaded => ?_
  obtain ⟨hshown, stored, hstored, hle⟩ := loaded
  obtain ⟨stored', hstored', hle'⟩ := neverBack id stored hstored
  exact ⟨hshown, stored', hstored', hle.trans hle'⟩

/-- The merchant's tables where nobody writes them. -/
theorem Merchant.kept (h : Merchant lib producer db)
    (inbox : db'.processedWebhooks = db.processedWebhooks)
    (projections : db'.merchantProjections = db.merchantProjections) :
    Merchant lib producer db' ∧ NeverBack db db' := by
  refine ⟨⟨?_, ?_, ?_⟩, fun id p hp => ⟨p, by rw [projections]; exact hp, le_refl _⟩⟩
  · unfold ShowsConsumed
    rw [inbox, projections]
    exact h.shows
  · rw [inbox, projections]
    exact h.current
  · rw [inbox]
    exact h.inbox

/-- What a call decided leaves its event behind no longer. -/
theorem Compared.current {envelope : WebhookEnvelope} {read : Option MerchantPaymentProjectionRecord}
    {decision : ConsumerDecision} (compared : Compared envelope read decision)
    (hversion : envelope.payment.version = envelope.aggregateVersion)
    (loaded : ∀ p, read = some p → p.paymentId = envelope.payment.id ∧
      ∃ stored, db.merchantProjections.get envelope.payment.id = some stored ∧
        p.aggregateVersion ≤ stored.aggregateVersion)
    (projects : Projects decision.write db.merchantProjections db'.merchantProjections) :
    ∃ p, db'.merchantProjections.get envelope.payment.id = some p ∧
      envelope.aggregateVersion ≤ p.aggregateVersion := by
  cases compared with
  | created =>
    generalize db'.merchantProjections = table at projects ⊢
    cases projects with
    | insert hinsert => exact ⟨_, Table.get_insert_self hinsert, le_of_eq hversion.symm⟩
  | @advanced p hnewer =>
    obtain ⟨hkey, stored, hstored, _⟩ := loaded p rfl
    rw [← hkey] at hstored ⊢
    refine ⟨_, projects.get_update hstored, ?_⟩
    rw [writeChanges_version (by rw [hversion]; exact hnewer)]
    exact le_of_eq hversion.symm
  | @stale p holder =>
    obtain ⟨_, stored, hstored, hle⟩ := loaded p rfl
    rw [projects.same]
    exact ⟨stored, hstored, by omega⟩
  | @redundant p hsame _ =>
    obtain ⟨_, stored, hstored, hle⟩ := loaded p rfl
    rw [projects.same]
    exact ⟨stored, hstored, by omega⟩

/-- **One phase of a call of the consumer**: where it is genuine and not overtaken, it keeps what the
merchant's tables hold. -/
theorem Merchant.consume {thread after : ConsumerThread} (h : Merchant lib producer db)
    (store : ProducerStore producer) (sound : thread.Sound lib db)
    (genuine : thread.call.Genuine lib producer) (trusted : thread.Trusted lib producer db) (step : ConsumerPool lib db thread db' after)
    (ahead : ¬Overtaken db thread) :
    Merchant lib producer db' ∧ NeverBack db db' ∧ after.Trusted lib producer db' := by
  obtain ⟨hcall, moves⟩ := ConsumerThread.act_moves step
  -- the phases past the first are those of an accepted call
  have accepted : db' = db ∨ ∃ envelope, thread.call.accepted lib = .ok envelope := by
    generalize after.phase = phase at moves
    cases moves with
    | ended => exact .inl rfl
    | read => exact .inl rfl
    | compared => exact .inl rfl
    | wrote hphase => exact .inr ⟨_, sound.decided _ _ hphase⟩
  cases haccepted : thread.call.accepted lib with
  | error e =>
    have hsame : db' = db := by
      rcases accepted with hsame | ⟨envelope, hok⟩
      · exact hsame
      · rw [haccepted] at hok
        cases hok
    subst hsame
    refine ⟨h, .refl _, fun _ envelope hok => ?_⟩
    rw [hcall, haccepted] at hok
    cases hok
  | ok envelope =>
    have tracks := trusted genuine envelope haccepted
    obtain ⟨shows, neverBack⟩ := h.shows.step store tracks step ahead
    refine ⟨?_, neverBack, fun _ _ _ => tracks.step (fun id p hp => ?_) step⟩
    · generalize after.phase = phase at moves
      cases moves with
      | ended => exact h
      | read => exact h
      | compared => exact h
      | @wrote envelope decision _ hphase consumes =>
        obtain ⟨hok, read, compared, hread⟩ := tracks.decided envelope decision hphase
        obtain ⟨delivery, valid, hdelivery⟩ := tracks.delivery
        rw [hdelivery] at hok
        obtain rfl := valid.envelope hok
        obtain ⟨hid, hpayment, haggregate, hversion⟩ := store.payload _ valid.event
        have hhash : lib.sha256 thread.call.payload = lib.sha256 delivery.event.payload.body := by
          rw [hdelivery]
          rfl
        refine ⟨shows, fun event mem hconsumed => ?_, fun id row hrow => ?_⟩
        · by_cases hsame : event = delivery.event
          · subst hsame
            have hloaded : ∀ p, read = some p →
                p.paymentId = delivery.event.payload.envelope.payment.id ∧
                ∃ stored, db.merchantProjections.get
                  delivery.event.payload.envelope.payment.id = some stored ∧
                    p.aggregateVersion ≤ stored.aggregateVersion :=
              fun p hp => ⟨(hread p hp).1, (hread p hp).2.2⟩
            obtain ⟨p, hp, hle⟩ :=
              compared.current (hversion.trans haggregate.symm) hloaded consumes.projections
            refine ⟨p, ?_, ?_⟩
            · rw [← hpayment]
              exact hp
            · rw [← haggregate]
              exact hle
          · -- another event was consumed before
            obtain ⟨row, hrow⟩ := hconsumed
            rw [Table.get_insert consumes.inbox] at hrow
            split at hrow
            · next heq =>
              have hkey : delivery.event.payload.id = event.id := heq
              rw [hid] at hkey
              exact absurd (event_id_unique mem valid.event hkey.symm) hsame
            · obtain ⟨p, hp, hle⟩ := h.current event mem ⟨row, hrow⟩
              obtain ⟨p', hp', hle'⟩ := neverBack _ p hp
              exact ⟨p', hp', hle.trans hle'⟩
        · rw [Table.get_insert consumes.inbox] at hrow
          split at hrow
          · next heq =>
            cases hrow
            have hkey : delivery.event.payload.id = id := heq
            exact ⟨delivery.event, valid.event, hid.symm.trans hkey, hhash⟩
          · exact h.inbox id row hrow
    · obtain ⟨event, mem, hid, _, hshown⟩ := h.shows id p hp
      exact ⟨⟨event, mem, hid, hshown⟩, p, hp, le_refl _⟩

/-- The events consumed so far. -/
def Database.consumedEvents (db : Database) : List WebhookEventRecord :=
  db.webhookEvents.select fun event => (db.processedWebhooks.get event.id).isSome

theorem Database.mem_consumedEvents {db : Database} {event : WebhookEventRecord} :
    event ∈ db.consumedEvents ↔ event ∈ db.webhookEvents.rows ∧
      ∃ row, db.processedWebhooks.get event.id = some row := by
  unfold Database.consumedEvents
  rw [Table.mem_select, Option.isSome_iff_exists]

/-- The newest event of a payment, once consumed, is the one shown. -/
theorem View.shown {seen : List WebhookEventRecord} (view : View lib producer seen db)
    {latest : WebhookEventRecord} (mem : latest ∈ seen)
    (highest : ∀ event ∈ producer.webhookEvents.rows, event.paymentId = latest.paymentId →
      event.aggregateVersion ≤ latest.aggregateVersion) :
    db.merchantProjections.get latest.paymentId = some (newProjection latest.payload.envelope) := by
  have hnewest := view.newest latest.paymentId
  generalize db.merchantProjections.get latest.paymentId = shown at hnewest ⊢
  cases hnewest with
  | unseen hnone => exact absurd rfl (hnone latest mem)
  | @newest top htop hid htopHighest =>
    have published := view.published top htop
    have hversion : top.aggregateVersion = latest.aggregateVersion :=
      le_antisymm (highest top published hid) (htopHighest latest mem rfl)
    rw [event_unique published (view.published latest mem) hid hversion]

/-- A payment whose newest event was consumed is shown as it is stored, and matched. -/
theorem View.matched (view : View lib producer producer.consumedEvents producer)
    (store : ProducerStore producer) {p : PaymentRecord}
    (stored : producer.payments.get p.id = some p) {latest : WebhookEventRecord}
    (hlatest : latestEvent producer p.id = some latest) {row : ProcessedWebhookRecord}
    (consumed : producer.processedWebhooks.get latest.id = some row) :
    ∃ shown, producer.merchantProjections.get p.id = some shown ∧
      shown.Shows (.fromPayment p) ∧ shown.lastEventId = latest.id ∧
      projectionStatus p (some shown) latest
        (producer.processedWebhooks.get latest.id).isSome = .matched := by
  obtain ⟨event, mem, hevent, hpayment, hversion, hpayload, highest⟩ := store.latest p stored
  obtain rfl : event = latest := Option.some.inj (hevent.symm.trans hlatest)
  have shown := view.shown (Database.mem_consumedEvents.mpr ⟨mem, row, consumed⟩)
    (by rw [hpayment]; exact highest)
  obtain ⟨hid, _, _, hcolumn⟩ := store.payload event mem
  have hfields : event.payload.envelope.payment = .fromPayment p := hpayload
  have hshows : (newProjection event.payload.envelope).Shows (.fromPayment p) := by
    rw [← hfields]
    exact newProjection_shows event.payload.envelope
  rw [hpayment] at shown
  refine ⟨_, shown, hshows, hid, projectionStatus_matched.mpr ⟨_, rfl, ?_, ?_, ?_, ?_⟩⟩
  · exact le_of_eq hcolumn.symm
  · rw [consumed]
    rfl
  · exact hcolumn.trans hversion
  · unfold comparedFieldsAgree newProjection
    rw [hfields]
    exact ⟨rfl, rfl, rfl, rfl, rfl, rfl, rfl, rfl⟩

/-- The tables of a merchant beside its producer are the view of the events consumed. -/
theorem Merchant.view (h : Merchant lib producer producer) (store : ProducerStore producer) :
    View lib producer producer.consumedEvents producer := by
  constructor
  · rfl
  · rfl
  · intro event mem
    exact (Database.mem_consumedEvents.mp mem).1
  · intro id row hrow
    obtain ⟨event, mem, hid, _⟩ := h.inbox id row hrow
    exact ⟨event, Database.mem_consumedEvents.mpr ⟨mem, row, by rw [hid]; exact hrow⟩, hid⟩
  · intro event mem
    obtain ⟨stored, row, hrow⟩ := Database.mem_consumedEvents.mp mem
    obtain ⟨source, hsource, hid, hhash⟩ := h.inbox event.id row hrow
    rw [event_id_unique hsource stored hid] at hhash
    exact ⟨row, hrow, hhash⟩
  · intro id
    cases hshown : producer.merchantProjections.get id with
    | none =>
      refine .unseen fun event mem hid => ?_
      obtain ⟨stored, consumed⟩ := Database.mem_consumedEvents.mp mem
      obtain ⟨p, hp, _⟩ := h.current event stored consumed
      rw [hid, hshown] at hp
      cases hp
    | some p =>
      obtain ⟨event, stored, hid, consumed, hprojection⟩ := h.shows id p hshown
      rw [hprojection]
      refine .newest (Database.mem_consumedEvents.mpr ⟨stored, consumed⟩) hid fun other mem hother => ?_
      obtain ⟨storedOther, consumedOther⟩ := Database.mem_consumedEvents.mp mem
      obtain ⟨p', hp', hle⟩ := h.current other storedOther consumedOther
      rw [hother, hshown] at hp'
      cases hp'
      have hversion := (store.payload event stored).2.2.2
      rw [hprojection] at hle
      exact hle.trans (le_of_eq hversion)

end Merchant

/-! ## Runs -/

section Runs

variable {ι : Type} {sha256 : String → String} {lib : StandardLibrary} {producer : Database}

/-- The calls of a party are trusted. -/
def Party.Trusted (lib : StandardLibrary) (producer db : Database) (party : Party) : Prop :=
  ∀ thread, party.consuming = some thread → thread.Trusted lib producer db

theorem Party.Trusted.idle {db : Database} {party : Party} (idle : party.consuming = none) :
    party.Trusted lib producer db := by
  intro thread hthread
  rw [idle] at hthread
  cases hthread

/-- A step that the merchant's tables survive: the call it may run is genuine and not overtaken. -/
def Party.Sanctioned (lib : StandardLibrary) (producer db : Database) (party : Party) : Prop :=
  ∀ thread, party.consuming = some thread →
    thread.call.Genuine lib producer ∧ ¬Overtaken db thread

/-- **A sanctioned step of the platform** keeps what the merchant's tables hold. -/
theorem Merchant.step {db db' : Database} {party party' : Party} (h : Merchant lib producer db)
    (store : ProducerStore producer)
    (back : ∀ event ∈ producer.webhookEvents.rows,
      ReadsBack lib.loads lib.fromIsoformat event.payload)
    (coherent : party.Coherent lib db) (trusted : party.Trusted lib producer db)
    (step : Platform sha256 lib db party db' party')
    (sanctioned : party.Sanctioned lib producer db) :
    Merchant lib producer db' ∧ NeverBack db db' ∧ party'.Trusted lib producer db' := by
  cases step with
  | client step =>
    have same := step.sameMerchant
    obtain ⟨merchant, neverBack⟩ := h.kept same.processedWebhooks same.merchantProjections
    exact ⟨merchant, neverBack, .idle rfl⟩
  | @courier _ _ courier after step =>
    have coherent : courier.Coherent lib db := coherent
    cases step with
    | begin => exact ⟨h, .refl db, .idle rfl⟩
    | crash => exact ⟨h, .refl db, .idle rfl⟩
    | next unfinished hnext =>
      cases Courier.next_cases unfinished hnext with
      | @called call _ _ hsame hafter =>
        subst hsame hafter
        refine ⟨h, .refl _, fun thread hthread => ?_⟩
        obtain rfl : ⟨call, .ready⟩ = thread := Option.some.inj hthread
        exact .ready call back
      | @consumed call thread thread' _ hthread hstep hafter =>
        subst hafter
        obtain ⟨genuine, ahead⟩ := sanctioned thread hthread
        obtain ⟨merchant, neverBack, trusted'⟩ := h.consume store (coherent.consumer thread hthread).2
          genuine (trusted thread hthread) hstep ahead
        refine ⟨merchant, neverBack, fun found hfound => ?_⟩
        obtain rfl : thread' = found := Option.some.inj hfound
        exact trusted'
      | dispatched _ acts hafter =>
        subst hafter
        have inbox : db'.processedWebhooks = db.processedWebhooks := by rw [acts.rest]
        obtain ⟨merchant, neverBack⟩ := h.kept inbox (by rw [acts.rest])
        exact ⟨merchant, neverBack, .idle rfl⟩
  | @receive _ thread call =>
    refine ⟨h, .refl db, fun found hfound => ?_⟩
    obtain rfl : ⟨call, .ready⟩ = found := Option.some.inj hfound
    exact .ready call back
  | @consume _ _ thread after hstep =>
    obtain ⟨genuine, ahead⟩ := sanctioned thread rfl
    obtain ⟨merchant, neverBack, trusted'⟩ :=
      h.consume store coherent genuine (trusted thread rfl) hstep ahead
    refine ⟨merchant, neverBack, fun found hfound => ?_⟩
    obtain rfl : after = found := Option.some.inj hfound
    exact trusted'
  | imports himports =>
    have inbox : db'.processedWebhooks = db.processedWebhooks := by rw [himports.rest]
    obtain ⟨merchant, neverBack⟩ := h.kept inbox (by rw [himports.rest])
    exact ⟨merchant, neverBack, .idle rfl⟩
  | reports hreports =>
    have same : db'.processedWebhooks = db.processedWebhooks ∧
        db'.merchantProjections = db.merchantProjections := by
      rcases hreports.cases with hsame | ⟨_, _, _, hrest⟩
      · rw [hsame]
        exact ⟨rfl, rfl⟩
      · rw [hrest]
        exact ⟨rfl, rfl⟩
    obtain ⟨merchant, neverBack⟩ := h.kept same.1 same.2
    exact ⟨merchant, neverBack, .idle rfl⟩

variable [DecidableEq ι] {ts us : List (Pool.Transition Database ι Party)}
  {v u : Pool.World Database ι Party}

/-- A courier's call is genuine: it carries the body of a stored event, and the event is still there
at the end of the run. -/
theorem Running.genuine (h : Running sha256 lib ts v) {t : Pool.Transition Database ι Party}
    (mem : t ∈ ts) {courier : Courier} {thread : ConsumerThread}
    (hbefore : t.before = .courier courier) (hthread : courier.consumer = some thread) :
    thread.call.Genuine lib v.shared := by
  obtain ⟨w, opening, run⟩ := h
  obtain ⟨before, after, u, rfl, first, enabled, rest⟩ := run.split mem
  have reached : Running sha256 lib before u := ⟨w, opening, first⟩
  have coherent : courier.Coherent lib u.shared := by
    have := reached.holds.2 t.thread
    rw [← enabled.2.1, hbefore] at this
    exact this
  obtain ⟨hcall, _⟩ := coherent.consumer thread hthread
  have prepared : ∃ leaseToken payload signature,
      courier.phase = .prepared leaseToken payload signature ∧
        thread.call = courier.request.consumerCall payload signature := by
    unfold Courier.invocation at hcall
    split at hcall
    · next leaseToken payload signature hphase =>
      split at hcall
      · exact ⟨leaseToken, payload, signature, hphase, (Option.some.inj hcall).symm⟩
      · cases hcall
    · cases hcall
  obtain ⟨leaseToken, payload, signature, hphase, hsame⟩ := prepared
  obtain ⟨event, hstored, hpayload⟩ := coherent.loaded leaseToken payload signature hphase
  obtain ⟨later, hlater, hmoved⟩ :=
    reached.later ((Pool.Run.single enabled).append rest) hstored
  intro envelope _
  refine ⟨later, (Table.get_eq_some hlater).1, ?_⟩
  have hkept : later.payload = payload :=
    (congrArg PublishedEvent.payload hmoved.published).trans hpayload
  rw [hsame, hkept]
  rfl

/-- **The merchant's tables along a run**: where only the producer signs and no write is overtaken,
they show the events consumed so far. -/
theorem Running.merchant (h : Running sha256 lib ts v)
    (back : ∀ event ∈ v.shared.webhookEvents.rows,
      ReadsBack lib.loads lib.fromIsoformat event.payload)
    (signed : ∀ t ∈ ts, ∀ thread, t.before = .consumer thread →
      thread.call.Genuine lib v.shared)
    (ahead : ∀ t ∈ ts, ∀ thread, t.before.consuming = some thread → ¬Overtaken t.pre thread) :
    Merchant lib v.shared v.shared := by
  have store := h.execution.producerStore
  have sanctioned : ∀ t ∈ ts, t.before.Sanctioned lib v.shared t.pre := by
    intro t mem thread hthread
    refine ⟨?_, ahead t mem thread hthread⟩
    cases hparty : t.before with
    | client c =>
      rw [hparty] at hthread
      cases hthread
    | courier c =>
      rw [hparty] at hthread
      exact h.genuine mem hparty hthread
    | consumer found =>
      rw [hparty] at hthread
      obtain rfl : found = thread := Option.some.inj hthread
      exact signed t mem found hparty
    | office =>
      rw [hparty] at hthread
      cases hthread
  obtain ⟨w, opening, run⟩ := h
  have restricted := run.restrict (fun db party => party.Sanctioned lib v.shared db) sanctioned
  have own : Pool.Establishes (ι := ι)
      (fun db party db' party' => Platform sha256 lib db party db' party' ∧
        party.Sanctioned lib v.shared db)
      (fun db => Tracked db ∧ Merchant lib v.shared db)
      (fun _ db party => party.Coherent lib db ∧ party.Trusted lib v.shared db) := by
    rintro i db party db' party' ⟨tracked, merchant⟩ ⟨coherent, trusted⟩ ⟨step, allowed⟩
    obtain ⟨evolves, coherent'⟩ := step.coherent tracked coherent
    obtain ⟨merchant', _, trusted'⟩ := merchant.step store back coherent trusted step allowed
    exact ⟨⟨evolves.delivers.tracked tracked, merchant'⟩, coherent', trusted'⟩
  have others : Pool.NonInterfering (ι := ι)
      (fun db party db' party' => Platform sha256 lib db party db' party' ∧
        party.Sanctioned lib v.shared db)
      (fun db => Tracked db ∧ Merchant lib v.shared db)
      (fun _ db party => party.Coherent lib db ∧ party.Trusted lib v.shared db) := by
    rintro i j db party db' party' other _ ⟨tracked, merchant⟩ ⟨coherent, trusted⟩
      ⟨coherentOther, trustedOther⟩ ⟨step, allowed⟩
    obtain ⟨_, neverBack, _⟩ := merchant.step store back coherent trusted step allowed
    exact ⟨coherentOther.kept (step.coherent tracked coherent).1,
      fun thread hthread => (trustedOther thread hthread).kept neverBack⟩
  have start : Pool.Holds (fun db => Tracked db ∧ Merchant lib v.shared db)
      (fun _ db party => Party.Coherent lib db party ∧ Party.Trusted lib v.shared db party) w := by
    obtain ⟨tracked, coherent⟩ : Pool.Holds Tracked (fun _ => Party.Coherent lib) w := opening.holds
    refine ⟨⟨tracked, ?_⟩, fun i => ⟨coherent i, fun thread hthread => ?_⟩⟩
    · rw [opening.empty]
      refine ⟨fun id p hp => ?_, fun _ _ hrow => ?_, fun id row hrow => ?_⟩
      · cases hp
      · obtain ⟨_, hrow⟩ := hrow
        cases hrow
      · cases hrow
    · have idle := opening.idle i
      generalize w.threads i = party at idle hthread
      cases party with
      | client c => cases hthread
      | courier c =>
        have hnone : c.consumer = some thread := hthread
        rw [idle.2] at hnone
        cases hnone
      | consumer found =>
        obtain rfl : found = thread := Option.some.inj hthread
        obtain ⟨call, phase⟩ := found
        obtain rfl : phase = .ready := idle
        exact .ready call back
      | office => cases hthread
  exact (restricted.invariant own others start).1.2

/-- **The merchant's view of a run** is that of the events consumed. -/
theorem Running.view (h : Running sha256 lib ts v)
    (back : ∀ event ∈ v.shared.webhookEvents.rows,
      ReadsBack lib.loads lib.fromIsoformat event.payload)
    (signed : ∀ t ∈ ts, ∀ thread, t.before = .consumer thread →
      thread.call.Genuine lib v.shared)
    (ahead : ∀ t ∈ ts, ∀ thread, t.before.consuming = some thread → ¬Overtaken t.pre thread) :
    View lib v.shared v.shared.consumedEvents v.shared :=
  (h.merchant back signed ahead).view h.execution.producerStore

/-- **A payment whose newest event is delivered is shown as it is stored**, and the reconciliation
finds its projection matched. Delivered means consumed, and the merchant's tables are the view of
what was consumed, so its newest event is the one shown. Read-back of the bodies, genuine bodies and
no overtaken write are hypotheses. -/
theorem delivered_matched (h : Running sha256 lib ts v)
    (back : ∀ event ∈ v.shared.webhookEvents.rows,
      ReadsBack lib.loads lib.fromIsoformat event.payload)
    (signed : ∀ t ∈ ts, ∀ thread, t.before = .consumer thread →
      thread.call.Genuine lib v.shared)
    (ahead : ∀ t ∈ ts, ∀ thread, t.before.consuming = some thread → ¬Overtaken t.pre thread)
    {p : PaymentRecord} (stored : v.shared.payments.get p.id = some p)
    {latest : WebhookEventRecord} (hlatest : latestEvent v.shared p.id = some latest)
    (delivered : latest.status = .delivered) :
    ∃ shown, v.shared.merchantProjections.get p.id = some shown ∧
      shown.Shows (.fromPayment p) ∧ shown.lastEventId = latest.id ∧
      projectionStatus p (some shown) latest
        (v.shared.processedWebhooks.get latest.id).isSome = .matched := by
  have mem := (mem_eventsOf.mp (latestEvent_spec hlatest).1).1
  obtain ⟨row, hrow, _⟩ := h.consumed mem delivered (back latest mem)
  exact (h.view back signed ahead).matched h.execution.producerStore stored hlatest hrow

end Runs

/-! ## A shop that was served -/

/-- A courier's call that has nothing to update. -/
def Party.WritesAfresh : Party → Bool
  | .courier c =>
    match c.consumer with
    | some ⟨_, .decided _ ⟨_, _, .update _ _⟩⟩ => false
    | _ => true
  | .consumer _ => false
  | .client _ | .office => true

theorem Party.ahead_of_writesAfresh {party : Party} (h : party.WritesAfresh = true) {db : Database}
    {thread : ConsumerThread} (hthread : party.consuming = some thread) : ¬Overtaken db thread := by
  rintro ⟨envelope, decision, loaded, current, stored, hphase, hwrite, -⟩
  cases party with
  | client c => cases hthread
  | courier c =>
    obtain ⟨request, identity, phase, consumer⟩ := c
    obtain rfl : consumer = some thread := hthread
    obtain ⟨call, found⟩ := thread
    obtain rfl : found = .decided envelope decision := hphase
    obtain ⟨disposition, version, write⟩ := decision
    obtain rfl : write = .update loaded current := hwrite
    cases h
  | consumer thread => cases h
  | office => cases hthread

/-- The order, shown as it was placed. -/
theorem servedShop_matched :
    latestEvent servedShop.shared "pay_1" = some deliveredOrder ∧
      ∃ p shown, servedShop.shared.payments.get "pay_1" = some p ∧
        servedShop.shared.merchantProjections.get "pay_1" = some shown ∧
        shown.Shows (.fromPayment p) ∧ shown.lastEventId = deliveredOrder.id ∧
        projectionStatus p (some shown) deliveredOrder
          (servedShop.shared.processedWebhooks.get deliveredOrder.id).isSome = .matched := by
  have hlatest : latestEvent servedShop.shared "pay_1" = some deliveredOrder := by
    unfold latestEvent Database.eventsOf Table.select
    rw [servedShop_events]
    decide
  have hpayment : ((servedShop.shared.payments.get "pay_1").map (·.id)) = some "pay_1" := by
    decide +kernel
  obtain ⟨p, stored, hid⟩ := Option.map_eq_some_iff.mp hpayment
  obtain ⟨ts, h, watched⟩ := Running.operate (fun _ => "") purchaseLibrary shop_opening serving
  have afresh : ∀ t ∈ ts, t.before.WritesAfresh = true :=
    watched Party.WritesAfresh (by decide +kernel)
  have back : ∀ event ∈ servedShop.shared.webhookEvents.rows,
      ReadsBack purchaseLibrary.loads purchaseLibrary.fromIsoformat event.payload := by
    intro event mem
    rw [servedShop_events, List.mem_singleton] at mem
    rw [mem]
    exact (Follower.valid .first).readsBack
  have matched := delivered_matched h back
    (fun t mem thread hthread => by
      have quiet := afresh t mem
      rw [hthread] at quiet
      cases quiet)
    (fun t mem thread hthread => Party.ahead_of_writesAfresh (afresh t mem) hthread)
    (hid.symm ▸ stored) (hid.symm ▸ hlatest) rfl
  rw [hid] at matched
  obtain ⟨shown, matched⟩ := matched
  exact ⟨hlatest, p, shown, stored, matched⟩

end PaymentLab
