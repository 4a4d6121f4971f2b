import PaymentLab.Runs.Dispatch
import PaymentLab.Runs.Reachable

/-!
# Deliveries along runs

Any number of dispatchers on one database, the service publishing events beside them. A transaction
of a dispatcher, seen from one event, is nothing or one step of its track: the store refines the
abstract model (`Worker.Step.delivers`). What makes the refinement go through is the pair of the
attempt counter a dispatcher loaded and the unique number of an attempt: an object that has become
stale counts fewer attempts than the row, and the attempt it would add exists already
(`RecordsAttempt.current`).

The environment is allowed to append events and nothing else. It is shown elsewhere that the service
and the merchant do no more to the delivery tables (`Publishes`), so that the results here carry
over to the platform; here they hold beside anything that keeps to it.
-/

namespace PaymentLab

open Relational Transactional

/-! ## The track of an event -/

/-- The track of an event, as the tables hold it. -/
def Database.track (db : Database) (eventId : String) : Option Track :=
  (db.webhookEvents.get eventId).map fun event =>
    { event := event, attempts := db.attemptsOf eventId }

theorem Database.track_of_get {db : Database} {eventId : String} {event : WebhookEventRecord}
    (h : db.webhookEvents.get eventId = some event) :
    db.track eventId = some ⟨event, db.attemptsOf eventId⟩ := by
  unfold track
  rw [h]
  rfl

theorem Database.track_eq_some {db : Database} {eventId : String} {track : Track}
    (h : db.track eventId = some track) :
    db.webhookEvents.get eventId = some track.event ∧ track.attempts = db.attemptsOf eventId := by
  obtain ⟨event, hevent, rfl⟩ := Option.map_eq_some_iff.mp h
  exact ⟨hevent, rfl⟩

theorem Database.track_eq_none {db : Database} {eventId : String} :
    db.track eventId = none ↔ db.webhookEvents.get eventId = none := Option.map_eq_none_iff

/-- The delivery tables as a whole: every track is consistent, every attempt has its event. It is the
invariant of the dispatchers, without a word about the merchant. -/
structure Tracked (db : Database) : Prop where
  consistent : ∀ eventId track, db.track eventId = some track → track.Consistent
  attempted : ∀ attempt ∈ db.deliveryAttempts.rows,
    ∃ event, db.webhookEvents.get attempt.eventId = some event

theorem tracked_empty : Tracked .empty := by
  refine ⟨fun eventId track h => ?_, fun attempt mem => absurd mem List.not_mem_nil⟩
  have hnone : Database.empty.track eventId = none := rfl
  rw [hnone] at h
  cases h

/-- How the delivery tables change: the tracks there are go on, and new ones are fresh. -/
structure Delivers (db db' : Database) : Prop where
  continues : ∀ eventId a, db.track eventId = some a →
    ∃ b, db'.track eventId = some b ∧ a.Steps b
  begins : ∀ eventId b, db.track eventId = none → db'.track eventId = some b →
    b.event.Fresh ∧ b.attempts = []
  attempted : ∀ attempt ∈ db'.deliveryAttempts.rows,
    ∃ event, db'.webhookEvents.get attempt.eventId = some event

/-- **The delivery tables stay consistent.** -/
theorem Delivers.tracked {db db' : Database} (h : Delivers db db') (tracked : Tracked db) :
    Tracked db' := by
  refine ⟨fun eventId b hb => ?_, h.attempted⟩
  cases ha : db.track eventId with
  | none =>
    obtain ⟨hfresh, hnone⟩ := h.begins eventId b ha hb
    have := Track.consistent_fresh hfresh
    rwa [← hnone] at this
  | some a =>
    obtain ⟨b', hb', hsteps⟩ := h.continues eventId a ha
    cases hb.symm.trans hb'
    exact hsteps.consistent (tracked.consistent eventId a ha)

/-- The row of an event only moves on. -/
theorem Delivers.later {db db' : Database} (h : Delivers db db') {eventId : String}
    {event : WebhookEventRecord} (stored : db.webhookEvents.get eventId = some event) :
    ∃ event', db'.webhookEvents.get eventId = some event' ∧ Later event event' := by
  obtain ⟨b, hb, hsteps⟩ := h.continues eventId _ (Database.track_of_get stored)
  exact ⟨b.event, (Database.track_eq_some hb).1, hsteps.later⟩

theorem Tracked.unchanged {db : Database} (h : Tracked db) : Delivers db db :=
  ⟨fun _ a ha => ⟨a, ha, .refl⟩, fun _ _ ha hb => absurd (ha.symm.trans hb) (Option.some_ne_none _).symm,
    h.attempted⟩

/-! ## Publications -/

/-- What the service and the merchant do to the delivery tables: they append fresh events, and leave
the attempts alone. -/
structure Publishes (db db' : Database) : Prop where
  events : ∃ published, db'.webhookEvents.rows = db.webhookEvents.rows ++ published ∧
    ∀ event ∈ published, event.Fresh
  attempts : db'.deliveryAttempts = db.deliveryAttempts

namespace Publishes

theorem refl (db : Database) : Publishes db db :=
  ⟨⟨[], (List.append_nil _).symm, fun _ mem => absurd mem List.not_mem_nil⟩, rfl⟩

theorem trans {a b c : Database} (h : Publishes a b) (k : Publishes b c) : Publishes a c := by
  obtain ⟨first, hfirst, hfresh⟩ := h.events
  obtain ⟨second, hsecond, hfresh'⟩ := k.events
  refine ⟨⟨first ++ second, by rw [hsecond, hfirst, List.append_assoc], fun event mem => ?_⟩,
    k.attempts.trans h.attempts⟩
  rcases List.mem_append.mp mem with mem | mem
  · exact hfresh event mem
  · exact hfresh' event mem

/-- One event, inserted as the outbox writes it. -/
theorem insert {db db' : Database} {event : WebhookEventRecord} (fresh : event.Fresh)
    (events : db.webhookEvents.insert event = some db'.webhookEvents)
    (attempts : db'.deliveryAttempts = db.deliveryAttempts) : Publishes db db' := by
  refine ⟨⟨[event], Table.insert_rows events, fun e mem => ?_⟩, attempts⟩
  rw [List.mem_singleton.mp mem]
  exact fresh

theorem of_same {db db' : Database} (events : db'.webhookEvents = db.webhookEvents)
    (attempts : db'.deliveryAttempts = db.deliveryAttempts) : Publishes db db' :=
  ⟨⟨[], by rw [events, List.append_nil], fun _ mem => absurd mem List.not_mem_nil⟩, attempts⟩

/-- A publication leaves every track there is, and begins fresh ones. -/
theorem delivers {db db' : Database} (h : Publishes db db') (tracked : Tracked db) :
    Delivers db db' := by
  obtain ⟨⟨published, hrows, hfresh⟩, hattempts⟩ := h
  have hget : ∀ eventId, db'.webhookEvents.get eventId =
      (db.webhookEvents.get eventId).or
        (published.find? fun r => decide (webhookEventSchema.key r = eventId)) :=
    fun eventId => Table.get_append hrows eventId
  have hof : ∀ eventId, db'.attemptsOf eventId = db.attemptsOf eventId := by
    intro eventId
    unfold Database.attemptsOf
    rw [hattempts]
  refine ⟨fun eventId a ha => ?_, fun eventId b ha hb => ?_, fun attempt mem => ?_⟩
  · obtain ⟨hevent, hattempts⟩ := Database.track_eq_some ha
    refine ⟨a, ?_, .refl⟩
    rw [Database.track_of_get (by rw [hget, hevent, Option.some_or]), hof, ← hattempts]
  · obtain ⟨hevent, hb⟩ := Database.track_eq_some hb
    rw [hget, Database.track_eq_none.mp ha, Option.none_or] at hevent
    refine ⟨hfresh _ (List.mem_of_find?_eq_some hevent), ?_⟩
    -- an event that is not stored has no attempts
    rw [hb, hof]
    refine List.filter_eq_nil_iff.mpr fun attempt mem heq => ?_
    obtain ⟨event, hstored⟩ := tracked.attempted attempt mem
    rw [of_decide_eq_true heq, Database.track_eq_none.mp ha] at hstored
    cases hstored
  · rw [hattempts] at mem
    obtain ⟨event, hstored⟩ := tracked.attempted attempt mem
    exact ⟨event, by rw [hget, hstored, Option.some_or]⟩

end Publishes

/-! ## The writes of a dispatcher -/

/-- A change of one track that goes on. -/
theorem Delivers.of_track {db db' : Database} {eventId : String} {a b : Track}
    (tracked : Tracked db) (ha : db.track eventId = some a) (hb : db'.track eventId = some b)
    (steps : a.Steps b) (others : ∀ other, eventId ≠ other → db'.track other = db.track other)
    (attempted : ∀ attempt ∈ db'.deliveryAttempts.rows,
      attempt ∈ db.deliveryAttempts.rows ∨ attempt.eventId = eventId) : Delivers db db' := by
  have hstored : ∃ event, db'.webhookEvents.get eventId = some event :=
    ⟨_, (Database.track_eq_some hb).1⟩
  refine ⟨fun other c hc => ?_, fun other c hnone hc => ?_, fun attempt mem => ?_⟩
  · by_cases heq : eventId = other
    · subst heq
      cases ha.symm.trans hc
      exact ⟨b, hb, steps⟩
    · exact ⟨c, (others other heq).trans hc, .refl⟩
  · by_cases heq : eventId = other
    · subst heq
      cases ha.symm.trans hnone
    · rw [others other heq, hnone] at hc
      cases hc
  · by_cases heq : eventId = attempt.eventId
    · rw [← heq]
      exact hstored
    · obtain ⟨event, hevent⟩ := tracked.attempted attempt
        ((attempted attempt mem).resolve_right (Ne.symm heq))
      have htrack := others _ heq
      rw [Database.track_of_get hevent] at htrack
      exact ⟨event, (Database.track_eq_some htrack).1⟩

theorem Leases.attemptsOf {event : WebhookEventRecord} {leaseToken : String} {current : Instant}
    {db db' : Database} (h : Leases event leaseToken current db db') (eventId : String) :
    db'.attemptsOf eventId = db.attemptsOf eventId := by
  have hattempts : db'.deliveryAttempts = db.deliveryAttempts := by rw [h.rest]
  unfold Database.attemptsOf
  rw [hattempts]

theorem Leases.stored' {event : WebhookEventRecord} {leaseToken : String} {current : Instant}
    {db db' : Database} (h : Leases event leaseToken current db db') :
    db'.webhookEvents.get event.id = some (event.leased leaseToken current) :=
  Table.get_update_self h.events h.stored

/-- A claim leaves every other track. -/
theorem Leases.track_of_ne {event : WebhookEventRecord} {leaseToken : String} {current : Instant}
    {db db' : Database} (h : Leases event leaseToken current db db') {other : String}
    (hne : event.id ≠ other) : db'.track other = db.track other := by
  unfold Database.track
  rw [Table.get_update_of_ne h.events hne, h.attemptsOf]

/-- A claim is one step of the track of its event, and no other track changes. -/
theorem Leases.delivers {event : WebhookEventRecord} {leaseToken : String} {current : Instant}
    {db db' : Database} (h : Leases event leaseToken current db db') (tracked : Tracked db) :
    Delivers db db' := by
  have hafter := Database.track_of_get h.stored'
  rw [h.attemptsOf] at hafter
  refine .of_track tracked (Database.track_of_get h.stored) hafter
    (.single (.claimed leaseToken current h.claimable)) (fun _ => h.track_of_ne)
    fun attempt mem => .inl ?_
  rw [h.rest] at mem
  exact mem

/-- An object that was read from a consistent row, and the row as it stands. The row may have moved
on since; what is known is that it did so by delivery steps. -/
structure Holds (loaded stored : WebhookEventRecord) : Prop where
  later : Later loaded stored
  token : loaded.leaseToken.isSome ↔ loaded.status = .processing
  expiry : loaded.leaseExpiresAt.isSome ↔ loaded.status = .processing

/-- **A record is never made from a stale counter**: the attempt it would number exists already. -/
theorem RecordsAttempt.current {loaded stored : WebhookEventRecord} {current : Instant}
    {delivery : Delivery} {db db' : Database} (h : RecordsAttempt loaded current delivery db db')
    (tracked : Tracked db) (hstored : db.webhookEvents.get loaded.id = some stored)
    (holds : Holds loaded stored) : stored.attemptCount = loaded.attemptCount := by
  have hle := holds.later.attemptCount
  by_contra hne
  have consistent := tracked.consistent _ _ (Database.track_of_get hstored)
  have hmem : loaded.attemptCount + 1 ∈ (db.attemptsOf loaded.id).map (·.attemptNumber) := by
    have hnumbered : (db.attemptsOf loaded.id).map (·.attemptNumber) =
        List.range' 1 stored.attemptCount := consistent.numbered
    rw [hnumbered, List.mem_range'_1]
    omega
  obtain ⟨attempt, mem, hnumber⟩ := List.mem_map.mp hmem
  obtain ⟨mem, hid⟩ := Table.mem_select.mp mem
  have hfree := (Table.insert_eq_some h.attempts).2.1
  refine Table.get_eq_none.mp hfree attempt mem ?_
  show (attempt.eventId, attempt.attemptNumber) = (loaded.id, loaded.attemptCount + 1)
  rw [of_decide_eq_true hid, hnumber]

/-- **A record is one step of the track of its event**: what the stale columns could spoil, the number
of the attempt rules out. -/
theorem RecordsAttempt.step {loaded stored : WebhookEventRecord} {leaseToken : String}
    {current : Instant} {delivery : Delivery} {db db' : Database}
    (h : RecordsAttempt loaded current delivery db db') (tracked : Tracked db)
    (hstored : db.webhookEvents.get loaded.id = some stored) (holds : Holds loaded stored)
    (token : loaded.leaseToken = some leaseToken) :
    ∃ finalized next, stored.status = .processing ∧
      stored.finalized current delivery = .ok (finalized, next) ∧
      db.webhookEvents.update finalized = some db'.webhookEvents ∧
      newAttempt loaded current delivery = newAttempt stored current delivery := by
  have hcount := h.current tracked hstored holds
  obtain ⟨stored', finalized, next, hstored', hfinal, hupdate⟩ := h.events
  cases hstored.symm.trans hstored'
  have hsome : loaded.leaseToken.isSome := by rw [token]; rfl
  have hleased := holds.token.mp hsome
  refine ⟨_, next, holds.later.active hcount hleased,
    writeChanges_finalized hcount hleased hsome (holds.expiry.mpr hleased) hfinal, hupdate, ?_⟩
  have hid : stored.id = loaded.id := (Table.get_eq_some hstored).2
  unfold newAttempt
  rw [hcount, hid]

/-- The store after a record: the row is the finalized one, the attempt is at the end, and every
other track is as it was. -/
structure RecordsTrack (stored : WebhookEventRecord) (current : Instant) (delivery : Delivery)
    (db db' : Database) : Prop where
  leased : stored.status = .processing
  event : ∃ finalized next, stored.finalized current delivery = .ok (finalized, next) ∧
    db'.webhookEvents.get stored.id = some finalized
  attempts : db'.attemptsOf stored.id =
    db.attemptsOf stored.id ++ [newAttempt stored current delivery]
  others : ∀ other, stored.id ≠ other → db'.track other = db.track other
  rows : db'.deliveryAttempts.rows =
    db.deliveryAttempts.rows ++ [newAttempt stored current delivery]

theorem RecordsAttempt.track {loaded stored : WebhookEventRecord} {leaseToken : String}
    {current : Instant} {delivery : Delivery} {db db' : Database}
    (h : RecordsAttempt loaded current delivery db db') (tracked : Tracked db)
    (hstored : db.webhookEvents.get loaded.id = some stored) (holds : Holds loaded stored)
    (token : loaded.leaseToken = some leaseToken) :
    RecordsTrack stored current delivery db db' := by
  obtain ⟨finalized, next, hleased, hfinal, hupdate, hattempt⟩ :=
    h.step tracked hstored holds token
  have hinsert := h.attempts
  rw [hattempt] at hinsert
  have hid : stored.id = loaded.id := (Table.get_eq_some hstored).2
  have hkey : finalized.id = stored.id :=
    congrArg PublishedEvent.id (WebhookEventRecord.finalized_spec hfinal).published
  have hself : db'.webhookEvents.get stored.id = some finalized := by
    rw [← hkey]
    exact Table.get_update_self hupdate (x := stored) (by
      show db.webhookEvents.get finalized.id = some stored
      rw [hkey, hid, hstored])
  have hof : ∀ eventId, db'.attemptsOf eventId = db.attemptsOf eventId ++
      if stored.id = eventId then [newAttempt stored current delivery] else [] := by
    intro eventId
    unfold Database.attemptsOf
    rw [Table.select_insert hinsert]
    by_cases heq : stored.id = eventId <;> simp [newAttempt, heq]
  refine ⟨hleased, ⟨finalized, next, hfinal, hself⟩, ?_, fun other hne => ?_,
    Table.insert_rows hinsert⟩
  · rw [hof, if_pos rfl]
  · have hother : db'.webhookEvents.get other = db.webhookEvents.get other :=
      Table.get_update_of_ne hupdate (by
        show finalized.id ≠ other
        rw [hkey]
        exact hne)
    unfold Database.track
    rw [hother, hof, if_neg hne, List.append_nil]

theorem RecordsTrack.delivers {stored : WebhookEventRecord} {current : Instant}
    {delivery : Delivery} {db db' : Database} (h : RecordsTrack stored current delivery db db')
    (tracked : Tracked db) (hstored : db.webhookEvents.get stored.id = some stored) :
    Delivers db db' := by
  obtain ⟨finalized, next, hfinal, hself⟩ := h.event
  have hafter := Database.track_of_get hself
  rw [h.attempts] at hafter
  refine .of_track tracked (Database.track_of_get hstored) hafter
    (.single (.recorded current delivery h.leased hfinal)) h.others fun attempt mem => ?_
  rw [h.rows, List.mem_append, List.mem_singleton] at mem
  rcases mem with mem | rfl
  · exact .inl mem
  · exact .inr rfl

/-- The event table accepts a change of delivery columns. -/
theorem updateEvents_isSome {db : Database} {stored : WebhookEventRecord}
    (event : WebhookEventRecord)
    (hstored : db.webhookEvents.get event.id = some stored)
    (same : event.published = stored.published) :
    ∃ events, db.webhookEvents.update event = some events := by
  have hversion : event.aggregateVersion = stored.aggregateVersion :=
    congrArg PublishedEvent.aggregateVersion same
  have hpayment : event.paymentId = stored.paymentId := congrArg PublishedEvent.paymentId same
  refine Table.update_isSome_of_stored hstored ?_ (fun other => ?_) fun a b => ?_
  · simp [webhookEventSchema, hversion]
  · simp [webhookEventSchema, hversion, hpayment]
  · simp [webhookEventSchema, eq_comm]

/-- **A record from the row itself is accepted**: the number of its attempt is free. -/
theorem recordAttempt_isOk {db : Database} (tracked : Tracked db) {stored : WebhookEventRecord}
    (hstored : db.webhookEvents.get stored.id = some stored) (finalized : WebhookEventRecord)
    (current : Instant) (delivery : Delivery) :
    ∃ db', recordAttempt stored finalized (newAttempt stored current delivery) db = .ok db' := by
  have consistent := tracked.consistent _ _ (Database.track_of_get hstored)
  obtain ⟨events, hevents⟩ := updateEvents_isSome (stored.writeChanges finalized stored) hstored rfl
  have hupdate : updateEvent stored finalized db = .ok { db with webhookEvents := events } := by
    unfold updateEvent updateIn
    rw [hstored]
    simp only [hevents]
  have hfree : db.deliveryAttempts.get (stored.id, stored.attemptCount + 1) = none := by
    refine Table.get_eq_none.mpr fun attempt mem hkey => ?_
    obtain ⟨hid, hnumber⟩ := Prod.mk.inj hkey
    have hmem : attempt ∈ db.attemptsOf stored.id := Table.mem_select.mpr ⟨mem, decide_eq_true hid⟩
    have hnumbered : (db.attemptsOf stored.id).map (·.attemptNumber) =
        List.range' 1 stored.attemptCount := consistent.numbered
    have := List.mem_map_of_mem (f := (·.attemptNumber)) hmem
    rw [hnumbered, hnumber, List.mem_range'_1] at this
    omega
  obtain ⟨attempts, hattempts⟩ := Table.insert_isSome (t := db.deliveryAttempts)
    (r := newAttempt stored current delivery) (by simp [deliveryAttemptSchema, newAttempt]) hfree
    fun _ _ => rfl
  refine ⟨{ db with webhookEvents := events, deliveryAttempts := attempts }, ?_⟩
  unfold recordAttempt
  rw [hupdate]
  show insertDeliveryAttempt _ { db with webhookEvents := events } = _
  unfold insertDeliveryAttempt insertInto
  simp only [hattempts]

/-! ## Between the service and the dispatchers

The service sees the writes of a dispatcher as background, a dispatcher sees those of the service as
publications. -/

/-- A row whose published part is that of the stored one leaves the published part of the table. -/
theorem published_update {db db' : Database} {stored event : WebhookEventRecord}
    (h : db.webhookEvents.update event = some db'.webhookEvents)
    (hstored : db.webhookEvents.get event.id = some stored)
    (same : event.published = stored.published) :
    db'.webhookEvents.rows.map (·.published) = db.webhookEvents.rows.map (·.published) :=
  Table.map_update h hstored (·.published) same

/-- **A lease is background** to the service. -/
theorem Leases.background {event : WebhookEventRecord} {leaseToken : String} {current : Instant}
    {db db' : Database} (h : Leases event leaseToken current db db') : Background db db' where
  payments := by rw [h.rest]
  ledgerEntries := by rw [h.rest]
  claims := by rw [h.rest]
  confirmations := ⟨by rw [h.rest], by rw [h.rest]⟩
  published := published_update h.events h.stored rfl

/-- **So is the record of an attempt.** -/
theorem RecordsAttempt.background {loaded : WebhookEventRecord} {current : Instant}
    {delivery : Delivery} {db db' : Database}
    (h : RecordsAttempt loaded current delivery db db') : Background db db' where
  payments := by rw [h.rest]
  ledgerEntries := by rw [h.rest]
  claims := by rw [h.rest]
  confirmations := ⟨by rw [h.rest], by rw [h.rest]⟩
  published := by
    obtain ⟨stored, finalized, next, hstored, hfinal, hupdate⟩ := h.events
    have hid : stored.id = loaded.id := (Table.get_eq_some hstored).2
    have hkept : db.webhookEvents.get (loaded.writeChanges finalized stored).id = some stored := by
      show db.webhookEvents.get stored.id = some stored
      rw [hid, hstored]
    exact published_update hupdate hkept rfl

/-- Every transaction of a dispatcher is background to the service. -/
theorem Worker.Acts.background {worker after : Worker} {db db' : Database}
    (h : worker.Acts db db' after) : Background db db' := by
  have unchanged : Background db db := ⟨rfl, rfl, rfl, ⟨rfl, rfl⟩, rfl⟩
  cases h with
  | claimed _ _ hleases _ => exact hleases.background
  | loaded _ hsame _ _ _ => rw [hsame]; exact unchanged
  | replied _ hsame _ => rw [hsame]; exact unchanged
  | failed _ _ hsame _ => rw [hsame]; exact unchanged
  | finalized _ hfinalizes _ =>
    cases hfinalizes with
    | missing _ hsame => rw [hsame]; exact unchanged
    | superseded _ _ hsame => rw [hsame]; exact unchanged
    | refused _ _ _ _ hsame => rw [hsame]; exact unchanged
    | recorded _ _ hrecords => exact hrecords.background

theorem Advances.publishes {step : LifecycleStep} {before after : PaymentRecord}
    {db db' : Database} (h : Advances step before after db db') : Publishes db db' := by
  obtain ⟨hex, hevents⟩ := h.events
  exact .insert (createOutboxEvent_fresh after step.eventType hex) hevents
    h.merchant.deliveryAttempts

/-- **Every effect of the service is a publication** to the dispatchers. -/
theorem Effect.publishes {sha256 : String → String} {db db' : Database}
    (h : Effect sha256 db db') : Background db db' ∨ Publishes db db' := by
  cases h with
  | created h =>
    obtain ⟨_, _, _, terms, event, _, _, hevents⟩ := h.terms
    exact .inr (.insert (createOutboxEvent_fresh _ terms.eventType event) hevents
      h.merchant.deliveryAttempts)
  | operated h =>
    obtain ⟨_, _, hadvances⟩ := h.advances
    exact .inr hadvances.publishes
  | received h =>
    exact .inr (.of_same h.accounts.webhookEvents h.merchant.deliveryAttempts)
  | settled h =>
    cases h.effect with
    | none _ hsame hmerchant =>
      exact .inr (.of_same hsame.webhookEvents hmerchant.deliveryAttempts)
    | captured _ _ _ _ hadvances => exact .inr hadvances.publishes
    | expired _ _ _ _ _ hadvances => exact .inr hadvances.publishes
  | expired h => exact .inr h.advances.publishes
  | background h => exact .inl h

/-! ## Workers -/

/-- What holds of every worker: a claim has expired the objects of its session, and from the load on
the session holds an object of its event. The finalize reads that object and not the row. -/
def Worker.Coherent (db : Database) (worker : Worker) : Prop :=
  match worker.phase with
  | .leased _ => worker.identity = ∅
  | .prepared .. | .answered .. => ∃ loaded stored,
      heldEvent worker.call.eventId worker.identity = some loaded ∧
        db.webhookEvents.get worker.call.eventId = some stored ∧ Holds loaded stored
  | _ => True

theorem Holds.later' {loaded stored stored' : WebhookEventRecord} (h : Holds loaded stored)
    (k : Later stored stored') : Holds loaded stored' := ⟨h.later.trans k, h.token, h.expiry⟩

/-- What a worker holds stays an earlier state of its event. -/
theorem Worker.Coherent.delivers {db db' : Database} {worker : Worker}
    (h : worker.Coherent db) (k : Delivers db db') : worker.Coherent db' := by
  obtain ⟨call, identity, phase⟩ := worker
  cases phase with
  | leased leaseToken => exact h
  | prepared leaseToken payload signature =>
    obtain ⟨loaded, stored, hheld, hstored, holds⟩ := h
    obtain ⟨stored', hstored', hlater⟩ := k.later hstored
    exact ⟨loaded, stored', hheld, hstored', holds.later' hlater⟩
  | answered leaseToken delivery =>
    obtain ⟨loaded, stored, hheld, hstored, holds⟩ := h
    obtain ⟨stored', hstored', hlater⟩ := k.later hstored
    exact ⟨loaded, stored', hheld, hstored', holds.later' hlater⟩
  | ready => trivial
  | finished => trivial
  | interrupted => trivial

/-- A row that was read is held as it is. -/
theorem Tracked.holds {db : Database} (h : Tracked db) {eventId : String}
    {event : WebhookEventRecord} (stored : db.webhookEvents.get eventId = some event) :
    Holds event event := by
  have consistent := h.consistent _ _ (Database.track_of_get stored)
  exact ⟨.refl _, consistent.token, consistent.expiry⟩

/-- The answer of a session that holds its event. -/
theorem answeredEvent_held {eventId : String} {m : IdentityMap} {db : Database}
    {event : WebhookEventRecord} (h : heldEvent eventId m = some event) :
    answeredEvent eventId m db = some event := by
  unfold answeredEvent
  rw [h, Option.some_or]

/-- **One transaction of a worker**, on the delivery tables and on the worker itself. -/
theorem Worker.Acts.delivers {worker after : Worker} {db db' : Database}
    (h : worker.Acts db db' after) (tracked : Tracked db) (coherent : worker.Coherent db) :
    Delivers db db' ∧ after.Coherent db' := by
  obtain ⟨call, identity, phase⟩ := worker
  cases h with
  | claimed hphase _ hleases hafter =>
    rw [hafter]
    exact ⟨hleases.delivers tracked, rfl⟩
  | @loaded leaseToken signature event identity' hphase hsame hanswer hheld hafter =>
    cases hphase
    rw [hsame, hafter]
    -- nothing is held after a claim, so the row itself is answered
    have hempty : identity = ∅ := coherent
    rw [hempty] at hanswer
    have hstored : db.webhookEvents.get call.eventId = some event := hanswer
    exact ⟨tracked.unchanged, event, event, hheld, hstored, tracked.holds hstored⟩
  | @replied leaseToken signature payload hphase hsame hafter =>
    cases hphase
    rw [hsame, hafter]
    refine ⟨tracked.unchanged, ?_⟩
    generalize (if invokesReceiver call.fault then _ else _ : Except ServiceError Delivery) = reply
    cases reply with
    | error e => trivial
    | ok delivery => exact coherent
  | @finalized leaseToken delivery identity' result hphase hfinalizes hafter =>
    cases hphase
    obtain ⟨loaded, stored, hheld, hstored, holds⟩ := coherent
    rw [answeredEvent_held hheld] at hfinalizes
    rw [hafter]
    refine ⟨?_, trivial⟩
    cases hfinalizes with
    | missing _ hsame => rw [hsame]; exact tracked.unchanged
    | superseded _ _ hsame => rw [hsame]; exact tracked.unchanged
    | refused _ _ _ _ hsame => rw [hsame]; exact tracked.unchanged
    | recorded hfound htoken hrecords =>
      cases hfound
      have hid : loaded.id = call.eventId := heldEvent_id hheld
      have hstored : db.webhookEvents.get loaded.id = some stored := hid ▸ hstored
      have hkey : stored.id = loaded.id := (Table.get_eq_some hstored).2
      exact (hrecords.track tracked hstored holds htoken).delivers tracked (hkey ▸ hstored)
  | failed _ _ hsame hafter =>
    rw [hsame, hafter]
    exact ⟨tracked.unchanged, trivial⟩

/-! ## The pool -/

variable (hmacSha256 : String → Int → EventPayload → String)

/-- Any number of dispatchers on one database, the service beside them. -/
def Dispatchers : Pool.Protocol Database (Option Worker) :=
  Pool.Beside Publishes (Worker.Step hmacSha256)

variable {hmacSha256} {ι : Type}

/-- A step of a worker, on the delivery tables and on the worker itself. -/
theorem Worker.Step.delivers {worker after : Worker} {db db' : Database}
    (h : Worker.Step hmacSha256 db worker db' after) (tracked : Tracked db)
    (coherent : worker.Coherent db) : Delivers db db' ∧ after.Coherent db' := by
  cases h with
  | begin call identity => exact ⟨tracked.unchanged, trivial⟩
  | act unfinished hact => exact (Worker.act_cases unfinished hact).delivers tracked coherent
  | crash => exact ⟨tracked.unchanged, trivial⟩

theorem dispatchers_establish :
    Pool.Establishes (ι := ι) (Dispatchers hmacSha256) Tracked (Pool.Asserts Worker.Coherent) := by
  refine Pool.Beside.establishes (fun s s' tracked publishes => ?_)
    fun s worker s' after tracked coherent step => ?_
  · exact (publishes.delivers tracked).tracked tracked
  · obtain ⟨hdelivers, hcoherent⟩ := step.delivers tracked coherent
    exact ⟨hdelivers.tracked tracked, hcoherent⟩

theorem dispatchers_nonInterfering :
    Pool.NonInterfering (ι := ι) (Dispatchers hmacSha256) Tracked
      (Pool.Asserts Worker.Coherent) := by
  refine Pool.Beside.nonInterfering Delivers
    (fun s s' tracked publishes => publishes.delivers tracked)
    (fun s worker s' after tracked coherent step => (step.delivers tracked coherent).1)
    fun _ _ _ delivers coherent => coherent.delivers delivers

/-- A start: the store is empty, no call has begun. -/
structure Idle (w : Pool.World Database ι (Option Worker)) : Prop where
  empty : w.shared = .empty
  ready : ∀ i worker, w.threads i = some worker → worker.phase = .ready

theorem Idle.holds {w : Pool.World Database ι (Option Worker)} (h : Idle w) :
    Pool.Holds Tracked (Pool.Asserts Worker.Coherent) w := by
  refine ⟨h.empty ▸ tracked_empty, fun i worker hworker => ?_⟩
  have hready := h.ready i worker hworker
  unfold Worker.Coherent
  rw [hready]
  trivial

variable [DecidableEq ι]

variable (hmacSha256) in
/-- A run of the dispatchers: the steps it took from a start, and the world it reached. Events are
published beside them, calls overlap freely, and a worker may crash between any two of its
transactions. -/
def Dispatching (ts : List (Pool.Transition Database ι (Option Worker)))
    (v : Pool.World Database ι (Option Worker)) : Prop :=
  ∃ w, Idle w ∧ Pool.Run (Dispatchers hmacSha256) w ts v

variable {ts us : List (Pool.Transition Database ι (Option Worker))}
  {v u : Pool.World Database ι (Option Worker)}

theorem Dispatching.holds (h : Dispatching hmacSha256 ts v) :
    Pool.Holds Tracked (Pool.Asserts Worker.Coherent) v := by
  obtain ⟨w, idle, run⟩ := h
  exact run.invariant dispatchers_establish dispatchers_nonInterfering idle.holds

/-- **In every store reached the delivery tables are consistent.** -/
theorem Dispatching.tracked (h : Dispatching hmacSha256 ts v) : Tracked v.shared := h.holds.1

theorem Dispatching.append (h : Dispatching hmacSha256 ts v)
    (k : Pool.Run (Dispatchers hmacSha256) v us u) : Dispatching hmacSha256 (ts ++ us) u := by
  obtain ⟨w, idle, run⟩ := h
  exact ⟨w, idle, run.append k⟩

/-- A run that takes a step: a run up to it, and the step. -/
theorem Dispatching.split {t : Pool.Transition Database ι (Option Worker)}
    (h : Dispatching hmacSha256 (ts ++ t :: us) v) :
    ∃ u, Dispatching hmacSha256 ts u ∧ Pool.Enabled (Dispatchers hmacSha256) u t := by
  obtain ⟨w, idle, run⟩ := h
  obtain ⟨u, first, second⟩ := Pool.Run.split_append run
  exact ⟨u, ⟨w, idle, first⟩, second.head⟩

/-- A transition of the dispatchers, from a store they reached. -/
theorem Dispatching.delivers (h : Dispatching hmacSha256 ts v)
    {t : Pool.Transition Database ι (Option Worker)}
    (enabled : Pool.Enabled (Dispatchers hmacSha256) v t) : Delivers t.pre t.post := by
  obtain ⟨tracked, coherent⟩ := h.holds
  obtain ⟨i, pre, before, post, after⟩ := t
  obtain ⟨hpre, hbefore, step⟩ := enabled
  have hpre : pre = v.shared := hpre
  have hbefore : before = v.threads i := hbefore
  rw [← hpre] at tracked coherent
  cases step with
  | environment publishes => exact publishes.delivers tracked
  | thread step => exact (step.delivers tracked (coherent i _ hbefore.symm)).1

/-- **Every track goes on along a run.** -/
theorem Dispatching.continues (h : Dispatching hmacSha256 ts v)
    (run : Pool.Run (Dispatchers hmacSha256) v us u) {eventId : String} {a : Track}
    (ha : v.shared.track eventId = some a) :
    ∃ b, u.shared.track eventId = some b ∧ a.Steps b := by
  induction run with
  | nil => exact ⟨a, ha, .refl⟩
  | @snoc u us t run enabled ih =>
    obtain ⟨b, hb, hsteps⟩ := ih
    have hdelivers := (h.append run).delivers enabled
    rw [← enabled.1] at hb
    obtain ⟨c, hc, hstep⟩ := hdelivers.continues eventId b hb
    exact ⟨c, hc, hsteps.trans hstep⟩

/-! ## Schedules -/

variable (hmacSha256) in
/-- The transition of a worker that runs its next transaction. -/
def acting (v : Pool.World Database ι (Option Worker)) (i : ι) (worker : Worker) :
    Pool.Transition Database ι (Option Worker) :=
  { thread := i
    pre := v.shared
    before := some worker
    post := (worker.act hmacSha256 v.shared).1
    after := some (worker.act hmacSha256 v.shared).2 }

variable (hmacSha256) in
/-- The workers that run their next transaction, in order: the transitions and the world reached. A
worker whose call has ended is passed over. -/
def schedule : List ι →
    List (Pool.Transition Database ι (Option Worker)) × Pool.World Database ι (Option Worker) →
    List (Pool.Transition Database ι (Option Worker)) × Pool.World Database ι (Option Worker)
  | [], x => x
  | i :: rest, (ts, v) =>
    match v.threads i with
    | none => schedule rest (ts, v)
    | some worker =>
      if worker.phase.Ended then schedule rest (ts, v)
      else
        let t := acting hmacSha256 v i worker
        schedule rest (ts ++ [t], v.apply t)

/-- A schedule is a run. -/
theorem Dispatching.schedule (h : Dispatching hmacSha256 ts v) (order : List ι) :
    Dispatching hmacSha256 (schedule hmacSha256 order (ts, v)).1
      (PaymentLab.schedule hmacSha256 order (ts, v)).2 := by
  induction order generalizing ts v with
  | nil => exact h
  | cons i rest ih =>
    unfold PaymentLab.schedule
    cases hi : v.threads i with
    | none => exact ih h
    | some worker =>
      dsimp only
      split
      · exact ih h
      · next unfinished =>
        exact ih (h.append (.single ⟨rfl, hi.symm, .thread (.act unfinished rfl)⟩))

end PaymentLab
