import PaymentLab.Consumer.Producer
import PaymentLab.Laws.Consumer

/-!
# The merchant view converges

Deliveries of the events of a producer's store, in any order and any number of times, some of them
failing after the inbox was flushed. `View` says what the merchant's tables hold after a set of
events was consumed: their inbox rows, and for each payment the snapshot of its newest event. One
call preserves it (`View.call`), a sequence of them by induction (`View.run`), and the reconciliation
status of a payment is read off it.

Here the deliveries are whole calls, one after the other: what concurrent calls do to one payment is
the subject of the projection. The producer's store is fixed over the sequence, which loses nothing,
since a later store holds the same events and more. Of the bodies it is assumed that they are read
back; a body under which two events collide cannot occur, because the ids of stored events differ.
-/

namespace PaymentLab

open Relational Transactional

section View

variable (lib : StandardLibrary)

/-- The newest of the events seen of a payment, as the projection that holds it. -/
inductive Newest (seen : List WebhookEventRecord) (id : String) :
    Option MerchantPaymentProjectionRecord → Prop
  | unseen : (∀ event ∈ seen, event.paymentId ≠ id) → Newest seen id none
  | newest {event : WebhookEventRecord} : event ∈ seen → event.paymentId = id →
      (∀ other ∈ seen, other.paymentId = id → other.aggregateVersion ≤ event.aggregateVersion) →
      Newest seen id (some (newProjection event.payload.envelope))

/-- The merchant's tables after the events seen, in a producer's store. -/
structure View (producer : Database) (seen : List WebhookEventRecord) (db : Database) : Prop where
  payments : db.payments = producer.payments
  events : db.webhookEvents = producer.webhookEvents
  published : ∀ event ∈ seen, event ∈ producer.webhookEvents.rows
  inbox : ∀ id row, db.processedWebhooks.get id = some row → ∃ event ∈ seen, event.id = id
  recorded : ∀ event ∈ seen, ∃ row, db.processedWebhooks.get event.id = some row ∧
    row.payloadHash = lib.sha256 event.payload.body
  newest : ∀ id, Newest seen id (db.merchantProjections.get id)

/-- How a delivery ends: what it answers, the store after it, and the events seen by then. -/
inductive Delivered (producer : Database) (seen : List WebhookEventRecord)
    (delivery : EventDelivery) (db : Database) :
    Except ServiceError ConsumerOutcome → Database → List WebhookEventRecord → Prop
  /-- nothing is committed; the merchant reference was empty or the write was made to fail -/
  | failed {e : ServiceError} : (delivery.event.payload.payment.merchantReference ≠ "" →
        delivery.faults.storage = true ∨ delivery.faults.afterInbox = true) →
      Delivered producer seen delivery db (.error e) db seen
  /-- the event was seen before -/
  | repeated {outcome : ConsumerOutcome} : delivery.event ∈ seen →
      outcome.disposition = .duplicate → outcome.duplicate = true →
      Delivered producer seen delivery db (.ok outcome) db seen
  /-- the event is seen from now on -/
  | consumed {decision : ConsumerDecision} {db' : Database} : delivery.event ∉ seen →
      Compared delivery.event.payload.envelope
        (db.merchantProjections.get delivery.event.paymentId) decision →
      (decision.disposition ≠ .applied → db'.merchantProjections = db.merchantProjections) →
      View lib producer (delivery.event :: seen) db' →
      Delivered producer seen delivery db (.ok (decision.outcome delivery.event.id)) db'
        (delivery.event :: seen)

variable {lib} {producer db : Database} {seen : List WebhookEventRecord} {delivery : EventDelivery}

/-- The newest event stays the newest beside an older one. -/
theorem Newest.cons_of_le {id : String} {event : WebhookEventRecord}
    {projection : Option MerchantPaymentProjectionRecord} (h : Newest seen id projection)
    (older : event.paymentId = id → ∃ p, projection = some p ∧
      event.payload.envelope.aggregateVersion ≤ p.aggregateVersion)
    (store : ProducerStore producer) (published : ∀ event ∈ seen, event ∈ producer.webhookEvents.rows)
    (mem : event ∈ producer.webhookEvents.rows) : Newest (event :: seen) id projection := by
  have haggregate : event.payload.envelope.aggregateVersion = event.aggregateVersion :=
    (store.payload event mem).2.2.1
  cases h with
  | unseen hne =>
    apply Newest.unseen
    intro other hother
    rcases List.mem_cons.mp hother with rfl | hother
    · intro hid
      obtain ⟨p, hp, _⟩ := older hid
      cases hp
    · exact hne other hother
  | @newest top htop hid highest =>
    refine .newest (List.mem_cons_of_mem _ htop) hid fun other hother hotherId => ?_
    rcases List.mem_cons.mp hother with rfl | hother
    · obtain ⟨p, hp, hle⟩ := older hotherId
      cases hp
      have htopVersion : top.payload.payment.version = top.aggregateVersion :=
        (store.payload top (published top htop)).2.2.2
      have hcolumn : (newProjection top.payload.envelope).aggregateVersion =
          top.payload.payment.version := rfl
      omega
    · exact highest other hother hotherId

/-- A newer event is the newest. -/
theorem Newest.cons_of_newer {event : WebhookEventRecord}
    {projection : Option MerchantPaymentProjectionRecord}
    (h : Newest seen event.paymentId projection)
    (newer : ∀ p, projection = some p →
      p.aggregateVersion < event.payload.envelope.aggregateVersion)
    (store : ProducerStore producer) (published : ∀ event ∈ seen, event ∈ producer.webhookEvents.rows)
    (mem : event ∈ producer.webhookEvents.rows) :
    Newest (event :: seen) event.paymentId (some (newProjection event.payload.envelope)) := by
  refine .newest List.mem_cons_self rfl fun other hother hotherId => ?_
  rcases List.mem_cons.mp hother with rfl | hother
  · exact le_refl _
  · cases h with
    | unseen hne => exact absurd hotherId (hne other hother)
    | @newest top htop hid highest =>
      have hle := highest other hother hotherId
      have hlt := newer _ rfl
      have htopVersion : top.payload.payment.version = top.aggregateVersion :=
        (store.payload top (published top htop)).2.2.2
      have haggregate : event.payload.envelope.aggregateVersion = event.aggregateVersion :=
        (store.payload event mem).2.2.1
      have hcolumn : (newProjection top.payload.envelope).aggregateVersion =
          top.payload.payment.version := rfl
      omega

/-- Another payment's newest event is not touched. -/
theorem Newest.cons_of_ne {id : String} {event : WebhookEventRecord}
    {projection : Option MerchantPaymentProjectionRecord} (h : Newest seen id projection)
    (hne : event.paymentId ≠ id) : Newest (event :: seen) id projection := by
  cases h with
  | unseen hunseen =>
    apply Newest.unseen
    intro other hother
    rcases List.mem_cons.mp hother with rfl | hother
    · exact hne
    · exact hunseen other hother
  | newest htop hid highest =>
    refine .newest (List.mem_cons_of_mem _ htop) hid fun other hother hotherId => ?_
    rcases List.mem_cons.mp hother with rfl | hother
    · exact absurd hotherId hne
    · exact highest other hother hotherId

/-! ## One delivery -/

/-- An event that was not seen has no inbox row. -/
theorem View.seen_of_row (view : View lib producer seen db) (valid : delivery.Valid lib producer)
    {row : ProcessedWebhookRecord}
    (h : db.processedWebhooks.get delivery.event.id = some row) : delivery.event ∈ seen := by
  obtain ⟨event, mem, hid⟩ := view.inbox _ row h
  rw [← event_id_unique (view.published event mem) valid.event hid]
  exact mem

theorem View.free (view : View lib producer seen db) (valid : delivery.Valid lib producer)
    (unseen : delivery.event ∉ seen) : db.processedWebhooks.get delivery.event.id = none := by
  cases hrow : db.processedWebhooks.get delivery.event.id with
  | none => rfl
  | some row => exact absurd (view.seen_of_row valid hrow) unseen

/-- **No version conflict**: another event of the same payment has another version. -/
theorem View.decides (view : View lib producer seen db) (store : ProducerStore producer)
    (valid : delivery.Valid lib producer) (unseen : delivery.event ∉ seen) :
    ∃ decision, decideProjection (db.merchantProjections.get delivery.event.paymentId)
      delivery.event.payload.envelope = .ok decision := by
  have hversion : delivery.event.payload.envelope.aggregateVersion = delivery.event.aggregateVersion :=
    (store.payload _ valid.event).2.2.1
  have hnewest := view.newest delivery.event.paymentId
  generalize db.merchantProjections.get delivery.event.paymentId = read at hnewest ⊢
  cases hnewest with
  | unseen => exact ⟨_, rfl⟩
  | @newest top htop hid _ =>
    have hcolumn : (newProjection top.payload.envelope).aggregateVersion = top.aggregateVersion :=
      (store.payload top (view.published top htop)).2.2.2
    have hne : top.aggregateVersion ≠ delivery.event.aggregateVersion := by
      intro hsame
      apply unseen
      rw [← event_unique (view.published top htop) valid.event hid hsame]
      exact htop
    unfold decideProjection
    dsimp only
    rw [hversion, hcolumn]
    split
    · exact ⟨_, rfl⟩
    · rw [if_pos (by omega)]
      exact ⟨_, rfl⟩

/-- The tables after a consumed event. -/
theorem View.consumes (view : View lib producer seen db) (store : ProducerStore producer)
    (valid : delivery.Valid lib producer) {decision : ConsumerDecision} {db' : Database}
    {now : Datetime}
    (compared : Compared delivery.event.payload.envelope
      (db.merchantProjections.get delivery.event.paymentId) decision)
    (consumes : Consumes delivery.event.payload.envelope
      (lib.sha256 delivery.event.payload.body) decision now db db') :
    View lib producer (delivery.event :: seen) db' := by
  obtain ⟨hid, hpayment, _, _⟩ := store.payload _ valid.event
  have hkey : (newInbox delivery.event.payload.envelope (lib.sha256 delivery.event.payload.body)
      decision now).eventId = delivery.event.id := hid
  constructor
  · rw [consumes.rest]
    exact view.payments
  · rw [consumes.rest]
    exact view.events
  · intro event mem
    rcases List.mem_cons.mp mem with rfl | mem
    · exact valid.event
    · exact view.published event mem
  · intro id row hrow
    rw [Table.get_insert consumes.inbox] at hrow
    split at hrow
    · next hsame => exact ⟨delivery.event, List.mem_cons_self, hkey.symm.trans hsame⟩
    · obtain ⟨event, mem, hevent⟩ := view.inbox id row hrow
      exact ⟨event, List.mem_cons_of_mem _ mem, hevent⟩
  · intro event mem
    rcases List.mem_cons.mp mem with rfl | mem
    · rw [← hkey]
      exact ⟨_, Table.get_insert_self consumes.inbox, rfl⟩
    · obtain ⟨row, hrow, hhash⟩ := view.recorded event mem
      exact ⟨row, Table.get_insert_of_some consumes.inbox hrow, hhash⟩
  · intro id
    have hread : Compared delivery.event.payload.envelope (db.merchantProjections.get
        delivery.event.payload.envelope.payment.id) decision := by
      show Compared _ (db.merchantProjections.get delivery.event.payload.payment.id) _
      rw [hpayment]
      exact compared
    have hsamePayment : delivery.event.payload.envelope.payment.id = delivery.event.paymentId :=
      hpayment
    cases hread.projected consumes.projections with
    | applied _ hnewer hget =>
      rw [hget, hsamePayment]
      rw [hsamePayment] at hnewer
      split
      · next hid =>
        rw [← hid]
        exact (view.newest _).cons_of_newer hnewer store view.published valid.event
      · next hne => exact (view.newest id).cons_of_ne hne
    | @kept p _ _ hget hle _ hsame =>
      rw [hsame]
      rw [hsamePayment] at hget
      refine (view.newest id).cons_of_le (fun hid => ⟨p, ?_, hle⟩) store view.published valid.event
      rw [← hid]
      exact hget

/-- **One delivery** of an event of the store. -/
theorem View.call (view : View lib producer seen db) (store : ProducerStore producer)
    (valid : delivery.Valid lib producer) :
    ∃ seen', Delivered lib producer seen delivery db (delivery.call.run lib db).1
      (delivery.call.run lib db).2 seen' := by
  obtain ⟨hid, hpayment, _, _⟩ := store.payload _ valid.event
  by_cases hseen : delivery.event ∈ seen
  · cases haccepted : delivery.call.accepted lib with
    | error e =>
      rw [delivery.call.run_refused lib haccepted db]
      refine ⟨seen, .failed fun named => ?_⟩
      rw [valid.accepted store named] at haccepted
      cases haccepted
    | ok envelope =>
      cases valid.envelope haccepted
      obtain ⟨row, hrow, hhash⟩ := view.recorded _ hseen
      rw [← hid] at hrow
      obtain ⟨hresult, hsame⟩ := ConsumerCall.run_repeated hrow haccepted
      rcases repeatedAnswer_cases row delivery.event.payload.envelope.id
        (lib.sha256 delivery.call.payload) with ⟨_, hanswer⟩ | ⟨hdiffers, _⟩
      · rw [hresult, hsame, hanswer]
        exact ⟨seen, .repeated hseen rfl rfl⟩
      · exact absurd hhash hdiffers
  · have hfree := view.free valid hseen
    obtain ⟨decision, hdecide⟩ := view.decides store valid hseen
    rcases delivery.call.run_cases lib db with ⟨e, hrefused, hrun⟩ | ⟨envelope, haccepted, consumption⟩
    · rw [hrun]
      refine ⟨seen, .failed fun named => ?_⟩
      rw [valid.accepted store named] at hrefused
      cases hrefused
    · cases valid.envelope haccepted
      -- without a fault the call would have answered
      have faulted : ∀ e, (delivery.call.run lib db).1 = .error e →
          delivery.faults.storage = true ∨ delivery.faults.afterInbox = true := by
        intro e herror
        by_contra hnot
        obtain ⟨hstorage, hafter⟩ : delivery.faults.storage = false ∧
            delivery.faults.afterInbox = false := by simpa using hnot
        rw [delivery.call.run_accepted lib haccepted] at herror
        have hfree' : db.processedWebhooks.get delivery.event.payload.envelope.id = none := by
          rw [show delivery.event.payload.envelope.id = delivery.event.id from hid]
          exact hfree
        have hdecide' : decideProjection (db.merchantProjections.get
            delivery.event.payload.envelope.payment.id) delivery.event.payload.envelope =
              .ok decision := by
          rw [show delivery.event.payload.envelope.payment.id = delivery.event.paymentId from hpayment]
          exact hdecide
        have hok : (consumeEnvelope delivery.event.payload.envelope
            (lib.sha256 delivery.call.payload) delivery.call.now delivery.call.faults
            (Session.start db ∅)).1 = .ok (decision.outcome delivery.event.payload.envelope.id) :=
          consumeEnvelope_succeeds hfree' hdecide' hstorage hafter
        rw [hok] at herror
        cases herror
      generalize hresult : (delivery.call.run lib db).1 = result at consumption faulted
      generalize hafter : (delivery.call.run lib db).2 = after at consumption
      cases consumption with
      | repeated hexisting =>
        rw [show delivery.event.payload.envelope.id = delivery.event.id from hid, hfree] at hexisting
        cases hexisting
      | raised _ hsame =>
        rw [hsame]
        exact ⟨seen, .failed fun _ => faulted _ rfl⟩
      | @consumed decided _ hdecided consumes =>
        rw [show delivery.event.payload.envelope.payment.id = delivery.event.paymentId from hpayment]
          at hdecided
        have compared := decideProjection_eq_ok hdecided
        rw [show delivery.event.payload.envelope.id = delivery.event.id from hid]
        refine ⟨_, .consumed hseen compared (fun hkept => ?_) (view.consumes store valid compared consumes)⟩
        have projects := consumes.projections
        rw [compared.kept hkept] at projects
        exact projects.same

/-! ## Deliveries one after another -/

/-- A delivery of an event, and the step of the consumer that it caused. -/
structure DeliveryStep where
  delivery : EventDelivery
  step : ConsumerStep

/-- The steps of deliveries made one after another. -/
def deliverySteps (lib : StandardLibrary) : List EventDelivery → Database → List DeliveryStep
  | [], _ => []
  | delivery :: rest, db =>
    { delivery := delivery, step := delivery.call.step lib db } ::
      deliverySteps lib rest (delivery.call.run lib db).2

/-- The store after the deliveries. -/
def deliverAll (lib : StandardLibrary) (deliveries : List EventDelivery) (db : Database) : Database :=
  consumeAll lib (deliveries.map EventDelivery.call) db

/-- An event that some delivery consumed: its call answered, as an application, as stale or as a
duplicate. A call that raised consumed nothing. -/
def Consumed (steps : List DeliveryStep) (event : WebhookEventRecord) : Prop :=
  ∃ s ∈ steps, s.delivery.event = event ∧ ∃ outcome, s.step.result = .ok outcome

/-- The version a merchant has of a payment, zero if none. -/
def viewVersion (db : Database) (paymentId : String) : Nat :=
  ((db.merchantProjections.get paymentId).map (·.aggregateVersion)).getD 0

/-- The delivery changed the projections, in whatever row or field. -/
def DeliveryStep.Moves (s : DeliveryStep) : Prop :=
  s.step.after.merchantProjections ≠ s.step.before.merchantProjections

/-- What a delivery reports, against the view before it. An answer is promised only where the write
is not made to fail and the payment has a reference; an exception leaves the store as it was; and the
gap flag of a first consumption tells exactly whether versions were skipped. -/
structure DeliveryStep.Reported (s : DeliveryStep) : Prop where
  /-- every body a producer sends is accepted, unless the write is made to fail -/
  answered : s.delivery.event.payload.payment.merchantReference ≠ "" →
    s.delivery.faults.storage = false → s.delivery.faults.afterInbox = false →
    ∃ outcome, s.step.result = .ok outcome
  raised : ∀ e, s.step.result = .error e → s.step.after = s.step.before
  moved : s.Moves → ∃ outcome, s.step.result = .ok outcome ∧ outcome.disposition = .applied
  /-- the gap flag of a first consumption -/
  gap : ∀ outcome, s.step.result = .ok outcome → outcome.disposition ≠ .duplicate →
    (outcome.versionGap = true ↔ outcome.disposition = .applied ∧
      viewVersion s.step.before s.delivery.event.paymentId + 1 < s.delivery.event.aggregateVersion)

/-- A later delivery of a consumed event changes nothing and answers as a duplicate, with the flag of
the first one. Where the earlier delivery raised it says nothing: the later one may then be the
first. -/
def Redelivers (earlier later : DeliveryStep) : Prop :=
  ∀ outcome, earlier.step.result = .ok outcome → later.delivery.event.id = earlier.delivery.event.id →
    later.step.after = later.step.before ∧ ∃ outcome', later.step.result = .ok outcome' ∧
      outcome'.disposition = .duplicate ∧ outcome'.versionGap = outcome.versionGap

/-- The reconciliation status of a payment against what was consumed: missing before any event of it,
stale while only older ones than the newest were consumed, matched once the newest was, and never
mismatched. It speaks of the projection check alone, not of the ledger or the settlement. -/
structure StatusAgrees (steps : List DeliveryStep) (p : PaymentRecord) (latest : WebhookEventRecord)
    (status : SourceCheckStatus) : Prop where
  missing : (∀ event, Consumed steps event → event.paymentId ≠ p.id) → status = .missing
  stale : (∃ event, Consumed steps event ∧ event.paymentId = p.id) →
    (∀ event, Consumed steps event → event.paymentId = p.id →
      event.aggregateVersion < latest.aggregateVersion) → status = .stale
  matched : Consumed steps latest → status = .matched
  never : status ≠ .mismatched

/-- The merchant's view after deliveries, by what was consumed and not by the order it came in: the
newest snapshot of each payment, what each delivery reported, and the reconciliation status. Which
events have been consumed is not said; a payment whose newest event never arrived is shown by an
older one. -/
structure Converged (steps : List DeliveryStep) (db : Database) : Prop where
  newest : ∀ event, Consumed steps event → ∃ top projection, Consumed steps top ∧
    top.paymentId = event.paymentId ∧
    (∀ other, Consumed steps other → other.paymentId = event.paymentId →
      other.aggregateVersion ≤ top.aggregateVersion) ∧
    db.merchantProjections.get event.paymentId = some projection ∧
    projection.Shows top.payload.payment
  reported : ∀ s ∈ steps, s.Reported
  repeats : steps.Pairwise Redelivers
  /-- an event changes the projections at most once -/
  once : steps.Pairwise fun a b => b.delivery.event.id = a.delivery.event.id → a.Moves → ¬b.Moves
  status : ∀ p, db.payments.get p.id = some p → ∃ latest, latestEvent db p.id = some latest ∧
    StatusAgrees steps p latest (projectionStatus p (db.merchantProjections.get p.id) latest
      (db.processedWebhooks.get latest.id).isSome)

/-- What a delivery reports, from how it ends. -/
theorem Delivered.reported {result : Except ServiceError ConsumerOutcome} {db' : Database}
    {seen' : List WebhookEventRecord} (store : ProducerStore producer)
    (valid : delivery.Valid lib producer)
    (h : Delivered lib producer seen delivery db result db' seen') :
    DeliveryStep.Reported ⟨delivery, ⟨delivery.call, db, result, db'⟩⟩ := by
  cases h with
  | failed hfault =>
    constructor
    · intro named hstorage hafter
      rcases hfault named with h | h
      · rw [show delivery.faults.storage = false from hstorage] at h
        cases h
      · rw [show delivery.faults.afterInbox = false from hafter] at h
        cases h
    · intro _ _
      rfl
    · intro hmoves
      exact absurd rfl hmoves
    · intro outcome hok
      cases hok
  | repeated _ hduplicate =>
    constructor
    · intro _ _ _
      exact ⟨_, rfl⟩
    · intro e he
      cases he
    · intro hmoves
      exact absurd rfl hmoves
    · intro outcome hok hne
      cases hok
      exact absurd hduplicate hne
  | @consumed decision _ _ compared hkept _ =>
    constructor
    · intro _ _ _
      exact ⟨_, rfl⟩
    · intro e he
      cases he
    · intro hmoves
      refine ⟨_, rfl, ?_⟩
      by_contra hne
      exact hmoves (hkept hne)
    · intro outcome hok _
      cases hok
      have hversion : delivery.event.payload.envelope.aggregateVersion =
          delivery.event.aggregateVersion := (store.payload _ valid.event).2.2.1
      show decision.versionGap = true ↔ decision.disposition = .applied ∧ _
      rw [compared.gap, hversion]
      rfl

/-- The tables and the events seen after a delivery. -/
theorem Delivered.view {result : Except ServiceError ConsumerOutcome} {db' : Database}
    {seen' : List WebhookEventRecord} (view : View lib producer seen db)
    (h : Delivered lib producer seen delivery db result db' seen') :
    View lib producer seen' db' ∧ ∀ event, event ∈ seen' ↔
      event ∈ seen ∨ (delivery.event = event ∧ ∃ outcome, result = .ok outcome) := by
  cases h with
  | failed =>
    refine ⟨view, fun event => ⟨.inl, ?_⟩⟩
    rintro (mem | ⟨_, _, herror⟩)
    · exact mem
    · cases herror
  | repeated hseen =>
    refine ⟨view, fun event => ⟨.inl, ?_⟩⟩
    rintro (mem | ⟨rfl, _⟩)
    · exact mem
    · exact hseen
  | consumed _ _ _ after =>
    refine ⟨after, fun event => ?_⟩
    rw [List.mem_cons]
    constructor
    · rintro (rfl | mem)
      · exact .inr ⟨rfl, _, rfl⟩
      · exact .inl mem
    · rintro (mem | ⟨rfl, _⟩)
      · exact .inr mem
      · exact .inl rfl

/-- **A run of deliveries** keeps the view, and sees exactly what it consumed. -/
theorem View.run (store : ProducerStore producer) : ∀ {deliveries : List EventDelivery}
    {seen : List WebhookEventRecord} {db : Database}, View lib producer seen db →
    (∀ d ∈ deliveries, d.Valid lib producer) →
    (∀ s ∈ deliverySteps lib deliveries db, s.Reported) ∧
      ∃ seen', View lib producer seen' (deliverAll lib deliveries db) ∧ ∀ event,
        event ∈ seen' ↔ event ∈ seen ∨ Consumed (deliverySteps lib deliveries db) event := by
  intro deliveries
  induction deliveries with
  | nil =>
    intro seen db view _
    refine ⟨fun s mem => absurd mem List.not_mem_nil, seen, view, fun event => ⟨.inl, ?_⟩⟩
    rintro (mem | ⟨s, mem, _⟩)
    · exact mem
    · exact absurd mem List.not_mem_nil
  | cons delivery rest ih =>
    intro seen db view valid
    have hvalid := valid delivery List.mem_cons_self
    obtain ⟨seen₁, delivered⟩ := view.call store hvalid
    obtain ⟨view₁, hseen₁⟩ := delivered.view view
    obtain ⟨hreported, seen', view', hseen'⟩ := ih view₁
      fun d mem => valid d (List.mem_cons_of_mem _ mem)
    refine ⟨fun s mem => ?_, seen', view', fun event => ?_⟩
    · rcases List.mem_cons.mp mem with rfl | mem
      · exact delivered.reported store hvalid
      · exact hreported s mem
    · rw [hseen' event, hseen₁ event]
      constructor
      · rintro ((mem | hfirst) | ⟨s, mem, hs⟩)
        · exact .inl mem
        · exact .inr ⟨_, List.mem_cons_self, hfirst⟩
        · exact .inr ⟨s, List.mem_cons_of_mem _ mem, hs⟩
      · rintro (mem | ⟨s, mem, hs⟩)
        · exact .inl (.inl mem)
        · rcases List.mem_cons.mp mem with rfl | mem
          · exact .inl (.inr hs)
          · exact .inr ⟨s, mem, hs⟩

/-- What every call preserves holds before every delivery. -/
theorem deliverySteps_invariant {P : Database → Prop}
    (preserved : ∀ (call : ConsumerCall) db, P db → P (call.run lib db).2) :
    ∀ {deliveries : List EventDelivery} {db : Database}, P db →
      ∀ s ∈ deliverySteps lib deliveries db, s.delivery ∈ deliveries ∧
        s.step = s.delivery.call.step lib s.step.before ∧ P s.step.before := by
  intro deliveries
  induction deliveries with
  | nil =>
    intro db _ s mem
    cases mem
  | cons delivery rest ih =>
    intro db h s mem
    rcases List.mem_cons.mp mem with rfl | mem
    · exact ⟨List.mem_cons_self, rfl, h⟩
    · obtain ⟨hdelivery, hstep, hbefore⟩ := ih (preserved delivery.call db h) s mem
      exact ⟨List.mem_cons_of_mem _ hdelivery, hstep, hbefore⟩

theorem deliverySteps_repeat : ∀ {deliveries : List EventDelivery} {db : Database},
    (∀ d ∈ deliveries, d.Valid lib producer) →
    (deliverySteps lib deliveries db).Pairwise Redelivers := by
  intro deliveries
  induction deliveries with
  | nil =>
    intro db _
    exact List.Pairwise.nil
  | cons delivery rest ih =>
    intro db valid
    refine List.pairwise_cons.mpr ⟨fun later mem => ?_, ih fun d mem =>
      valid d (List.mem_cons_of_mem _ mem)⟩
    intro outcome hok hid
    have hresult : (delivery.call.run lib db).1 = .ok outcome := hok
    cases haccepted : delivery.call.accepted lib with
    | error e =>
      rw [delivery.call.run_refused lib haccepted db] at hresult
      cases hresult
    | ok envelope =>
      obtain ⟨row, hrow, hhash, hgap⟩ := ConsumerCall.records hresult haccepted
      obtain ⟨hmem, hstep, hbefore⟩ := deliverySteps_invariant
        (P := fun db => db.processedWebhooks.get envelope.id = some row)
        (fun call db h => call.keeps_row h) hrow later mem
      have hvalid := valid later.delivery (List.mem_cons_of_mem _ hmem)
      have hevent : later.delivery.event = delivery.event :=
        event_id_unique hvalid.event (valid delivery List.mem_cons_self).event hid
      obtain ⟨hanswer, hsame⟩ := ConsumerCall.run_repeated hbefore
        (hvalid.accepted_again hevent haccepted)
      rw [hstep]
      refine ⟨hsame, ?_⟩
      rcases repeatedAnswer_cases row envelope.id (lib.sha256 later.delivery.call.payload)
        with ⟨_, hgiven⟩ | ⟨hdiffers, _⟩
      · exact ⟨_, hanswer.trans hgiven, rfl, hgap⟩
      · refine absurd ?_ hdiffers
        rw [hhash]
        show lib.sha256 delivery.event.payload.body = lib.sha256 later.delivery.event.payload.body
        rw [hevent]

/-! ## Convergence -/

/-- Before the first delivery. -/
theorem View.start (hinbox : producer.processedWebhooks = ∅)
    (hprojections : producer.merchantProjections = ∅) : View lib producer [] producer := by
  constructor
  · rfl
  · rfl
  · intro event mem
    cases mem
  · intro id row hrow
    rw [hinbox] at hrow
    cases hrow
  · intro event mem
    cases mem
  · intro id
    rw [hprojections]
    exact .unseen fun event mem => absurd mem List.not_mem_nil

/-- The status of a payment against the events seen. -/
theorem View.status (view : View lib producer seen db) (store : ProducerStore producer)
    {steps : List DeliveryStep} (hseen : ∀ event, event ∈ seen ↔ Consumed steps event)
    {p : PaymentRecord} (hp : db.payments.get p.id = some p) :
    ∃ latest, latestEvent db p.id = some latest ∧
      StatusAgrees steps p latest (projectionStatus p (db.merchantProjections.get p.id) latest
        (db.processedWebhooks.get latest.id).isSome) := by
  rw [view.payments] at hp
  obtain ⟨latest, hmem, hlatest, hlatestId, hversion, hpayload, highest⟩ := store.latest p hp
  have hlatest' : latestEvent db p.id = some latest := by
    unfold latestEvent Database.eventsOf
    rw [view.events]
    exact hlatest
  -- the two flags the classifier reads, for every case of the view
  have unseen : (∀ event, Consumed steps event → event.paymentId ≠ p.id) →
      db.merchantProjections.get p.id = none := by
    intro hnone
    have hnewest := view.newest p.id
    generalize db.merchantProjections.get p.id = read at hnewest ⊢
    cases hnewest with
    | unseen => rfl
    | newest htop hid _ => exact absurd hid (hnone _ ((hseen _).mp htop))
  have seenOne : ∀ event, Consumed steps event → event.paymentId = p.id →
      ∃ top, Consumed steps top ∧ top.paymentId = p.id ∧ top ∈ producer.webhookEvents.rows ∧
        event.aggregateVersion ≤ top.aggregateVersion ∧
        db.merchantProjections.get p.id = some (newProjection top.payload.envelope) ∧
        (newProjection top.payload.envelope).aggregateVersion = top.aggregateVersion := by
    intro event hconsumed hid
    have hnewest := view.newest p.id
    generalize db.merchantProjections.get p.id = read at hnewest ⊢
    cases hnewest with
    | unseen hnone => exact absurd hid (hnone event ((hseen event).mpr hconsumed))
    | @newest top htop htopId htopHighest =>
      have hpublished := view.published top htop
      exact ⟨top, (hseen top).mp htop, htopId, hpublished,
        htopHighest event ((hseen event).mpr hconsumed) hid, rfl, (store.payload top hpublished).2.2.2⟩
  have hstale : ∀ event, Consumed steps event → event.paymentId = p.id →
      (∀ event, Consumed steps event → event.paymentId = p.id →
        event.aggregateVersion < latest.aggregateVersion) →
      projectionStatus p (db.merchantProjections.get p.id) latest
        (db.processedWebhooks.get latest.id).isSome = .stale := by
    intro event hconsumed hid holder
    obtain ⟨top, htop, htopId, _, _, hget, hcolumn⟩ := seenOne event hconsumed hid
    have hless := holder top htop htopId
    unfold projectionStatus
    rw [hget]
    dsimp only
    rw [hcolumn, if_pos hless]
  have hmatched : Consumed steps latest →
      projectionStatus p (db.merchantProjections.get p.id) latest
        (db.processedWebhooks.get latest.id).isSome = .matched := by
    intro hconsumed
    obtain ⟨top, htop, htopId, hpublished, hle, hget, hcolumn⟩ := seenOne latest hconsumed hlatestId
    have hbound := highest top hpublished htopId
    have hsame : top = latest :=
      event_unique hpublished hmem (htopId.trans hlatestId.symm) (by omega)
    subst hsame
    obtain ⟨row, hrow, _⟩ := view.recorded top ((hseen top).mpr htop)
    unfold projectionStatus
    rw [hget, hrow]
    dsimp only
    have hagree : comparedFieldsAgree p (newProjection top.payload.envelope) := by
      have hfields : top.payload.envelope.payment = .fromPayment p := hpayload
      unfold comparedFieldsAgree newProjection
      rw [hfields]
      exact ⟨rfl, rfl, rfl, rfl, rfl, rfl, rfl, rfl⟩
    rw [hcolumn, if_neg (by omega), if_neg (by simp), if_neg]
    rintro (hne | hne)
    · exact hne hversion
    · exact hne hagree
  refine ⟨latest, hlatest', ?_, ?_, hmatched, ?_⟩
  · intro hnone
    rw [unseen hnone]
    rfl
  · rintro ⟨event, hconsumed, hid⟩ holder
    exact hstale event hconsumed hid holder
  · -- nothing consumed, the latest consumed, or only older events
    by_cases hlast : Consumed steps latest
    · rw [hmatched hlast]
      simp
    · by_cases hany : ∃ event, Consumed steps event ∧ event.paymentId = p.id
      · obtain ⟨event, hconsumed, hid⟩ := hany
        rw [hstale event hconsumed hid fun other hother hotherId => ?_]
        · simp
        · have hpublished := view.published other ((hseen other).mpr hother)
          have hle := highest other hpublished hotherId
          rcases Nat.lt_or_eq_of_le hle with hlt | heq
          · exact hlt
          · rw [event_unique hpublished hmem (hotherId.trans hlatestId.symm) heq] at hother
            exact absurd hother hlast
      · rw [unseen fun event hconsumed hid => hany ⟨event, hconsumed, hid⟩]
        simp [projectionStatus]

/-- **The merchant's view converges**, for every order and repetition of deliveries: the newest of
the consumed snapshots is shown, whichever came first, and each delivery reports what it did. One
call keeps `View` for a set of consumed events with its own added; the sequence is the induction, and
the reconciliation status is read off the view at its end. -/
theorem view_converges {ι : Type} [DecidableEq ι] {sha256 : String → String}
    {ts : List (Pool.Transition Database ι (Option Client))}
    {v : Pool.World Database ι (Option Client)} (h : Execution sha256 ts v)
    (hinbox : v.shared.processedWebhooks = ∅) (hprojections : v.shared.merchantProjections = ∅)
    {deliveries : List EventDelivery} (valid : ∀ d ∈ deliveries, d.Valid lib v.shared) :
    Converged (deliverySteps lib deliveries v.shared) (deliverAll lib deliveries v.shared) := by
  have store := h.producerStore
  have start : View lib v.shared [] v.shared := View.start hinbox hprojections
  obtain ⟨reported, seen, view, hseen⟩ := View.run store start valid
  have hconsumed : ∀ event, event ∈ seen ↔ Consumed (deliverySteps lib deliveries v.shared) event := by
    intro event
    rw [hseen event]
    simp
  have repeats : (deliverySteps lib deliveries v.shared).Pairwise Redelivers :=
    deliverySteps_repeat valid
  refine ⟨fun event hevent => ?_, reported, repeats, ?_, fun p hp => view.status store hconsumed hp⟩
  · have hnewest := view.newest event.paymentId
    generalize hread : (deliverAll lib deliveries v.shared).merchantProjections.get event.paymentId =
      read at hnewest ⊢
    cases hnewest with
    | unseen hnone => exact absurd rfl (hnone event ((hconsumed event).mpr hevent))
    | @newest top htop hid highest =>
      exact ⟨top, _, (hconsumed top).mp htop, hid,
        fun other hother hotherId => highest other ((hconsumed other).mpr hother) hotherId, rfl,
        newProjection_shows _⟩
  · refine (List.Pairwise.and_mem.mp repeats).imp fun {a b} hab => ?_
    intro hid hmoves hmoves'
    obtain ⟨ha, _, hrepeats⟩ := hab
    obtain ⟨outcome, hok, _⟩ := (reported a ha).moved hmoves
    exact hmoves' (congrArg (·.merchantProjections) (hrepeats outcome hok hid).1)

end View

/-! ## Deliveries of a purchase -/

/-- The first event of a purchase. -/
def authorizedEvent : WebhookEventRecord where
  id := "evt_1"
  paymentId := "pay_1"
  eventType := .authorized
  aggregateVersion := 1
  payload := authorizedPayload
  status := .pending
  attemptCount := 0
  nextAttemptAt := 0
  leaseToken := none
  leaseExpiresAt := none
  createdAt := 0
  deliveredAt := none

/-- A signed delivery of that event. -/
def authorizedDelivery (faults : ConsumerFaults) : EventDelivery where
  event := authorizedEvent
  signatureHeader := authorizedHeader
  secret := "whsec_merchant"
  now := .aware 0
  faults := faults

theorem authorizedDelivery_valid (faults : ConsumerFaults) :
    (authorizedDelivery faults).Valid authorizedLibrary purchaseStore := by
  have readsTime : ReadsTime authorizedLibrary.fromIsoformat 0 := by
    simp [ReadsTime, authorizedLibrary]
  have body : authorizedLibrary.loads authorizedEvent.payload.body =
      .ok (decoded authorizedEvent.payload.value) := by
    simp [authorizedLibrary, authorizedEvent]
  have published : authorizedEvent ∈ purchaseStore.webhookEvents.rows := by decide +kernel
  have signed : verifyWebhookSignature authorizedLibrary.hmacSha256 authorizedLibrary.readInt
      authorizedEvent.payload.body authorizedHeader "whsec_merchant" (.aware 0) = .ok () := by
    decide +kernel
  refine ⟨published, signed, body, readsTime, readsTime, readsTime, fun t ht => ?_⟩
  cases ht

/-- A delivery that fails after the inbox was flushed, a successful one and a repetition. -/
def authorizedDeliveries : List EventDelivery :=
  [authorizedDelivery ⟨true, false⟩, authorizedDelivery ⟨false, false⟩,
    authorizedDelivery ⟨false, false⟩]

/-- The view of a purchase converges. -/
theorem purchase_converges :
    (∀ d ∈ authorizedDeliveries, d.Valid authorizedLibrary purchaseStore) ∧
      Converged (deliverySteps authorizedLibrary authorizedDeliveries purchaseStore)
        (deliverAll authorizedLibrary authorizedDeliveries purchaseStore) := by
  have valid : ∀ d ∈ authorizedDeliveries, d.Valid authorizedLibrary purchaseStore := by
    intro d mem
    simp only [authorizedDeliveries, List.mem_cons, List.not_mem_nil, or_false] at mem
    rcases mem with rfl | rfl | rfl <;> exact authorizedDelivery_valid _
  obtain ⟨ts, last, h⟩ := purchase_execution
  have hinbox : purchaseStore.processedWebhooks.rows = [] := by decide +kernel
  have hprojections : purchaseStore.merchantProjections.rows = [] := by decide +kernel
  exact ⟨valid, view_converges h (Table.ext hinbox) (Table.ext hprojections) valid⟩

end PaymentLab
