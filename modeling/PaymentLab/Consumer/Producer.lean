import PaymentLab.Account.Snapshot
import PaymentLab.Laws.Outbox
import PaymentLab.Runs.Consumer
import PaymentLab.Services.Reconciliation

/-!
# Deliveries of a producer's events

What a store that an execution reached tells a merchant (`ProducerStore`): every event carries the
snapshot it is numbered by, sound and complete, and the events of one payment are in order. A
delivery of such an event under a valid signature is accepted (`EventDelivery.Valid.accepted`), and
what the merchant reads is what was sent (`EventDelivery.Valid.envelope`).

The producer's store is taken at one point of an execution, and a delivery may bring any of its
events, as often as it likes and in any order. What the events of one payment have in common is
collected here once, because the consumer's `UPDATE` writes only the columns in which two snapshots
differ.
-/

namespace PaymentLab

open Relational Transactional

/-! ## The producer's events -/

/-- What a producer's store says of its events. -/
structure ProducerStore (db : Database) : Prop where
  payload : ∀ event ∈ db.webhookEvents.rows, event.payload.id = event.id ∧
    event.payload.payment.id = event.paymentId ∧
    event.payload.aggregateVersion = event.aggregateVersion ∧
    event.payload.payment.version = event.aggregateVersion
  sound : ∀ event ∈ db.webhookEvents.rows, event.payload.payment.Sound ∧ event.id ≠ "" ∧
    event.payload.payment.id ≠ "" ∧ event.payload.payment.paymentReference ≠ some "" ∧
    (event.payload.type = .confirmationRequested →
      event.payload.payment.status = .awaitingPayment)
  latest : ∀ p, db.payments.get p.id = some p → ∃ latest ∈ db.webhookEvents.rows,
    latestEvent db p.id = some latest ∧ latest.paymentId = p.id ∧ latest.aggregateVersion = p.version ∧
      latest.payload.payment = .fromPayment p ∧
      ∀ event ∈ db.webhookEvents.rows, event.paymentId = p.id →
        event.aggregateVersion ≤ latest.aggregateVersion
  ordered : ∀ earlier ∈ db.webhookEvents.rows, ∀ later ∈ db.webhookEvents.rows,
    earlier.paymentId = later.paymentId → earlier.aggregateVersion ≤ later.aggregateVersion →
    earlier.payload.payment.Precedes later.payload.payment

theorem mem_eventsOf {db : Database} {id : String} {event : WebhookEventRecord} :
    event ∈ db.eventsOf id ↔ event ∈ db.webhookEvents.rows ∧ event.paymentId = id := by
  unfold Database.eventsOf
  rw [Table.mem_select, decide_eq_true_eq]

/-- Events of one payment and version are one event. -/
theorem event_unique {db : Database} {a b : WebhookEventRecord} (ha : a ∈ db.webhookEvents.rows)
    (hb : b ∈ db.webhookEvents.rows) (hpayment : a.paymentId = b.paymentId)
    (hversion : a.aggregateVersion = b.aggregateVersion) : a = b := by
  by_contra hne
  have hclash := Table.clash_eq_false ha hb hne
  have hab : webhookEventSchema.clash a b = true := decide_eq_true ⟨hpayment, hversion⟩
  have hba : webhookEventSchema.clash b a = true := decide_eq_true ⟨hpayment.symm, hversion.symm⟩
  simp [hab, hba] at hclash

/-- The first of the events in descending order of versions is a highest one. -/
theorem latestEvent_spec {db : Database} {id : String} {latest : WebhookEventRecord}
    (h : latestEvent db id = some latest) :
    latest ∈ db.eventsOf id ∧ ∀ event ∈ db.eventsOf id,
      event.aggregateVersion ≤ latest.aggregateVersion := by
  unfold latestEvent at h
  generalize hsorted : ((db.eventsOf id).insertionSort fun a b =>
    b.aggregateVersion ≤ a.aggregateVersion) = sorted at h
  have hmem : ∀ event, event ∈ sorted ↔ event ∈ db.eventsOf id := by
    intro event
    rw [← hsorted]
    exact List.mem_insertionSort _
  cases sorted with
  | nil => cases h
  | cons head rest =>
    cases h
    refine ⟨(hmem _).mp List.mem_cons_self, fun event mem => ?_⟩
    have total : Std.Total fun a b : WebhookEventRecord => b.aggregateVersion ≤ a.aggregateVersion :=
      ⟨fun a b => Nat.le_total b.aggregateVersion a.aggregateVersion⟩
    have trans : IsTrans WebhookEventRecord fun a b => b.aggregateVersion ≤ a.aggregateVersion :=
      ⟨fun a b c hab hbc => hbc.trans hab⟩
    have ordered := List.pairwise_insertionSort
      (fun a b : WebhookEventRecord => b.aggregateVersion ≤ a.aggregateVersion) (db.eventsOf id)
    rw [hsorted] at ordered
    rcases List.mem_cons.mp ((hmem event).mpr mem) with rfl | mem
    · exact le_refl _
    · exact (List.pairwise_cons.mp ordered).1 event mem

/-- A payment with events has a latest one. -/
theorem latestEvent_of_mem {db : Database} {id : String} {event : WebhookEventRecord}
    (h : event ∈ db.eventsOf id) : ∃ latest, latestEvent db id = some latest := by
  unfold latestEvent
  cases hsorted : (db.eventsOf id).insertionSort fun a b =>
    b.aggregateVersion ≤ a.aggregateVersion with
  | nil =>
    have := (List.mem_insertionSort (fun a b : WebhookEventRecord =>
      b.aggregateVersion ≤ a.aggregateVersion)).mpr h
    rw [hsorted] at this
    cases this
  | cons head rest => exact ⟨head, rfl⟩

/-- **Every store an execution reaches publishes the history of its payments.** -/
theorem Execution.producerStore {ι : Type} [DecidableEq ι] {sha256 : String → String}
    {ts : List (Pool.Transition Database ι (Option Client))}
    {v : Pool.World Database ι (Option Client)} (h : Execution sha256 ts v) :
    ProducerStore v.shared := by
  have stored : ∀ event ∈ v.shared.webhookEvents.rows, ∃ p,
      v.shared.payments.get p.id = some p ∧ event ∈ v.shared.eventsOf p.id := by
    intro event mem
    obtain ⟨p, hp⟩ := h.consistent.grounded.events event mem
    have hid : p.id = event.paymentId := (Table.get_eq_some hp).2
    exact ⟨p, by rw [hid]; exact hp, mem_eventsOf.mpr ⟨mem, hid.symm⟩⟩
  refine ⟨fun event mem => ?_, fun event mem => ?_, fun p hp => ?_,
    fun earlier hearlier later hlater hpayment hle => ?_⟩
  · obtain ⟨p, hp, mem'⟩ := stored event mem
    have history := outbox_history h hp
    obtain ⟨hid, _, haggregate, hversion⟩ := history.consistent event mem'
    refine ⟨hid, ?_, haggregate, hversion⟩
    rw [(history.identity event mem').id, (mem_eventsOf.mp mem').2]
  · obtain ⟨p, hp, mem'⟩ := stored event mem
    have history := outbox_history h hp
    obtain ⟨first, steps, lived⟩ := h.lived hp
    have published : event.published ∈ v.shared.publishedOf p.id := List.mem_map_of_mem mem'
    have positive : 0 < p.amount := by
      have checked : p.satisfiesChecks = true :=
        v.shared.payments.checked p (Table.mem_iff_get.mpr hp)
      unfold PaymentRecord.satisfiesChecks at checked
      simp only [Bool.and_eq_true, decide_eq_true_eq] at checked
      exact checked.1.1.1.1.1.1
    obtain ⟨hsound, hpayment, hreference, hid⟩ := lived.event_sound positive published
    refine ⟨hsound, hid, hpayment, hreference, fun htype => ?_⟩
    obtain ⟨_, hsame, _⟩ := history.consistent event mem'
    have hannounced := history.announced event mem'
    rw [← hsame, htype] at hannounced
    cases hstatus : event.payload.payment.status <;> rw [hstatus] at hannounced <;>
      first | rfl | cases hannounced
  · have history := outbox_history h hp
    have positive : 1 ≤ p.version := (h.lived hp).choose_spec.choose_spec.regular.version_pos
    obtain ⟨last, hlast, hversion⟩ : ∃ last ∈ v.shared.eventsOf p.id,
        last.aggregateVersion = p.version := by
      have hmem : p.version ∈ (v.shared.eventsOf p.id).map (·.aggregateVersion) := by
        rw [history.versions, List.mem_range'_1]
        omega
      exact List.mem_map.mp hmem
    have bounded : ∀ event ∈ v.shared.eventsOf p.id, event.aggregateVersion ≤ p.version := by
      intro event mem
      have hmem : event.aggregateVersion ∈ List.range' 1 p.version := by
        rw [← history.versions]
        exact List.mem_map_of_mem mem
      have := List.mem_range'_1.mp hmem
      omega
    obtain ⟨latest, hlatest⟩ := latestEvent_of_mem hlast
    obtain ⟨mem, highest⟩ := latestEvent_spec hlatest
    have hcurrent : latest.aggregateVersion = p.version := by
      have := highest last hlast
      have := bounded latest mem
      omega
    refine ⟨latest, (mem_eventsOf.mp mem).1, hlatest, (mem_eventsOf.mp mem).2, hcurrent,
      history.current latest mem hcurrent, fun event hevent hid => ?_⟩
    exact highest event (mem_eventsOf.mpr ⟨hevent, hid⟩)
  · obtain ⟨p, hp, mem⟩ := stored earlier hearlier
    have mem' : later ∈ v.shared.eventsOf p.id :=
      mem_eventsOf.mpr ⟨hlater, hpayment.symm.trans (mem_eventsOf.mp mem).2⟩
    obtain ⟨first, steps, lived⟩ := h.lived hp
    have ordered : (v.shared.eventsOf p.id).Pairwise fun x y =>
        x.aggregateVersion < y.aggregateVersion ∧
          x.payload.payment.Precedes y.payload.payment :=
      List.pairwise_map.mp lived.events_ordered
    let R (x y : WebhookEventRecord) : Prop :=
      (x.aggregateVersion ≤ y.aggregateVersion → x.payload.payment.Precedes y.payload.payment) ∧
        (y.aggregateVersion ≤ x.aggregateVersion → y.payload.payment.Precedes x.payload.payment)
    have symmetric : Std.Symm R := ⟨fun _ _ hxy => hxy.symm⟩
    have either : (v.shared.eventsOf p.id).Pairwise R :=
      ordered.imp fun {x y} hxy => ⟨fun _ => hxy.2, fun hyx => by omega⟩
    have same : ∀ x ∈ v.shared.eventsOf p.id, R x x := fun x _ => ⟨fun _ => .refl _, fun _ => .refl _⟩
    exact (either.forall_of_forall same mem mem').1 hle

/-! ## Deliveries -/

/-- A delivery of an event: the event, the header and the secret, the clock of the merchant, and how
the write may fail. The body is that of the event; a delivery of anything else is a call of the
consumer, not one of these. -/
structure EventDelivery where
  event : WebhookEventRecord
  signatureHeader : String
  secret : String
  now : Datetime
  faults : ConsumerFaults

/-- The call a delivery makes. -/
def EventDelivery.call (delivery : EventDelivery) : ConsumerCall where
  payload := delivery.event.payload.body
  signatureHeader := delivery.signatureHeader
  secret := delivery.secret
  now := delivery.now
  faults := delivery.faults

/-- The projection has every field of a snapshot, its version and times included. Which event it was
taken from is not compared. -/
structure MerchantPaymentProjectionRecord.Shows (projection : MerchantPaymentProjectionRecord)
    (snapshot : PaymentSnapshot) : Prop where
  paymentId : projection.paymentId = snapshot.id
  merchantReference : projection.merchantReference = snapshot.merchantReference
  amount : projection.amount = snapshot.amount
  currency : projection.currency = snapshot.currency
  status : projection.status = snapshot.status
  paymentFlow : projection.paymentFlow = snapshot.paymentFlow
  paymentReference : projection.paymentReference = snapshot.paymentReference
  expiresAt : projection.expiresAt = snapshot.expiresAt
  declineReason : projection.declineReason = snapshot.declineReason
  authorizedAmount : projection.authorizedAmount = snapshot.authorizedAmount
  capturedAmount : projection.capturedAmount = snapshot.capturedAmount
  refundedAmount : projection.refundedAmount = snapshot.refundedAmount
  aggregateVersion : projection.aggregateVersion = snapshot.version
  updatedAt : projection.updatedAt = snapshot.updatedAt

theorem newProjection_shows (envelope : WebhookEnvelope) :
    (newProjection envelope).Shows envelope.payment :=
  ⟨rfl, rfl, rfl, rfl, rfl, rfl, rfl, rfl, rfl, rfl, rfl, rfl, rfl, rfl⟩

section Valid

variable (lib : StandardLibrary)

/-- A validly signed delivery of an event of the store, whose body the decoders read back. The
signature is checked as the code checks it; that nobody else can make one is not assumed. -/
structure EventDelivery.Valid (db : Database) (delivery : EventDelivery) : Prop where
  event : delivery.event ∈ db.webhookEvents.rows
  signed : verifyWebhookSignature lib.hmacSha256 lib.readInt delivery.event.payload.body
    delivery.signatureHeader delivery.secret delivery.now = .ok ()
  readsBack : ReadsBack lib.loads lib.fromIsoformat delivery.event.payload

variable {lib} {producer : Database} {delivery : EventDelivery}

/-- Events are told apart by their ids. -/
theorem event_id_unique {a b : WebhookEventRecord} (ha : a ∈ producer.webhookEvents.rows)
    (hb : b ∈ producer.webhookEvents.rows) (h : a.id = b.id) : a = b :=
  Table.eq_of_key_eq ha hb h

/-- A delivery whose body is named passes verification and validation. -/
theorem EventDelivery.Valid.accepted (valid : delivery.Valid lib producer)
    (store : ProducerStore producer)
    (named : delivery.event.payload.payment.merchantReference ≠ "") :
    delivery.call.accepted lib = .ok delivery.event.payload.envelope := by
  obtain ⟨hid, _, haggregate, hversion⟩ := store.payload _ valid.event
  obtain ⟨sound, hne, hpayment, hreference, hrequested⟩ := store.sound _ valid.event
  have hparse := parse_producer valid.readsBack (by rw [hid]; exact hne)
    ⟨hpayment, named, hreference⟩ sound (hversion.trans haggregate.symm) hrequested
  unfold ConsumerCall.accepted
  show (verifyWebhookSignature lib.hmacSha256 lib.readInt delivery.event.payload.body
    delivery.signatureHeader delivery.secret delivery.now >>= fun _ => _) = _
  rw [valid.signed, except_ok_bind]
  exact hparse

/-- An accepted delivery carries its event. -/
theorem EventDelivery.Valid.envelope (valid : delivery.Valid lib producer)
    {envelope : WebhookEnvelope} (h : delivery.call.accepted lib = .ok envelope) :
    envelope = delivery.event.payload.envelope :=
  parse_encoded valid.readsBack (ConsumerCall.accepted_parse h)

/-- A signed body is accepted as often as it is sent. -/
theorem EventDelivery.Valid.accepted_again {later : EventDelivery} {envelope : WebhookEnvelope}
    (valid : later.Valid lib producer) (hevent : later.event = delivery.event)
    (h : delivery.call.accepted lib = .ok envelope) : later.call.accepted lib = .ok envelope := by
  have hparse : parseWebhookPayload lib.loads lib.fromIsoformat later.event.payload.body =
      .ok envelope := by
    rw [hevent]
    exact ConsumerCall.accepted_parse h
  unfold ConsumerCall.accepted
  show (verifyWebhookSignature lib.hmacSha256 lib.readInt later.event.payload.body
    later.signatureHeader later.secret later.now >>= fun _ => _) = _
  rw [valid.signed, except_ok_bind]
  exact hparse

end Valid

end PaymentLab
