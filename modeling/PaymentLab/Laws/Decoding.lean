import PaymentLab.Laws.Projection
import PaymentLab.Runs.Progress

/-!
# Decoding what the producer encodes

The rows and event types that the producer renders along an execution (`Called`), and what the merchant
reads back: the validation of the rendered body gives an envelope with every field of the row
(`rowEnvelope`), whether a time of the row still has its zone or came back from storage without it.

`json.dumps` and `isoformat` are embedded, their inverses are not: that `json.loads` and
`fromisoformat` undo them on the body at hand is the assumption (`ReadsBack`), and everything from
the decoded value on is proved, so the checks of the consumer, its field names and its conversions
are those of the code. The event type and the versions are read back with the rest.
-/

namespace PaymentLab

open Relational Transactional

/-! ## What is rendered -/

/-- The times of a payment object as Python holds them: each with its zone, as the service has just
set it, or read back from the store without it. -/
structure HeldTimes where
  createdAt : Datetime
  updatedAt : Datetime
  expiresAt : Option Datetime

/-- The times are those of the row, taken as UTC where they have no zone. -/
structure HeldTimes.Of (times : HeldTimes) (payment : PaymentRecord) : Prop where
  createdAt : asUtc times.createdAt = payment.createdAt
  updatedAt : asUtc times.updatedAt = payment.updatedAt
  expiresAt : times.expiresAt.map asUtc = payment.expiresAt

/-- `_format_datetime`, of a time with its zone or without it. -/
def formatHeld (value : Datetime) : String := formatDatetime (asUtc value)

/-- `_payment_payload` of a payment object, fields in sorted order. -/
def heldPaymentPayload (payment : PaymentRecord) (times : HeldTimes) : CanonicalJson.Value :=
  .obj [("amount", .int payment.amount),
    ("authorized_amount", .int payment.authorizedAmount),
    ("captured_amount", .int payment.capturedAmount),
    ("created_at", .str (formatHeld times.createdAt)),
    ("currency", .str payment.currency.value),
    ("decline_reason", textValue (payment.declineReason.map DeclineReason.value)),
    ("expires_at", textValue (times.expiresAt.map formatHeld)),
    ("id", .str payment.id),
    ("merchant_reference", .str payment.merchantReference),
    ("payment_flow", .str payment.paymentFlow.value),
    ("payment_reference", textValue payment.paymentReference),
    ("refunded_amount", .int payment.refundedAmount),
    ("status", .str payment.status.value),
    ("updated_at", .str (formatHeld times.updatedAt)),
    ("version", .int payment.version)]

/-- The body `create_outbox_event` renders, as it is sent. -/
def outboxBody (payment : PaymentRecord) (times : HeldTimes) (eventType : WebhookEventType)
    (hex : String) : Bytes :=
  (CanonicalJson.dumps (.obj [("aggregate_version", .int payment.version),
    ("created_at", .str (formatHeld (.aware (asUtc times.updatedAt)))),
    ("id", .str ("evt_" ++ hex)),
    ("payment", heldPaymentPayload payment times),
    ("type", .str eventType.value)])).flatMap String.utf8EncodeChar

/-- The form of the times is not in the body. -/
theorem outboxBody_eq {payment : PaymentRecord} {times : HeldTimes} (held : times.Of payment)
    (eventType : WebhookEventType) (hex : String) :
    outboxBody payment times eventType hex =
      (createOutboxEvent payment eventType hex).payload.body := by
  have hexpires : times.expiresAt.map formatHeld = payment.expiresAt.map formatDatetime := by
    rw [← held.expiresAt, Option.map_map]
    rfl
  have hpayment : heldPaymentPayload payment times = (PaymentSnapshot.fromPayment payment).value := by
    unfold heldPaymentPayload PaymentSnapshot.value formatHeld
    rw [held.createdAt, held.updatedAt,
      show (times.expiresAt.map fun value => formatDatetime (asUtc value)) = _ from hexpires]
    rfl
  unfold outboxBody EventPayload.body EventPayload.value formatHeld
  rw [hpayment, held.updatedAt]
  rfl

/-- The envelope of a row: its fields, under the type and the id of the event. -/
def rowEnvelope (payment : PaymentRecord) (eventType : WebhookEventType) (hex : String) :
    WebhookEnvelope where
  id := "evt_" ++ hex
  eventType := eventType
  aggregateVersion := payment.version
  createdAt := payment.updatedAt
  payment :=
    { id := payment.id
      merchantReference := payment.merchantReference
      amount := payment.amount
      currency := payment.currency
      status := payment.status
      paymentFlow := payment.paymentFlow
      paymentReference := payment.paymentReference
      expiresAt := payment.expiresAt
      declineReason := payment.declineReason
      authorizedAmount := payment.authorizedAmount
      capturedAmount := payment.capturedAmount
      refundedAmount := payment.refundedAmount
      version := payment.version
      createdAt := payment.createdAt
      updatedAt := payment.updatedAt }

/-! ## The calls of the producer -/

/-- The rows and event types with which `create_outbox_event` is called on a store: the payment an
authorization has inserted, and a stored payment after a transition. Which request led there is not
kept. -/
inductive Called (db : Database) : PaymentRecord → WebhookEventType → Prop
  | authorization {command : AuthorizationCommand} {terms : AuthorizationTerms} {now : Instant}
      {reference hex : String} {t : Table paymentSchema} :
      authorizationTerms command now reference = .ok terms →
      db.payments.insert (newPayment command terms now hex) = some t →
      Called db (newPayment command terms now hex) terms.eventType
  | transition {step : LifecycleStep} {before after : PaymentRecord} :
      db.payments.get before.id = some before → Decides step before after →
      (∀ amount, step = .captureConfirmation amount → amount = before.amount) →
      Called db after step.eventType

section Called

variable {db : Database} {payment : PaymentRecord} {eventType : WebhookEventType}

/-- **Every call renders the newest event of an account**, that of a payment as the service knows
them. -/
theorem Called.lived (consistent : Consistent db) (called : Called db payment eventType)
    (hex : String) : ∃ first a steps, Account.Lived first a steps ∧ 0 < a.row.amount ∧
      publishedEvent payment eventType hex ∈ a.events := by
  cases called with
  | @authorization command terms now reference hex' t hterms hinsert =>
    let a : Account := ⟨newPayment command terms now hex',
      (authorizationEntry (newPayment command terms now hex') hex).toList,
      [publishedEvent (newPayment command terms now hex') terms.eventType hex]⟩
    have opened : a.Opened := ⟨command, terms, now, hex', reference, hex, hex, hterms, rfl, rfl, rfl⟩
    refine ⟨a, a, [], .opened opened, ?_, List.mem_singleton.mpr rfl⟩
    have mem : newPayment command terms now hex' ∈ t.rows := by
      rw [Table.insert_rows hinsert]
      exact List.mem_append_right _ (List.mem_singleton.mpr rfl)
    exact (bounded_of_stored mem).amount
  | @transition step before _ stored decided confirmed =>
    obtain ⟨first, steps, lived⟩ := consistent.lived before.id _ (Database.account_of_get stored)
    let b : Account := ⟨payment,
      db.ledgerOf before.id ++ (step.entry before payment hex 0).toList,
      db.publishedOf before.id ++ [publishedEvent payment step.eventType hex]⟩
    refine ⟨first, b, _, .extended lived (b := b) ⟨decided, confirmed, ⟨hex, 0, rfl⟩, ⟨hex, rfl⟩⟩, ?_,
      List.mem_append_right _ (List.mem_singleton.mpr rfl)⟩
    show 0 < payment.amount
    rw [decided.sameIdentity.amount]
    exact (bounded_of_stored (Table.get_eq_some stored).1).amount

/-- A confirmation is requested of a payment that awaits it. -/
theorem Called.requested (called : Called db payment eventType)
    (h : eventType = .confirmationRequested) : payment.status = .awaitingPayment := by
  cases called with
  | @authorization command terms now reference hex t hterms hinsert =>
    unfold authorizationTerms at hterms
    split at hterms
    · cases hterms
      rfl
    · next decision _ =>
      cases hres : authorize command.amount decision with
      | error e =>
        rw [hres] at hterms
        cases hterms
      | ok result =>
        rw [hres] at hterms
        cases hterms
        dsimp only at h
        split at h <;> cases h
  | @transition step before _ stored decided confirmed => cases step <;> cases h

variable {loads : Bytes → Except LoadsFault Json}
  {fromIsoformat : String → Except IsoFault Datetime}

/-- **Decoding undoes encoding** for one call of the producer. -/
theorem Called.decoded (consistent : Consistent db) (called : Called db payment eventType)
    (named : payment.merchantReference ≠ "") {times : HeldTimes} (held : times.Of payment)
    (hex : String)
    (back : ReadsBack loads fromIsoformat (createOutboxEvent payment eventType hex).payload) :
    parseWebhookPayload loads fromIsoformat (outboxBody payment times eventType hex) =
      .ok (rowEnvelope payment eventType hex) := by
  obtain ⟨first, a, steps, lived, positive, mem⟩ := called.lived consistent hex
  obtain ⟨sound, hpayment, hreference, hid⟩ := lived.event_sound positive mem
  rw [outboxBody_eq held]
  exact parse_producer back hid ⟨hpayment, named, hreference⟩ sound rfl called.requested

end Called

/-! ## The events of a step -/

section Steps

/-- An event that was rendered by a call on one store for a row of another. -/
def Renders (db db' : Database) (event : WebhookEventRecord) : Prop :=
  ∃ payment hex, Called db payment event.eventType ∧ db'.payments.get payment.id = some payment ∧
    event = createOutboxEvent payment event.eventType hex

/-- The event an insertion adds. -/
theorem new_event {t t' : Table webhookEventSchema} {event row : WebhookEventRecord}
    (h : t.insert row = some t') (mem : event ∈ t'.rows) : event ∈ t.rows ∨ event = row := by
  rw [Table.insert_rows h] at mem
  exact (List.mem_append.mp mem).imp id List.mem_singleton.mp

theorem Created.renders {sha256 : String → String} {command : AuthorizationCommand} {key : String}
    {payment : PaymentRecord} {db db' : Database} {event : WebhookEventRecord}
    (h : Created sha256 command key payment db db') (mem : event ∈ db'.webhookEvents.rows) :
    event ∈ db.webhookEvents.rows ∨ Renders db db' event := by
  obtain ⟨now, hex, reference, terms, hexEvent, hterms, rfl, hinsert⟩ := h.terms
  rcases new_event hinsert mem with hold | rfl
  · exact .inl hold
  · exact .inr ⟨_, hexEvent, .authorization hterms h.payments, Table.get_insert_self h.payments, rfl⟩

theorem Advances.renders {step : LifecycleStep} {before after : PaymentRecord} {db db' : Database}
    {event : WebhookEventRecord} (h : Advances step before after db db')
    (mem : event ∈ db'.webhookEvents.rows) :
    event ∈ db.webhookEvents.rows ∨ Renders db db' event := by
  obtain ⟨hex, hinsert⟩ := h.events
  rcases new_event hinsert mem with hold | rfl
  · exact .inl hold
  · refine .inr ⟨after, hex, .transition h.stored h.decided h.confirmed, ?_, rfl⟩
    rw [h.after_id]
    exact h.stored_after

/-- An expiry ends a payment that waits. -/
theorem Expired.awaiting {before after : PaymentRecord} {db db' : Database}
    (h : Expired before after db db') :
    before.status = .awaitingPayment ∧ after.status = .expired := by
  obtain ⟨state, next, hstate, hnext, hexpire⟩ := h.advances.decided.states
  obtain ⟨hawaiting, hexpired, _⟩ := expire_eq_ok hexpire
  rw [← (paymentState_eq_ok hstate).1, ← (paymentState_eq_ok hnext).1]
  exact ⟨hawaiting, hexpired⟩

/-- A batch of expiries: a row is the one the batch began with or has expired, and every new event
renders an expired row. -/
theorem expiries_rows {db db' : Database} (batch : Relation.ReflTransGen ExpiresOne db db') :
    (∀ id, db'.payments.get id = db.payments.get id ∨
        ∃ p, db'.payments.get id = some p ∧ p.status = .expired) ∧
      ∀ event ∈ db'.webhookEvents.rows, event ∈ db.webhookEvents.rows ∨
        ∃ payment hex, Called db payment event.eventType ∧ payment.status = .expired ∧
          db'.payments.get payment.id = some payment ∧
          event = createOutboxEvent payment event.eventType hex := by
  induction batch with
  | refl => exact ⟨fun _ => .inl rfl, fun _ mem => .inl mem⟩
  | @tail mid db' _ one ih =>
    obtain ⟨before, after, hone⟩ := one
    obtain ⟨hrows, hevents⟩ := ih
    obtain ⟨hawaiting, hexpired⟩ := hone.awaiting
    have hadvances := hone.advances
    -- an expired row is not the one that expires now
    have hother : ∀ {id : String} {p : PaymentRecord}, mid.payments.get id = some p →
        p.status = .expired → id ≠ before.id := by
      rintro id p hp hstatus rfl
      cases hp.symm.trans hadvances.stored
      rw [hstatus] at hawaiting
      cases hawaiting
    have hstored : db.payments.get before.id = some before := by
      rcases hrows before.id with hsame | ⟨p, hp, hstatus⟩
      · rw [← hsame]
        exact hadvances.stored
      · exact absurd rfl (hother hp hstatus)
    refine ⟨fun id => ?_, fun event mem => ?_⟩
    · by_cases hid : id = before.id
      · subst hid
        exact .inr ⟨after, hadvances.stored_after, hexpired⟩
      · rw [hadvances.get_of_ne hid]
        exact hrows id
    · obtain ⟨hex, hinsert⟩ := hadvances.events
      rcases new_event hinsert mem with hmid | rfl
      · rcases hevents event hmid with hold | ⟨payment, hex', called, hstatus, hget, hevent⟩
        · exact .inl hold
        · refine .inr ⟨payment, hex', called, hstatus, ?_, hevent⟩
          rw [hadvances.get_of_ne (hother hget hstatus)]
          exact hget
      · refine .inr ⟨after, hex, .transition hstored hadvances.decided hadvances.confirmed, hexpired,
          ?_, rfl⟩
        rw [hadvances.after_id]
        exact hadvances.stored_after

/-- What a transaction commits adds events its request rendered, for the rows it leaves. -/
theorem Commits.renders {sha256 : String → String} {request : Request} {db db' : Database}
    (h : Commits sha256 request db db') {event : WebhookEventRecord}
    (mem : event ∈ db'.webhookEvents.rows) :
    event ∈ db.webhookEvents.rows ∨ Renders db db' event := by
  cases h with
  | nothing same =>
    subst same
    exact .inl mem
  | keyed _ h =>
    cases h with
    | created h => exact h.renders mem
    | operated h =>
      obtain ⟨_, _, hadvances⟩ := h.advances
      exact hadvances.renders mem
  | received _ h =>
    rw [h.accounts.webhookEvents] at mem
    exact .inl mem
  | settled _ h =>
    cases h.effect with
    | none _ accounts _ =>
      rw [accounts.webhookEvents] at mem
      exact .inl mem
    | captured _ _ _ _ hadvances => exact hadvances.renders mem
    | expired _ _ _ _ _ hadvances => exact hadvances.renders mem
  | swept _ h =>
    refine ((expiries_rows h).2 event mem).imp id ?_
    rintro ⟨payment, hex, called, _, hget, hevent⟩
    exact ⟨payment, hex, called, hget, hevent⟩

end Steps

/-! ## Along an execution -/

section Execution

variable {ι : Type} {sha256 : String → String}

/-- An event a move adds is one its request rendered. -/
theorem Moves.renders {t : Pool.Transition Database ι (Option Client)} (h : Moves sha256 t)
    {event : WebhookEventRecord} (mem : event ∈ t.post.webhookEvents.rows)
    (new : t.pre.webhookEvents.get event.id = none) : Renders t.pre t.post event := by
  have stored : ∀ old ∈ t.pre.webhookEvents.rows, old.id ≠ event.id := by
    intro old hold hid
    have hget : t.pre.webhookEvents.get old.id = some old := Table.get_of_mem hold
    rw [hid, new] at hget
    cases hget
  have notOld : event ∉ t.pre.webhookEvents.rows := fun old => stored event old rfl
  cases h with
  | background _ h =>
    -- the ids of events are in their published part
    have published : event.published ∈ t.pre.webhookEvents.rows.map (·.published) := by
      rw [← h.published]
      exact List.mem_map_of_mem mem
    obtain ⟨old, hold, heq⟩ := List.mem_map.mp published
    exact absurd (congrArg PublishedEvent.id heq) (stored old hold)
  | aside _ _ _ _ same _ =>
    rw [same] at mem
    exact absurd mem notOld
  | acted client _ coherent unfinished hpost _ =>
    rw [hpost] at mem ⊢
    exact ((Client.act_commits sha256 coherent.admits unfinished coherent.sound).commits.renders
      mem).resolve_left notOld

/-- The body of a call is read back as the row it renders, every field of it, whatever form its times
have. -/
def Decodes (loads : Bytes → Except LoadsFault Json)
    (fromIsoformat : String → Except IsoFault Datetime) (payment : PaymentRecord)
    (eventType : WebhookEventType) (hex : String) : Prop :=
  ∀ times : HeldTimes, times.Of payment →
    parseWebhookPayload loads fromIsoformat (outboxBody payment times eventType hex) =
      .ok (rowEnvelope payment eventType hex)

variable [DecidableEq ι] {ts : List (Pool.Transition Database ι (Option Client))}
  {v : Pool.World Database ι (Option Client)}

/-- **Decoding undoes encoding** for every call of the producer in a reachable store, and every event
an execution publishes is the result of such a call on the row it leaves. -/
theorem decoding_undoes_encoding (loads : Bytes → Except LoadsFault Json)
    (fromIsoformat : String → Except IsoFault Datetime) (h : Execution sha256 ts v) :
    (∀ payment eventType, Called v.shared payment eventType → payment.merchantReference ≠ "" →
        ∀ hex, ReadsBack loads fromIsoformat (createOutboxEvent payment eventType hex).payload →
          Decodes loads fromIsoformat payment eventType hex) ∧
      ∀ t ∈ ts, ∀ event ∈ t.post.webhookEvents.rows, t.pre.webhookEvents.get event.id = none →
        ∃ payment hex, Called t.pre payment event.eventType ∧
          t.post.payments.get payment.id = some payment ∧
          event = createOutboxEvent payment event.eventType hex ∧
          (payment.merchantReference ≠ "" → ReadsBack loads fromIsoformat event.payload →
            Decodes loads fromIsoformat payment event.eventType hex) := by
  refine ⟨fun payment eventType called named hex back times held =>
    called.decoded h.consistent named held hex back, fun t ht event mem new => ?_⟩
  obtain ⟨payment, hex, called, hget, hevent⟩ := (h.moves ht).renders mem new
  refine ⟨payment, hex, called, hget, hevent, fun named back times held => ?_⟩
  obtain ⟨_, _, u, _, reached, hpre, _⟩ := h.split ht
  rw [hpre] at called
  rw [hevent] at back
  exact called.decoded reached.consistent named held hex back

/-- The payment of a purchase, authorized. -/
def authorizedPayment : PaymentRecord :=
  { purchased with
    status := .authorized, capturedAmount := 0, refundedAmount := 0, version := 1, updatedAt := 0 }

/-- The authorization of a purchase, with times that came back without their zone. -/
theorem purchase_decoded :
    parseWebhookPayload purchaseLibrary.loads purchaseLibrary.fromIsoformat
      (outboxBody authorizedPayment ⟨.naive 0, .naive 0, none⟩ .authorized "1") =
        .ok (rowEnvelope authorizedPayment .authorized "1") := by
  have start : Execution (fun _ => "") [] (alone .empty ⟨order, ∅, .ready⟩) :=
    .nil ⟨rfl, fun _ _ h => by cases h; exact ⟨rfl, rfl⟩⟩
  obtain ⟨t, hinsert⟩ : ∃ t, Database.empty.payments.insert authorizedPayment = some t :=
    Option.isSome_iff_exists.mp (by decide +kernel)
  let command : AuthorizationCommand := ⟨"order-1", 1000, .usd, .authorization .approve⟩
  obtain ⟨terms, hterms, hpayment, htype⟩ : ∃ terms, authorizationTerms command 0 "1" = .ok terms ∧
      newPayment command terms 0 "1" = authorizedPayment ∧ terms.eventType = .authorized :=
    ⟨_, rfl, rfl, rfl⟩
  have called : Called .empty authorizedPayment .authorized := by
    rw [← hpayment] at hinsert ⊢
    rw [← htype]
    exact .authorization hterms hinsert
  exact (decoding_undoes_encoding _ _ start).1 _ _ called (by decide) "1"
    (Follower.valid .first).readsBack _ ⟨rfl, rfl, rfl⟩

end Execution

end PaymentLab
