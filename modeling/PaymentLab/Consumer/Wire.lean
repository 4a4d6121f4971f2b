import PaymentLab.Account.Model
import PaymentLab.Consumer.Snapshot

/-!
# The body of an event on the wire

The bytes a producer sends for an event, and what the consumer reads from them. `json.loads` and
`datetime.fromisoformat` are parameters of the consumer; `ReadsBack` is what the round trip needs of
them on one body, that they invert `json.dumps` and `isoformat`. The rest of the trip is proved:
`parse_encoded` gives the very snapshot that was sent, and `parse_producer` that every body a
producer can send is accepted.

The two inverses are assumed of one body at a time and not of the functions as such, so a witness
can supply decoders that behave as the real ones on the bodies it uses. The names and the order of
the fields come from the producer's own code.
-/

namespace PaymentLab

/-! ## Times -/

/-- A number with leading zeros. -/
def padded (width n : Nat) : String :=
  let digits := toString n
  "".pushn '0' (width - digits.length) ++ digits

/-- The days before a year, from year 1 on. -/
def daysBeforeYear (year : Nat) : Nat :=
  let y := year - 1
  y * 365 + y / 4 - y / 100 + y / 400

/-- A leap year. -/
def isLeap (year : Nat) : Bool :=
  decide (year % 4 = 0) && (decide (year % 100 ≠ 0) || decide (year % 400 = 0))

/-- The days before a month of a year. -/
def daysBeforeMonth (year month : Nat) : Nat :=
  ([0, 31, 59, 90, 120, 151, 181, 212, 243, 273, 304, 334].getD (month - 1) 334)
    + if decide (2 < month) && isLeap year then 1 else 0

/-- The date of a proleptic Gregorian ordinal, day 1 the first of January of year 1. -/
def dateOfOrdinal (ordinal : Nat) : Nat × Nat × Nat :=
  let guess := (ordinal * 400) / 146097 + 1
  let year := if daysBeforeYear (guess + 1) < ordinal then guess + 1
    else if ordinal ≤ daysBeforeYear guess then guess - 1 else guess
  let day := ordinal - daysBeforeYear year
  let month := ((List.range' 1 12).filter fun m => decide (daysBeforeMonth year m < day)).length
  (year, month, day - daysBeforeMonth year month)

/-- The ordinal of the first of January 1970. -/
def epochOrdinal : Int := 719163

/-- `isoformat` of a UTC instant, before its zone. -/
def isoformat (t : Instant) : String :=
  let (year, month, day) := dateOfOrdinal (epochOrdinal + t / 86400000000).toNat
  let time := (t % 86400000000).toNat
  let fraction := time % 1000000
  padded 4 year ++ "-" ++ padded 2 month ++ "-" ++ padded 2 day ++ "T"
    ++ padded 2 (time / 3600000000) ++ ":" ++ padded 2 (time / 60000000 % 60) ++ ":"
    ++ padded 2 (time / 1000000 % 60)
    ++ (if fraction = 0 then "" else "." ++ padded 6 fraction)

/-- `_format_datetime`: the zone of a UTC instant reads `Z`. -/
def formatDatetime (t : Instant) : String := isoformat t ++ "Z"

example : formatDatetime 1709164800123456 = "2024-02-29T00:00:00.123456Z" := by decide +kernel

/-! ## Bodies -/

/-- A text or null. -/
def textValue : Option String → CanonicalJson.Value
  | some text => .str text
  | none => .null

/-- `_payment_payload` as the object it renders, fields in sorted order. -/
def PaymentSnapshot.value (payment : PaymentSnapshot) : CanonicalJson.Value :=
  .obj [("amount", .int payment.amount),
    ("authorized_amount", .int payment.authorizedAmount),
    ("captured_amount", .int payment.capturedAmount),
    ("created_at", .str (formatDatetime payment.createdAt)),
    ("currency", .str payment.currency.value),
    ("decline_reason", textValue (payment.declineReason.map DeclineReason.value)),
    ("expires_at", textValue (payment.expiresAt.map formatDatetime)),
    ("id", .str payment.id),
    ("merchant_reference", .str payment.merchantReference),
    ("payment_flow", .str payment.paymentFlow.value),
    ("payment_reference", textValue payment.paymentReference),
    ("refunded_amount", .int payment.refundedAmount),
    ("status", .str payment.status.value),
    ("updated_at", .str (formatDatetime payment.updatedAt)),
    ("version", .int payment.version)]

/-- The object of an event. -/
def EventPayload.value (payload : EventPayload) : CanonicalJson.Value :=
  .obj [("aggregate_version", .int payload.aggregateVersion),
    ("created_at", .str (formatDatetime payload.createdAt)),
    ("id", .str payload.id),
    ("payment", payload.payment.value),
    ("type", .str payload.type.value)]

/-- `_canonical_json(...).encode()`: the body that is signed and sent. -/
def EventPayload.body (payload : EventPayload) : Bytes :=
  (CanonicalJson.dumps payload.value).flatMap String.utf8EncodeChar

mutual

/-- A rendered value, decoded. -/
def decoded : CanonicalJson.Value → Json
  | .null => .null
  | .bool b => .bool b
  | .int i => .int i
  | .str s => .str s
  | .obj fields => .obj (decodedFields fields)

/-- The fields of a rendered object, decoded. -/
def decodedFields : List (String × CanonicalJson.Value) → List (String × Json)
  | [] => []
  | (name, value) :: rest => (name, decoded value) :: decodedFields rest

end

/-- The envelope of an event. -/
def EventPayload.envelope (payload : EventPayload) : WebhookEnvelope :=
  { id := payload.id
    eventType := payload.type
    aggregateVersion := payload.aggregateVersion
    createdAt := payload.createdAt
    payment := payload.payment }

/-- A time is read back from its text, as `fromisoformat` does with what `isoformat` wrote. -/
def ReadsTime (fromIsoformat : String → Except IsoFault Datetime) (t : Instant) : Prop :=
  fromIsoformat (replaceZ (formatDatetime t)) = .ok (.aware t)

/-- `json.loads` and `datetime.fromisoformat` invert `json.dumps` and `isoformat` on one body. It is
all that is relied on of the two, and only for the body it names. -/
structure ReadsBack (loads : Bytes → Except LoadsFault Json)
    (fromIsoformat : String → Except IsoFault Datetime) (payload : EventPayload) : Prop where
  body : loads payload.body = .ok (decoded payload.value)
  created : ReadsTime fromIsoformat payload.createdAt
  paymentCreated : ReadsTime fromIsoformat payload.payment.createdAt
  paymentUpdated : ReadsTime fromIsoformat payload.payment.updatedAt
  expiry : ∀ t, payload.payment.expiresAt = some t → ReadsTime fromIsoformat t

/-! ## Reading a body -/

/-- The decoded fields of a body. -/
def EventPayload.fields (payload : EventPayload) : List (String × Json) :=
  [("aggregate_version", .int payload.aggregateVersion),
    ("created_at", .str (formatDatetime payload.createdAt)),
    ("id", .str payload.id),
    ("payment", decoded payload.payment.value),
    ("type", .str payload.type.value)]

theorem decoded_value (payload : EventPayload) : decoded payload.value = .obj payload.fields := by
  simp [EventPayload.value, EventPayload.fields, decoded, decodedFields]

/-- The decoded fields of a snapshot. -/
def PaymentSnapshot.fields (payment : PaymentSnapshot) : List (String × Json) :=
  [("amount", .int payment.amount),
    ("authorized_amount", .int payment.authorizedAmount),
    ("captured_amount", .int payment.capturedAmount),
    ("created_at", .str (formatDatetime payment.createdAt)),
    ("currency", .str payment.currency.value),
    ("decline_reason", decoded (textValue (payment.declineReason.map DeclineReason.value))),
    ("expires_at", decoded (textValue (payment.expiresAt.map formatDatetime))),
    ("id", .str payment.id),
    ("merchant_reference", .str payment.merchantReference),
    ("payment_flow", .str payment.paymentFlow.value),
    ("payment_reference", decoded (textValue payment.paymentReference)),
    ("refunded_amount", .int payment.refundedAmount),
    ("status", .str payment.status.value),
    ("updated_at", .str (formatDatetime payment.updatedAt)),
    ("version", .int payment.version)]

theorem decoded_paymentValue (payment : PaymentSnapshot) :
    decoded payment.value = .obj payment.fields := by
  simp [PaymentSnapshot.value, PaymentSnapshot.fields, decoded, decodedFields]

theorem requiredString_eq {values : List (String × Json)} {name text : String}
    (h : Json.get values name = some (.str text)) :
    requiredString values name =
      if text = "" then invalidPayload (name ++ " must be a non-empty string") else .ok text := by
  unfold requiredString
  rw [h]

theorem formatDatetime_ne_empty (t : Instant) : formatDatetime t ≠ "" := by
  intro h
  have hlength := congrArg String.length h
  simp [formatDatetime] at hlength

section Reading

variable {loads : Bytes → Except LoadsFault Json}
  {fromIsoformat : String → Except IsoFault Datetime}

theorem readDatetime_eq {t : Instant} (h : ReadsTime fromIsoformat t) (message : String) :
    readDatetime fromIsoformat (formatDatetime t) message = .ok t := by
  unfold readDatetime
  rw [show fromIsoformat (replaceZ (formatDatetime t)) = .ok (.aware t) from h]
  rfl

theorem requiredDatetime_eq {values : List (String × Json)} {name : String} {t : Instant}
    (hget : Json.get values name = some (.str (formatDatetime t)))
    (h : ReadsTime fromIsoformat t) : requiredDatetime fromIsoformat values name = .ok t := by
  unfold requiredDatetime
  rw [requiredString_eq hget, if_neg (formatDatetime_ne_empty t)]
  exact readDatetime_eq h _

/-- A text or null, read back; an empty text is no reference. -/
theorem optionalString_eq {values : List (String × Json)} {name : String} {text : Option String}
    (h : Json.get values name = some (decoded (textValue text))) :
    optionalString values name =
      if text = some "" then invalidPayload (name ++ " must be a non-empty string or null")
      else .ok text := by
  unfold optionalString
  rw [h]
  cases text with
  | none => rfl
  | some text => simp [textValue, decoded]

theorem optionalDatetime_eq {values : List (String × Json)} {name : String} {time : Option Instant}
    (hget : Json.get values name = some (decoded (textValue (time.map formatDatetime))))
    (h : ∀ t, time = some t → ReadsTime fromIsoformat t) :
    optionalDatetime fromIsoformat values name = .ok time := by
  unfold optionalDatetime
  rw [hget]
  cases time with
  | none => rfl
  | some t =>
    simp only [Option.map_some, textValue, decoded, if_neg (formatDatetime_ne_empty t)]
    rw [readDatetime_eq (h t rfl)]
    rfl

theorem declineReason_eq {values : List (String × Json)} {reason : Option DeclineReason}
    (h : Json.get values "decline_reason" =
      some (decoded (textValue (reason.map DeclineReason.value)))) :
    declineReason values = .ok reason := by
  unfold declineReason
  rw [h]
  cases reason with
  | none => rfl
  | some reason => cases reason <;> rfl

/-- The texts a snapshot needs to be read: its id, its merchant reference and, where it has one, its
payment reference. -/
structure PaymentSnapshot.Named (payment : PaymentSnapshot) : Prop where
  id : payment.id ≠ ""
  merchantReference : payment.merchantReference ≠ ""
  paymentReference : payment.paymentReference ≠ some ""

/-- The fields of a snapshot as they are read. -/
def PaymentSnapshot.snapshotFields (payment : PaymentSnapshot) : SnapshotFields :=
  { id := payment.id
    amount := payment.amount
    authorizedAmount := payment.authorizedAmount
    capturedAmount := payment.capturedAmount
    refundedAmount := payment.refundedAmount
    version := payment.version
    currency := payment.currency.value
    status := payment.status.value
    paymentFlow := payment.paymentFlow.value
    paymentReference := payment.paymentReference
    expiresAt := payment.expiresAt
    declineReason := payment.declineReason }

/-- The enumerations of a snapshot. -/
def PaymentSnapshot.kinds (payment : PaymentSnapshot) : SnapshotKinds :=
  { currency := payment.currency, status := payment.status, paymentFlow := payment.paymentFlow }

theorem currency_value_ne (currency : Currency) : currency.value ≠ "" := by
  cases currency <;> simp [Currency.value]

theorem status_value_ne (status : PaymentStatus) : status.value ≠ "" := by
  cases status <;> simp [PaymentStatus.value]

theorem memberOf_currency (currency : Currency) :
    Json.memberOf Currency.all Currency.value currency.value = some currency := by
  cases currency <;> rfl

theorem memberOf_status (status : PaymentStatus) :
    Json.memberOf PaymentStatus.all PaymentStatus.value status.value = some status := by
  cases status <;> rfl

theorem memberOf_flow (flow : PaymentFlow) :
    Json.memberOf PaymentFlow.all PaymentFlow.value flow.value = some flow := by
  cases flow <;> rfl

theorem memberOf_eventType (eventType : WebhookEventType) :
    Json.memberOf WebhookEventType.all WebhookEventType.value eventType.value = some eventType := by
  cases eventType <;> rfl

/-- The fields of a snapshot are read back, unless a text that must not be empty is. -/
theorem readSnapshotFields_eq {payment : PaymentSnapshot}
    (expiry : ∀ t, payment.expiresAt = some t → ReadsTime fromIsoformat t) :
    readSnapshotFields fromIsoformat payment.fields =
      if payment.id = "" then invalidPayload "id must be a non-empty string"
      else if payment.paymentReference = some "" then
        invalidPayload "payment_reference must be a non-empty string or null"
      else .ok payment.snapshotFields := by
  have hid := requiredString_eq (show Json.get payment.fields "id" = some (.str payment.id) from rfl)
  have hcurrency := requiredString_eq
    (show Json.get payment.fields "currency" = some (.str payment.currency.value) from rfl)
  have hstatus := requiredString_eq
    (show Json.get payment.fields "status" = some (.str payment.status.value) from rfl)
  have hreference := optionalString_eq (show Json.get payment.fields "payment_reference" =
    some (decoded (textValue payment.paymentReference)) from rfl)
  have hexpiry := optionalDatetime_eq (show Json.get payment.fields "expires_at" =
    some (decoded (textValue (payment.expiresAt.map formatDatetime))) from rfl) expiry
  have hreason := declineReason_eq (show Json.get payment.fields "decline_reason" =
    some (decoded (textValue (payment.declineReason.map DeclineReason.value))) from rfl)
  rw [if_neg (currency_value_ne _)] at hcurrency
  rw [if_neg (status_value_ne _)] at hstatus
  unfold readSnapshotFields
  rw [hid]
  split
  · rfl
  · rw [hcurrency, hstatus, hreference, hexpiry, hreason]
    split
    · rfl
    · rfl

theorem checkSnapshot_kinds {eventType : WebhookEventType} {version : Int}
    {payment : PaymentSnapshot} {kinds : SnapshotKinds}
    (h : checkSnapshot eventType version payment.snapshotFields = .ok kinds) :
    kinds = payment.kinds := by
  unfold checkSnapshot PaymentSnapshot.snapshotFields at h
  simp only [memberOf_currency, memberOf_status, memberOf_flow] at h
  split at h
  · cases h
  · split at h
    · cases h
    · split at h
      · cases h
        rfl
      · cases h

/-- A sound snapshot of the event's version passes every check. -/
theorem checkSnapshot_sound {eventType : WebhookEventType} {payment : PaymentSnapshot}
    (sound : payment.Sound)
    (requested : eventType = .confirmationRequested → payment.status = .awaitingPayment) :
    checkSnapshot eventType payment.version payment.snapshotFields = .ok payment.kinds := by
  have hagrees : snapshotAgrees eventType payment.kinds payment.snapshotFields = true := by
    unfold snapshotAgrees
    simp only [Bool.and_eq_true, create_isSome, flowAgrees_iff]
    refine ⟨⟨⟨⟨?_, sound.reference, sound.expiry⟩, ?_⟩, ?_⟩, sound.refunded_nonneg, sound.refunded_le,
      sound.captured_le⟩
    · rw [beq_iff_eq, Bool.eq_iff_iff, decide_eq_true_eq]
      exact sound.declined.symm
    · by_cases hawaiting : payment.status = .awaitingPayment
      · obtain ⟨hflow, ha, hc, hr⟩ := sound.awaiting hawaiting
        simp [PaymentSnapshot.kinds, PaymentSnapshot.snapshotFields, hflow, ha, hc, hr]
      · simp [PaymentSnapshot.kinds, hawaiting]
    · by_cases hrequested : eventType = .confirmationRequested
      · simp [PaymentSnapshot.kinds, requested hrequested]
      · simp [hrequested]
  have hamount := sound.amount_pos
  have hauthorized := sound.authorized_le
  have hversion := sound.version_pos
  unfold checkSnapshot
  rw [if_neg (by show ¬(payment.amount ≤ 0 ∨ payment.authorizedAmount > payment.amount); omega),
    if_neg (by show ¬((payment.version : Int) < 1 ∨ (payment.version : Int) ≠ payment.version); omega)]
  simp only [PaymentSnapshot.snapshotFields, memberOf_currency, memberOf_status, memberOf_flow]
  exact if_pos hagrees

theorem readSnapshot_eq {payment : PaymentSnapshot}
    (created : ReadsTime fromIsoformat payment.createdAt)
    (updated : ReadsTime fromIsoformat payment.updatedAt) :
    readSnapshot fromIsoformat payment.fields payment.snapshotFields payment.kinds =
      if payment.merchantReference = "" then
        invalidPayload "merchant_reference must be a non-empty string"
      else .ok payment := by
  have hmerchant := requiredString_eq (show Json.get payment.fields "merchant_reference" =
    some (.str payment.merchantReference) from rfl)
  have hcreated := requiredDatetime_eq (show Json.get payment.fields "created_at" =
    some (.str (formatDatetime payment.createdAt)) from rfl) created
  have hupdated := requiredDatetime_eq (show Json.get payment.fields "updated_at" =
    some (.str (formatDatetime payment.updatedAt)) from rfl) updated
  unfold readSnapshot
  rw [hmerchant, hcreated, hupdated]
  split
  · rfl
  · rfl

/-- The part of a parse before the snapshot is read. -/
theorem readBody_eq {payload : EventPayload} (h : ReadsBack loads fromIsoformat payload) :
    readBody loads payload.body = .ok payload.fields := by
  unfold readBody
  rw [h.body, decoded_value]
  rfl

theorem requiredEventType_eq (payload : EventPayload) :
    requiredEventType payload.fields = .ok payload.type := by
  have hvalue : payload.type.value ≠ "" := by cases payload.type <;> simp [WebhookEventType.value]
  have htype := requiredString_eq
    (show Json.get payload.fields "type" = some (.str payload.type.value) from rfl)
  rw [if_neg hvalue] at htype
  unfold requiredEventType
  rw [htype]
  simp only [except_ok_bind, memberOf_eventType]

/-- A validated body gives the snapshot that was sent. -/
theorem parse_encoded {payload : EventPayload} {envelope : WebhookEnvelope}
    (back : ReadsBack loads fromIsoformat payload)
    (h : parseWebhookPayload loads fromIsoformat payload.body = .ok envelope) :
    envelope = payload.envelope := by
  unfold parseWebhookPayload at h
  rw [readBody_eq back] at h
  obtain ⟨_, hvalues, h⟩ := except_bind_eq_ok h
  cases hvalues
  obtain ⟨eventId, hid, h⟩ := except_bind_eq_ok h
  rw [requiredString_eq (show Json.get payload.fields "id" = some (.str payload.id) from rfl)] at hid
  split at hid
  · cases hid
  · cases hid
    rw [requiredEventType_eq] at h
    obtain ⟨_, htype, h⟩ := except_bind_eq_ok h
    cases htype
    obtain ⟨_, hversion, h⟩ := except_bind_eq_ok h
    cases hversion
    rw [requiredDatetime_eq (show Json.get payload.fields "created_at" =
      some (.str (formatDatetime payload.createdAt)) from rfl) back.created] at h
    obtain ⟨_, hcreated, h⟩ := except_bind_eq_ok h
    cases hcreated
    obtain ⟨_, hpayment, h⟩ := except_bind_eq_ok h
    rw [show Json.get payload.fields "payment" = some (decoded payload.payment.value) from rfl,
      decoded_paymentValue] at hpayment
    cases hpayment
    rw [readSnapshotFields_eq back.expiry] at h
    obtain ⟨_, hfields, h⟩ := except_bind_eq_ok h
    split at hfields
    · cases hfields
    · split at hfields
      · cases hfields
      · cases hfields
        obtain ⟨kinds, hkinds, h⟩ := except_bind_eq_ok h
        cases checkSnapshot_kinds hkinds
        obtain ⟨_, hread, h⟩ := except_bind_eq_ok h
        rw [readSnapshot_eq back.paymentCreated back.paymentUpdated] at hread
        split at hread
        · cases hread
        · cases hread
          cases h
          rfl

/-- **Every body a producer sends is accepted**, with the snapshot that was sent. -/
theorem parse_producer {payload : EventPayload} (back : ReadsBack loads fromIsoformat payload)
    (hid : payload.id ≠ "") (named : payload.payment.Named) (sound : payload.payment.Sound)
    (version : payload.payment.version = payload.aggregateVersion)
    (requested : payload.type = .confirmationRequested →
      payload.payment.status = .awaitingPayment) :
    parseWebhookPayload loads fromIsoformat payload.body = .ok payload.envelope := by
  have heventId := requiredString_eq
    (show Json.get payload.fields "id" = some (.str payload.id) from rfl)
  have hversion : requiredInteger payload.fields "aggregate_version" =
      .ok (payload.payment.version : Int) := by
    rw [version]
    rfl
  have hcreated := requiredDatetime_eq (show Json.get payload.fields "created_at" =
    some (.str (formatDatetime payload.createdAt)) from rfl) back.created
  have hpayment : requiredMapping (Json.get payload.fields "payment") "payment" =
      .ok payload.payment.fields := by
    rw [show Json.get payload.fields "payment" = some (decoded payload.payment.value) from rfl,
      decoded_paymentValue]
    rfl
  rw [if_neg hid] at heventId
  unfold parseWebhookPayload
  rw [readBody_eq back, except_ok_bind, heventId, except_ok_bind, requiredEventType_eq,
    except_ok_bind, hversion, except_ok_bind, hcreated, except_ok_bind, hpayment, except_ok_bind,
    readSnapshotFields_eq back.expiry, if_neg named.id, if_neg named.paymentReference,
    except_ok_bind, checkSnapshot_sound sound requested, except_ok_bind,
    readSnapshot_eq back.paymentCreated back.paymentUpdated, if_neg named.merchantReference,
    except_ok_bind]
  unfold EventPayload.envelope
  rw [← version]
  rfl

end Reading

end PaymentLab
