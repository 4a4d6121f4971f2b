import PaymentLab.Consumer.Wire

/-!
# Bodies at the boundary

Which exceptions the validation of a body raises, over every JSON value at every field. Each field
helper raises the exception of the validation or none, except for a time: a well-formed text whose
UTC instant leaves the calendar raises another one, and the validation does so exactly on the bodies
where it comes to such a text (`OutOfCalendar`).

The decoders are parameters: `json.loads` may give any value or fault on any bytes, and
`fromisoformat` any time or fault on any text. The condition is about the body, in the order in
which the code looks at it, so that a body with such a time that is refused for an earlier field is
not counted; whether a refusal should have come first is not asked.
-/

namespace PaymentLab

/-! ## The exceptions of a check -/

/-- Every exception is the one of an invalid payload. -/
def Only {α : Type} (x : Except ServiceError α) : Prop :=
  ∀ e, x = .error e → ∃ message, e = .invalidWebhookPayload message

/-- A check that accepts, whatever value it reads. -/
def Accepted {α : Type} (x : Except ServiceError α) : Prop := ∃ a, x = .ok a

section Only

variable {α β : Type}

@[simp] theorem only_ok (a : α) : Only (.ok a) := by
  intro e h
  cases h

@[simp] theorem only_invalidPayload (message : String) : Only (invalidPayload message : Except _ α) := by
  intro e h
  cases h
  exact ⟨message, rfl⟩

/-- A sequence raises what its first check raises, and then what follows raises. -/
theorem not_only_bind {x : Except ServiceError α} {f : α → Except ServiceError β} :
    ¬Only (x >>= f) ↔ ¬Only x ∨ ∃ a, x = .ok a ∧ ¬Only (f a) := by
  cases x with
  | error e =>
    constructor
    · intro h
      refine .inl fun only => h fun e' he' => only e' ?_
      cases he'
      rfl
    · rintro (h | ⟨a, ha, _⟩)
      · refine fun only => h fun e' he' => only e' ?_
        cases he'
        rfl
      · cases ha
  | ok a =>
    rw [except_ok_bind]
    constructor
    · intro h
      exact .inr ⟨a, rfl, h⟩
    · rintro (h | ⟨b, hb, h⟩)
      · exact absurd (only_ok a) h
      · cases hb
        exact h

end Only

/-! ## Fields -/

section Fields

variable {values : List (String × Json)} {name : String}

@[simp] theorem only_requiredMapping (value : Option Json) (name : String) :
    Only (requiredMapping value name) := by
  unfold requiredMapping
  split
  · exact only_ok _
  · exact only_invalidPayload _

@[simp] theorem only_requiredString (values : List (String × Json)) (name : String) :
    Only (requiredString values name) := by
  unfold requiredString
  split
  · split
    · exact only_invalidPayload _
    · exact only_ok _
  · exact only_invalidPayload _

@[simp] theorem only_requiredInteger (values : List (String × Json)) (name : String) :
    Only (requiredInteger values name) := by
  unfold requiredInteger
  split
  · exact only_ok _
  · exact only_invalidPayload _

@[simp] theorem only_optionalString (values : List (String × Json)) (name : String) :
    Only (optionalString values name) := by
  unfold optionalString
  split
  · exact only_ok _
  · exact only_ok _
  · split
    · exact only_invalidPayload _
    · exact only_ok _
  · exact only_invalidPayload _

@[simp] theorem only_declineReason (values : List (String × Json)) : Only (declineReason values) := by
  unfold declineReason
  split
  · exact only_invalidPayload _
  · exact only_ok _
  · split
    · exact only_ok _
    · exact only_invalidPayload _
  · exact only_invalidPayload _

@[simp] theorem only_paymentFlowText (values : List (String × Json)) : Only (paymentFlowText values) := by
  unfold paymentFlowText
  split
  · exact only_ok _
  · exact only_ok _
  · exact only_invalidPayload _

@[simp] theorem only_requiredEventType (values : List (String × Json)) : Only (requiredEventType values) := by
  by_contra h
  rcases not_only_bind.mp h with h | ⟨value, _, h⟩
  · exact h (only_requiredString values "type")
  · apply h
    split
    · exact only_ok _
    · exact only_invalidPayload _

@[simp] theorem only_checkSnapshot (eventType : WebhookEventType) (version : Int) (fields : SnapshotFields) :
    Only (checkSnapshot eventType version fields) := by
  unfold checkSnapshot
  split
  · exact only_invalidPayload _
  · split
    · exact only_invalidPayload _
    · split
      · dsimp only
        split
        · exact only_ok _
        · exact only_invalidPayload _
      · exact only_invalidPayload _

variable (fromIsoformat : String → Except IsoFault Datetime)

/-- A field with the text of a time whose UTC instant leaves the calendar: `fromisoformat` reads the
text, and the conversion to UTC raises `OverflowError`, which is no `ValueError`. -/
def Overflows (values : List (String × Json)) (name : String) : Prop :=
  ∃ text, Json.get values name = some (.str text) ∧ text ≠ "" ∧
    fromIsoformat (replaceZ text) = .error .overflow

theorem not_only_readDatetime (text message : String) :
    ¬Only (readDatetime fromIsoformat text message) ↔
      fromIsoformat (replaceZ text) = .error .overflow := by
  unfold readDatetime
  cases h : fromIsoformat (replaceZ text) with
  | ok time => simp
  | error fault =>
    cases fault with
    | invalid => simp
    | overflow =>
      simp only [iff_true]
      intro only
      obtain ⟨_, heq⟩ := only _ rfl
      cases heq

theorem not_only_requiredDatetime (values : List (String × Json)) (name : String) :
    ¬Only (requiredDatetime fromIsoformat values name) ↔ Overflows fromIsoformat values name := by
  unfold requiredDatetime Overflows
  rw [not_only_bind]
  simp only [not_only_readDatetime, only_requiredString, not_true, false_or]
  unfold requiredString
  constructor
  · rintro ⟨text, hread, hfault⟩
    split at hread
    · next value hget =>
      split at hread
      · cases hread
      · next hne =>
        cases hread
        exact ⟨_, hget, hne, hfault⟩
    · cases hread
  · rintro ⟨text, hget, hne, hfault⟩
    exact ⟨text, by rw [hget]; exact if_neg hne, hfault⟩

theorem not_only_optionalDatetime (values : List (String × Json)) (name : String) :
    ¬Only (optionalDatetime fromIsoformat values name) ↔ Overflows fromIsoformat values name := by
  unfold optionalDatetime Overflows
  dsimp only
  cases hget : Json.get values name with
  | none => simp
  | some value =>
    cases value with
    | str text =>
      by_cases hempty : text = ""
      · simp [hempty]
      · dsimp only
        rw [if_neg hempty]
        have hmap : ∀ x : Except ServiceError Instant, Only (x.map some) ↔ Only x := by
          intro x
          cases x <;> simp [Only, Except.map]
        rw [hmap, not_only_readDatetime]
        simp [hempty]
    | null => simp
    | bool => simp
    | int => simp
    | float => simp
    | arr => simp
    | obj => simp

end Fields

/-! ## Bodies -/

section Bodies

variable (loads : Bytes → Except LoadsFault Json)
  (fromIsoformat : String → Except IsoFault Datetime)

/-- The checks before the time of an event accept it. They are listed in the order the code makes
them, because a refusal by an earlier one keeps a later one from being reached. -/
structure HeadRead (values : List (String × Json)) (eventType : WebhookEventType) (version : Int) :
    Prop where
  id : Accepted (requiredString values "id")
  eventType : requiredEventType values = .ok eventType
  version : requiredInteger values "aggregate_version" = .ok version

/-- The checks before the expiry of a payment accept it, in the order the code makes them. -/
structure BalancesRead (payment : List (String × Json)) : Prop where
  id : Accepted (requiredString payment "id")
  amount : Accepted (requiredInteger payment "amount")
  authorizedAmount : Accepted (requiredInteger payment "authorized_amount")
  capturedAmount : Accepted (requiredInteger payment "captured_amount")
  refundedAmount : Accepted (requiredInteger payment "refunded_amount")
  version : Accepted (requiredInteger payment "version")
  currency : Accepted (requiredString payment "currency")
  status : Accepted (requiredString payment "status")
  paymentFlow : Accepted (paymentFlowText payment)
  paymentReference : Accepted (optionalString payment "payment_reference")

/-- A payment whose times the validation comes to, one of them outside the calendar. There is a
constructor for each of the three times, with the checks that precede it. -/
inductive PaymentOutOfCalendar (payment : List (String × Json)) (eventType : WebhookEventType)
    (version : Int) : Prop
  | expires : BalancesRead payment → Overflows fromIsoformat payment "expires_at" →
      PaymentOutOfCalendar payment eventType version
  | created {fields : SnapshotFields} : readSnapshotFields fromIsoformat payment = .ok fields →
      Accepted (checkSnapshot eventType version fields) →
      Accepted (requiredString payment "merchant_reference") →
      Overflows fromIsoformat payment "created_at" →
      PaymentOutOfCalendar payment eventType version
  | updated {fields : SnapshotFields} : readSnapshotFields fromIsoformat payment = .ok fields →
      Accepted (checkSnapshot eventType version fields) →
      Accepted (requiredString payment "merchant_reference") →
      Accepted (requiredDatetime fromIsoformat payment "created_at") →
      Overflows fromIsoformat payment "updated_at" →
      PaymentOutOfCalendar payment eventType version

/-- A body with a time outside the calendar, everything before it accepted. This is a condition on
the bytes, by the checks the code makes of them; a body refused earlier for another reason does not
meet it, however its times are. -/
def OutOfCalendar (payload : Bytes) : Prop :=
  ∃ values eventType version, loads payload = .ok (.obj values) ∧
    HeadRead values eventType version ∧
    (Overflows fromIsoformat values "created_at" ∨
      ∃ payment, Accepted (requiredDatetime fromIsoformat values "created_at") ∧
        Json.get values "payment" = some (.obj payment) ∧
        PaymentOutOfCalendar fromIsoformat payment eventType version)

variable {loads fromIsoformat}

theorem not_only_readSnapshotFields (payment : List (String × Json)) :
    ¬Only (readSnapshotFields fromIsoformat payment) ↔
      BalancesRead payment ∧ Overflows fromIsoformat payment "expires_at" := by
  unfold readSnapshotFields
  simp only [not_only_bind, not_only_optionalDatetime, only_requiredString, only_requiredInteger,
    only_paymentFlowText, only_optionalString, only_declineReason, only_ok, not_true, false_or,
    and_false, exists_false, or_false]
  constructor
  · rintro ⟨id, hid, amount, ham, authorized, hau, captured, hca, refunded, hre, version, hve,
      currency, hcu, status, hst, flow, hfl, reference, hrf, hoverflow⟩
    exact ⟨⟨⟨id, hid⟩, ⟨amount, ham⟩, ⟨authorized, hau⟩, ⟨captured, hca⟩, ⟨refunded, hre⟩,
      ⟨version, hve⟩, ⟨currency, hcu⟩, ⟨status, hst⟩, ⟨flow, hfl⟩, ⟨reference, hrf⟩⟩, hoverflow⟩
  · rintro ⟨⟨⟨id, hid⟩, ⟨amount, ham⟩, ⟨authorized, hau⟩, ⟨captured, hca⟩, ⟨refunded, hre⟩,
      ⟨version, hve⟩, ⟨currency, hcu⟩, ⟨status, hst⟩, ⟨flow, hfl⟩, ⟨reference, hrf⟩⟩, hoverflow⟩
    exact ⟨id, hid, amount, ham, authorized, hau, captured, hca, refunded, hre, version, hve,
      currency, hcu, status, hst, flow, hfl, reference, hrf, hoverflow⟩

theorem not_only_readSnapshot (payment : List (String × Json)) (fields : SnapshotFields)
    (kinds : SnapshotKinds) :
    ¬Only (readSnapshot fromIsoformat payment fields kinds) ↔
      Accepted (requiredString payment "merchant_reference") ∧
        (Overflows fromIsoformat payment "created_at" ∨
          Accepted (requiredDatetime fromIsoformat payment "created_at") ∧
            Overflows fromIsoformat payment "updated_at") := by
  unfold readSnapshot Accepted
  simp only [not_only_bind, not_only_requiredDatetime, only_requiredString, only_ok, not_true,
    false_or, and_false, exists_false, or_false, exists_and_right]

theorem not_only_readBody (decodes : ∀ body, loads body ≠ .error .limit) (payload : Bytes) :
    Only (readBody loads payload) := by
  unfold readBody
  cases h : loads payload with
  | ok body => exact only_requiredMapping _ _
  | error fault =>
    cases fault with
    | invalid => exact only_invalidPayload _
    | limit => exact absurd h (decodes payload)

theorem requiredMapping_eq_ok {value : Option Json} {name : String}
    {fields : List (String × Json)} :
    requiredMapping value name = .ok fields ↔ value = some (.obj fields) := by
  unfold requiredMapping
  split
  · simp
  · next hne =>
    simp only [invalidPayload, reduceCtorEq, false_iff]
    exact hne fields

theorem readBody_eq_ok {payload : Bytes} {values : List (String × Json)} :
    readBody loads payload = .ok values ↔ loads payload = .ok (.obj values) := by
  unfold readBody
  cases h : loads payload with
  | ok body => simp [requiredMapping_eq_ok]
  | error fault => cases fault <;> simp [invalidPayload]

/-- **Validation raises its one exception, or comes to a time outside the calendar.** Where the
decoder raises only on bodies that are no JSON, the validation of a body gives an envelope or raises
the exception of an invalid payload if and only if it does not come to such a time. -/
theorem payload_checked (decodes : ∀ body, loads body ≠ .error .limit) (payload : Bytes) :
    (∀ e, parseWebhookPayload loads fromIsoformat payload = .error e →
        ∃ message, e = .invalidWebhookPayload message) ↔
      ¬OutOfCalendar loads fromIsoformat payload := by
  show Only _ ↔ _
  rw [← not_iff_not, not_not]
  unfold parseWebhookPayload OutOfCalendar
  simp only [not_only_bind, not_only_requiredDatetime, not_only_readSnapshotFields,
    not_only_readSnapshot, not_only_readBody decodes, only_requiredString, only_requiredEventType,
    only_requiredInteger, only_requiredMapping, only_checkSnapshot, only_ok, not_true, false_or,
    and_false, exists_false, or_false, readBody_eq_ok, requiredMapping_eq_ok]
  constructor
  · rintro ⟨values, hbody, id, hid, eventType, htype, version, hversion, h⟩
    refine ⟨values, eventType, version, hbody, ⟨⟨id, hid⟩, htype, hversion⟩, ?_⟩
    rcases h with hoverflow | ⟨time, htime, payment, hpayment, h⟩
    · exact .inl hoverflow
    · refine .inr ⟨payment, ⟨time, htime⟩, hpayment, ?_⟩
      rcases h with ⟨hbalances, hoverflow⟩ | ⟨fields, hfields, kinds, hkinds, hnamed, h⟩
      · exact .expires hbalances hoverflow
      · rcases h with hoverflow | ⟨hcreated, hoverflow⟩
        · exact .created hfields ⟨kinds, hkinds⟩ hnamed hoverflow
        · exact .updated hfields ⟨kinds, hkinds⟩ hnamed hcreated hoverflow
  · rintro ⟨values, eventType, version, hbody, ⟨⟨id, hid⟩, htype, hversion⟩, h⟩
    refine ⟨values, hbody, id, hid, eventType, htype, version, hversion, ?_⟩
    rcases h with hoverflow | ⟨payment, ⟨time, htime⟩, hpayment, h⟩
    · exact .inl hoverflow
    · refine .inr ⟨time, htime, payment, hpayment, ?_⟩
      cases h with
      | expires hbalances hoverflow => exact .inl ⟨hbalances, hoverflow⟩
      | created hfields hkinds hnamed hoverflow =>
        obtain ⟨kinds, hkinds⟩ := hkinds
        exact .inr ⟨_, hfields, kinds, hkinds, hnamed, .inl hoverflow⟩
      | updated hfields hkinds hnamed hcreated hoverflow =>
        obtain ⟨kinds, hkinds⟩ := hkinds
        exact .inr ⟨_, hfields, kinds, hkinds, hnamed, .inr ⟨hcreated, hoverflow⟩⟩

end Bodies

/-! ## The first year of the calendar -/

/-- A body with the time of an event. -/
def timedText (time : String) : String :=
  "\x7b\"id\":\"evt_1\",\"type\":\"payment.captured\",\"aggregate_version\":1,\"created_at\":\"" ++
    time ++ "\"\x7d"

/-- `json.loads` on it. -/
def timedLoads (time : String) (_ : Bytes) : Except LoadsFault Json :=
  .ok (.obj [("id", .str "evt_1"), ("type", .str "payment.captured"),
    ("aggregate_version", .int 1), ("created_at", .str time)])

/-- Two times as UTC instants: the first hour of 1970, and one before the first year. -/
def timedIsoformat (text : String) : Except IsoFault Datetime :=
  if text = "1970-01-01T01:00:00+01:00" then .ok (.aware 0)
  else if text = "0001-01-01T00:00:00+01:00" then .error .overflow
  else .error .invalid

/-- The event of a captured payment. -/
def ordinaryPayload : EventPayload where
  aggregateVersion := 2
  createdAt := 0
  id := "evt_2"
  payment :=
    { id := "pay_1"
      merchantReference := "order-1"
      amount := 1000
      currency := .usd
      status := .captured
      paymentFlow := .synchronous
      paymentReference := none
      expiresAt := none
      declineReason := none
      authorizedAmount := 1000
      capturedAmount := 1000
      refundedAmount := 0
      version := 2
      createdAt := 0
      updatedAt := 0 }
  type := .captured

/-- `json.loads` on the body of that event. -/
def ordinaryLoads (bytes : Bytes) : Except LoadsFault Json :=
  if bytes = ordinaryPayload.body then .ok (decoded ordinaryPayload.value) else .error .invalid

/-- The one time of that body as a UTC instant. -/
def ordinaryIsoformat (text : String) : Except IsoFault Datetime :=
  if text = replaceZ (formatDatetime 0) then .ok (.aware 0) else .error .invalid

/-- A body with an ordinary time stays within the calendar, so it is refused by the exception of an
invalid payload, if by any; and the body of an event is accepted, so it stays within the calendar. -/
theorem ordinary_checked :
    (∀ e, parseWebhookPayload (timedLoads "1970-01-01T01:00:00+01:00") timedIsoformat
          (timedText "1970-01-01T01:00:00+01:00").toUTF8.toList = .error e →
        ∃ message, e = .invalidWebhookPayload message) ∧
      parseWebhookPayload ordinaryLoads ordinaryIsoformat ordinaryPayload.body =
        .ok ordinaryPayload.envelope ∧
      ¬OutOfCalendar ordinaryLoads ordinaryIsoformat ordinaryPayload.body := by
  have within : ¬OutOfCalendar (timedLoads "1970-01-01T01:00:00+01:00") timedIsoformat
      (timedText "1970-01-01T01:00:00+01:00").toUTF8.toList := by
    rintro ⟨values, eventType, version, hbody, _, ⟨text, hget, _, hfault⟩ | ⟨_, _, hpayment, _⟩⟩
    · cases hbody
      cases hget
      cases (show Except.ok (Datetime.aware 0) = Except.error IsoFault.overflow from hfault)
    · cases hbody
      cases hpayment
  have readsTime : ReadsTime ordinaryIsoformat 0 := by
    simp [ReadsTime, ordinaryIsoformat]
  have parsed : parseWebhookPayload ordinaryLoads ordinaryIsoformat ordinaryPayload.body =
      .ok ordinaryPayload.envelope := by
    have back : ReadsBack ordinaryLoads ordinaryIsoformat ordinaryPayload :=
      ⟨by simp [ordinaryLoads], readsTime, readsTime, readsTime, by simp [ordinaryPayload]⟩
    have sound : ordinaryPayload.payment.Sound := by
      constructor <;> decide
    exact parse_producer back (by decide) ⟨by decide, by decide, by decide⟩ sound rfl (by decide)
  have timedDecodes : ∀ body, timedLoads "1970-01-01T01:00:00+01:00" body ≠ .error .limit := by
    intro body h
    cases h
  have ordinaryDecodes : ∀ body, ordinaryLoads body ≠ .error .limit := by
    intro body
    unfold ordinaryLoads
    split_ifs <;> simp
  refine ⟨(payload_checked timedDecodes _).mpr within, parsed,
    (payload_checked ordinaryDecodes _).mp fun e h => ?_⟩
  rw [parsed] at h
  cases h

/-- A body with a time before the first year is refused by another one. -/
theorem firstYear_raises : ¬∀ e, parseWebhookPayload (timedLoads "0001-01-01T00:00:00+01:00")
    timedIsoformat (timedText "0001-01-01T00:00:00+01:00").toUTF8.toList = .error e →
      ∃ message, e = .invalidWebhookPayload message := by
  intro only
  obtain ⟨_, heq⟩ := only (.runtimeError "date value out of range") rfl
  cases heq

end PaymentLab
