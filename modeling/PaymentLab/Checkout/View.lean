import PaymentLab.Library.JavaScript
import PaymentLab.Persistence.Models

/-!
# What the checkout page shows

`web/checkout/checkout-view.js`: the states of the page and the transitions between them.
`async-messages.js`, `decline-messages.js` and the part of `copy` that the result panel reads, with
the three functions of `checkout.js` that render it.

An accepted answer is trusted without a check: its body is rendered whatever it is. So the panel is a
function of the properties of a JSON value (`PaymentProperties`), and `renderFinalResult` is `none`
where a conversion throws, as for a delayed payment without a date. A `PaymentResponse` always renders
(`renderFinalResult_payment`).

Not modelled: amounts and deadlines in the customer's locale, and properties whose text names an entry
of a message table that is no status and no reason, or one that every object inherits
(`constructor`). The latter are read as texts without an entry.
-/

namespace PaymentLab

open JavaScript

/-! ## States -/

/-- `UI_STATES`. The last three show the result panel. -/
inductive UiState where
  | editing
  | restoring
  | processing
  | final
  | uncertain
  | error
  deriving DecidableEq, Repr

/-- `UI_EVENTS`: what moves the page from one state to another. -/
inductive UiEvent where
  | startRestore
  | restoreEmpty
  | startSubmission
  | paymentResolved
  | resultUncertain
  | showError
  | reset
  deriving DecidableEq, Repr

/-- `transitionUiState`: the state that `allowedTransitions` names; `none` where the call throws. -/
def transitionUiState : UiState → UiEvent → Option UiState
  | .editing, .startRestore => some .restoring
  | .editing, .startSubmission => some .processing
  | .editing, .showError => some .error
  | .editing, .reset => some .editing
  | .restoring, .restoreEmpty => some .editing
  | .restoring, .paymentResolved => some .final
  | .restoring, .resultUncertain => some .uncertain
  | .restoring, .showError => some .error
  | .restoring, .reset => some .editing
  | .processing, .paymentResolved => some .final
  | .processing, .resultUncertain => some .uncertain
  | .processing, .showError => some .error
  | .processing, .reset => some .editing
  | .final, .reset => some .editing
  | .uncertain, .startSubmission => some .processing
  | .uncertain, .reset => some .editing
  | .error, .reset => some .editing
  | _, _ => none

/-- The page waits for an answer. -/
def UiState.busy (state : UiState) : Bool := decide (state = .processing ∨ state = .restoring)

/-- The result panel is shown. -/
def UiState.showsResult (state : UiState) : Bool :=
  decide (state = .final ∨ state = .uncertain ∨ state = .error)

/-! ## The form -/

/-- The options of the outcome control, each of which stands for one simulator token. -/
inductive TestOutcome where
  | approve
  | declineInsufficientFunds
  | declineLimitExceeded
  | awaitConfirmation
  | declineExpired
  | declineVerification
  | declineInvalid
  | declineUnknown
  deriving DecidableEq, Repr

namespace TestOutcome

/-- The value of an option: the token of a request. -/
def token : TestOutcome → String
  | approve => "tok_approved"
  | declineInsufficientFunds => "tok_declined_insufficient_funds"
  | declineLimitExceeded => "tok_declined_limit_exceeded"
  | awaitConfirmation => "tok_awaiting_confirmation"
  | declineExpired => "tok_declined_expired"
  | declineVerification => "tok_declined_verification"
  | declineInvalid => "tok_declined_invalid"
  | declineUnknown => "tok_declined_unknown"

/-- Every option, in the order of the page. -/
def all : List TestOutcome :=
  [approve, declineInsufficientFunds, declineLimitExceeded, awaitConfirmation, declineExpired,
    declineVerification, declineInvalid, declineUnknown]

end TestOutcome

/-- The controls of the simulator, with the texts as they are typed. -/
structure Form where
  reference : JsString
  amount : JsString
  currency : Currency
  outcome : TestOutcome
  deriving DecidableEq, Repr

/-! ## Messages -/

/-- The language of the page, which decides its texts and nothing else. -/
inductive Language where
  | en
  | ja
  deriving DecidableEq, Repr

/-- The entries of `copy` that the result panel reads. -/
inductive CopyKey where
  | authorized
  | declined
  | authorizedStatus
  | declinedStatus
  | authorizedGuidance
  | uncertain
  | uncertainGuidance
  | generalError
  | missingResult
  deriving DecidableEq, Repr

/-- `copy`. -/
def copy : Language → CopyKey → String
  | .en, .authorized => "Payment authorized"
  | .en, .declined => "Payment declined"
  | .en, .authorizedStatus => "Authorized"
  | .en, .declinedStatus => "Declined"
  | .en, .authorizedGuidance => "The synthetic authorization completed successfully."
  | .en, .uncertain => "The result is uncertain"
  | .en, .uncertainGuidance =>
    "Retry with the same details. A new payment request is not needed."
  | .en, .generalError => "We could not complete the request. Please try again."
  | .en, .missingResult => "The saved payment result is no longer available."
  | .ja, .authorized => "決済が承認されました"
  | .ja, .declined => "決済が拒否されました"
  | .ja, .authorizedStatus => "承認済み"
  | .ja, .declinedStatus => "拒否"
  | .ja, .authorizedGuidance => "テスト用の承認が完了しました。"
  | .ja, .uncertain => "結果を確認できません"
  | .ja, .uncertainGuidance =>
    "同じ内容で再試行してください。新しい決済を作成する必要はありません。"
  | .ja, .generalError => "処理を完了できませんでした。もう一度お試しください。"
  | .ja, .missingResult => "保存された決済結果を確認できません。"

/-- The entries of `asyncCopy` for a status: title and guidance. -/
def asyncCopy : Language → PaymentStatus → Option (String × String)
  | .en, .awaitingPayment => some ("Waiting for payment confirmation",
    "Keep this reference. This test payment is waiting for confirmation. Do not make a real payment.")
  | .en, .expired => some ("Payment request expired",
    "This request has expired. If you already paid, contact support with your reference before trying again. This simulator does not process real payments.")
  | .en, .captured => some ("Payment confirmed",
    "This test payment has been confirmed. No real money was processed.")
  | .en, .cancelled => some ("Payment request cancelled",
    "This request was cancelled. If you already paid, contact support with your reference.")
  | .en, .partiallyRefunded => some ("Payment partially refunded",
    "Part of this test payment was refunded. No real money was processed.")
  | .en, .refunded => some ("Payment refunded",
    "This test payment was refunded. No real money was processed.")
  | .ja, .awaitingPayment => some ("お支払いの確認待ちです",
    "この参照番号を控えてください。このテスト決済は確認待ちです。実際の支払いはしないでください。")
  | .ja, .expired => some ("支払いリクエストの期限が切れました",
    "このリクエストは期限切れです。すでに支払いをした場合は、再度支払う前に参照番号を添えてサポートにお問い合わせください。このシミュレーターでは実際の決済は行いません。")
  | .ja, .captured => some ("お支払いを確認しました",
    "このテスト決済の確認が完了しました。実際のお金は処理されていません。")
  | .ja, .cancelled => some ("支払いリクエストはキャンセルされました",
    "このリクエストはキャンセルされました。すでに支払いをした場合は、参照番号を添えてサポートにお問い合わせください。")
  | .ja, .partiallyRefunded => some ("一部返金済みです",
    "このテスト決済の一部を返金しました。実際のお金は処理されていません。")
  | .ja, .refunded => some ("返金済みです",
    "このテスト決済を返金しました。実際のお金は処理されていません。")
  | _, _ => none

/-- `declineGuidance`: the texts by reason, in a language. -/
def declineGuidance : Language → DeclineReason → String
  | .en, .insufficientFunds =>
    "Available funds may be insufficient. Check the balance or try another payment method."
  | .en, .limitExceeded =>
    "The amount may exceed a permitted limit. Try a permitted amount or another payment method."
  | .en, .expiredPaymentMethod =>
    "This payment method may have expired. Update it or try another payment method."
  | .en, .verificationFailed =>
    "Some payment information could not be verified. Check the information and try again."
  | .en, .invalidPaymentMethod =>
    "This payment method could not be used. Check it or try another payment method."
  | .en, .unknown =>
    "The payment could not be completed. Try again later or use another payment method."
  | .ja, .insufficientFunds =>
    "利用可能残高が不足している可能性があります。残高を確認するか、別の決済方法をお試しください。"
  | .ja, .limitExceeded =>
    "利用限度額を超えている可能性があります。利用可能な金額に変更するか、別の決済方法をお試しください。"
  | .ja, .expiredPaymentMethod =>
    "この決済方法の有効期限が切れている可能性があります。情報を更新するか、別の決済方法をお試しください。"
  | .ja, .verificationFailed =>
    "一部の決済情報を確認できませんでした。入力内容を確認して、もう一度お試しください。"
  | .ja, .invalidPaymentMethod =>
    "この決済方法は利用できませんでした。内容を確認するか、別の決済方法をお試しください。"
  | .ja, .unknown =>
    "決済を完了できませんでした。時間をおいて再試行するか、別の決済方法をお試しください。"

/-! ## Accepted bodies -/

/-- A property of a JSON value, as the page reads it: it is not there, it is `null`, it is a text, or
it is something else. Of the last only its `String(value)` matters, which is `none` where the conversion
throws, as it does for an object whose own `toString` is no function. -/
inductive Property where
  | absent
  | null
  | text (value : JsString)
  | other (string : Option JsString)
  deriving DecidableEq, Repr

namespace Property

/-- `String(value)`; `none` where it throws. A key of a table and an entry of the session storage are
converted so. -/
def string : Property → Option JsString
  | absent => some (js "undefined")
  | null => some (js "null")
  | text value => some value
  | other string => string

/-- What an element shows after `element.textContent = value`: nothing for `null` and for a property
that is not there; `none` where the conversion throws. -/
def content : Property → Option JsString
  | absent | null => some []
  | text value => some value
  | other string => string

/-- A field that is a text or `null`. -/
def ofOption : Option JsString → Property
  | some value => text value
  | none => null

end Property

/-- What `renderFinalResult` reads of an accepted body. `expiresAt` is the instant of
`new Date(expires_at)`, `none` where that is no date and `formatDeadline` throws. -/
structure PaymentProperties where
  id : Property
  merchantReference : Property
  status : Property
  paymentFlow : Property
  paymentReference : Property
  expiresAt : Option Instant
  declineReason : Property
  deriving DecidableEq, Repr

/-- `PaymentResponse`, the fields the page reads. -/
structure PaymentResponse where
  id : JsString
  merchantReference : JsString
  amount : Nat
  currency : Currency
  status : PaymentStatus
  paymentFlow : PaymentFlow
  paymentReference : Option JsString
  expiresAt : Option Instant
  declineReason : Option DeclineReason
  deriving DecidableEq, Repr

/-- The properties of a payment. `new Date(null)` is the epoch. -/
def PaymentResponse.properties (p : PaymentResponse) : PaymentProperties :=
  { id := .text p.id
    merchantReference := .text p.merchantReference
    status := .text (js p.status.value)
    paymentFlow := .text (js p.paymentFlow.value)
    paymentReference := .ofOption p.paymentReference
    expiresAt := some (p.expiresAt.getD 0)
    declineReason := .ofOption (p.declineReason.map fun reason => js reason.value) }

/-- An accepted JSON value other than `null` that is not a `PaymentResponse`, by what the page reads of
it. `controls` is the form after `populateControlsFromPayment`, `none` where that throws; a control
left without a choice stands at its first option there. Nothing ties the fields to one another: what
holds for every `OtherJson` holds for every value the server could send. -/
structure OtherJson where
  properties : PaymentProperties
  controls : Option Form
  deriving DecidableEq, Repr

/-- `{}`: every property is `undefined`. -/
def OtherJson.empty : OtherJson :=
  { properties :=
      { id := .absent
        merchantReference := .absent
        status := .absent
        paymentFlow := .absent
        paymentReference := .absent
        expiresAt := none
        declineReason := .absent }
    controls := some
      { reference := js "undefined", amount := js "NaN.NaN", currency := .jpy, outcome := .approve } }

/-- The object the page keeps as `currentPayment`. -/
inductive PaymentBody where
  | payment (p : PaymentResponse)
  | other (value : OtherJson)
  deriving DecidableEq, Repr

namespace PaymentBody

/-- What the page reads of the object. -/
def properties : PaymentBody → PaymentProperties
  | payment p => p.properties
  | other value => value.properties

/-- `String(body.id)`, as the session storage would keep it; `none` where the conversion throws. -/
def idText (body : PaymentBody) : Option JsString := body.properties.id.string

@[simp] theorem properties_payment (p : PaymentResponse) : (payment p).properties = p.properties := rfl

@[simp] theorem idText_payment (p : PaymentResponse) : (payment p).idText = some p.id := rfl

end PaymentBody

/-! ## The result panel -/

/-- The status that a text names. -/
def namedStatus (text : JsString) : Option PaymentStatus :=
  PaymentStatus.all.find? fun status => decide (js status.value = text)

/-- The decline reason that a text names. -/
def namedReason (text : JsString) : Option DeclineReason :=
  DeclineReason.all.find? fun reason => decide (js reason.value = text)

/-- `guidanceForDecline`: the text under a declined payment, by its reason and, without one that is
known, a general text; `none` where it throws. -/
def guidanceForDecline (reason : Property) (language : Language) : Option String :=
  reason.string.map fun key => declineGuidance language ((namedReason key).getD .unknown)

/-- The details of a payment in the panel: identity, reference and status. -/
structure PaymentDetails where
  paymentId : JsString
  reference : JsString
  status : String
  deriving DecidableEq, Repr

/-- The rendered result panel: what it says, and which of its buttons are there and can be pressed. -/
structure ResultPanel where
  /-- `dataset.result` -/
  result : String
  /-- the text of `result-status` -/
  mark : String
  title : String
  guidance : String
  details : Option PaymentDetails
  /-- the reference and deadline of a delayed payment -/
  delayedDetails : Option (JsString × Instant)
  retryShown : Bool
  newPaymentShown : Bool
  newPaymentDisabled : Bool
  refreshShown : Bool
  refreshDisabled : Bool
  refreshWarning : Bool
  deriving DecidableEq, Repr

/-- `["CAPTURED", "PARTIALLY_REFUNDED", "REFUNDED"].includes(status)`. -/
def isSettledSuccess (status : Property) : Bool :=
  decide (status ∈ [PaymentStatus.captured, .partiallyRefunded, .refunded].map fun success =>
    Property.text (js success.value))

/-- `currentPayment.status === "AUTHORIZED"`. -/
def PaymentProperties.authorized (payment : PaymentProperties) : Bool :=
  decide (payment.status = .text (js PaymentStatus.authorized.value))

/-- `currentPayment.payment_flow === "ASYNCHRONOUS_CONFIRMATION"`. -/
def PaymentProperties.delayed (payment : PaymentProperties) : Bool :=
  decide (payment.paymentFlow = .text (js PaymentFlow.asynchronousConfirmation.value))

/-- The guidance under an authorized or declined result; `none` where it throws. -/
def resultGuidance (language : Language) (payment : PaymentProperties) : Option String :=
  if payment.authorized then some (copy language .authorizedGuidance)
  else guidanceForDecline payment.declineReason language

/-- The rows of a delayed payment, and none for another; `none` where they throw. -/
def delayedRows (payment : PaymentProperties) : Option (Option (JsString × Instant)) :=
  if payment.delayed then
    payment.paymentReference.content.bind fun reference =>
      payment.expiresAt.map fun deadline => some (reference, deadline)
  else some none

/-- `renderFinalResult`; `none` where it throws. The status decides by exclusion: what is neither
authorized nor in `asyncCopy` is shown as declined. -/
def renderFinalResult (language : Language) (payment : PaymentProperties)
    (refreshing refreshFailed : Bool) : Option ResultPanel := do
  let guidance ← resultGuidance language payment
  let paymentId ← payment.id.content
  let reference ← payment.merchantReference.content
  let status ← payment.status.string
  let delayedDetails ← delayedRows payment
  let authorized := payment.authorized
  let statusCopy := (namedStatus status).bind (asyncCopy language)
  let success := isSettledSuccess payment.status
  some
    { result :=
        if statusCopy.isSome then (if success then "success" else "uncertain")
        else if authorized then "success" else "decline"
      mark :=
        if statusCopy.isSome then (if success then "✓" else "i")
        else if authorized then "✓" else "×"
      title := match statusCopy with
        | some (title, _) => title
        | none => if authorized then copy language .authorized else copy language .declined
      guidance := match statusCopy with
        | some (_, guidance) => guidance
        | none => guidance
      details := some
        { paymentId := paymentId
          reference := reference
          status := match statusCopy with
            | some (title, _) => title
            | none => if authorized then copy language .authorizedStatus
              else copy language .declinedStatus }
      delayedDetails := delayedDetails
      retryShown := false
      newPaymentShown := true
      newPaymentDisabled := refreshing
      refreshShown := payment.delayed
      refreshDisabled := refreshing
      refreshWarning := refreshFailed }

/-- The buttons of a final result, whatever body it shows. -/
theorem renderFinalResult_controls {language : Language} {payment : PaymentProperties}
    {refreshing refreshFailed : Bool} {panel : ResultPanel}
    (h : renderFinalResult language payment refreshing refreshFailed = some panel) :
    panel.retryShown = false ∧ panel.newPaymentDisabled = refreshing ∧
      panel.refreshDisabled = refreshing := by
  simp only [renderFinalResult, Option.bind_eq_bind, Option.bind_eq_some_iff, Option.some.injEq] at h
  obtain ⟨_, _, _, _, _, _, _, _, _, _, rfl⟩ := h
  exact ⟨rfl, rfl, rfl⟩

/-- `renderUncertainResult`: the panel of an open submission, with the retry on it and no payment. -/
def renderUncertainResult (language : Language) : ResultPanel :=
  { result := "uncertain"
    mark := "?"
    title := copy language .uncertain
    guidance := copy language .uncertainGuidance
    details := none
    delayedDetails := none
    retryShown := true
    newPaymentShown := false
    newPaymentDisabled := false
    refreshShown := false
    refreshDisabled := false
    refreshWarning := false }

/-- `renderErrorResult`: the panel of an error, with its text and the way to a new payment. -/
def renderErrorResult (language : Language) (errorKey : CopyKey) : ResultPanel :=
  { result := "error"
    mark := "!"
    title := copy language .generalError
    guidance := copy language errorKey
    details := none
    delayedDetails := none
    retryShown := false
    newPaymentShown := true
    newPaymentDisabled := false
    refreshShown := false
    refreshDisabled := false
    refreshWarning := false }

/-! ## Declined and authorized results -/

/-- The declined result: its mark and its title. -/
def ResultPanel.showsDeclined (panel : ResultPanel) (language : Language) : Prop :=
  panel.result = "decline" ∧ panel.title = copy language .declined

/-- The authorized result: its mark and its title. -/
def ResultPanel.showsAuthorized (panel : ResultPanel) (language : Language) : Prop :=
  panel.result = "success" ∧ panel.title = copy language .authorized

/-- The statuses with an entry of their own are all but the two results of an authorization. -/
theorem asyncCopy_eq_none (language : Language) (status : PaymentStatus) :
    asyncCopy language status = none ↔ status = .authorized ∨ status = .declined := by
  cases language <;> cases status <;> simp [asyncCopy]

/-- No entry for a status has the title of an authorization's result. -/
theorem asyncCopy_title {language : Language} {status : PaymentStatus} {title guidance : String}
    (h : asyncCopy language status = some (title, guidance)) :
    title ≠ copy language .authorized ∧ title ≠ copy language .declined := by
  cases language <;> cases status <;> simp [asyncCopy] at h <;> obtain ⟨rfl, _⟩ := h <;> decide

theorem namedStatus_value (status : PaymentStatus) : namedStatus (js status.value) = some status := by
  cases status <;> decide +kernel

theorem js_status_inj {a b : PaymentStatus} (h : js a.value = js b.value) : a = b := by
  have hnamed := namedStatus_value a
  rw [h, namedStatus_value] at hnamed
  exact (Option.some.inj hnamed).symm

theorem PaymentResponse.properties_authorized (p : PaymentResponse) :
    p.properties.authorized = decide (p.status = .authorized) := by
  unfold PaymentProperties.authorized
  rw [decide_eq_decide]
  constructor
  · intro h
    exact js_status_inj (Property.text.inj h)
  · intro h
    simp [PaymentResponse.properties, h]

/-- No property of a payment throws. -/
theorem PaymentResponse.properties_readable (language : Language) (p : PaymentResponse) :
    (∃ guidance, resultGuidance language p.properties = some guidance) ∧
      ∃ rows, delayedRows p.properties = some rows := by
  constructor
  · unfold resultGuidance guidanceForDecline
    split_ifs
    · exact ⟨_, rfl⟩
    · cases h : p.declineReason <;> exact ⟨_, by simp only [properties, h]; rfl⟩
  · unfold delayedRows
    split_ifs
    · cases h : p.paymentReference <;> exact ⟨_, by simp only [properties, h]; rfl⟩
    · exact ⟨none, rfl⟩

/-- **A payment always renders**, and is shown as declined exactly when it is, and as authorized exactly
when it is. The page infers the decline by exclusion: this is where the eight statuses are told
apart. -/
theorem renderFinalResult_payment (language : Language) (p : PaymentResponse)
    (refreshing refreshFailed : Bool) :
    ∃ panel, renderFinalResult language p.properties refreshing refreshFailed = some panel ∧
      (panel.showsDeclined language ↔ p.status = .declined) ∧
      (panel.showsAuthorized language ↔ p.status = .authorized) := by
  have htitles : copy language .authorized ≠ copy language .declined := by
    cases language <;> decide
  obtain ⟨⟨guidance, hguidance⟩, rows, hrows⟩ := p.properties_readable language
  have hid : p.properties.id.content = some p.id := rfl
  have hreference : p.properties.merchantReference.content = some p.merchantReference := rfl
  have hstatus : p.properties.status.string = some (js p.status.value) := rfl
  unfold renderFinalResult ResultPanel.showsDeclined ResultPanel.showsAuthorized
  simp only [hguidance, hid, hreference, hstatus, hrows, namedStatus_value, p.properties_authorized,
    Option.bind_eq_bind, Option.bind_some, Option.some.injEq, exists_eq_left']
  cases hcopy : asyncCopy language p.status with
  | none =>
    rcases (asyncCopy_eq_none language p.status).mp hcopy with hstatus | hstatus <;>
      simp [hstatus, htitles, htitles.symm]
  | some entry =>
    obtain ⟨title, guidance⟩ := entry
    obtain ⟨hauthorized, hdeclined⟩ := asyncCopy_title hcopy
    have hother : p.status ≠ .declined ∧ p.status ≠ .authorized := by
      constructor <;> intro h <;> simp [h, asyncCopy] at hcopy
    simp [hother, hauthorized, hdeclined]

/-- `{}` is shown as declined. -/
theorem renderFinalResult_empty (language : Language) (refreshing refreshFailed : Bool) :
    ∃ panel, renderFinalResult language OtherJson.empty.properties refreshing refreshFailed =
      some panel ∧ panel.showsDeclined language := by
  refine ⟨_, rfl, ?_⟩
  cases language <;> exact ⟨rfl, rfl⟩

end PaymentLab
