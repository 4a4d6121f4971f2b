import PaymentLab.Checkout.Money
import PaymentLab.Checkout.View
import PaymentLab.Library.Machine

/-!
# The checkout page

`web/checkout/checkout.js`: one browser tab with its session storage. Between two events the page is
idle, so an event handler runs to its next `await`: a `fetch` leaves a pending request, and the
answer to it runs the rest of the handler. A reload ends the page and its pending requests, keeps the
session storage, and runs the start of the script again.

The server is not assumed to answer anything in particular: an accepted answer carries a payment, of
whatever identity, another JSON value, `null`, or a body that is no JSON. What an answer makes throw is
caught where the handler catches it (`settleSubmit`, `settleRestore`, `settleRefresh`), and a rendering
that throws does so with the state already set (`resolve`). After that the panel shows what it showed
before, which the model does not keep: the buttons that may stand there then are all taken as enabled
(`panelThrew`).

The texts a customer types are kept as they are in the fields. What the page writes into a field is
what it read from one, or digits. A session storage that refuses an entry is not modelled.
-/

namespace PaymentLab

open JavaScript

/-! ## The form -/

/-- `storedOutcomeByToken`. -/
def storedOutcomeByToken : TestOutcome → String
  | .approve => "approve"
  | .awaitConfirmation => "await-confirmation"
  | .declineInsufficientFunds => "decline-insufficient-funds"
  | .declineLimitExceeded => "decline-limit-exceeded"
  | .declineExpired => "decline-expired"
  | .declineVerification => "decline-verification"
  | .declineInvalid => "decline-invalid"
  | .declineUnknown => "decline-unknown"

/-- `tokenByStoredOutcome`. -/
def tokenByStoredOutcome (outcome : JsString) : Option TestOutcome :=
  TestOutcome.all.find? fun option => decide (js (storedOutcomeByToken option) = outcome)

/-- `tokenByDeclineReason`. -/
def tokenByDeclineReason : DeclineReason → TestOutcome
  | .insufficientFunds => .declineInsufficientFunds
  | .limitExceeded => .declineLimitExceeded
  | .expiredPaymentMethod => .declineExpired
  | .verificationFailed => .declineVerification
  | .invalidPaymentMethod => .declineInvalid
  | .unknown => .declineUnknown

/-- `elements.form.reset()`: the controls as the page was delivered with them. -/
def Form.initial : Form :=
  { reference := [], amount := [], currency := .jpy, outcome := .approve }

/-- The errors of `validateForm`, of which at most one is shown for each field. -/
inductive FieldError where
  | referenceRequired
  | referenceTooLong
  | amountRequired
  | amountInvalid
  deriving DecidableEq, Repr

/-- The errors of a form, in the order they are listed. -/
def Form.errors (form : Form) : List FieldError :=
  (if form.reference = [] then [.referenceRequired]
    else if 64 < codePoints form.reference then [.referenceTooLong]
    else []) ++
  (if form.amount = [] then [.amountRequired]
    else if (parseMinorUnits form.amount form.currency).isNone then [.amountInvalid]
    else [])

/-! ## Session storage -/

/-- A text under `activeSubmission`: the value it renders, or one that is not JSON. The page wrote it
itself, but any script of its origin can. -/
inductive JsonText where
  | value (v : JsValue)
  | malformed

/-- The entries of the page in `sessionStorage`. They are what a reload keeps; everything else of the
tab begins anew. -/
structure SessionStorage where
  activeKey : Option JsString
  activeSubmission : Option JsonText
  lastPaymentId : Option JsString

/-- The storage of a new tab, and of one whose entries were removed. -/
def SessionStorage.empty : SessionStorage :=
  { activeKey := none, activeSubmission := none, lastPaymentId := none }

/-- An entry that is there and not empty: what `if (text)` tests. -/
def truthy : Option JsString → Option JsString
  | some (u :: units) => some (u :: units)
  | _ => none

/-- A decoded submission, as it stood when it was sent. The token is not kept, only the name of the
outcome. -/
structure Submission where
  merchantReference : JsString
  amount : Nat
  currency : Currency
  outcome : TestOutcome
  deriving DecidableEq, Repr

/-- `activeSubmission`: the packet of a submission, from which a reload fills the form again. The
amount is kept in minor units, so that it is displayed again in the customer's terms. -/
def activeSubmission (form : Form) (amount : Nat) : JsValue :=
  .object
    [("merchantReference", .string form.reference),
      ("amount", .number (some amount)),
      ("currency", .string (js form.currency.value)),
      ("outcome", .string (js (storedOutcomeByToken form.outcome)))]

/-- `Object.hasOwn(tokenByStoredOutcome, outcome)` with the option it names: an array of one value
is a property name like that value. -/
def storedOutcome : JsValue → Option TestOutcome
  | .string outcome => tokenByStoredOutcome outcome
  | .array [value] => storedOutcome value
  | _ => none

/-- `["JPY", "USD"].includes(currency)`. -/
def storedCurrency : JsValue → Option Currency
  | .string text => [Currency.jpy, .usd].find? fun c => decide (js c.value = text)
  | _ => none

/-- The checks of `readActiveSubmission` on a decoded value. -/
def decodeSubmission (submission : JsValue) : Option Submission := do
  let .string merchantReference ← submission.property "merchantReference" | none
  if merchantReference = [] ∨ 64 < codePoints merchantReference then none
  let .number (some amount) ← submission.property "amount" | none
  if amount ≤ 0 ∨ 999999999 < amount then none
  let currency ← storedCurrency (← submission.property "currency")
  let outcome ← storedOutcome (← submission.property "outcome")
  some
    { merchantReference := merchantReference
      amount := amount.toNat
      currency := currency
      outcome := outcome }

/-- `readActiveSubmission`. -/
def readActiveSubmission (storage : SessionStorage) : Option Submission :=
  match storage.activeSubmission with
  | some (.value submission) => decodeSubmission submission
  | _ => none

/-! ## Requests and answers -/

/-- A `POST /payments`: the idempotency key and the JSON body. Two requests are the same to the
server exactly when they are equal. -/
structure PaymentRequest where
  key : JsString
  merchantReference : JsString
  amount : Nat
  currency : Currency
  paymentMethodToken : String
  deriving DecidableEq, Repr

/-- A `fetch` without an answer yet. A reload forgets it, answered or not. -/
inductive Fetch where
  | submit (request : PaymentRequest)
  | restore (paymentId : JsString)
  | refresh (paymentId : JsString)
  deriving DecidableEq, Repr

/-- The body of a refused request: its `code` where it has one (a body that cannot be decoded is taken
as `{}`), or JSON `null`. -/
inductive ErrorBody where
  | code (text : Option String)
  | null
  deriving DecidableEq, Repr

/-- What `response.json()` gives for an accepted answer. It is not checked by the page, so a value
may be anything. -/
inductive AcceptedBody where
  /-- it rejects: the body is no JSON -/
  | undecodable
  | null
  | value (body : PaymentBody)
  deriving DecidableEq, Repr

/-- `response.json().catch(() => ({}))`; `none` is `null`. -/
def AcceptedBody.orEmpty : AcceptedBody → Option PaymentBody
  | undecodable => some (.other .empty)
  | null => none
  | value body => some body

/-- What a `fetch` and the decoding of its body give: a rejection, an accepted status with its body, or
another status. -/
inductive FetchAnswer where
  | networkError
  | ok (body : AcceptedBody)
  | notOk (status : Nat) (body : ErrorBody)
  deriving DecidableEq, Repr

/-- `encodeURIComponent` of a text does not throw: its surrogates are paired. -/
def isEncodable : JsString → Bool
  | [] => true
  | [u] => !(isHigh u || isLow u)
  | a :: b :: rest =>
    if isHigh a then isLow b && isEncodable rest else !isLow a && isEncodable (b :: rest)

/-! ## The tab -/

/-- The page in memory, the session storage, and every `POST` that left the tab. The last is a record
for the laws: the page itself does not keep it. -/
structure Tab where
  uiState : UiState
  language : Language
  currentPayment : Option PaymentBody
  currentErrorKey : CopyKey
  refreshing : Bool
  refreshFailed : Bool
  errors : List FieldError
  form : Form
  pending : List Fetch
  storage : SessionStorage
  posted : List PaymentRequest

namespace Tab

/-- `moveUi`: the state after an event; `none` where it throws, because the event leads nowhere from
the state. What it renders is read off the state (`panel`). -/
def moveUi (event : UiEvent) (tab : Tab) : Option Tab :=
  (transitionUiState tab.uiState event).map fun state => { tab with uiState := state }

/-- `moveUi` as the last act of a handler: what it throws is not handled. -/
def move (event : UiEvent) (tab : Tab) : Tab := (tab.moveUi event).getD tab

/-- `clearActiveSubmission`: the key and the packet are removed from the session storage, and the
payment last shown is left. -/
def clearActiveSubmission (tab : Tab) : Tab :=
  { tab with storage := { tab.storage with activeKey := none, activeSubmission := none } }

/-- `validateForm`: the errors it shows, and the amount where there are none. -/
def validateForm (tab : Tab) : Tab × Option Nat :=
  ({ tab with errors := tab.form.errors },
    if tab.form.errors = [] then parseMinorUnits tab.form.amount tab.form.currency else none)

end Tab

/-- The generated part of a key: `crypto.randomUUID()`. -/
abbrev Uuid := { text : JsString // text.length = 36 }

/-- `activeIdempotencyKey`: the key it answers, the stored one where there is one and otherwise a new
one of a drawn identifier. The caller stores it. -/
def activeIdempotencyKey (uuid : Uuid) (storage : SessionStorage) : JsString :=
  (truthy storage.activeKey).getD (js "checkout-" ++ uuid.val)

namespace Tab

/-- `submitPayment` up to its `fetch`: a form with errors is not sent, and neither is one in a state
from which no submission starts. The key and the packet are stored before the request leaves. -/
def submitPayment (uuid : Uuid) (tab : Tab) : Tab :=
  match tab.validateForm with
  | (tab, none) => tab
  | (tab, some amount) =>
    match tab.moveUi .startSubmission with
    | none => tab
    | some tab =>
      let key := activeIdempotencyKey uuid tab.storage
      let request : PaymentRequest :=
        { key := key
          merchantReference := tab.form.reference
          amount := amount
          currency := tab.form.currency
          paymentMethodToken := tab.form.outcome.token }
      { tab with
        storage :=
          { tab.storage with
            activeKey := some key
            activeSubmission := some (.value (activeSubmission tab.form amount)) }
        pending := tab.pending ++ [.submit request]
        posted := tab.posted ++ [request] }

/-- `renderUi`: the result panel, where it is shown and its rendering does not throw. -/
def panel (tab : Tab) : Option ResultPanel :=
  match tab.uiState with
  | .final => tab.currentPayment.bind fun body =>
    renderFinalResult tab.language body.properties tab.refreshing tab.refreshFailed
  | .uncertain => some (renderUncertainResult tab.language)
  | .error => some (renderErrorResult tab.language tab.currentErrorKey)
  | _ => none

/-- The final state in which the rendering throws: the state says that there is a result, and the
panel has none. -/
def panelThrew (tab : Tab) : Bool := decide (tab.uiState = .final) && tab.panel.isNone

/-- `moveUi(PAYMENT_RESOLVED)` with the `catch` of its handler: the state is set before the panel is
rendered, so a rendering that throws is caught in the final state. -/
def resolve (failed : Tab → Tab) (tab : Tab) : Tab :=
  match tab.moveUi .paymentResolved with
  | none => failed tab
  | some tab => if tab.panelThrew then failed tab else tab

/-- The `catch` of `submitPayment`: the page is uncertain and shows no payment. The session storage
stays as it was when the exception was thrown. -/
def submissionFailed (tab : Tab) : Tab :=
  move .resultUncertain { tab with currentPayment := none }

/-- `sessionStorage.setItem(lastPaymentStorageName, body.id)` and `currentPayment = body`; `none` where
reading the identity throws, of `null` as of one without a text. -/
def keepPayment (body : Option PaymentBody) (tab : Tab) : Option Tab := do
  let body ← body
  let id ← body.idText
  some
    { tab with
      storage := { tab.storage with lastPaymentId := some id }
      currentPayment := some body }

/-- `submitPayment` from the answer on. An accepted answer clears the submission before anything of its
body is read: where the identity cannot be read, the page is uncertain of a submission that it no longer
holds. To read the code of a refusal that is `null` throws too. -/
def settleSubmit (answer : FetchAnswer) (tab : Tab) : Tab :=
  match answer with
  | .networkError => tab.submissionFailed
  | .ok body =>
    let tab := tab.clearActiveSubmission
    match tab.keepPayment body.orEmpty with
    | none => tab.submissionFailed
    | some tab => tab.resolve submissionFailed
  | .notOk status body =>
    if status = 504 ∧ body = .null then tab.submissionFailed
    else if status = 504 ∧ body = .code (some "payment_timeout") then
      let tab := { tab with currentPayment := none }
      (tab.moveUi .resultUncertain).getD tab.submissionFailed
    else
      let tab := tab.clearActiveSubmission
      let tab := { tab with currentPayment := none, currentErrorKey := .generalError }
      (tab.moveUi .showError).getD tab.submissionFailed

/-- `populateControlsFromPayment` of a payment: the form it leaves. -/
def populateControlsFromPayment (payment : PaymentResponse) : Form :=
  { reference := payment.merchantReference
    amount := displayAmountFromMinorUnits payment.amount payment.currency
    currency := payment.currency
    outcome :=
      if payment.paymentFlow = .asynchronousConfirmation then .awaitConfirmation
      else if payment.status ≠ .declined then .approve
      else (payment.declineReason.map tokenByDeclineReason).getD .declineUnknown }

/-- The form that `populateControlsFromPayment` leaves; `none` where it throws. -/
def controlsOf : PaymentBody → Option Form
  | .payment p => some (populateControlsFromPayment p)
  | .other value => value.controls

/-- The `catch` of `restorePayment`: the general error, in whatever state the exception was thrown. -/
def restoreFailed (tab : Tab) : Tab := move .showError { tab with currentErrorKey := .generalError }

/-- `restorePayment` up to its `fetch`: a payment that was shown is asked for, a submission that is
still held makes the page uncertain with its form filled, and an incomplete one is removed. -/
def restorePayment (tab : Tab) : Tab :=
  match tab.moveUi .startRestore with
  | none => tab
  | some tab =>
    match truthy tab.storage.lastPaymentId with
    | some paymentId =>
      if isEncodable paymentId then { tab with pending := tab.pending ++ [.restore paymentId] }
      else tab.restoreFailed
    | none =>
      match truthy tab.storage.activeKey, readActiveSubmission tab.storage with
      | none, none => tab.move .restoreEmpty
      | some key, some submission =>
        if key.length < 8 ∨ 128 < key.length then tab.clearActiveSubmission.move .restoreEmpty
        else
          move .resultUncertain
            { tab with
              form :=
                { reference := submission.merchantReference
                  amount := displayAmountFromMinorUnits submission.amount submission.currency
                  currency := submission.currency
                  outcome := submission.outcome }
              currentPayment := none }
      | _, _ => tab.clearActiveSubmission.move .restoreEmpty

/-- `restorePayment` from the answer on: a refusal forgets the payment, an accepted body is shown and
fills the form, whatever payment it is. -/
def settleRestore (answer : FetchAnswer) (tab : Tab) : Tab :=
  match answer with
  | .networkError | .ok .undecodable => tab.restoreFailed
  | .notOk _ _ =>
    let tab :=
      { tab with
        storage := { tab.storage with lastPaymentId := none }
        currentErrorKey := .missingResult }
    (tab.moveUi .showError).getD tab.restoreFailed
  | .ok .null => restoreFailed { tab with currentPayment := none }
  | .ok (.value body) =>
    let tab := { tab with currentPayment := some body }
    match controlsOf body with
    | none => tab.restoreFailed
    | some form => resolve restoreFailed { tab with form := form }

/-- The refresh handler up to its `fetch`, over a panel that renders: it renders again with the buttons
disabled, and asks for the payment on the page. -/
def refreshPayment (tab : Tab) : Tab :=
  if tab.refreshing then tab
  else
    match tab.currentPayment with
    | none => tab
    | some body =>
      match body.idText.filter isEncodable with
      | some id =>
        { tab with
          refreshing := true
          refreshFailed := false
          pending := tab.pending ++ [.refresh id] }
      | none => { tab with refreshFailed := true }

/-- The refresh handler from the answer on. What it renders last may throw, and is not caught. -/
def settleRefresh (answer : FetchAnswer) (tab : Tab) : Tab :=
  match answer with
  | .ok (.value body) => { tab with currentPayment := some body, refreshing := false }
  | .ok .null => { tab with currentPayment := none, refreshing := false }
  | _ => { tab with refreshFailed := true, refreshing := false }

/-- `resetCheckout`: the form, the panel and the session storage as in a new tab. A pending request
is not withdrawn by it. -/
def resetCheckout (tab : Tab) : Tab :=
  move .reset
    { tab with
      refreshFailed := false
      currentPayment := none
      currentErrorKey := .generalError
      storage := .empty
      form := .initial
      errors := [] }

/-- `setLanguage`. -/
def setLanguage (language : Language) (tab : Tab) : Tab :=
  let tab := { tab with language := language }
  if tab.errors = [] then tab else tab.validateForm.1

/-- The start of the script over a session storage. `form` is what the controls hold then. -/
def load (language : Language) (form : Form) (storage : SessionStorage)
    (posted : List PaymentRequest) : Tab :=
  restorePayment
    { uiState := .editing
      language := language
      currentPayment := none
      currentErrorKey := .generalError
      refreshing := false
      refreshFailed := false
      errors := []
      form := form
      pending := []
      storage := storage
      posted := posted }

/-- The page in a new tab, in a language and with the controls as the browser fills them. -/
def opened (language : Language) (form : Form) : Tab := load language form .empty []

/-- The simulator controls are enabled. -/
def fieldsEnabled (tab : Tab) : Bool := !(tab.uiState.busy || tab.uiState.showsResult)

end Tab

/-! ## Events -/

/-- What can happen to a tab. `submit` is the submission of the form, however it is caused. All of
them may happen in any state as far as this type goes; that a hidden or disabled control refuses its
event is part of the step. -/
inductive CheckoutEvent where
  | edit (form : Form)
  | submit (uuid : Uuid)
  | retry (uuid : Uuid)
  | newPayment
  | refresh
  | language (language : Language)
  | answer (index : Nat) (answer : FetchAnswer)
  | reload (form : Form)
  deriving DecidableEq

namespace Tab

/-- The rest of the handler that waits for an answer. -/
def settle (fetch : Fetch) (answer : FetchAnswer) (tab : Tab) : Tab :=
  match fetch with
  | .submit _ => tab.settleSubmit answer
  | .restore _ => tab.settleRestore answer
  | .refresh _ => tab.settleRefresh answer

/-- One event. A control that is hidden or disabled refuses its event; only a pending request is
answered. Where the rendering threw, the buttons are those of an earlier panel: "Retry" and "New payment"
are then taken as enabled, the latter unless a refresh is on its way. -/
def step (tab : Tab) : CheckoutEvent → Option Tab
  | .edit form => if tab.fieldsEnabled then some { tab with form := form } else none
  | .submit uuid => some (if tab.uiState.busy then tab else tab.submitPayment uuid)
  | .retry uuid =>
    if tab.panelThrew || tab.panel.any (·.retryShown) then some (tab.submitPayment uuid) else none
  | .newPayment =>
    if tab.panelThrew && !tab.refreshing ||
        tab.panel.any fun p => p.newPaymentShown && !p.newPaymentDisabled then
      some tab.resetCheckout
    else none
  | .refresh =>
    if tab.panel.any fun p => p.refreshShown && !p.refreshDisabled then some tab.refreshPayment
    else none
  | .language language => some (tab.setLanguage language)
  | .answer index answer =>
    tab.pending[index]?.map fun fetch =>
      settle fetch answer { tab with pending := tab.pending.eraseIdx index }
  | .reload form => some (load tab.language form tab.storage tab.posted)

end Tab

end PaymentLab
