import PaymentLab.Checkout.Page

/-!
# What holds in every tab

A submission whose outcome is open is held in two places: the form shows it and the session storage
keeps its key and its packet (`Prepared`). `Tab.Holds` says that a tab is in that situation, in flight
or uncertain, and `Tab.Settled` that the session storage keeps none. Every event keeps one of the two,
reloads included, because the packet is read back as it was stored
(`decodeSubmission_activeSubmission`).

A settled tab may still say that its result is uncertain: an accepted answer whose identity cannot be
read clears the submission and leads there (`FetchAnswer.Loses`). Nothing here says that a settled
submission was decided; that is what `FetchAnswer.Definitive` is about.
-/

namespace PaymentLab

open JavaScript Machine

/-! ## A packet is read back -/

theorem tokenByStoredOutcome_stored (option : TestOutcome) :
    tokenByStoredOutcome (js (storedOutcomeByToken option)) = some option := by
  cases option <;> decide +kernel

theorem storedCurrency_value (currency : Currency) :
    storedCurrency (.string (js currency.value)) = some currency := by
  cases currency <;> decide +kernel

/-- A form without errors: a reference of at most 64 code points and an accepted amount. -/
theorem Form.errors_eq_nil {form : Form} : form.errors = [] ↔
    form.reference ≠ [] ∧ codePoints form.reference ≤ 64 ∧
      ∃ amount, parseMinorUnits form.amount form.currency = some amount := by
  have hempty : parseMinorUnits [] form.currency = none := by
    cases form.currency <;> rfl
  unfold Form.errors
  rw [List.append_eq_nil_iff]
  constructor
  · rintro ⟨hreference, hamount⟩
    by_cases hnone : form.amount = []
    · simp [hnone] at hamount
    · cases hparse : parseMinorUnits form.amount form.currency with
      | none => simp [hnone, hparse] at hamount
      | some amount =>
        by_cases hblank : form.reference = []
        · simp [hblank] at hreference
        · have hlength : codePoints form.reference ≤ 64 := by
            by_contra hlong
            simp [hblank, show 64 < codePoints form.reference by omega] at hreference
          exact ⟨hblank, hlength, amount, rfl⟩
  · rintro ⟨hblank, hlength, amount, hparse⟩
    have hnone : form.amount ≠ [] := by
      intro h
      rw [h, hempty] at hparse
      cases hparse
    simp [hblank, hnone, hparse, Nat.not_lt.mpr hlength]

/-- **The stored packet of a valid form is read back.** -/
theorem decodeSubmission_activeSubmission {form : Form} {amount : Nat} (valid : form.errors = [])
    (hamount : parseMinorUnits form.amount form.currency = some amount) :
    decodeSubmission (activeSubmission form amount) =
      some
        { merchantReference := form.reference
          amount := amount
          currency := form.currency
          outcome := form.outcome } := by
  obtain ⟨hreference, hlength, _⟩ := Form.errors_eq_nil.mp valid
  obtain ⟨hpositive, hbounded⟩ := parseMinorUnits_bounds hamount
  unfold maxMinorUnits at hbounded
  unfold decodeSubmission activeSubmission
  simp only [JsValue.property, List.find?_cons]
  simp [hreference, Nat.not_lt.mpr hlength, storedCurrency_value, storedOutcome,
    tokenByStoredOutcome_stored, Nat.ne_of_gt hpositive, show ¬999999999 < (amount : Int) by omega]

/-! ## A held submission -/

/-- A form that is valid and shows the content of a request. -/
structure Form.Shows (form : Form) (request : PaymentRequest) : Prop where
  reference : form.reference = request.merchantReference
  amount : parseMinorUnits form.amount form.currency = some request.amount
  currency : form.currency = request.currency
  token : form.outcome.token = request.paymentMethodToken
  valid : form.errors = []

/-- A submission that the form shows and the session storage keeps: its key, its packet, and no payment
that a reload would look for instead. -/
structure Prepared (storage : SessionStorage) (form : Form) (request : PaymentRequest) : Prop extends
    form.Shows request where
  key : storage.activeKey = some request.key
  length : 8 ≤ request.key.length ∧ request.key.length ≤ 128
  packet : storage.activeSubmission = some (.value (activeSubmission form request.amount))
  unresolved : truthy storage.lastPaymentId = none

theorem Prepared.truthy_key {storage : SessionStorage} {form : Form} {request : PaymentRequest}
    (h : Prepared storage form request) : truthy storage.activeKey = some request.key := by
  rw [h.key]
  cases hkey : request.key with
  | nil =>
    have := h.length.1
    simp [hkey] at this
  | cons u units => rfl

/-- What a reload writes into the controls shows the same submission. -/
theorem Prepared.restored {storage : SessionStorage} {form : Form} {request : PaymentRequest}
    (h : Prepared storage form request) :
    Prepared storage
      { reference := form.reference
        amount := displayAmountFromMinorUnits request.amount form.currency
        currency := form.currency
        outcome := form.outcome } request := by
  obtain ⟨hpositive, hbounded⟩ := parseMinorUnits_bounds h.amount
  have hread := parseMinorUnits_display hpositive hbounded form.currency
  obtain ⟨hreference, hlength, _⟩ := Form.errors_eq_nil.mp h.valid
  exact
    { reference := h.reference
      amount := hread
      currency := h.currency
      token := h.token
      valid := Form.errors_eq_nil.mpr ⟨hreference, hlength, request.amount, hread⟩
      key := h.key
      length := h.length
      packet := h.packet
      unresolved := h.unresolved }

/-- The outcome of a submission is open and the page still has it: it is in flight, or the page says
that it is uncertain and holds what a retry needs. -/
structure Tab.Holds (tab : Tab) (request : PaymentRequest) : Prop where
  state : tab.uiState = .processing ∧ tab.pending = [.submit request] ∨
    tab.uiState = .uncertain ∧ tab.pending = []
  prepared : Prepared tab.storage tab.form request
  still : tab.refreshing = false

namespace Tab.Holds

variable {tab : Tab} {request : PaymentRequest}

/-- A retry sends the request again. -/
theorem submitPayment (h : tab.Holds request) (uncertain : tab.uiState = .uncertain) (uuid : Uuid) :
    (tab.submitPayment uuid).Holds request ∧
      (tab.submitPayment uuid).posted = tab.posted ++ [request] := by
  have idle : tab.pending = [] := by
    rcases h.state with ⟨hstate, _⟩ | ⟨_, hpending⟩
    · rw [uncertain] at hstate
      cases hstate
    · exact hpending
  obtain ⟨⟨hreference, hamount, hcurrency, htoken, hvalid⟩, hkey, hlength, hpacket, hopen⟩ :=
    h.prepared
  have hsame : activeIdempotencyKey uuid tab.storage = request.key := by
    rw [activeIdempotencyKey, h.prepared.truthy_key, Option.getD_some]
  have hrequest : PaymentRequest.mk request.key tab.form.reference request.amount tab.form.currency
      tab.form.outcome.token = request := by
    rw [hreference, hcurrency, htoken]
  unfold Tab.submitPayment
  simp only [validateForm, hvalid, if_true, hamount, moveUi, uncertain, transitionUiState,
    Option.map_some, hsame, hrequest]
  refine ⟨⟨.inl ⟨rfl, by simp [idle]⟩, ?_, h.still⟩, trivial⟩
  exact
    { reference := hreference
      amount := hamount
      currency := hcurrency
      token := htoken
      valid := hvalid
      key := rfl
      length := hlength
      packet := rfl
      unresolved := hopen }

/-- A reload shows the submission as uncertain. -/
theorem load (h : tab.Holds request) (form : Form) :
    (Tab.load tab.language form tab.storage tab.posted).Holds request ∧
      (Tab.load tab.language form tab.storage tab.posted).posted = tab.posted := by
  have prepared := h.prepared
  have hread : readActiveSubmission tab.storage = some
      { merchantReference := tab.form.reference
        amount := request.amount
        currency := tab.form.currency
        outcome := tab.form.outcome } := by
    unfold readActiveSubmission
    rw [prepared.packet]
    exact decodeSubmission_activeSubmission prepared.valid prepared.amount
  have hlength : ¬(request.key.length < 8 ∨ 128 < request.key.length) := by
    have := prepared.length
    omega
  unfold Tab.load restorePayment
  simp only [moveUi, transitionUiState, Option.map_some, prepared.unresolved, prepared.truthy_key,
    hread, if_neg hlength, move, Option.getD_some]
  exact ⟨⟨.inr ⟨rfl, rfl⟩, prepared.restored, rfl⟩, trivial⟩

theorem setLanguage (h : tab.Holds request) (language : Language) :
    (tab.setLanguage language).Holds request ∧ (tab.setLanguage language).posted = tab.posted := by
  unfold Tab.setLanguage
  dsimp only
  split <;> exact ⟨⟨h.state, h.prepared, h.still⟩, rfl⟩

end Tab.Holds

/-! ## Answers to a submission -/

namespace FetchAnswer

/-- A definitive answer: a decoded payment, or a rejection of the request. Every other answer leaves
open whether the payment was made, whatever the page does with it. -/
def Definitive : FetchAnswer → Prop
  | .ok (.value (.payment _)) => True
  | .notOk status _ => 400 ≤ status ∧ status < 500
  | _ => False

/-- An answer that leaves the outcome uncertain and is shown so, by the code the page has for it: no
answer at all, or the time-out that the service reports. -/
def Uncertain : FetchAnswer → Prop
  | .networkError => True
  | .notOk status body => status = 504 ∧ body = .code (some "payment_timeout")
  | _ => False

/-- An answer that decides nothing and on which the page gives up the submission: an accepted status
whose body is no payment, be it no JSON, `null` or another value, or a status that is neither accepted
nor a rejection, other than the time-out. A 504 with the body `null` is not one: to read its code
throws, and the page is uncertain as it should be. -/
def Discards : FetchAnswer → Prop
  | .ok (.value (.payment _)) => False
  | .ok _ => True
  | .notOk status body =>
    ¬(400 ≤ status ∧ status < 500) ∧
      ¬(status = 504 ∧ (body = .null ∨ body = .code (some "payment_timeout")))
  | .networkError => False

/-- An accepted answer whose identity cannot be read: `null`, or a value whose `id` has no text. The
page gives the submission up and says that it is uncertain. -/
def Loses : FetchAnswer → Prop
  | .ok body => body.orEmpty.bind PaymentBody.idText = none
  | _ => False

/-- A lost submission is one that is given up. -/
theorem Loses.discards {answer : FetchAnswer} (h : answer.Loses) : answer.Discards := by
  match answer with
  | .ok .undecodable | .ok .null | .ok (.value (.other _)) => trivial
  | .ok (.value (.payment p)) => cases h

end FetchAnswer

/-- No submission is in the session storage. In the final state nothing is said of the payment on the
page: an answer to `GET /payments/{id}` may have put any there, and `null` none. -/
structure Tab.Settled (tab : Tab) : Prop where
  key : tab.storage.activeKey = none
  submission : tab.storage.activeSubmission = none
  still : tab.uiState ≠ .final → tab.refreshing = false
  state : match tab.uiState with
    | .editing | .uncertain => tab.pending = [] ∧ truthy tab.storage.lastPaymentId = none
    | .restoring => ∃ id, tab.pending = [.restore id] ∧ tab.storage.lastPaymentId = some id
    | .final => tab.refreshing = false ∧ tab.pending = [] ∨
      tab.refreshing = true ∧ ∃ body id, tab.currentPayment = some body ∧ body.idText = some id ∧
        tab.pending = [.refresh id]
    | .error => tab.pending = []
    | .processing => False

/-- A rendering that throws after a submission leaves the final state without a payment. -/
theorem Tab.resolve_submission (tab : Tab) (processing : tab.uiState = .processing) :
    ∃ current, tab.resolve submissionFailed =
      { tab with uiState := .final, currentPayment := current } := by
  simp only [resolve, moveUi, processing, transitionUiState, Option.map_some]
  split_ifs
  · exact ⟨none, rfl⟩
  · exact ⟨tab.currentPayment, rfl⟩

/-- A rendering that throws after a restoration leaves the final state with the payment. -/
theorem Tab.resolve_restoration (tab : Tab) (restoring : tab.uiState = .restoring) :
    ∃ errorKey, tab.resolve restoreFailed =
      { tab with uiState := .final, currentErrorKey := errorKey } := by
  simp only [resolve, moveUi, restoring, transitionUiState, Option.map_some]
  split_ifs
  · exact ⟨.generalError, rfl⟩
  · exact ⟨tab.currentErrorKey, rfl⟩

/-- What an accepted body keeps of a submission. -/
theorem Tab.keepPayment_eq (body : Option PaymentBody) (tab : Tab) :
    tab.keepPayment body = none ∧ body.bind PaymentBody.idText = none ∨
      ∃ value id, body = some value ∧ value.idText = some id ∧ tab.keepPayment body = some
        { tab with
          storage := { tab.storage with lastPaymentId := some id }
          currentPayment := some value } := by
  cases body with
  | none => exact .inl ⟨rfl, rfl⟩
  | some value =>
    cases hid : value.idText with
    | none => exact .inl ⟨by simp [keepPayment, hid], by simp [hid]⟩
    | some id => exact .inr ⟨value, id, rfl, hid, by simp [keepPayment, hid]⟩

/-- **An accepted answer to a held submission** settles it; the page is uncertain of it exactly where
the identity cannot be read, and still shows it then. -/
theorem Tab.Holds.settleSubmit_ok {tab : Tab} {request : PaymentRequest} (h : tab.Holds request)
    (processing : tab.uiState = .processing) (body : AcceptedBody) :
    let tab' := Tab.settleSubmit (.ok body) { tab with pending := [] }
    tab'.posted = tab.posted ∧ tab'.Settled ∧ tab'.form = tab.form ∧
      (tab'.uiState = .uncertain ↔ (FetchAnswer.ok body).Loses) := by
  unfold FetchAnswer.Loses
  simp only [Tab.settleSubmit]
  rcases Tab.keepPayment_eq body.orEmpty
    (clearActiveSubmission { tab with pending := [] }) with
    ⟨hkeep, hlost⟩ | ⟨value, id, hbody, hid, hkeep⟩
  · rw [hkeep]
    simp only [submissionFailed, clearActiveSubmission, move, moveUi, processing,
      transitionUiState, Option.map_some, Option.getD_some, hlost]
    exact ⟨trivial, ⟨rfl, rfl, fun _ => h.still, rfl, h.prepared.unresolved⟩, trivial, by simp⟩
  · rw [hkeep]
    obtain ⟨current, hresolve⟩ := Tab.resolve_submission
      { clearActiveSubmission { tab with pending := [] } with
        storage := { (clearActiveSubmission { tab with pending := [] }).storage with
          lastPaymentId := some id }
        currentPayment := some value } processing
    simp only [hresolve]
    exact ⟨rfl, ⟨rfl, rfl, fun hne => absurd rfl hne, .inl ⟨h.still, rfl⟩⟩, rfl,
      by simp [hbody, hid]⟩

/-- **The answer to a held submission** holds it, or settles it. -/
theorem Tab.Holds.settleSubmit {tab : Tab} {request : PaymentRequest} (h : tab.Holds request)
    (processing : tab.uiState = .processing) (answer : FetchAnswer) :
    let tab' := Tab.settleSubmit answer { tab with pending := [] }
    tab'.posted = tab.posted ∧
      (tab'.Holds request ∧ tab'.uiState = .uncertain ∧ ¬answer.Definitive ∧ ¬answer.Discards ∨
        tab'.Settled ∧ ¬answer.Uncertain ∧ (answer.Definitive ∨ answer.Discards) ∧
          tab'.form = tab.form ∧ (tab'.uiState = .uncertain ↔ answer.Loses)) := by
  have prepared := h.prepared
  cases answer with
  | networkError =>
    simp only [Tab.settleSubmit, submissionFailed, move, moveUi, processing, transitionUiState]
    exact ⟨rfl, .inl ⟨⟨.inr ⟨rfl, rfl⟩, prepared, h.still⟩, rfl, by simp [FetchAnswer.Definitive],
      by simp [FetchAnswer.Discards]⟩⟩
  | ok body =>
    obtain ⟨hposted, settled, hform, hlost⟩ := h.settleSubmit_ok processing body
    refine ⟨hposted, .inr ⟨settled, by simp [FetchAnswer.Uncertain], ?_, hform, hlost⟩⟩
    match body with
    | .value (.payment _) => exact .inl trivial
    | .undecodable | .null | .value (.other _) => exact .inr trivial
  | notOk status body =>
    unfold Tab.settleSubmit FetchAnswer.Definitive FetchAnswer.Discards FetchAnswer.Uncertain
      FetchAnswer.Loses
    dsimp only
    by_cases hnull : status = 504 ∧ body = .null
    · rw [if_pos hnull]
      simp only [submissionFailed, move, moveUi, processing, transitionUiState]
      exact ⟨rfl, .inl ⟨⟨.inr ⟨rfl, rfl⟩, prepared, h.still⟩, rfl, by omega, by simp [hnull]⟩⟩
    · by_cases htimeout : status = 504 ∧ body = .code (some "payment_timeout")
      · rw [if_neg hnull, if_pos htimeout]
        simp only [moveUi, processing, transitionUiState]
        exact ⟨rfl, .inl ⟨⟨.inr ⟨rfl, rfl⟩, prepared, h.still⟩, rfl, by omega, by simp [htimeout]⟩⟩
      · rw [if_neg hnull, if_neg htimeout]
        simp only [clearActiveSubmission, moveUi, processing, transitionUiState]
        refine ⟨rfl, .inr ⟨⟨rfl, rfl, fun _ => h.still, rfl⟩, htimeout, ?_, rfl, by simp⟩⟩
        by_cases hrejected : 400 ≤ status ∧ status < 500
        · exact .inl hrejected
        · exact .inr ⟨hrejected, by tauto⟩

/-! ## One event -/

/-- An event answers a pending `POST`. Which of several requests is answered first is left to the
run. -/
def Tab.Answers (tab : Tab) (event : CheckoutEvent) (request : PaymentRequest)
    (answer : FetchAnswer) : Prop :=
  ∃ index, event = .answer index answer ∧ tab.pending[index]? = some (.submit request)

/-- **One event on a held submission**: the answer to it, or an event that holds it and sends nothing
but the same request. -/
theorem Tab.Holds.step {tab tab' : Tab} {request : PaymentRequest} {event : CheckoutEvent}
    (h : tab.Holds request) (hstep : tab.step event = some tab') :
    (∃ answer, tab.Answers event request answer ∧ tab'.posted = tab.posted ∧
      (tab'.Holds request ∧ tab'.uiState = .uncertain ∧ ¬answer.Definitive ∧ ¬answer.Discards ∨
        tab'.Settled ∧ ¬answer.Uncertain ∧ (answer.Definitive ∨ answer.Discards) ∧
          tab'.form = tab.form ∧ (tab'.uiState = .uncertain ↔ answer.Loses))) ∨
    (∀ other answer, ¬tab.Answers event other answer) ∧ tab'.Holds request ∧
      (tab'.posted = tab.posted ∨ tab'.posted = tab.posted ++ [request]) := by
  cases event with
  | edit form =>
    rcases h.state with ⟨hstate, _⟩ | ⟨hstate, _⟩ <;>
      simp [Tab.step, fieldsEnabled, hstate, UiState.busy, UiState.showsResult] at hstep
  | submit uuid =>
    right
    refine ⟨by simp [Tab.Answers], ?_⟩
    rcases h.state with ⟨hstate, _⟩ | ⟨hstate, _⟩
    · simp only [Tab.step, hstate, UiState.busy] at hstep
      cases hstep
      exact ⟨h, .inl rfl⟩
    · simp only [Tab.step, hstate, UiState.busy] at hstep
      cases hstep
      obtain ⟨held, posted⟩ := h.submitPayment hstate uuid
      exact ⟨held, .inr posted⟩
  | retry uuid =>
    right
    refine ⟨by simp [Tab.Answers], ?_⟩
    rcases h.state with ⟨hstate, _⟩ | ⟨hstate, _⟩
    · simp [Tab.step, panelThrew, panel, hstate] at hstep
    · simp [Tab.step, panelThrew, panel, hstate, renderUncertainResult] at hstep
      subst hstep
      obtain ⟨held, posted⟩ := h.submitPayment hstate uuid
      exact ⟨held, .inr posted⟩
  | newPayment =>
    rcases h.state with ⟨hstate, _⟩ | ⟨hstate, _⟩ <;>
      simp [Tab.step, panelThrew, panel, hstate, renderUncertainResult] at hstep
  | refresh =>
    rcases h.state with ⟨hstate, _⟩ | ⟨hstate, _⟩ <;>
      simp [Tab.step, panel, hstate, renderUncertainResult] at hstep
  | language language =>
    right
    cases hstep
    obtain ⟨held, posted⟩ := h.setLanguage language
    exact ⟨by simp [Tab.Answers], held, .inl posted⟩
  | reload form =>
    right
    cases hstep
    obtain ⟨held, posted⟩ := h.load form
    exact ⟨by simp [Tab.Answers], held, .inl posted⟩
  | answer index answer =>
    left
    rcases h.state with ⟨hstate, hpending⟩ | ⟨_, hpending⟩
    · cases index with
      | zero =>
        simp [Tab.step, hpending, settle] at hstep
        subst hstep
        exact ⟨answer, ⟨0, rfl, by simp [hpending]⟩, h.settleSubmit hstate answer⟩
      | succ index => simp [Tab.step, hpending] at hstep
    · simp [Tab.step, hpending] at hstep

/-- A pending `POST`. -/
def Fetch.isSubmit : Fetch → Bool
  | .submit _ => true
  | _ => false

/-- What a settled tab waits for: nothing, the payment it restores, or the one it refreshes. -/
theorem Tab.Settled.pending {tab : Tab} (h : tab.Settled) :
    tab.pending = [] ∨
      (tab.uiState = .restoring ∧
        ∃ id, tab.pending = [.restore id] ∧ tab.storage.lastPaymentId = some id) ∨
      (tab.uiState = .final ∧ ∃ body id, tab.currentPayment = some body ∧ body.idText = some id ∧
        tab.pending = [.refresh id]) := by
  have hstate := h.state
  cases hui : tab.uiState <;> simp only [hui] at hstate
  · exact .inl hstate.1
  · exact .inr (.inl ⟨rfl, hstate⟩)
  · rcases hstate with ⟨_, hpending⟩ | ⟨_, hrefresh⟩
    · exact .inl hpending
    · exact .inr (.inr ⟨rfl, hrefresh⟩)
  · exact .inl hstate.1
  · exact .inl hstate

/-- A settled tab has no submission in flight. -/
theorem Tab.Settled.not_submit {tab : Tab} (h : tab.Settled) (request : PaymentRequest) :
    .submit request ∉ tab.pending := by
  rcases h.pending with hpending | ⟨_, _, hpending, _⟩ | ⟨_, _, _, _, _, hpending⟩ <;> simp [hpending]

/-- "Refresh" is shown in the final state only, under its payment. -/
theorem Tab.panel_refresh {tab : Tab} {panel : ResultPanel} (h : tab.panel = some panel)
    (shown : panel.refreshShown = true) :
    tab.uiState = .final ∧ panel.refreshDisabled = tab.refreshing ∧
      ∃ body, tab.currentPayment = some body := by
  unfold Tab.panel at h
  split at h
  · next final =>
    obtain ⟨body, hbody, hrender⟩ := Option.bind_eq_some_iff.mp h
    exact ⟨final, (renderFinalResult_controls hrender).2.2, body, hbody⟩
  · cases h
    simp [renderUncertainResult] at shown
  · cases h
    simp [renderErrorResult] at shown
  · cases h

namespace Tab.Settled

variable {tab : Tab}

/-- Errors of the form do not touch a submission. -/
theorem withErrors (h : tab.Settled) (errors : List FieldError) :
    Tab.Settled { tab with errors := errors } := ⟨h.key, h.submission, h.still, h.state⟩

/-- **The first request of a submission**: a valid form is sent under a new key and held. -/
theorem submitPayment_sends (h : tab.Settled)
    (idle : tab.uiState = .editing ∨ tab.uiState = .uncertain) (valid : tab.form.errors = [])
    {amount : Nat} (hamount : parseMinorUnits tab.form.amount tab.form.currency = some amount)
    (uuid : Uuid) :
    ∃ request, (tab.submitPayment uuid).Holds request ∧
      (tab.submitPayment uuid).posted = tab.posted ++ [request] ∧
      request = ⟨js "checkout-" ++ uuid.val, tab.form.reference, amount, tab.form.currency,
        tab.form.outcome.token⟩ := by
  have hstate : tab.pending = [] ∧ truthy tab.storage.lastPaymentId = none := by
    have hstate := h.state
    rcases idle with idle | idle <;> rw [idle] at hstate <;> exact hstate
  obtain ⟨hpending, hlast⟩ := hstate
  have hnext : transitionUiState tab.uiState .startSubmission = some .processing := by
    rcases idle with idle | idle <;> rw [idle] <;> rfl
  have hstill : tab.refreshing = false := by
    apply h.still
    rcases idle with idle | idle <;> simp [idle]
  have hkey : activeIdempotencyKey uuid tab.storage = js "checkout-" ++ uuid.val := by
    simp [activeIdempotencyKey, h.key, truthy]
  have hlength : (js "checkout-" ++ uuid.val).length = 45 := by
    have hprefix : (js "checkout-").length = 9 := by decide
    rw [List.length_append, hprefix, uuid.property]
  unfold Tab.submitPayment
  simp only [validateForm, valid, if_true, hamount, moveUi, hnext, Option.map_some, hkey]
  refine ⟨_, ⟨.inl ⟨rfl, by simp [hpending]⟩, ?_, hstill⟩, rfl, rfl⟩
  exact
    { reference := rfl
      amount := hamount
      currency := rfl
      token := rfl
      valid := valid
      key := rfl
      length := by
        rw [hlength]
        omega
      packet := rfl
      unresolved := hlast }

/-- A form with errors, or a state that allows no submission, sends nothing. -/
theorem submitPayment_refused (h : tab.Settled)
    (refused : tab.form.errors ≠ [] ∨ transitionUiState tab.uiState .startSubmission = none)
    (uuid : Uuid) :
    (tab.submitPayment uuid).Settled ∧ (tab.submitPayment uuid).posted = tab.posted ∧
      (tab.submitPayment uuid).uiState = tab.uiState := by
  have shown := h.withErrors tab.form.errors
  unfold Tab.submitPayment validateForm
  rcases refused with hinvalid | hstate
  · simp only [if_neg hinvalid]
    exact ⟨shown, trivial, trivial⟩
  · split_ifs with hvalid
    · cases parseMinorUnits tab.form.amount tab.form.currency with
      | none => exact ⟨shown, rfl, rfl⟩
      | some amount =>
        simp only [moveUi, hstate, Option.map_none]
        exact ⟨shown, trivial, trivial⟩
    · exact ⟨shown, rfl, rfl⟩

/-- A reload looks for the last payment, or starts over. -/
theorem load (h : tab.Settled) (form : Form) :
    (Tab.load tab.language form tab.storage tab.posted).Settled ∧
      (Tab.load tab.language form tab.storage tab.posted).posted = tab.posted ∧
      (Tab.load tab.language form tab.storage tab.posted).uiState ≠ .uncertain := by
  have hread : readActiveSubmission tab.storage = none := by
    simp [readActiveSubmission, h.submission]
  have hkey : truthy tab.storage.activeKey = none := by
    simp [h.key, truthy]
  unfold Tab.load restorePayment
  simp only [moveUi, transitionUiState, Option.map_some]
  cases hlast : truthy tab.storage.lastPaymentId with
  | none =>
    simp only [hkey, hread, move, moveUi, transitionUiState, Option.map_some, Option.getD_some]
    exact ⟨⟨h.key, h.submission, fun _ => rfl, rfl, hlast⟩, trivial, by simp⟩
  | some id =>
    have hstored : tab.storage.lastPaymentId = some id := by
      unfold truthy at hlast
      split at hlast
      · next heq =>
        cases hlast
        exact heq
      · cases hlast
    by_cases hencodable : isEncodable id = true
    · simp only [if_pos hencodable]
      exact ⟨⟨h.key, h.submission, fun _ => rfl, id, rfl, hstored⟩, trivial, by simp⟩
    · simp only [if_neg hencodable, restoreFailed, move, moveUi, transitionUiState, Option.map_some,
        Option.getD_some]
      exact ⟨⟨h.key, h.submission, fun _ => rfl, rfl⟩, trivial, by simp⟩

/-- The answer to a restoration. -/
theorem settleRestore (h : tab.Settled) (restoring : tab.uiState = .restoring)
    (answer : FetchAnswer) :
    (Tab.settleRestore answer { tab with pending := [] }).Settled ∧
      (Tab.settleRestore answer { tab with pending := [] }).posted = tab.posted ∧
      (Tab.settleRestore answer { tab with pending := [] }).uiState ≠ .uncertain := by
  have still : tab.refreshing = false := h.still (by simp [restoring])
  match answer with
  | .networkError | .ok .undecodable | .ok .null =>
    simp only [Tab.settleRestore, restoreFailed, move, moveUi, restoring, transitionUiState]
    exact ⟨⟨h.key, h.submission, fun _ => still, rfl⟩, rfl, by simp⟩
  | .notOk status body =>
    simp only [Tab.settleRestore, moveUi, restoring, transitionUiState]
    exact ⟨⟨h.key, h.submission, fun _ => still, rfl⟩, rfl, by simp⟩
  | .ok (.value body) =>
    simp only [Tab.settleRestore]
    cases controlsOf body with
    | none =>
      simp only [restoreFailed, move, moveUi, restoring, transitionUiState]
      exact ⟨⟨h.key, h.submission, fun _ => still, rfl⟩, rfl, by simp⟩
    | some form =>
      obtain ⟨errorKey, hresolve⟩ := Tab.resolve_restoration
        { tab with pending := [], currentPayment := some body, form := form } restoring
      simp only [hresolve]
      exact ⟨⟨h.key, h.submission, fun hne => absurd rfl hne, .inl ⟨still, rfl⟩⟩, trivial, by simp⟩

/-- The answer to a refresh. -/
theorem settleRefresh (h : tab.Settled) (final : tab.uiState = .final) (answer : FetchAnswer) :
    (Tab.settleRefresh answer { tab with pending := [] }).Settled ∧
      (Tab.settleRefresh answer { tab with pending := [] }).posted = tab.posted ∧
      (Tab.settleRefresh answer { tab with pending := [] }).uiState ≠ .uncertain := by
  match answer with
  | .networkError | .ok .undecodable | .ok .null | .ok (.value _) | .notOk _ _ =>
    simp only [Tab.settleRefresh, final]
    exact ⟨⟨h.key, h.submission, fun _ => rfl, .inl ⟨rfl, rfl⟩⟩, trivial, by simp⟩

end Tab.Settled

/-- A tab sends the content of its form for the first time: under a new key, since no submission was
held before. -/
structure Tab.Sends (tab tab' : Tab) (request : PaymentRequest) : Prop where
  state : tab.uiState = .editing ∨ tab.uiState = .uncertain
  held : tab'.Holds request
  posted : tab'.posted = tab.posted ++ [request]

/-- A submission of a settled tab, by the form or by "Retry": it is sent for the first time, or
refused. -/
theorem Tab.Settled.submitPayment {tab : Tab} (h : tab.Settled) (uuid : Uuid) :
    (tab.submitPayment uuid).Settled ∧ (tab.submitPayment uuid).posted = tab.posted ∧
        (tab.submitPayment uuid).uiState = tab.uiState ∨
      ∃ request, tab.Sends (tab.submitPayment uuid) request := by
  by_cases hvalid : tab.form.errors = []
  · by_cases idle : tab.uiState = .editing ∨ tab.uiState = .uncertain
    · obtain ⟨_, _, amount, hamount⟩ := Form.errors_eq_nil.mp hvalid
      obtain ⟨request, held, posted, _⟩ := h.submitPayment_sends idle hvalid hamount uuid
      exact .inr ⟨request, idle, held, posted⟩
    · have hrefused : transitionUiState tab.uiState .startSubmission = none := by
        cases hui : tab.uiState <;> simp [hui, transitionUiState] at idle ⊢
      exact .inl (h.submitPayment_refused (.inr hrefused) uuid)
  · exact .inl (h.submitPayment_refused (.inl hvalid) uuid)

/-- Where "New payment" can be pressed nothing is pending: a refresh on its way keeps it disabled. -/
theorem Tab.Settled.ready {tab : Tab} (h : tab.Settled)
    (enabled : (tab.panelThrew && !tab.refreshing ||
      tab.panel.any fun p => p.newPaymentShown && !p.newPaymentDisabled) = true) :
    tab.pending = [] ∧ tab.refreshing = false := by
  have hstate := h.state
  cases hui : tab.uiState <;> simp only [hui] at hstate
  · exact ⟨hstate.1, h.still (by simp [hui])⟩
  · simp [panelThrew, panel, hui] at enabled
  · rcases hstate with ⟨hrefreshing, hpending⟩ | ⟨hrefreshing, _⟩
    · exact ⟨hpending, hrefreshing⟩
    · cases hpanel : tab.panel with
      | none => simp [hpanel, hrefreshing] at enabled
      | some panel =>
        have hrender := hpanel
        simp only [Tab.panel, hui, Option.bind_eq_some_iff] at hrender
        obtain ⟨body, _, hrender⟩ := hrender
        have hdisabled := (renderFinalResult_controls hrender).2.1
        simp [hpanel, hrefreshing, hdisabled] at enabled
  · exact ⟨hstate.1, h.still (by simp [hui])⟩
  · exact ⟨hstate, h.still (by simp [hui])⟩

/-- Where "Refresh" can be pressed, pressing it asks for the payment on the page, or fails at once. -/
theorem Tab.Settled.refreshPayment {tab : Tab} (h : tab.Settled)
    (enabled : (tab.panel.any fun p => p.refreshShown && !p.refreshDisabled) = true) :
    tab.refreshPayment.Settled ∧ tab.refreshPayment.posted = tab.posted ∧
      tab.refreshPayment.uiState ≠ .uncertain := by
  have hstate := h.state
  obtain ⟨panel, hpanel, henabled⟩ := (Option.any_eq_true _ _).mp enabled
  obtain ⟨hshown, henabled⟩ := Bool.and_eq_true_iff.mp henabled
  obtain ⟨hui, hdisabled, body, hbody⟩ := Tab.panel_refresh hpanel hshown
  simp only [hui] at hstate
  have hidle : tab.refreshing = false ∧ tab.pending = [] := by
    rcases hstate with hidle | ⟨hrefreshing, _⟩
    · exact hidle
    · rw [hdisabled, hrefreshing] at henabled
      cases henabled
  simp only [Tab.refreshPayment, hidle.1, hbody]
  cases hid : body.idText.filter isEncodable with
  | none =>
    refine ⟨⟨h.key, h.submission, fun hne => absurd hui hne, ?_⟩, by simp, by simp [hui]⟩
    simp only [hui]
    exact .inl (by simp [hidle.2])
  | some id =>
    refine ⟨⟨h.key, h.submission, fun hne => absurd hui hne, ?_⟩, by simp, by simp [hui]⟩
    simp only [hui]
    exact .inr ⟨by simp, body, id, by simp, (Option.filter_eq_some_iff.mp hid).1, by simp [hidle.2]⟩

/-- **One event on a settled tab**: it stays settled and sends nothing, or a valid form is sent. No
event makes a settled tab uncertain. -/
theorem Tab.Settled.step {tab tab' : Tab} {event : CheckoutEvent} (h : tab.Settled)
    (hstep : tab.step event = some tab') :
    tab'.Settled ∧ tab'.posted = tab.posted ∧ (tab'.uiState = .uncertain → tab.uiState = .uncertain) ∨
      ∃ uuid request, (event = .submit uuid ∨ event = .retry uuid ∧ tab.uiState = .uncertain) ∧
        tab.Sends tab' request := by
  cases event with
  | edit form =>
    left
    obtain ⟨henabled, htab⟩ := Option.ite_none_right_eq_some.mp hstep
    cases htab
    exact ⟨⟨h.key, h.submission, h.still, h.state⟩, rfl, id⟩
  | submit uuid =>
    simp only [Tab.step, Option.some.injEq] at hstep
    subst hstep
    split_ifs
    · exact .inl ⟨h, rfl, id⟩
    · rcases h.submitPayment uuid with ⟨settled, posted, same⟩ | ⟨request, sends⟩
      · exact .inl ⟨settled, posted, same ▸ id⟩
      · exact .inr ⟨uuid, request, .inl rfl, sends⟩
  | retry uuid =>
    obtain ⟨henabled, htab⟩ := Option.ite_none_right_eq_some.mp hstep
    cases htab
    rcases h.submitPayment uuid with ⟨settled, posted, same⟩ | ⟨request, sends⟩
    · exact .inl ⟨settled, posted, same ▸ id⟩
    · refine .inr ⟨uuid, request, .inr ⟨rfl, ?_⟩, sends⟩
      rcases sends.state with editing | uncertain
      · simp [panelThrew, panel, editing] at henabled
      · exact uncertain
  | newPayment =>
    left
    obtain ⟨henabled, htab⟩ := Option.ite_none_right_eq_some.mp hstep
    cases htab
    have hready := h.ready henabled
    have hreset : transitionUiState tab.uiState .reset = some .editing := by
      cases tab.uiState <;> rfl
    simp only [resetCheckout, move, moveUi, hreset, Option.map_some, Option.getD_some]
    exact ⟨⟨rfl, rfl, fun _ => hready.2, hready.1, rfl⟩, trivial, by simp⟩
  | refresh =>
    left
    obtain ⟨henabled, htab⟩ := Option.ite_none_right_eq_some.mp hstep
    cases htab
    obtain ⟨settled, posted, certain⟩ := h.refreshPayment henabled
    exact ⟨settled, posted, fun uncertain => absurd uncertain certain⟩
  | language language =>
    left
    cases hstep
    unfold Tab.setLanguage
    dsimp only
    split
    · exact ⟨⟨h.key, h.submission, h.still, h.state⟩, rfl, id⟩
    · exact ⟨⟨h.key, h.submission, h.still, h.state⟩, rfl, id⟩
  | reload form =>
    left
    cases hstep
    obtain ⟨settled, posted, certain⟩ := h.load form
    exact ⟨settled, posted, fun uncertain => absurd uncertain certain⟩
  | answer index answer =>
    left
    obtain ⟨fetch, hfetch, rfl⟩ := Option.map_eq_some_iff.mp hstep
    rcases h.pending with hpending | ⟨restoring, id, hpending, _⟩ | ⟨final, _, id, _, _, hpending⟩
    · simp [hpending] at hfetch
    · simp only [hpending, List.getElem?_singleton, Option.ite_none_right_eq_some,
        Option.some.injEq] at hfetch
      obtain ⟨rfl, rfl⟩ := hfetch
      obtain ⟨settled, posted, certain⟩ := h.settleRestore restoring answer
      simp only [settle, hpending]
      exact ⟨settled, posted, fun uncertain => absurd uncertain certain⟩
    · simp only [hpending, List.getElem?_singleton, Option.ite_none_right_eq_some,
        Option.some.injEq] at hfetch
      obtain ⟨rfl, rfl⟩ := hfetch
      obtain ⟨settled, posted, certain⟩ := h.settleRefresh final answer
      simp only [settle, hpending]
      exact ⟨settled, posted, fun uncertain => absurd uncertain certain⟩

/-! ## Runs -/

/-- What holds in every tab: a submission is held, or all are settled. Nothing in between exists,
whatever the answers and however often the page is loaded again. -/
def Tab.Consistent (tab : Tab) : Prop := (∃ request, tab.Holds request) ∨ tab.Settled

theorem Tab.opened_settled (language : Language) (form : Form) : (Tab.opened language form).Settled :=
  ⟨rfl, rfl, fun _ => rfl, rfl, rfl⟩

theorem Tab.Consistent.step (tab : Tab) (event : CheckoutEvent) (tab' : Tab) (h : tab.Consistent)
    (hstep : tab.step event = some tab') : tab'.Consistent := by
  rcases h with ⟨request, held⟩ | settled
  · rcases held.step hstep with ⟨_, _, _, ⟨held', _⟩ | ⟨settled', _⟩⟩ | ⟨_, held', _⟩
    · exact .inl ⟨request, held'⟩
    · exact .inr settled'
    · exact .inl ⟨request, held'⟩
  · rcases settled.step hstep with ⟨settled', _⟩ | ⟨_, request, _, sends⟩
    · exact .inr settled'
    · exact .inl ⟨request, sends.held⟩

/-- A run of the page: from a new tab, any events in any order. A second tab has a session storage of
its own, and is a run of its own. -/
def CheckoutRun (ts : List (Transition Tab CheckoutEvent)) (v : Tab) : Prop :=
  ∃ language form, Run Tab.step (Tab.opened language form) ts v

theorem CheckoutRun.consistent {ts : List (Transition Tab CheckoutEvent)} {v : Tab}
    (run : CheckoutRun ts v) : v.Consistent := by
  obtain ⟨language, form, run⟩ := run
  exact run.invariant Tab.Consistent.step (.inr (Tab.opened_settled language form))

theorem CheckoutRun.transition {ts : List (Transition Tab CheckoutEvent)} {v : Tab}
    (run : CheckoutRun ts v) {t : Transition Tab CheckoutEvent} (mem : t ∈ ts) :
    t.pre.Consistent ∧ t.pre.step t.event = some t.post := by
  obtain ⟨language, form, run⟩ := run
  obtain ⟨hpre, hstep, _⟩ :=
    run.transition Tab.Consistent.step (.inr (Tab.opened_settled language form)) mem
  exact ⟨hpre, hstep⟩

/-- Only a held submission has a `POST` to answer, and it is the request in flight. -/
theorem Tab.Consistent.answers {tab : Tab} (h : tab.Consistent) {event : CheckoutEvent}
    {request : PaymentRequest} {answer : FetchAnswer} (answers : tab.Answers event request answer) :
    tab.Holds request ∧ tab.uiState = .processing := by
  obtain ⟨index, _, hfetch⟩ := answers
  have mem := List.mem_of_getElem? hfetch
  rcases h with ⟨other, held⟩ | settled
  · rcases held.state with ⟨hstate, hpending⟩ | ⟨_, hpending⟩
    · simp [hpending] at mem
      subst mem
      exact ⟨held, hstate⟩
    · simp [hpending] at mem
  · exact absurd mem (settled.not_submit request)

/-- A payment is asked for to restore it only while the page restores, by the identity it keeps. -/
theorem Tab.Consistent.restores {tab : Tab} (h : tab.Consistent) {index : Nat} {id : JsString}
    (hfetch : tab.pending[index]? = some (.restore id)) :
    tab.uiState = .restoring ∧ tab.storage.lastPaymentId = some id := by
  have mem := List.mem_of_getElem? hfetch
  rcases h with ⟨request, held⟩ | settled
  · rcases held.state with ⟨_, hpending⟩ | ⟨_, hpending⟩ <;> simp [hpending] at mem
  · rcases settled.pending with
      hpending | ⟨restoring, kept, hpending, hlast⟩ | ⟨_, _, _, _, _, hpending⟩ <;>
      simp [hpending] at mem
    exact ⟨restoring, mem ▸ hlast⟩

/-- A payment is asked for to refresh it only in the final state, by the identity of the one shown. -/
theorem Tab.Consistent.refreshes {tab : Tab} (h : tab.Consistent) {index : Nat} {id : JsString}
    (hfetch : tab.pending[index]? = some (.refresh id)) :
    tab.uiState = .final ∧ ∃ body, tab.currentPayment = some body ∧ body.idText = some id := by
  have mem := List.mem_of_getElem? hfetch
  rcases h with ⟨request, held⟩ | settled
  · rcases held.state with ⟨_, hpending⟩ | ⟨_, hpending⟩ <;> simp [hpending] at mem
  · rcases settled.pending with
      hpending | ⟨_, _, hpending, _⟩ | ⟨final, body, shown, hbody, hid, hpending⟩ <;>
      simp [hpending] at mem
    exact ⟨final, body, hbody, mem ▸ hid⟩

/-- At most one `POST` is in flight. -/
theorem Tab.Consistent.in_flight {tab : Tab} (h : tab.Consistent) :
    (tab.pending.filter Fetch.isSubmit).length ≤ 1 := by
  rcases h with ⟨request, held⟩ | settled
  · apply (List.length_filter_le _ _).trans
    rcases held.state with ⟨_, hpending⟩ | ⟨_, hpending⟩ <;> simp [hpending]
  · have hnone : tab.pending.filter Fetch.isSubmit = [] := by
      apply List.filter_eq_nil_iff.mpr
      intro fetch mem
      cases fetch with
      | submit request => exact absurd mem (settled.not_submit request)
      | restore id => simp [Fetch.isSubmit]
      | refresh id => simp [Fetch.isSubmit]
    simp [hnone]

end PaymentLab
