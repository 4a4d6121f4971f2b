import PaymentLab.Services.Ledger
import PaymentLab.Services.Payments

/-!
# What a payment leaves behind

The abstract model of one payment: its row, its ledger and its published events, and the two things
that may happen to them. An account is opened by an authorization, and a lifecycle step extends it
by one version: a row decided by the pure function, at most one ledger row, and one event. `Lived`
is the account with the steps it went through.

Everything the store promises about a single payment is a fact about `Lived` accounts, by induction
on the steps: the balances are what the ledger adds up to, the events are the history of the row,
and the row is the sequential run of the pure functions.

Nothing here mentions tables, sessions, keys or clients. That the database keeps accounts, and
changes each only by an opening or a step, is the refinement in `Runs/Effects`; the facts of this
layer then hold of every payment of every run.
-/

namespace PaymentLab

/-! ## Events without their delivery columns -/

/-- The columns of an event that delivery never writes. An account is told by these, so that it does
not change when an event is delivered. -/
@[ext]
structure PublishedEvent where
  id : String
  paymentId : String
  eventType : WebhookEventType
  aggregateVersion : Nat
  payload : EventPayload
  createdAt : Instant
  deriving DecidableEq, Repr

/-- The published part of an event row. -/
def WebhookEventRecord.published (event : WebhookEventRecord) : PublishedEvent where
  id := event.id
  paymentId := event.paymentId
  eventType := event.eventType
  aggregateVersion := event.aggregateVersion
  payload := event.payload
  createdAt := event.createdAt

/-- The event of a payment version, as it is published. -/
def publishedEvent (payment : PaymentRecord) (eventType : WebhookEventType) (hex : String) :
    PublishedEvent := (createOutboxEvent payment eventType hex).published

@[simp] theorem publishedEvent_version (payment : PaymentRecord) (eventType : WebhookEventType)
    (hex : String) : (publishedEvent payment eventType hex).aggregateVersion = payment.version := rfl

@[simp] theorem publishedEvent_eventType (payment : PaymentRecord) (eventType : WebhookEventType)
    (hex : String) : (publishedEvent payment eventType hex).eventType = eventType := rfl

@[simp] theorem publishedEvent_payment (payment : PaymentRecord) (eventType : WebhookEventType)
    (hex : String) :
    (publishedEvent payment eventType hex).payload.payment = .fromPayment payment := rfl

/-! ## One lifecycle step on a row -/

/-- The event type of a step. -/
def LifecycleStep.eventType : LifecycleStep → WebhookEventType
  | .capture => .captured
  | .captureConfirmation _ => .captured
  | .expire => .expired
  | .cancel => .cancelled
  | .refund _ => .refunded

/-- The operation and amount of the ledger row a step writes, from the row before and after it. -/
def LifecycleStep.posting (before after : PaymentRecord) : LifecycleStep → Option (String × Int)
  | .capture => some ("CAPTURE", after.capturedAmount - before.capturedAmount)
  | .captureConfirmation amount => some ("CONFIRMATION_CAPTURE", amount)
  | .expire => none
  | .cancel =>
    if before.status = .awaitingPayment then none else some ("CANCEL", before.authorizedAmount)
  | .refund amount => some ("REFUND", amount)

/-- The ledger row of a step. -/
def LifecycleStep.entry (before after : PaymentRecord) (id : String) (createdAt : Instant)
    (step : LifecycleStep) : Option LedgerEntryRecord :=
  (step.posting before after).map fun posting =>
    { id := id
      paymentId := before.id
      operation := posting.1
      amount := posting.2
      currency := before.currency
      createdAt := createdAt }

/-- The row after a step: the pure function decides status and balances, the version counts up, and
every other column but the time of the update stays. -/
def Decides (step : LifecycleStep) (before after : PaymentRecord) : Prop :=
  ∃ state next now, paymentState before = .ok state ∧ step.apply state = .ok next ∧
    after = { before.withState next now with version := before.version + 1 }

/-- What the rows of one payment have in common, from its authorization on. -/
structure SameIdentity (a b : PaymentRecord) : Prop where
  id : b.id = a.id
  merchantReference : b.merchantReference = a.merchantReference
  amount : b.amount = a.amount
  currency : b.currency = a.currency
  paymentFlow : b.paymentFlow = a.paymentFlow
  paymentReference : b.paymentReference = a.paymentReference
  expiresAt : b.expiresAt = a.expiresAt
  declineReason : b.declineReason = a.declineReason
  createdAt : b.createdAt = a.createdAt

namespace SameIdentity

theorem refl (a : PaymentRecord) : SameIdentity a a := ⟨rfl, rfl, rfl, rfl, rfl, rfl, rfl, rfl, rfl⟩

theorem trans {a b c : PaymentRecord} (h : SameIdentity a b) (k : SameIdentity b c) :
    SameIdentity a c :=
  ⟨k.id.trans h.id, k.merchantReference.trans h.merchantReference, k.amount.trans h.amount,
    k.currency.trans h.currency, k.paymentFlow.trans h.paymentFlow,
    k.paymentReference.trans h.paymentReference, k.expiresAt.trans h.expiresAt,
    k.declineReason.trans h.declineReason, k.createdAt.trans h.createdAt⟩

end SameIdentity

namespace Decides

variable {step : LifecycleStep} {before after : PaymentRecord}

theorem sameIdentity (h : Decides step before after) : SameIdentity before after := by
  obtain ⟨_, _, _, _, _, rfl⟩ := h
  exact ⟨rfl, rfl, rfl, rfl, rfl, rfl, rfl, rfl, rfl⟩

theorem version (h : Decides step before after) : after.version = before.version + 1 := by
  obtain ⟨_, _, _, _, _, rfl⟩ := h
  rfl

theorem ne (h : Decides step before after) : after ≠ before := by
  intro heq
  have := h.version
  rw [heq] at this
  omega

/-- The row before carries its state, and the row after carries the decided one. -/
theorem states (h : Decides step before after) :
    ∃ state next, paymentState before = .ok state ∧ paymentState after = .ok next ∧
      step.apply state = .ok next := by
  obtain ⟨state, next, _, hstate, hnext, rfl⟩ := h
  exact ⟨state, next, hstate, PaymentState.create_self next, hnext⟩

end Decides

/-- The fields of the state a row carries. -/
theorem paymentState_eq_ok {payment : PaymentRecord} {state : PaymentState}
    (h : paymentState payment = .ok state) :
    state.status = payment.status ∧ state.authorizedAmount = payment.authorizedAmount ∧
      state.capturedAmount = payment.capturedAmount ∧
      state.refundedAmount = payment.refundedAmount := PaymentState.create_eq_ok h

/-! ## Accounts -/

/-- One payment: its row, its ledger and its events, each in the order it was written. It is the
abstract state that the laws about a payment are stated over; the tables hold one of each for every
payment, and `Database.account` reads it off them. -/
@[ext]
structure Account where
  row : PaymentRecord
  ledger : List LedgerEntryRecord
  events : List PublishedEvent

namespace Account

/-- An account as an authorization leaves it: the terms the pure function decides, whatever clock and
ids it was given, with a ledger entry where it was approved and the one event that announces it. -/
def Opened (account : Account) : Prop :=
  ∃ command terms now hex reference ledger event,
    authorizationTerms command now reference = .ok terms ∧
      account.row = newPayment command terms now hex ∧
      account.ledger = (authorizationEntry account.row ledger).toList ∧
      account.events = [publishedEvent account.row terms.eventType event]

/-- One lifecycle step: one row decided, its ledger row, and one event of the new version. A
confirmation captures the amount that was asked for. -/
structure Extends (step : LifecycleStep) (a b : Account) : Prop where
  decided : Decides step a.row b.row
  confirmed : ∀ amount, step = .captureConfirmation amount → amount = a.row.amount
  ledger : ∃ id now, b.ledger = a.ledger ++ (step.entry a.row b.row id now).toList
  events : ∃ hex, b.events = a.events ++ [publishedEvent b.row step.eventType hex]

/-- An account and the lifecycle steps it went through since it was opened as `first`. The steps are
listed from the oldest; nothing is said of who asked for them, or when. -/
inductive Lived (first : Account) : Account → List LifecycleStep → Prop
  | opened : first.Opened → Lived first first []
  | extended {a b : Account} {steps : List LifecycleStep} {step : LifecycleStep} :
      Lived first a steps → Extends step a b → Lived first b (steps ++ [step])

variable {first a b : Account} {steps : List LifecycleStep} {step : LifecycleStep}

theorem Lived.first_opened (h : Lived first a steps) : first.Opened := by
  induction h with
  | opened h => exact h
  | extended _ _ ih => exact ih

/-- The columns an authorization fixes never change. -/
theorem Lived.sameIdentity (h : Lived first a steps) : SameIdentity first.row a.row := by
  induction h with
  | opened _ => exact .refl _
  | extended _ e ih => exact ih.trans e.decided.sameIdentity

/-! ## Opening -/

/-- The three rows an authorization creates. -/
theorem Opened.cases (h : a.Opened) :
    0 ≤ a.row.authorizedAmount ∧ a.row.capturedAmount = 0 ∧ a.row.refundedAmount = 0 ∧
      a.row.version = 1 ∧
      ((a.row.status = .awaitingPayment ∧ a.row.paymentFlow = .asynchronousConfirmation ∧
          a.row.authorizedAmount = 0 ∧ ∃ hex, a.events = [publishedEvent a.row .confirmationRequested hex]) ∨
        (a.row.status = .authorized ∧ a.row.paymentFlow = .synchronous ∧
          a.row.authorizedAmount = a.row.amount ∧ 0 < a.row.amount ∧
          ∃ hex, a.events = [publishedEvent a.row .authorized hex]) ∨
        (a.row.status = .declined ∧ a.row.paymentFlow = .synchronous ∧
          a.row.authorizedAmount = 0 ∧ ∃ hex, a.events = [publishedEvent a.row .declined hex])) := by
  obtain ⟨command, terms, now, hex, reference, ledger, event, hterms, hrow, _, hevents⟩ := h
  unfold authorizationTerms at hterms
  split at hterms
  · cases hterms
    rw [hrow] at hevents ⊢
    exact ⟨le_refl _, rfl, rfl, rfl, .inl ⟨rfl, rfl, rfl, event, hevents⟩⟩
  · next decision _ =>
    cases hres : authorize command.amount decision with
    | error e => rw [hres] at hterms; cases hterms
    | ok result =>
      rw [hres] at hterms
      cases hterms
      obtain ⟨hpos, hcases⟩ := authorize_eq_ok hres
      rw [hrow] at hevents ⊢
      rcases hcases with ⟨hstatus, hamount, _⟩ | ⟨hstatus, hamount, _⟩
      · refine ⟨?_, rfl, rfl, rfl, .inr (.inl ⟨hstatus, rfl, hamount, hpos, event, ?_⟩)⟩
        · show 0 ≤ result.authorizedAmount
          omega
        · simpa only [hstatus, if_true] using hevents
      · refine ⟨?_, rfl, rfl, rfl, .inr (.inr ⟨hstatus, rfl, hamount, event, ?_⟩)⟩
        · show 0 ≤ result.authorizedAmount
          omega
        · simpa only [hstatus, reduceCtorEq, if_false] using hevents

/-- The ledger of an opened account: its authorized balance, or nothing. -/
theorem Opened.ledger (h : a.Opened) : ∃ hex, a.ledger = (authorizationEntry a.row hex).toList := by
  obtain ⟨_, _, _, _, _, ledger, _, _, _, hledger, _⟩ := h
  exact ⟨ledger, hledger⟩

end Account

end PaymentLab
