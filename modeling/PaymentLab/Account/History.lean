import Mathlib.Data.List.Chain
import PaymentLab.Account.Model

/-!
# The published history

The events of an account are its history: one for each version, the last one the row as it stands,
and the statuses in order a path of the documented state machine. The pure functions are connected
to the documented transitions by `Decides.documented`.

The state machine is written out as the requirements document it, as a relation on statuses
(`PaymentStatus.Documented`), and the pure functions are shown to take no other transition. The
converse, that each documented transition is taken by some function, is not claimed here.
-/

namespace PaymentLab

/-! ## The documented state machine -/

/-- The statuses a payment starts in, by the decision of its authorization. -/
def PaymentStatus.IsStart (status : PaymentStatus) : Prop :=
  status = .authorized ∨ status = .declined ∨ status = .awaitingPayment

/-- The documented transitions, as the requirements list them and not as the code decides them; that
the code takes no other is proved. A status with no transition listed is absorbing. -/
def PaymentStatus.Documented : PaymentStatus → PaymentStatus → Prop
  | .authorized, .captured | .authorized, .cancelled => True
  | .awaitingPayment, .captured | .awaitingPayment, .expired | .awaitingPayment, .cancelled => True
  | .captured, .partiallyRefunded | .captured, .refunded => True
  | .partiallyRefunded, .partiallyRefunded | .partiallyRefunded, .refunded => True
  | _, _ => False

/-- The event type that announces the arrival in a status. -/
def PaymentStatus.announcedBy : PaymentStatus → WebhookEventType
  | .authorized => .authorized
  | .awaitingPayment => .confirmationRequested
  | .declined => .declined
  | .captured => .captured
  | .partiallyRefunded | .refunded => .refunded
  | .cancelled => .cancelled
  | .expired => .expired

/-- A path of the state machine from a start. A partial refund may be followed by another, so that a
status can repeat. -/
def LegalPath (statuses : List PaymentStatus) : Prop :=
  (∃ start ∈ statuses.head?, start.IsStart) ∧ statuses.IsChain PaymentStatus.Documented

/-- The columns of a snapshot that an authorization fixes, against the row of its payment. Status,
balances, version and the time of the update are the ones that move. -/
structure PaymentSnapshot.SharesIdentity (snapshot : PaymentSnapshot) (payment : PaymentRecord) :
    Prop where
  id : snapshot.id = payment.id
  merchantReference : snapshot.merchantReference = payment.merchantReference
  amount : snapshot.amount = payment.amount
  currency : snapshot.currency = payment.currency
  paymentFlow : snapshot.paymentFlow = payment.paymentFlow
  paymentReference : snapshot.paymentReference = payment.paymentReference
  expiresAt : snapshot.expiresAt = payment.expiresAt
  declineReason : snapshot.declineReason = payment.declineReason
  createdAt : snapshot.createdAt = payment.createdAt

theorem SameIdentity.snapshot {a b : PaymentRecord} (h : SameIdentity a b)
    {snapshot : PaymentSnapshot} (s : snapshot.SharesIdentity a) : snapshot.SharesIdentity b :=
  ⟨s.id.trans h.id.symm, s.merchantReference.trans h.merchantReference.symm,
    s.amount.trans h.amount.symm, s.currency.trans h.currency.symm,
    s.paymentFlow.trans h.paymentFlow.symm, s.paymentReference.trans h.paymentReference.symm,
    s.expiresAt.trans h.expiresAt.symm, s.declineReason.trans h.declineReason.symm,
    s.createdAt.trans h.createdAt.symm⟩

theorem PaymentSnapshot.fromPayment_sharesIdentity (payment : PaymentRecord) :
    (PaymentSnapshot.fromPayment payment).SharesIdentity payment :=
  ⟨rfl, rfl, rfl, rfl, rfl, rfl, rfl, rfl, rfl⟩

/-! ## Steps follow the state machine -/

/-- **The pure functions are the documented transitions**, and each step is announced by the event
type of the status it arrives in. -/
theorem Decides.documented {step : LifecycleStep} {before after : PaymentRecord}
    (h : Decides step before after) :
    before.status.Documented after.status ∧ step.eventType = after.status.announcedBy := by
  obtain ⟨state, next, hbefore, hafter, happly⟩ := h.states
  rw [← (paymentState_eq_ok hbefore).1, ← (paymentState_eq_ok hafter).1]
  cases step with
  | capture =>
    obtain ⟨hs, hs', _⟩ := capture_eq_ok happly
    rw [hs, hs']
    exact ⟨trivial, rfl⟩
  | captureConfirmation amount =>
    obtain ⟨hs, _, hs', _⟩ := captureConfirmation_eq_ok happly
    rw [hs, hs']
    exact ⟨trivial, rfl⟩
  | expire =>
    obtain ⟨hs, hs', _⟩ := expire_eq_ok happly
    rw [hs, hs']
    exact ⟨trivial, rfl⟩
  | cancel =>
    obtain ⟨hs, hs', _⟩ := cancel_eq_ok happly
    rcases hs with hs | hs <;> rw [hs, hs'] <;> exact ⟨trivial, rfl⟩
  | refund amount =>
    obtain ⟨hs, _, _, hs', _⟩ := refund_eq_ok happly
    rw [hs']
    rcases hs with hs | hs <;> rw [hs] <;> split <;> exact ⟨trivial, rfl⟩

namespace Account

/-- The events of an account are the history of its row. -/
structure Published (account : Account) : Prop where
  versions : account.events.map (·.aggregateVersion) = List.range' 1 account.row.version
  current : ∃ event, account.events.getLast? = some event ∧
    event.payload.payment = .fromPayment account.row
  legal : LegalPath (account.events.map (·.payload.payment.status))
  announced : ∀ event ∈ account.events,
    event.eventType = event.payload.payment.status.announcedBy
  consistent : ∀ event ∈ account.events,
    event.payload.id = event.id ∧ event.payload.type = event.eventType ∧
      event.payload.aggregateVersion = event.aggregateVersion ∧
      event.payload.payment.version = event.aggregateVersion
  identity : ∀ event ∈ account.events, event.payload.payment.SharesIdentity account.row

variable {first a b : Account} {steps : List LifecycleStep} {step : LifecycleStep}

/-- The start statuses, and the event type that announces each. -/
theorem Opened.start (h : a.Opened) :
    a.row.status.IsStart ∧
      ∃ hex, a.events = [publishedEvent a.row a.row.status.announcedBy hex] := by
  obtain ⟨_, _, _, _, hcases⟩ := h.cases
  rcases hcases with ⟨hs, _, _, hex, he⟩ | ⟨hs, _, _, _, hex, he⟩ | ⟨hs, _, _, hex, he⟩ <;>
    rw [hs]
  · exact ⟨.inr (.inr rfl), hex, he⟩
  · exact ⟨.inl rfl, hex, he⟩
  · exact ⟨.inr (.inl rfl), hex, he⟩

theorem Opened.published (h : a.Opened) : a.Published := by
  obtain ⟨hstart, hex, hevents⟩ := h.start
  obtain ⟨_, _, _, hversion, _⟩ := h.cases
  refine ⟨?_, ?_, ?_, ?_, ?_, ?_⟩ <;> rw [hevents]
  · rw [hversion]
    show [a.row.version] = _
    rw [hversion]
    rfl
  · exact ⟨_, rfl, rfl⟩
  · exact ⟨⟨a.row.status, rfl, hstart⟩, .singleton _⟩
  · intro event mem
    rw [List.mem_singleton.mp mem]
    rfl
  · intro event mem
    rw [List.mem_singleton.mp mem]
    exact ⟨rfl, rfl, rfl, rfl⟩
  · intro event mem
    rw [List.mem_singleton.mp mem]
    exact PaymentSnapshot.fromPayment_sharesIdentity a.row

theorem Extends.published (e : Extends step a b) (h : a.Published) : b.Published := by
  obtain ⟨hex, hevents⟩ := e.events
  obtain ⟨hdoc, htype⟩ := e.decided.documented
  have hversion := e.decided.version
  have hsame := e.decided.sameIdentity
  obtain ⟨last, hlast, hcurrent⟩ := h.current
  -- a property of every event holds of the old ones by hypothesis and of the new one by definition
  have forEach : ∀ {P : PublishedEvent → Prop}, (∀ event ∈ a.events, P event) →
      P (publishedEvent b.row step.eventType hex) → ∀ event ∈ b.events, P event := by
    intro P old new event mem
    rw [hevents] at mem
    rcases List.mem_append.mp mem with mem | mem
    · exact old event mem
    · rw [List.mem_singleton.mp mem]
      exact new
  refine ⟨?_, ?_, ?_, ?_, ?_, ?_⟩
  · rw [hevents, List.map_append, h.versions, hversion, List.range'_concat]
    show _ ++ [b.row.version] = _
    rw [hversion, Nat.one_mul, Nat.add_comm]
  · exact ⟨_, by rw [hevents, List.getLast?_append]; rfl, rfl⟩
  · obtain ⟨⟨start, hstart, hs⟩, chain⟩ := h.legal
    rw [hevents, List.map_append]
    refine ⟨⟨start, ?_, hs⟩, ?_⟩
    · rw [List.head?_append, Option.mem_def.mp hstart]
      rfl
    · refine List.isChain_append.mpr ⟨chain, .singleton _, fun x hx y hy => ?_⟩
      rw [List.getLast?_map, hlast] at hx
      cases hx
      cases hy
      show last.payload.payment.status.Documented b.row.status
      rw [hcurrent]
      exact hdoc
  · exact forEach h.announced htype
  · exact forEach h.consistent ⟨rfl, rfl, rfl, rfl⟩
  · exact forEach (fun event mem => hsame.snapshot (h.identity event mem))
      (PaymentSnapshot.fromPayment_sharesIdentity b.row)

/-- **The outbox is the history of the row**, whatever steps the account went through. -/
theorem Lived.published (h : Lived first a steps) : a.Published := by
  induction h with
  | opened h => exact h.published
  | extended _ e ih => exact e.published ih

end Account

end PaymentLab
