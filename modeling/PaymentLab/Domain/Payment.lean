import Mathlib.Algebra.Order.Ring.Int
import Mathlib.Tactic.Common

/-!
# The payment domain

`domain/payment.py`: the enumerations, the financial state of one payment, and the pure lifecycle
functions. `PaymentState` carries the three balance rules of `__post_init__` as fields, so a state
that breaks one cannot be built; `PaymentState.create` is the constructor that raises.

Amounts are integer minor units.
-/

namespace PaymentLab

/-- `Currency`. -/
inductive Currency where
  | usd
  | jpy
  deriving DecidableEq, Repr

/-- The stored value of a currency. -/
def Currency.value : Currency → String
  | .usd => "USD"
  | .jpy => "JPY"

/-- The members of `Currency`. -/
def Currency.all : List Currency := [.usd, .jpy]

/-- `PaymentStatus`. -/
inductive PaymentStatus where
  | authorized
  | awaitingPayment
  | declined
  | captured
  | partiallyRefunded
  | refunded
  | cancelled
  | expired
  deriving DecidableEq, Repr

/-- The stored value of a status. -/
def PaymentStatus.value : PaymentStatus → String
  | .authorized => "AUTHORIZED"
  | .awaitingPayment => "AWAITING_PAYMENT"
  | .declined => "DECLINED"
  | .captured => "CAPTURED"
  | .partiallyRefunded => "PARTIALLY_REFUNDED"
  | .refunded => "REFUNDED"
  | .cancelled => "CANCELLED"
  | .expired => "EXPIRED"

/-- The members of `PaymentStatus`. -/
def PaymentStatus.all : List PaymentStatus :=
  [.authorized, .awaitingPayment, .declined, .captured, .partiallyRefunded, .refunded, .cancelled,
    .expired]

/-- `AuthorizationDecision`: the deterministic test tokens. -/
inductive AuthorizationDecision where
  | approve
  | decline
  | declineInsufficientFunds
  | declineLimitExceeded
  | declineExpired
  | declineVerification
  | declineInvalid
  | declineUnknown
  deriving DecidableEq, Repr

/-- The token text of a decision. -/
def AuthorizationDecision.value : AuthorizationDecision → String
  | .approve => "tok_approved"
  | .decline => "tok_declined"
  | .declineInsufficientFunds => "tok_declined_insufficient_funds"
  | .declineLimitExceeded => "tok_declined_limit_exceeded"
  | .declineExpired => "tok_declined_expired"
  | .declineVerification => "tok_declined_verification"
  | .declineInvalid => "tok_declined_invalid"
  | .declineUnknown => "tok_declined_unknown"

/-- `PaymentMethodDecision`: an authorization token, or the one `DelayedPaymentDecision`. -/
inductive PaymentMethodDecision where
  | authorization (decision : AuthorizationDecision)
  | awaitConfirmation
  deriving DecidableEq, Repr

/-- The token text of a payment method. -/
def PaymentMethodDecision.value : PaymentMethodDecision → String
  | .authorization decision => decision.value
  | .awaitConfirmation => "tok_awaiting_confirmation"

/-- `PaymentFlow`. -/
inductive PaymentFlow where
  | synchronous
  | asynchronousConfirmation
  deriving DecidableEq, Repr

/-- The stored value of a flow. -/
def PaymentFlow.value : PaymentFlow → String
  | .synchronous => "SYNCHRONOUS"
  | .asynchronousConfirmation => "ASYNCHRONOUS_CONFIRMATION"

/-- The members of `PaymentFlow`. -/
def PaymentFlow.all : List PaymentFlow := [.synchronous, .asynchronousConfirmation]

/-- `DeclineReason`. -/
inductive DeclineReason where
  | insufficientFunds
  | limitExceeded
  | expiredPaymentMethod
  | verificationFailed
  | invalidPaymentMethod
  | unknown
  deriving DecidableEq, Repr

/-- The stored value of a decline reason. -/
def DeclineReason.value : DeclineReason → String
  | .insufficientFunds => "insufficient_funds"
  | .limitExceeded => "limit_exceeded"
  | .expiredPaymentMethod => "expired_payment_method"
  | .verificationFailed => "verification_failed"
  | .invalidPaymentMethod => "invalid_payment_method"
  | .unknown => "unknown"

/-- The members of `DeclineReason`. -/
def DeclineReason.all : List DeclineReason :=
  [.insufficientFunds, .limitExceeded, .expiredPaymentMethod, .verificationFailed,
    .invalidPaymentMethod, .unknown]

/-- `DECLINE_REASON_BY_DECISION`, the keys without an entry left to `none`. -/
def declineReasonByDecision : AuthorizationDecision → Option DeclineReason
  | .approve => none
  | .decline => some .unknown
  | .declineInsufficientFunds => some .insufficientFunds
  | .declineLimitExceeded => some .limitExceeded
  | .declineExpired => some .expiredPaymentMethod
  | .declineVerification => some .verificationFailed
  | .declineInvalid => some .invalidPaymentMethod
  | .declineUnknown => some .unknown

/-- `PaymentOperation`. -/
inductive PaymentOperation where
  | authorize
  | capture
  | cancel
  | refund
  | confirmationCapture
  | expire
  deriving DecidableEq, Repr

/-- The stored value of an operation. -/
def PaymentOperation.value : PaymentOperation → String
  | .authorize => "AUTHORIZE"
  | .capture => "CAPTURE"
  | .cancel => "CANCEL"
  | .refund => "REFUND"
  | .confirmationCapture => "CONFIRMATION_CAPTURE"
  | .expire => "EXPIRE"

/-- What a pure lifecycle function raises. The messages are the source's where a caller can see them. -/
inductive DomainError where
  | valueError (message : String)
  | keyError
  | invalidTransition (operation : PaymentOperation) (status : PaymentStatus)
  | refundAmountExceeded (requested available : Int)
  deriving DecidableEq, Repr

/-- `AuthorizationResult`: the status, the authorized amount, and the reason of a decline. -/
structure AuthorizationResult where
  status : PaymentStatus
  authorizedAmount : Int
  declineReason : Option DeclineReason
  deriving DecidableEq, Repr

/-- `PaymentState`: the status and balances of one payment, with the rules `__post_init__`
enforces. -/
@[ext]
structure PaymentState where
  status : PaymentStatus
  authorizedAmount : Int
  capturedAmount : Int
  refundedAmount : Int
  nonnegative : 0 ≤ authorizedAmount ∧ 0 ≤ capturedAmount ∧ 0 ≤ refundedAmount
  captured_le_authorized : capturedAmount ≤ authorizedAmount
  refunded_le_captured : refundedAmount ≤ capturedAmount
  deriving DecidableEq

namespace PaymentState

/-- The dataclass constructor: the checks of `__post_init__` in their order. -/
def create (status : PaymentStatus) (authorizedAmount capturedAmount refundedAmount : Int) :
    Except DomainError PaymentState :=
  if nonnegative : 0 ≤ authorizedAmount ∧ 0 ≤ capturedAmount ∧ 0 ≤ refundedAmount then
    if captured : capturedAmount ≤ authorizedAmount then
      if refunded : refundedAmount ≤ capturedAmount then
        .ok ⟨status, authorizedAmount, capturedAmount, refundedAmount,
          nonnegative, captured, refunded⟩
      else .error (.valueError "Refunded amount cannot exceed captured amount")
    else .error (.valueError "Captured amount cannot exceed authorized amount")
  else .error (.valueError "Payment balances cannot be negative")

/-- `refundable_amount`: the captured balance not yet refunded. -/
def refundableAmount (state : PaymentState) : Int := state.capturedAmount - state.refundedAmount

/-- What the constructor accepts is the state with exactly the given fields. -/
theorem create_eq_ok {status : PaymentStatus} {authorized captured refunded : Int}
    {state : PaymentState} (h : create status authorized captured refunded = .ok state) :
    state.status = status ∧ state.authorizedAmount = authorized ∧
      state.capturedAmount = captured ∧ state.refundedAmount = refunded := by
  unfold create at h
  split at h
  · split at h
    · split at h
      · cases h; exact ⟨rfl, rfl, rfl, rfl⟩
      · cases h
    · cases h
  · cases h

/-- The constructor gives a state back from its own fields. -/
theorem create_self (state : PaymentState) :
    create state.status state.authorizedAmount state.capturedAmount state.refundedAmount =
      .ok state := by
  unfold create
  rw [dif_pos state.nonnegative, dif_pos state.captured_le_authorized,
    dif_pos state.refunded_le_captured]

/-- The constructor accepts balances that satisfy the three rules. -/
theorem create_of_valid (status : PaymentStatus) {authorized captured refunded : Int}
    (nonnegative : 0 ≤ refunded) (refunded_le : refunded ≤ captured)
    (captured_le : captured ≤ authorized) :
    ∃ state, create status authorized captured refunded = .ok state := by
  unfold create
  rw [dif_pos ⟨by omega, by omega, nonnegative⟩, dif_pos captured_le, dif_pos refunded_le]
  exact ⟨_, rfl⟩

end PaymentState

/-- `authorize`: approve or decline a validated positive amount. -/
def authorize (amount : Int) (decision : AuthorizationDecision) :
    Except DomainError AuthorizationResult :=
  if amount ≤ 0 then .error (.valueError "Payment amount must be positive")
  else if decision = .approve then
    .ok { status := .authorized, authorizedAmount := amount, declineReason := none }
  else
    match declineReasonByDecision decision with
    | some reason => .ok { status := .declined, authorizedAmount := 0, declineReason := some reason }
    | none => .error .keyError

/-- `capture`: the full amount of an authorized payment. -/
def capture (state : PaymentState) : Except DomainError PaymentState :=
  if state.status ≠ .authorized then .error (.invalidTransition .capture state.status)
  else PaymentState.create .captured state.authorizedAmount state.authorizedAmount 0

/-- `capture_confirmation`: recognize and capture a confirmed delayed payment. -/
def captureConfirmation (state : PaymentState) (amount : Int) : Except DomainError PaymentState :=
  if state.status ≠ .awaitingPayment then
    .error (.invalidTransition .confirmationCapture state.status)
  else if amount ≤ 0 then .error (.valueError "Confirmed amount must be positive")
  else PaymentState.create .captured amount amount 0

/-- `expire`: end a delayed payment without a financial effect. -/
def expire (state : PaymentState) : Except DomainError PaymentState :=
  if state.status ≠ .awaitingPayment then .error (.invalidTransition .expire state.status)
  else PaymentState.create .expired state.authorizedAmount state.capturedAmount state.refundedAmount

/-- `cancel`: end an authorization or an unpaid awaiting request. -/
def cancel (state : PaymentState) : Except DomainError PaymentState :=
  if state.status ≠ .authorized ∧ state.status ≠ .awaitingPayment then
    .error (.invalidTransition .cancel state.status)
  else PaymentState.create .cancelled state.authorizedAmount 0 0

/-- `refund`: a positive partial or full refund of captured funds. -/
def refund (state : PaymentState) (amount : Int) : Except DomainError PaymentState :=
  if state.status ≠ .captured ∧ state.status ≠ .partiallyRefunded then
    .error (.invalidTransition .refund state.status)
  else if amount ≤ 0 then .error (.valueError "Refund amount must be positive")
  else if amount > state.refundableAmount then
    .error (.refundAmountExceeded amount state.refundableAmount)
  else
    PaymentState.create
      (if state.refundedAmount + amount = state.capturedAmount then .refunded
        else .partiallyRefunded)
      state.authorizedAmount state.capturedAmount (state.refundedAmount + amount)

/-! ## What each function does when it does not raise -/

theorem capture_eq_ok {state next : PaymentState} (h : capture state = .ok next) :
    state.status = .authorized ∧ next.status = .captured ∧
      next.authorizedAmount = state.authorizedAmount ∧
      next.capturedAmount = state.authorizedAmount ∧ next.refundedAmount = 0 := by
  unfold capture at h
  split at h
  · cases h
  · next hs => exact ⟨not_not.mp hs, PaymentState.create_eq_ok h⟩

theorem captureConfirmation_eq_ok {state next : PaymentState} {amount : Int}
    (h : captureConfirmation state amount = .ok next) :
    state.status = .awaitingPayment ∧ 0 < amount ∧ next.status = .captured ∧
      next.authorizedAmount = amount ∧ next.capturedAmount = amount ∧ next.refundedAmount = 0 := by
  unfold captureConfirmation at h
  split at h
  · cases h
  · next hs =>
    split at h
    · cases h
    · next hpos => exact ⟨not_not.mp hs, not_le.mp hpos, PaymentState.create_eq_ok h⟩

theorem expire_eq_ok {state next : PaymentState} (h : expire state = .ok next) :
    state.status = .awaitingPayment ∧ next.status = .expired ∧
      next.authorizedAmount = state.authorizedAmount ∧
      next.capturedAmount = state.capturedAmount ∧
      next.refundedAmount = state.refundedAmount := by
  unfold expire at h
  split at h
  · cases h
  · next hs => exact ⟨not_not.mp hs, PaymentState.create_eq_ok h⟩

theorem cancel_eq_ok {state next : PaymentState} (h : cancel state = .ok next) :
    (state.status = .authorized ∨ state.status = .awaitingPayment) ∧ next.status = .cancelled ∧
      next.authorizedAmount = state.authorizedAmount ∧
      next.capturedAmount = 0 ∧ next.refundedAmount = 0 := by
  unfold cancel at h
  split at h
  · cases h
  · next hs => exact ⟨by tauto, PaymentState.create_eq_ok h⟩

theorem refund_eq_ok {state next : PaymentState} {amount : Int}
    (h : refund state amount = .ok next) :
    (state.status = .captured ∨ state.status = .partiallyRefunded) ∧ 0 < amount ∧
      amount ≤ state.refundableAmount ∧
      next.status = (if state.refundedAmount + amount = state.capturedAmount then .refunded
        else .partiallyRefunded) ∧
      next.authorizedAmount = state.authorizedAmount ∧
      next.capturedAmount = state.capturedAmount ∧
      next.refundedAmount = state.refundedAmount + amount := by
  unfold refund at h
  split at h
  · cases h
  · next hs =>
    split at h
    · cases h
    · next hpos =>
      split at h
      · cases h
      · next hle =>
        exact ⟨by tauto, not_le.mp hpos, not_lt.mp hle, PaymentState.create_eq_ok h⟩

/-- An authorization approves the whole amount or declines with a reason and no balance. -/
theorem authorize_eq_ok {amount : Int} {decision : AuthorizationDecision}
    {result : AuthorizationResult} (h : authorize amount decision = .ok result) :
    0 < amount ∧
      ((result.status = .authorized ∧ result.authorizedAmount = amount ∧
          result.declineReason = none) ∨
        (result.status = .declined ∧ result.authorizedAmount = 0 ∧
          ∃ reason, result.declineReason = some reason)) := by
  unfold authorize at h
  split at h
  · cases h
  · next hpos =>
    refine ⟨not_le.mp hpos, ?_⟩
    split at h
    · cases h; exact .inl ⟨rfl, rfl, rfl⟩
    · split at h
      · next reason _ => cases h; exact .inr ⟨rfl, rfl, reason, rfl⟩
      · cases h

/-! ## The lifecycle as one transition function -/

/-- One pure lifecycle function with its argument. A run of the pure functions is a list of these. -/
inductive LifecycleStep where
  | capture
  | captureConfirmation (amount : Int)
  | expire
  | cancel
  | refund (amount : Int)
  deriving DecidableEq, Repr

/-- Run the pure function a step names. -/
def LifecycleStep.apply (state : PaymentState) : LifecycleStep → Except DomainError PaymentState
  | .capture => PaymentLab.capture state
  | .captureConfirmation amount => PaymentLab.captureConfirmation state amount
  | .expire => PaymentLab.expire state
  | .cancel => PaymentLab.cancel state
  | .refund amount => PaymentLab.refund state amount

/-- A sequential run of the pure functions. -/
def runLifecycle (state : PaymentState) (steps : List LifecycleStep) :
    Except DomainError PaymentState := steps.foldlM LifecycleStep.apply state

end PaymentLab
