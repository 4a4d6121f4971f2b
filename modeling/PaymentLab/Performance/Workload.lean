import PaymentLab.Api.Routes
import PaymentLab.Performance.Profiles

/-!
# The load script

`tests/performance/payment_api.js`, and the counts of `profiles.js` it runs under: the requests each
profile sends, and the checks it makes on their answers. The script and the verifier name the payments
of a run on their own, in two languages; `authorizations_expected` says that they name the same ones.

What the script measures, and when it sends what, are left out.
-/

namespace PaymentLab

open Api

/-- An outcome of `paymentInput`, which decides the token it sends. -/
inductive LoadOutcome where
  | approved
  | declined
  deriving DecidableEq, Repr

/-- `currencyFor`. -/
def currencyFor (index : Nat) : Currency := if index % 2 = 0 then .jpy else .usd

/-- `amountFor`. -/
def amountFor (currency : Currency) : Int := if currency = .jpy then 2500 else 1099

/-- What `paymentInput` returns; the fields of its body stand beside the others. -/
structure PaymentInput where
  merchantReference : String
  amount : Int
  currency : Currency
  paymentMethodToken : String
  key : String
  outcome : LoadOutcome
  deriving DecidableEq, Repr

/-- `input.body`. -/
def PaymentInput.body (input : PaymentInput) : Json :=
  .obj [("merchant_reference", .str input.merchantReference), ("amount", .int input.amount),
    ("currency", .str input.currency.value), ("payment_method_token", .str input.paymentMethodToken)]

section Script

variable (runId profile : String)

/-- `paymentInput`. -/
def paymentInput (phase : String) (index : Nat) (outcome : LoadOutcome) : PaymentInput :=
  let currency := currencyFor index
  { merchantReference := "perf-" ++ runId ++ "-" ++ profile ++ "-" ++ phase ++ "-" ++ index.repr
    amount := amountFor currency
    currency := currency
    paymentMethodToken := if outcome = .approved then "tok_approved" else "tok_declined"
    key := "perf-" ++ runId ++ "-" ++ profile ++ "-" ++ phase ++ "-" ++ index.repr ++ "-key"
    outcome := outcome }

/-! ## Authorizations -/

/-- The payments `createPool` authorizes. -/
def createPool (size : Nat) : List PaymentInput :=
  (List.range size).map fun index => paymentInput runId profile "setup" index .approved

/-- The payments `setup` authorizes. -/
def setupInputs : List PaymentInput :=
  if profile = "smoke" then []
  else if profile = "authorization" then
    (List.range 5).map fun index => paymentInput runId profile "warmup" index .approved
  else if profile = "retrieval" ∨ profile = "mixed" then createPool runId profile 20
  else if profile = "idempotent-burst" then [paymentInput runId profile "setup" 0 .approved]
  else []

/-- The payment an iteration of `smoke`, `authorization` or `mixedAuthorization` authorizes. -/
def iterationInput (index : Nat) : PaymentInput :=
  paymentInput runId profile "load" index
    (if profile = "smoke" ∧ index = 4 then .declined else .approved)

/-- The count of `measured_authorizations` in `EXACT_COUNT_THRESHOLDS`; a profile without it authorizes
in `setup` only. -/
def measuredAuthorizations : Nat :=
  if profile = "smoke" then 5
  else if profile = "authorization" then 150
  else if profile = "mixed" then 120
  else 0

/-- The payments a run authorizes that meets its exact counts. -/
def authorizations : List PaymentInput :=
  setupInputs runId profile ++
    (List.range (measuredAuthorizations profile)).map (iterationInput runId profile)

/-! ## Requests -/

/-- The request of `authorize` and of `replay`. -/
def PaymentInput.call (input : PaymentInput) : Call :=
  .createPayment (some input.key) none (.json input.body)

/-- The requests of a run: authorizations and replays, retrievals, and the probes of its start. A
retrieval may ask for any id; the script takes it from the answer to an authorization. -/
inductive ScriptCall : Call → Prop
  | authorize {input : PaymentInput} : input ∈ authorizations runId profile → ScriptCall input.call
  | retrieve (paymentId : String) : ScriptCall (.retrievePayment paymentId)
  | probe : ScriptCall .health

end Script

/-! ## Checks -/

/-- What `parseBody` has of a payment: no other answer to the script has its fields. -/
def parseBody (response : Response) : Option Api.PaymentResponse :=
  match response.body with
  | .payment payment => some payment
  | _ => none

/-- A comparison of fields of the body. -/
def bodyHas (response : Response) (compared : Api.PaymentResponse → Bool) : Bool :=
  (parseBody response).any compared

/-- The comparison of the money. -/
def sameMoney (input : PaymentInput) (payment : Api.PaymentResponse) : Bool :=
  decide (payment.amount = input.amount) && decide (payment.currency = input.currency)

/-- The checks of `authorize`. -/
def authorizeChecks (input : PaymentInput) (response : Response) : List (String × Bool) :=
  [("authorization returns created", decide (response.status = 201)),
    ("authorization returns expected reference",
      bodyHas response fun payment => decide (payment.merchantReference = input.merchantReference)),
    ("authorization returns expected money", bodyHas response (sameMoney input)),
    ("authorization returns expected outcome", bodyHas response fun payment =>
      decide (payment.status = if input.outcome = .approved then .authorized else .declined))]

/-- The checks of `replay`. -/
def replayChecks (input : PaymentInput) (paymentId : String) (response : Response) :
    List (String × Bool) :=
  [("replay returns success", decide (response.status = 200)),
    ("replay is identified", response.replayed),
    ("replay returns original payment",
      bodyHas response fun payment => decide (payment.id = paymentId)),
    ("replay returns original money", bodyHas response (sameMoney input))]

/-- The checks of `retrieve`. -/
def retrieveChecks (paymentId expectedReference : String) (response : Response) :
    List (String × Bool) :=
  [("retrieval returns success", decide (response.status = 200)),
    ("retrieval returns expected payment", bodyHas response fun payment =>
      decide (payment.id = paymentId) && decide (payment.merchantReference = expectedReference))]

/-- The threshold `rate==1`: every check held. -/
def Passes (checks : List (String × Bool)) : Prop := checks.all (·.2) = true

/-! ## The payments of the verifier -/

section Agreement

variable (runId profile : String)

/-- The input under which the script makes an expected payment. -/
def ExpectedPayment.input (payment : ExpectedPayment) : PaymentInput :=
  paymentInput runId profile payment.phase payment.index
    (if payment.approved then .approved else .declined)

/-- An input has the names and the money the verifier expects. -/
theorem ExpectedPayment.input_eq (payment : ExpectedPayment) :
    (payment.input runId profile).merchantReference = reference runId profile payment ∧
      (payment.input runId profile).key = idempotencyKey runId profile payment ∧
      (payment.input runId profile).amount = payment.amount ∧
      (payment.input runId profile).currency = payment.currency := ⟨rfl, rfl, rfl, rfl⟩

/-- **The script authorizes what the verifier expects.** -/
theorem authorizations_expected {expected : List ExpectedPayment}
    (h : expectedPayments profile = .ok expected) :
    authorizations runId profile = expected.map (·.input runId profile) := by
  have phased : ∀ phase count, (phasePayments phase count).map (·.input runId profile) =
      (List.range count).map fun index => paymentInput runId profile phase index .approved := by
    intro phase count
    rw [phasePayments, List.map_map]
    rfl
  unfold expectedPayments at h
  split at h
  · next hprofile =>
    cases h
    subst hprofile
    rfl
  · split at h
    · next hprofile =>
      cases h
      subst hprofile
      rw [List.map_append, phased, phased]
      rfl
    · split at h
      · next hprofile =>
        cases h
        subst hprofile
        rw [phased]
        exact List.append_nil _
      · split at h
        · next hprofile =>
          cases h
          subst hprofile
          rfl
        · split at h
          · next hprofile =>
            cases h
            subst hprofile
            rw [List.map_append, phased, phased]
            rfl
          · cases h

end Agreement

end PaymentLab
