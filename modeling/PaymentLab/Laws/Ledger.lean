import PaymentLab.Account.Balances
import PaymentLab.Runs.Sequential

/-!
# Ledger conservation

In every store an execution reaches, the ledger of a payment adds up to its balances, in its
currency, and the balances fit the status. The argument is `Account.Lived.balanced`; the store
refines the accounts it is about.

The statement is about every payment of every store of every run, those in between included, since
each prefix of a run is a run. Settlement imports and reports are not steps of these runs; they
write no ledger, and the platform's runs put them beside (`platform_refines`).
-/

namespace PaymentLab

open Relational Transactional

/-- The order of the balances, from the constraints of the stored row. -/
theorem balances_ordered {db : Database} {p : PaymentRecord} (hp : db.payments.get p.id = some p) :
    0 ≤ p.refundedAmount ∧ p.refundedAmount ≤ p.capturedAmount ∧
      p.capturedAmount ≤ p.authorizedAmount ∧ p.authorizedAmount ≤ p.amount := by
  have checked : p.satisfiesChecks = true := db.payments.checked p (Table.mem_iff_get.mpr hp)
  unfold PaymentRecord.satisfiesChecks at checked
  simp only [Bool.and_eq_true, decide_eq_true_eq] at checked
  obtain ⟨⟨⟨⟨⟨⟨_, hauthorized⟩, hcaptured⟩, hrefunded⟩, _⟩, _⟩, _⟩ := checked
  exact ⟨hrefunded.1, hrefunded.2, hcaptured.2, hauthorized.2⟩

/-- **Ledger conservation**, for every payment of every store that an execution reaches. The account
of the payment has lived through an opening and lifecycle steps, and `Account.Lived.balanced` is the
induction over them; the store gives the account by `Execution.consistent`. Nothing is assumed of
clocks or ids. -/
theorem ledger_conserved {ι : Type} [DecidableEq ι] {sha256 : String → String}
    {ts : List (Pool.Transition Database ι (Option Client))}
    {v : Pool.World Database ι (Option Client)} (h : Execution sha256 ts v) {p : PaymentRecord}
    (hp : v.shared.payments.get p.id = some p) :
    calculateLedgerTotals (v.shared.ledgerOf p.id) none = p.balances ∧
      (∀ entry ∈ v.shared.ledgerOf p.id, entry.currency = p.currency) ∧ p.FitsStatus ∧
      0 ≤ p.refundedAmount ∧ p.refundedAmount ≤ p.capturedAmount ∧
      p.capturedAmount ≤ p.authorizedAmount ∧ p.authorizedAmount ≤ p.amount := by
  obtain ⟨first, steps, lived⟩ := h.lived hp
  have balanced := lived.balanced
  exact ⟨balanced.totals, balanced.currency, balanced.fits, balances_ordered hp⟩

/-! ## A purchase -/

/-- An approved authorization. -/
def order : Request :=
  .authorize ⟨"order-1", 1000, .usd, .authorization .approve⟩ "authorize" none (.aware 0)
    ⟨"1", "1", "1", "1"⟩

/-- The capture of the order, a refused cancellation and a partial refund that fails after its
commit. -/
def purchase : List Request :=
  [.capture "pay_1" "capture" none 1 1 ⟨"2", "2", "2", "2"⟩,
    .cancel "pay_1" "cancel" none 2 2 ⟨"3", "3", "3", "3"⟩,
    .refund "pay_1" 400 "refund" (some .afterCommit) 3 3 ⟨"4", "4", "4", "4"⟩]

/-- The store a purchase leaves. -/
def purchaseStore : Database := (Request.calls (fun _ => "") (order :: purchase) (.empty, ∅)).1

theorem purchase_execution :
    ∃ ts last, Execution (fun _ => "") ts (alone purchaseStore last) :=
  Execution.of_calls (fun _ => "") order purchase

/-- The payment of a purchase. -/
def purchased : PaymentRecord where
  id := "pay_1"
  merchantReference := "order-1"
  amount := 1000
  currency := .usd
  status := .partiallyRefunded
  paymentFlow := .synchronous
  paymentReference := none
  expiresAt := none
  declineReason := none
  authorizedAmount := 1000
  capturedAmount := 1000
  refundedAmount := 400
  version := 3
  createdAt := 0
  updatedAt := 3

/-- A purchase conserves its balances, at the end of a run that authorizes, captures and refunds. -/
theorem purchase_conserved :
    purchaseStore.payments.get purchased.id = some purchased ∧
      calculateLedgerTotals (purchaseStore.ledgerOf purchased.id) none = purchased.balances ∧
      (∀ entry ∈ purchaseStore.ledgerOf purchased.id, entry.currency = purchased.currency) ∧
      purchased.FitsStatus ∧
      0 ≤ purchased.refundedAmount ∧ purchased.refundedAmount ≤ purchased.capturedAmount ∧
      purchased.capturedAmount ≤ purchased.authorizedAmount ∧
      purchased.authorizedAmount ≤ purchased.amount := by
  obtain ⟨ts, last, h⟩ := purchase_execution
  have stored : purchaseStore.payments.get purchased.id = some purchased := by decide +kernel
  exact ⟨stored, ledger_conserved h stored⟩

end PaymentLab
