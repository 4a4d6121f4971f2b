import PaymentLab.Persistence.Models

/-!
# Ledger totals

The part of `services/reconciliation.py` that derives balances from immutable ledger entries alone.
-/

namespace PaymentLab

/-- `LedgerTotals`. -/
@[ext]
structure LedgerTotals where
  authorized : Int
  captured : Int
  refunded : Int
  deriving DecidableEq, Repr

/-- `net_captured`. -/
def LedgerTotals.netCaptured (totals : LedgerTotals) : Int := totals.captured - totals.refunded

/-- One round of the accounting loop: the operation decides the direction. -/
def LedgerTotals.add (totals : LedgerTotals) (entry : LedgerEntryRecord) : LedgerTotals :=
  if entry.operation = "AUTHORIZATION" then
    { totals with authorized := totals.authorized + entry.amount }
  else if entry.operation = "CAPTURE" then
    { totals with captured := totals.captured + entry.amount }
  else if entry.operation = "CONFIRMATION_CAPTURE" then
    { totals with
      authorized := totals.authorized + entry.amount
      captured := totals.captured + entry.amount }
  else if entry.operation = "REFUND" then
    { totals with refunded := totals.refunded + entry.amount }
  else totals

/-- `calculate_ledger_totals`: entries after the cutoff, when there is one, are skipped. -/
def calculateLedgerTotals (entries : List LedgerEntryRecord) (cutoff : Option Instant) :
    LedgerTotals :=
  entries.foldl
    (fun totals entry =>
      match cutoff with
      | some cutoff => if entry.createdAt > cutoff then totals else totals.add entry
      | none => totals.add entry)
    { authorized := 0, captured := 0, refunded := 0 }

end PaymentLab
