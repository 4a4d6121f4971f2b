import PaymentLab.Services.Confirmations

/-!
# Revision 0005: confirmation receipts

`migrations/versions/0005_confirmation_receipts.py`. A database at the revision before it records only
final confirmations; the revision creates the receipt table, unless a table of the same columns is
there already, and inserts one completed receipt for every final record that has none.

The inserted receipts take their content from the final records, which hold all that a confirmation
was sent with. A record whose receipt is there already is passed over, whatever that receipt holds.
-/

namespace PaymentLab

open Relational

namespace Revision0005

/-- The columns of `confirmation_receipts`. -/
def receiptColumns : List String :=
  ["confirmation_id", "request_fingerprint", "payment_reference", "amount", "currency",
    "received_at", "completed"]

/-- A database as the revision finds it: its tables, and the columns of the receipt table when one
exists. A receipt table with the expected columns has the constraints the revision itself declares. -/
structure Store where
  tables : Database
  columns : Option (List String)
  absent : columns = none → tables.confirmationReceipts = ∅

/-- The comparison of two sets of columns. -/
def sameColumns (a b : List String) : Bool := a.all (b.contains ·) && b.all (a.contains ·)

/-- The final records that `NOT EXISTS` selects. -/
def unreceipted (db : Database) : List PaymentConfirmationRecord :=
  db.paymentConfirmations.select fun c =>
    (db.confirmationReceipts.get c.confirmationId).isNone

/-- The receipt a final record is given: complete work, never replayed as pending. -/
def backfilledReceipt (c : PaymentConfirmationRecord) : ConfirmationReceiptRecord :=
  { confirmationId := c.confirmationId
    requestFingerprint := c.requestFingerprint
    paymentReference := c.paymentReference
    amount := c.amount
    currency := c.currency
    receivedAt := c.receivedAt
    completed := true }

/-- `INSERT INTO confirmation_receipts … SELECT`. -/
def backfill (db : Database) : Except ServiceError Database :=
  match db.confirmationReceipts.insertAll ((unreceipted db).map backfilledReceipt) with
  | some receipts => .ok { db with confirmationReceipts := receipts }
  | none => .error .integrityError

/-- A receipt table the revision supports, or none. With other columns the revision raises before it
writes. -/
def Store.Supported (store : Store) : Prop :=
  ∀ columns, store.columns = some columns → sameColumns columns receiptColumns = true

/-- The store with a backfilled receipt table. -/
def Store.backfilled (store : Store) : Except ServiceError Store :=
  match backfill store.tables with
  | .ok db => .ok
    { tables := db
      columns := some (store.columns.getD receiptColumns)
      absent := fun h => nomatch h }
  | .error e => .error e

/-- `upgrade`. -/
def upgrade (store : Store) : Except ServiceError Store :=
  match store.columns with
  | none => store.backfilled
  | some columns =>
    if sameColumns columns receiptColumns then store.backfilled
    else .error (.runtimeError "Existing confirmation_receipts has an unsupported shape")

end Revision0005

end PaymentLab
