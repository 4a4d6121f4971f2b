import PaymentLab.Laws.Settlement
import PaymentLab.Migrations.Receipts

/-!
# The receipt backfill

A final record of an earlier revision enters the two-phase protocol as finished work: its receipt is
completed, so acceptance replays it, completion answers it, recovery passes over it and nothing it
protects is pending. `receipts_backfilled` collects what the upgrade leaves.

An identity that already had a receipt keeps it, and that receipt decides the answers from then on
(`finishedAnswer`): where it holds other content than the final record, the original command is a
conflict. Whatever it holds, nothing is written again.

The store the revision finds is arbitrary but for its supported receipt table. In particular its
final records need not be those of an execution: the earlier schema could have been written by
anything, and the statement is about each of them alone. That an earlier receipt holds other content
than the record under its identity is therefore possible, and is not an error the revision looks
for.
-/

namespace PaymentLab

open Relational Transactional Transactional.Service

/-- The command a final record stores. -/
def PaymentConfirmationRecord.command (c : PaymentConfirmationRecord) : ConfirmationCommand :=
  { confirmationId := c.confirmationId
    paymentReference := c.paymentReference
    amount := c.amount
    currency := c.currency }

theorem PaymentConfirmationRecord.Matches.command {c : PaymentConfirmationRecord}
    {r : ConfirmationReceiptRecord} (h : c.Matches r) : r.command = c.command := by
  simp only [ConfirmationReceiptRecord.command, PaymentConfirmationRecord.command,
    h.confirmationId, h.paymentReference, h.amount, h.currency]

/-! ## A finished confirmation -/

section Finished

variable {sha256 : String → String} {s s' : DatabaseSession} {c : PaymentConfirmationRecord}
  {r : ConfirmationReceiptRecord}

/-- **A finished confirmation**: a final record under the fingerprint of its own fields, and the receipt
stored for its identity. The receipt need not agree with the record, neither in its fields nor in its
fingerprint; `finishedAnswer` says what that changes. -/
structure Finished (sha256 : String → String) (db : Database) (c : PaymentConfirmationRecord)
    (r : ConfirmationReceiptRecord) : Prop where
  recorded : db.paymentConfirmations.get c.confirmationId = some c
  digested : c.requestFingerprint = c.command.fingerprint sha256
  received : db.confirmationReceipts.get c.confirmationId = some r

/-- **The answer to a command under a finished identity**, decided by the receipt. Acceptance compares
the fingerprint the receipt holds with that of the command. Completion then compares the receipt's own
reference, amount and currency with the final record, and a difference there is reported as a failure
to retry. When the receipt arrived plays no part. -/
def finishedAnswer (sha256 : String → String) (c : PaymentConfirmationRecord)
    (r : ConfirmationReceiptRecord) (command : ConfirmationCommand) :
    Except ServiceError ConfirmationOutcome :=
  if r.requestFingerprint ≠ command.fingerprint sha256 then .error .confirmationIdConflict
  else if r.command = c.command then .ok { confirmation := c, replayed := true }
  else .error .confirmationProcessingUnavailable

/-- The acceptance of a command under the receipt's fingerprint is a replay. -/
theorem Finished.accept {command : ConfirmationCommand} (h : Finished sha256 s.committed c r)
    (hid : command.confirmationId = c.confirmationId)
    (same : r.requestFingerprint = command.fingerprint sha256) (clock : Datetime) :
    ∃ s', acceptConfirmation sha256 command clock s = (.ok true, s') ∧
      s'.committed = s.committed := by
  obtain ⟨answer, s', hrun⟩ : ∃ answer s', acceptConfirmation sha256 command clock s =
    (answer, s') := ⟨_, _, rfl⟩
  have hreceived : s.committed.confirmationReceipts.get command.confirmationId = some r :=
    hid ▸ h.received
  obtain ⟨_, ⟨r', hr', hsame, ⟨_, rfl⟩ | ⟨hne, _⟩⟩ | ⟨hnone, _⟩⟩ := acceptConfirmation_cases hrun
  · exact ⟨s', hrun, hsame⟩
  · cases hreceived.symm.trans hr'
    exact absurd same hne
  · cases hreceived.symm.trans hnone

/-- Its completion answers the final record if the receipt has its content, and fails otherwise. -/
theorem Finished.complete (h : Finished sha256 s.committed c r)
    (injective : Function.Injective sha256) (draws : Draws) :
    ∃ s', completeConfirmation sha256 c.confirmationId draws s =
        (if r.command = c.command then .ok { confirmation := c, replayed := true }
          else .error .confirmationIdConflict, s') ∧ s'.committed = s.committed := by
  have hid : r.confirmationId = c.confirmationId := (Table.get_eq_some h.received).2
  have houtcome : ∀ x : DatabaseSession, x.working = s.committed →
      existingOutcome r.confirmationId (r.command.fingerprint sha256) x =
        (if r.command = c.command then .ok (some { confirmation := c, replayed := true })
          else .error .confirmationIdConflict, { x with begun := true }) := by
    intro x hworking
    rw [existingOutcome_apply, hworking, hid, h.recorded]
    by_cases heq : r.command = c.command
    · rw [if_pos heq]
      simp only [h.digested, heq, ne_eq, not_true_eq_false, if_false]
    · have hne : c.requestFingerprint ≠ r.command.fingerprint sha256 := by
        rw [h.digested]
        exact fun hsame => heq (ConfirmationCommand.fingerprint_injective injective hsame).symm
      rw [if_neg heq]
      simp only [if_pos hne]
  have hreceipt : completeReceipt sha256 c.confirmationId draws (coordinated s) =
      (if r.command = c.command then
        (.ok { confirmation := c, replayed := true },
          { coordinated s with begun := false, reserved := false })
      else (.error .confirmationIdConflict, { coordinated s with begun := true })) := by
    unfold completeReceipt
    rw [bind_ok (query_apply _ _)]
    simp only [coordinated_working, h.received]
    rw [bind_apply, houtcome _ rfl]
    by_cases heq : r.command = c.command
    · simp only [if_pos heq]
      rfl
    · simp only [if_neg heq]
  obtain ⟨answer, s', hrun⟩ : ∃ answer s', completeConfirmation sha256 c.confirmationId draws s =
    (answer, s') := ⟨_, _, rfl⟩
  have hguarded := hrun
  unfold completeConfirmation at hguarded
  rw [bind_ok (beginCoordinatedWrite_apply s)] at hguarded
  obtain ⟨s₁, hbody, hcommitted, _⟩ := discard_cases hguarded
  by_cases heq : r.command = c.command
  · rw [if_pos heq] at hreceipt ⊢
    cases hreceipt.symm.trans hbody
    exact ⟨s', hrun, hcommitted⟩
  · rw [if_neg heq] at hreceipt ⊢
    cases hreceipt.symm.trans hbody
    exact ⟨s', hrun, hcommitted⟩

/-- **A finished confirmation is never applied again**: whatever command is processed under its
identity, at any clock, nothing is written and the receipt decides the answer. -/
theorem Finished.process {command : ConfirmationCommand}
    {receivedAt clock : Option Datetime} {draws : Draws}
    {answer : Except ServiceError ConfirmationOutcome} (h : Finished sha256 s.committed c r)
    (injective : Function.Injective sha256) (hid : command.confirmationId = c.confirmationId)
    (hrun : processConfirmation sha256 command receivedAt clock draws s = (answer, s')) :
    s'.committed = s.committed ∧
      ((Request.process command receivedAt clock draws).ClockGiven →
        answer = finishedAnswer sha256 c r command) := by
  unfold processConfirmation at hrun
  rcases processingClock_cases command draws hrun with ⟨rfl, hrefused⟩ | ⟨reading, hrest⟩
  · exact ⟨rfl, fun given => absurd given hrefused⟩
  by_cases hother : r.requestFingerprint = command.fingerprint sha256
  · -- accepted as a replay, so completion speaks
    obtain ⟨s₂, haccept, hcommitted⟩ := h.accept hid hother reading
    rw [bind_ok (show processAcceptance sha256 command reading s = (.ok true, s₂) from
      tryCatch_ok haccept)] at hrest
    have h₂ : Finished sha256 s₂.committed c r := hcommitted ▸ h
    obtain ⟨s₃, hcomplete, hcommitted'⟩ := h₂.complete injective draws
    unfold finishedAnswer
    rw [if_neg (not_not.mpr hother)]
    rw [hid] at hrest
    by_cases hcontent : r.command = c.command
    · rw [if_pos hcontent] at hcomplete ⊢
      rw [bind_ok (show processCompletion sha256 c.confirmationId draws s₂ =
        (.ok { confirmation := c, replayed := true }, s₃) from tryCatch_ok hcomplete)] at hrest
      cases hrest
      exact ⟨hcommitted'.trans hcommitted, fun _ => rfl⟩
    · rw [if_neg hcontent] at hcomplete ⊢
      have hfailed : processCompletion sha256 c.confirmationId draws s₂ =
          (.error .confirmationProcessingUnavailable, s₃) := by
        unfold processCompletion
        rw [tryCatch_apply, hcomplete]
        rfl
      rw [bind_error hfailed] at hrest
      cases hrest
      exact ⟨hcommitted'.trans hcommitted, fun _ => rfl⟩
  · have hstored : s.committed.confirmationReceipts.get command.confirmationId = some r :=
      hid ▸ h.received
    unfold finishedAnswer
    rw [if_pos hother]
    rcases bind_cases hrest with ⟨e, hprocess, rfl⟩ | ⟨replayed, s₂, hprocess, _⟩
    · obtain ⟨r₁, s₂, haccept, hcommitted, _, hr⟩ := processAcceptance_cases hprocess
      obtain ⟨hsame, rfl⟩ := acceptConfirmation_conflict hstored hother haccept
      refine ⟨hcommitted.trans hsame, fun _ => ?_⟩
      rcases hr with hr | ⟨e', he', hsql, _⟩
      · cases hr
        rfl
      · cases he'
        cases hsql
    · obtain ⟨r₁, s₃, haccept, _, _, hr⟩ := processAcceptance_cases hprocess
      obtain ⟨_, rfl⟩ := acceptConfirmation_conflict hstored hother haccept
      rcases hr with hr | ⟨_, _, _, hr⟩ <;> cases hr

/-- A receipt of the record's own content answers the original command with the record. -/
theorem finishedAnswer_original (digested : c.requestFingerprint = c.command.fingerprint sha256)
    (fingerprint : r.requestFingerprint = c.requestFingerprint) (content : r.command = c.command) :
    finishedAnswer sha256 c r c.command = .ok { confirmation := c, replayed := true } := by
  unfold finishedAnswer
  rw [if_neg (not_not.mpr (fingerprint.trans digested)), if_pos content]

/-- And any other command with the conflict. -/
theorem finishedAnswer_other (injective : Function.Injective sha256)
    (digested : c.requestFingerprint = c.command.fingerprint sha256)
    (fingerprint : r.requestFingerprint = c.requestFingerprint) {command : ConfirmationCommand}
    (hne : command ≠ c.command) :
    finishedAnswer sha256 c r command = .error .confirmationIdConflict := by
  unfold finishedAnswer
  rw [if_pos]
  rw [fingerprint, digested]
  exact fun heq => hne (ConfirmationCommand.fingerprint_injective injective heq).symm

/-- The selection of recovery passes over a completed receipt. -/
theorem selectPending_pending {limit : Int} {ids : List String}
    (h : selectPending limit s = (.ok ids, s')) {id : String} (hid : id ∈ ids) :
    ∃ r ∈ s.committed.confirmationReceipts.rows, r.confirmationId = id ∧ r.completed = false := by
  unfold selectPending at h
  split at h
  · cases h
  · cases h
    obtain ⟨r, hr, rfl⟩ := List.mem_map.mp hid
    have hselected := (List.mem_insertionSort _).mp (List.mem_of_mem_take hr)
    obtain ⟨hmem, hpending⟩ := Table.mem_select.mp hselected
    exact ⟨r, hmem, rfl, by simpa using hpending⟩

end Finished

/-! ## The upgrade -/

namespace Revision0005

theorem sameColumns_self (columns : List String) : sameColumns columns columns = true := by
  simp [sameColumns]

section Backfill

variable {db : Database} {c : PaymentConfirmationRecord}

theorem mem_unreceipted :
    c ∈ unreceipted db ↔ c ∈ db.paymentConfirmations.rows ∧
      db.confirmationReceipts.get c.confirmationId = none := by
  simp [unreceipted, Table.mem_select]

/-- A receipt of its own content. -/
theorem matches_backfilledReceipt (c : PaymentConfirmationRecord) :
    c.Matches (backfilledReceipt c) := ⟨rfl, rfl, rfl, rfl, rfl, rfl⟩

/-- No constraint refuses the receipts of final records. -/
theorem backfill_accepted (db : Database) :
    ∃ t, backfill db = .ok { db with confirmationReceipts := t } ∧
      t.rows = db.confirmationReceipts.rows ++ (unreceipted db).map backfilledReceipt := by
  have hcheck : ∀ r ∈ (unreceipted db).map backfilledReceipt,
      confirmationReceiptSchema.check r = true := by
    intro r hr
    obtain ⟨c, hc, rfl⟩ := List.mem_map.mp hr
    exact db.paymentConfirmations.checked c (mem_unreceipted.mp hc).1
  have hfree : ∀ r ∈ (unreceipted db).map backfilledReceipt, ∀ x ∈ db.confirmationReceipts.rows,
      confirmationReceiptSchema.key x ≠ confirmationReceiptSchema.key r ∧
        confirmationReceiptSchema.clash x r = false := by
    intro r hr x hx
    obtain ⟨c, hc, rfl⟩ := List.mem_map.mp hr
    exact ⟨Table.get_eq_none.mp (mem_unreceipted.mp hc).2 x hx, rfl⟩
  have hapart : ((unreceipted db).map backfilledReceipt).Pairwise fun a b =>
      confirmationReceiptSchema.key a ≠ confirmationReceiptSchema.key b ∧
        confirmationReceiptSchema.clash a b = false :=
    List.pairwise_map.mpr ((db.paymentConfirmations.distinct.filter _).imp fun hab => ⟨hab.1, rfl⟩)
  obtain ⟨t, ht, hrows⟩ := Table.insertAll_isSome hcheck hfree hapart
  refine ⟨t, ?_, hrows⟩
  unfold backfill
  rw [ht]

end Backfill

/-- No earlier receipt holds other content for a final record: one that is there has the record's
fingerprint, reference, amount and currency. It may have been received at another time. -/
def Store.Agrees (store : Store) (c : PaymentConfirmationRecord) : Prop :=
  ∀ r, store.tables.confirmationReceipts.get c.confirmationId = some r →
    r.requestFingerprint = c.requestFingerprint ∧ r.command = c.command

/-- **What the revision leaves**, between the store it finds and the store it answers. Every final
record has one completed receipt, its own or the earlier one as it was, and from then on processing
under its identity writes nothing: no payment, ledger entry or event, and no receipt or record either.
Where no earlier receipt holds other content the answers are those of the final record; where one
does, `processed` still says which they are. -/
structure Backfilled (sha256 : String → String) (store store' : Store) : Prop where
  /-- only the receipts are written, at the end of their table and as completed work -/
  others : store'.tables =
    { store.tables with confirmationReceipts := store'.tables.confirmationReceipts }
  kept : ∃ added, store'.tables.confirmationReceipts.rows =
    store.tables.confirmationReceipts.rows ++ added ∧ ∀ r ∈ added, r.completed = true
  /-- every final record has one receipt, completed: its own, or the earlier one as it was -/
  received : ∀ c ∈ store.tables.paymentConfirmations.rows,
    ∃ r, (store'.tables.confirmationReceipts.select fun r =>
        decide (r.confirmationId = c.confirmationId)) = [r] ∧ r.completed = true ∧
      (store.tables.confirmationReceipts.get c.confirmationId = none → c.Matches r) ∧
      ∀ earlier, store.tables.confirmationReceipts.get c.confirmationId = some earlier →
        r = earlier
  /-- recovery selects none of them -/
  unselected : ∀ limit identity ids s',
    selectPending limit (Session.start store'.tables identity) = (.ok ids, s') →
      ∀ c ∈ store.tables.paymentConfirmations.rows, c.confirmationId ∉ ids
  /-- under the identity of a final record nothing is written, and its receipt decides the answer -/
  processed : ∀ c ∈ store.tables.paymentConfirmations.rows, ∀ r,
    store'.tables.confirmationReceipts.get c.confirmationId = some r →
    ∀ command, command.confirmationId = c.confirmationId →
    ∀ receivedAt clock draws identity answer s',
      processConfirmation sha256 command receivedAt clock draws
        (Session.start store'.tables identity) = (answer, s') →
      s'.committed = store'.tables ∧
        ((Request.process command receivedAt clock draws).ClockGiven →
          answer = finishedAnswer sha256 c r command)
  /-- so the original command answers the stored outcome -/
  replayed : ∀ c ∈ store.tables.paymentConfirmations.rows, store.Agrees c →
    ∀ receivedAt clock draws identity answer s',
      processConfirmation sha256 c.command receivedAt clock draws
        (Session.start store'.tables identity) = (answer, s') →
      s'.committed = store'.tables ∧
        ((Request.process c.command receivedAt clock draws).ClockGiven →
          answer = .ok { confirmation := c, replayed := true })
  /-- and other content under its identity is a conflict -/
  conflicting : ∀ c ∈ store.tables.paymentConfirmations.rows, store.Agrees c →
    ∀ command, command.confirmationId = c.confirmationId → command ≠ c.command →
    ∀ receivedAt clock draws identity answer s',
      processConfirmation sha256 command receivedAt clock draws
        (Session.start store'.tables identity) = (answer, s') →
      s'.committed = store'.tables ∧
        ((Request.process command receivedAt clock draws).ClockGiven →
          answer = .error .confirmationIdConflict)
  /-- a second upgrade adds nothing -/
  again : upgrade store' = .ok store'

section Upgrade

variable {sha256 : String → String} {store : Store}

/-- A supported store is backfilled. -/
theorem upgrade_supported (h : store.Supported) : upgrade store = store.backfilled := by
  unfold upgrade
  cases hcolumns : store.columns with
  | none => rfl
  | some columns => exact if_pos (h columns hcolumns)

/-- Any other receipt table is refused. -/
theorem upgrade_unsupported (h : ¬store.Supported) :
    upgrade store =
      .error (.runtimeError "Existing confirmation_receipts has an unsupported shape") := by
  unfold upgrade
  cases hcolumns : store.columns with
  | none => exact absurd (fun _ hsome => nomatch hcolumns.symm.trans hsome) h
  | some columns =>
    refine if_neg fun hsame => h fun columns' hsome => ?_
    cases hcolumns.symm.trans hsome
    exact hsame

/-- **The receipt of a final record** in the table that the revision leaves: the earlier one as it was,
or else its own. -/
theorem receipt_of_backfill {db : Database} {t : Table confirmationReceiptSchema}
    (hrows : t.rows = db.confirmationReceipts.rows ++ (unreceipted db).map backfilledReceipt)
    {c : PaymentConfirmationRecord} (hc : c ∈ db.paymentConfirmations.rows)
    (completed : ∀ r, db.confirmationReceipts.get c.confirmationId = some r → r.completed = true) :
    ∃ r, t.get c.confirmationId = some r ∧ r.completed = true ∧
      (db.confirmationReceipts.get c.confirmationId = none → c.Matches r) ∧
      ∀ earlier, db.confirmationReceipts.get c.confirmationId = some earlier → r = earlier := by
  cases hget : db.confirmationReceipts.get c.confirmationId with
  | some r =>
    refine ⟨r, ?_, completed r hget, by simp, fun _ hsome => Option.some.inj hsome⟩
    rw [Table.get_append hrows, hget, Option.some_or]
  | none =>
    have hmem : backfilledReceipt c ∈ t.rows := by
      rw [hrows]
      exact List.mem_append_right _ (List.mem_map_of_mem (mem_unreceipted.mpr ⟨hc, hget⟩))
    exact ⟨backfilledReceipt c, Table.get_of_mem hmem, rfl, fun _ => matches_backfilledReceipt c,
      by simp⟩

/-- With a receipt for every final record the revision adds nothing. -/
theorem upgrade_again {columns : List String} (hcolumns : store.columns = some columns)
    (same : sameColumns columns receiptColumns = true) (none : unreceipted store.tables = []) :
    upgrade store = .ok store := by
  cases store with
  | mk tables _ absent =>
    cases hcolumns
    unfold upgrade
    simp only [same, if_true]
    unfold Store.backfilled backfill
    simp only [none, List.map_nil, Table.insertAll, Option.getD_some]

/-- The upgrade of a store whose receipts of final records are completed. -/
theorem backfilled_of_completed (supported : store.Supported)
    (injective : Function.Injective sha256)
    (digested : ∀ c ∈ store.tables.paymentConfirmations.rows,
      c.requestFingerprint = c.command.fingerprint sha256)
    (completed : ∀ c ∈ store.tables.paymentConfirmations.rows,
      ∀ r, store.tables.confirmationReceipts.get c.confirmationId = some r → r.completed = true) :
    ∃ store', upgrade store = .ok store' ∧ Backfilled sha256 store store' := by
  obtain ⟨t, hbackfill, hrows⟩ := backfill_accepted store.tables
  have hreceipt := fun c hc => receipt_of_backfill hrows (c := c) hc (completed c hc)
  have hfinished : ∀ c ∈ store.tables.paymentConfirmations.rows, ∀ r,
      t.get c.confirmationId = some r →
        Finished sha256 { store.tables with confirmationReceipts := t } c r :=
    fun c hc r hget => ⟨Table.get_of_mem hc, digested c hc, hget⟩
  have hagrees : ∀ c ∈ store.tables.paymentConfirmations.rows, store.Agrees c → ∃ r,
      t.get c.confirmationId = some r ∧ r.requestFingerprint = c.requestFingerprint ∧
        r.command = c.command := by
    intro c hc agrees
    obtain ⟨r, hget, _, hown, hearlier⟩ := hreceipt c hc
    refine ⟨r, hget, ?_⟩
    cases hstored : store.tables.confirmationReceipts.get c.confirmationId with
    | some earlier =>
      rw [hearlier earlier hstored]
      exact agrees earlier hstored
    | none =>
      have hmatches := hown hstored
      exact ⟨hmatches.requestFingerprint.symm, hmatches.command⟩
  have hnone : unreceipted { store.tables with confirmationReceipts := t } = [] := by
    refine List.filter_eq_nil_iff.mpr fun c hc hfree => ?_
    obtain ⟨r, hget, _⟩ := hreceipt c hc
    rw [hget] at hfree
    cases hfree
  refine ⟨_, (upgrade_supported supported).trans (by unfold Store.backfilled; rw [hbackfill]), ?_⟩
  refine
    { others := rfl
      kept := ⟨_, hrows, ?_⟩
      received := fun c hc => ?_
      unselected := ?_
      processed := ?_
      replayed := ?_
      conflicting := ?_
      again := ?_ }
  · intro r hr
    obtain ⟨c, _, rfl⟩ := List.mem_map.mp hr
    rfl
  · obtain ⟨r, hget, hdone, hown, hearlier⟩ := hreceipt c hc
    exact ⟨r, Table.select_key hget, hdone, hown, hearlier⟩
  · intro limit identity ids s' hselect c hc hid
    obtain ⟨r, hmem, hkey, hpending⟩ := selectPending_pending hselect hid
    obtain ⟨r', hget, hdone, _⟩ := hreceipt c hc
    have hsame : t.get c.confirmationId = some r := hkey ▸ Table.get_of_mem hmem
    cases hget.symm.trans hsame
    exact absurd hdone (by simp [hpending])
  · intro c hc r hget command hid receivedAt clock draws identity answer s' hrun
    exact Finished.process (hfinished c hc r hget) injective hid hrun
  · intro c hc agrees receivedAt clock draws identity answer s' hrun
    obtain ⟨r, hget, hfingerprint, hcontent⟩ := hagrees c hc agrees
    obtain ⟨hsame, hanswer⟩ := Finished.process (hfinished c hc r hget) injective rfl hrun
    rw [finishedAnswer_original (digested c hc) hfingerprint hcontent] at hanswer
    exact ⟨hsame, hanswer⟩
  · intro c hc agrees command hid hne receivedAt clock draws identity answer s' hrun
    obtain ⟨r, hget, hfingerprint, _⟩ := hagrees c hc agrees
    obtain ⟨hsame, hanswer⟩ := Finished.process (hfinished c hc r hget) injective hid hrun
    rw [finishedAnswer_other injective (digested c hc) hfingerprint hne] at hanswer
    exact ⟨hsame, hanswer⟩
  · have hsame : sameColumns (store.columns.getD receiptColumns) receiptColumns = true := by
      cases hcolumns : store.columns with
      | none => exact sameColumns_self _
      | some columns => exact supported columns hcolumns
    exact upgrade_again rfl hsame hnone

/-- **The receipt backfill.** A receipt table of another shape is refused. Otherwise every final
record is finished work after the upgrade: one completed receipt, of the record's content unless an
earlier receipt said otherwise, that recovery passes over. Processing under its identity writes
nothing at all, and where no earlier receipt says otherwise it replays the record. -/
theorem receipts_backfilled (injective : Function.Injective sha256) (store : Store)
    (digested : ∀ c ∈ store.tables.paymentConfirmations.rows,
      c.requestFingerprint = c.command.fingerprint sha256)
    (completed : ∀ c ∈ store.tables.paymentConfirmations.rows,
      ∀ r, store.tables.confirmationReceipts.get c.confirmationId = some r → r.completed = true) :
    (¬store.Supported → upgrade store =
        .error (.runtimeError "Existing confirmation_receipts has an unsupported shape")) ∧
      (store.Supported → ∃ store', upgrade store = .ok store' ∧ Backfilled sha256 store store') :=
  ⟨upgrade_unsupported, fun supported =>
    backfilled_of_completed supported injective digested completed⟩

end Upgrade

/-! ## Stores of the earlier revision -/

/-- The command of a confirmation processed under the earlier revision. -/
def earlierCommand : ConfirmationCommand :=
  { confirmationId := "cnf_1", paymentReference := "ref_9", amount := 500, currency := .jpy }

/-- Its final record: no payment has the reference. -/
def earlierConfirmation : PaymentConfirmationRecord :=
  newConfirmation id earlierCommand 30 .unknownReference none

/-- The receipt of that record as another time received it. -/
def laterReceipt : ConfirmationReceiptRecord :=
  { backfilledReceipt earlierConfirmation with receivedAt := 31 }

/-- A receipt that still waits for its completion. -/
def waitingReceipt : ConfirmationReceiptRecord :=
  newReceipt id { earlierCommand with confirmationId := "cnf_2" } 40

/-- The tables after a confirmed invoice and the unknown confirmation. The invoice has no receipt,
the unknown confirmation has one, and one receipt is pending. -/
def invoiceTables : Database :=
  { (Request.calls id [invoice,
        .process ⟨"conf-1", "ref_1", 500, .usd⟩ (some (.aware 10)) none ⟨"2", "2", "2", "2"⟩,
        .process earlierCommand (some (.aware 30)) none ⟨"3", "3", "3", "3"⟩] (.empty, ∅)).1 with
    confirmationReceipts :=
      { rows := [laterReceipt, waitingReceipt]
        distinct := by decide +kernel
        checked := by decide +kernel } }

/-- The store of these tables. -/
def invoiceStore : Store :=
  { tables := invoiceTables, columns := some receiptColumns, absent := fun h => nomatch h }

/-- The invoice was captured once, and the upgrade leaves it so. -/
theorem invoiceStore_backfilled :
    (invoiceStore.tables.ledgerOf "pay_1").length = 1 ∧
      (invoiceStore.tables.paymentConfirmations.rows.map (·.disposition)) =
        [.applied, .unknownReference] ∧
      ∃ store', upgrade invoiceStore = .ok store' ∧ Backfilled id invoiceStore store' := by
  refine ⟨by decide +kernel, by decide +kernel,
    (receipts_backfilled Function.injective_id invoiceStore ?_ ?_).2 ?_⟩
  · decide +kernel
  · have completed : ∀ c ∈ invoiceStore.tables.paymentConfirmations.rows,
        (invoiceStore.tables.confirmationReceipts.get c.confirmationId).all (·.completed) = true := by
      decide +kernel
    intro c hc r hr
    have hall := completed c hc
    rw [hr] at hall
    exact hall
  · intro columns hcolumns
    cases hcolumns
    exact sameColumns_self _

/-- The tables of the unknown confirmation alone. -/
def earlierTables : Database :=
  { Database.empty with
    paymentConfirmations :=
      { rows := [earlierConfirmation]
        distinct := List.pairwise_singleton _ _
        checked := by simp [earlierConfirmation, earlierCommand, newConfirmation,
          paymentConfirmationSchema] } }

/-- A completed receipt of another amount under the same identity. -/
def otherReceipt : ConfirmationReceiptRecord :=
  { backfilledReceipt earlierConfirmation with amount := 400 }

/-- The store with that receipt in a table of the expected shape. -/
def mismatchedStore : Store :=
  { tables :=
      { earlierTables with
        confirmationReceipts :=
          { rows := [otherReceipt]
            distinct := List.pairwise_singleton _ _
            checked := by simp [otherReceipt, confirmationReceiptSchema] } }
    columns := some receiptColumns
    absent := fun h => nomatch h }

/-- An earlier completed receipt keeps its own content. -/
theorem mismatchedStore_kept :
    mismatchedStore.Supported ∧
      (∀ c ∈ mismatchedStore.tables.paymentConfirmations.rows,
        c.requestFingerprint = c.command.fingerprint id) ∧
      (∀ c ∈ mismatchedStore.tables.paymentConfirmations.rows, ∀ r,
        mismatchedStore.tables.confirmationReceipts.get c.confirmationId = some r →
          r.completed = true) ∧
      ¬∃ store', upgrade mismatchedStore = .ok store' ∧
        ∀ c ∈ mismatchedStore.tables.paymentConfirmations.rows,
          ∃ r ∈ store'.tables.confirmationReceipts.rows, c.Matches r := by
  have digested : ∀ c ∈ mismatchedStore.tables.paymentConfirmations.rows,
      c.requestFingerprint = c.command.fingerprint id := by
    intro c hc
    cases List.mem_singleton.mp hc
    rfl
  have completed : ∀ c ∈ mismatchedStore.tables.paymentConfirmations.rows, ∀ r,
      mismatchedStore.tables.confirmationReceipts.get c.confirmationId = some r →
        r.completed = true := by
    intro c _ r hr
    cases List.mem_singleton.mp (Table.get_eq_some hr).1
    rfl
  have supported : mismatchedStore.Supported := by
    intro columns hcolumns
    cases hcolumns
    exact sameColumns_self _
  refine ⟨supported, digested, completed, ?_⟩
  rintro ⟨store', hupgrade, hmatches⟩
  obtain ⟨store'', hupgrade', backfilled⟩ :=
    backfilled_of_completed supported Function.injective_id digested completed
  cases hupgrade.symm.trans hupgrade'
  have hmem : earlierConfirmation ∈ mismatchedStore.tables.paymentConfirmations.rows :=
    List.mem_singleton.mpr rfl
  obtain ⟨r, hr, hsame⟩ := hmatches _ hmem
  -- the identity has one receipt, and the earlier one is there
  obtain ⟨r', hone, _⟩ := backfilled.received _ hmem
  have hall : ∀ x ∈ store'.tables.confirmationReceipts.rows,
      x.confirmationId = earlierConfirmation.confirmationId → x = r' := by
    intro x hx hkey
    have hselected : x ∈ store'.tables.confirmationReceipts.select fun r =>
        decide (r.confirmationId = earlierConfirmation.confirmationId) :=
      Table.mem_select.mpr ⟨hx, decide_eq_true hkey⟩
    rw [hone] at hselected
    exact List.mem_singleton.mp hselected
  obtain ⟨added, hrows, _⟩ := backfilled.kept
  have hkept : otherReceipt ∈ store'.tables.confirmationReceipts.rows := by
    rw [hrows]
    exact List.mem_append_left _ (List.mem_singleton.mpr rfl)
  have heq : r = otherReceipt :=
    (hall r hr hsame.confirmationId.symm).trans (hall otherReceipt hkept rfl).symm
  rw [heq] at hsame
  have hamount : (500 : Int) = 400 := hsame.amount
  exact absurd hamount (by decide)

end Revision0005

end PaymentLab
