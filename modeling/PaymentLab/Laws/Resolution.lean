import PaymentLab.Laws.Cutoff
import PaymentLab.Laws.Protection
import PaymentLab.Runs.Processing

/-!
# Processing order does not decide

The receipts that were accepted for an awaiting payment decide what becomes of it, and the sweeps
beside them: a run of completions, recoveries and sweeps that completes every accepted receipt ends
with the resolution of the receipts and the sweeps, in whatever order it took them
(`schedules_agree`). The invariant of such a run (`Standing`) is that the payment still awaits and
every receipt that could decide otherwise is still pending, or that it has taken the one step that
the receipts and the sweeps ask for.

What is compared leaves out ids and times, which two schedules draw at different moments. Clients
that create, refund or cancel are not part of a schedule: with them the outcome of course depends on
the order. A sweep with a limit might pass over the payment, so the sweeps are assumed to have room
for every due one.
-/

namespace PaymentLab

open Relational Transactional Transactional.Service

/-! ## What an order may not change -/

namespace Account

/-- What is compared of an account: no id and no time, which differ between any two schedules. -/
structure Summary where
  status : PaymentStatus
  authorized : Int
  captured : Int
  refunded : Int
  version : Nat
  ledger : List (String × Int × Currency)
  events : List WebhookEventType
  deriving DecidableEq, Repr

/-- The summary of an account. -/
def summary (account : Account) : Summary :=
  { status := account.row.status
    authorized := account.row.authorizedAmount
    captured := account.row.capturedAmount
    refunded := account.row.refundedAmount
    version := account.row.version
    ledger := account.ledger.map fun entry => (entry.operation, entry.amount, entry.currency)
    events := account.events.map (·.eventType) }

/-- **A step determines the summary** of what it leads to. -/
theorem Extends.summary_unique {step : LifecycleStep} {a b c : Account} (h : Extends step a b)
    (k : Extends step a c) : b.summary = c.summary := by
  obtain ⟨state, next, now, hstate, hnext, hb⟩ := h.decided
  obtain ⟨state', next', now', hstate', hnext', hc⟩ := k.decided
  cases hstate.symm.trans hstate'
  cases hnext.symm.trans hnext'
  have entries : ∀ id id' time time',
      (step.entry a.row b.row id time).toList.map
          (fun entry => (entry.operation, entry.amount, entry.currency)) =
        (step.entry a.row c.row id' time').toList.map
          fun entry => (entry.operation, entry.amount, entry.currency) := by
    intro id id' time time'
    have hposting : step.posting a.row b.row = step.posting a.row c.row := by
      rw [hb, hc]
      cases step <;> rfl
    unfold LifecycleStep.entry
    rw [hposting]
    cases step.posting a.row c.row <;> rfl
  obtain ⟨id, time, hledger⟩ := h.ledger
  obtain ⟨id', time', hledger'⟩ := k.ledger
  obtain ⟨hex, hevents⟩ := h.events
  obtain ⟨hex', hevents'⟩ := k.events
  unfold summary
  rw [hledger, hledger', hevents, hevents', List.map_append, List.map_append,
    entries id id' time time', List.map_append, List.map_append, hb, hc]
  rfl

end Account

/-! ## What decides -/

/-- The receipts that were accepted for a payment and wait for their completion. -/
def pendingFor (db : Database) (p : PaymentRecord) : List ConfirmationReceiptRecord :=
  db.confirmationReceipts.select fun r =>
    decide (some r.paymentReference = p.paymentReference) && !r.completed

/-- A receipt of the amount and currency of a payment, before its deadline. -/
def PaymentRecord.paidBy (p : PaymentRecord) (r : ConfirmationReceiptRecord) : Bool :=
  decide (r.amount = p.amount) && decide (r.currency = p.currency) &&
    match p.expiresAt with
    | some expiresAt => decide (r.receivedAt < expiresAt)
    | none => false

/-- The deadline of a payment has come. -/
def PaymentRecord.overdue (p : PaymentRecord) (time : Instant) : Bool :=
  match p.expiresAt with
  | some expiresAt => decide (expiresAt ≤ time)
  | none => false

/-- What becomes of an awaiting payment under some receipts and sweeps. -/
def PaymentRecord.resolution (p : PaymentRecord) (receipts : List ConfirmationReceiptRecord)
    (sweeps : List Instant) : PaymentStatus :=
  if receipts.any p.paidBy then .captured
  else if receipts.any (fun r => p.overdue r.receivedAt) || sweeps.any p.overdue then .expired
  else .awaitingPayment

section Rules

variable {db : Database} {p : PaymentRecord} {r : ConfirmationReceiptRecord}

theorem mem_pendingFor : r ∈ pendingFor db p ↔
    r ∈ db.confirmationReceipts.rows ∧ some r.paymentReference = p.paymentReference ∧
      r.completed = false := by
  unfold pendingFor
  rw [Table.mem_select]
  simp only [Bool.and_eq_true, decide_eq_true_eq, Bool.not_eq_true']

/-- A pending receipt of a payment protects it when it pays it in time. -/
theorem protects_eq_paidBy (reference : some r.paymentReference = p.paymentReference)
    (pending : r.completed = false) : protects r p = p.paidBy r := by
  unfold protects PaymentRecord.paidBy
  cases p.expiresAt <;> simp [reference, pending]

/-- The classification of a receipt for an awaiting payment. -/
theorem classify_awaiting (awaiting : p.status = .awaitingPayment)
    {disposition : ConfirmationDisposition}
    (h : classify (some p) r.command r.receivedAt = .ok disposition) :
    (p.overdue r.receivedAt = true ↔ disposition = .late) ∧
      (p.paidBy r = true ↔ disposition = .applied) := by
  unfold classify at h
  simp only [awaiting, reduceCtorEq, if_false, ne_eq, not_true_eq_false] at h
  unfold PaymentRecord.overdue PaymentRecord.paidBy
  cases hexpires : p.expiresAt with
  | none =>
    rw [hexpires] at h
    cases h
  | some expiresAt =>
    rw [hexpires] at h
    simp only at h ⊢
    by_cases hlate : r.receivedAt ≥ expiresAt
    · rw [if_pos hlate] at h
      cases h
      simp [hlate, not_lt.mpr hlate]
    · rw [if_neg hlate] at h
      have hamount : r.command.amount = r.amount := rfl
      have hcurrency : r.command.currency = r.currency := rfl
      rw [hamount, hcurrency] at h
      by_cases hdiffers : r.amount = p.amount
      · rw [if_neg (not_not.mpr hdiffers)] at h
        by_cases hother : r.currency = p.currency
        · rw [if_neg (not_not.mpr hother)] at h
          cases h
          simp [hdiffers, hother, not_le.mp hlate]
        · rw [if_pos hother] at h
          cases h
          simp [hother, not_le.mp hlate]
      · rw [if_pos hdiffers] at h
        cases h
        simp [hdiffers, not_le.mp hlate]

end Rules

/-! ## Where a payment stands -/

/-- The receipts for a payment that still wait were there before. -/
def Known (p : PaymentRecord) (receipts : List ConfirmationReceiptRecord) (db : Database) : Prop :=
  ∀ r ∈ db.confirmationReceipts.rows, some r.paymentReference = p.paymentReference →
    r.completed = false → r ∈ receipts

/-- Where the account of a payment stands after some sweeps, from the account it was and the receipts
that were pending then. -/
inductive Standing (p : PaymentRecord) (first : Account)
    (receipts : List ConfirmationReceiptRecord) (sweeps : List Instant) (db : Database) : Prop
  /-- it is as it was, and what could decide otherwise is still pending -/
  | awaiting : db.account p.id = some first →
      (∀ r ∈ receipts, p.paidBy r = true → r ∈ db.confirmationReceipts.rows) →
      ((∃ r ∈ receipts, p.paidBy r = true) ∨
        (∀ r ∈ receipts, p.overdue r.receivedAt = true → r ∈ db.confirmationReceipts.rows) ∧
          ∀ now ∈ sweeps, p.overdue now = false) →
      Standing p first receipts sweeps db
  | captured {last : Account} : (∃ r ∈ receipts, p.paidBy r = true) →
      db.account p.id = some last → Account.Extends (.captureConfirmation p.amount) first last →
      Standing p first receipts sweeps db
  | expired {last : Account} : (∀ r ∈ receipts, p.paidBy r = false) →
      ((∃ r ∈ receipts, p.overdue r.receivedAt = true) ∨ ∃ now ∈ sweeps, p.overdue now = true) →
      db.account p.id = some last → Account.Extends .expire first last →
      Standing p first receipts sweeps db

section Standing

variable {sha256 : String → String} {p : PaymentRecord} {first a b : Account}
  {receipts : List ConfirmationReceiptRecord} {sweeps : List Instant} {db db' : Database}
  {step : LifecycleStep}

/-- A step leaves no awaiting payment. -/
theorem Account.Extends.left (h : Account.Extends step a b) : b.row.status ≠ .awaitingPayment := by
  intro heq
  have hdocumented := h.decided.documented.1
  rw [heq] at hdocumented
  exact Account.not_documented_awaiting _ hdocumented

/-- Nothing protects a payment when none of its receipts pays it in time. -/
theorem unpaid_of_unprotected (pending : ∀ r ∈ receipts,
      some r.paymentReference = p.paymentReference ∧ r.completed = false)
    (paid : ∀ r ∈ receipts, p.paidBy r = true → r ∈ db.confirmationReceipts.rows)
    (unprotected : protectingReceiptExists db p = false) : ∀ r ∈ receipts, p.paidBy r = false := by
  intro r mem
  by_contra hne
  have hpaid : p.paidBy r = true := Bool.eq_true_of_not_eq_false hne
  obtain ⟨hreference, hincomplete⟩ := pending r mem
  have hprotects : protectingReceiptExists db p = true :=
    protectingReceiptExists_iff.mpr ⟨r, paid r mem hpaid,
      (protects_eq_paidBy hreference hincomplete).trans hpaid⟩
  rw [unprotected] at hprotects
  cases hprotects

/-- A protected payment has a known receipt that pays it in time. -/
theorem paid_of_protected (known : Known p receipts db)
    (isProtected : protectingReceiptExists db p = true) : ∃ r ∈ receipts, p.paidBy r = true := by
  obtain ⟨r, mem, hprotects⟩ := protectingReceiptExists_iff.mp isProtected
  obtain ⟨hreference, hincomplete, _⟩ := protects_iff.mp hprotects
  exact ⟨r, known r mem hreference hincomplete,
    (protects_eq_paidBy hreference hincomplete).symm.trans hprotects⟩

/-- A completion changes an awaiting account only. -/
theorem Settled.account_of_left {receipt : ConfirmationReceiptRecord}
    {disposition : ConfirmationDisposition} (e : Settled sha256 receipt disposition db db')
    (ha : db.account p.id = some a) (left : a.row.status ≠ .awaitingPayment) :
    db'.account p.id = some a := by
  have other : ∀ {before after : PaymentRecord} {step : LifecycleStep},
      Advances step before after db db' →
      (step = .expire ∨ ∃ amount, step = .captureConfirmation amount) →
      db'.account p.id = some a := by
    intro before after step hadvances hstep
    rcases hadvances.account_cases p.id with same | ⟨c, _, hc, _, hrow, _, _⟩
    · exact same.trans ha
    · cases ha.symm.trans hc
      rw [hrow] at left
      exact absurd (hadvances.decided.awaiting hstep) left
  cases e.effect with
  | none _ same _ => exact (same.account p.id).trans ha
  | captured _ _ _ _ hadvances => exact other hadvances (.inr ⟨_, rfl⟩)
  | expired _ _ _ _ _ hadvances => exact other hadvances (.inl rfl)

/-- A completion of a receipt for another payment leaves the account. -/
theorem Settled.account_of_other {receipt : ConfirmationReceiptRecord}
    {disposition : ConfirmationDisposition} (e : Settled sha256 receipt disposition db db')
    (stored : db.payments.get p.id = some p)
    (hne : some receipt.paymentReference ≠ p.paymentReference) :
    db'.account p.id = db.account p.id := by
  have other : ∀ {before after : PaymentRecord} {step : LifecycleStep},
      paymentByReference db receipt.paymentReference = some before →
      Advances step before after db db' → db'.account p.id = db.account p.id := by
    intro before after step hpayment hadvances
    refine hadvances.account_of_ne fun hid => hne ?_
    obtain ⟨hbefore, hreference⟩ := paymentByReference_eq_some hpayment
    rw [← hid, stored] at hbefore
    rw [Option.some.inj hbefore]
    exact hreference.symm
  cases e.effect with
  | none _ same _ => exact same.account p.id
  | captured _ _ _ hpayment hadvances => exact other hpayment hadvances
  | expired _ _ _ hpayment _ hadvances => exact other hpayment hadvances

/-- A completion leaves every other receipt. -/
theorem Settled.receipt_kept {receipt r : ConfirmationReceiptRecord}
    {disposition : ConfirmationDisposition} (e : Settled sha256 receipt disposition db db')
    (mem : r ∈ db.confirmationReceipts.rows) (hne : r ≠ receipt) :
    r ∈ db'.confirmationReceipts.rows := by
  have hid : r.confirmationId ≠ receipt.confirmationId := fun heq =>
    hne (Table.eq_of_key_eq mem (Table.get_eq_some e.stored).1 heq)
  exact Table.mem_iff_get.mpr
    ((Table.get_update_of_ne e.completed (Ne.symm hid)).trans (Table.get_of_mem mem))

/-- A completion leaves no receipt pending that was not. -/
theorem Settled.known {receipt : ConfirmationReceiptRecord}
    {disposition : ConfirmationDisposition} (e : Settled sha256 receipt disposition db db')
    (known : Known p receipts db) : Known p receipts db' := by
  intro r mem hreference hincomplete
  rw [Table.update_rows e.completed] at mem
  obtain ⟨old, hold, rfl⟩ := List.mem_map.mp mem
  unfold Table.overwrite at hreference hincomplete ⊢
  split
  · next hkey =>
    rw [if_pos hkey] at hincomplete
    cases hincomplete
  · next hkey =>
    rw [if_neg hkey] at hreference hincomplete
    exact known old hold hreference hincomplete

/-- A completion of a receipt for another payment leaves a payment waiting. -/
theorem Standing.settled_other {receipt : ConfirmationReceiptRecord}
    {disposition : ConfirmationDisposition} (stored : db.payments.get p.id = some p)
    (pending : ∀ r ∈ receipts, some r.paymentReference = p.paymentReference ∧ r.completed = false)
    (hreference : some receipt.paymentReference ≠ p.paymentReference)
    (e : Settled sha256 receipt disposition db db') (hfirst : db.account p.id = some first)
    (paid : ∀ r ∈ receipts, p.paidBy r = true → r ∈ db.confirmationReceipts.rows)
    (rest : (∃ r ∈ receipts, p.paidBy r = true) ∨
      (∀ r ∈ receipts, p.overdue r.receivedAt = true → r ∈ db.confirmationReceipts.rows) ∧
        ∀ now ∈ sweeps, p.overdue now = false) : Standing p first receipts sweeps db' := by
  have kept : ∀ r ∈ receipts, r ∈ db.confirmationReceipts.rows →
      r ∈ db'.confirmationReceipts.rows := fun r hr hmem =>
    e.receipt_kept hmem fun heq => hreference (heq ▸ (pending r hr).1)
  exact .awaiting ((e.account_of_other stored hreference).trans hfirst)
    (fun r hr hpaid => kept r hr (paid r hr hpaid))
    (rest.imp id fun both => ⟨fun r hr hover => kept r hr (both.1 r hr hover), both.2⟩)

/-- A completion of a receipt for a waiting payment: one that pays in time captures it, a late one
expires it unless it is protected, and any other leaves it waiting. -/
theorem Standing.settled_own {receipt : ConfirmationReceiptRecord}
    {disposition : ConfirmationDisposition} (stored : db.payments.get p.id = some p)
    (awaiting : p.status = .awaitingPayment)
    (pending : ∀ r ∈ receipts, some r.paymentReference = p.paymentReference ∧ r.completed = false)
    (known : Known p receipts db) (mem : receipt ∈ receipts)
    (found : paymentByReference db receipt.paymentReference = some p)
    (e : Settled sha256 receipt disposition db db')
    (late : disposition = .late → protectingReceiptExists db p = false →
      ∃ after, db'.payments.get p.id = some after ∧ after.status = .expired)
    (hfirst : db.account p.id = some first)
    (paid : ∀ r ∈ receipts, p.paidBy r = true → r ∈ db.confirmationReceipts.rows)
    (rest : (∃ r ∈ receipts, p.paidBy r = true) ∨
      (∀ r ∈ receipts, p.overdue r.receivedAt = true → r ∈ db.confirmationReceipts.rows) ∧
        ∀ now ∈ sweeps, p.overdue now = false) : Standing p first receipts sweeps db' := by
  have classified := e.classified
  rw [found] at classified
  obtain ⟨hlate, happlied⟩ := classify_awaiting awaiting classified
  cases e.effect with
  | none hne same _ =>
    refine .awaiting ((same.account p.id).trans hfirst) (fun r hr hpaid => ?_) ?_
    · exact e.receipt_kept (paid r hr hpaid) fun heq => hne (happlied.mp (heq ▸ hpaid))
    · by_cases hisLate : disposition = .late
      · -- a late receipt without effect: the payment is protected
        cases hprotected : protectingReceiptExists db p with
        | true => exact .inl (paid_of_protected known hprotected)
        | false =>
          obtain ⟨after, hafter, hexpired⟩ := late hisLate hprotected
          rw [same.payments, stored] at hafter
          rw [← Option.some.inj hafter, awaiting] at hexpired
          cases hexpired
      · refine rest.imp id fun both => ⟨fun r hr hover => ?_, both.2⟩
        exact e.receipt_kept (both.1 r hr hover) fun heq => hisLate (hlate.mp (heq ▸ hover))
  | captured before after hisApplied hpayment hadvances =>
    cases found.symm.trans hpayment
    obtain ⟨a, b, ha, hb, _, _, extends'⟩ := hadvances.account
    cases hfirst.symm.trans ha
    have hamount : receipt.amount = p.amount := hadvances.confirmed _ rfl
    rw [hamount] at extends'
    exact .captured ⟨receipt, mem, happlied.mpr hisApplied⟩ hb extends'
  | expired before after hisLate hpayment unprotected hadvances =>
    cases found.symm.trans hpayment
    obtain ⟨a, b, ha, hb, _, _, extends'⟩ := hadvances.account
    cases hfirst.symm.trans ha
    exact .expired (unpaid_of_unprotected pending paid unprotected)
      (.inl ⟨receipt, mem, hlate.mpr hisLate⟩) hb extends'

/-- **A completion keeps the standing.** -/
theorem Standing.settled {receipt : ConfirmationReceiptRecord}
    {disposition : ConfirmationDisposition} (hrow : first.row = p)
    (awaiting : p.status = .awaitingPayment)
    (pending : ∀ r ∈ receipts, some r.paymentReference = p.paymentReference ∧ r.completed = false)
    (settlement : Settlement sha256 db) (known : Known p receipts db)
    (e : Settled sha256 receipt disposition db db')
    (late : paymentByReference db receipt.paymentReference = some p → disposition = .late →
      protectingReceiptExists db p = false →
      ∃ after, db'.payments.get p.id = some after ∧ after.status = .expired)
    (h : Standing p first receipts sweeps db) : Standing p first receipts sweeps db' := by
  cases h with
  | captured paid hlast extends' =>
    exact .captured paid (e.account_of_left hlast extends'.left) extends'
  | expired unpaid lapsed hlast extends' =>
    exact .expired unpaid lapsed (e.account_of_left hlast extends'.left) extends'
  | awaiting hfirst paid rest =>
    have stored : db.payments.get p.id = some p := by
      rw [(Database.account_eq_some hfirst).1, hrow]
    by_cases hreference : some receipt.paymentReference = p.paymentReference
    · have found := paymentByReference_of_stored stored hreference.symm
      have hincomplete : receipt.completed = false := by
        cases hcompleted : receipt.completed with
        | false => rfl
        | true =>
          obtain ⟨c, hc⟩ := (settlement.completed _ receipt e.stored).mp hcompleted
          rw [e.fresh] at hc
          cases hc
      have mem := known receipt (Table.get_eq_some e.stored).1 hreference hincomplete
      exact .settled_own stored awaiting pending known mem found e (late found) hfirst paid rest
    · exact .settled_other stored pending hreference e hfirst paid rest

/-- **A sweep keeps the standing**: with every due payment selected it expires the payment exactly
when its deadline has come and nothing protects it. -/
theorem Standing.swept {now : Instant} {limit : Nat} (hrow : first.row = p)
    (awaiting : p.status = .awaitingPayment)
    (pending : ∀ r ∈ receipts, some r.paymentReference = p.paymentReference ∧ r.completed = false)
    (known : Known p receipts db) (covers : (allDue db now).length ≤ limit)
    (chain : Relation.ReflTransGen ExpiresOne db db')
    (ends : ∀ q ∈ duePayments db now limit, ∃ after,
      db'.payments.get q.id = some after ∧ after.status ≠ .awaitingPayment)
    (spares : ∀ q, db.payments.get q.id = some q → q ∉ duePayments db now limit →
      db'.payments.get q.id = some q)
    (h : Standing p first receipts sweeps db) : Standing p first receipts (sweeps ++ [now]) db' := by
  have hall : duePayments db now limit = allDue db now := by
    rw [duePayments_eq, List.take_of_length_le covers]
  rw [hall] at ends spares
  -- a payment that left its waiting is not expired again
  have kept : ∀ {last : Account}, db.account p.id = some last →
      last.row.status ≠ .awaitingPayment → db'.account p.id = some last := by
    intro last hlast left
    rcases sweep_account chain p.id with same | ⟨a, b, ha, _, e⟩
    · exact same.trans hlast
    · cases hlast.symm.trans ha
      exact absurd (e.decided.awaiting (.inl rfl)) left
  cases h with
  | captured paid hlast extends' => exact .captured paid (kept hlast extends'.left) extends'
  | expired unpaid lapsed hlast extends' =>
    exact .expired unpaid (lapsed.imp id fun ⟨time, mem, hover⟩ =>
      ⟨time, List.mem_append_left _ mem, hover⟩) (kept hlast extends'.left) extends'
  | awaiting hfirst paid rest =>
    have stored : db.payments.get p.id = some p := by
      rw [(Database.account_eq_some hfirst).1, hrow]
    have hrows : db'.confirmationReceipts = db.confirmationReceipts :=
      (sweep_confirmations chain).receipts
    by_cases hdue : p ∈ allDue db now
    · obtain ⟨_, _, ⟨expiresAt, hexpires, hover⟩, unprotected⟩ := mem_allDue.mp hdue
      obtain ⟨after, hafter, hleft⟩ := ends p hdue
      rcases sweep_account chain p.id with same | ⟨a, b, ha, hb, e⟩
      · have hsame := (Database.account_eq_some (same.trans hfirst)).1
        rw [hrow, hafter] at hsame
        rw [Option.some.inj hsame] at hleft
        exact absurd awaiting hleft
      · cases hfirst.symm.trans ha
        refine .expired (unpaid_of_unprotected pending paid unprotected)
          (.inr ⟨now, List.mem_append_right _ (List.mem_singleton.mpr rfl), ?_⟩) hb e
        unfold PaymentRecord.overdue
        rw [hexpires]
        exact decide_eq_true hover
    · have hget := spares p stored hdue
      have hsame : db'.account p.id = some first := by
        rcases sweep_account chain p.id with same | ⟨a, b, _, hb, e⟩
        · exact same.trans hfirst
        · have hb' := (Database.account_eq_some hb).1
          rw [hget] at hb'
          exact absurd (Option.some.inj hb' ▸ awaiting) e.left
      refine .awaiting hsame (by rw [hrows]; exact paid) ?_
      cases hprotected : protectingReceiptExists db p with
      | true => exact .inl (paid_of_protected known hprotected)
      | false =>
        refine rest.imp id fun both => ⟨by rw [hrows]; exact both.1, fun time mem => ?_⟩
        rcases List.mem_append.mp mem with mem | mem
        · exact both.2 time mem
        · rw [List.mem_singleton.mp mem]
          by_contra hover
          refine hdue (mem_allDue.mpr ⟨(Table.get_eq_some stored).1, awaiting, ?_, hprotected⟩)
          unfold PaymentRecord.overdue at hover
          split at hover
          · next expiresAt hexpires =>
            exact ⟨expiresAt, hexpires, by simpa using hover⟩
          · exact absurd rfl hover

end Standing

/-! ## Schedules -/

section Schedules

variable {ι : Type} [DecidableEq ι] {sha256 : String → String} {p : PaymentRecord}
  {receipts : List ConfirmationReceiptRecord}
  {ts us us' : List (Pool.Transition Database ι (Option Client))}
  {w v v' : Pool.World Database ι (Option Client)}

/-- A run of completions, recoveries and sweeps, by any clients in any order, that completes some
receipts and whose sweeps have room for every due payment. Other requests take no part, and a client
may stop at any of its transactions; what is not completed by the end is not in the list. -/
structure Schedule (sha256 : String → String) (receipts : List ConfirmationReceiptRecord)
    (w : Pool.World Database ι (Option Client))
    (us : List (Pool.Transition Database ι (Option Client)))
    (v : Pool.World Database ι (Option Client)) : Prop where
  run : Pool.Run (System sha256) w us v
  processes : ∀ t ∈ us, ∀ client, Transacts sha256 client t → client.request.Processes
  covers : ∀ t ∈ us, ∀ client now limit hex, Transacts sha256 client t →
    client.request = .expire (.aware now) limit hex → ((allDue t.pre now).length : Int) ≤ limit
  completes : ∀ r ∈ receipts, ∃ r', v.shared.confirmationReceipts.get r.confirmationId = some r' ∧
    r'.completed = true

/-- Schedules one after another. -/
theorem Schedule.append (s : Schedule sha256 [] w us v) (s' : Schedule sha256 receipts v us' v') :
    Schedule sha256 receipts w (us ++ us') v' := by
  refine ⟨s.run.append s'.run, fun t mem => ?_, fun t mem => ?_, s'.completes⟩
  · exact (List.mem_append.mp mem).elim (s.processes t) (s'.processes t)
  · exact (List.mem_append.mp mem).elim (s.covers t) (s'.covers t)

/-- Where a payment stands, with the receipts that can still change it. -/
structure Resolving (p : PaymentRecord) (first : Account)
    (receipts : List ConfirmationReceiptRecord) (sweeps : List Instant) (db : Database) : Prop where
  known : Known p receipts db
  standing : Standing p first receipts sweeps db

omit [DecidableEq ι] in
/-- One step of processing. -/
theorem Processing.resolving {t : Pool.Transition Database ι (Option Client)} {first : Account}
    {sweeps : List Instant} (hrow : first.row = p) (awaiting : p.status = .awaitingPayment)
    (pending : ∀ r ∈ receipts, some r.paymentReference = p.paymentReference ∧ r.completed = false)
    (settlement : Settlement sha256 t.pre) (step : Processing sha256 t)
    (covers : ∀ client now limit hex, Transacts sha256 client t →
      client.request = .expire (.aware now) limit hex → ((allDue t.pre now).length : Int) ≤ limit)
    (h : Resolving p first receipts sweeps t.pre) :
    Resolving p first receipts (sweeps ++ (sweepOf t).toList) t.post := by
  cases step with
  | idle same hnone =>
    rw [same, hnone, Option.toList_none, List.append_nil]
    exact h
  | background hbackground hnone =>
    rw [hnone, Option.toList_none, List.append_nil]
    have hrows := hbackground.confirmations.receipts
    have haccount := hbackground.account p.id
    refine ⟨by unfold Known; rw [hrows]; exact h.known, ?_⟩
    cases h.standing with
    | awaiting hfirst paid rest =>
      exact .awaiting (haccount.trans hfirst) (by rw [hrows]; exact paid) (by rw [hrows]; exact rest)
    | captured paid hlast e => exact .captured paid (haccount.trans hlast) e
    | expired unpaid lapsed hlast e => exact .expired unpaid lapsed (haccount.trans hlast) e
  | completed hcall hpost hnone =>
    rw [hnone, Option.toList_none, List.append_nil, hpost]
    rcases (completeConfirmation_cases hcall).2 with ⟨⟨_, herror⟩, _⟩ | ⟨_, _, same, _⟩ |
      ⟨receipt, disposition, rfl, settled, _⟩
    · cases herror
    · rw [same]
      exact h
    · refine ⟨settled.known h.known, h.standing.settled hrow awaiting pending settlement h.known
        settled fun found hlate unprotected => ?_⟩
      have classified := settled.classified
      rw [hlate] at classified
      exact completeConfirmation_late (by exact settled.stored) (by exact settled.fresh) found
        (found ▸ classified) awaiting unprotected hcall
  | @swept now limit hex _ _ _ hcall hpost hsome swept =>
    obtain ⟨client, transacts, hrequest⟩ := swept
    have hcovers := covers client now limit hex transacts hrequest
    obtain ⟨ends, spares⟩ := expireDuePayments_ends hcall
    rcases (expireDuePayments_cases hcall).2 with ⟨⟨_, herror⟩, _⟩ | ⟨_, chain⟩
    · cases herror
    · rw [hsome, Option.toList_some, hpost]
      refine ⟨?_, h.standing.swept hrow awaiting pending h.known (by omega) chain ends spares⟩
      unfold Known
      rw [(sweep_confirmations chain).receipts]
      exact h.known

/-- **Every step of a schedule keeps what it resolves.** -/
theorem Schedule.resolving (h : Execution sha256 ts w) {first : Account}
    (hfirst : w.shared.account p.id = some first) (hrow : first.row = p)
    (awaiting : p.status = .awaitingPayment)
    (s : Schedule sha256 (pendingFor w.shared p) w us v) :
    Resolving p first (pendingFor w.shared p) (sweepsOf us) v.shared := by
  have pending : ∀ r ∈ pendingFor w.shared p,
      some r.paymentReference = p.paymentReference ∧ r.completed = false :=
    fun r mem => (mem_pendingFor.mp mem).2
  have start : Resolving p first (pendingFor w.shared p) [] w.shared := by
    refine ⟨fun r mem hreference hincomplete =>
      mem_pendingFor.mpr ⟨mem, hreference, hincomplete⟩, ?_⟩
    exact .awaiting hfirst (fun r mem _ => (mem_pendingFor.mp mem).1)
      (.inr ⟨fun r mem _ => (mem_pendingFor.mp mem).1, fun _ mem => absurd mem List.not_mem_nil⟩)
  refine h.continues (P := fun sofar db => (∀ t ∈ sofar, t ∈ us) →
    Resolving p first (pendingFor w.shared p) (sweepsOf sofar) db) s.run (fun _ => start) ?_
    fun _ mem => mem
  intro sofar t u reached hpre moves ih hsofar
  have mem : t ∈ us := hsofar t (List.mem_append_right _ (List.mem_singleton.mpr rfl))
  have earlier := ih fun t mem => hsofar t (List.mem_append_left _ mem)
  rw [← hpre] at earlier
  have next := (moves.processes (s.processes t mem)).resolving hrow awaiting pending
    (hpre ▸ reached.settlement) (s.covers t mem) earlier
  have hsweeps : sweepsOf (sofar ++ [t]) = sweepsOf sofar ++ (sweepOf t).toList := by
    unfold sweepsOf
    rw [List.filterMap_append]
    cases hs : sweepOf t <;> simp [hs]
  rw [hsweeps]
  exact next

/-- What the resolution of an awaiting payment makes of its account. -/
def Account.Resolves (p : PaymentRecord) (first last : Account) : PaymentStatus → Prop
  | .captured => Account.Extends (.captureConfirmation p.amount) first last
  | .expired => Account.Extends .expire first last
  | _ => last = first

theorem Account.Resolves.summary_unique {first last last' : Account} {status : PaymentStatus}
    (h : Account.Resolves p first last status) (k : Account.Resolves p first last' status) :
    last.summary = last'.summary := by
  cases status with
  | captured => exact Account.Extends.summary_unique h k
  | expired => exact Account.Extends.summary_unique h k
  | _ =>
    have hlast : last = first := h
    have hlast' : last' = first := k
    rw [hlast, hlast']

theorem Account.Resolves.status {first last : Account} {sweeps : List Instant}
    (h : Account.Resolves p first last (p.resolution receipts sweeps)) (hrow : first.row = p)
    (awaiting : p.status = .awaitingPayment) :
    last.row.status = p.resolution receipts sweeps := by
  unfold PaymentRecord.resolution at h ⊢
  split at h
  · next hpaid =>
    obtain ⟨_, next, _, hafter, happly⟩ := h.decided.states
    rw [if_pos hpaid, ← (paymentState_eq_ok hafter).1]
    exact (captureConfirmation_eq_ok happly).2.2.1
  · next hunpaid =>
    rw [if_neg hunpaid]
    split at h
    · next hover =>
      obtain ⟨_, next, _, hafter, happly⟩ := h.decided.states
      rw [if_pos hover, ← (paymentState_eq_ok hafter).1]
      exact (expire_eq_ok happly).2.1
    · next hkept =>
      have hlast : last = first := h
      rw [if_neg hkept, hlast, hrow]
      exact awaiting

/-- **A schedule ends with the resolution.** -/
theorem Schedule.resolves (h : Execution sha256 ts w)
    (stored : w.shared.payments.get p.id = some p) (awaiting : p.status = .awaitingPayment)
    (s : Schedule sha256 (pendingFor w.shared p) w us v) :
    ∃ first last, w.shared.account p.id = some first ∧ v.shared.account p.id = some last ∧
      first.row = p ∧
      Account.Resolves p first last (p.resolution (pendingFor w.shared p) (sweepsOf us)) := by
  have hfirst := Database.account_of_get stored
  have standing := (s.resolving h hfirst rfl awaiting).standing
  -- a receipt that was completed is not pending
  have gone : ∀ r ∈ pendingFor w.shared p, r ∉ v.shared.confirmationReceipts.rows := by
    intro r mem hrow
    obtain ⟨r', hget, hcompleted⟩ := s.completes r mem
    have hsame : r = r' := Option.some.inj ((Table.get_of_mem hrow).symm.trans hget)
    rw [← hsame, (mem_pendingFor.mp mem).2.2] at hcompleted
    cases hcompleted
  unfold PaymentRecord.resolution
  cases standing with
  | captured paid hlast extends' =>
    refine ⟨_, _, hfirst, hlast, rfl, ?_⟩
    rw [if_pos (List.any_eq_true.mpr paid)]
    exact extends'
  | expired unpaid lapsed hlast extends' =>
    refine ⟨_, _, hfirst, hlast, rfl, ?_⟩
    rw [if_neg, if_pos]
    · exact extends'
    · rw [Bool.or_eq_true, List.any_eq_true, List.any_eq_true]
      exact lapsed
    · rw [List.any_eq_true]
      rintro ⟨r, mem, hpaid⟩
      rw [unpaid r mem] at hpaid
      cases hpaid
  | awaiting hsame paid rest =>
    have unpaid : ¬∃ r ∈ pendingFor w.shared p, p.paidBy r = true :=
      fun ⟨r, mem, hpaid⟩ => gone r mem (paid r mem hpaid)
    obtain ⟨hover, hsweeps⟩ := rest.resolve_left unpaid
    refine ⟨_, _, hfirst, hsame, rfl, ?_⟩
    rw [if_neg, if_neg]
    · exact rfl
    · rw [Bool.or_eq_true, List.any_eq_true, List.any_eq_true]
      rintro (⟨r, mem, hlate⟩ | ⟨now, mem, hdue⟩)
      · exact gone r mem (hover r mem hlate)
      · rw [hsweeps now mem] at hdue
        cases hdue
    · rw [List.any_eq_true]
      exact unpaid

/-- The resolution does not depend on the order of the sweeps. -/
theorem resolution_perm {sweeps sweeps' : List Instant} (h : sweeps.Perm sweeps') :
    p.resolution receipts sweeps = p.resolution receipts sweeps' := by
  unfold PaymentRecord.resolution
  rw [h.any_eq]

/-- **Processing order does not decide**: two schedules that complete the accepted receipts end with
accounts that have the same summary. Each is shown equal to the resolution of the receipts and the
sweeps, so they are never compared with each other. -/
theorem schedules_agree (h : Execution sha256 ts w)
    (stored : w.shared.payments.get p.id = some p) (awaiting : p.status = .awaitingPayment)
    (s : Schedule sha256 (pendingFor w.shared p) w us v)
    (s' : Schedule sha256 (pendingFor w.shared p) w us' v')
    (sweeps : (sweepsOf us).Perm (sweepsOf us')) :
    (v.shared.account p.id).map Account.summary = (v'.shared.account p.id).map Account.summary ∧
      (v.shared.account p.id).map (·.row.status) =
        some (p.resolution (pendingFor w.shared p) (sweepsOf us)) := by
  obtain ⟨first, last, hfirst, hlast, hrow, resolves⟩ := s.resolves h stored awaiting
  obtain ⟨first', last', hfirst', hlast', _, resolves'⟩ := s'.resolves h stored awaiting
  cases hfirst.symm.trans hfirst'
  rw [← resolution_perm sweeps] at resolves'
  rw [hlast, hlast']
  exact ⟨congrArg some (resolves.summary_unique resolves'),
    congrArg some (resolves.status hrow awaiting)⟩

end Schedules

/-! ## An invoice with two confirmations -/

/-- The acceptance of a confirmation of the invoice. -/
def acceptance (id : String) (amount : Int) : Request :=
  .accept ⟨id, "ref_1", amount, .usd⟩ (.aware 5)

/-- The completion of a confirmation. -/
def completion (id : String) : Request := .complete id ⟨id, id, id, id⟩

/-- A sweep at the deadline of the invoice. -/
def lastSweep : Request := .expire (.aware (hours 72)) 10 fun id => id

/-- The desk of a billed invoice with two confirmations, the second one short. -/
def acceptedDesk : Desk :=
  (billedDesk.called id (acceptance "conf-1" 500) 1).called id (acceptance "conf-2" 400) 1

theorem accepted_execution : ∃ ts, Execution id ts acceptedDesk.world := by
  have unfinished : ∀ k < 2, ¬((Desk.turn id)^[k] (.empty, ⟨invoice, ∅, .ready⟩)).2.phase.Ended := by
    decide +kernel
  have ended : billedDesk.2.phase.Ended ∧
      (billedDesk.called id (acceptance "conf-1" 500) 1).2.phase.Ended := by
    decide +kernel
  exact ⟨_, _, Desk.initial invoice, ((Desk.run_turns 2 unfinished).append
    (Desk.run_call ended.1 1 Desk.begin_unfinished)).append
      (Desk.run_call ended.2 1 Desk.begin_unfinished)⟩

/-- The desk that some calls of one transaction leave. -/
def Desk.processed (requests : List Request) (desk : Desk) : Desk :=
  requests.foldl (fun desk request => desk.called id request 1) desk

/-- The steps of these calls. -/
def Desk.processing : List Request → Desk → List (Pool.Transition Database Bool (Option Client))
  | [], _ => []
  | request :: requests, desk =>
    desk.call id request 1 ++ Desk.processing requests (desk.called id request 1)

/-- A completion or a sweep of the invoice. -/
def OfInvoice (request : Request) : Prop := (∃ id, request = completion id) ∨ request = lastSweep

section Schedule

variable {desk : Desk} {request : Request} {requests : List Request}
  {receipts : List ConfirmationReceiptRecord}

/-- A completion, and a sweep with room for every due payment, are schedules of one call. -/
theorem Desk.schedule_one (ended : desk.2.phase.Ended) (hrequest : OfInvoice request)
    (room : (allDue desk.1 (hours 72)).length ≤ 10) :
    Schedule id [] desk.world (desk.call id request 1) (desk.called id request 1).world := by
  have acting : ∀ t ∈ desk.call id request 1, ∀ client, Transacts id client t →
      client.request = request ∧ t.pre = desk.1 := by
    intro t mem client transacts
    rcases List.mem_cons.mp mem with rfl | mem
    · cases transacts.before
      exact absurd ended transacts.unfinished
    · obtain rfl := List.mem_singleton.mp mem
      cases transacts.before
      exact ⟨rfl, rfl⟩
  refine ⟨Desk.run_call ended 1 Desk.begin_unfinished, fun t mem client transacts => ?_,
    fun t mem client now limit hex transacts hsweep => ?_, fun r mem => absurd mem List.not_mem_nil⟩
  · rw [(acting t mem client transacts).1]
    rcases hrequest with ⟨_, rfl⟩ | rfl <;> exact trivial
  · obtain ⟨hclient, hpre⟩ := acting t mem client transacts
    rw [hclient] at hsweep
    rw [hpre]
    rcases hrequest with ⟨_, rfl⟩ | rfl
    · cases hsweep
    · cases hsweep
      exact Int.ofNat_le.mpr room

/-- Calls one after another are a schedule. -/
theorem Desk.schedule (hrequests : ∀ request ∈ requests, OfInvoice request)
    (each : ∀ k < requests.length, (desk.processed (requests.take k)).2.phase.Ended ∧
      (allDue (desk.processed (requests.take k)).1 (hours 72)).length ≤ 10)
    (completes : ∀ r ∈ receipts, ∃ r', (desk.processed requests).1.confirmationReceipts.get
      r.confirmationId = some r' ∧ r'.completed = true) :
    Schedule id receipts desk.world (Desk.processing requests desk)
      (desk.processed requests).world := by
  induction requests generalizing desk with
  | nil =>
    exact ⟨.nil _, fun _ mem => absurd mem List.not_mem_nil, fun _ mem => absurd mem List.not_mem_nil,
      completes⟩
  | cons request requests ih =>
    obtain ⟨ended, room⟩ := each 0 (Nat.succ_pos _)
    have first := Desk.schedule_one ended (hrequests request List.mem_cons_self) room
    exact first.append (ih (fun request mem => hrequests request (List.mem_cons_of_mem _ mem))
      (fun k hk => each (k + 1) (Nat.succ_lt_succ hk)) completes)

end Schedule

/-- The short confirmation is completed first, and the sweep comes last. -/
def shortFirst : List Request := [completion "conf-2", completion "conf-1", lastSweep]

/-- The sweep comes first, and the short confirmation is completed last. -/
def sweepFirst : List Request := [lastSweep, completion "conf-1", completion "conf-2"]

/-- The confirmation that pays the invoice is left out. -/
def shortOnly : List Request := [completion "conf-2", lastSweep]

/-- The three schedules of the invoice. -/
theorem accepted_schedule {requests : List Request} {receipts : List ConfirmationReceiptRecord}
    (mem : requests ∈ [shortFirst, sweepFirst, shortOnly])
    (completes : ∀ r ∈ receipts, ((acceptedDesk.processed requests).1.confirmationReceipts.get
      r.confirmationId).any (·.completed)) :
    Schedule id receipts acceptedDesk.world (Desk.processing requests acceptedDesk)
      (acceptedDesk.processed requests).world := by
  have each : ∀ requests ∈ [shortFirst, sweepFirst, shortOnly], ∀ k < requests.length,
      (acceptedDesk.processed (requests.take k)).2.phase.Ended ∧
        (allDue (acceptedDesk.processed (requests.take k)).1 (hours 72)).length ≤ 10 := by
    decide +kernel
  have calls : ∀ requests ∈ [shortFirst, sweepFirst, shortOnly], ∀ request ∈ requests,
      OfInvoice request := by
    simp [shortFirst, sweepFirst, shortOnly, OfInvoice, completion]
  exact Desk.schedule (calls requests mem) (each requests mem) fun r hr =>
    (Option.any_eq_true _ _).mp (completes r hr)

/-- **The order does not matter** when both receipts are completed. -/
theorem accepted_schedules_agree :
    ((acceptedDesk.processed shortFirst).1.account "pay_1").map Account.summary =
        ((acceptedDesk.processed sweepFirst).1.account "pay_1").map Account.summary ∧
      ((acceptedDesk.processed shortFirst).1.account "pay_1").map (·.row.status) =
        some .captured := by
  obtain ⟨ts, h⟩ := accepted_execution
  have stored : acceptedDesk.1.payments.get invoiced.id = some invoiced := by decide +kernel
  have completes : ∀ requests ∈ [shortFirst, sweepFirst], ∀ r ∈ pendingFor acceptedDesk.1 invoiced,
      ((acceptedDesk.processed requests).1.confirmationReceipts.get
        r.confirmationId).any (·.completed) := by
    decide +kernel
  have sweeps : sweepsOf (Desk.processing shortFirst acceptedDesk) = [hours 72] ∧
      sweepsOf (Desk.processing sweepFirst acceptedDesk) = [hours 72] ∧
      invoiced.resolution (pendingFor acceptedDesk.1 invoiced) [hours 72] = .captured := by
    decide +kernel
  have agree := schedules_agree h stored rfl
    (accepted_schedule (by simp) (completes shortFirst (by simp)))
    (accepted_schedule (by simp) (completes sweepFirst (by simp)))
    (sweeps.1.trans sweeps.2.1.symm ▸ List.Perm.refl _)
  rw [sweeps.1] at agree
  exact ⟨agree.1, agree.2.trans (congrArg some sweeps.2.2)⟩

/-- The short receipt alone does not decide: it is completed in both schedules, beside one sweep at the
deadline, and the receipt that is left out pays the invoice in one and protects it in the other. -/
theorem other_receipt_decides :
    ∃ (ts us us' : List (Pool.Transition Database Bool (Option Client)))
      (w v v' : Pool.World Database Bool (Option Client)) (p : PaymentRecord)
      (r : ConfirmationReceiptRecord),
      Execution id ts w ∧ w.shared.payments.get p.id = some p ∧ p.status = .awaitingPayment ∧
        r ∈ pendingFor w.shared p ∧ Schedule id [r] w us v ∧ Schedule id [r] w us' v' ∧
        (sweepsOf us).Perm (sweepsOf us') ∧ p.resolution [r] (sweepsOf us) = .expired ∧
        (v.shared.account p.id).map (·.row.status) = some .captured ∧
        (v'.shared.account p.id).map (·.row.status) = some .awaitingPayment := by
  obtain ⟨ts, h⟩ := accepted_execution
  have stored : acceptedDesk.1.payments.get invoiced.id = some invoiced := by decide +kernel
  have short : ∃ r ∈ pendingFor acceptedDesk.1 invoiced,
      (∀ requests ∈ [shortFirst, shortOnly],
        ((acceptedDesk.processed requests).1.confirmationReceipts.get
          r.confirmationId).any (·.completed)) ∧
      invoiced.resolution [r] [hours 72] = .expired := by
    decide +kernel
  have ends : sweepsOf (Desk.processing shortFirst acceptedDesk) = [hours 72] ∧
      sweepsOf (Desk.processing shortOnly acceptedDesk) = [hours 72] ∧
      ((acceptedDesk.processed shortFirst).1.account invoiced.id).map (·.row.status) =
        some .captured ∧
      ((acceptedDesk.processed shortOnly).1.account invoiced.id).map (·.row.status) =
        some .awaitingPayment := by
    decide +kernel
  obtain ⟨r, mem, completes, expired⟩ := short
  have schedule : ∀ requests ∈ [shortFirst, shortOnly],
      Schedule id [r] acceptedDesk.world (Desk.processing requests acceptedDesk)
        (acceptedDesk.processed requests).world := by
    intro requests hrequests
    refine accepted_schedule ?_ fun r' hr' => ?_
    · rcases List.mem_pair.mp hrequests with rfl | rfl <;> simp
    · rw [List.mem_singleton.mp hr']
      exact completes requests hrequests
  refine ⟨ts, _, _, _, _, _, invoiced, r, h, stored, rfl, mem, schedule shortFirst (by simp),
    schedule shortOnly (by simp), ?_, ?_, ends.2.2⟩
  · rw [ends.1, ends.2.1]
  · rw [ends.1]
    exact expired

end PaymentLab
