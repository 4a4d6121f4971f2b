import PaymentLab.Account.Model
import PaymentLab.Services.Confirmations

/-!
# What a transaction commits

The effects a committed transaction can have on the database, one structure for each, and `Effect`,
any of them. Later modules derive every invariant of the store from these structures; that the
service functions commit nothing else is proved next to them.

`Database.account` reads the account of a payment off the store. An effect, seen from one payment,
is nothing, the opening of its account, or one lifecycle step of it (`Effect.account_cases`): the
store refines the abstract model.

An effect names everything it changes, and says that the rest of the store is the same. So an
invariant of the store is kept by an effect as soon as it is kept by the changes named, and what an
effect does not mention needs no frame lemma of its own.
-/

namespace PaymentLab

open Relational

/-! ## The account of a payment -/

namespace Database

/-- The published events of one payment. -/
def publishedOf (db : Database) (paymentId : String) : List PublishedEvent :=
  (db.eventsOf paymentId).map (·.published)

/-- The account of a payment, as the tables hold it. -/
def account (db : Database) (paymentId : String) : Option Account :=
  (db.payments.get paymentId).map fun row =>
    { row := row
      ledger := db.ledgerOf paymentId
      events := db.publishedOf paymentId }

/-- Ledger entries and events belong to payments of the store. -/
structure Grounded (db : Database) : Prop where
  ledger : ∀ entry ∈ db.ledgerEntries.rows, ∃ p, db.payments.get entry.paymentId = some p
  events : ∀ event ∈ db.webhookEvents.rows, ∃ p, db.payments.get event.paymentId = some p

theorem account_eq_some {db : Database} {id : String} {a : Account} (h : db.account id = some a) :
    db.payments.get id = some a.row ∧ a.ledger = db.ledgerOf id ∧ a.events = db.publishedOf id := by
  obtain ⟨row, hrow, rfl⟩ := Option.map_eq_some_iff.mp h
  exact ⟨hrow, rfl, rfl⟩

theorem account_of_get {db : Database} {id : String} {p : PaymentRecord}
    (h : db.payments.get id = some p) :
    db.account id = some ⟨p, db.ledgerOf id, db.publishedOf id⟩ := by
  unfold account
  rw [h]
  rfl

/-- A payment that is not stored has no ledger entry and no event. -/
theorem Grounded.nothing {db : Database} (h : db.Grounded) {id : String}
    (free : db.payments.get id = none) : db.ledgerOf id = [] ∧ db.publishedOf id = [] := by
  have hledger : db.ledgerOf id = [] := by
    refine List.filter_eq_nil_iff.mpr fun entry mem heq => ?_
    obtain ⟨p, hp⟩ := h.ledger entry mem
    rw [decide_eq_true_eq.mp heq, free] at hp
    cases hp
  have hevents : db.eventsOf id = [] := by
    refine List.filter_eq_nil_iff.mpr fun event mem heq => ?_
    obtain ⟨p, hp⟩ := h.events event mem
    rw [decide_eq_true_eq.mp heq, free] at hp
    cases hp
  refine ⟨hledger, ?_⟩
  unfold publishedOf
  rw [hevents]
  rfl

/-- The published events of a payment are read off the published part of the table. -/
theorem publishedOf_eq (db : Database) (id : String) :
    db.publishedOf id =
      (db.webhookEvents.rows.map (·.published)).filter fun e => decide (e.paymentId = id) := by
  unfold publishedOf eventsOf Table.select
  rw [List.filter_map]
  rfl

end Database

/-! ## Groups of tables -/

/-- The tables of accounts are the same: payments, ledger and events. Keys and receipts may differ. -/
structure SameAccounts (db db' : Database) : Prop where
  payments : db'.payments = db.payments
  ledgerEntries : db'.ledgerEntries = db.ledgerEntries
  webhookEvents : db'.webhookEvents = db.webhookEvents

/-- The tables of confirmations are the same. -/
structure SameConfirmations (db db' : Database) : Prop where
  receipts : db'.confirmationReceipts = db.confirmationReceipts
  confirmations : db'.paymentConfirmations = db.paymentConfirmations

/-- The tables only delivery and the merchant write are the same. No transaction of the service
touches them. -/
structure SameMerchant (db db' : Database) : Prop where
  deliveryAttempts : db'.deliveryAttempts = db.deliveryAttempts
  processedWebhooks : db'.processedWebhooks = db.processedWebhooks
  merchantProjections : db'.merchantProjections = db.merchantProjections

/-! ## Effects -/

/-- A ledger row at the end of the ledger, or none. -/
def Posts (entry : Option LedgerEntryRecord) (t t' : Table ledgerSchema) : Prop :=
  match entry with
  | none => t' = t
  | some entry => t.insert entry = some t'

/-- A payment is created, with its ledger entry, its event and the response under its key, all in the
one transaction. The times and the ids are whatever the call drew. -/
structure Created (sha256 : String → String) (command : AuthorizationCommand) (key : String)
    (payment : PaymentRecord) (db db' : Database) : Prop where
  terms : ∃ now reference hex terms event, authorizationTerms command now reference = .ok terms ∧
    payment = newPayment command terms now hex ∧
    db.webhookEvents.insert (createOutboxEvent payment terms.eventType event) =
      some db'.webhookEvents
  payments : db.payments.insert payment = some db'.payments
  ledger : ∃ hex, Posts (authorizationEntry payment hex) db.ledgerEntries db'.ledgerEntries
  claim : ∃ now, db.idempotencyRecords.insert
    (completedClaim (newClaim key (command.fingerprint sha256) "AUTHORIZE" now) payment) =
      some db'.idempotencyRecords
  confirmations : SameConfirmations db db'
  merchant : SameMerchant db db'

/-- One lifecycle step of a stored payment: the versioned row, its ledger row and its event. The row
before the step is the stored one; that the step was decided from it is the field `decided`. -/
structure Advances (step : LifecycleStep) (before after : PaymentRecord) (db db' : Database) :
    Prop where
  stored : db.payments.get before.id = some before
  decided : Decides step before after
  confirmed : ∀ amount, step = .captureConfirmation amount → amount = before.amount
  payments : db.payments.update after = some db'.payments
  ledger : ∃ id now, Posts (step.entry before after id now) db.ledgerEntries db'.ledgerEntries
  events : ∃ hex, db.webhookEvents.insert (createOutboxEvent after step.eventType hex) =
    some db'.webhookEvents
  merchant : SameMerchant db db'

/-- The step a lifecycle command asks for. -/
def LifecycleCommand.step (command : LifecycleCommand) : Option LifecycleStep :=
  match command.operation, command.amount with
  | .capture, _ => some .capture
  | .cancel, _ => some .cancel
  | .refund, some amount => some (.refund amount)
  | _, _ => none

/-- A capture, cancellation or refund, with the response under its key. -/
structure Operated (sha256 : String → String) (command : LifecycleCommand) (key : String)
    (before after : PaymentRecord) (db db' : Database) : Prop where
  target : before.id = command.paymentId
  advances : ∃ step, command.step = some step ∧ Advances step before after db db'
  unprotected : command.operation = .cancel → before.status = .awaitingPayment →
    protectingReceiptExists db before = false
  claim : ∃ now, db.idempotencyRecords.insert
    (completedClaim (newClaim key (command.fingerprint sha256) command.operation.value now) after) =
      some db'.idempotencyRecords
  confirmations : SameConfirmations db db'

/-- A first acceptance. -/
structure Received (sha256 : String → String) (command : ConfirmationCommand)
    (db db' : Database) : Prop where
  receipt : ∃ receivedAt, db.confirmationReceipts.insert (newReceipt sha256 command receivedAt) =
    some db'.confirmationReceipts
  confirmations : db'.paymentConfirmations = db.paymentConfirmations
  claims : db'.idempotencyRecords = db.idempotencyRecords
  accounts : SameAccounts db db'
  merchant : SameMerchant db db'

/-- The financial effect of a completed receipt: none, or the capture of the payment it names. A
receipt that is not applied leaves every account as it is. -/
inductive SettledEffect (receipt : ConfirmationReceiptRecord)
    (disposition : ConfirmationDisposition) (payment : Option PaymentRecord) (db db' : Database) :
    Prop
  /-- no effect on any payment -/
  | none : disposition ≠ .applied → SameAccounts db db' → SameMerchant db db' →
      SettledEffect receipt disposition payment db db'
  /-- the payment is captured -/
  | captured (before after : PaymentRecord) : disposition = .applied → payment = some before →
      Advances (.captureConfirmation receipt.amount) before after db db' →
      SettledEffect receipt disposition payment db db'
  /-- a late confirmation ends the payment -/
  | expired (before after : PaymentRecord) : disposition = .late → payment = some before →
      protectingReceiptExists db before = false → Advances .expire before after db db' →
      SettledEffect receipt disposition payment db db'

/-- A receipt is completed: its final record, its disposition and the effect of that, in one
transaction. -/
structure Settled (sha256 : String → String) (receipt : ConfirmationReceiptRecord)
    (disposition : ConfirmationDisposition) (db db' : Database) : Prop where
  stored : db.confirmationReceipts.get receipt.confirmationId = some receipt
  fresh : db.paymentConfirmations.get receipt.confirmationId = none
  classified : classify (paymentByReference db receipt.paymentReference) receipt.command
    receipt.receivedAt = .ok disposition
  confirmation : db.paymentConfirmations.insert
    (newConfirmation sha256 receipt.command receipt.receivedAt disposition
      (paymentByReference db receipt.paymentReference)) = some db'.paymentConfirmations
  completed : db.confirmationReceipts.update { receipt with completed := true } =
    some db'.confirmationReceipts
  claims : db'.idempotencyRecords = db.idempotencyRecords
  effect : SettledEffect receipt disposition (paymentByReference db receipt.paymentReference) db db'

/-- One scheduled expiry. -/
structure Expired (before after : PaymentRecord) (db db' : Database) : Prop where
  unprotected : protectingReceiptExists db before = false
  advances : Advances .expire before after db db'
  claims : db'.idempotencyRecords = db.idempotencyRecords
  confirmations : SameConfirmations db db'

/-- What delivery and the merchant do between service transactions: they write their own tables and
the delivery columns of events. The order of their steps, and which of them take place, is left open;
the service may rely on nothing else of them. -/
structure Background (db db' : Database) : Prop where
  payments : db'.payments = db.payments
  ledgerEntries : db'.ledgerEntries = db.ledgerEntries
  claims : db'.idempotencyRecords = db.idempotencyRecords
  confirmations : SameConfirmations db db'
  published : db'.webhookEvents.rows.map (·.published) = db.webhookEvents.rows.map (·.published)

/-- Any one effect. -/
inductive Effect (sha256 : String → String) (db db' : Database) : Prop
  | created {command : AuthorizationCommand} {key : String} {payment : PaymentRecord} :
      Created sha256 command key payment db db' → Effect sha256 db db'
  | operated {command : LifecycleCommand} {key : String} {before after : PaymentRecord} :
      Operated sha256 command key before after db db' → Effect sha256 db db'
  | received {command : ConfirmationCommand} :
      Received sha256 command db db' → Effect sha256 db db'
  | settled {receipt : ConfirmationReceiptRecord} {disposition : ConfirmationDisposition} :
      Settled sha256 receipt disposition db db' → Effect sha256 db db'
  | expired {before after : PaymentRecord} : Expired before after db db' → Effect sha256 db db'
  | background : Background db db' → Effect sha256 db db'

/-! ## Effects on one account -/

/-- The ledger of one payment after a posting: the row at the end when it is of that payment. -/
theorem Posts.select {entry : Option LedgerEntryRecord} {t t' : Table ledgerSchema}
    (h : Posts entry t t') (id : String) :
    (t'.select fun e => decide (e.paymentId = id)) =
      (t.select fun e => decide (e.paymentId = id)) ++
        entry.toList.filter fun e => decide (e.paymentId = id) := by
  cases entry with
  | none =>
    have h : t' = t := h
    rw [h, Option.toList_none, List.filter_nil, List.append_nil]
  | some entry =>
    rw [Table.select_insert h, Option.toList_some, List.filter_singleton, Bool.cond_eq_ite]

theorem Posts.mem {entry : Option LedgerEntryRecord} {t t' : Table ledgerSchema}
    (h : Posts entry t t') {e : LedgerEntryRecord} :
    e ∈ t'.rows ↔ e ∈ t.rows ∨ entry = some e := by
  cases entry with
  | none =>
    have h : t' = t := h
    rw [h]
    simp only [reduceCtorEq, or_false]
  | some entry =>
    rw [Table.insert_rows h, List.mem_append, List.mem_singleton, Option.some.injEq, eq_comm (a := e)]

/-- A posting adds its row at the end. -/
theorem Posts.rows {entry : Option LedgerEntryRecord} {t t' : Table ledgerSchema}
    (h : Posts entry t t') : t'.rows = t.rows ++ entry.toList := by
  cases entry with
  | none =>
    have h : t' = t := h
    rw [h, Option.toList_none, List.append_nil]
  | some entry => exact Table.insert_rows h

/-- The published events of one payment after the event of a payment version. -/
theorem publishedOf_insert {db db' : Database} {payment : PaymentRecord}
    {eventType : WebhookEventType} {hex : String}
    (h : db.webhookEvents.insert (createOutboxEvent payment eventType hex) =
      some db'.webhookEvents) (id : String) :
    db'.publishedOf id =
      db.publishedOf id ++ if payment.id = id then [publishedEvent payment eventType hex] else [] := by
  unfold Database.publishedOf Database.eventsOf
  rw [Table.select_insert h, List.map_append]
  have hpayment : (createOutboxEvent payment eventType hex).paymentId = payment.id := rfl
  by_cases hid : payment.id = id
  · rw [if_pos hid, hpayment, if_pos (decide_eq_true hid)]
    rfl
  · rw [if_neg hid, hpayment, if_neg (by simpa only [decide_eq_true_eq] using hid)]
    rfl

theorem LifecycleStep.entry_paymentId {step : LifecycleStep} {before after : PaymentRecord}
    {id : String} {now : Instant} {entry : LedgerEntryRecord}
    (h : step.entry before after id now = some entry) : entry.paymentId = before.id := by
  obtain ⟨_, _, rfl⟩ := Option.map_eq_some_iff.mp h
  rfl

theorem authorizationEntry_paymentId {payment : PaymentRecord} {hex : String}
    {entry : LedgerEntryRecord} (h : authorizationEntry payment hex = some entry) :
    entry.paymentId = payment.id := by
  unfold authorizationEntry at h
  split at h
  · cases h; rfl
  · cases h

/-- The rows an optional entry adds to a ledger. -/
theorem filter_entry {entry : Option LedgerEntryRecord} {paymentId : String}
    (h : ∀ e, entry = some e → e.paymentId = paymentId) (id : String) :
    (entry.toList.filter fun e => decide (e.paymentId = id)) =
      if paymentId = id then entry.toList else [] := by
  cases entry with
  | none => simp only [Option.toList_none, List.filter_nil, ite_self]
  | some e =>
    simp only [Option.toList_some, List.filter_singleton, h e rfl, Bool.cond_eq_ite,
      decide_eq_true_eq]

namespace Advances

variable {step : LifecycleStep} {before after : PaymentRecord} {db db' : Database}

theorem after_id (h : Advances step before after db db') : after.id = before.id :=
  h.decided.sameIdentity.id

/-- The stored row afterwards. -/
theorem stored_after (h : Advances step before after db db') :
    db'.payments.get before.id = some after := by
  rw [← h.after_id]
  exact Table.get_update_self h.payments (x := before) (by
    show db.payments.get after.id = some before
    rw [h.after_id]
    exact h.stored)

/-- Every other row is as it was. -/
theorem get_of_ne (h : Advances step before after db db') {id : String} (hne : id ≠ before.id) :
    db'.payments.get id = db.payments.get id :=
  Table.get_update_of_ne h.payments fun heq => hne (heq ▸ h.after_id)

theorem ledgerOf (h : Advances step before after db db') :
    ∃ id now, db'.ledgerOf before.id =
      db.ledgerOf before.id ++ (step.entry before after id now).toList := by
  obtain ⟨id, now, hposts⟩ := h.ledger
  refine ⟨id, now, (hposts.select before.id).trans ?_⟩
  rw [filter_entry (fun e he => LifecycleStep.entry_paymentId he), if_pos rfl]
  rfl

theorem ledgerOf_of_ne (h : Advances step before after db db') {id : String}
    (hne : id ≠ before.id) : db'.ledgerOf id = db.ledgerOf id := by
  obtain ⟨entryId, now, hposts⟩ := h.ledger
  refine (hposts.select id).trans ?_
  rw [filter_entry (fun e he => LifecycleStep.entry_paymentId he), if_neg (Ne.symm hne),
    List.append_nil]
  rfl

theorem publishedOf (h : Advances step before after db db') :
    ∃ hex, db'.publishedOf before.id =
      db.publishedOf before.id ++ [publishedEvent after step.eventType hex] := by
  obtain ⟨hex, hinsert⟩ := h.events
  refine ⟨hex, (publishedOf_insert hinsert before.id).trans ?_⟩
  rw [if_pos h.after_id]

theorem publishedOf_of_ne (h : Advances step before after db db') {id : String}
    (hne : id ≠ before.id) : db'.publishedOf id = db.publishedOf id := by
  obtain ⟨hex, hinsert⟩ := h.events
  refine (publishedOf_insert hinsert id).trans ?_
  rw [if_neg (fun heq : after.id = id => hne (heq.symm.trans h.after_id)), List.append_nil]

/-- **A lifecycle step of the store is one of the account.** -/
theorem account (h : Advances step before after db db') :
    ∃ a b, db.account before.id = some a ∧ db'.account before.id = some b ∧ a.row = before ∧
      b.row = after ∧ Account.Extends step a b := by
  refine ⟨_, _, Database.account_of_get h.stored, Database.account_of_get h.stored_after, rfl, rfl,
    h.decided, h.confirmed, h.ledgerOf, h.publishedOf⟩

/-- Every other account is as it was. -/
theorem account_of_ne (h : Advances step before after db db') {id : String}
    (hne : id ≠ before.id) : db'.account id = db.account id := by
  unfold Database.account
  rw [h.get_of_ne hne, h.ledgerOf_of_ne hne, h.publishedOf_of_ne hne]

theorem grounded (h : Advances step before after db db') (g : db.Grounded) : db'.Grounded := by
  have keeps : ∀ id p, db.payments.get id = some p → ∃ q, db'.payments.get id = some q := by
    intro id p hp
    by_cases hid : id = before.id
    · exact ⟨after, hid ▸ h.stored_after⟩
    · exact ⟨p, (h.get_of_ne hid).trans hp⟩
  refine ⟨fun entry mem => ?_, fun event mem => ?_⟩
  · obtain ⟨id, now, hposts⟩ := h.ledger
    rcases hposts.mem.mp mem with mem | hentry
    · obtain ⟨p, hp⟩ := g.ledger entry mem
      exact keeps _ p hp
    · rw [LifecycleStep.entry_paymentId hentry]
      exact ⟨after, h.stored_after⟩
  · obtain ⟨hex, hinsert⟩ := h.events
    rw [Table.insert_rows hinsert] at mem
    rcases List.mem_append.mp mem with mem | mem
    · obtain ⟨p, hp⟩ := g.events event mem
      exact keeps _ p hp
    · rw [List.mem_singleton.mp mem]
      show ∃ p, db'.payments.get after.id = some p
      rw [h.after_id]
      exact ⟨after, h.stored_after⟩

/-- The step between databases whose account tables are the same. -/
theorem transport {d d' : Database} (h : Advances step before after d d')
    (pre : SameAccounts db d) (post : SameAccounts d' db') (merchant : SameMerchant db db') :
    Advances step before after db db' := by
  refine ⟨?_, h.decided, h.confirmed, ?_, ?_, ?_, merchant⟩
  · rw [← pre.payments]
    exact h.stored
  · rw [post.payments, ← pre.payments]
    exact h.payments
  · rw [post.ledgerEntries, ← pre.ledgerEntries]
    exact h.ledger
  · rw [post.webhookEvents, ← pre.webhookEvents]
    exact h.events

end Advances

namespace Created

variable {sha256 : String → String} {command : AuthorizationCommand} {key : String}
  {payment : PaymentRecord} {db db' : Database}

theorem fresh (h : Created sha256 command key payment db db') :
    db.payments.get payment.id = none := (Table.insert_eq_some h.payments).2.1

theorem get_of_ne (h : Created sha256 command key payment db db') {id : String}
    (hne : id ≠ payment.id) : db'.payments.get id = db.payments.get id := by
  rw [Table.get_insert h.payments]
  exact if_neg (Ne.symm hne)

/-- **An authorization opens an account.** -/
theorem account (h : Created sha256 command key payment db db') (g : db.Grounded) :
    ∃ a, db'.account payment.id = some a ∧ a.row = payment ∧ a.Opened := by
  obtain ⟨now, reference, hex, terms, event, hterms, hpayment, hevent⟩ := h.terms
  obtain ⟨ledger, hposts⟩ := h.ledger
  obtain ⟨hnoledger, hnoevents⟩ := g.nothing h.fresh
  have hledger : db'.ledgerOf payment.id = (authorizationEntry payment ledger).toList := by
    refine (hposts.select payment.id).trans ?_
    rw [filter_entry (fun e he => authorizationEntry_paymentId he), if_pos rfl]
    show db.ledgerOf payment.id ++ _ = _
    rw [hnoledger, List.nil_append]
  have hevents : db'.publishedOf payment.id = [publishedEvent payment terms.eventType event] := by
    rw [publishedOf_insert hevent, hnoevents, if_pos rfl, List.nil_append]
  refine ⟨_, Database.account_of_get (Table.get_insert_self h.payments), rfl, ?_⟩
  exact ⟨command, terms, now, hex, reference, ledger, event, hterms, hpayment, hledger, hevents⟩

theorem account_of_ne (h : Created sha256 command key payment db db') {id : String}
    (hne : id ≠ payment.id) : db'.account id = db.account id := by
  obtain ⟨_, _, _, terms, event, _, _, hevent⟩ := h.terms
  obtain ⟨ledger, hposts⟩ := h.ledger
  have hledger : db'.ledgerOf id = db.ledgerOf id := by
    refine (hposts.select id).trans ?_
    rw [filter_entry (fun e he => authorizationEntry_paymentId he), if_neg (Ne.symm hne),
      List.append_nil]
    rfl
  have hevents : db'.publishedOf id = db.publishedOf id := by
    rw [publishedOf_insert hevent, if_neg (fun heq : payment.id = id => hne heq.symm),
      List.append_nil]
  unfold Database.account
  rw [h.get_of_ne hne, hledger, hevents]

theorem grounded (h : Created sha256 command key payment db db') (g : db.Grounded) :
    db'.Grounded := by
  have hnew : db'.payments.get payment.id = some payment := Table.get_insert_self h.payments
  refine ⟨fun entry mem => ?_, fun e mem => ?_⟩
  · obtain ⟨hex, hposts⟩ := h.ledger
    rcases hposts.mem.mp mem with mem | hentry
    · obtain ⟨p, hp⟩ := g.ledger entry mem
      exact ⟨p, Table.get_insert_of_some h.payments hp⟩
    · exact ⟨payment, authorizationEntry_paymentId hentry ▸ hnew⟩
  · obtain ⟨_, _, _, terms, event, _, _, hinsert⟩ := h.terms
    rw [Table.insert_rows hinsert] at mem
    rcases List.mem_append.mp mem with mem | mem
    · obtain ⟨p, hp⟩ := g.events e mem
      exact ⟨p, Table.get_insert_of_some h.payments hp⟩
    · rw [List.mem_singleton.mp mem]
      exact ⟨payment, hnew⟩

end Created

theorem SameAccounts.account {db db' : Database} (h : SameAccounts db db') (id : String) :
    db'.account id = db.account id := by
  unfold Database.account Database.ledgerOf Database.publishedOf Database.eventsOf
  rw [h.payments, h.ledgerEntries, h.webhookEvents]

theorem SameAccounts.grounded {db db' : Database} (h : SameAccounts db db') (g : db.Grounded) :
    db'.Grounded := by
  refine ⟨fun entry mem => ?_, fun event mem => ?_⟩
  · rw [h.payments]
    exact g.ledger entry (h.ledgerEntries ▸ mem)
  · rw [h.payments]
    exact g.events event (h.webhookEvents ▸ mem)

theorem Background.account {db db' : Database} (h : Background db db') (id : String) :
    db'.account id = db.account id := by
  unfold Database.account Database.ledgerOf
  rw [h.payments, h.ledgerEntries, Database.publishedOf_eq, Database.publishedOf_eq, h.published]

theorem Background.grounded {db db' : Database} (h : Background db db') (g : db.Grounded) :
    db'.Grounded := by
  refine ⟨fun entry mem => ?_, fun event mem => ?_⟩
  · rw [h.payments]
    exact g.ledger entry (h.ledgerEntries ▸ mem)
  · have hmem : event.published ∈ db.webhookEvents.rows.map (·.published) := by
      rw [← h.published]
      exact List.mem_map_of_mem mem
    obtain ⟨old, hold, heq⟩ := List.mem_map.mp hmem
    rw [h.payments]
    have : old.paymentId = event.paymentId := congrArg PublishedEvent.paymentId heq
    exact this ▸ g.events old hold

/-! ## Effects refine the abstract model -/

/-- The lifecycle steps an effect may take, and whether it may take any. -/
theorem Effect.advances_or_same {sha256 : String → String} {db db' : Database}
    (h : Effect sha256 db db') :
    (∃ command key payment, Created sha256 command key payment db db') ∨
      (∃ step before after, Advances step before after db db') ∨
      SameAccounts db db' ∨ Background db db' := by
  cases h with
  | created h => exact .inl ⟨_, _, _, h⟩
  | operated h =>
    obtain ⟨step, _, h⟩ := h.advances
    exact .inr (.inl ⟨step, _, _, h⟩)
  | received h => exact .inr (.inr (.inl h.accounts))
  | settled h =>
    cases h.effect with
    | none _ same _ => exact .inr (.inr (.inl same))
    | captured before after _ _ h => exact .inr (.inl ⟨_, _, _, h⟩)
    | expired before after _ _ _ h => exact .inr (.inl ⟨_, _, _, h⟩)
  | expired h => exact .inr (.inl ⟨_, _, _, h.advances⟩)
  | background h => exact .inr (.inr (.inr h))

/-- **The store refines the abstract model**: seen from one payment, an effect is nothing, the
opening of the account, or one lifecycle step of it. -/
theorem Effect.account_cases {sha256 : String → String} {db db' : Database}
    (h : Effect sha256 db db') (g : db.Grounded) (id : String) :
    db'.account id = db.account id ∨
      (db.account id = none ∧ ∃ a, db'.account id = some a ∧ a.Opened) ∨
      ∃ step a b, db.account id = some a ∧ db'.account id = some b ∧
        Advances step a.row b.row db db' ∧ Account.Extends step a b := by
  rcases h.advances_or_same with ⟨command, key, payment, h⟩ | ⟨step, before, after, h⟩ | h | h
  · by_cases hid : id = payment.id
    · subst hid
      obtain ⟨a, ha, _, hopen⟩ := h.account g
      refine .inr (.inl ⟨?_, a, ha, hopen⟩)
      unfold Database.account
      rw [h.fresh]
      rfl
    · exact .inl (h.account_of_ne hid)
  · by_cases hid : id = before.id
    · subst hid
      obtain ⟨a, b, ha, hb, rfl, rfl, e⟩ := h.account
      exact .inr (.inr ⟨step, a, b, ha, hb, h, e⟩)
    · exact .inl (h.account_of_ne hid)
  · exact .inl (h.account id)
  · exact .inl (h.account id)

theorem Effect.grounded {sha256 : String → String} {db db' : Database}
    (h : Effect sha256 db db') (g : db.Grounded) : db'.Grounded := by
  rcases h.advances_or_same with ⟨_, _, _, h⟩ | ⟨_, _, _, h⟩ | h | h
  · exact h.grounded g
  · exact h.grounded g
  · exact h.grounded g
  · exact h.grounded g

end PaymentLab
