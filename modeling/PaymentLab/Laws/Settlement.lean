import PaymentLab.Account.Confirmation
import PaymentLab.Laws.Fingerprints
import PaymentLab.Laws.Optimistic

/-!
# Exactly-once confirmation

Receipts and final records agree in every store an execution reaches (`Settlement`): a receipt is
completed exactly when its final record exists, and a payment has as many applied confirmations as
its ledger has confirmation captures, which is at most one. Receipts and final records are never
rewritten otherwise (`Keeps`), so retries find what the first acceptance and the first completion
left.

The acceptance and the completion of a confirmation are two transactions, and a crash may fall
between them. Recovery then completes what was accepted, once, and so does the next request with the
same identity. The invariant relates the tables after every transaction, so nothing depends on which
of the three came first.
-/

namespace PaymentLab

open Relational Transactional Transactional.Service

/-! ## Applied confirmations and captures -/

/-- The confirmations applied to a payment. -/
def Database.appliedTo (db : Database) (paymentId : String) : List PaymentConfirmationRecord :=
  db.paymentConfirmations.select fun c =>
    decide (c.disposition = .applied ∧ c.paymentId = some paymentId)

/-- The confirmation captures of a payment. -/
def Database.capturesOf (db : Database) (paymentId : String) : List LedgerEntryRecord :=
  confirmationCaptures (db.ledgerOf paymentId)

theorem Posts.captures {entry : Option LedgerEntryRecord} {db db' : Database} {paymentId : String}
    (h : Posts entry db.ledgerEntries db'.ledgerEntries)
    (own : ∀ e, entry = some e → e.paymentId = paymentId) (id : String) :
    db'.capturesOf id =
      db.capturesOf id ++ if paymentId = id then confirmationCaptures entry.toList else [] := by
  unfold Database.capturesOf
  have hledger : db'.ledgerOf id =
      db.ledgerOf id ++ if paymentId = id then entry.toList else [] := by
    rw [← filter_entry own id]
    exact h.select id
  rw [hledger, confirmationCaptures_append]
  by_cases hid : paymentId = id
  · rw [if_pos hid, if_pos hid]
  · rw [if_neg hid, if_neg hid]
    rfl

theorem Created.capturesOf {sha256 : String → String} {command : AuthorizationCommand} {key : String}
    {payment : PaymentRecord} {db db' : Database} (h : Created sha256 command key payment db db')
    (id : String) : db'.capturesOf id = db.capturesOf id := by
  obtain ⟨hex, hposts⟩ := h.ledger
  rw [hposts.captures (fun e he => authorizationEntry_paymentId he) id,
    confirmationCaptures_authorization, ite_self, List.append_nil]

/-- A step that is not a confirmation adds no capture. -/
theorem Advances.capturesOf {step : LifecycleStep} {before after : PaymentRecord}
    {db db' : Database} (h : Advances step before after db db')
    (other : ∀ amount, step ≠ .captureConfirmation amount) (id : String) :
    db'.capturesOf id = db.capturesOf id := by
  obtain ⟨entryId, now, hposts⟩ := h.ledger
  rw [hposts.captures (fun e he => LifecycleStep.entry_paymentId he) id,
    confirmationCaptures_entry]
  cases step with
  | captureConfirmation amount => exact absurd rfl (other amount)
  | capture | expire | cancel | refund amount => rw [ite_self, List.append_nil]

/-- A confirmation adds one capture, of its payment. -/
theorem Advances.capturesOf_confirmation {amount : Int} {before after : PaymentRecord}
    {db db' : Database} (h : Advances (.captureConfirmation amount) before after db db')
    (id : String) :
    (db'.capturesOf id).length = (db.capturesOf id).length + if before.id = id then 1 else 0 := by
  obtain ⟨entryId, now, hposts⟩ := h.ledger
  rw [hposts.captures (fun e he => LifecycleStep.entry_paymentId he) id,
    confirmationCaptures_entry, List.length_append]
  by_cases hid : before.id = id
  · rw [if_pos hid, if_pos hid]
    rfl
  · rw [if_neg hid, if_neg hid]
    rfl

/-! ## Receipts and final records -/

/-- A final record of a receipt: all that the receipt was sent with, and the time it was received at.
The disposition and the payment of the record are its own. -/
structure PaymentConfirmationRecord.Matches (c : PaymentConfirmationRecord)
    (r : ConfirmationReceiptRecord) : Prop where
  confirmationId : c.confirmationId = r.confirmationId
  requestFingerprint : c.requestFingerprint = r.requestFingerprint
  paymentReference : c.paymentReference = r.paymentReference
  amount : c.amount = r.amount
  currency : c.currency = r.currency
  receivedAt : c.receivedAt = r.receivedAt

/-- Receipts and final records agree. This is the invariant that the completion of a receipt, its
recovery and a repeated confirmation all rely on; the row of the payment enters it by the ledger
alone. -/
structure Settlement (sha256 : String → String) (db : Database) : Prop where
  digested : ∀ id r, db.confirmationReceipts.get id = some r →
    r.requestFingerprint = r.command.fingerprint sha256
  completed : ∀ id r, db.confirmationReceipts.get id = some r →
    (r.completed = true ↔ ∃ c, db.paymentConfirmations.get id = some c)
  matched : ∀ id c, db.paymentConfirmations.get id = some c →
    ∃ r, db.confirmationReceipts.get id = some r ∧ c.Matches r
  applied : ∀ paymentId, (db.appliedTo paymentId).length = (db.capturesOf paymentId).length

theorem settlement_empty (sha256 : String → String) : Settlement sha256 .empty :=
  ⟨fun _ _ h => (nomatch h), fun _ _ h => (nomatch h), fun _ _ h => (nomatch h), fun _ => rfl⟩

section Effects

variable {sha256 : String → String} {db db' : Database}

/-- Effects on neither receipts nor final records nor captures. -/
theorem Settlement.frame (h : Settlement sha256 db) (same : SameConfirmations db db')
    (captures : ∀ id, db'.capturesOf id = db.capturesOf id) : Settlement sha256 db' := by
  refine ⟨?_, ?_, ?_, fun id => ?_⟩
  · rw [same.receipts]
    exact h.digested
  · rw [same.receipts, same.confirmations]
    exact h.completed
  · rw [same.receipts, same.confirmations]
    exact h.matched
  · rw [captures, ← h.applied id]
    unfold Database.appliedTo
    rw [same.confirmations]

theorem SameAccounts.capturesOf (h : SameAccounts db db') (id : String) :
    db'.capturesOf id = db.capturesOf id := by
  unfold Database.capturesOf Database.ledgerOf
  rw [h.ledgerEntries]

/-- A first acceptance adds a pending receipt under a free identity. -/
theorem Received.settlement {command : ConfirmationCommand} (h : Settlement sha256 db)
    (e : Received sha256 command db db') : Settlement sha256 db' := by
  obtain ⟨receivedAt, hinsert⟩ := e.receipt
  have hfree : db.confirmationReceipts.get command.confirmationId = none :=
    (Table.insert_eq_some hinsert).2.1
  have cases : ∀ {id r}, db'.confirmationReceipts.get id = some r →
      (id = command.confirmationId ∧ r = newReceipt sha256 command receivedAt) ∨
        db.confirmationReceipts.get id = some r := by
    intro id r hget
    rw [Table.get_insert hinsert] at hget
    split at hget
    · next hid => exact .inl ⟨hid.symm, (Option.some.inj hget).symm⟩
    · exact .inr hget
  refine ⟨?_, ?_, ?_, fun id => ?_⟩
  · intro id r hget
    rcases cases hget with ⟨_, rfl⟩ | hget
    · rfl
    · exact h.digested id r hget
  · intro id r hget
    rw [e.confirmations]
    rcases cases hget with ⟨rfl, rfl⟩ | hget
    · -- a final record would have had a receipt
      refine ⟨fun hfalse => absurd hfalse Bool.false_ne_true, fun hfinal => ?_⟩
      obtain ⟨c, hc⟩ := hfinal
      obtain ⟨r, hr, _⟩ := h.matched _ c hc
      rw [hfree] at hr
      cases hr
    · exact h.completed id r hget
  · intro id c hc
    rw [e.confirmations] at hc
    obtain ⟨r, hr, hmatches⟩ := h.matched id c hc
    exact ⟨r, Table.get_insert_of_some hinsert hr, hmatches⟩
  · rw [e.accounts.capturesOf, ← h.applied id]
    unfold Database.appliedTo
    rw [e.confirmations]

/-- The applied confirmations of a payment after a completion. -/
theorem Settled.appliedTo {receipt : ConfirmationReceiptRecord}
    {disposition : ConfirmationDisposition} (e : Settled sha256 receipt disposition db db')
    (id : String) :
    (db'.appliedTo id).length = (db.appliedTo id).length +
      if disposition = .applied ∧
        (paymentByReference db receipt.paymentReference).map (·.id) = some id then 1 else 0 := by
  unfold Database.appliedTo
  by_cases happlied : disposition = .applied ∧
      (paymentByReference db receipt.paymentReference).map (·.id) = some id
  · rw [Table.select_insert_of_true e.confirmation (decide_eq_true happlied), List.length_append,
      if_pos happlied]
    rfl
  · rw [Table.select_insert_of_false e.confirmation (decide_eq_false happlied), if_neg happlied]
    rfl

/-- A completion applies as many confirmations as it captures. -/
theorem Settled.applied {receipt : ConfirmationReceiptRecord}
    {disposition : ConfirmationDisposition} (h : Settlement sha256 db)
    (e : Settled sha256 receipt disposition db db') (id : String) :
    (db'.appliedTo id).length = (db'.capturesOf id).length := by
  rw [e.appliedTo, h.applied id]
  cases e.effect with
  | none hne same _ =>
    rw [if_neg (fun both => hne both.1), same.capturesOf, Nat.add_zero]
  | captured before after happlied hpayment hadvances =>
    rw [hadvances.capturesOf_confirmation, hpayment, happlied]
    simp only [Option.map_some, Option.some.injEq, true_and]
  | expired before after hlate _ _ hadvances =>
    rw [if_neg (fun both => by rw [hlate] at both; cases both.1),
      hadvances.capturesOf (fun _ => nofun), Nat.add_zero]

/-- A completion completes its receipt and adds its final record. -/
theorem Settled.settlement {receipt : ConfirmationReceiptRecord}
    {disposition : ConfirmationDisposition} (h : Settlement sha256 db)
    (e : Settled sha256 receipt disposition db db') : Settlement sha256 db' := by
  have hself : db'.confirmationReceipts.get receipt.confirmationId =
      some { receipt with completed := true } :=
    Table.get_update_self (r := { receipt with completed := true }) e.completed e.stored
  have hother : ∀ {id}, id ≠ receipt.confirmationId →
      db'.confirmationReceipts.get id = db.confirmationReceipts.get id :=
    fun hne => Table.get_update_of_ne e.completed (Ne.symm hne)
  have hrecord := Table.get_insert_self e.confirmation
  have hrecords : ∀ {id}, id ≠ receipt.confirmationId →
      db'.paymentConfirmations.get id = db.paymentConfirmations.get id :=
    fun hne => Table.get_insert_of_ne e.confirmation (Ne.symm hne)
  refine ⟨?_, ?_, ?_, e.applied h⟩
  · intro id r hget
    by_cases hid : id = receipt.confirmationId
    · subst hid
      cases hself.symm.trans hget
      exact h.digested _ receipt e.stored
    · rw [hother hid] at hget
      exact h.digested id r hget
  · intro id r hget
    by_cases hid : id = receipt.confirmationId
    · subst hid
      cases hself.symm.trans hget
      exact ⟨fun _ => ⟨_, hrecord⟩, fun _ => rfl⟩
    · rw [hother hid] at hget
      rw [hrecords hid]
      exact h.completed id r hget
  · intro id c hc
    by_cases hid : id = receipt.confirmationId
    · subst hid
      cases hrecord.symm.trans hc
      exact ⟨_, hself, rfl, (h.digested _ receipt e.stored).symm, rfl, rfl, rfl, rfl⟩
    · rw [hrecords hid] at hc
      obtain ⟨r, hr, hmatches⟩ := h.matched id c hc
      exact ⟨r, (hother hid).trans hr, hmatches⟩

/-- **Every effect keeps receipts and final records in agreement.** -/
theorem Effect.settlement (h : Settlement sha256 db) (e : Effect sha256 db db') :
    Settlement sha256 db' := by
  cases e with
  | created e => exact h.frame e.confirmations e.capturesOf
  | operated e =>
    obtain ⟨step, hstep, hadvances⟩ := e.advances
    exact h.frame e.confirmations
      (hadvances.capturesOf fun _ => LifecycleCommand.step_ne_confirmation hstep _)
  | received e => exact e.settlement h
  | settled e => exact e.settlement h
  | expired e => exact h.frame e.confirmations (e.advances.capturesOf fun _ => nofun)
  | background e =>
    refine h.frame e.confirmations fun id => ?_
    unfold Database.capturesOf Database.ledgerOf
    rw [e.ledgerEntries]

end Effects

/-! ## Nothing is rewritten -/

/-- Receipts keep their content and stay completed; final records stay. New ones may have come. -/
structure Keeps (db db' : Database) : Prop where
  receipts : ∀ id r, db.confirmationReceipts.get id = some r →
    ∃ r', db'.confirmationReceipts.get id = some r' ∧ r' = { r with completed := r'.completed } ∧
      (r.completed = true → r'.completed = true)
  confirmations : ∀ id c, db.paymentConfirmations.get id = some c →
    db'.paymentConfirmations.get id = some c

namespace Keeps

theorem refl (db : Database) : Keeps db db := ⟨fun _ r h => ⟨r, h, rfl, id⟩, fun _ _ => id⟩

theorem trans {a b c : Database} (h : Keeps a b) (k : Keeps b c) : Keeps a c := by
  refine ⟨fun id r hr => ?_, fun id c hc => k.confirmations id c (h.confirmations id c hc)⟩
  obtain ⟨r', hr', hsame, hkept⟩ := h.receipts id r hr
  obtain ⟨r'', hr'', hsame', hkept'⟩ := k.receipts id r' hr'
  refine ⟨r'', hr'', ?_, hkept' ∘ hkept⟩
  rw [hsame', hsame]

theorem of_same {db db' : Database} (h : SameConfirmations db db') : Keeps db db' := by
  refine ⟨fun id r hr => ⟨r, ?_, rfl, fun done => done⟩, fun id c hc => ?_⟩
  · rw [h.receipts]
    exact hr
  · rw [h.confirmations]
    exact hc

end Keeps

theorem Effect.keeps {sha256 : String → String} {db db' : Database} (e : Effect sha256 db db') :
    Keeps db db' := by
  cases e with
  | created e => exact .of_same e.confirmations
  | operated e => exact .of_same e.confirmations
  | received e =>
    obtain ⟨_, hinsert⟩ := e.receipt
    refine ⟨fun id r hr => ⟨r, Table.get_insert_of_some hinsert hr, rfl, fun done => done⟩, ?_⟩
    rw [e.confirmations]
    exact fun _ _ => id
  | @settled receipt _ e =>
    refine ⟨fun id r hr => ?_, fun id c hc => Table.get_insert_of_some e.confirmation hc⟩
    by_cases hid : id = receipt.confirmationId
    · subst hid
      cases e.stored.symm.trans hr
      exact ⟨_, Table.get_update_self (r := { receipt with completed := true }) e.completed e.stored,
        rfl, fun _ => rfl⟩
    · exact ⟨r, (Table.get_update_of_ne e.completed (Ne.symm hid)).trans hr, rfl, fun done => done⟩
  | expired e => exact .of_same e.confirmations
  | background e => exact .of_same e.confirmations

theorem effects_keeps {sha256 : String → String} {db db' : Database}
    (h : Relation.ReflTransGen (Effect sha256) db db') : Keeps db db' := by
  induction h with
  | refl => exact .refl _
  | tail _ e ih => exact ih.trans e.keeps

/-- A commit that adds a receipt is a first acceptance its request asked for. -/
theorem Commits.fresh_receipt {sha256 : String → String} {request : Request} {db db' : Database}
    (h : Commits sha256 request db db') {id : String} {r : ConfirmationReceiptRecord}
    (hfree : db.confirmationReceipts.get id = none)
    (hget : db'.confirmationReceipts.get id = some r) :
    ∃ command receivedAt, request.Accepts command ∧ command.confirmationId = id ∧
      r = newReceipt sha256 command receivedAt := by
  have unchanged : db'.confirmationReceipts = db.confirmationReceipts → False := by
    intro same
    rw [same, hfree] at hget
    cases hget
  cases h with
  | nothing same => exact (unchanged (by rw [same])).elim
  | keyed _ h =>
    cases h with
    | created h => exact (unchanged h.confirmations.receipts).elim
    | operated h => exact (unchanged h.confirmations.receipts).elim
  | @received command accepts h =>
    obtain ⟨receivedAt, hinsert⟩ := h.receipt
    rw [Table.get_insert hinsert] at hget
    split at hget
    · next hid => exact ⟨command, receivedAt, accepts, hid, (Option.some.inj hget).symm⟩
    · rw [hfree] at hget
      cases hget
  | settled _ h =>
    rw [Table.get_update h.completed] at hget
    split at hget
    · rw [hfree] at hget
      cases hget
    · rw [hfree] at hget
      cases hget
  | swept _ h =>
    refine (unchanged ?_).elim
    clear hget unchanged
    induction h with
    | refl => rfl
    | tail _ one ih =>
      obtain ⟨_, _, hexpired⟩ := one
      exact hexpired.confirmations.receipts.trans ih

/-! ## A reused identity -/

section Conflict

variable {sha256 : String → String}

/-- A request with the clock arguments its function takes: either a clock, or the time that a
confirmation was received at. With both or with neither the function raises, at a place this
condition leaves out. -/
def Request.ClockGiven : Request → Prop
  | .process _ receivedAt clock _ =>
    (receivedAt = none ∧ ∃ reading, clock = some reading) ∨
      ((∃ utc, receivedAt = some (.aware utc)) ∧ clock = none)
  | _ => True

theorem processingClock_given {command : ConfirmationCommand} {receivedAt clock : Option Datetime}
    {draws : Draws} (given : (Request.process command receivedAt clock draws).ClockGiven)
    (s : DatabaseSession) : ∃ reading, processingClock receivedAt clock s = (.ok reading, s) := by
  rcases given with ⟨rfl, reading, rfl⟩ | ⟨⟨utc, rfl⟩, rfl⟩
  · exact ⟨reading, rfl⟩
  · exact ⟨.aware utc, rfl⟩

/-- A confirmation is processed with a clock, or its clock arguments are refused and nothing runs. -/
theorem processingClock_cases {α : Type} (command : ConfirmationCommand) (draws : Draws)
    {receivedAt clock : Option Datetime} {f : Datetime → Service α} {s s' : DatabaseSession}
    {r : Except ServiceError α} (h : (processingClock receivedAt clock >>= f) s = (r, s')) :
    (s' = s ∧ ¬(Request.process command receivedAt clock draws).ClockGiven) ∨
      ∃ reading, f reading s = (r, s') := by
  rcases bind_cases h with ⟨e, hclock, rfl⟩ | ⟨reading, s₁, hclock, hrest⟩
  · refine .inl ⟨processingClock_session hclock, fun given => ?_⟩
    obtain ⟨reading, hreading⟩ := processingClock_given given s
    cases hclock.symm.trans hreading
  · rw [processingClock_session hclock] at hrest
    exact .inr ⟨reading, hrest⟩

/-- An acceptance under an identity with another fingerprint. -/
theorem acceptConfirmation_conflict {command : ConfirmationCommand} {clock : Datetime}
    {s s' : DatabaseSession} {answer : Except ServiceError Bool} {r : ConfirmationReceiptRecord}
    (stored : s.committed.confirmationReceipts.get command.confirmationId = some r)
    (hne : r.requestFingerprint ≠ command.fingerprint sha256)
    (h : acceptConfirmation sha256 command clock s = (answer, s')) :
    s'.committed = s.committed ∧ answer = .error .confirmationIdConflict := by
  obtain ⟨_, ⟨r', hr', hsame, ⟨heq, _⟩ | ⟨_, hanswer⟩⟩ | ⟨hnone, _⟩⟩ := acceptConfirmation_cases h
  · cases stored.symm.trans hr'
    exact absurd heq hne
  · exact ⟨hsame, hanswer⟩
  · rw [stored] at hnone
    cases hnone

/-- **A reused identity**: a call that accepts other content under it changes nothing, and raises the
conflict once its clock arguments are taken. -/
theorem Client.act_conflict {client : Client} {db : Database} {command : ConfirmationCommand}
    {r : ConfirmationReceiptRecord} (accepts : client.request.Accepts command)
    (ready : client.phase = .ready)
    (stored : db.confirmationReceipts.get command.confirmationId = some r)
    (hne : r.requestFingerprint ≠ command.fingerprint sha256) :
    (client.act sha256 db).1 = db ∧ (client.request.ClockGiven →
      (client.act sha256 db).2.phase = .finished (.error .confirmationIdConflict)) := by
  obtain ⟨request, identity, phase⟩ := client
  cases ready
  cases request with
  | authorize => exact accepts.elim
  | capture => exact accepts.elim
  | cancel => exact accepts.elim
  | refund => exact accepts.elim
  | complete => exact accepts.elim
  | recover => exact accepts.elim
  | expire => exact accepts.elim
  | accept accepted clock =>
    cases accepts
    obtain ⟨answer, s', hrun⟩ : ∃ answer s', Request.step sha256 (.accept command clock) .ready
      (Session.start db identity) = (answer, s') := ⟨_, _, rfl⟩
    rw [Client.act_eq hrun]
    obtain ⟨accepted, haccept, rfl⟩ := bind_pure_cases hrun
    obtain ⟨hsame, rfl⟩ := acceptConfirmation_conflict stored hne haccept
    exact ⟨hsame, fun _ => rfl⟩
  | process accepted receivedAt clock draws =>
    cases accepts
    obtain ⟨answer, s', hrun⟩ : ∃ answer s', Request.step sha256
      (.process command receivedAt clock draws) .ready (Session.start db identity) = (answer, s') :=
      ⟨_, _, rfl⟩
    rw [Client.act_eq hrun]
    rcases processingClock_cases command draws hrun with ⟨rfl, hrefused⟩ | ⟨received, hrest⟩
    · exact ⟨rfl, fun given => absurd given hrefused⟩
    · obtain ⟨replayed, hprocess, rfl⟩ := bind_pure_cases hrest
      obtain ⟨r₁, s₂, haccept, hcommitted, _, hr⟩ := processAcceptance_cases hprocess
      obtain ⟨hsame, rfl⟩ := acceptConfirmation_conflict stored hne haccept
      refine ⟨hcommitted.trans hsame, fun _ => ?_⟩
      rcases hr with rfl | ⟨e, he, hsql, _⟩
      · rfl
      · cases he
        cases hsql

end Conflict

/-! ## Along an execution -/

section Execution

variable {ι : Type} {sha256 : String → String}

/-- The first committed acceptance of an identity: no receipt before it, and afterwards the one of
the command that the request carries. -/
structure FirstAccepted (sha256 : String → String) (command : ConfirmationCommand)
    (receivedAt : Instant) (t : Pool.Transition Database ι (Option Client)) : Prop where
  fresh : t.pre.confirmationReceipts.get command.confirmationId = none
  accepted : t.post.confirmationReceipts.get command.confirmationId =
    some (newReceipt sha256 command receivedAt)
  asked : ∃ client, t.before = some client ∧ client.request.Accepts command

/-- A receipt a move leaves was there, or the move is its first acceptance. -/
theorem Moves.receipt_cases {t : Pool.Transition Database ι (Option Client)} (h : Moves sha256 t)
    {id : String} {r : ConfirmationReceiptRecord}
    (hget : t.post.confirmationReceipts.get id = some r) :
    (∃ r₀, t.pre.confirmationReceipts.get id = some r₀ ∧ r = { r₀ with completed := r.completed }) ∨
      ∃ command receivedAt, command.confirmationId = id ∧
        FirstAccepted sha256 command receivedAt t ∧ r = newReceipt sha256 command receivedAt := by
  cases hpre : t.pre.confirmationReceipts.get id with
  | some r₀ =>
    obtain ⟨r', hr', hsame, _⟩ := (effects_keeps h.effects).receipts id r₀ hpre
    cases hget.symm.trans hr'
    exact .inl ⟨r₀, rfl, hsame⟩
  | none =>
    cases h with
    | background _ h =>
      rw [h.confirmations.receipts, hpre] at hget
      cases hget
    | aside _ _ _ _ same _ =>
      rw [same, hpre] at hget
      cases hget
    | acted client hbefore coherent unfinished hpost _ =>
      have commits := (Client.act_commits sha256 coherent.admits unfinished
        coherent.sound).commits
      rw [← hpost] at commits
      obtain ⟨command, receivedAt, accepts, rfl, rfl⟩ := commits.fresh_receipt hpre hget
      exact .inr ⟨command, receivedAt, rfl, ⟨hpre, hget, client, hbefore, accepts⟩, rfl⟩

/-- A move of a call that reuses an identity for other content. -/
theorem Moves.conflict (injective : Function.Injective sha256)
    {t : Pool.Transition Database ι (Option Client)} (h : Moves sha256 t)
    (settlement : Settlement sha256 t.pre) {client : Client} {command : ConfirmationCommand}
    {r : ConfirmationReceiptRecord} (hbefore : t.before = some client)
    (accepts : client.request.Accepts command) (ready : client.phase = .ready)
    (stored : t.pre.confirmationReceipts.get command.confirmationId = some r)
    (hne : r.command ≠ command) :
    t.post = t.pre ∧ ∀ after, t.after = some after → client.request.ClockGiven →
      after.phase = .ready ∨ after.phase = .interrupted ∨
        after.phase = .finished (.error .confirmationIdConflict) := by
  have hfingerprint : r.requestFingerprint ≠ command.fingerprint sha256 := by
    rw [settlement.digested _ r stored]
    exact fun heq => hne (ConfirmationCommand.fingerprint_injective injective heq)
  cases h with
  | background hnone _ =>
    rw [hbefore] at hnone
    cases hnone
  | aside other after hother hafter same how =>
    cases hbefore.symm.trans hother
    refine ⟨same, fun last hlast _ => ?_⟩
    cases hafter.symm.trans hlast
    rw [ready] at how
    rcases how with ended | kept | interrupted
    · exact ended.elim
    · exact .inl kept
    · exact .inr (.inl interrupted)
  | acted acting hacting _ _ hpost hafter =>
    cases hbefore.symm.trans hacting
    obtain ⟨hsame, hphase⟩ := Client.act_conflict accepts ready stored hfingerprint
    refine ⟨hpost.trans hsame, fun last hlast given => ?_⟩
    cases hafter.symm.trans hlast
    exact .inr (.inr (hphase given))

/-- A completion or an acceptance that ends a call with an exception has written nothing. -/
theorem Moves.unkeyed_failed {t : Pool.Transition Database ι (Option Client)} (h : Moves sha256 t)
    {client after : Client} {e : ServiceError} (hbefore : t.before = some client)
    (unkeyed : client.request.keyed = none) (hafter : t.after = some after)
    (hphase : after.phase = .finished (.error e)) : t.post = t.pre := by
  cases h with
  | background hnone _ =>
    rw [hbefore] at hnone
    cases hnone
  | aside _ _ _ _ same _ => exact same
  | acted acting hacting coherent unfinished hpost hreached =>
    cases hbefore.symm.trans hacting
    cases hafter.symm.trans hreached
    rw [hpost]
    exact (Client.act_commits sha256 coherent.admits unfinished coherent.sound).failed e hphase
      (.inl unkeyed)

theorem Request.completes_unkeyed {request : Request} (h : request.Completes) :
    request.keyed = none := by
  cases hkey : request.keyed with
  | none => rfl
  | some keyed => exact absurd h (Request.keyed_only hkey).2.1

variable [DecidableEq ι] {ts : List (Pool.Transition Database ι (Option Client))}
  {v : Pool.World Database ι (Option Client)}

theorem Execution.settlement (h : Execution sha256 ts v) : Settlement sha256 v.shared :=
  h.invariant (settlement_empty sha256) Effect.settlement

/-- What an earlier state held of receipts and final records, the state reached holds. -/
theorem Execution.keeps (h : Execution sha256 ts v)
    {t : Pool.Transition Database ι (Option Client)} (mem : t ∈ ts) : Keeps t.pre v.shared := by
  refine (h.induction (P := fun ts db => Keeps .empty db ∧ ∀ t ∈ ts, Keeps t.pre db)
    ⟨.refl _, fun _ mem => nomatch mem⟩ ?_).2 t mem
  intro ts t v _ hpre moves ⟨hempty, hall⟩
  have hstep : Keeps v.shared t.post := by
    rw [← hpre]
    exact effects_keeps moves.effects
  refine ⟨hempty.trans hstep, fun u mem => ?_⟩
  rcases List.mem_append.mp mem with mem | mem
  · exact (hall u mem).trans hstep
  · rw [List.mem_singleton.mp mem, hpre]
    exact hstep

/-- Every receipt goes back to its first acceptance. -/
theorem Execution.receipt_origin (h : Execution sha256 ts v) {id : String}
    {r : ConfirmationReceiptRecord} (hget : v.shared.confirmationReceipts.get id = some r) :
    ∃ t ∈ ts, ∃ command receivedAt, command.confirmationId = id ∧
      FirstAccepted sha256 command receivedAt t ∧
      r = { newReceipt sha256 command receivedAt with completed := r.completed } := by
  refine h.induction (P := fun ts db => ∀ r, db.confirmationReceipts.get id = some r →
    ∃ t ∈ ts, ∃ command receivedAt, command.confirmationId = id ∧
      FirstAccepted sha256 command receivedAt t ∧
      r = { newReceipt sha256 command receivedAt with completed := r.completed })
    (fun _ h => nomatch h) ?_ r hget
  intro ts t v _ hpre moves ih r hget
  rcases moves.receipt_cases hget with ⟨r₀, hr₀, hsame⟩ | ⟨command, receivedAt, hid, first, rfl⟩
  · rw [hpre] at hr₀
    obtain ⟨u, mem, command, receivedAt, hid, first, horigin⟩ := ih r₀ hr₀
    refine ⟨u, List.mem_append_left _ mem, command, receivedAt, hid, first, ?_⟩
    rw [hsame, horigin]
  · exact ⟨t, List.mem_append_right _ (List.mem_singleton.mpr rfl), command, receivedAt, hid, first,
      rfl⟩

/-- Confirmations take effect exactly once: whatever is sent again, recovered, or run into by another
client, one identity has one receipt, at most one final record and at most one effect. That every
accepted confirmation takes effect is not said; the recovery is what brings it about. -/
structure ExactlyOnce (sha256 : String → String)
    (ts : List (Pool.Transition Database ι (Option Client))) (db : Database) : Prop where
  /-- a receipt is the one its first acceptance committed, but for its completion -/
  origin : ∀ id r, db.confirmationReceipts.get id = some r →
    ∃ t ∈ ts, ∃ command receivedAt, command.confirmationId = id ∧
      FirstAccepted sha256 command receivedAt t ∧
      r = { newReceipt sha256 command receivedAt with completed := r.completed }
  /-- since any earlier state no receipt and no final record was rewritten -/
  kept : ∀ t ∈ ts, Keeps t.pre db
  /-- a receipt is completed exactly when its one final record exists, with the same content -/
  completed : ∀ id r, db.confirmationReceipts.get id = some r →
    (r.completed = true ↔ ∃ c, db.paymentConfirmations.get id = some c ∧ c.Matches r)
  /-- a final record has a receipt -/
  received : ∀ id c, db.paymentConfirmations.get id = some c →
    ∃ r, db.confirmationReceipts.get id = some r
  /-- a call that reuses an identity for other content changes nothing and ends with the conflict -/
  conflict : ∀ t ∈ ts, ∀ client command r, t.before = some client →
    client.request.Accepts command → client.phase = .ready →
    t.pre.confirmationReceipts.get command.confirmationId = some r → r.command ≠ command →
    t.post = t.pre ∧ ∀ after, t.after = some after → client.request.ClockGiven →
      after.phase = .ready ∨ after.phase = .interrupted ∨
        after.phase = .finished (.error .confirmationIdConflict)
  /-- a payment has at most one applied confirmation, as many as it has confirmation captures, and
  these are of its amount -/
  applied : ∀ p, db.payments.get p.id = some p →
    (db.appliedTo p.id).length ≤ 1 ∧
      (db.appliedTo p.id).length = (db.capturesOf p.id).length ∧
      ∀ entry ∈ db.capturesOf p.id, entry.amount = p.amount
  /-- a completion that fails changes nothing -/
  failed : ∀ t ∈ ts, ∀ client after e, t.before = some client → client.request.Completes →
    t.after = some after → after.phase = .finished (.error e) → t.post = t.pre

/-- **Exactly-once confirmation**, in every store of every execution. The parts are read off three
invariants of the run: `Settlement` relates receipts, final records and captures, `Keeps` says that
none of them is rewritten, and the origin of a receipt is the transition that accepted it. -/
theorem exactly_once (h : Execution sha256 ts v) (injective : Function.Injective sha256) :
    ExactlyOnce sha256 ts v.shared := by
  have settlement := h.settlement
  refine ⟨fun _ _ => h.receipt_origin, fun _ => h.keeps, ?_, ?_, ?_, ?_, ?_⟩
  · intro id r hr
    refine (settlement.completed id r hr).trans ⟨fun ⟨c, hc⟩ => ?_, fun ⟨c, hc, _⟩ => ⟨c, hc⟩⟩
    obtain ⟨r', hr', hmatches⟩ := settlement.matched id c hc
    cases hr.symm.trans hr'
    exact ⟨c, hc, hmatches⟩
  · intro id c hc
    obtain ⟨r, hr, _⟩ := settlement.matched id c hc
    exact ⟨r, hr⟩
  · intro t mem client command r hbefore accepts ready stored hne
    obtain ⟨_, _, u, _, reached, hpre, _⟩ := h.split mem
    exact (h.moves mem).conflict injective (hpre ▸ reached.settlement) hbefore accepts ready stored
      hne
  · intro p hp
    obtain ⟨first, steps, lived⟩ := h.lived hp
    have capturedOnce := lived.capturedOnce
    have hcount := settlement.applied p.id
    exact ⟨hcount ▸ capturedOnce.once, hcount, capturedOnce.amount⟩
  · intro t mem client after e hbefore completes hafter hphase
    exact (h.moves mem).unkeyed_failed hbefore (Request.completes_unkeyed completes) hafter hphase

end Execution

/-! ## A confirmed invoice -/

/-- An authorization that awaits a confirmation. -/
def invoice : Request :=
  .authorize ⟨"order-2", 500, .usd, .awaitConfirmation⟩ "invoice" none (.aware 0)
    ⟨"1", "1", "1", "1"⟩

/-- The confirmation of the invoice, and a later retry of its acceptance. -/
def confirmed : List Request :=
  [.process ⟨"conf-1", "ref_1", 500, .usd⟩ (some (.aware 10)) none ⟨"2", "2", "2", "2"⟩,
    .accept ⟨"conf-1", "ref_1", 500, .usd⟩ (.aware 20)]

/-- The store a confirmed invoice leaves. -/
def confirmedStore : Database := (Request.calls id (invoice :: confirmed) (.empty, ∅)).1

theorem confirmed_execution : ∃ ts last, Execution id ts (alone confirmedStore last) :=
  Execution.of_calls id invoice confirmed

/-- An invoice is confirmed exactly once. -/
theorem confirmed_exactly_once :
    (confirmedStore.appliedTo "pay_1").length = 1 ∧
      ∃ ts : List (Pool.Transition Database Unit (Option Client)),
        ExactlyOnce id ts confirmedStore := by
  obtain ⟨ts, last, h⟩ := confirmed_execution
  exact ⟨by decide +kernel, ts, exactly_once h Function.injective_id⟩

end PaymentLab
