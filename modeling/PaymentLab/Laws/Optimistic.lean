import PaymentLab.Account.Sequence
import PaymentLab.Laws.Ledger

/-!
# Competing operations

Seen from one payment, the transitions of an execution that rewrite its row are an opening and
lifecycle steps, each decided on the very row its commit found: the version check of the flush, or
the writer reservation, refuses every other. So the committed operations in commit order are a
sequential run of the pure functions, and an operation that does not commit leaves no trace.

An operation that read an old row and tries to write it is refused when its `UPDATE` matches no row,
and the exception leaves through the rollback; a coordinated one waits for the writer and then
reads. Either way what was decided on is what is written over, and this is the whole of the
argument. That a refused client may try again, under its key, is the matter of the keys.
-/

namespace PaymentLab

open Relational Transactional

/-! ## What a commit does to one payment -/

/-- Nothing of a payment has changed: not its row, its ledger or its events. Receipts, keys and the
rows of other payments may have. -/
structure Untouched (id : String) (db db' : Database) : Prop where
  payment : db'.payments.get id = db.payments.get id
  ledger : db'.ledgerOf id = db.ledgerOf id
  events : db'.eventsOf id = db.eventsOf id

namespace Untouched

variable {id : String} {a b c : Database}

theorem refl (db : Database) : Untouched id db db := ⟨rfl, rfl, rfl⟩

theorem trans (h : Untouched id a b) (k : Untouched id b c) : Untouched id a c :=
  ⟨k.payment.trans h.payment, k.ledger.trans h.ledger, k.events.trans h.events⟩

theorem of_same (h : SameAccounts a b) : Untouched id a b := by
  refine ⟨by rw [h.payments], ?_, ?_⟩
  · unfold Database.ledgerOf
    rw [h.ledgerEntries]
  · unfold Database.eventsOf
    rw [h.webhookEvents]

theorem account (h : Untouched id a b) : b.account id = a.account id := by
  unfold Database.account Database.publishedOf
  rw [h.payment, h.ledger, h.events]

/-- An event of another payment. -/
theorem events_insert {payment : PaymentRecord} {eventType : WebhookEventType} {hex : String}
    (hne : id ≠ payment.id)
    (h : a.webhookEvents.insert (createOutboxEvent payment eventType hex) =
      some b.webhookEvents) : b.eventsOf id = a.eventsOf id :=
  Table.select_insert_of_false h (decide_eq_false (Ne.symm hne))

theorem of_advances {step : LifecycleStep} {before after : PaymentRecord}
    (h : Advances step before after a b) (hne : id ≠ before.id) : Untouched id a b := by
  obtain ⟨hex, hevent⟩ := h.events
  exact ⟨h.get_of_ne hne, h.ledgerOf_of_ne hne, events_insert (h.after_id ▸ hne) hevent⟩

theorem of_created {sha256 : String → String} {command : AuthorizationCommand} {key : String}
    {payment : PaymentRecord} (h : Created sha256 command key payment a b) (hne : id ≠ payment.id) :
    Untouched id a b := by
  obtain ⟨_, _, _, _, hex, _, _, hevent⟩ := h.terms
  obtain ⟨ledger, hposts⟩ := h.ledger
  refine ⟨h.get_of_ne hne, (hposts.select id).trans ?_, events_insert hne hevent⟩
  rw [filter_entry (fun e he => authorizationEntry_paymentId he), if_neg (Ne.symm hne),
    List.append_nil]
  rfl

end Untouched

/-- The lifecycle steps a request may ask for on a payment. A completion or a sweep names no payment:
it may ask for a capture or an expiry of any, and which one it takes is decided by what it finds. -/
inductive Request.Asks (id : String) (request : Request) (step : LifecycleStep) : Prop
  | commanded {key : String} {command : LifecycleCommand} :
      request.keyed = some (key, .lifecycle command) → command.paymentId = id →
      command.step = some step → Request.Asks id request step
  | completed : request.Completes → (∃ amount, step = .captureConfirmation amount) ∨ step = .expire →
      Request.Asks id request step
  | swept : request.Sweeps → step = .expire → Request.Asks id request step

/-- What a commit did to one payment: nothing, its opening, or one step the request asked for. -/
inductive SeenFrom (id : String) (request : Request) (db db' : Database) : Prop
  | untouched : Untouched id db db' → SeenFrom id request db db'
  | opened {a : Account} : db.account id = none → db'.account id = some a → a.Opened →
      SeenFrom id request db db'
  | advanced {step : LifecycleStep} {a b : Account} : request.Asks id step →
      db.account id = some a → db'.account id = some b → Account.Extends step a b →
      SeenFrom id request db db'

theorem SeenFrom.of_advances {id : String} {request : Request} {db db' : Database}
    {step : LifecycleStep} {before after : PaymentRecord} (h : Advances step before after db db')
    (asks : before.id = id → request.Asks id step) : SeenFrom id request db db' := by
  by_cases hid : id = before.id
  · subst hid
    obtain ⟨a, b, ha, hb, _, _, ext⟩ := h.account
    exact .advanced (asks rfl) ha hb ext
  · exact .untouched (.of_advances h hid)

/-- A batch expires a payment once: an expired payment is not awaiting any more. -/
theorem expires_once {id : String} {db db' : Database}
    (h : Relation.ReflTransGen ExpiresOne db db') :
    Untouched id db db' ∨ ∃ a b, db.account id = some a ∧ db'.account id = some b ∧
      Account.Extends .expire a b := by
  induction h with
  | refl => exact .inl (.refl _)
  | tail _ one ih =>
    obtain ⟨before, after, hexpired⟩ := one
    by_cases hid : id = before.id
    · subst hid
      obtain ⟨a, b, ha, hb, _, _, ext⟩ := hexpired.advances.account
      rcases ih with untouched | ⟨c, d, hc, hd, first⟩
      · exact .inr ⟨a, b, untouched.account ▸ ha, hb, ext⟩
      · -- expired before, so it cannot be awaiting now
        have hsame : d = a := Option.some.inj (hd.symm.trans ha)
        subst hsame
        obtain ⟨_, next, _, hnext, hexpire⟩ := first.decided.states
        obtain ⟨state, _, hstate, _, hexpire'⟩ := ext.decided.states
        obtain ⟨_, hexpired, _⟩ := expire_eq_ok hexpire
        obtain ⟨hawaiting, _⟩ := expire_eq_ok hexpire'
        rw [(paymentState_eq_ok hnext).1] at hexpired
        rw [(paymentState_eq_ok hstate).1, hexpired] at hawaiting
        cases hawaiting
    · have kept := Untouched.of_advances hexpired.advances hid
      rcases ih with untouched | ⟨a, b, ha, hb, ext⟩
      · exact .inl (untouched.trans kept)
      · exact .inr ⟨a, b, ha, kept.account.trans hb, ext⟩

/-- **Seen from one payment**, a commit is nothing, an opening, or one step its request asked for. -/
theorem Commits.seenFrom {sha256 : String → String} {request : Request} {db db' : Database}
    (h : Commits sha256 request db db') (g : db.Grounded) (id : String) :
    SeenFrom id request db db' := by
  cases h with
  | nothing same =>
    rw [same]
    exact .untouched (.refl _)
  | @keyed key command payment hkey h =>
    cases h with
    | created h =>
      by_cases hid : id = payment.id
      · subst hid
        obtain ⟨a, ha, _, hopen⟩ := h.account g
        refine .opened ?_ ha hopen
        unfold Database.account
        rw [h.fresh]
        rfl
      · exact .untouched (.of_created h hid)
    | operated h =>
      obtain ⟨step, hstep, hadvances⟩ := h.advances
      exact .of_advances hadvances fun hid => .commanded hkey (h.target ▸ hid) hstep
  | received _ h => exact .untouched (.of_same h.accounts)
  | settled completes h =>
    cases h.effect with
    | none _ same _ => exact .untouched (.of_same same)
    | captured before after _ _ h => exact .of_advances h fun _ => .completed completes (.inl ⟨_, rfl⟩)
    | expired before after _ _ _ h => exact .of_advances h fun _ => .completed completes (.inr rfl)
  | swept sweeps h =>
    rcases expires_once h with untouched | ⟨a, b, ha, hb, ext⟩
    · exact .untouched untouched
    · exact .advanced (.swept sweeps rfl) ha hb ext

/-! ## What a commit leaves alone -/

section Alone

variable {sha256 : String → String} {request : Request} {db db' : Database}

/-- Completions and expiries claim no key. -/
theorem Commits.claims_kept (h : Commits sha256 request db db')
    (system : request.Completes ∨ request.Sweeps) :
    db'.idempotencyRecords = db.idempotencyRecords := by
  cases h with
  | nothing same => rw [same]
  | keyed hkey _ =>
    obtain ⟨_, noComplete, noSweep⟩ := Request.keyed_only hkey
    exact absurd system (not_or.mpr ⟨noComplete, noSweep⟩)
  | received _ h => exact h.claims
  | settled _ h => exact h.claims
  | swept _ h =>
    induction h with
    | refl => rfl
    | tail _ one ih =>
      obtain ⟨_, _, hexpired⟩ := one
      exact hexpired.claims.trans ih

/-- A capture, cancellation or refund that did not rewrite its payment wrote nothing at all. -/
theorem Commits.eq_of_unwritten {key : String} {command : LifecycleCommand}
    (h : Commits sha256 request db db') (hkey : request.keyed = some (key, .lifecycle command))
    (same : db'.payments.get command.paymentId = db.payments.get command.paymentId) : db' = db := by
  rcases h.of_keyed hkey with heq | ⟨payment, heffect⟩
  · exact heq
  · cases heffect with
    | operated h =>
      obtain ⟨step, _, hadvances⟩ := h.advances
      rw [← h.target, hadvances.stored, hadvances.stored_after] at same
      exact absurd (Option.some.inj same) hadvances.decided.ne

end Alone

/-! ## Operations along an execution -/

section Execution

variable {ι : Type} {sha256 : String → String}

/-- A transition that rewrites the row of a payment. A retry that changes nothing, or a step
elsewhere, does not. -/
def Rewrites (id : String) (t : Pool.Transition Database ι (Option Client)) : Prop :=
  t.post.payments.get id ≠ t.pre.payments.get id

instance (id : String) : DecidablePred (Rewrites (ι := ι) id) := fun _ =>
  inferInstanceAs (Decidable (_ ≠ _))

/-- A committed operation: the step its request asked for, taken by the account exactly as the commit
found it. The account before it is the stored one, not the one that the session read earlier; that
the two agree at the commit is what the version check is for. -/
structure Operates (id : String) (t : Pool.Transition Database ι (Option Client))
    (step : LifecycleStep) : Prop where
  asked : ∃ client, t.before = some client ∧ client.request.Asks id step
  extended : ∃ a b, t.pre.account id = some a ∧ t.post.account id = some b ∧
    Account.Extends step a b

/-- The transitions that rewrote a payment, in the order they committed: its opening, and the
operations that brought the account to where it is. The order is that of the commits; the order in
which the calls arrived or read plays no part. -/
structure Serial (id : String) (ts : List (Pool.Transition Database ι (Option Client)))
    (opening : Pool.Transition Database ι (Option Client))
    (operations : List (Pool.Transition Database ι (Option Client) × LifecycleStep))
    (first last : Account) : Prop where
  order : ts.filter (fun t => decide (Rewrites id t)) = opening :: operations.map Prod.fst
  opened : opening.pre.account id = none ∧ opening.post.account id = some first
  operated : ∀ operation ∈ operations, Operates id operation.1 operation.2
  lived : Account.Lived first last (operations.map Prod.snd)

/-- What one move does to one payment. -/
theorem Moves.seenFrom {t : Pool.Transition Database ι (Option Client)} (h : Moves sha256 t)
    (g : t.pre.Grounded) (id : String) :
    (¬Rewrites id t ∧ t.post.account id = t.pre.account id) ∨
      (∃ a, t.pre.account id = none ∧ t.post.account id = some a ∧ a.Opened) ∨
      ∃ step, Operates id t step := by
  cases h with
  | background _ h => exact .inl ⟨fun hne => hne (by rw [h.payments]), h.account id⟩
  | aside _ _ _ _ same _ => exact .inl ⟨fun hne => hne (by rw [same]), by rw [same]⟩
  | acted client hbefore coherent unfinished hpost _ =>
    have commits := (Client.act_commits sha256 coherent.admits unfinished
      coherent.sound).commits
    rw [← hpost] at commits
    cases commits.seenFrom g id with
    | untouched h => exact .inl ⟨fun hne => hne h.payment, h.account⟩
    | opened hnone hsome hopen => exact .inr (.inl ⟨_, hnone, hsome, hopen⟩)
    | advanced asks ha hb ext =>
      exact .inr (.inr ⟨_, ⟨client, hbefore, asks⟩, _, _, ha, hb, ext⟩)

/-- The rewriting transitions after one more transition. -/
theorem rewriting_snoc (id : String) (ts : List (Pool.Transition Database ι (Option Client)))
    (t : Pool.Transition Database ι (Option Client)) :
    (ts ++ [t]).filter (fun t => decide (Rewrites id t)) =
      ts.filter (fun t => decide (Rewrites id t)) ++ if Rewrites id t then [t] else [] := by
  rw [List.filter_append, List.filter_singleton, Bool.cond_eq_ite]
  simp only [decide_eq_true_eq]

/-- The row of an account is its payment. -/
theorem rewrites_of_account {id : String} {t : Pool.Transition Database ι (Option Client)}
    (h : (t.post.account id).map (·.row) ≠ (t.pre.account id).map (·.row)) : Rewrites id t := by
  have row : ∀ db : Database, (db.account id).map (·.row) = db.payments.get id := by
    intro db
    unfold Database.account
    cases db.payments.get id <;> rfl
  rwa [row, row] at h

variable [DecidableEq ι] {ts : List (Pool.Transition Database ι (Option Client))}
  {v : Pool.World Database ι (Option Client)}

/-- **Serialization**: a payment that is not stored was never rewritten, and one that is stored has
been opened and operated on, one transition after another. -/
theorem Execution.serial (h : Execution sha256 ts v) (id : String) :
    (v.shared.account id = none ∧ ts.filter (fun t => decide (Rewrites id t)) = []) ∨
      ∃ opening operations first last, v.shared.account id = some last ∧
        Serial id ts opening operations first last := by
  refine h.induction (P := fun ts db =>
    (db.account id = none ∧ ts.filter (fun t => decide (Rewrites id t)) = []) ∨
      ∃ opening operations first last, db.account id = some last ∧
        Serial id ts opening operations first last) (.inl ⟨rfl, rfl⟩) ?_
  intro ts t v reached hpre moves ih
  rw [← hpre] at ih
  have g : t.pre.Grounded := hpre ▸ reached.consistent.grounded
  rcases moves.seenFrom g id with ⟨kept, same⟩ | ⟨a, hnone, hsome, hopen⟩ | ⟨step, operates⟩
  · have hfilter : (ts ++ [t]).filter (fun t => decide (Rewrites id t)) =
        ts.filter fun t => decide (Rewrites id t) := by
      rw [rewriting_snoc, if_neg kept, List.append_nil]
    rw [same, hfilter]
    rcases ih with hnone | ⟨opening, operations, first, last, hlast, serial⟩
    · exact .inl hnone
    · exact .inr ⟨opening, operations, first, last, hlast,
        ⟨hfilter.trans serial.order, serial.opened, serial.operated, serial.lived⟩⟩
  · have rewrites : Rewrites id t := rewrites_of_account (by rw [hnone, hsome]; exact nofun)
    rcases ih with ⟨_, hnever⟩ | ⟨_, _, _, _, hlast, _⟩
    · refine .inr ⟨t, [], a, a, hsome, ⟨?_, ⟨hnone, hsome⟩, (fun _ mem => nomatch mem), .opened hopen⟩⟩
      rw [rewriting_snoc, hnever, if_pos rewrites]
      rfl
    · rw [hnone] at hlast
      cases hlast
  · obtain ⟨a, b, ha, hb, ext⟩ := operates.extended
    have rewrites : Rewrites id t := by
      refine rewrites_of_account ?_
      rw [ha, hb]
      exact fun heq => ext.decided.ne (Option.some.inj heq)
    rcases ih with ⟨hnone, _⟩ | ⟨opening, operations, first, last, hlast, serial⟩
    · rw [ha] at hnone
      cases hnone
    · have hsame : last = a := Option.some.inj (hlast.symm.trans ha)
      subst hsame
      refine .inr ⟨opening, operations ++ [(t, step)], first, b, hb, ⟨?_, serial.opened, ?_, ?_⟩⟩
      · rw [rewriting_snoc, serial.order, if_pos rewrites, List.map_append]
        rfl
      · intro operation mem
        rcases List.mem_append.mp mem with mem | mem
        · exact serial.operated operation mem
        · rw [List.mem_singleton.mp mem]
          exact operates
      · rw [List.map_append]
        exact serial.lived.extended ext

/-- No update of a payment is lost: what concurrent calls leave is what the same operations, one
after the other in the order of their commits, would have left. Which of two competing calls wins is
not said, nor that any call succeeds. -/
structure NoLostUpdate (ts : List (Pool.Transition Database ι (Option Client))) (db : Database)
    (p : PaymentRecord) : Prop where
  /-- the committed operations, in commit order, are a sequential run of the pure functions that ends
  in the stored row; refunds stay within the captured amount, and no capture is beside a
  cancellation -/
  serial : ∃ opening operations first,
    Serial p.id ts opening operations first ⟨p, db.ledgerOf p.id, db.publishedOf p.id⟩ ∧
      first.Opened ∧
      Account.Sequential first ⟨p, db.ledgerOf p.id, db.publishedOf p.id⟩
        (operations.map Prod.snd) ∧
      refundTotal (operations.map Prod.snd) ≤ p.capturedAmount ∧
      ¬((∃ step ∈ operations.map Prod.snd, step.IsCapture) ∧ .cancel ∈ operations.map Prod.snd)
  /-- whatever a client does without rewriting the payment leaves its row, ledger and events; an
  operation asked for on it claims no key, and a keyed one writes nothing at all -/
  untouched : ∀ t ∈ ts, ∀ client, t.before = some client → ¬Rewrites p.id t →
    Untouched p.id t.pre t.post ∧
      (client.request.Completes ∨ client.request.Sweeps →
        t.post.idempotencyRecords = t.pre.idempotencyRecords) ∧
      ∀ key command, client.request.keyed = some (key, .lifecycle command) →
        command.paymentId = p.id → t.post = t.pre
  /-- a call that fails has written nothing in its last transaction, unless it fails after the
  commit -/
  failed : ∀ t ∈ ts, ∀ client after e, t.before = some client → t.after = some after →
    after.phase = .finished (.error e) → e ≠ .simulatedPaymentTimeout .afterCommit → t.post = t.pre

/-- A commit that does not rewrite a payment leaves it untouched. -/
theorem SeenFrom.untouched_of_unwritten {id : String} {request : Request} {db db' : Database}
    (h : SeenFrom id request db db') (same : db'.payments.get id = db.payments.get id) :
    Untouched id db db' := by
  cases h with
  | untouched h => exact h
  | opened hnone hsome _ =>
    have hrow := (Database.account_eq_some hsome).1
    rw [same] at hrow
    unfold Database.account at hnone
    rw [hrow] at hnone
    cases hnone
  | advanced _ ha hb ext =>
    have hrow := (Database.account_eq_some hb).1
    rw [same, (Database.account_eq_some ha).1] at hrow
    exact absurd (Option.some.inj hrow).symm ext.decided.ne

omit [DecidableEq ι] in
/-- What a client leaves of a payment it does not rewrite. -/
theorem Moves.untouched {t : Pool.Transition Database ι (Option Client)} (h : Moves sha256 t)
    (g : t.pre.Grounded) {client : Client} (hbefore : t.before = some client) {id : String}
    (unwritten : ¬Rewrites id t) :
    Untouched id t.pre t.post ∧
      (client.request.Completes ∨ client.request.Sweeps →
        t.post.idempotencyRecords = t.pre.idempotencyRecords) ∧
      ∀ key command, client.request.keyed = some (key, .lifecycle command) →
        command.paymentId = id → t.post = t.pre := by
  have hrow : t.post.payments.get id = t.pre.payments.get id := not_not.mp unwritten
  cases h with
  | background hnone _ =>
    rw [hbefore] at hnone
    cases hnone
  | aside _ _ _ _ same _ =>
    rw [same]
    exact ⟨.refl _, fun _ => rfl, fun _ _ _ _ => rfl⟩
  | acted acting hacting coherent unfinished hpost _ =>
    cases hbefore.symm.trans hacting
    have commits := (Client.act_commits sha256 coherent.admits unfinished
      coherent.sound).commits
    rw [← hpost] at commits
    refine ⟨(commits.seenFrom g id).untouched_of_unwritten hrow, commits.claims_kept, ?_⟩
    intro key command hkey hid
    subst hid
    exact commits.eq_of_unwritten hkey hrow

omit [DecidableEq ι] in
/-- A transaction that ends a call with a failure has written nothing, unless it failed after its
commit. -/
theorem Moves.failed {t : Pool.Transition Database ι (Option Client)} (h : Moves sha256 t)
    {client after : Client} {e : ServiceError} (hbefore : t.before = some client)
    (hafter : t.after = some after) (hphase : after.phase = .finished (.error e))
    (he : e ≠ .simulatedPaymentTimeout .afterCommit) : t.post = t.pre := by
  cases h with
  | background hnone _ =>
    rw [hbefore] at hnone
    cases hnone
  | aside _ _ _ _ same _ => exact same
  | acted acting hacting coherent unended hpost hreached =>
    cases hbefore.symm.trans hacting
    cases hafter.symm.trans hreached
    rw [hpost]
    exact (Client.act_commits sha256 coherent.admits unended coherent.sound).failed e hphase (.inr he)

/-- **No lost update between competing operations**: the committed operations on a payment, in the
order of their commits, are a run of the pure functions that ends in the stored row, and a call that
commits nothing for it leaves it alone. A transition that rewrites the row is a lifecycle step of the
account as the commit found it (`Moves`); the rest is the induction over the run that collects them. -/
theorem no_lost_update (h : Execution sha256 ts v) {p : PaymentRecord}
    (hp : v.shared.payments.get p.id = some p) : NoLostUpdate ts v.shared p := by
  refine ⟨?_, fun t mem client hbefore => ?_, fun t mem client after e hbefore hafter hphase he =>
      (h.moves mem).failed hbefore hafter hphase he⟩
  rotate_left
  · obtain ⟨_, _, u, _, reached, hpre, _⟩ := h.split mem
    exact (h.moves mem).untouched (hpre ▸ reached.consistent.grounded) hbefore
  have haccount := Database.account_of_get hp
  rcases h.serial p.id with ⟨hnone, _⟩ | ⟨opening, operations, first, last, hlast, serial⟩
  · rw [haccount] at hnone
    cases hnone
  · have hsame : last = _ := Option.some.inj (hlast.symm.trans haccount)
    subst hsame
    have lived := serial.lived
    exact ⟨opening, operations, first, serial, lived.first_opened, lived.sequential,
      lived.refunds_le_captured, fun both => lived.capture_not_cancel both.1 both.2⟩

/-- No update of a purchase is lost. -/
theorem purchase_no_lost_update :
    purchaseStore.payments.get purchased.id = some purchased ∧
      ∃ ts : List (Pool.Transition Database Unit (Option Client)),
        NoLostUpdate ts purchaseStore purchased := by
  obtain ⟨ts, last, h⟩ := purchase_execution
  have stored : purchaseStore.payments.get purchased.id = some purchased := by decide +kernel
  exact ⟨stored, ts, no_lost_update h stored⟩

end Execution

end PaymentLab
