import PaymentLab.Account.Cutoff
import PaymentLab.Library.Lists
import PaymentLab.Runs.Frame

/-!
# Runs on one clock

Every transaction writes its new rows at the times it may write (`Client.act_stamped`). A `Clocked`
run is an execution whose transactions read their times off one clock that never goes back: a
creation when its key is looked up, a lifecycle change and an acceptance in the transaction that
commits them, a sweep when it is called. In the store of a clocked run nothing is later than the
clock (`Punctual`), and every account is chronicled (`Clocked.chronicled`).

The clock belongs to the run and not to a host: the readings of different clients are compared, and
may be equal. Runs without a clock are the rule elsewhere, so that most laws hold however the clocks
of the hosts disagree; where a law needs one, its statement is about `Clocked` runs.
-/

namespace PaymentLab

open Relational Transactional Transactional.Service Lists

/-! ## The times of a transaction -/

/-- A receipt of the store, by identity and time. -/
def Database.ReceivedAt (db : Database) (id : String) (time : Instant) : Prop :=
  ∃ receipt, db.confirmationReceipts.get id = some receipt ∧ receipt.receivedAt = time

/-- What a store has beyond another is dated in `T`. -/
structure Stamped (T : Instant → Prop) (db db' : Database) : Prop where
  ledger : Grown (fun entry => T entry.createdAt) db.ledgerEntries.rows db'.ledgerEntries.rows
  events : Grown (fun event => T event.createdAt) (db.webhookEvents.rows.map (·.published))
    (db'.webhookEvents.rows.map (·.published))
  receipts : ∀ receipt ∈ db'.confirmationReceipts.rows,
    db.ReceivedAt receipt.confirmationId receipt.receivedAt ∨ T receipt.receivedAt
  confirmations : Grown (fun confirmation => T confirmation.receivedAt)
    db.paymentConfirmations.rows db'.paymentConfirmations.rows

section Stamped

variable {T : Instant → Prop} {db db' : Database}

theorem Stamped.refl (db : Database) : Stamped T db db :=
  ⟨.refl _, .refl _, fun receipt mem => .inl ⟨receipt, Table.get_of_mem mem, rfl⟩, .refl _⟩

/-- Rows dated in `T` keep a store stamped. -/
theorem stamped_withstands (db : Database) :
    Withstands T (fun id time => db.ReceivedAt id time ∨ T time) (Stamped T db) where
  payments := fun _ h => ⟨h.ledger, h.events, h.receipts, h.confirmations⟩
  idempotencyRecords := fun _ h => ⟨h.ledger, h.events, h.receipts, h.confirmations⟩
  ledgerEntries := by
    intro d entry t hT hinsert h
    refine ⟨?_, h.events, h.receipts, h.confirmations⟩
    rw [show ({ d with ledgerEntries := t } : Database).ledgerEntries.rows = _ from
      Table.insert_rows hinsert]
    exact h.ledger.snoc hT
  webhookEvents := by
    intro d event t hT hinsert h
    refine ⟨h.ledger, ?_, h.receipts, h.confirmations⟩
    rw [show ({ d with webhookEvents := t } : Database).webhookEvents.rows = _ from
      Table.insert_rows hinsert, List.map_append]
    exact h.events.snoc hT
  received := by
    intro d receipt t hT hinsert h
    refine ⟨h.ledger, h.events, fun r mem => ?_, h.confirmations⟩
    have mem : r ∈ t.rows := mem
    rw [Table.insert_rows hinsert] at mem
    rcases List.mem_append.mp mem with mem | mem
    · exact h.receipts r mem
    · rw [List.mem_singleton.mp mem]
      exact .inr hT
  completed := by
    intro d receipt t hR hupdate h
    refine ⟨h.ledger, h.events, fun r mem => ?_, h.confirmations⟩
    have mem : r ∈ t.rows := mem
    rw [Table.update_rows hupdate] at mem
    obtain ⟨old, hold, rfl⟩ := List.mem_map.mp mem
    unfold Table.overwrite
    split
    · exact hR
    · exact h.receipts old hold
  paymentConfirmations := by
    intro d confirmation t hT hinsert h
    refine ⟨h.ledger, h.events, h.receipts, ?_⟩
    rw [show ({ d with paymentConfirmations := t } : Database).paymentConfirmations.rows = _ from
      Table.insert_rows hinsert]
    exact h.confirmations.snoc hT
  found := by
    intro d id receipt h hget
    obtain ⟨mem, rfl⟩ := Table.get_eq_some hget
    exact h.receipts receipt mem

/-- The times of a completion are those of its receipt, and no request has others for being asked
about more. -/
theorem Request.Stamps.of_or {R : String → Instant → Prop} {request : Request} {phase : Phase}
    {time : Instant}
    (h : request.Stamps (fun id time => R id time ∨ request.Stamps R phase time) phase time) :
    request.Stamps R phase time := by
  cases request with
  | complete confirmationId draws =>
    cases phase <;> first | exact h.elim id id | exact h
  | process command receivedAt clock draws =>
    cases phase <;> first | exact h.elim id id | exact h
  | recover limit draws =>
    cases phase with
    | recovering ids todo =>
      cases todo with
      | nil => exact h
      | cons confirmationId todo => exact h.elim id id
    | _ => exact h
  | _ => cases phase <;> exact h

/-- **A transaction writes its new rows at its own times.** -/
theorem Client.act_stamped (sha256 : String → String) (client : Client) (db : Database) :
    Stamped (client.request.Stamps db.ReceivedAt client.phase) db (client.act sha256 db).1 :=
  (preserves_step (stamped_withstands db) sha256 client.request client.phase
    (fun _ h => h.of_or) (client.session db) (.refl db) (.refl db)).1

/-- The times of one transaction are one time. -/
theorem Request.Stamps.unique {request : Request} {phase : Phase} {time time' : Instant}
    (h : request.Stamps db.ReceivedAt phase time) (h' : request.Stamps db.ReceivedAt phase time') :
    time = time' := by
  have received : ∀ {id}, db.ReceivedAt id time → db.ReceivedAt id time' → time = time' := by
    rintro id ⟨receipt, hget, rfl⟩ ⟨receipt', hget', rfl⟩
    rw [Option.some.inj (hget.symm.trans hget')]
  have clock : ∀ {d : Datetime}, d = .aware time → d = .aware time' → time = time' := by
    rintro d rfl hd
    exact Datetime.aware.inj hd
  cases request with
  | authorize => cases phase <;> first | exact absurd h id | exact h.trans h'.symm
  | capture => cases phase <;> first | exact absurd h id | exact h.trans h'.symm
  | refund => cases phase <;> first | exact absurd h id | exact h.trans h'.symm
  | cancel => cases phase <;> first | exact absurd h id | exact h.trans h'.symm
  | accept => cases phase <;> first | exact absurd h id | exact clock h h'
  | expire => cases phase <;> first | exact absurd h id | exact clock h h'
  | complete => cases phase <;> first | exact absurd h id | exact received h h'
  | process command receivedAt clock draws =>
    cases phase with
    | ready => exact Datetime.aware.inj (Option.some.inj (h.symm.trans h'))
    | completing => exact received h h'
    | _ => exact absurd h id
  | recover limit draws =>
    cases phase with
    | recovering ids todo =>
      cases todo with
      | nil => exact absurd h id
      | cons confirmationId todo => exact received h h'
    | _ => exact absurd h id

/-- One lifecycle step of an account in a stamped store is a step at one time. -/
theorem Stamped.extendsAt (stamped : Stamped T db db')
    (unique : ∀ {time time'}, T time → T time' → time = time') {id : String} {a b : Account}
    {step : LifecycleStep} (ha : db.account id = some a) (hb : db'.account id = some b)
    (e : Account.Extends step a b) :
    T b.row.updatedAt ∧ Account.ExtendsAt b.row.updatedAt step a b := by
  obtain ⟨_, ledger_before, events_before⟩ := Database.account_eq_some ha
  obtain ⟨_, ledger_after, events_after⟩ := Database.account_eq_some hb
  have hevents := stamped.events.filter fun event => decide (event.paymentId = id)
  rw [← Database.publishedOf_eq, ← Database.publishedOf_eq, ← events_before, ← events_after]
    at hevents
  have hledger : Grown (fun entry => T entry.createdAt) a.ledger b.ledger := by
    rw [ledger_before, ledger_after]
    exact stamped.ledger.filter _
  obtain ⟨hex, hextended⟩ := e.events
  rw [hextended] at hevents
  have hupdated : T b.row.updatedAt := hevents.added (List.mem_singleton.mpr rfl)
  refine ⟨hupdated, e, rfl, ?_⟩
  obtain ⟨entryId, time, hposted⟩ := e.ledger
  refine ⟨entryId, ?_⟩
  rw [hposted] at hledger ⊢
  congr 1
  cases hentry : step.entry a.row b.row entryId time with
  | none =>
    have hposting : step.posting a.row b.row = none := Option.map_eq_none_iff.mp hentry
    rw [LifecycleStep.entry, hposting]
    rfl
  | some entry =>
    rw [hentry] at hledger
    have htime := hledger.added (List.mem_singleton.mpr rfl)
    rw [LifecycleStep.entry_createdAt hentry] at htime
    rw [← unique htime hupdated, hentry]

end Stamped

/-! ## What one transaction does to an account -/

/-- The calls that change a payment under a key. -/
def Request.Operates : Request → Prop
  | .capture .. | .cancel .. | .refund .. => True
  | _ => False

/-- An expiry and a confirmation start from an awaiting payment. -/
theorem Decides.awaiting {step : LifecycleStep} {before after : PaymentRecord}
    (h : Decides step before after)
    (hstep : step = .expire ∨ ∃ amount, step = .captureConfirmation amount) :
    before.status = .awaitingPayment := by
  obtain ⟨state, next, hbefore, _, happly⟩ := h.states
  rw [← (paymentState_eq_ok hbefore).1]
  rcases hstep with rfl | ⟨amount, rfl⟩
  · exact (expire_eq_ok happly).1
  · exact (captureConfirmation_eq_ok happly).1

section Account

variable {sha256 : String → String} {db db' : Database}

/-- A lifecycle step, seen from any account. -/
theorem Advances.account_cases {step : LifecycleStep} {before after : PaymentRecord}
    (h : Advances step before after db db') (id : String) :
    db'.account id = db.account id ∨
      ∃ a b, db.account id = some a ∧ db'.account id = some b ∧ a.row = before ∧ b.row = after ∧
        Account.Extends step a b := by
  by_cases hid : id = before.id
  · subst hid
    exact .inr h.account
  · exact .inl (h.account_of_ne hid)

/-- The confirmations after a sweep are those before it. -/
theorem sweep_confirmations (h : Relation.ReflTransGen ExpiresOne db db') :
    SameConfirmations db db' := by
  induction h with
  | refl => exact ⟨rfl, rfl⟩
  | tail _ hstep ih =>
    obtain ⟨_, _, hexpired⟩ := hstep
    exact ⟨hexpired.confirmations.receipts.trans ih.receipts,
      hexpired.confirmations.confirmations.trans ih.confirmations⟩

/-- A sweep expires an account at most once. -/
theorem sweep_account (h : Relation.ReflTransGen ExpiresOne db db') (id : String) :
    db'.account id = db.account id ∨
      ∃ a b, db.account id = some a ∧ db'.account id = some b ∧ Account.Extends .expire a b := by
  induction h with
  | refl => exact .inl rfl
  | tail _ hstep ih =>
    obtain ⟨before, after, hexpired⟩ := hstep
    rcases hexpired.advances.account_cases id with hsame | ⟨a, b, ha, hb, hrow, _, e⟩
    · rw [hsame]
      exact ih
    · rcases ih with hsame | ⟨c, a', _, ha', e'⟩
      · exact .inr ⟨a, b, hsame ▸ ha, hb, e⟩
      · -- it is expired already
        cases ha.symm.trans ha'
        have hawaiting := e.decided.awaiting (.inl rfl)
        obtain ⟨_, next, _, hafter, happly⟩ := e'.decided.states
        rw [← (paymentState_eq_ok hafter).1, (expire_eq_ok happly).2.1] at hawaiting
        cases hawaiting

/-- **One transaction changes an account at most once**: it opens it, ends its waiting, or is a
lifecycle request. -/
theorem Commits.account_cases {request : Request} (h : Commits sha256 request db db')
    (grounded : db.Grounded) (id : String) :
    db'.account id = db.account id ∨
      (db.account id = none ∧ ∃ a, db'.account id = some a ∧ a.Opened) ∨
      ∃ step a b, db.account id = some a ∧ db'.account id = some b ∧ Account.Extends step a b ∧
        (a.row.status = .awaitingPayment ∨ request.Operates) := by
  cases h with
  | nothing same => exact .inl (by rw [same])
  | @keyed key command payment hkeyed h =>
    cases h with
    | created h =>
      by_cases hid : id = payment.id
      · subst hid
        obtain ⟨a, ha, _, hopen⟩ := h.account grounded
        refine .inr (.inl ⟨?_, a, ha, hopen⟩)
        unfold Database.account
        rw [h.fresh]
        rfl
      · exact .inl (h.account_of_ne hid)
    | operated h =>
      obtain ⟨step, _, hadvances⟩ := h.advances
      have operates : request.Operates := by
        cases request <;> first | exact trivial | cases hkeyed
      rcases hadvances.account_cases id with same | ⟨a, b, ha, hb, _, _, e⟩
      · exact .inl same
      · exact .inr (.inr ⟨step, a, b, ha, hb, e, .inr operates⟩)
  | received _ h => exact .inl (h.accounts.account id)
  | settled _ h =>
    cases h.effect with
    | none _ same _ => exact .inl (same.account id)
    | captured before after _ _ hadvances =>
      rcases hadvances.account_cases id with same | ⟨a, b, ha, hb, _, _, e⟩
      · exact .inl same
      · exact .inr (.inr ⟨_, a, b, ha, hb, e, .inl (e.decided.awaiting (.inr ⟨_, rfl⟩))⟩)
    | expired before after _ _ _ hadvances =>
      rcases hadvances.account_cases id with same | ⟨a, b, ha, hb, _, _, e⟩
      · exact .inl same
      · exact .inr (.inr ⟨_, a, b, ha, hb, e, .inl (e.decided.awaiting (.inl rfl))⟩)
  | swept _ h =>
    rcases sweep_account h id with same | ⟨a, b, ha, hb, e⟩
    · exact .inl same
    · exact .inr (.inr ⟨_, a, b, ha, hb, e, .inl (e.decided.awaiting (.inl rfl))⟩)

end Account

/-! ## One clock -/

/-- A value of a clock that reads `now`. A value without a time zone is refused where it is read, so
that nothing is asked of it. -/
def Datetime.Reads (now : Instant) (value : Datetime) : Prop :=
  ∀ utc, value = .aware utc → utc = now

/-- The next transaction of a call takes its times off a clock that reads `now`. Where a transaction
reads no clock nothing is asked; a sweep is given a time that its caller read before, which may be
behind. -/
def Request.Reads (now : Instant) : Request → Phase → Prop
  | .authorize _ _ _ clock _, .ready => clock.Reads now
  | .capture _ _ _ _ time _, .claiming _ => time = now
  | .refund _ _ _ _ _ time _, .claiming _ => time = now
  | .cancel _ _ _ _ time _, .ready => time = now
  | .accept _ clock, .ready => clock.Reads now
  | .process _ receivedAt clock _, .ready =>
    ∀ chosen, clock.or receivedAt = some chosen → chosen.Reads now
  -- the caller of a sweep read the clock before the sweep began
  | .expire time _ _, .ready => ∀ utc, time = .aware utc → utc ≤ now
  | _, _ => True

/-- The calls that create a payment. -/
def Request.Creates : Request → Prop
  | .authorize .. => True
  | _ => False

/-- A creation that holds its time took it off the clock by `now`. -/
def Client.Claimed (now : Instant) (client : Client) : Prop :=
  client.request.Creates → ∀ time, client.phase = .claiming time → time ≤ now

section Clock

variable {ι : Type} [DecidableEq ι] {sha256 : String → String}

/-- A client runs its next transaction. Beginning a call, loading a payment into the session and
being interrupted are no transactions. -/
structure Transacts (sha256 : String → String) (client : Client)
    (t : Pool.Transition Database ι (Option Client)) : Prop where
  before : t.before = some client
  unfinished : ¬client.phase.Ended
  post : t.post = (client.act sha256 t.pre).1
  after : t.after = some (client.act sha256 t.pre).2

/-- A run whose transactions read one clock that never goes back, and what it reads at the end. Two
transactions may read the same time, and any amount of time may pass between them. -/
inductive Clocked (sha256 : String → String) :
    List (Pool.Transition Database ι (Option Client)) →
      Pool.World Database ι (Option Client) → Instant → Prop
  | start {w : Pool.World Database ι (Option Client)} (now : Instant) : Initial w →
      Clocked sha256 [] w now
  | step {ts : List (Pool.Transition Database ι (Option Client))}
      {v : Pool.World Database ι (Option Client)} {now later : Instant}
      {t : Pool.Transition Database ι (Option Client)} : Clocked sha256 ts v now →
      Pool.Enabled (System sha256) v t → now ≤ later →
      (∀ client, Transacts sha256 client t → client.request.Reads later client.phase) →
      Clocked sha256 (ts ++ [t]) (v.apply t) later

variable {ts : List (Pool.Transition Database ι (Option Client))}
  {v : Pool.World Database ι (Option Client)} {now : Instant}

theorem Clocked.execution (h : Clocked sha256 ts v now) : Execution sha256 ts v := by
  induction h with
  | start now initial => exact .nil initial
  | step _ enabled _ _ ih => exact ih.append (.single enabled)

/-- Nothing in a store is later than the clock. -/
structure Punctual (now : Instant) (db : Database) : Prop where
  ledger : ∀ entry ∈ db.ledgerEntries.rows, entry.createdAt ≤ now
  events : ∀ event ∈ db.webhookEvents.rows.map (·.published), event.createdAt ≤ now
  receipts : ∀ receipt ∈ db.confirmationReceipts.rows, receipt.receivedAt ≤ now

theorem punctual_empty (now : Instant) : Punctual now .empty :=
  ⟨fun _ mem => absurd mem List.not_mem_nil, fun _ mem => absurd mem List.not_mem_nil,
    fun _ mem => absurd mem List.not_mem_nil⟩

theorem Punctual.mono {db : Database} {later : Instant} (h : Punctual now db) (hle : now ≤ later) :
    Punctual later db :=
  ⟨fun entry mem => (h.ledger entry mem).trans hle, fun event mem => (h.events event mem).trans hle,
    fun receipt mem => (h.receipts receipt mem).trans hle⟩

theorem Punctual.past {db : Database} (h : Punctual now db) {id : String} {a : Account}
    (ha : db.account id = some a) : a.Past now := by
  obtain ⟨_, hledger, hevents⟩ := Database.account_eq_some ha
  refine ⟨fun event mem => ?_, fun entry mem => ?_⟩
  · rw [hevents, Database.publishedOf_eq] at mem
    exact h.events event (List.mem_of_mem_filter mem)
  · rw [hledger] at mem
    exact h.ledger entry (List.mem_of_mem_filter mem)

/-- What is stamped by the clock's reading stays punctual. -/
theorem Punctual.stamped {db db' : Database} {T : Instant → Prop} (h : Punctual now db)
    (stamped : Stamped T db db') (hT : ∀ time, T time → time ≤ now) : Punctual now db' := by
  refine ⟨fun entry mem => ?_, fun event mem => ?_, fun receipt mem => ?_⟩
  · exact (stamped.ledger.mem mem).elim (h.ledger entry) (hT _)
  · exact (stamped.events.mem mem).elim (h.events event) (hT _)
  · rcases stamped.receipts receipt mem with ⟨old, hget, htime⟩ | htime
    · exact htime ▸ h.receipts old (Table.get_eq_some hget).1
    · exact hT _ htime

theorem Background.punctual {db db' : Database} (h : Background db db') (punctual : Punctual now db) :
    Punctual now db' := by
  refine ⟨?_, ?_, ?_⟩
  · rw [h.ledgerEntries]
    exact punctual.ledger
  · rw [h.published]
    exact punctual.events
  · rw [h.confirmations.receipts]
    exact punctual.receipts

/-- A transaction that reads the clock writes no later time. -/
theorem Request.Stamps.le {request : Request} {phase : Phase} {db : Database} {time : Instant}
    (h : request.Stamps db.ReceivedAt phase time) (reads : request.Reads now phase)
    (claimed : request.Creates → ∀ time, phase = .claiming time → time ≤ now)
    (punctual : Punctual now db) : time ≤ now := by
  have received : ∀ {id}, db.ReceivedAt id time → time ≤ now := by
    rintro id ⟨receipt, hget, rfl⟩
    exact punctual.receipts receipt (Table.get_eq_some hget).1
  cases request with
  | authorize =>
    cases phase with
    | claiming claimedAt =>
      have heq : time = claimedAt := h
      rw [heq]
      exact claimed trivial claimedAt rfl
    | _ => exact absurd h id
  | capture => cases phase <;> first | exact absurd h id | exact (h.trans reads).le
  | refund => cases phase <;> first | exact absurd h id | exact (h.trans reads).le
  | cancel => cases phase <;> first | exact absurd h id | exact (h.trans reads).le
  | accept => cases phase <;> first | exact absurd h id | exact (reads time h).le
  | expire => cases phase <;> first | exact absurd h id | exact reads time h
  | complete => cases phase <;> first | exact absurd h id | exact received h
  | process command receivedAt clock draws =>
    cases phase with
    | ready => exact (reads _ h time rfl).le
    | completing => exact received h
    | _ => exact absurd h id
  | recover limit draws =>
    cases phase with
    | recovering ids todo =>
      cases todo with
      | nil => exact absurd h id
      | cons confirmationId todo => exact received h
    | _ => exact absurd h id

/-- A lifecycle request writes at the time the clock reads. -/
theorem Request.Stamps.reading {request : Request} {phase : Phase} {db : Database} {time : Instant}
    (h : request.Stamps db.ReceivedAt phase time) (reads : request.Reads now phase)
    (operates : request.Operates) : time = now := by
  cases request with
  | capture => cases phase <;> first | exact absurd h id | exact h.trans reads
  | refund => cases phase <;> first | exact absurd h id | exact h.trans reads
  | cancel => cases phase <;> first | exact absurd h id | exact h.trans reads
  | _ => exact absurd operates id

/-- A creation takes its time off the clock when it looks its key up. -/
theorem Client.act_claimed {client : Client} {db : Database} (coherent : client.Coherent db)
    (unfinished : ¬client.phase.Ended) (creates : client.request.Creates)
    (reads : client.request.Reads now client.phase) {time : Instant}
    (h : (client.act sha256 db).2.phase = .claiming time) : time = now := by
  obtain ⟨request, identity, phase⟩ := client
  cases request with
  | authorize command key failurePoint clock draws =>
    have hact := (Client.keyed_act sha256 rfl coherent.admits unfinished coherent.sound).1
    rw [h] at hact
    obtain rfl : phase = .ready := by
      generalize hafter : Phase.claiming time = after at hact
      cases hact with
      | free _ _ ready => exact ready
      | _ => cases hafter
    obtain ⟨r, s', hrun⟩ : ∃ r s', (Request.authorize command key failurePoint clock draws).step
        sha256 .ready (Session.start db identity) = (r, s') := ⟨_, _, rfl⟩
    rw [Client.act_eq hrun] at h
    have h : Phase.ofResult r = .claiming time := h
    cases clock with
    | naive wall =>
      cases hrun
      cases h
    | aware utc =>
      have hlookup : lookUp key (command.fingerprint sha256) utc (Session.start db identity) =
        (r, s') := hrun
      obtain ⟨_, _, ⟨record, _, hphase⟩ | ⟨_, rfl⟩⟩ := lookUp_cases hlookup
      · rw [hphase] at h
        cases h
      · cases h
        exact reads _ rfl
  | _ => exact absurd creates id

/-! ## Along a clocked run -/

/-- What a step of a clocked run is, where the clock reads `now` at the step. -/
inductive Ticks (sha256 : String → String) (now : Instant)
    (v : Pool.World Database ι (Option Client)) (t : Pool.Transition Database ι (Option Client)) :
    Prop
  /-- delivery or the merchant acts -/
  | background : Background v.shared t.post → t.after = none → Ticks sha256 now v t
  /-- a client begins a call, loads a payment or is interrupted -/
  | aside (client after : Client) : v.threads t.thread = some client → t.after = some after →
      t.post = v.shared → (client.Claimed now → after.Claimed now) → Ticks sha256 now v t
  /-- a client runs the next transaction of its call -/
  | acted (client : Client) : v.threads t.thread = some client → client.Coherent v.shared →
      ¬client.phase.Ended → client.request.Reads now client.phase →
      t.post = (client.act sha256 v.shared).1 → t.after = some (client.act sha256 v.shared).2 →
      Ticks sha256 now v t

theorem Clocked.ticks {t : Pool.Transition Database ι (Option Client)} {later : Instant}
    (h : Clocked sha256 ts v now) (enabled : Pool.Enabled (System sha256) v t)
    (reads : ∀ client, Transacts sha256 client t → client.request.Reads later client.phase) :
    Ticks sha256 later v t := by
  obtain ⟨w, initial, run⟩ := h.execution
  obtain ⟨_, asserts⟩ := run.invariant system_establishes system_nonInterfering initial.started.holds
  obtain ⟨i, pre, before, post, after⟩ := t
  obtain ⟨rfl, hbefore, step⟩ := enabled
  cases step with
  | environment hbackground => exact .background hbackground rfl
  | @thread _ _ client after hstep =>
    have coherent : client.Coherent v.shared := asserts i client hbefore.symm
    cases hstep with
    | begin request ended =>
      exact .aside _ _ hbefore.symm rfl rfl fun _ _ time hphase => by cases hphase
    | load stored => exact .aside _ _ hbefore.symm rfl rfl fun claimed => claimed
    | act unfinished hact =>
      have hpost := (congrArg Prod.fst hact).symm
      have hafter := (congrArg (some ∘ Prod.snd) hact).symm
      exact .acted client hbefore.symm coherent unfinished
        (reads client ⟨rfl, unfinished, hpost, hafter⟩) hpost hafter
    | interrupt unfinished =>
      exact .aside _ _ hbefore.symm rfl rfl fun _ _ time hphase => by cases hphase

/-- **Nothing is later than the clock**, and every creation holds a time of the past. -/
theorem Clocked.punctual (h : Clocked sha256 ts v now) :
    Punctual now v.shared ∧ ∀ i client, v.threads i = some client → client.Claimed now := by
  induction h with
  | start now initial =>
    refine ⟨by rw [initial.empty]; exact punctual_empty now, fun i client hclient _ time hphase => ?_⟩
    rw [(initial.fresh i client hclient).2] at hphase
    cases hphase
  | @step ts v now later t h enabled hle reads ih =>
    obtain ⟨punctual, claimed⟩ := ih
    have punctual := punctual.mono hle
    have claimed : ∀ i client, v.threads i = some client → client.Claimed later :=
      fun i client hclient creates time hphase =>
        (claimed i client hclient creates time hphase).trans hle
    have others : (∀ client, t.after = some client → client.Claimed later) →
        ∀ i client, (v.apply t).threads i = some client → client.Claimed later := by
      intro own i client hclient
      by_cases hi : i = t.thread
      · subst hi
        rw [Pool.World.apply_threads_self] at hclient
        exact own client hclient
      · rw [Pool.World.apply_threads_of_ne v t hi] at hclient
        exact claimed i client hclient
    cases h.ticks enabled reads with
    | background hbackground hafter =>
      exact ⟨hbackground.punctual punctual, others fun client hclient => by
        rw [hafter] at hclient
        cases hclient⟩
    | aside client after hclient hafter hpost kept =>
      refine ⟨by rw [Pool.World.apply_shared, hpost]; exact punctual, others fun c hc => ?_⟩
      rw [hafter] at hc
      cases hc
      exact kept (claimed _ client hclient)
    | acted client hclient coherent unfinished readsNow hpost hafter =>
      have own := claimed _ client hclient
      refine ⟨?_, others fun c hc creates time hphase => ?_⟩
      · rw [Pool.World.apply_shared, hpost]
        exact punctual.stamped (Client.act_stamped sha256 client v.shared) fun time htime =>
          htime.le readsNow own punctual
      · rw [hafter] at hc
        cases hc
        exact (Client.act_claimed coherent unfinished creates readsNow hphase).le

/-- **Every account of a clocked run is chronicled.** -/
theorem Clocked.chronicled (h : Clocked sha256 ts v now) :
    ∀ id a, v.shared.account id = some a → a.Chronicled := by
  induction h with
  | start now initial =>
    intro id a ha
    rw [initial.empty] at ha
    cases ha
  | @step ts v now later t h enabled hle reads ih =>
    intro id b hb
    rw [Pool.World.apply_shared] at hb
    cases h.ticks enabled reads with
    | background hbackground _ => exact ih id b (hbackground.account id ▸ hb)
    | aside _ _ _ _ hpost _ => exact ih id b (hpost ▸ hb)
    | acted client _ coherent unfinished readsNow hpost _ =>
      rw [hpost] at hb
      have consistent := h.execution.consistent
      have commits := (Client.act_commits sha256 coherent.admits unfinished coherent.sound).commits
      rcases commits.account_cases consistent.grounded id with
        same | ⟨_, a, ha, opened⟩ | ⟨step, a, c, ha, hc, e, hcause⟩
      · exact ih id b (same ▸ hb)
      · cases ha.symm.trans hb
        exact opened.chronicled
      · cases hc.symm.trans hb
        obtain ⟨htime, e⟩ := (Client.act_stamped sha256 client v.shared).extendsAt
          Request.Stamps.unique ha hb e
        obtain ⟨first, steps, lived⟩ := consistent.lived id a ha
        refine e.chronicled lived.published lived.balanced ?_ (ih id a ha)
        rcases hcause with awaiting | operates
        · exact (lived.opened_of_awaiting awaiting).past.mono (le_max_right _ _)
        · -- a lifecycle request writes now, and nothing is later
          rw [htime.reading readsNow operates]
          exact ((h.punctual.1.mono hle).past ha).mono (le_max_left _ _)

end Clock

end PaymentLab
