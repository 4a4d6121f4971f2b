import PaymentLab.Laws.Settlement
import PaymentLab.Runs.Sweeps

/-!
# Bounded expiry sweeps

Bounded batches refine one unbounded batch (`sweeps_refine`): consecutive calls of
`expire_due_payments` expire the due payments block by block in their order, leave none after enough
calls, and end in the store that one batch of all of them leaves, up to generated event ids. A batch
in which the event of one payment cannot be created leaves the store as it was.

The blocks are in the order in which the query returns due payments, by deadline and then by
identity, and both the bounded and the unbounded batch use it. Generated ids are an argument here, a
function of the payment's own, and are left out of the comparison. Nothing else runs between the
calls here; sweeps beside other operations are part of the executions.
-/

namespace PaymentLab

open Relational Transactional Transactional.Service

/-! ## One unbounded batch -/

/-- The abstract sweep: `expire_due_payments` without its limit. -/
def expireAllDue (current : Instant) (hex : String → String) : Service (List String) := do
  beginCoordinatedWrite
  let due ← Service.query fun db => allDue db current
  expireEach current hex due
  Service.commit
  return due.map (·.id)

/-- Event ids generated for a store: none is taken, and no two payments get the same one. It is what
`uuid4` is relied on for. -/
structure NewDraws (db : Database) (hex : String → String) : Prop where
  fresh : ∀ id, db.webhookEvents.get ("evt_" ++ hex id) = none
  distinct : Function.Injective hex

section Call

variable {current : Instant} {limit : Int} {hex : String → String} {db : Database}
  {identity : IdentityMap}

/-- The draws of payments that are told apart by their ids. -/
theorem NewDraws.nodup (new : NewDraws db hex) {due : List PaymentRecord}
    (distinct : (due.map (·.id)).Nodup) : (due.map fun p => hex p.id).Nodup := by
  have := distinct.map new.distinct
  rwa [List.map_map] at this

theorem allDue_ids_nodup (db : Database) (current : Instant) :
    ((allDue db current).map (·.id)).Nodup := by
  refine (allDue_nodup db current).map_on fun a ha b hb hid => ?_
  exact Table.eq_of_key_eq (mem_allDue.mp ha).1 (mem_allDue.mp hb).1 hid

/-- **A sweep goes through** and works off the first block of the due payments. -/
theorem expireDuePayments_accepted (current : Instant) (identity : IdentityMap)
    (consistent : Consistent db) (new : NewDraws db hex) (hlimit : 1 ≤ limit ∧ limit ≤ maxExpiryBatchSize) :
    ∃ s', expireDuePayments (.aware current) limit hex (Session.start db identity) =
        (.ok (((allDue db current).take limit.toNat).map (·.id)), s') ∧
      Swept current ((allDue db current).take limit.toNat)
        (((allDue db current).take limit.toNat).map fun p => hex p.id) db s'.committed := by
  obtain ⟨s₁, heach, swept⟩ := expireEach_accepted current hex
    ((allDue db current).take limit.toNat)
    (s := { coordinated (Session.start db identity) with begun := true }) consistent
    (fun p hp => allDue_awaits (List.mem_of_mem_take hp)) (fun p _ => new.fresh p.id)
    (new.nodup (by
      rw [List.map_take]
      exact (allDue_ids_nodup db current).sublist (List.take_sublist _ _)))
  refine ⟨{ s₁ with committed := s₁.working, begun := false, reserved := false }, ?_, swept⟩
  unfold expireDuePayments
  rw [bind_ok (show requireAwareUtc (.aware current) _ (Session.start db identity) =
    (.ok current, Session.start db identity) from rfl)]
  rw [if_neg (not_not.mpr hlimit), bind_ok (beginCoordinatedWrite_apply _),
    bind_ok (query_apply _ _)]
  exact tryCatch_ok (bind_ok heach)

/-- The unbounded sweep goes through and works off everything. -/
theorem expireAllDue_accepted (current : Instant) (identity : IdentityMap)
    (consistent : Consistent db) (new : NewDraws db hex) :
    ∃ s', expireAllDue current hex (Session.start db identity) =
        (.ok ((allDue db current).map (·.id)), s') ∧
      Swept current (allDue db current) ((allDue db current).map fun p => hex p.id) db
        s'.committed := by
  obtain ⟨s₁, heach, swept⟩ := expireEach_accepted current hex
    (allDue db current)
    (s := { coordinated (Session.start db identity) with begun := true }) consistent
    (fun p hp => allDue_awaits hp) (fun p _ => new.fresh p.id)
    (new.nodup (allDue_ids_nodup db current))
  refine ⟨{ s₁ with committed := s₁.working, begun := false, reserved := false }, ?_, swept⟩
  unfold expireAllDue
  rw [bind_ok (beginCoordinatedWrite_apply _), bind_ok (query_apply _ _)]
  exact bind_ok heach

/-- What a sweep leaves is consistent. -/
theorem expireDuePayments_consistent (consistent : Consistent db)
    {r : Except ServiceError (List String)} {s' : DatabaseSession}
    (h : expireDuePayments (.aware current) limit hex (Session.start db identity) = (r, s')) :
    Consistent s'.committed := by
  rcases (expireDuePayments_cases h).2 with ⟨_, hsame⟩ | ⟨_, hexpired⟩
  · rw [hsame]
    exact consistent
  · have effects : Relation.ReflTransGen (Effect id) db s'.committed :=
      Relation.ReflTransGen.mono (fun _ _ ⟨_, _, h⟩ => .expired h) _ _ hexpired
    exact effects_keep (fun hc e => e.consistent hc) effects consistent

end Call

/-! ## Stores up to event ids -/

/-- An event without its generated id. -/
def WebhookEventRecord.anonymous (event : WebhookEventRecord) : WebhookEventRecord :=
  { event with id := "", payload := { event.payload with id := "" } }

/-- Two stores that differ in generated event ids only: the events are the same in order and content,
and every other table is the same. -/
structure SameUpToEventIds (a b : Database) : Prop where
  events : a.webhookEvents.rows.map WebhookEventRecord.anonymous =
    b.webhookEvents.rows.map WebhookEventRecord.anonymous
  rest : { a with webhookEvents := b.webhookEvents } = b

theorem anonymous_expiryEvent (current : Instant) (p : PaymentRecord) (hex : String) :
    (expiryEvent current p hex).anonymous = (expiryEvent current p "").anonymous := rfl

/-- The events of a batch, without their ids. -/
theorem map_anonymous_expiryEvents (current : Instant) :
    ∀ {due : List PaymentRecord} {drawn : List String}, drawn.length = due.length →
      (List.zipWith (expiryEvent current) due drawn).map WebhookEventRecord.anonymous =
        due.map fun p => (expiryEvent current p "").anonymous
  | [], [], _ => rfl
  | p :: due, hex :: drawn, h => by
    rw [List.zipWith_cons_cons, List.map_cons, List.map_cons, anonymous_expiryEvent,
      map_anonymous_expiryEvents current (by simpa using h)]

/-- Batches of the same payments differ in the event ids only. -/
theorem Swept.same {current : Instant} {due : List PaymentRecord} {drawn drawn' : List String}
    {db a b : Database} (ha : Swept current due drawn db a) (hb : Swept current due drawn' db b) :
    SameUpToEventIds a b := by
  refine ⟨?_, ?_⟩
  · rw [ha.events, hb.events, List.map_append, List.map_append,
      map_anonymous_expiryEvents current ha.counted, map_anonymous_expiryEvents current hb.counted]
  · have hpayments : a.payments = b.payments := Table.ext (ha.payments.trans hb.payments.symm)
    have hrest : { a with payments := db.payments, webhookEvents := db.webhookEvents } =
        { b with payments := db.payments, webhookEvents := db.webhookEvents } :=
      ha.rest.trans hb.rest.symm
    rw [Database.ext_iff] at hrest ⊢
    exact ⟨hpayments, hrest.2.1, hrest.2.2.1, rfl, hrest.2.2.2.2⟩

/-! ## Failing events -/

section Failure

variable (create : PaymentRecord → Service Unit)

/-- A batch whose events are created by `create`, which may raise. -/
def expireEachBy (current : Instant) : List PaymentRecord → Service Unit
  | [] => pure ()
  | payment :: rest => do
    tryCatch
      (do
        let state ← liftDomain (paymentState payment)
        let next ← liftDomain (expire state)
        let changed := payment.withState next current
        Service.flush (flushPayment payment changed)
        create (afterFlush payment changed))
      fun error =>
        if error = .staleData then throw (.concurrentPaymentUpdate payment.id) else throw error
    expireEachBy current rest

/-- `expire_due_payments`, its events created by `create`. -/
def expireDuePaymentsBy (now : Datetime) (limit : Int) : Service (List String) := do
  let current ← requireAwareUtc now "now"
  if ¬(1 ≤ limit ∧ limit ≤ maxExpiryBatchSize) then
    throw (.valueError "limit must be between 1 and 1000")
  else
    beginCoordinatedWrite
    let due ← Service.query fun db => duePayments db current limit.toNat
    tryCatch
      (do
        expireEachBy create current due
        Service.commit
        return due.map (·.id))
      fun error => do
        Service.rollback
        throw error

theorem afterFlush_id (payment : PaymentRecord) (next : PaymentState) (current : Instant) :
    (afterFlush payment (payment.withState next current)).id = payment.id := by
  unfold afterFlush
  split <;> rfl

/-- The service is the batch whose events are the producer's. -/
theorem expireDuePaymentsBy_eq (hex : String → String) (now : Datetime) (limit : Int) :
    expireDuePaymentsBy (fun changed => Service.flush
      (insertWebhookEvent (createOutboxEvent changed .expired (hex changed.id)))) now limit =
      expireDuePayments now limit hex := by
  have heach : ∀ current due, expireEachBy (fun changed => Service.flush
      (insertWebhookEvent (createOutboxEvent changed .expired (hex changed.id)))) current due =
        expireEach current hex due := by
    intro current due
    induction due with
    | nil => rfl
    | cons p rest ih =>
      unfold expireEachBy expireEach
      rw [ih]
      simp only [afterFlush_id]
      rfl
  unfold expireDuePaymentsBy expireDuePayments
  simp only [heach]

/-- An event that cannot be created, for some payment of a block, on whatever session it is tried. -/
def FailsAmong (block : List PaymentRecord) : Prop :=
  ∃ p ∈ block, ∀ changed s, changed.id = p.id → ∃ e s', create changed s = (.error e, s')

variable {create}

/-- One failure fails the batch. -/
theorem expireEachBy_fails (current : Instant) : ∀ {due : List PaymentRecord}, FailsAmong create due →
    ∀ s, ∃ e s', expireEachBy create current due s = (.error e, s') := by
  intro due
  induction due with
  | nil =>
    rintro ⟨p, hp, _⟩
    cases hp
  | cons q rest ih =>
    rintro ⟨p, hp, fails⟩ s
    cases hcall : expireEachBy create current (q :: rest) s with
    | mk r s' =>
      cases r with
      | error e => exact ⟨e, s', rfl⟩
      | ok u =>
        exfalso
        obtain ⟨_, s₁, hone, hrest⟩ := bind_eq_ok hcall
        rcases List.mem_cons.mp hp with rfl | hp
        · have hone := tryCatch_eq_ok (fun e t => by split <;> exact ⟨_, _, rfl⟩) hone
          obtain ⟨_, _, _, h₁⟩ := bind_eq_ok hone
          obtain ⟨next, _, _, h₂⟩ := bind_eq_ok h₁
          obtain ⟨_, s₂, _, hcreate⟩ := bind_eq_ok h₂
          obtain ⟨e, s₃, herror⟩ := fails _ s₂ (afterFlush_id p next current)
          cases hcreate.symm.trans herror
        · obtain ⟨e, s₂, herror⟩ := ih ⟨p, hp, fails⟩ s₁
          cases hrest.symm.trans herror

theorem silent_expireEachBy (silent : ∀ changed, Silent (create changed)) :
    ∀ due : List PaymentRecord, Silent (expireEachBy create current due)
  | [] => silent_pure _
  | payment :: rest => by
    refine Silent.bind (Silent.tryCatch ?_ fun e => ?_) fun _ => silent_expireEachBy silent rest
    · exact (silent_liftDomain _).bind fun _ => (silent_liftDomain _).bind fun _ =>
        (silent_flush _).bind fun _ => silent _
    · split <;> exact silent_throw _

/-- **A batch is one transaction**: when the event of one of its payments cannot be created, the call
raises and leaves the store as it was. -/
theorem expireDuePaymentsBy_fails {limit : Int} {db : Database} {identity : IdentityMap}
    (hlimit : 1 ≤ limit ∧ limit ≤ maxExpiryBatchSize) (silent : ∀ changed, Silent (create changed))
    (fails : FailsAmong create ((allDue db current).take limit.toNat)) :
    ∃ e s', expireDuePaymentsBy create (.aware current) limit (Session.start db identity) =
      (.error e, s') ∧ s'.committed = db ∧ s'.working = db := by
  obtain ⟨e, s₁, heach⟩ := expireEachBy_fails current fails
    { coordinated (Session.start db identity) with begun := true }
  have hsame : s₁.committed = db := (silent_expireEachBy silent _).committed heach
  refine ⟨e, { s₁ with working := s₁.committed, begun := false, reserved := false, identity := ∅ },
    ?_, hsame, hsame⟩
  unfold expireDuePaymentsBy
  rw [bind_ok (show requireAwareUtc (.aware current) _ (Session.start db identity) =
    (.ok current, Session.start db identity) from rfl)]
  rw [if_neg (not_not.mpr hlimit), bind_ok (beginCoordinatedWrite_apply _),
    bind_ok (query_apply _ _)]
  exact (tryCatch_error (bind_error heach)).trans rfl

end Failure

/-! ## Consecutive sweeps -/

section Sweeps

variable (current : Instant) (limit : Int) (hexes : Nat → String → String)
  (identities : Nat → IdentityMap)

/-- The `k`-th sweep on a store, in a session of its own. -/
def sweep (k : Nat) (db : Database) : Except ServiceError (List String) × DatabaseSession :=
  expireDuePayments (.aware current) limit (hexes k) (Session.start db (identities k))

/-- The store after the first `k` sweeps, with nothing in between. -/
def sweepStore (db : Database) : Nat → Database :=
  Worklist.calls (fun k db => (sweep current limit hexes identities k db).2.committed) db

/-- The draws of every sweep are new to the store, and no draw is repeated, within a sweep or across
sweeps. -/
structure NewSweepDraws (db : Database) : Prop where
  fresh : ∀ k id, db.webhookEvents.get ("evt_" ++ hexes k id) = none
  distinct : ∀ j k id id', hexes j id = hexes k id' → j = k ∧ id = id'

/-- **Bounded sweeps refine one unbounded sweep** of a store: call by call they expire the due
payments block by block, and together they do what a single batch without a bound would have done.
The sweeps follow one another without anything else in between; what a payment gains or loses between
two sweeps is not considered here. -/
structure SweepsRefine (db : Database) : Prop where
  /-- the `k`-th call returns the `k`-th block of the due payments in their order -/
  blocks : ∀ k, (sweep current limit hexes identities k
      (sweepStore current limit hexes identities db k)).1 =
    .ok ((((allDue db current).drop (k * limit.toNat)).take limit.toNat).map (·.id))
  /-- and so far exactly the payments of the first blocks have expired, with one event each -/
  swept : ∀ k, ∃ drawn, Swept current ((allDue db current).take (k * limit.toNat)) drawn db
    (sweepStore current limit hexes identities db k)
  /-- enough calls leave none, and further ones change nothing -/
  drained : ∀ k, Worklist.callsFor (allDue db current).length limit.toNat ≤ k →
    allDue (sweepStore current limit hexes identities db k) current = [] ∧
      (sweep current limit hexes identities k (sweepStore current limit hexes identities db k)).1 =
        .ok [] ∧
      sweepStore current limit hexes identities db (k + 1) =
        sweepStore current limit hexes identities db k
  /-- the store is then that of one batch of all of them, up to generated event ids -/
  whole : ∀ k, Worklist.callsFor (allDue db current).length limit.toNat ≤ k →
    ∀ hex identity, NewDraws db hex → ∃ s', expireAllDue current hex (Session.start db identity) =
        (.ok ((allDue db current).map (·.id)), s') ∧
      SameUpToEventIds (sweepStore current limit hexes identities db k) s'.committed

variable {current limit hexes identities} {db : Database}

theorem NewSweepDraws.draws {hexes : Nat → String → String} (new : NewSweepDraws hexes db) {k : Nat}
    {due : List PaymentRecord} {drawn : List String} {db' : Database}
    (swept : Swept current due drawn db db')
    (earlier : ∀ hex ∈ drawn, ∃ j < k, ∃ id, hex = hexes j id) : NewDraws db' (hexes k) := by
  refine ⟨fun id => swept.fresh (new.fresh k id) fun hin => ?_,
    fun id id' heq => (new.distinct k k id id' heq).2⟩
  obtain ⟨j, hj, id', heq⟩ := earlier _ hin
  have := (new.distinct k j id id' heq).1
  omega

/-- What holds after `k` sweeps: the first blocks have expired under draws of these sweeps. -/
structure SweptUntil (current : Instant) (limit : Int) (hexes : Nat → String → String)
    (start : Database) (k : Nat) (db : Database) : Prop where
  consistent : Consistent db
  swept : ∃ drawn, Swept current ((allDue start current).take (k * limit.toNat)) drawn start db ∧
    ∀ hex ∈ drawn, ∃ j < k, ∃ id, hex = hexes j id

/-- One more sweep. -/
theorem SweptUntil.next (identities : Nat → IdentityMap) {start : Database} {k : Nat}
    (new : NewSweepDraws hexes start)
    (hlimit : 1 ≤ limit ∧ limit ≤ maxExpiryBatchSize)
    (h : SweptUntil current limit hexes start k db) :
    (sweep current limit hexes identities k db).1 =
        .ok ((((allDue start current).drop (k * limit.toNat)).take limit.toNat).map (·.id)) ∧
      SweptUntil current limit hexes start (k + 1)
        (sweep current limit hexes identities k db).2.committed := by
  obtain ⟨drawn, swept, earlier⟩ := h.swept
  obtain ⟨s', hcall, block⟩ := expireDuePayments_accepted current (identities k)
    h.consistent (new.draws swept earlier) hlimit
  rw [swept.allDue] at hcall block
  have hsweep : sweep current limit hexes identities k db = (_, s') := hcall
  rw [hsweep]
  refine ⟨rfl, expireDuePayments_consistent h.consistent hcall, drawn ++ (((allDue start
    current).drop (k * limit.toNat)).take limit.toNat).map (fun p => hexes k p.id), ?_,
    fun hex hin => ?_⟩
  · rw [Worklist.take_succ_mul]
    exact swept.append block fun p hp =>
      (mem_allDue.mp (List.mem_of_mem_drop (List.mem_of_mem_take hp))).2.1
  · rcases List.mem_append.mp hin with hold | hnew
    · obtain ⟨j, hj, id, heq⟩ := earlier hex hold
      exact ⟨j, by omega, id, heq⟩
    · obtain ⟨p, _, rfl⟩ := List.mem_map.mp hnew
      exact ⟨k, by omega, p.id, rfl⟩

/-- The refinement, of a store whose accounts have lived. -/
theorem Consistent.sweepsRefine (consistent : Consistent db) (new : NewSweepDraws hexes db)
    (hlimit : 1 ≤ limit ∧ limit ≤ maxExpiryBatchSize) :
    SweepsRefine current limit hexes identities db := by
  have positive : 0 < limit.toNat := by omega
  have start : SweptUntil current limit hexes db 0 db :=
    ⟨consistent, [], by simpa using Swept.refl current db, fun _ h => absurd h List.not_mem_nil⟩
  have sofar : ∀ k, SweptUntil current limit hexes db k
      (sweepStore current limit hexes identities db k) :=
    Worklist.calls_induction start fun k t h => (h.next identities new hlimit).2
  have blocks := fun k => ((sofar k).next identities new hlimit).1
  have left : ∀ k, allDue (sweepStore current limit hexes identities db k) current =
      (allDue db current).drop (k * limit.toNat) := by
    intro k
    obtain ⟨drawn, swept, _⟩ := (sofar k).swept
    exact swept.allDue
  refine ⟨blocks, fun k => ?_, fun k hk => ?_, fun k hk hex identity new' => ?_⟩
  · obtain ⟨drawn, swept, _⟩ := (sofar k).swept
    exact ⟨drawn, swept⟩
  · have hnil := Worklist.drop_eq_nil_of_callsFor_le positive hk
    refine ⟨(left k).trans hnil, ?_, ?_⟩
    · rw [blocks k, hnil]
      simp
    · -- a call with nothing due is a batch of nothing
      obtain ⟨drawn, swept, earlier⟩ := (sofar k).swept
      obtain ⟨s', hcall, block⟩ := expireDuePayments_accepted current (identities k)
        (sofar k).consistent (new.draws swept earlier) hlimit
      rw [left k, hnil] at block
      have hsame : s'.committed = sweepStore current limit hexes identities db k := by
        have hpayments : s'.committed.payments.rows =
            (sweepStore current limit hexes identities db k).payments.rows := by
          rw [block.payments]
          simp [expireAmong_nil]
        have hevents : s'.committed.webhookEvents.rows =
            (sweepStore current limit hexes identities db k).webhookEvents.rows := by
          rw [block.events]
          simp
        rw [← block.rest, ← Table.ext hpayments, ← Table.ext hevents]
      show (sweep current limit hexes identities k
        (sweepStore current limit hexes identities db k)).2.committed = _
      have hsweep : sweep current limit hexes identities k
        (sweepStore current limit hexes identities db k) = (_, s') := hcall
      rw [hsweep]
      exact hsame
  · obtain ⟨s', hcall, whole⟩ := expireAllDue_accepted current identity consistent new'
    obtain ⟨drawn, swept, _⟩ := (sofar k).swept
    rw [List.take_of_length_le (Worklist.le_mul_of_callsFor_le positive hk)] at swept
    exact ⟨s', hcall, swept.same whole⟩

end Sweeps

section Execution

variable {ι : Type} [DecidableEq ι] {sha256 : String → String}
  {ts : List (Pool.Transition Database ι (Option Client))}
  {v : Pool.World Database ι (Option Client)}

/-- **Bounded expiry sweeps refine one unbounded sweep** of every reachable store, and a block whose
events cannot all be created leaves the store as it was. -/
theorem sweeps_refine (h : Execution sha256 ts v) (current : Instant) {limit : Int}
    (hlimit : 1 ≤ limit ∧ limit ≤ maxExpiryBatchSize) {hexes : Nat → String → String}
    (identities : Nat → IdentityMap) (new : NewSweepDraws hexes v.shared) :
    SweepsRefine current limit hexes identities v.shared ∧
      ∀ k create, (∀ changed, Silent (create changed)) →
        FailsAmong create
          (((allDue v.shared current).drop (k * limit.toNat)).take limit.toNat) →
        ∃ e s', expireDuePaymentsBy create (.aware current) limit
            (Session.start (sweepStore current limit hexes identities v.shared k) (identities k)) =
          (.error e, s') ∧
          s'.committed = sweepStore current limit hexes identities v.shared k ∧
          s'.working = s'.committed := by
  have refines : SweepsRefine current limit hexes identities v.shared :=
    h.consistent.sweepsRefine new hlimit
  refine ⟨refines, fun k create silent fails => ?_⟩
  obtain ⟨drawn, swept⟩ := refines.swept k
  rw [← swept.allDue] at fails
  obtain ⟨e, s', hcall, hcommitted, hworking⟩ := expireDuePaymentsBy_fails hlimit silent fails
  exact ⟨e, s', hcall, hcommitted, hworking.trans hcommitted.symm⟩

end Execution

/-! ## Two invoices -/

/-- Two invoices, of which the second is due first. -/
def invoices : List Request :=
  [.authorize ⟨"order-3", 700, .usd, .awaitConfirmation⟩ "invoice-2" none (.aware (-1))
    ⟨"2", "2", "2", "2"⟩]

/-- The store two invoices leave. -/
def invoicesStore : Database := (Request.calls id (invoice :: invoices) (.empty, ∅)).1

/-- Draws that mark the sweep and the payment. -/
def markedDraws (k : Nat) (id : String) : String :=
  String.ofList (List.replicate k 'x' ++ '-' :: id.toList)

theorem replicate_append_inj : ∀ {j k : Nat} {as bs : List Char},
    List.replicate j 'x' ++ '-' :: as = List.replicate k 'x' ++ '-' :: bs → j = k ∧ as = bs
  | 0, 0, _, _, h => ⟨rfl, (List.cons.inj h).2⟩
  | 0, _ + 1, _, _, h => by simp [List.replicate_succ] at h
  | _ + 1, 0, _, _, h => by simp [List.replicate_succ] at h
  | j + 1, k + 1, as, bs, h => by
    simp only [List.replicate_succ, List.cons_append, List.cons.injEq, true_and] at h
    obtain ⟨hjk, has⟩ := replicate_append_inj h
    exact ⟨congrArg (· + 1) hjk, has⟩

theorem markedDraws_inj {j k : Nat} {id id' : String} (h : markedDraws j id = markedDraws k id') :
    j = k ∧ id = id' := by
  have := congrArg String.toList h
  simp only [markedDraws, String.toList_ofList] at this
  obtain ⟨hjk, hid⟩ := replicate_append_inj this
  exact ⟨hjk, String.toList_inj.mp hid⟩

theorem markedDraws_ne {k : Nat} {id : String} : markedDraws k id ≠ "1" ∧ markedDraws k id ≠ "2" := by
  constructor <;> intro h <;> have := congrArg String.toList h <;>
    cases k <;> simp [markedDraws, List.replicate_succ] at this

theorem invoicesStore_newDraws : NewSweepDraws markedDraws invoicesStore := by
  refine ⟨fun k id => Table.get_eq_none.mpr fun event mem hid => ?_,
    fun j k id id' heq => markedDraws_inj heq⟩
  have ids : ∀ event ∈ invoicesStore.webhookEvents.rows,
      event.id = "evt_" ++ "1" ∨ event.id = "evt_" ++ "2" := by decide +kernel
  have hid : event.id = "evt_" ++ markedDraws k id := hid
  rcases ids event mem with h | h <;> rw [h] at hid
  · exact markedDraws_ne.1 ((String.append_right_inj _).mp hid).symm
  · exact markedDraws_ne.2 ((String.append_right_inj _).mp hid).symm

/-- Two sweeps of one payment each expire the invoices in the order of their deadlines. -/
theorem invoices_swept :
    (sweep (hours 72) 1 markedDraws (fun _ => ∅) 1
      (sweepStore (hours 72) 1 markedDraws (fun _ => ∅) invoicesStore 1)).1 = .ok ["pay_1"] ∧
      allDue (sweepStore (hours 72) 1 markedDraws (fun _ => ∅) invoicesStore 2) (hours 72) = [] := by
  obtain ⟨ts, last, h⟩ := Execution.of_calls id invoice invoices
  have refines : SweepsRefine (hours 72) 1 markedDraws (fun _ => ∅) invoicesStore :=
    (sweeps_refine h (hours 72) (by decide) (fun _ => ∅) invoicesStore_newDraws).1
  have ids : ((allDue invoicesStore (hours 72)).map (·.id)) = ["pay_2", "pay_1"] := by decide +kernel
  have two : (allDue invoicesStore (hours 72)).length = 2 := by
    simpa using congrArg List.length ids
  refine ⟨(refines.blocks 1).trans ?_, (refines.drained 2 ?_).1⟩
  · show Except.ok (((allDue invoicesStore (hours 72)).drop (1 * 1)).take 1 |>.map (·.id)) = _
    rw [List.map_take, List.map_drop, ids]
    rfl
  · show Worklist.callsFor (allDue invoicesStore (hours 72)).length 1 ≤ 2
    rw [two]
    decide

end PaymentLab
