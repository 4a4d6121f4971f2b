import PaymentLab.Consumer.Wire
import PaymentLab.Laws.Idempotency
import PaymentLab.Library.Lists
import PaymentLab.Library.Tally
import PaymentLab.Migrations.Legacy

/-!
# The legacy upgrade

Three writers meet in the snapshot column: the service, the migration, and the reader that supplies
what the migration did not write. A legacy claim comes out of the two revisions under its key, with its
fingerprint and payment, and a snapshot that reads back as the upgraded payment
(`deserialize_serializeSnapshot`); so the service replays it (`legacy_preserved`).

What the legacy rows contain is not restricted beyond the constraints of their own schema, the
checks of the rebuilt table and the texts of their times. The snapshot of a claim is written from
the payment row at the upgrade, since the response of the first execution was never stored: a replay
after the upgrade therefore answers with the payment as it was upgraded, not as it was first
answered. From then on it is fixed, whatever becomes of the row.
-/

namespace PaymentLab

open Relational Transactional Transactional.Service

/-! ## The snapshot format -/

section Format

variable {loads : String → Option CanonicalJson.Value}
  {fromIsoformat : String → Except IsoFault Datetime}

theorem memberOf_declineReason (reason : DeclineReason) :
    Json.memberOf DeclineReason.all DeclineReason.value reason.value = some reason := by
  cases reason <;> rfl

@[simp] theorem str_str (text : String) : StoredSnapshot.str (.str text) = some text := rfl

@[simp] theorem int_int (i : Int) : StoredSnapshot.int (.int i) = some i := rfl

/-- A nullable text is read back. -/
theorem optionalField_of_field {values : List (String × CanonicalJson.Value)} {name : String}
    {text : Option String} (h : StoredSnapshot.field values name = some (optionalText text)) :
    StoredSnapshot.optionalField values name = text.map CanonicalJson.Value.str := by
  unfold StoredSnapshot.optionalField
  rw [h]
  cases text <;> rfl

/-- A stored decline reason is read back. -/
theorem snapshotDeclineReason_of_field {values : List (String × CanonicalJson.Value)}
    {reason : Option DeclineReason} (h : StoredSnapshot.field values "decline_reason" =
      some (optionalText (reason.map DeclineReason.value))) :
    snapshotDeclineReason values = some reason := by
  unfold snapshotDeclineReason
  rw [optionalField_of_field h]
  cases reason with
  | none => rfl
  | some reason => simp [memberOf_declineReason]

/-- A stored deadline is read back. -/
theorem snapshotExpiresAt_of_field {values : List (String × CanonicalJson.Value)}
    {text : Option String}
    (h : StoredSnapshot.field values "expires_at" = some (optionalText text)) :
    snapshotExpiresAt fromIsoformat values = readOptionalIso fromIsoformat text := by
  unfold snapshotExpiresAt
  rw [optionalField_of_field h]
  cases text <;> rfl

/-- A stored reference is read back. -/
theorem optionalTextField_of_field {values : List (String × CanonicalJson.Value)} {name : String}
    {text : Option String} (h : StoredSnapshot.field values name = some (optionalText text)) :
    StoredSnapshot.optionalTextField values name = some text := by
  unfold StoredSnapshot.optionalTextField
  rw [optionalField_of_field h]
  cases text <;> rfl

/-- The texts of the times of a snapshot read as its instants. -/
structure SnapshotTimes.Read (fromIsoformat : String → Except IsoFault Datetime)
    (times : SnapshotTimes) (snapshot : PaymentSnapshot) : Prop where
  createdAt : readIso fromIsoformat times.createdAt = some snapshot.createdAt
  updatedAt : readIso fromIsoformat times.updatedAt = some snapshot.updatedAt
  expiresAt : readOptionalIso fromIsoformat times.expiresAt = some snapshot.expiresAt

/-- **The service's format**: a serialized snapshot is read back as it was. -/
theorem deserialize_serialize {snapshot : PaymentSnapshot} {times : SnapshotTimes}
    (back : loads (snapshot.serialize times) = some (.obj (snapshot.documentFields times)))
    (read : times.Read fromIsoformat snapshot) :
    PaymentSnapshot.deserialize loads fromIsoformat (snapshot.serialize times) =
      some snapshot := by
  have hflow : snapshotFlow (snapshot.documentFields times) = some snapshot.paymentFlow :=
    memberOf_flow snapshot.paymentFlow
  have hreference : StoredSnapshot.optionalTextField (snapshot.documentFields times)
      "payment_reference" = some snapshot.paymentReference := optionalTextField_of_field rfl
  have hexpiry : snapshotExpiresAt fromIsoformat (snapshot.documentFields times) =
      some snapshot.expiresAt := (snapshotExpiresAt_of_field rfl).trans read.expiresAt
  have hreason : snapshotDeclineReason (snapshot.documentFields times) =
      some snapshot.declineReason := snapshotDeclineReason_of_field rfl
  unfold PaymentSnapshot.deserialize
  rw [back]
  simp only [readSnapshotValues, hflow, hreference, hexpiry, hreason]
  simp [StoredSnapshot.text, StoredSnapshot.number, StoredSnapshot.plainText, StoredSnapshot.field,
    PaymentSnapshot.documentFields, memberOf_currency, memberOf_status, read.createdAt,
    read.updatedAt]

/-- **The migration's format**: the snapshot of a raw row is read back as that row, with the defaults
for the fields the migration does not write. -/
theorem deserialize_serializeSnapshot {p : RawPayment} {createdAt updatedAt : Instant}
    (back : loads (Revision0002.serializeSnapshot p) =
      some (.obj (Revision0002.snapshotFields p)))
    (created : readIso fromIsoformat p.createdAt = some createdAt)
    (updated : readIso fromIsoformat p.updatedAt = some updatedAt) :
    PaymentSnapshot.deserialize loads fromIsoformat (Revision0002.serializeSnapshot p) =
      some
        { id := p.id
          merchantReference := p.merchantReference
          amount := p.amount
          currency := p.currency
          status := p.status
          paymentFlow := .synchronous
          paymentReference := none
          expiresAt := none
          declineReason := p.declineReason
          authorizedAmount := p.authorizedAmount
          capturedAmount := p.capturedAmount
          refundedAmount := p.refundedAmount
          version := p.version
          createdAt := createdAt
          updatedAt := updatedAt } := by
  have hflow : snapshotFlow (Revision0002.snapshotFields p) = some .synchronous := rfl
  have hreference : StoredSnapshot.optionalTextField (Revision0002.snapshotFields p)
      "payment_reference" = some none := rfl
  have hexpiry : snapshotExpiresAt fromIsoformat (Revision0002.snapshotFields p) = some none := rfl
  have hreason : snapshotDeclineReason (Revision0002.snapshotFields p) = some p.declineReason :=
    snapshotDeclineReason_of_field rfl
  unfold PaymentSnapshot.deserialize
  rw [back]
  simp only [readSnapshotValues, hflow, hreference, hexpiry, hreason]
  simp [StoredSnapshot.text, StoredSnapshot.number, StoredSnapshot.plainText, StoredSnapshot.field,
    Revision0002.snapshotFields, memberOf_currency, memberOf_status, created, updated]

end Format

/-! ## The revisions on a legacy database -/

/-- **A known legacy database**: the tables before the two revisions, under their primary keys, the
unique payment of a claim and its foreign key. These are the constraints that the legacy schema
itself enforced; that the values in the rows are sensible is not among them. -/
structure RawDatabase.Legacy (db : RawDatabase) : Prop where
  payments : ∀ name ∈ ["decline_reason", "payment_flow", "payment_reference", "expires_at"],
    db.payments.hasColumn name = false
  projections : ∀ name ∈ ["decline_reason", "payment_flow", "payment_reference", "expires_at"],
    db.projections.hasColumn name = false
  idempotencyRecords : ∀ name ∈ ["operation", "response_snapshot"],
    db.idempotencyRecords.hasColumn name = false
  paymentIds : (db.payments.rows.map (·.id)).Nodup
  projectionIds : (db.projections.rows.map (·.paymentId)).Nodup
  keys : (db.idempotencyRecords.rows.map (·.key)).Nodup
  claims : (db.idempotencyRecords.rows.map (·.paymentId)).Nodup
  refers : ∀ i ∈ db.idempotencyRecords.rows, ∃ p ∈ db.payments.rows, i.paymentId = some p.id

/-- The balances and version of a payment satisfy the checks of the rebuilt table. A row that fails
one of them makes the revision fail, so that they are asked for. -/
structure RawPayment.Admissible (p : RawPayment) : Prop where
  amount : 0 < p.amount
  authorized : 0 ≤ p.authorizedAmount ∧ p.authorizedAmount ≤ p.amount
  captured : 0 ≤ p.capturedAmount ∧ p.capturedAmount ≤ p.authorizedAmount
  refunded : 0 ≤ p.refundedAmount ∧ p.refundedAmount ≤ p.capturedAmount
  version : 1 ≤ p.version

instance (p : RawPayment) : Decidable p.Admissible :=
  decidable_of_iff (0 < p.amount ∧ (0 ≤ p.authorizedAmount ∧ p.authorizedAmount ≤ p.amount) ∧
      (0 ≤ p.capturedAmount ∧ p.capturedAmount ≤ p.authorizedAmount) ∧
      (0 ≤ p.refundedAmount ∧ p.refundedAmount ≤ p.capturedAmount) ∧ 1 ≤ p.version)
    ⟨fun h => ⟨h.1, h.2.1, h.2.2.1, h.2.2.2.1, h.2.2.2.2⟩,
      fun h => ⟨h.amount, h.authorized, h.captured, h.refunded, h.version⟩⟩

/-- A payment after revision 0002. -/
def RawPayment.explained (p : RawPayment) : RawPayment :=
  { p with declineReason := Revision0002.declinedReason p.status none }

/-- A payment after both revisions. -/
def RawPayment.upgraded (p : RawPayment) : RawPayment :=
  { p.explained with
    paymentFlow := some .synchronous
    paymentReference := none
    expiresAt := none }

/-- A projection after both revisions. -/
def RawProjection.upgraded (p : RawProjection) : RawProjection :=
  { p with
    declineReason := Revision0002.declinedReason p.status none
    paymentFlow := some .synchronous
    paymentReference := none
    expiresAt := none }

section Upgrade

/-- The checks of a batch accept the rows of a table, or refuse one of them. -/
theorem createChecks_eq (checks : List (String × (RawPayment → Bool))) :
    ∀ t : RawTable RawPayment, Revision0002.createChecks t checks =
      if ∀ c ∈ checks, ∀ p ∈ t.rows, c.2 p = true then
        .ok { t with checks := t.checks ++ checks.map (·.1) }
      else .error .integrityError := by
  induction checks with
  | nil =>
    intro t
    simp [Revision0002.createChecks]
  | cons c rest ih =>
    intro t
    obtain ⟨name, condition⟩ := c
    unfold Revision0002.createChecks RawTable.createCheck
    by_cases hall : ∀ p ∈ t.rows, condition p = true
    · rw [if_pos (List.all_eq_true.mpr hall)]
      show Revision0002.createChecks { t with checks := t.checks ++ [name] } rest = _
      rw [ih]
      by_cases hrest : ∀ c ∈ rest, ∀ p ∈ t.rows, c.2 p = true
      · rw [if_pos hrest, if_pos (List.forall_mem_cons.mpr ⟨hall, hrest⟩)]
        simp
      · rw [if_neg hrest, if_neg fun h => hrest (List.forall_mem_cons.mp h).2]
    · rw [if_neg fun h => hall (List.all_eq_true.mp h),
        if_neg fun h => hall (List.forall_mem_cons.mp h).1]
      rfl

/-- The checks of revision 0002 on a payment it has explained. -/
theorem paymentChecks_iff (p : RawPayment) :
    (∀ c ∈ Revision0002.paymentChecks, c.2 p.explained = true) ↔ p.Admissible := by
  have hreason : (decide (p.status = .declined) ==
      (Revision0002.declinedReason p.status none).isSome) = true := by
    cases hstatus : p.status <;> rfl
  simp only [Revision0002.paymentChecks, List.forall_mem_cons, List.not_mem_nil, false_imp_iff,
    implies_true, and_true, RawPayment.explained, hreason, decide_eq_true_eq, true_and]
  constructor
  · rintro ⟨hamount, hauthorized, hcaptured, hrefunded, hversion⟩
    exact ⟨hamount, hauthorized, hcaptured, hrefunded, hversion⟩
  · intro h
    exact ⟨h.amount, h.authorized, h.captured, h.refunded, h.version⟩

/-! ### Columns -/

section Columns

variable {α : Type} {t : RawTable α} {fill : α → α}

@[simp] theorem hasColumn_addColumn (name other : String) :
    (t.addColumn name fill).hasColumn other = (t.hasColumn other || decide (other = name)) := by
  simp [RawTable.addColumn, RawTable.hasColumn]

theorem ensureColumn_missing {name : String} (h : t.hasColumn name = false) :
    Revision0003.ensureColumn t name fill = t.addColumn name fill := by
  unfold Revision0003.ensureColumn
  rw [h]
  rfl

theorem ensureColumn_present {name : String} (h : t.hasColumn name = true) :
    Revision0003.ensureColumn t name fill = t := by
  unfold Revision0003.ensureColumn
  rw [h]
  rfl

end Columns

/-- The three columns of a flow are missing. -/
def LacksFlow {α : Type} (t : RawTable α) : Prop :=
  t.hasColumn "payment_flow" = false ∧ t.hasColumn "payment_reference" = false ∧
    t.hasColumn "expires_at" = false

/-- The three columns of a flow are there. -/
def HasFlow {α : Type} (t : RawTable α) : Prop :=
  t.hasColumn "payment_flow" = true ∧ t.hasColumn "payment_reference" = true ∧
    t.hasColumn "expires_at" = true

section Columns

variable {α : Type} {t : RawTable α} {flow reference deadline : α → α}

theorem ensureFlow_missing (h : LacksFlow t) :
    Revision0003.ensureColumn (Revision0003.ensureColumn
        (Revision0003.ensureColumn t "payment_flow" flow) "payment_reference" reference)
        "expires_at" deadline =
      { t with
        columns := t.columns ++ ["payment_flow"] ++ ["payment_reference"] ++ ["expires_at"]
        rows := ((t.rows.map flow).map reference).map deadline } := by
  obtain ⟨hflow, hreference, hexpires⟩ := h
  have hreference' : (t.addColumn "payment_flow" flow).hasColumn "payment_reference" = false := by
    simp [hreference]
  have hexpires' : ((t.addColumn "payment_flow" flow).addColumn "payment_reference"
      reference).hasColumn "expires_at" = false := by simp [hexpires]
  rw [ensureColumn_missing hflow, ensureColumn_missing hreference', ensureColumn_missing hexpires']
  rfl

theorem ensureFlow_present (h : HasFlow t) :
    Revision0003.ensureColumn (Revision0003.ensureColumn
        (Revision0003.ensureColumn t "payment_flow" flow) "payment_reference" reference)
        "expires_at" deadline = t := by
  obtain ⟨hflow, hreference, hexpires⟩ := h
  rw [ensureColumn_present hflow, ensureColumn_present hreference, ensureColumn_present hexpires]

end Columns

/-! ### Constraints -/

/-- A table with the constraints of a flow. -/
def Constrained (t : RawTable RawPayment) : Prop :=
  t.checks.contains "ck_payment_flow_supported" = true ∧
    t.checks.contains "ck_payment_flow_metadata" = true ∧
    Revision0003.hasUniquePaymentReference t = true

/-- A check that every row satisfies is there afterwards, and nothing else changes. -/
theorem ensureCheck_ok {t : RawTable RawPayment} {condition : RawPayment → Bool} (name : String)
    (h : ∀ p ∈ t.rows, condition p = true) :
    ∃ checks, Revision0003.ensureCheck t name condition = .ok { t with checks := checks } ∧
      checks.contains name = true ∧ ∀ other, t.checks.contains other = true →
        checks.contains other = true := by
  unfold Revision0003.ensureCheck RawTable.createCheck
  by_cases hname : t.checks.contains name = true
  · exact ⟨t.checks, by rw [if_pos hname], hname, fun _ => id⟩
  · refine ⟨t.checks ++ [name], ?_, by simp, fun other hother => ?_⟩
    · rw [if_neg hname, if_pos (List.all_eq_true.mpr h)]
    · simp [List.contains_iff_mem.mp hother]

/-- Synchronous rows satisfy every constraint of a flow. -/
theorem upgradePayments_ok {t : RawTable RawPayment}
    (h : ∀ p ∈ (Revision0003.withFlowColumns t).rows,
      p.paymentFlow = some .synchronous ∧ p.paymentReference = none ∧ p.expiresAt = none) :
    ∃ t', Revision0003.upgradePayments t = .ok t' ∧
      t'.rows = (Revision0003.withFlowColumns t).rows ∧
      t'.columns = (Revision0003.withFlowColumns t).columns ∧ Constrained t' := by
  unfold Revision0003.upgradePayments
  generalize Revision0003.withFlowColumns t = u at h ⊢
  by_cases hall : u.checks.contains "ck_payment_flow_supported" &&
      u.checks.contains "ck_payment_flow_metadata" && Revision0003.hasUniquePaymentReference u
  · simp only [hall, if_true]
    simp only [Bool.and_eq_true] at hall
    exact ⟨u, rfl, rfl, rfl, hall.1.1, hall.1.2, hall.2⟩
  · simp only [hall, Bool.false_eq_true, if_false]
    have hflows : ∀ p ∈ u.rows, Revision0003.flowSupported p = true := by
      intro p hp
      simp [Revision0003.flowSupported, (h p hp).1]
    obtain ⟨supported, hsupported, hname, _⟩ := ensureCheck_ok "ck_payment_flow_supported" hflows
    have hmetadata : ∀ p ∈ ({ u with checks := supported } : RawTable RawPayment).rows,
        Revision0003.flowMetadata p = true := by
      intro p hp
      obtain ⟨hflow, hreference, hexpires⟩ := h p hp
      simp [Revision0003.flowMetadata, hflow, hreference, hexpires]
    obtain ⟨metadata, hmetadata, hname', hkept⟩ := ensureCheck_ok "ck_payment_flow_metadata" hmetadata
    rw [hsupported]
    simp only [bind, Except.bind, hmetadata]
    by_cases hunique : Revision0003.hasUniquePaymentReference u = true
    · have hsame : Revision0003.hasUniquePaymentReference { u with checks := metadata } = true :=
        hunique
      rw [if_pos hsame]
      exact ⟨_, rfl, rfl, rfl, hkept _ hname, hname', hsame⟩
    · have hsame : ¬Revision0003.hasUniquePaymentReference { u with checks := metadata } = true :=
        hunique
      have hnone : u.rows.filterMap (·.paymentReference) = [] :=
        List.filterMap_eq_nil_iff.mpr fun p hp => (h p hp).2.1
      rw [if_neg hsame]
      unfold RawTable.createUnique
      rw [if_pos (show (List.filterMap _ _).Nodup by rw [hnone]; exact List.nodup_nil)]
      exact ⟨_, rfl, rfl, rfl, hkept _ hname, hname',
        by simp [Revision0003.hasUniquePaymentReference]⟩

/-! ### The two revisions -/

/-- The payments table after revision 0002. -/
def explainedPayments (t : RawTable RawPayment) : RawTable RawPayment :=
  { t with
    columns := t.columns ++ ["decline_reason"]
    checks := t.checks ++ Revision0002.paymentChecks.map (·.1)
    rows := t.rows.map RawPayment.explained }

theorem upgradePaymentDeclineReason_legacy {t : RawTable RawPayment}
    (legacy : t.hasColumn "decline_reason" = false) :
    Revision0002.upgradePaymentDeclineReason t =
      if ∀ p ∈ t.rows, p.Admissible then .ok (explainedPayments t)
      else .error .integrityError := by
  unfold Revision0002.upgradePaymentDeclineReason
  rw [legacy]
  simp only [Bool.false_eq_true, if_false]
  have hiff : (∀ c ∈ Revision0002.paymentChecks, ∀ p ∈ t.rows.map RawPayment.explained,
      c.2 p = true) ↔ ∀ p ∈ t.rows, p.Admissible := by
    constructor
    · intro h p hp
      exact (paymentChecks_iff p).mp fun c hc => h c hc _ (List.mem_map_of_mem hp)
    · intro h c hc p hp
      obtain ⟨q, hq, rfl⟩ := List.mem_map.mp hp
      exact (paymentChecks_iff q).mpr (h q hq) c hc
  by_cases hall : ∀ p ∈ t.rows, p.Admissible
  · rw [if_pos hall]
    exact (createChecks_eq _ _).trans (if_pos (hiff.mpr hall))
  · rw [if_neg hall]
    exact (createChecks_eq _ _).trans (if_neg fun h => hall (hiff.mp h))

/-- A joined claim: the record beside the one payment it names. -/
def Joined (payments : List RawPayment) (i : RawIdempotency)
    (row : RawIdempotency × RawPayment) : Prop :=
  row.1 = i ∧ ∃ p ∈ payments, i.paymentId = some p.id ∧ row.2 = p.explained

/-- The join has one row for each claim, in their order. -/
theorem claimedPayments_joined {payments : List RawPayment}
    (ids : (payments.map (·.id)).Nodup) : ∀ {records : List RawIdempotency},
    (∀ i ∈ records, ∃ p ∈ payments, i.paymentId = some p.id) →
    List.Forall₂ (Joined payments) records
      (Revision0002.claimedPayments (payments.map RawPayment.explained) records) := by
  intro records
  induction records with
  | nil => exact fun _ => .nil
  | cons i rest ih =>
    intro refers
    obtain ⟨p, hp, hid⟩ := refers i List.mem_cons_self
    have hone : (payments.map RawPayment.explained).filter
        (fun q => decide (i.paymentId = some q.id)) = [p.explained] := by
      have honce : ((payments.map RawPayment.explained).map (·.id)).count p.id = 1 := by
        rw [List.map_map]
        exact List.count_eq_one_of_mem ids (List.mem_map_of_mem hp)
      obtain ⟨q, hq, hqid, hfilter⟩ := Tally.filter_eq_singleton honce
      obtain ⟨q', hq', rfl⟩ := List.mem_map.mp hq
      have hsame : q' = p := List.inj_on_of_nodup_map ids hq' hp hqid
      rw [← hsame, ← hfilter]
      exact List.filter_congr fun x _ => by simp [hid, eq_comm]
    unfold Revision0002.claimedPayments
    rw [List.flatMap_cons, hone, List.map_singleton]
    exact .cons ⟨rfl, p, hp, hid, rfl⟩ (ih fun j hj => refers j (List.mem_cons_of_mem _ hj))

/-- A claim after the upgrade: its key, fingerprint and payment, with the snapshot of the payment. -/
def Reclaimed (payments : List RawPayment) (i r : RawIdempotency) : Prop :=
  ∃ p ∈ payments, i.paymentId = some p.id ∧ r = Revision0002.upgradedRecord i p.explained

theorem upgradeIdempotencyRecords_legacy {payments : List RawPayment} {t : RawTable RawIdempotency}
    (ids : (payments.map (·.id)).Nodup) (legacy : t.hasColumn "operation" = false)
    (keys : (t.rows.map (·.key)).Nodup)
    (refers : ∀ i ∈ t.rows, ∃ p ∈ payments, i.paymentId = some p.id) :
    ∃ rows, List.Forall₂ (Reclaimed payments) t.rows rows ∧
      Revision0002.upgradeIdempotencyRecords (payments.map RawPayment.explained) t =
        .ok
          { columns := Revision0002.idempotencyColumns
            checks := []
            uniques := []
            rows := rows } := by
  let rows := (Revision0002.claimedPayments (payments.map RawPayment.explained) t.rows).map
    fun joined => Revision0002.upgradedRecord joined.1 joined.2
  have hrows : List.Forall₂ (Reclaimed payments) t.rows rows := by
    refine List.forall₂_map_right_iff.mpr ((claimedPayments_joined ids refers).imp ?_)
    rintro i ⟨j, q⟩ ⟨rfl, p, hp, hid, rfl⟩
    exact ⟨p, hp, hid, rfl⟩
  have hkeys : t.rows.map (·.key) = rows.map (·.key) := by
    refine Lists.forall₂_map_eq hrows ?_
    rintro i r ⟨p, _, _, rfl⟩
    rfl
  refine ⟨rows, hrows, ?_⟩
  unfold Revision0002.upgradeIdempotencyRecords
  rw [legacy]
  simp only [Bool.false_and, Bool.false_eq_true, if_false]
  exact if_pos (hkeys ▸ keys)

/-- A database whose tables the revisions find upgraded. -/
structure RawDatabase.Current (db : RawDatabase) : Prop where
  explained : db.payments.hasColumn "decline_reason" = true
  flow : HasFlow db.payments
  constrained : Constrained db.payments
  projectionExplained : db.projections.hasColumn "decline_reason" = true
  projectionFlow : HasFlow db.projections
  operation : db.idempotencyRecords.hasColumn "operation" = true
  responseSnapshot : db.idempotencyRecords.hasColumn "response_snapshot" = true

/-- **Run again, revision 0002 changes nothing.** -/
theorem RawDatabase.Current.revision0002 {db : RawDatabase} (h : db.Current) :
    Revision0002.upgrade db = .ok db := by
  have hpayments : Revision0002.upgradePaymentDeclineReason db.payments = .ok db.payments :=
    if_pos h.explained
  have hprojections : Revision0002.upgradeProjectionDeclineReason db.projections = db.projections :=
    if_pos h.projectionExplained
  have hrecords : Revision0002.upgradeIdempotencyRecords db.payments.rows db.idempotencyRecords =
      .ok db.idempotencyRecords :=
    if_pos (by rw [h.operation, h.responseSnapshot]; rfl)
  simp only [Revision0002.upgrade, hpayments, bind, Except.bind, hprojections, hrecords]
  rfl

/-- **Run again, revision 0003 changes nothing.** -/
theorem RawDatabase.Current.revision0003 {db : RawDatabase} (h : db.Current) :
    Revision0003.upgrade db = .ok db := by
  have hcolumns : Revision0003.withFlowColumns db.payments = db.payments :=
    ensureFlow_present h.flow
  have hpayments : Revision0003.upgradePayments db.payments = .ok db.payments := by
    obtain ⟨hsupported, hmetadata, hunique⟩ := h.constrained
    unfold Revision0003.upgradePayments
    simp only [hcolumns, hsupported, hmetadata, hunique, Bool.and_self, if_true]
  have hprojections : Revision0003.upgradeMerchantProjections db.projections = db.projections :=
    ensureFlow_present h.projectionFlow
  simp only [Revision0003.upgrade, hpayments, bind, Except.bind, hprojections]
  rfl

/-- What the two revisions make of a legacy database. -/
structure Upgraded (db db' : RawDatabase) : Prop where
  payments : db'.payments.rows = db.payments.rows.map RawPayment.upgraded
  projections : db'.projections.rows = db.projections.rows.map RawProjection.upgraded
  records : List.Forall₂ (Reclaimed db.payments.rows) db.idempotencyRecords.rows
    db'.idempotencyRecords.rows
  others : db'.others = db.others
  current : db'.Current

/-- A table that only gained its decline reasons has no flow yet. -/
theorem lacksFlow_of_columns {α : Type} {t u : RawTable α}
    (h : ∀ name ∈ ["decline_reason", "payment_flow", "payment_reference", "expires_at"],
      t.hasColumn name = false) (columns : u.columns = t.columns ++ ["decline_reason"]) :
    LacksFlow u := by
  have hcolumn : ∀ name, t.hasColumn name = false → name ≠ "decline_reason" →
      u.hasColumn name = false := by
    intro name hname hne
    simp only [RawTable.hasColumn, List.contains_eq_mem, decide_eq_false_iff_not] at hname ⊢
    rw [columns]
    simp [hname, hne]
  exact ⟨hcolumn _ (h "payment_flow" (by simp)) (by decide),
    hcolumn _ (h "payment_reference" (by simp)) (by decide),
    hcolumn _ (h "expires_at" (by simp)) (by decide)⟩

/-- The columns a flow adds. -/
def flowColumns : List String := ["payment_flow", "payment_reference", "expires_at"]

theorem withFlowColumns_lacking {t : RawTable RawPayment} (h : LacksFlow t) :
    (Revision0003.withFlowColumns t).columns = t.columns ++ flowColumns ∧
      (Revision0003.withFlowColumns t).rows = t.rows.map fun p =>
        { p with paymentFlow := some .synchronous, paymentReference := none, expiresAt := none } := by
  unfold Revision0003.withFlowColumns
  simp only [ensureFlow_missing h, List.map_map]
  exact ⟨by simp [flowColumns], rfl⟩

theorem upgradeMerchantProjections_lacking {t : RawTable RawProjection} (h : LacksFlow t) :
    (Revision0003.upgradeMerchantProjections t).columns = t.columns ++ flowColumns ∧
      (Revision0003.upgradeMerchantProjections t).rows = t.rows.map fun p =>
        { p with paymentFlow := some .synchronous, paymentReference := none, expiresAt := none } := by
  unfold Revision0003.upgradeMerchantProjections
  simp only [ensureFlow_missing h, List.map_map]
  exact ⟨by simp [flowColumns], rfl⟩

/-- A table with the columns of both revisions. -/
theorem hasColumns_of {α : Type} {t u : RawTable α}
    (columns : u.columns = t.columns ++ ["decline_reason"] ++ flowColumns) :
    u.hasColumn "decline_reason" = true ∧ HasFlow u := by
  unfold HasFlow RawTable.hasColumn
  rw [columns]
  simp [flowColumns]

/-- The payments after both revisions. -/
theorem paymentsUpgraded_of_legacy {db : RawDatabase} (legacy : db.Legacy) :
    ∃ t, Revision0003.upgradePayments (explainedPayments db.payments) = .ok t ∧
      t.rows = db.payments.rows.map RawPayment.upgraded ∧
      t.hasColumn "decline_reason" = true ∧ HasFlow t ∧ Constrained t := by
  obtain ⟨hcolumns, hrows⟩ :=
    withFlowColumns_lacking (t := explainedPayments db.payments)
      (lacksFlow_of_columns legacy.payments rfl)
  have hupgraded : (Revision0003.withFlowColumns (explainedPayments db.payments)).rows =
      db.payments.rows.map RawPayment.upgraded := by
    rw [hrows]
    exact List.map_map
  have hsynchronous : ∀ p ∈ (Revision0003.withFlowColumns (explainedPayments db.payments)).rows,
      p.paymentFlow = some .synchronous ∧ p.paymentReference = none ∧ p.expiresAt = none := by
    rw [hupgraded]
    intro p hp
    obtain ⟨q, _, rfl⟩ := List.mem_map.mp hp
    exact ⟨rfl, rfl, rfl⟩
  obtain ⟨t, hupgrade, hsame, hnames, hconstrained⟩ := upgradePayments_ok hsynchronous
  obtain ⟨hexplained, hflow⟩ := hasColumns_of (t := db.payments) (u := t) (hnames.trans hcolumns)
  exact ⟨t, hupgrade, hsame.trans hupgraded, hexplained, hflow, hconstrained⟩

/-- The projections after both revisions. -/
theorem projectionsUpgraded_of_legacy {db : RawDatabase} (legacy : db.Legacy) :
    ∃ t, Revision0003.upgradeMerchantProjections
        (Revision0002.upgradeProjectionDeclineReason db.projections) = t ∧
      t.rows = db.projections.rows.map RawProjection.upgraded ∧
      t.hasColumn "decline_reason" = true ∧ HasFlow t := by
  have hexplained : Revision0002.upgradeProjectionDeclineReason db.projections =
      db.projections.addColumn "decline_reason" fun p =>
        { p with declineReason := Revision0002.declinedReason p.status none } := by
    unfold Revision0002.upgradeProjectionDeclineReason
    rw [legacy.projections "decline_reason" (by simp)]
    rfl
  rw [hexplained]
  obtain ⟨hcolumns, hrows⟩ := upgradeMerchantProjections_lacking
    (t := db.projections.addColumn "decline_reason" fun p =>
      { p with declineReason := Revision0002.declinedReason p.status none })
    (lacksFlow_of_columns legacy.projections rfl)
  refine ⟨_, rfl, ?_, hasColumns_of (t := db.projections) hcolumns⟩
  rw [hrows]
  exact List.map_map

/-- **The two revisions**: a legacy database whose payments satisfy the checks is upgraded. -/
theorem upgraded_of_legacy {db : RawDatabase} (legacy : db.Legacy)
    (admissible : ∀ p ∈ db.payments.rows, p.Admissible) :
    ∃ db', (Revision0002.upgrade db >>= Revision0003.upgrade) = .ok db' ∧ Upgraded db db' := by
  have hpayments := upgradePaymentDeclineReason_legacy (legacy.payments "decline_reason" (by simp))
  rw [if_pos admissible] at hpayments
  obtain ⟨records, hrecords, hclaims⟩ := upgradeIdempotencyRecords_legacy legacy.paymentIds
    (legacy.idempotencyRecords "operation" (by simp)) legacy.keys legacy.refers
  obtain ⟨payments, hflows, hrows, hexplained, hflow, hconstrained⟩ :=
    paymentsUpgraded_of_legacy legacy
  obtain ⟨projections, hprojections, hprojectionRows, hprojectionExplained, hprojectionFlow⟩ :=
    projectionsUpgraded_of_legacy legacy
  refine ⟨{ db with
    payments := payments
    projections := projections
    idempotencyRecords :=
      { columns := Revision0002.idempotencyColumns, checks := [], uniques := [], rows := records } },
    ?_, ?_⟩
  · have hclaims' : Revision0002.upgradeIdempotencyRecords (explainedPayments db.payments).rows
        db.idempotencyRecords = _ := hclaims
    simp only [Revision0002.upgrade, hpayments, bind, Except.bind, hclaims', pure, Except.pure,
      Revision0003.upgrade, hflows, hprojections]
  · exact
      { payments := hrows
        projections := hprojectionRows
        records := hrecords
        others := rfl
        current :=
          { explained := hexplained
            flow := hflow
            constrained := hconstrained
            projectionExplained := hprojectionExplained
            projectionFlow := hprojectionFlow
            operation := by simp [RawTable.hasColumn, Revision0002.idempotencyColumns]
            responseSnapshot := by simp [RawTable.hasColumn, Revision0002.idempotencyColumns] } }

/-- A payment that violates a check makes the rebuilt table refuse the database. -/
theorem refused_of_legacy {db : RawDatabase} (legacy : db.Legacy)
    (violated : ¬∀ p ∈ db.payments.rows, p.Admissible) :
    (Revision0002.upgrade db >>= Revision0003.upgrade) = .error .integrityError := by
  have hpayments := upgradePaymentDeclineReason_legacy (legacy.payments "decline_reason" (by simp))
  rw [if_neg violated] at hpayments
  simp only [Revision0002.upgrade, hpayments, bind, Except.bind]

end Upgrade

/-! ## What the application finds -/

section View

variable {loads : String → Option CanonicalJson.Value}
  {fromIsoformat : String → Except IsoFault Datetime}

/-- The times of a legacy database are texts the mapper reads. A row with another text would be
migrated and then fail when it is loaded. -/
structure RawDatabase.Readable (fromIsoformat : String → Except IsoFault Datetime)
    (db : RawDatabase) : Prop where
  payments : ∀ p ∈ db.payments.rows, (∃ t, readIso fromIsoformat p.createdAt = some t) ∧
    ∃ t, readIso fromIsoformat p.updatedAt = some t
  projections : ∀ p ∈ db.projections.rows, ∃ t, readIso fromIsoformat p.updatedAt = some t
  records : ∀ i ∈ db.idempotencyRecords.rows, ∃ t, readIso fromIsoformat i.createdAt = some t

/-- `json.loads` inverts `json.dumps` on the snapshots the migration writes. This is the only
property of the two that is relied on, and on no other values. -/
def RawDatabase.LoadsBack (loads : String → Option CanonicalJson.Value) (db : RawDatabase) : Prop :=
  ∀ p ∈ db.payments.rows, loads (Revision0002.serializeSnapshot p.explained) =
    some (.obj (Revision0002.snapshotFields p.explained))

/-- A legacy payment and the payment the application finds for it: every field of the legacy row, the
times as the mapper reads them, and for the columns the legacy row had not the values of a
synchronous payment. -/
structure Carried (fromIsoformat : String → Except IsoFault Datetime) (p : RawPayment)
    (q : PaymentRecord) : Prop where
  id : q.id = p.id
  merchantReference : q.merchantReference = p.merchantReference
  amount : q.amount = p.amount
  currency : q.currency = p.currency
  status : q.status = p.status
  authorizedAmount : q.authorizedAmount = p.authorizedAmount
  capturedAmount : q.capturedAmount = p.capturedAmount
  refundedAmount : q.refundedAmount = p.refundedAmount
  version : q.version = p.version
  createdAt : readIso fromIsoformat p.createdAt = some q.createdAt
  updatedAt : readIso fromIsoformat p.updatedAt = some q.updatedAt
  paymentFlow : q.paymentFlow = .synchronous
  paymentReference : q.paymentReference = none
  expiresAt : q.expiresAt = none
  declineReason : q.declineReason = if p.status = .declined then some .unknown else none

/-- The mapper loads an upgraded payment as the one that was carried over. -/
theorem load_upgraded {p : RawPayment} {createdAt updatedAt : Instant}
    (created : readIso fromIsoformat p.createdAt = some createdAt)
    (updated : readIso fromIsoformat p.updatedAt = some updatedAt) :
    ∃ q, p.upgraded.load fromIsoformat = some q ∧ Carried fromIsoformat p q ∧
      ((loads (Revision0002.serializeSnapshot p.explained) =
          some (.obj (Revision0002.snapshotFields p.explained))) →
        PaymentSnapshot.deserialize loads fromIsoformat
          (Revision0002.serializeSnapshot p.explained) = some (.fromPayment q)) := by
  refine ⟨{
    id := p.id
    merchantReference := p.merchantReference
    amount := p.amount
    currency := p.currency
    status := p.status
    paymentFlow := .synchronous
    paymentReference := none
    expiresAt := none
    declineReason := p.explained.declineReason
    authorizedAmount := p.authorizedAmount
    capturedAmount := p.capturedAmount
    refundedAmount := p.refundedAmount
    version := p.version
    createdAt := createdAt
    updatedAt := updatedAt }, ?_, ?_, fun back => ?_⟩
  · simp [RawPayment.load, RawPayment.upgraded, RawPayment.explained, readOptionalIso, created,
      updated]
  · constructor <;> first | rfl | assumption
  · exact deserialize_serializeSnapshot back created updated

/-- A row of a payment that was carried over satisfies the checks of the table. -/
theorem Carried.satisfiesChecks {p : RawPayment} {q : PaymentRecord}
    (h : Carried fromIsoformat p q) (admissible : p.Admissible) : q.satisfiesChecks = true := by
  have hreason : (decide (q.status = .declined) == q.declineReason.isSome) = true := by
    rw [h.status, h.declineReason]
    cases p.status <;> rfl
  simp only [PaymentRecord.satisfiesChecks, h.paymentFlow, h.paymentReference, h.expiresAt, hreason,
    h.amount, h.authorizedAmount, h.capturedAmount, h.refundedAmount, h.version,
    Option.isNone_none, Bool.and_true, Bool.and_eq_true, decide_eq_true_eq]
  exact ⟨⟨⟨⟨admissible.amount, admissible.authorized⟩, admissible.captured⟩, admissible.refunded⟩,
    admissible.version⟩

/-- Rows that load and stand apart are a table. -/
theorem loadTable_ok {α β κ : Type} [DecidableEq κ] {S : Schema β κ} {load : α → Option β}
    {rows : List α} {records : List β}
    (loaded : List.Forall₂ (fun a b => load a = some b) rows records)
    (checked : ∀ b ∈ records, S.check b = true)
    (distinct : records.Pairwise fun a b => S.key a ≠ S.key b ∧ S.clash a b = false) :
    ∃ t, loadTable S load rows = some t ∧ t.rows = records := by
  obtain ⟨t, hinsert, hrows⟩ := Table.insertAll_isSome (t := (∅ : Table S)) checked
    (fun _ _ _ hx => nomatch hx) distinct
  refine ⟨t, ?_, hrows⟩
  unfold loadTable
  rw [Lists.mapM_eq_some.mpr loaded]
  exact hinsert

/-- What the application finds of a claim: its key, fingerprint and payment, completed by the
snapshot of that payment. -/
structure ClaimRecord (payments : List PaymentRecord) (i : RawIdempotency)
    (k : IdempotencyRecord) : Prop where
  key : k.key = i.key
  requestFingerprint : k.requestFingerprint = i.requestFingerprint
  paymentId : k.paymentId = i.paymentId
  operation : k.operation = "AUTHORIZE"
  completed : ∃ q ∈ payments, i.paymentId = some q.id ∧ k.responseSnapshot = some (.fromPayment q)

/-- A projection is read with its defaults. -/
theorem load_upgradedProjection {p : RawProjection}
    (updated : ∃ t, readIso fromIsoformat p.updatedAt = some t) :
    ∃ q, p.upgraded.load fromIsoformat = some q ∧ q.paymentId = p.paymentId := by
  obtain ⟨t, ht⟩ := updated
  simp [RawProjection.load, RawProjection.upgraded, readOptionalIso, ht]

/-- A payment row, loaded and carried over, with the snapshot the migration wrote of it. -/
structure Loaded (loads : String → Option CanonicalJson.Value)
    (fromIsoformat : String → Except IsoFault Datetime) (p : RawPayment) (q : PaymentRecord) :
    Prop where
  loaded : p.upgraded.load fromIsoformat = some q
  carried : Carried fromIsoformat p q
  snapshot : PaymentSnapshot.deserialize loads fromIsoformat
    (Revision0002.serializeSnapshot p.explained) = some (.fromPayment q)

/-- The records of the claims load beside the loaded payments. -/
theorem load_reclaimed {payments : List RawPayment} {records : List PaymentRecord}
    (loaded : List.Forall₂ (Loaded loads fromIsoformat) payments records) {i r : RawIdempotency}
    (h : Reclaimed payments i r) (created : ∃ t, readIso fromIsoformat i.createdAt = some t) :
    ∃ k, r.load loads fromIsoformat = some k ∧ ClaimRecord records i k := by
  obtain ⟨p, hp, hid, rfl⟩ := h
  obtain ⟨q, hq, hpq⟩ := Lists.forall₂_left loaded hp
  obtain ⟨t, ht⟩ := created
  refine ⟨{
    key := i.key
    requestFingerprint := i.requestFingerprint
    operation := "AUTHORIZE"
    paymentId := i.paymentId
    responseSnapshot := some (.fromPayment q)
    createdAt := t }, ?_, ?_⟩
  · simp [RawIdempotency.load, RawIdempotency.snapshot, Revision0002.upgradedRecord, hpq.snapshot,
      ht]
  · exact
      { key := rfl
        requestFingerprint := rfl
        paymentId := rfl
        operation := rfl
        completed := ⟨q, hq, hpq.carried.id ▸ hid, rfl⟩ }

/-- **The upgraded database loads**: the payments are carried over and every claim has its record. -/
theorem Upgraded.load {db db' : RawDatabase} (h : Upgraded db db') (legacy : db.Legacy)
    (admissible : ∀ p ∈ db.payments.rows, p.Admissible) (readable : db.Readable fromIsoformat)
    (back : db.LoadsBack loads) :
    ∃ store, db'.load loads fromIsoformat = some store ∧
      List.Forall₂ (Carried fromIsoformat) db.payments.rows store.payments.rows ∧
      List.Forall₂ (ClaimRecord store.payments.rows) db.idempotencyRecords.rows
        store.idempotencyRecords.rows ∧
      store = { db.others with
        payments := store.payments
        merchantProjections := store.merchantProjections
        idempotencyRecords := store.idempotencyRecords } := by
  obtain ⟨payments, hpayments⟩ : ∃ payments,
      List.Forall₂ (Loaded loads fromIsoformat) db.payments.rows payments := by
    refine Lists.exists_forall₂ fun p hp => ?_
    obtain ⟨⟨c, hc⟩, u, hu⟩ := readable.payments p hp
    obtain ⟨q, hload, hcarried, hsnapshot⟩ := load_upgraded hc hu
    exact ⟨q, hload, hcarried, hsnapshot (back p hp)⟩
  have hcarried : List.Forall₂ (Carried fromIsoformat) db.payments.rows payments :=
    hpayments.imp fun p q hpq => hpq.carried
  obtain ⟨projections, hprojections⟩ : ∃ projections,
      List.Forall₂ (fun p q => RawProjection.load fromIsoformat p.upgraded = some q ∧
        q.paymentId = p.paymentId) db.projections.rows projections :=
    Lists.exists_forall₂ fun p hp => load_upgradedProjection (readable.projections p hp)
  obtain ⟨records, hrecords, hclaims⟩ := Lists.exists_forall₂_forall₂ h.records
    fun i hi r hr => load_reclaimed hpayments hr (readable.records i hi)
  -- each table takes its rows
  have hpaymentIds : (payments.map (·.id)).Nodup := by
    rw [← Lists.forall₂_map_eq hcarried fun p q hpq => hpq.id.symm]
    exact legacy.paymentIds
  obtain ⟨paymentTable, hpaymentTable, hpaymentRows⟩ := loadTable_ok (S := paymentSchema)
    (List.forall₂_map_left_iff.mpr (hpayments.imp fun p q hpq => hpq.loaded))
    (fun q hq => by
      obtain ⟨p, hp, hpq⟩ := Lists.forall₂_right hcarried hq
      exact hpq.satisfiesChecks (admissible p hp))
    ((List.pairwise_map.mp hpaymentIds).imp_of_mem fun {a b} ha _ hne => ⟨hne, by
      obtain ⟨p, _, hpa⟩ := Lists.forall₂_right hcarried ha
      simp [paymentSchema, hpa.paymentReference]⟩)
  have hprojectionIds : (projections.map (·.paymentId)).Nodup := by
    rw [← Lists.forall₂_map_eq hprojections fun p q hpq => hpq.2.symm]
    exact legacy.projectionIds
  obtain ⟨projectionTable, hprojectionTable, _⟩ := loadTable_ok (S := merchantProjectionSchema)
    (List.forall₂_map_left_iff.mpr (hprojections.imp fun p q hpq => hpq.1))
    (fun _ _ => rfl) ((List.pairwise_map.mp hprojectionIds).imp fun hne => ⟨hne, rfl⟩)
  have hkeys : (records.map (·.key)).Nodup := by
    rw [← Lists.forall₂_map_eq hclaims fun i k hik => hik.key.symm]
    exact legacy.keys
  obtain ⟨recordTable, hrecordTable, hrecordRows⟩ := loadTable_ok (S := idempotencySchema)
    hrecords (fun _ _ => rfl) ((List.pairwise_map.mp hkeys).imp fun hne => ⟨hne, rfl⟩)
  refine ⟨{ db.others with
    payments := paymentTable
    merchantProjections := projectionTable
    idempotencyRecords := recordTable }, ?_, ?_, ?_, rfl⟩
  · unfold RawDatabase.load
    rw [h.payments, h.projections, h.others, hpaymentTable, hprojectionTable, hrecordTable]
    rfl
  · show List.Forall₂ _ _ paymentTable.rows
    rw [hpaymentRows]
    exact hcarried
  · show List.Forall₂ (ClaimRecord paymentTable.rows) _ recordTable.rows
    rw [hpaymentRows, hrecordRows]
    exact hclaims

end View

/-! ## The service on a completed record -/

section Service

variable {sha256 : String → String} {s : DatabaseSession} {k : IdempotencyRecord}
  {command : AuthorizationCommand} {failurePoint : Option FailurePoint} {now : Instant}
  {draws : Draws}

/-- A completed record under the command's fingerprint is replayed. -/
theorem authorizePayment_replays {snapshot : PaymentSnapshot}
    (stored : s.working.idempotencyRecords.get k.key = some k)
    (original : k.requestFingerprint = command.fingerprint sha256)
    (completed : k.responseSnapshot = some snapshot) :
    authorizePayment sha256 command k.key failurePoint (.aware now) draws s =
      (.ok (.replay snapshot), { s with begun := true }) := by
  have hfind : findIdempotentSnapshot k.key (command.fingerprint sha256) s =
      (.ok (some snapshot), { s with begun := true }) := by
    rw [findIdempotentSnapshot_apply, stored]
    simp [original, completed]
  have hclaim : claimIdempotencyKey k.key (command.fingerprint sha256) "AUTHORIZE" now s =
      (.ok (.replayed snapshot), { s with begun := true }) := by
    unfold claimIdempotencyKey
    rw [bind_ok hfind]
    rfl
  unfold authorizePayment
  rw [bind_ok (show readClock (.aware now) s = (.ok now, s) from rfl), bind_ok hclaim]
  rfl

/-- A record under another fingerprint refuses a claim of its key. -/
theorem claimIdempotencyKey_conflicts {fingerprint operation : String} {claimedAt : Instant}
    (stored : s.working.idempotencyRecords.get k.key = some k)
    (other : k.requestFingerprint ≠ fingerprint) :
    claimIdempotencyKey k.key fingerprint operation claimedAt s =
      (.error .idempotencyConflict, { s with begun := true }) := by
  have hfind : findIdempotentSnapshot k.key fingerprint s =
      (.error .idempotencyConflict, { s with begun := true }) := by
    rw [findIdempotentSnapshot_apply, stored]
    simp [other]
  unfold claimIdempotencyKey
  rw [bind_error hfind]

/-- A record under another fingerprint refuses an authorization under its key. -/
theorem authorizePayment_conflicts (stored : s.working.idempotencyRecords.get k.key = some k)
    (other : k.requestFingerprint ≠ command.fingerprint sha256) :
    authorizePayment sha256 command k.key failurePoint (.aware now) draws s =
      (.error .idempotencyConflict, { s with begun := true }) := by
  unfold authorizePayment
  rw [bind_ok (show readClock (.aware now) s = (.ok now, s) from rfl),
    bind_error (claimIdempotencyKey_conflicts stored other)]

/-- A record under another fingerprint refuses a lifecycle operation under its key. -/
theorem applyLifecycleOperation_conflicts {lifecycle : LifecycleCommand}
    {claimedAt : Instant} (stored : s.working.idempotencyRecords.get k.key = some k)
    (other : k.requestFingerprint ≠ lifecycle.fingerprint sha256) :
    applyLifecycleOperation sha256 lifecycle k.key failurePoint claimedAt now draws s =
      (.error .idempotencyConflict, { s with begun := true }) := by
  unfold applyLifecycleOperation
  rw [bind_error (claimIdempotencyKey_conflicts stored other)]

/-- **A record under another fingerprint refuses every call under its key**: the source function of
the call ends with the conflict, and its session holds the store as it was. -/
theorem Request.call_conflicts {request : Request} {other : KeyedCommand} {db : Database}
    (keyed : request.keyed = some (k.key, other)) (aware : ¬request.NaiveClock)
    (stored : db.idempotencyRecords.get k.key = some k)
    (differs : k.requestFingerprint ≠ other.fingerprint sha256) (identity : IdentityMap) :
    ∃ s', request.call sha256 (Session.start db identity) = (.error .idempotencyConflict, s') ∧
      s'.committed = db ∧ s'.working = db := by
  have hstored : (Session.start db identity).working.idempotencyRecords.get k.key = some k := stored
  cases request with
  | authorize command key failurePoint clock draws =>
    cases keyed
    cases clock with
    | naive wall => exact absurd trivial aware
    | aware now =>
      exact ⟨_, bind_error (authorizePayment_conflicts hstored differs), rfl, rfl⟩
  | capture paymentId key failurePoint claimedAt now draws =>
    cases keyed
    exact ⟨_, bind_error (applyLifecycleOperation_conflicts hstored differs), rfl, rfl⟩
  | refund paymentId amount key failurePoint claimedAt now draws =>
    cases keyed
    exact ⟨_, bind_error (applyLifecycleOperation_conflicts hstored differs), rfl, rfl⟩
  | cancel paymentId key failurePoint claimedAt now draws =>
    cases keyed
    -- the writer reservation reads the committed store, and the conflict is no storage failure
    have hcall : cancelPayment sha256 paymentId k.key failurePoint claimedAt now draws
        (Session.start db identity) =
          (.error .idempotencyConflict,
            { coordinated (Session.start db identity) with begun := true }) := by
      have hconflict : applyLifecycleOperation sha256 (.cancel paymentId) k.key failurePoint claimedAt
          now draws (coordinated (Session.start db identity)) =
            (.error .idempotencyConflict,
              { coordinated (Session.start db identity) with begun := true }) :=
        applyLifecycleOperation_conflicts stored differs
      unfold cancelPayment
      rw [tryCatch_apply, bind_ok (beginCoordinatedWrite_apply _), hconflict]
      rfl
    exact ⟨_, bind_error hcall, rfl, rfl⟩
  | accept => cases keyed
  | complete => cases keyed
  | process => cases keyed
  | recover => cases keyed
  | expire => cases keyed

end Service

/-! ## Every claim is preserved -/

/-- **What becomes of a claim** on the upgraded store: one record under its key, with its fingerprint
and payment, and the answers it gives from then on. The original command is replayed with `q`, the
payment row at the upgrade, and any other command under the key, an authorization or a lifecycle
operation, is a conflict; neither writes anything. Both hold on every later store the service reaches,
so the answer stays the row at the upgrade when the row itself has moved on, and `repeated` says the
same of each transaction of each run, whatever calls are interleaved. Only an authorization whose
clock has no offset ends otherwise: it fails before the key is read. -/
structure ClaimPreserved (sha256 : String → String) (store : Database) (i : RawIdempotency)
    (q : PaymentRecord) : Prop where
  payment : i.paymentId = some q.id
  stored : store.payments.get q.id = some q
  record : ∃ k, store.idempotencyRecords.get i.key = some k ∧
    k.requestFingerprint = i.requestFingerprint ∧ k.paymentId = i.paymentId ∧
    k.operation = "AUTHORIZE"
  replayed : ∀ command : AuthorizationCommand,
    i.requestFingerprint = command.fingerprint sha256 →
    ∀ later, Reaches sha256 store later → ∀ failurePoint now draws identity, ∃ s',
      authorizePayment sha256 command i.key failurePoint (.aware now) draws
          (Session.start later identity) = (.ok (.replay (.fromPayment q)), s') ∧
        s'.committed = later ∧ s'.working = later
  conflicting : ∀ command : AuthorizationCommand,
    i.requestFingerprint = command.fingerprint sha256 →
    ∀ later, Reaches sha256 store later → ∀ (request : Request) (other : KeyedCommand),
      request.keyed = some (i.key, other) → other ≠ .authorize command → ¬request.NaiveClock →
      ∀ identity, ∃ s',
        request.call sha256 (Session.start later identity) = (.error .idempotencyConflict, s') ∧
          s'.committed = later ∧ s'.working = later
  repeated : ∀ command : AuthorizationCommand,
    i.requestFingerprint = command.fingerprint sha256 →
    ∀ {ι : Type} [DecidableEq ι] {w v : Pool.World Database ι (Option Client)}
      {ts : List (Pool.Transition Database ι (Option Client))}, Started store w →
      Pool.Run (System sha256) w ts v → ∀ t ∈ ts, Repeats i.key (.authorize command) q t

/-- **The upgraded database** of a legacy one, as the application finds it: the payments carried one
by one in their order, the same keys, and for each claim what becomes of it. The tables that the
revisions do not touch are those of the legacy database. -/
structure LegacyPreserved (sha256 : String → String)
    (fromIsoformat : String → Except IsoFault Datetime) (db : RawDatabase) (store : Database) :
    Prop where
  payments : List.Forall₂ (Carried fromIsoformat) db.payments.rows store.payments.rows
  keys : store.idempotencyRecords.rows.map (·.key) = db.idempotencyRecords.rows.map (·.key)
  claims : ∀ i ∈ db.idempotencyRecords.rows, ∃ p ∈ db.payments.rows, ∃ q,
    Carried fromIsoformat p q ∧ ClaimPreserved sha256 store i q
  others : store = { db.others with
    payments := store.payments
    merchantProjections := store.merchantProjections
    idempotencyRecords := store.idempotencyRecords }

section Preserved

variable {sha256 : String → String} {loads : String → Option CanonicalJson.Value}
  {fromIsoformat : String → Except IsoFault Datetime}

/-- The record of a claim is what preserves it. -/
theorem ClaimRecord.preserved (injective : Function.Injective sha256) {store : Database}
    {i : RawIdempotency} {k : IdempotencyRecord} (h : ClaimRecord store.payments.rows i k)
    (mem : k ∈ store.idempotencyRecords.rows) :
    ∃ q ∈ store.payments.rows, ClaimPreserved sha256 store i q := by
  obtain ⟨q, hq, hid, hsnapshot⟩ := h.completed
  have hget : store.idempotencyRecords.get i.key = some k := h.key ▸ Table.get_of_mem mem
  -- no effect of the service changes the record
  have hkept : ∀ {later}, Relation.ReflTransGen (Effect sha256) store later →
      later.idempotencyRecords.get k.key = some k := fun effects =>
    effects_keep (fun hrecord effect => effect.record_kept hrecord) effects (h.key ▸ hget)
  refine ⟨q, hq, ?_⟩
  exact
    { payment := hid
      stored := Table.get_of_mem hq
      record := ⟨k, hget, h.requestFingerprint, h.paymentId, h.operation⟩
      replayed := by
        intro command original later reaches failurePoint now draws identity
        refine ⟨{ Session.start later identity with begun := true }, ?_, rfl, rfl⟩
        rw [← h.key]
        exact authorizePayment_replays (s := Session.start later identity) (hkept reaches.effects)
          (h.requestFingerprint.trans original) hsnapshot
      conflicting := by
        intro command original later reaches request other keyed hne aware identity
        rw [← h.key] at keyed
        refine Request.call_conflicts keyed aware (hkept reaches.effects) (fun heq => hne ?_) identity
        rw [h.requestFingerprint, original] at heq
        exact (KeyedCommand.fingerprint_injective injective
          (show (KeyedCommand.authorize command).fingerprint sha256 = _ from heq)).symm
      repeated := by
        intro command original ι _ w v ts started run t mem
        obtain ⟨before, after, u, rfl, first, enabled, _⟩ := run.split mem
        have responds : Responds sha256 i.key (.authorize command) q t.pre := by
          refine ⟨k, ?_, h.requestFingerprint.trans original, hsnapshot⟩
          rw [enabled.1, ← h.key]
          exact hkept (started.effects first)
        exact ((started.moves run mem).of_taken injective responds).1 }

/-- **The legacy upgrade preserves every idempotency claim.** A payment that violates a check of the
rebuilt table refuses the upgrade. Otherwise the two revisions end, their result loads with every
payment carried over and every claim preserved, and run again they change nothing. -/
theorem legacy_preserved (injective : Function.Injective sha256) (db : RawDatabase)
    (legacy : db.Legacy) (readable : db.Readable fromIsoformat) (back : db.LoadsBack loads) :
    ((∃ p ∈ db.payments.rows, ¬p.Admissible) →
        (Revision0002.upgrade db >>= Revision0003.upgrade) = .error .integrityError) ∧
      ((∀ p ∈ db.payments.rows, p.Admissible) →
        ∃ db' store, (Revision0002.upgrade db >>= Revision0003.upgrade) = .ok db' ∧
          db'.load loads fromIsoformat = some store ∧
          LegacyPreserved sha256 fromIsoformat db store ∧
          Revision0002.upgrade db' = .ok db' ∧ Revision0003.upgrade db' = .ok db') := by
  constructor
  · rintro ⟨p, hp, hviolated⟩
    exact refused_of_legacy legacy fun hall => hviolated (hall p hp)
  · intro admissible
    obtain ⟨db', hupgrade, upgraded⟩ := upgraded_of_legacy legacy admissible
    obtain ⟨store, hload, hpayments, hclaims, hothers⟩ :=
      upgraded.load legacy admissible readable back
    refine ⟨db', store, hupgrade, hload, ?_, upgraded.current.revision0002,
      upgraded.current.revision0003⟩
    exact
      { payments := hpayments
        keys := (Lists.forall₂_map_eq hclaims fun i k hik => hik.key.symm).symm
        claims := by
          intro i hi
          obtain ⟨k, hk, hik⟩ := Lists.forall₂_left hclaims hi
          obtain ⟨q, hq, hpreserved⟩ := hik.preserved injective hk
          obtain ⟨p, hp, hcarried⟩ := Lists.forall₂_right hpayments hq
          exact ⟨p, hp, q, hcarried, hpreserved⟩
        others := hothers }

end Preserved

/-! ## A legacy database -/

/-- The text SQLite stores for the times of the example. -/
def legacyTime : String := "2026-08-23 03:00:00.000000"

/-- `datetime.fromisoformat` on that text: no offset, so naive. -/
def legacyFromIsoformat (text : String) : Except IsoFault Datetime :=
  if text = legacyTime then .ok (.naive 1787454000000000) else .error .invalid

/-- A declined payment of the legacy schema. -/
def legacyPayment : RawPayment :=
  { id := "pay_1"
    merchantReference := "order-1"
    amount := 3000
    currency := .jpy
    status := .declined
    paymentFlow := none
    paymentReference := none
    expiresAt := none
    declineReason := none
    authorizedAmount := 0
    capturedAmount := 0
    refundedAmount := 0
    version := 1
    createdAt := legacyTime
    updatedAt := legacyTime }

/-- The command it was made by. -/
def legacyCommand : AuthorizationCommand :=
  { merchantReference := "order-1"
    amount := 3000
    currency := .jpy
    paymentMethodToken := .authorization .decline }

/-- The legacy database with that payment and its claim. -/
def legacyDatabase : RawDatabase :=
  { payments :=
      { columns := ["id", "merchant_reference", "amount", "currency", "status",
          "authorized_amount", "captured_amount", "refunded_amount", "version", "created_at",
          "updated_at"]
        checks := []
        uniques := []
        rows := [legacyPayment] }
    projections :=
      { columns := ["payment_id", "merchant_reference", "amount", "currency", "status",
          "authorized_amount", "captured_amount", "refunded_amount", "aggregate_version",
          "last_event_id", "updated_at"]
        checks := []
        uniques := []
        rows := [] }
    idempotencyRecords :=
      { columns := ["key", "request_fingerprint", "payment_id", "created_at"]
        checks := []
        uniques := [["payment_id"]]
        rows :=
          [{ key := "order-1-key"
             requestFingerprint := legacyCommand.fingerprint id
             operation := none
             paymentId := some "pay_1"
             responseSnapshot := none
             createdAt := legacyTime }] }
    others := .empty }

/-- `json.loads` on the snapshot of the example. -/
def legacyLoads (text : String) : Option CanonicalJson.Value :=
  if text = Revision0002.serializeSnapshot legacyPayment.explained then
    some (.obj (Revision0002.snapshotFields legacyPayment.explained))
  else none

theorem legacyDatabase_legacy : legacyDatabase.Legacy where
  payments := by simp [legacyDatabase, RawTable.hasColumn]
  projections := by simp [legacyDatabase, RawTable.hasColumn]
  idempotencyRecords := by simp [legacyDatabase, RawTable.hasColumn]
  paymentIds := by simp [legacyDatabase]
  projectionIds := by simp [legacyDatabase]
  keys := by simp [legacyDatabase]
  claims := by simp [legacyDatabase]
  refers := by simp [legacyDatabase, legacyPayment]

theorem legacyDatabase_readable : legacyDatabase.Readable legacyFromIsoformat := by
  have hread : readIso legacyFromIsoformat legacyTime = some 1787454000000000 := by
    simp [readIso, legacyFromIsoformat, asUtc]
  constructor
  · simp [legacyDatabase, legacyPayment, hread]
  · simp [legacyDatabase]
  · simp [legacyDatabase, hread]

theorem legacyDatabase_preserved :
    ∃ db' store,
      (Revision0002.upgrade legacyDatabase >>= Revision0003.upgrade) = .ok db' ∧
        db'.load legacyLoads legacyFromIsoformat = some store ∧
        LegacyPreserved id legacyFromIsoformat legacyDatabase store ∧
        Revision0002.upgrade db' = .ok db' ∧ Revision0003.upgrade db' = .ok db' := by
  have back : legacyDatabase.LoadsBack legacyLoads := by
    intro p hp
    cases List.mem_singleton.mp hp
    exact if_pos rfl
  refine (legacy_preserved (fun _ _ h => h) legacyDatabase legacyDatabase_legacy
    legacyDatabase_readable back).2 fun p hp => ?_
  cases List.mem_singleton.mp hp
  decide

end PaymentLab
