import PaymentLab.Runs.Frame
import PaymentLab.Services.Reconciliation

/-!
# Settlement batches along runs

An import of a settlement batch stores the batch and every row, or nothing
(`createSettlementBatch_cases`). Beside the service (`Accounting`) it is a step the service allows its
environment, so what holds along every execution of the service holds here as well, and no later
step takes anything from a batch (`Accounted.keepsBatch`).

An import is one transaction and taken as one step. The payments it looks up are never deleted and
keep the time they were created at, so that a commit between its reads and its own cannot make it
accept what it should refuse. What refuses an import is named (`Refused`), and an import that is
refused leaves the store as it was.
-/

namespace PaymentLab

open Relational Transactional Transactional.Service

/-! ## An imported batch -/

section Import

variable {cutoff now : Instant} {entries : List SettlementInput} {batchHex : String}
  {draws : Nat → String} {s' : DatabaseSession} {batch : SettlementBatchRecord}

theorem firstSorted_eq_none {ids : List String} (h : firstSorted ids = none) : ids = [] := by
  unfold firstSorted at h
  have hsorted := List.head?_eq_none_iff.mp h
  have hlength := congrArg List.length hsorted
  rw [List.length_insertionSort] at hlength
  exact List.eq_nil_of_length_eq_zero hlength

/-- Every entry of an accepted import names a payment created by the cutoff. -/
theorem checkSettlementEntries_eq_ok {db : Database} {u : Unit}
    (h : checkSettlementEntries db cutoff entries = .ok u) : ∀ entry ∈ entries,
      ∃ p, db.payments.get entry.paymentId = some p ∧ p.createdAt ≤ cutoff := by
  intro entry mem
  have hid : entry.paymentId ∈ (entries.map (·.paymentId)).dedup :=
    List.mem_dedup.mpr (List.mem_map_of_mem mem)
  unfold checkSettlementEntries at h
  dsimp only at h
  split at h
  · cases h
  · next hmissing =>
    split at h
    · cases h
    · next houtside =>
      cases hget : db.payments.get entry.paymentId with
      | none =>
        have hknown := List.filter_eq_nil_iff.mp (firstSorted_eq_none hmissing) _ hid
        simp [hget] at hknown
      | some p =>
        have hinside := List.filter_eq_nil_iff.mp (firstSorted_eq_none houtside) _ hid
        refine ⟨p, rfl, ?_⟩
        simpa [hget] using hinside

/-- Rows inserted one after another. -/
theorem insertSettlementRows_eq_ok : ∀ {rows : List SettlementRecord} {db db' : Database},
    insertSettlementRows rows db = .ok db' →
      db' = { db with settlementRecords := db'.settlementRecords } ∧
        db'.settlementRecords.rows = db.settlementRecords.rows ++ rows := by
  intro rows
  induction rows with
  | nil =>
    intro db db' h
    cases h
    exact ⟨rfl, by simp⟩
  | cons row rest ih =>
    intro db db' h
    obtain ⟨d, hrow, hrest⟩ := except_bind_eq_ok h
    obtain ⟨t, ht, rfl⟩ := insertInto_eq_ok (show insertSettlementRecord row db = .ok d from hrow)
    obtain ⟨hsame, hrows⟩ := ih hrest
    refine ⟨hsame, ?_⟩
    rw [hrows, Table.insert_rows ht]
    simp

/-- The rows of an import: one for each entry, of its payment, for the batch. -/
theorem mem_settlementRows {batchId : String} : ∀ {entries : List SettlementInput} {line : Nat},
    ∀ row ∈ settlementRows batchId now draws entries line, row.batchId = batchId ∧
      ∃ entry ∈ entries, row.paymentId = entry.paymentId ∧ row.amount = entry.amount := by
  intro entries
  induction entries with
  | nil =>
    intro line row mem
    cases mem
  | cons entry rest ih =>
    intro line row mem
    rcases List.mem_cons.mp mem with rfl | mem
    · exact ⟨rfl, entry, List.mem_cons_self, rfl, rfl⟩
    · obtain ⟨hbatch, entry', mem', h⟩ := ih row mem
      exact ⟨hbatch, entry', List.mem_cons_of_mem _ mem', h⟩

/-- What an import did: the batch and its rows behind those that were stored, for payments created
by the cutoff. -/
structure ImportResult (cutoff now : Instant) (entries : List SettlementInput) (batchHex : String)
    (draws : Nat → String) (batch : SettlementBatchRecord) (db db' : Database) : Prop where
  header : batch = { id := "setb_" ++ batchHex, cutoff := cutoff, createdAt := now }
  checked : ∀ entry ∈ entries,
    ∃ p, db.payments.get entry.paymentId = some p ∧ p.createdAt ≤ cutoff
  stored : db.settlementBatches.insert batch = some db'.settlementBatches
  rows : db'.settlementRecords.rows =
    db.settlementRecords.rows ++ settlementRows batch.id now draws entries 1
  rest : db' =
    { db with
      settlementBatches := db'.settlementBatches, settlementRecords := db'.settlementRecords }

/-- **An import is all or nothing**: it stores the batch and every row, or it raises and the store
is as it was. -/
theorem createSettlementBatch_cases {db : Database} {r : Except ServiceError SettlementBatchRecord}
    (h : createSettlementBatch cutoff entries now batchHex draws (Session.start db ∅) = (r, s')) :
    (∃ e, r = .error e ∧ s'.committed = db) ∨
      ∃ batch, r = .ok batch ∧
        ImportResult cutoff now entries batchHex draws batch db s'.committed := by
  unfold createSettlementBatch requireSettlementEntries at h
  rw [bind_apply, bind_ok (query_apply _ _)] at h
  cases hchecked : checkSettlementEntries (Session.start db (∅ : IdentityMap)).working cutoff
      entries with
  | error e =>
    rw [hchecked] at h
    cases h
    exact .inl ⟨_, rfl, rfl⟩
  | ok u =>
    rw [hchecked] at h
    rcases tryCatch_cases h with ⟨batch, hbody, rfl⟩ | ⟨e, s₁, hbody, hhandler⟩
    · obtain ⟨_, s₂, hbatch, h₂⟩ := bind_eq_ok hbody
      obtain ⟨d₂, hd₂, rfl⟩ := flush_eq_ok hbatch
      obtain ⟨t, ht, rfl⟩ := insertInto_eq_ok (show insertSettlementBatch _ db = .ok d₂ from hd₂)
      obtain ⟨_, s₃, hrows, h₃⟩ := bind_eq_ok h₂
      obtain ⟨d₃, hd₃, rfl⟩ := flush_eq_ok hrows
      obtain ⟨hsame, hadded⟩ := insertSettlementRows_eq_ok hd₃
      cases h₃
      refine .inr ⟨_, rfl, rfl, checkSettlementEntries_eq_ok hchecked, ?_, hadded, ?_⟩
      · show _ = some d₃.settlementBatches
        rw [hsame]
        exact ht
      · show d₃ = _
        rw [hsame]
    · have same : s₁.committed = db := by
        rcases bind_cases hbody with ⟨_, hbatch, _⟩ | ⟨_, s₂, hbatch, h₂⟩
        · exact (silent_flush _).committed hbatch
        · have hs₂ := (silent_flush _).committed hbatch
          rcases bind_cases h₂ with ⟨_, hrows, _⟩ | ⟨_, s₃, _, h₃⟩
          · exact ((silent_flush _).committed hrows).trans hs₂
          · cases h₃
      cases hhandler
      exact .inl ⟨e, rfl, same⟩

/-- What refuses an import: an entry of an unknown payment or of one created after the cutoff, or a
row that a constraint of its table refuses. The first two are looked for by the code, the others are
found by the tables when the rows are written. -/
inductive Refused (cutoff now : Instant) (entries : List SettlementInput) (batchHex : String)
    (draws : Nat → String) (db : Database) : Prop
  | unknown {entry : SettlementInput} : entry ∈ entries →
      db.payments.get entry.paymentId = none → Refused cutoff now entries batchHex draws db
  | outside {entry : SettlementInput} {p : PaymentRecord} : entry ∈ entries →
      db.payments.get entry.paymentId = some p → cutoff < p.createdAt →
      Refused cutoff now entries batchHex draws db
  | checked {row : SettlementRecord} :
      row ∈ settlementRows ("setb_" ++ batchHex) now draws entries 1 →
      settlementRecordSchema.check row = false → Refused cutoff now entries batchHex draws db
  | distinct : ¬(db.settlementRecords.rows ++
      settlementRows ("setb_" ++ batchHex) now draws entries 1).Pairwise (fun a b =>
        settlementRecordSchema.key a ≠ settlementRecordSchema.key b ∧
          settlementRecordSchema.clash a b = false) →
      Refused cutoff now entries batchHex draws db
  | known {older : SettlementBatchRecord} :
      db.settlementBatches.get ("setb_" ++ batchHex) = some older →
      Refused cutoff now entries batchHex draws db

/-- Nothing that is refused is imported. -/
theorem ImportResult.not_refused {db db' : Database}
    (h : ImportResult cutoff now entries batchHex draws batch db db') :
    ¬Refused cutoff now entries batchHex draws db := by
  have header := h.header
  subst header
  intro refused
  cases refused with
  | unknown mem hget =>
    obtain ⟨p, hp, _⟩ := h.checked _ mem
    rw [hget] at hp
    cases hp
  | outside mem hget late =>
    obtain ⟨p, hp, hcutoff⟩ := h.checked _ mem
    rw [hget] at hp
    cases hp
    exact absurd late (not_lt.mpr hcutoff)
  | checked mem bad =>
    have good := db'.settlementRecords.checked _ (by rw [h.rows]; exact List.mem_append_right _ mem)
    rw [bad] at good
    cases good
  | distinct clash =>
    have apart := db'.settlementRecords.distinct
    rw [h.rows] at apart
    exact clash apart
  | known hget =>
    have free := (Table.insert_eq_some h.stored).2.1
    rw [show settlementBatchSchema.key _ = ("setb_" ++ batchHex : String) from rfl, hget] at free
    cases free

/-- The rows of settlements belong to stored batches: the foreign key of the table. -/
def SettlementsGrounded (db : Database) : Prop :=
  ∀ row ∈ db.settlementRecords.rows, ∃ batch, db.settlementBatches.get row.batchId = some batch

/-- A batch as an import leaves it: stored, its rows naming payments created by its cutoff. -/
structure Imported (batch : SettlementBatchRecord) (db : Database) : Prop where
  stored : db.settlementBatches.get batch.id = some batch
  rows : ∀ row ∈ db.settlementRecords.rows, row.batchId = batch.id →
    ∃ p, db.payments.get row.paymentId = some p ∧ p.createdAt ≤ batch.cutoff

/-- The rows of a batch. -/
def rowsOf (db : Database) (batchId : String) : List SettlementRecord :=
  db.settlementRecords.rows.filter fun row => decide (row.batchId = batchId)

/-- No row of a new batch was there before it. -/
theorem ImportResult.rowsOf {db db' : Database} (grounded : SettlementsGrounded db)
    (h : ImportResult cutoff now entries batchHex draws batch db db') :
    rowsOf db' batch.id = settlementRows batch.id now draws entries 1 := by
  have hold : db.settlementRecords.rows.filter (fun row => decide (row.batchId = batch.id)) = [] := by
    apply List.filter_eq_nil_iff.mpr
    intro row mem hid
    obtain ⟨older, holder⟩ := grounded row mem
    rw [of_decide_eq_true hid] at holder
    have free := (Table.insert_eq_some h.stored).2.1
    rw [show settlementBatchSchema.key batch = batch.id from rfl, holder] at free
    cases free
  unfold PaymentLab.rowsOf
  rw [h.rows, List.filter_append, hold, List.nil_append]
  apply List.filter_eq_self.mpr
  intro row mem
  exact decide_eq_true (mem_settlementRows row mem).1

theorem ImportResult.imported {db db' : Database} (grounded : SettlementsGrounded db)
    (h : ImportResult cutoff now entries batchHex draws batch db db') : Imported batch db' where
  stored := Table.get_insert_self h.stored
  rows := by
    intro row mem hid
    have hrow : row ∈ PaymentLab.rowsOf db' batch.id :=
      List.mem_filter.mpr ⟨mem, decide_eq_true hid⟩
    rw [h.rowsOf grounded] at hrow
    obtain ⟨_, entry, hentry, hpayment, _⟩ := mem_settlementRows row hrow
    obtain ⟨p, hp, hcutoff⟩ := h.checked entry hentry
    refine ⟨p, ?_, ?_⟩
    · rw [h.rest, hpayment]
      exact hp
    · rw [h.header]
      exact hcutoff

/-- **An import** leaves an imported batch. -/
theorem createSettlementBatch_eq_ok {db : Database} (grounded : SettlementsGrounded db)
    (h : createSettlementBatch cutoff entries now batchHex draws (Session.start db ∅) =
      (.ok batch, s')) : batch.cutoff = cutoff ∧ Imported batch s'.committed := by
  rcases createSettlementBatch_cases h with ⟨e, he, _⟩ | ⟨_, hr, result⟩
  · cases he
  · cases hr
    exact ⟨by rw [result.header], result.imported grounded⟩

end Import

/-- A later store as far as an imported batch goes: the batch and its rows as they were, and every
payment still there with the time it was created. -/
structure KeepsBatch (batch : SettlementBatchRecord) (db db' : Database) : Prop where
  stored : db'.settlementBatches.get batch.id = db.settlementBatches.get batch.id
  rows : ∀ row, row.batchId = batch.id →
    (row ∈ db'.settlementRecords.rows ↔ row ∈ db.settlementRecords.rows)
  payments : ∀ id p, db.payments.get id = some p →
    ∃ p', db'.payments.get id = some p' ∧ p'.createdAt = p.createdAt

theorem KeepsBatch.imported {batch : SettlementBatchRecord} {db db' : Database}
    (kept : KeepsBatch batch db db') (h : Imported batch db) : Imported batch db' where
  stored := kept.stored.trans h.stored
  rows := by
    intro row mem hid
    obtain ⟨p, hp, hcutoff⟩ := h.rows row ((kept.rows row hid).mp mem) hid
    obtain ⟨p', hp', hcreated⟩ := kept.payments row.paymentId p hp
    exact ⟨p', hp', by rw [hcreated]; exact hcutoff⟩

/-! ## Imports beside the service -/

/-- The tables of settlement are the same. -/
structure SameSettlements (db db' : Database) : Prop where
  batches : db'.settlementBatches = db.settlementBatches
  records : db'.settlementRecords = db.settlementRecords

theorem SameSettlements.refl (db : Database) : SameSettlements db db := ⟨rfl, rfl⟩

/-- No write of a client touches them. -/
theorem SameSettlements.apart (db : Database) : Apart (SameSettlements db) where
  payments _ h := ⟨h.batches, h.records⟩
  ledgerEntries _ h := ⟨h.batches, h.records⟩
  idempotencyRecords _ h := ⟨h.batches, h.records⟩
  webhookEvents _ h := ⟨h.batches, h.records⟩
  confirmationReceipts _ h := ⟨h.batches, h.records⟩
  paymentConfirmations _ h := ⟨h.batches, h.records⟩

/-- What an import leaves in the store, whichever way it ends: the batch with all its rows, or the
store as it was. -/
inductive Imports (db db' : Database) : Prop
  | call {cutoff now : Instant} {entries : List SettlementInput} {batchHex : String}
      {draws : Nat → String} : (createSettlementBatch cutoff entries now batchHex draws
        (Session.start db ∅)).2.committed = db' → Imports db db'

/-- For the rest of the service an import is a step of its environment. -/
theorem Imports.background {db db' : Database} (h : Imports db db') : Background db db' := by
  obtain ⟨h⟩ := h
  subst h
  rcases createSettlementBatch_cases (Prod.eta _).symm with ⟨_, _, same⟩ | ⟨_, _, result⟩
  · rw [same]
    exact ⟨rfl, rfl, rfl, ⟨rfl, rfl⟩, rfl⟩
  · rw [result.rest]
    exact ⟨rfl, rfl, rfl, ⟨rfl, rfl⟩, rfl⟩

/-- The service, with delivery, the merchant and imports of settlement batches beside its clients. -/
def Accounting (sha256 : String → String) : Pool.Protocol Database (Option Client) :=
  Pool.Beside (fun db db' => (Background db db' ∧ SameSettlements db db') ∨ Imports db db')
    (Client.Step sha256)

/-- Its steps are steps of the service. -/
theorem Accounting.system {sha256 : String → String} {db db' : Database} {a a' : Option Client}
    (h : Accounting sha256 db a db' a') : System sha256 db a db' a' := by
  cases h with
  | environment h =>
    rcases h with ⟨h, _⟩ | h
    · exact .environment h
    · exact .environment h.background
  | thread h => exact .thread h

/-- A step of a client leaves the tables of settlement alone. -/
theorem Client.Step.sameSettlements {sha256 : String → String} {db db' : Database}
    {client after : Client} (h : Client.Step sha256 db client db' after) :
    SameSettlements db db' := by
  cases h with
  | begin => exact .refl db
  | load => exact .refl db
  | act _ hact =>
    have kept := Client.act_preserves (SameSettlements.apart db) sha256 client (.refl db)
    rwa [hact] at kept
  | interrupt => exact .refl db

section Accounted

variable {ι : Type} [DecidableEq ι] {sha256 : String → String}
  {ts us : List (Pool.Transition Database ι (Option Client))}
  {v u : Pool.World Database ι (Option Client)}

/-- An execution of the service with imports. The imports are steps of the environment, so that
everything an execution keeps is kept. -/
def Accounted (sha256 : String → String) (ts : List (Pool.Transition Database ι (Option Client)))
    (v : Pool.World Database ι (Option Client)) : Prop :=
  ∃ w, Initial w ∧ Pool.Run (Accounting sha256) w ts v

theorem Accounted.execution (h : Accounted sha256 ts v) : Execution sha256 ts v := by
  obtain ⟨w, initial, run⟩ := h
  exact ⟨w, initial, run.mono fun _ _ _ _ => Accounting.system⟩

/-- What a step does to the tables of settlement: nothing, or an import. -/
theorem Accounting.settlements {db db' : Database} {a a' : Option Client}
    (h : Accounting sha256 db a db' a') :
    SameSettlements db db' ∨ ∃ cutoff now entries batchHex draws batch,
      ImportResult cutoff now entries batchHex draws batch db db' := by
  cases h with
  | environment h =>
    rcases h with ⟨_, h⟩ | ⟨⟨h⟩⟩
    · exact .inl h
    · subst h
      rcases createSettlementBatch_cases (Prod.eta _).symm with ⟨_, _, same⟩ | ⟨batch, _, result⟩
      · exact .inl (by rw [same]; exact .refl db)
      · exact .inr ⟨_, _, _, _, _, batch, result⟩
  | thread h => exact .inl h.sameSettlements

theorem SettlementsGrounded.step {db db' : Database} {a a' : Option Client}
    (grounded : SettlementsGrounded db) (h : Accounting sha256 db a db' a') :
    SettlementsGrounded db' := by
  rcases h.settlements with same | ⟨_, _, _, _, _, batch, result⟩
  · unfold SettlementsGrounded
    rw [same.batches, same.records]
    exact grounded
  · intro row mem
    rw [result.rows] at mem
    rcases List.mem_append.mp mem with hold | hnew
    · obtain ⟨older, holder⟩ := grounded row hold
      exact ⟨older, Table.get_insert_of_some result.stored holder⟩
    · exact ⟨batch, by rw [(mem_settlementRows row hnew).1]; exact Table.get_insert_self result.stored⟩

/-- In every store of an execution the rows of settlements belong to stored batches. -/
theorem Accounted.grounded (h : Accounted sha256 ts v) : SettlementsGrounded v.shared := by
  obtain ⟨w, initial, run⟩ := h
  refine run.shared_invariant (fun _ _ _ _ => SettlementsGrounded.step) ?_
  rw [initial.empty]
  intro row mem
  cases mem

/-- The payments of a store, each with what an authorization fixed of it. -/
def KeepsIdentities (db db' : Database) : Prop :=
  ∀ id p, db.payments.get id = some p → ∃ q, db'.payments.get id = some q ∧ SameIdentity p q

theorem KeepsIdentities.refl (db : Database) : KeepsIdentities db db :=
  fun _ p hp => ⟨p, hp, .refl p⟩

theorem KeepsIdentities.trans {a b c : Database} (h : KeepsIdentities a b)
    (k : KeepsIdentities b c) : KeepsIdentities a c := by
  intro id p hp
  obtain ⟨q, hq, hpq⟩ := h id p hp
  obtain ⟨r, hr, hqr⟩ := k id q hq
  exact ⟨r, hr, hpq.trans hqr⟩

/-- **No effect changes what an authorization fixed.** -/
theorem Effect.keepsIdentities {db db' : Database} (h : Effect sha256 db db') :
    KeepsIdentities db db' := by
  intro id p hp
  rcases h.advances_or_same with ⟨_, _, _, h⟩ | ⟨_, before, after, h⟩ | h | h
  · exact ⟨p, Table.get_insert_of_some h.payments hp, .refl p⟩
  · by_cases hid : id = before.id
    · subst hid
      cases hp.symm.trans h.stored
      exact ⟨after, h.stored_after, h.decided.sameIdentity⟩
    · exact ⟨p, (h.get_of_ne hid).trans hp, .refl p⟩
  · exact ⟨p, by rw [h.payments]; exact hp, .refl p⟩
  · exact ⟨p, by rw [h.payments]; exact hp, .refl p⟩

omit [DecidableEq ι] in
theorem Moves.keepsIdentities {t : Pool.Transition Database ι (Option Client)}
    (h : Moves sha256 t) : KeepsIdentities t.pre t.post := by
  have effects := h.effects
  generalize t.post = db at effects
  induction effects with
  | refl => exact .refl _
  | tail _ h ih => exact ih.trans h.keepsIdentities

/-- A step keeps a stored batch and its rows. -/
theorem Accounting.keepsBatch {db db' : Database} {a a' : Option Client}
    {batch : SettlementBatchRecord} (h : Accounting sha256 db a db' a')
    (stored : db.settlementBatches.get batch.id = some batch) :
    db'.settlementBatches.get batch.id = some batch ∧ rowsOf db' batch.id = rowsOf db batch.id := by
  rcases h.settlements with same | ⟨cutoff, now, entries, batchHex, draws, other, result⟩
  · unfold rowsOf
    rw [same.batches, same.records]
    exact ⟨stored, rfl⟩
  · refine ⟨Table.get_insert_of_some result.stored stored, ?_⟩
    have hne : other.id ≠ batch.id := by
      intro heq
      have free := (Table.insert_eq_some result.stored).2.1
      rw [show settlementBatchSchema.key other = other.id from rfl, heq, stored] at free
      cases free
    have hnone : (settlementRows other.id now draws entries 1).filter
        (fun row => decide (row.batchId = batch.id)) = [] := by
      apply List.filter_eq_nil_iff.mpr
      intro row mem hid
      exact hne ((mem_settlementRows row mem).1.symm.trans (of_decide_eq_true hid))
    unfold rowsOf
    rw [result.rows, List.filter_append, hnone, List.append_nil]

/-- **What follows an import keeps its batch**: the header, the rows, and what was fixed of every
payment. -/
theorem Accounted.keepsBatch (h : Accounted sha256 ts v)
    (run : Pool.Run (Accounting sha256) v us u) {batch : SettlementBatchRecord}
    (stored : v.shared.settlementBatches.get batch.id = some batch) :
    u.shared.settlementBatches.get batch.id = some batch ∧
      rowsOf u.shared batch.id = rowsOf v.shared batch.id ∧
      KeepsIdentities v.shared u.shared := by
  induction run with
  | nil => exact ⟨stored, rfl, .refl _⟩
  | @snoc u us t run enabled ih =>
    obtain ⟨hstored, hrows, hkept⟩ := ih
    obtain ⟨w, initial, before⟩ := h
    have reached : Accounted sha256 (ts ++ (us ++ [t])) (u.apply t) :=
      ⟨w, initial, before.append (run.snoc enabled)⟩
    have moves := reached.execution.moves
      (List.mem_append_right _ (List.mem_append_right _ (List.mem_singleton.mpr rfl)))
    rw [← enabled.1] at hstored hrows hkept
    obtain ⟨hstored', hrows'⟩ := Accounting.keepsBatch enabled.2.2 hstored
    exact ⟨hstored', hrows'.trans hrows, hkept.trans moves.keepsIdentities⟩

end Accounted

end PaymentLab
