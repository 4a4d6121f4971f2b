import PaymentLab.Laws.Platform

/-!
# References between tables

The tables of the model do not check their foreign keys. `foreignKeyCheck` does, as the schema states
them, and no store the platform reaches violates one (`references_resolve`): a refused reference can
be no outcome of any call. Payments, events and batches are never deleted, so it is enough that each
write refers to a stored row.

It is about the tables that the application writes. The rows of settlements name their payment
without a foreign key, as in the schema, so that this is not among the references checked;
`Imported` says it of the batches themselves. A legacy database has its own references, checked
before it is upgraded.
-/

namespace PaymentLab

open Relational Transactional

/-! ## The foreign keys -/

/-- A reference to a payment, where there is one. -/
def Database.refersToPayment (db : Database) (paymentId : Option String) : Bool :=
  paymentId.all fun id => (db.payments.get id).isSome

/-- The foreign keys of `persistence/models.py`, over every stored row. -/
def foreignKeyCheck (db : Database) : Bool :=
  db.ledgerEntries.rows.all (fun entry => db.refersToPayment (some entry.paymentId))
    && db.idempotencyRecords.rows.all (fun claim => db.refersToPayment claim.paymentId)
    && db.webhookEvents.rows.all (fun event => db.refersToPayment (some event.paymentId))
    && db.deliveryAttempts.rows.all
      (fun attempt => (db.webhookEvents.get attempt.eventId).isSome)
    && db.confirmationReports.rows.all
      (fun report => (db.settlementBatches.get report.batchId).isSome)
    && db.paymentConfirmations.rows.all
      (fun confirmation => db.refersToPayment confirmation.paymentId)
    && db.settlementRecords.rows.all (fun row => (db.settlementBatches.get row.batchId).isSome)

/-- A row under an identity. -/
theorem isSome_of_exists {α : Type} {o : Option α} (h : ∃ a, o = some a) : o.isSome = true :=
  Option.isSome_iff_exists.mpr h

/-! ## Claims and final records -/

/-- The claims and the final records name stored payments, and every claim is completed: no
half-finished claim is ever seen. -/
structure Named (db : Database) : Prop where
  claims : ∀ claim ∈ db.idempotencyRecords.rows, ∃ id p, claim.paymentId = some id ∧
    claim.responseSnapshot.isSome ∧ db.payments.get id = some p
  confirmations : ∀ confirmation ∈ db.paymentConfirmations.rows, ∀ id,
    confirmation.paymentId = some id → ∃ p, db.payments.get id = some p

section Effects

variable {sha256 : String → String} {db db' : Database}

theorem Grows.stored (h : Grows db db') {id : String}
    (stored : ∃ p, db.payments.get id = some p) : ∃ p, db'.payments.get id = some p := by
  obtain ⟨p, hp⟩ := stored
  obtain ⟨q, hq, _⟩ := h id p hp
  exact ⟨q, hq⟩

/-- What adds neither a claim nor a final record. -/
theorem Named.kept (h : Named db) (grows : Grows db db')
    (claims : db'.idempotencyRecords = db.idempotencyRecords)
    (confirmations : db'.paymentConfirmations = db.paymentConfirmations) : Named db' := by
  refine ⟨fun claim mem => ?_, fun confirmation mem id hid => ?_⟩
  · rw [claims] at mem
    obtain ⟨id, p, hid, hsnapshot, hp⟩ := h.claims claim mem
    obtain ⟨q, hq⟩ := grows.stored ⟨p, hp⟩
    exact ⟨id, q, hid, hsnapshot, hq⟩
  · rw [confirmations] at mem
    exact grows.stored (h.confirmations confirmation mem id hid)

/-- What adds a completed claim of a stored payment. -/
theorem Named.claimed (h : Named db) (grows : Grows db db') {claim : IdempotencyRecord}
    {payment : PaymentRecord}
    (inserted : db.idempotencyRecords.insert (completedClaim claim payment) =
      some db'.idempotencyRecords)
    (stored : db'.payments.get payment.id = some payment)
    (confirmations : db'.paymentConfirmations = db.paymentConfirmations) : Named db' := by
  refine ⟨fun row mem => ?_, fun confirmation mem id hid => ?_⟩
  · rw [Table.insert_rows inserted] at mem
    rcases List.mem_append.mp mem with mem | mem
    · obtain ⟨id, p, hid, hsnapshot, hp⟩ := h.claims row mem
      obtain ⟨q, hq⟩ := grows.stored ⟨p, hp⟩
      exact ⟨id, q, hid, hsnapshot, hq⟩
    · rw [List.mem_singleton.mp mem]
      exact ⟨payment.id, payment, rfl, rfl, stored⟩
  · rw [confirmations] at mem
    exact grows.stored (h.confirmations confirmation mem id hid)

/-- **Every effect keeps the claims and the final records named.** -/
theorem Effect.named (h : Named db) (e : Effect sha256 db db') : Named db' := by
  have grows := e.grows
  cases e with
  | created e =>
    obtain ⟨_, hclaim⟩ := e.claim
    exact h.claimed grows hclaim (Table.get_insert_self e.payments) e.confirmations.confirmations
  | operated e =>
    obtain ⟨_, hclaim⟩ := e.claim
    obtain ⟨_, _, hadvances⟩ := e.advances
    refine h.claimed grows hclaim ?_ e.confirmations.confirmations
    rw [hadvances.after_id]
    exact hadvances.stored_after
  | received e => exact h.kept grows e.claims e.confirmations
  | expired e => exact h.kept grows e.claims e.confirmations.confirmations
  | background e => exact h.kept grows e.claims e.confirmations.confirmations
  | @settled receipt disposition e =>
    refine ⟨fun claim mem => ?_, fun confirmation mem id hid => ?_⟩
    · rw [e.claims] at mem
      obtain ⟨id, p, hid, hsnapshot, hp⟩ := h.claims claim mem
      obtain ⟨q, hq⟩ := grows.stored ⟨p, hp⟩
      exact ⟨id, q, hid, hsnapshot, hq⟩
    · rw [Table.insert_rows e.confirmation] at mem
      rcases List.mem_append.mp mem with mem | mem
      · exact grows.stored (h.confirmations confirmation mem id hid)
      · rw [List.mem_singleton.mp mem] at hid
        obtain ⟨payment, hpayment, rfl⟩ := Option.map_eq_some_iff.mp hid
        exact grows.stored ⟨payment, (paymentByReference_eq_some hpayment).1⟩

end Effects

/-! ## Runs -/

section Runs

variable {ι : Type} [DecidableEq ι] {sha256 : String → String} {lib : StandardLibrary}

theorem Execution.named {ts : List (Pool.Transition Database ι (Option Client))}
    {v : Pool.World Database ι (Option Client)} (h : Execution sha256 ts v) : Named v.shared := by
  refine h.invariant ⟨fun _ mem => ?_, fun _ mem => ?_⟩ Effect.named
  · cases mem
  · cases mem

/-- Saved sections belong to stored batches. -/
def SectionsGrounded (db : Database) : Prop :=
  ∀ report ∈ db.confirmationReports.rows,
    ∃ batch, db.settlementBatches.get report.batchId = some batch

/-- Every party but the office leaves the sections and the batches alone. -/
theorem Client.Step.sameSections {db db' : Database} {client after : Client}
    (h : Client.Step sha256 db client db' after) :
    db'.confirmationReports = db.confirmationReports := by
  have apart : Apart fun d => d.confirmationReports = db.confirmationReports :=
    ⟨fun _ h => h, fun _ h => h, fun _ h => h, fun _ h => h, fun _ h => h, fun _ h => h⟩
  cases h with
  | begin => rfl
  | load => rfl
  | act _ hact =>
    have kept : (client.act sha256 db).1.confirmationReports = db.confirmationReports :=
      client.act_preserves apart sha256 rfl
    rwa [hact] at kept
  | interrupt => rfl

theorem Courier.Step.sameSections {db db' : Database} {courier after : Courier}
    (h : Courier.Step lib db courier db' after) :
    db'.confirmationReports = db.confirmationReports := by
  cases h with
  | begin => rfl
  | crash => rfl
  | next unfinished hnext =>
    cases Courier.next_cases unfinished hnext with
    | called _ _ hsame _ => rw [hsame]
    | consumed _ _ hstep _ => rw [(ConsumerThread.act_moves hstep).2.rest]
    | dispatched _ acts _ => rw [acts.rest]

/-- What a step of the platform does to the saved sections: nothing, or one is saved. -/
theorem Platform.sections {db db' : Database} {party party' : Party}
    (h : Platform sha256 lib db party db' party') :
    db'.confirmationReports = db.confirmationReports ∨ ∃ record : ConfirmationReportRecord,
      db.confirmationReports.insert record = some db'.confirmationReports ∧
        db'.settlementBatches = db.settlementBatches ∧
        ∃ batch, db.settlementBatches.get record.batchId = some batch := by
  cases h with
  | client h => exact .inl h.sameSections
  | courier h => exact .inl h.sameSections
  | receive => exact .inl rfl
  | consume h => exact .inl (by rw [(ConsumerThread.act_moves h).2.rest])
  | imports h => exact .inl (by rw [h.rest])
  | reports h =>
    rcases h.cases with hsame | ⟨record, hinsert, hbatch, hrest⟩
    · exact .inl (by rw [hsame])
    · exact .inr ⟨record, hinsert, by rw [hrest], hbatch⟩

/-- A batch stays as it was imported. -/
theorem Platform.keepsBatch {db db' : Database} {party party' : Party}
    (h : Platform sha256 lib db party db' party') {batch : SettlementBatchRecord}
    (stored : db.settlementBatches.get batch.id = some batch) :
    db'.settlementBatches.get batch.id = some batch :=
  (Accounting.keepsBatch h.accounting stored).1

theorem SectionsGrounded.step {db db' : Database} {party party' : Party}
    (h : SectionsGrounded db) (step : Platform sha256 lib db party db' party') :
    SectionsGrounded db' := by
  have older : ∀ batchId, (∃ batch, db.settlementBatches.get batchId = some batch) →
      ∃ batch, db'.settlementBatches.get batchId = some batch := by
    rintro batchId ⟨batch, hbatch⟩
    obtain rfl : batch.id = batchId := (Table.get_eq_some hbatch).2
    exact ⟨batch, step.keepsBatch hbatch⟩
  intro report mem
  rcases step.sections with hsame | ⟨record, hinsert, _, hbatch⟩
  · rw [hsame] at mem
    exact older _ (h report mem)
  · rw [Table.insert_rows hinsert] at mem
    rcases List.mem_append.mp mem with mem | mem
    · exact older _ (h report mem)
    · rw [List.mem_singleton.mp mem]
      exact older _ hbatch

variable {ts us : List (Pool.Transition Database ι Party)} {v u : Pool.World Database ι Party}

theorem Running.sectionsGrounded (h : Running sha256 lib ts v) : SectionsGrounded v.shared := by
  refine h.invariant (fun _ mem => ?_) fun _ _ _ _ _ _ _ step grounded => grounded.step step
  cases mem

/-- **Every reference resolves**: no store the platform reaches violates a foreign key of the
schema, and no claim in it is unfinished. -/
theorem references_resolve (h : Running sha256 lib ts v) :
    foreignKeyCheck v.shared = true ∧
      ∀ claim ∈ v.shared.idempotencyRecords.rows, claim.responseSnapshot.isSome := by
  have grounded := h.execution.consistent.grounded
  have named := h.execution.named
  refine ⟨?_, fun claim mem => ?_⟩
  · unfold foreignKeyCheck Database.refersToPayment
    simp only [Bool.and_eq_true, List.all_eq_true, Option.all_some]
    refine ⟨⟨⟨⟨⟨⟨fun entry mem => ?_, fun claim mem => ?_⟩, fun event mem => ?_⟩,
      fun attempt mem => ?_⟩, fun report mem => ?_⟩, fun confirmation mem => ?_⟩, fun row mem => ?_⟩
    · exact isSome_of_exists (grounded.ledger entry mem)
    · obtain ⟨id, p, hid, _, hp⟩ := named.claims claim mem
      rw [hid]
      exact isSome_of_exists ⟨p, hp⟩
    · exact isSome_of_exists (grounded.events event mem)
    · exact isSome_of_exists (h.holds.1.attempted attempt mem)
    · exact isSome_of_exists (h.sectionsGrounded report mem)
    · refine Option.all_eq_true _ _ |>.mpr fun id hid => ?_
      exact isSome_of_exists (named.confirmations confirmation mem id hid)
    · exact isSome_of_exists (h.accounted.grounded row mem)
  · obtain ⟨_, _, _, hsnapshot, _⟩ := named.claims claim mem
    exact hsnapshot

/-! ## Saved sections -/

/-- A saved section stays as it was saved. -/
theorem Running.keepsSection (h : Running sha256 lib ts v)
    (run : Pool.Run (Platform sha256 lib) v us u) {record : ConfirmationReportRecord}
    (saved : v.shared.confirmationReports.get record.batchId = some record) :
    u.shared.confirmationReports.get record.batchId = some record := by
  refine h.continues (P := fun db => db.confirmationReports.get record.batchId = some record)
    run saved ?_
  intro db party db' party' _ _ _ step hsaved
  rcases step.sections with hsame | ⟨_, hinsert, _⟩
  · rw [hsame]
    exact hsaved
  · exact Table.get_insert_of_some hinsert hsaved

/-- **A section is answered once and for all**: what a call answered for a batch every later call
answers, whoever acted since and whatever the clock reads, and it writes nothing. -/
theorem section_frozen {batchId : String} {clock : Datetime} {s s' : DatabaseSession}
    {report : ConfirmationReport}
    (answered : confirmationSection batchId clock s = (.ok report, s'))
    (h : Running sha256 lib ts v) (hv : v.shared = s'.committed)
    (run : Pool.Run (Platform sha256 lib) v us u) {t : DatabaseSession}
    (ht : t.committed = u.shared) (later : Datetime) :
    (confirmationSection batchId later t).1 = .ok report ∧
      (confirmationSection batchId later t).2.committed = u.shared := by
  let record : ConfirmationReportRecord := { batchId := batchId, payload := report }
  have saved : s'.committed.confirmationReports.get record.batchId = some record :=
    (confirmationSection_cases answered).stored
  rw [← hv] at saved
  have kept := h.keepsSection run saved
  rw [← ht] at kept ⊢
  exact confirmationSection_saved kept later

end Runs

/-! ## A closed day -/

/-- The references of a shop that was served. -/
theorem servedShop_references : foreignKeyCheck servedShop.shared = true ∧
    ∀ claim ∈ servedShop.shared.idempotencyRecords.rows, claim.responseSnapshot.isSome := by
  obtain ⟨ts, h, _⟩ := Running.operate (fun _ => "") purchaseLibrary shop_opening serving
  exact references_resolve h

/-- The shop before its courier set out. -/
def openShop : Pool.World Database Keeper Party :=
  operate (fun _ => "") purchaseLibrary (List.replicate 2 .customer) shop

/-- The store after the office closed a batch without a row. -/
def billedStore : Database :=
  (createSettlementBatch 7 [] 10 "1" (fun _ => "") (Session.start openShop.shared ∅)).2.committed

/-- The call for its section. -/
def billedSection : Except ServiceError ConfirmationReport × DatabaseSession :=
  confirmationSection "setb_1" (.aware 10) (Session.start billedStore ∅)

/-- The shop once the section is saved. -/
def billedShop : Pool.World Database Keeper Party :=
  { openShop with shared := billedSection.2.committed }

/-- What the office does, in a run. -/
theorem Running.office {ι : Type} [DecidableEq ι] {sha256 : String → String} {lib : StandardLibrary}
    {ts : List (Pool.Transition Database ι Party)} {v : Pool.World Database ι Party} {db : Database}
    (h : Running sha256 lib ts v) {i : ι} (office : v.threads i = .office)
    (step : Platform sha256 lib v.shared .office db .office) :
    ∃ us, Running sha256 lib us { v with shared := db } := by
  have enabled : Pool.Enabled (Platform sha256 lib) v ⟨i, v.shared, .office, db, .office⟩ :=
    ⟨rfl, office.symm, step⟩
  have hworld : v.apply ⟨i, v.shared, .office, db, .office⟩ = { v with shared := db } := by
    refine Pool.World.ext rfl ?_
    show Function.update v.threads i .office = v.threads
    rw [← office, Function.update_eq_self]
  exact ⟨_, hworld ▸ h.append (.single enabled)⟩

theorem billedShop_running : ∃ ts, Running (fun _ => "") purchaseLibrary ts billedShop := by
  obtain ⟨ts, h, _⟩ := Running.operate (fun _ => "") purchaseLibrary shop_opening
    (List.replicate 2 .customer)
  have office : openShop.threads .office = .office := Pool.operate_threads shop (by decide)
  have imported : Imports openShop.shared billedStore := .call rfl
  obtain ⟨us, billed⟩ := h.office office (.imports imported)
  exact billed.office (i := Keeper.office) office (.reports (.call rfl))

/-- The section of the day, asked for again once the courier has been out. -/
theorem billedSection_frozen :
    ∃ report s', confirmationSection "setb_1" (.aware 10) (Session.start billedStore ∅) =
        (.ok report, s') ∧ report.cutoff = 7 ∧
      ∀ later t, t.committed = (operate (fun _ => "") purchaseLibrary
          (List.replicate 8 .courier) billedShop).shared →
        (confirmationSection "setb_1" later t).1 = .ok report ∧
          (confirmationSection "setb_1" later t).2.committed = t.committed := by
  have generated : billedSection.1.toOption.map (·.cutoff) = some 7 := by decide +kernel
  obtain ⟨r, s', hrun⟩ : ∃ r s', billedSection = (r, s') := ⟨_, _, rfl⟩
  rw [hrun] at generated
  cases r with
  | error e => cases generated
  | ok report =>
    refine ⟨report, s', hrun, Option.some.inj generated, fun later t ht => ?_⟩
    obtain ⟨ts, h⟩ := billedShop_running
    obtain ⟨us, run, _⟩ := Pool.run_of_operate (P := Platform (fun _ => "") purchaseLibrary)
      Party.next_eq_some (List.replicate 8 .courier) billedShop
    have hshared : billedShop.shared = s'.committed := congrArg (·.2.committed) hrun
    rw [ht]
    exact section_frozen hrun h hshared run ht later

end PaymentLab
