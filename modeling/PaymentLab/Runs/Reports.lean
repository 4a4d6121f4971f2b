import PaymentLab.Runs.Settlements
import PaymentLab.Services.ConfirmationReporting

/-!
# Saved sections

How one call of `confirmation_section` ends (`confirmationSection_cases`): it is refused, it answers
the section as it was saved, or it generates the section and saves it. To the rest of the service a
call is a step of its environment (`Reports.background`).
-/

namespace PaymentLab

open Relational Transactional Transactional.Service

/-- How a call for the section of a batch ends. -/
inductive SectionAnswered (batchId : String) (clock : Datetime) (db db' : Database) :
    Except ServiceError ConfirmationReport → Prop
  | refused {e : ServiceError} : db' = db → SectionAnswered batchId clock db db' (.error e)
  /-- the section is answered as it was saved -/
  | saved {record : ConfirmationReportRecord} :
      db.confirmationReports.get batchId = some record → db' = db →
      SectionAnswered batchId clock db db' (.ok record.payload)
  /-- the section is generated from the committed store, and saved with it -/
  | generated {batch : SettlementBatchRecord} {generated : Instant} :
      db.confirmationReports.get batchId = none →
      db.settlementBatches.get batchId = some batch → clock = .aware generated →
      db.confirmationReports.insert
          { batchId := batchId, payload := generateReport db batch.cutoff generated } =
        some db'.confirmationReports →
      db' = { db with confirmationReports := db'.confirmationReports } →
      SectionAnswered batchId clock db db' (.ok (generateReport db batch.cutoff generated))

theorem readReportClock_cases {clock : Datetime} {s s' : DatabaseSession}
    {r : Except ServiceError Instant} (h : readReportClock clock s = (r, s')) :
    s' = s ∧ ((∃ e, r = .error e) ∨ ∃ utc, clock = .aware utc ∧ r = .ok utc) := by
  cases clock with
  | naive wall =>
    cases h
    exact ⟨rfl, .inl ⟨_, rfl⟩⟩
  | aware utc =>
    cases h
    exact ⟨rfl, .inr ⟨utc, rfl, rfl⟩⟩

/-- The first generation, under the reservation of its writer. -/
theorem firstGeneration_cases {batchId : String} {clock : Datetime} {s s' : DatabaseSession}
    {r : Except ServiceError ConfirmationReport} (clean : s.working = s.committed)
    (first : s.committed.confirmationReports.get batchId = none)
    (h : firstGeneration batchId clock s = (r, s')) :
    SectionAnswered batchId clock s.committed s'.committed r := by
  unfold firstGeneration at h
  rw [bind_ok (query_apply _ _), clean] at h
  cases hbatch : s.committed.settlementBatches.get batchId with
  | none =>
    rw [hbatch] at h
    cases h
    exact .refused rfl
  | some batch =>
    rw [hbatch] at h
    dsimp only at h
    rcases bind_cases h with ⟨e, hclock, rfl⟩ | ⟨generated, s₁, hclock, hrest⟩
    · exact .refused (by rw [(readReportClock_cases hclock).1])
    · obtain ⟨hsession, ⟨_, herror⟩ | ⟨utc, haware, hutc⟩⟩ := readReportClock_cases hclock
      · cases herror
      cases hutc
      rw [hsession, bind_ok (query_apply _ _)] at hrest
      rcases bind_cases hrest with ⟨e, hflush, rfl⟩ | ⟨_, s₂, hflush, hrest⟩
      · have hsame := (silent_flush _).committed hflush
        exact .refused hsame
      · obtain ⟨db, hinsert, rfl⟩ := flush_eq_ok hflush
        obtain ⟨t, ht, rfl⟩ := insertInto_eq_ok
          (show insertConfirmationReport _ s.committed = .ok db from hinsert)
        cases hrest
        exact .generated first hbatch haware ht rfl

/-- **A call for the section of a batch.** -/
theorem confirmationSection_cases {batchId : String} {clock : Datetime} {s s' : DatabaseSession}
    {r : Except ServiceError ConfirmationReport}
    (h : confirmationSection batchId clock s = (r, s')) :
    SectionAnswered batchId clock s.committed s'.committed r := by
  unfold confirmationSection at h
  rw [bind_ok (beginCoordinatedWrite_apply s)] at h
  obtain ⟨s₁, hbody, hsame, -⟩ := discard_cases h
  rw [hsame]
  rw [bind_ok (query_apply _ _)] at hbody
  cases hsaved : (coordinated s).working.confirmationReports.get batchId with
  | some record =>
    rw [hsaved] at hbody
    cases hbody
    exact .saved hsaved rfl
  | none =>
    rw [hsaved] at hbody
    exact firstGeneration_cases (s := coordinated s) rfl hsaved hbody

/-- A section that was saved is answered, whatever the clock reads. -/
theorem confirmationSection_saved {batchId : String} {s : DatabaseSession}
    {record : ConfirmationReportRecord}
    (saved : s.committed.confirmationReports.get batchId = some record) (clock : Datetime) :
    (confirmationSection batchId clock s).1 = .ok record.payload ∧
      (confirmationSection batchId clock s).2.committed = s.committed := by
  have hsection : confirmationSection batchId clock s =
      (.ok record.payload,
        { coordinated s with working := s.committed, begun := false, reserved := false }) := by
    unfold confirmationSection
    rw [bind_ok (beginCoordinatedWrite_apply s)]
    refine tryCatch_ok ?_
    rw [bind_ok (query_apply _ _), show (coordinated s).working.confirmationReports.get batchId =
      some record from saved]
    rfl
  rw [hsection]
  exact ⟨rfl, rfl⟩

/-- A section that was answered is saved. -/
theorem SectionAnswered.stored {batchId : String} {clock : Datetime} {db db' : Database}
    {report : ConfirmationReport} (h : SectionAnswered batchId clock db db' (.ok report)) :
    db'.confirmationReports.get batchId = some { batchId := batchId, payload := report } := by
  cases h with
  | @saved record hsaved hsame =>
    obtain rfl : record.batchId = batchId := (Table.get_eq_some hsaved).2
    rw [hsame]
    exact hsaved
  | generated _ _ _ hinsert _ => exact Table.get_insert_self hinsert

/-! ## Calls beside the service -/

/-- What a call for a section leaves in the store, whichever way it ends. -/
inductive Reports (db db' : Database) : Prop
  | call {batchId : String} {clock : Datetime} {identity : IdentityMap} :
      (confirmationSection batchId clock (Session.start db identity)).2.committed = db' →
      Reports db db'

/-- A call leaves the store as it was, or saves one section of a stored batch. -/
theorem Reports.cases {db db' : Database} (h : Reports db db') :
    db' = db ∨ ∃ record : ConfirmationReportRecord,
      db.confirmationReports.insert record = some db'.confirmationReports ∧
        (∃ batch, db.settlementBatches.get record.batchId = some batch) ∧
        db' = { db with confirmationReports := db'.confirmationReports } := by
  obtain @⟨batchId, clock, identity, h⟩ := h
  obtain ⟨r, s', hrun⟩ : ∃ r s', confirmationSection batchId clock (Session.start db identity) =
    (r, s') := ⟨_, _, rfl⟩
  rw [hrun] at h
  subst h
  cases confirmationSection_cases hrun with
  | refused same => exact .inl same
  | saved _ same => exact .inl same
  | generated _ hbatch _ hinsert hrest => exact .inr ⟨_, hinsert, ⟨_, hbatch⟩, hrest⟩

/-- For the rest of the service such a call is a step of its environment. -/
theorem Reports.background {db db' : Database} (h : Reports db db') : Background db db' := by
  rcases h.cases with same | ⟨_, _, _, hrest⟩
  · rw [same]
    exact ⟨rfl, rfl, rfl, ⟨rfl, rfl⟩, rfl⟩
  · rw [hrest]
    exact ⟨rfl, rfl, rfl, ⟨rfl, rfl⟩, rfl⟩

end PaymentLab
