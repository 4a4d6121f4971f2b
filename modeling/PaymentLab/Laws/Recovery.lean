import PaymentLab.Laws.Expiry

/-!
# Recovery drains

No pending receipt is poison: in every reachable store its completion goes through, whatever it says
and whatever became of its payment (`completeConfirmation_accepted`). So recovery works off the pending
receipts block by block in their order, and enough calls leave none (`recovery_drains`).

The ids drawn for ledger entries and events are assumed new, and the limit to be one that the source
allows; nothing else is. A block is the first receipts in the order in which recovery selects them,
and its length is the limit of the call, so the number of calls is known beforehand. Receipts that
are accepted while recovery runs are for the next run.
-/

namespace PaymentLab

open Relational Transactional Transactional.Service

theorem Consistent.of_same {db db' : Database} (h : Consistent db) (same : SameAccounts db db') :
    Consistent db' := by
  refine ⟨same.grounded h.grounded, fun id a ha => h.lived id a ?_⟩
  rw [← same.account id]
  exact ha

/-! ## The effect of a completion -/

/-- The ids generated for a completion are not taken, as those of `uuid4` are not. -/
structure NewIds (db : Database) (draws : Draws) : Prop where
  ledger : db.ledgerEntries.get ("led_" ++ draws.ledger) = none
  event : db.webhookEvents.get ("evt_" ++ draws.event) = none

/-- Every row that transactions added to the ledger and the outbox has an id generated for them. -/
structure DrawnFrom (drawn : List Draws) (db db' : Database) : Prop where
  ledger : ∀ entry ∈ db'.ledgerEntries.rows,
    entry ∈ db.ledgerEntries.rows ∨ ∃ d ∈ drawn, entry.id = "led_" ++ d.ledger
  events : ∀ event ∈ db'.webhookEvents.rows,
    event ∈ db.webhookEvents.rows ∨ ∃ d ∈ drawn, event.id = "evt_" ++ d.event

theorem DrawnFrom.of_same {drawn : List Draws} {db db' : Database}
    (ledger : db'.ledgerEntries = db.ledgerEntries) (events : db'.webhookEvents = db.webhookEvents) :
    DrawnFrom drawn db db' :=
  ⟨fun _ mem => .inl (ledger ▸ mem), fun _ mem => .inl (events ▸ mem)⟩

theorem DrawnFrom.append {drawn drawn' : List Draws} {a b c : Database} (h : DrawnFrom drawn a b)
    (k : DrawnFrom drawn' b c) : DrawnFrom (drawn ++ drawn') a c := by
  refine ⟨fun entry mem => ?_, fun event mem => ?_⟩
  · rcases k.ledger entry mem with mem | ⟨d, hd, heq⟩
    · exact (h.ledger entry mem).imp id fun ⟨d, hd, heq⟩ => ⟨d, List.mem_append_left _ hd, heq⟩
    · exact .inr ⟨d, List.mem_append_right _ hd, heq⟩
  · rcases k.events event mem with mem | ⟨d, hd, heq⟩
    · exact (h.events event mem).imp id fun ⟨d, hd, heq⟩ => ⟨d, List.mem_append_left _ hd, heq⟩
    · exact .inr ⟨d, List.mem_append_right _ hd, heq⟩

/-- Ids that no transaction drew are as new as before. -/
theorem DrawnFrom.newIds {drawn : List Draws} {db db' : Database} (h : DrawnFrom drawn db db')
    {draws : Draws} (new : NewIds db draws)
    (apart : ∀ d ∈ drawn, d.ledger ≠ draws.ledger ∧ d.event ≠ draws.event) : NewIds db' draws := by
  refine ⟨Table.get_eq_none.mpr fun entry mem hid => ?_,
    Table.get_eq_none.mpr fun event mem hid => ?_⟩
  · have hid : entry.id = "led_" ++ draws.ledger := hid
    rcases h.ledger entry mem with hold | ⟨d, hd, heq⟩
    · exact Table.get_eq_none.mp new.ledger entry hold hid
    · exact (apart d hd).1 ((String.append_right_inj _).mp (heq.symm.trans hid))
  · have hid : event.id = "evt_" ++ draws.event := hid
    rcases h.events event mem with hold | ⟨d, hd, heq⟩
    · exact Table.get_eq_none.mp new.event event hold hid
    · exact (apart d hd).2 ((String.append_right_inj _).mp (heq.symm.trans hid))

section Effect

variable {s : DatabaseSession} {p : PaymentRecord} {draws : Draws}

/-- A confirmation of the amount captures an awaiting payment. -/
theorem Awaits.captures {db : Database} (h : Awaits db p) :
    ∃ state next, paymentState p = .ok state ∧ captureConfirmation state p.amount = .ok next ∧
      next.status = .captured ∧ next.authorizedAmount = p.amount ∧
      next.capturedAmount = p.amount ∧ next.refundedAmount = 0 := by
  obtain ⟨state, hstate⟩ := paymentState_of_stored (Table.get_eq_some h.stored).1
  have hstatus : state.status = .awaitingPayment := (paymentState_eq_ok hstate).1.trans h.status
  have hamount := (bounded_of_stored (Table.get_eq_some h.stored).1).amount
  obtain ⟨next, hnext⟩ := PaymentState.create_of_valid .captured (le_refl 0) hamount.le
    (le_refl p.amount)
  refine ⟨state, next, hstate, ?_, PaymentState.create_eq_ok hnext⟩
  unfold captureConfirmation
  rw [if_neg (not_not.mpr hstatus), if_neg (not_le.mpr hamount)]
  exact hnext

/-- An applied confirmation goes through. -/
theorem applyDisposition_applied {command : ConfirmationCommand} {receivedAt : Instant}
    (consistent : Consistent s.working) (h : Awaits s.working p) (amount : command.amount = p.amount)
    (new : NewIds s.working draws) :
    ∃ s', applyDisposition (some p) command .applied receivedAt draws s = (.ok (), s') ∧
      DrawnFrom [draws] s.working s'.working ∧ SameConfirmations s.working s'.working := by
  obtain ⟨state, next, hstate, hnext, hstatus, hauthorized, hcaptured, hrefunded⟩ := h.captures
  have hamount := (bounded_of_stored (Table.get_eq_some h.stored).1).amount
  obtain ⟨t, decided, ht, hflush⟩ := h.flush receivedAt consistent hstate
    (show (LifecycleStep.captureConfirmation p.amount).apply state = .ok next from hnext)
    ⟨hamount.le, le_refl p.amount⟩ (by simp [hstatus]) hauthorized hcaptured hrefunded
  obtain ⟨l, hl⟩ : ∃ l, s.working.ledgerEntries.insert
      (confirmationEntry p command receivedAt draws.ledger) = some l := by
    refine Table.insert_isSome ?_ new.ledger fun _ _ => rfl
    show decide (0 < command.amount) = true
    rw [amount]
    exact decide_eq_true hamount
  obtain ⟨e, he⟩ := consistent.insert_event h.stored decided .captured new.event
  refine ⟨{ s with
      working := { s.working with payments := t, ledgerEntries := l, webhookEvents := e }
      begun := true }, ?_, ⟨fun row mem => ?_, fun row mem => ?_⟩, rfl, rfl⟩
  · have hread : liftDomain (paymentState p) s = (.ok state, s) := by
      rw [hstate]
      rfl
    have hdecide : liftDomain (captureConfirmation state command.amount) s = (.ok next, s) := by
      rw [amount, hnext]
      rfl
    have hposting : insertLedgerEntry (confirmationEntry p command receivedAt draws.ledger)
        { s.working with payments := t } =
          .ok { s.working with payments := t, ledgerEntries := l } := insertInto_ok hl
    unfold applyDisposition
    simp only [if_true]
    rw [bind_ok hread, bind_ok hdecide, bind_ok (flush_ok hflush), bind_ok (flush_ok hposting)]
    exact flush_ok (insertInto_ok he)
  · rw [show ({ s.working with payments := t, ledgerEntries := l, webhookEvents := e } :
      Database).ledgerEntries.rows = _ from Table.insert_rows hl] at mem
    refine (List.mem_append.mp mem).imp id fun h => ⟨draws, List.mem_singleton.mpr rfl, ?_⟩
    rw [List.mem_singleton.mp h]
    rfl
  · rw [show ({ s.working with payments := t, ledgerEntries := l, webhookEvents := e } :
      Database).webhookEvents.rows = _ from Table.insert_rows he] at mem
    refine (List.mem_append.mp mem).imp id fun h => ⟨draws, List.mem_singleton.mpr rfl, ?_⟩
    rw [List.mem_singleton.mp h]
    rfl

/-- **Every disposition goes through.** -/
theorem applyDisposition_accepted (draws : Draws) {payment : Option PaymentRecord}
    {command : ConfirmationCommand} {disposition : ConfirmationDisposition} {receivedAt : Instant}
    (consistent : Consistent s.working) (new : NewIds s.working draws)
    (stored : ∀ p, payment = some p → s.working.payments.get p.id = some p)
    (classified : classify payment command receivedAt = .ok disposition) :
    ∃ s', applyDisposition payment command disposition receivedAt draws s = (.ok (), s') ∧
      DrawnFrom [draws] s.working s'.working ∧ SameConfirmations s.working s'.working := by
  have unchanged : ∀ begun, DrawnFrom [draws] s.working { s with begun := begun }.working ∧
      SameConfirmations s.working { s with begun := begun }.working :=
    fun _ => ⟨.of_same rfl rfl, rfl, rfl⟩
  cases payment with
  | none => exact ⟨s, rfl, unchanged s.begun⟩
  | some p =>
    by_cases happlied : disposition = .applied
    · subst happlied
      obtain ⟨q, _, hq, hstatus, _, _, hamount, _⟩ := classify_eq_applied classified
      cases hq
      exact applyDisposition_applied consistent ⟨stored p rfl, hstatus⟩ hamount new
    · unfold applyDisposition
      simp only [if_neg happlied]
      by_cases hlate : disposition = .late ∧ p.status = .awaitingPayment
      · have hquery : hasProtectingReceipt p s =
            (.ok (protectingReceiptExists s.working p), { s with begun := true }) := by
          unfold hasProtectingReceipt
          rw [query_apply, stored p rfl]
        rw [if_pos hlate, bind_ok hquery]
        cases hprotected : protectingReceiptExists s.working p with
        | true => exact ⟨{ s with begun := true }, by simp, unchanged true⟩
        | false =>
          obtain ⟨s', hexpire, swept⟩ := applyExpiryTransition_accepted receivedAt
            (s := { s with begun := true }) consistent ⟨stored p rfl, hlate.2⟩ new.event
          refine ⟨s', by simpa using hexpire, ⟨fun row mem => .inl ?_, fun row mem => ?_⟩, ?_, ?_⟩
          · rwa [swept.ledger] at mem
          · refine (swept.event_id mem).imp id ?_
            rintro ⟨hex, hin, heq⟩
            exact ⟨draws, List.mem_singleton.mpr rfl, by rw [heq, List.mem_singleton.mp hin]⟩
          · exact swept.receipts
          · exact swept.confirmations
      · rw [if_neg hlate]
        exact ⟨s, rfl, unchanged s.begun⟩

end Effect

/-! ## Completion -/

/-- What recovery relies on in a store. -/
structure Recoverable (sha256 : String → String) (db : Database) : Prop where
  consistent : Consistent db
  settlement : Settlement sha256 db

theorem Effect.recoverable {sha256 : String → String} {db db' : Database}
    (h : Recoverable sha256 db) (e : Effect sha256 db db') : Recoverable sha256 db' :=
  ⟨e.consistent h.consistent, e.settlement h.settlement⟩

/-- **The classification never fails**: a payment that awaits has a deadline. -/
theorem classify_accepted {db : Database} (consistent : Consistent db) {payment : Option PaymentRecord}
    (stored : ∀ p, payment = some p → db.payments.get p.id = some p) (command : ConfirmationCommand)
    (receivedAt : Instant) : ∃ disposition, classify payment command receivedAt = .ok disposition := by
  cases payment with
  | none => exact ⟨_, rfl⟩
  | some p =>
    unfold classify
    dsimp only
    by_cases hexpired : p.status = .expired
    · exact ⟨_, if_pos hexpired⟩
    · rw [if_neg hexpired]
      by_cases hstatus : p.status ≠ .awaitingPayment
      · exact ⟨_, if_pos hstatus⟩
      · rw [if_neg hstatus]
        obtain ⟨_, _, _, _, expiresAt, hdeadline⟩ :=
          (show Awaits db p from ⟨stored p rfl, not_not.mp hstatus⟩).balances consistent
        rw [hdeadline]
        dsimp only
        split
        · exact ⟨_, rfl⟩
        · split
          · exact ⟨_, rfl⟩
          · split <;> exact ⟨_, rfl⟩

section Completion

variable {sha256 : String → String} {db : Database} {s : DatabaseSession}
  {r : ConfirmationReceiptRecord} {draws : Draws}

theorem Settlement.fresh_of_pending (h : Settlement sha256 db)
    (stored : db.confirmationReceipts.get r.confirmationId = some r) (pending : r.completed = false) :
    db.paymentConfirmations.get r.confirmationId = none := by
  cases hget : db.paymentConfirmations.get r.confirmationId with
  | none => rfl
  | some c =>
    have := (h.completed _ r stored).mpr ⟨c, hget⟩
    rw [pending] at this
    cases this

/-- The statements of a completion go through. -/
theorem stageCompletion_accepted (h : Recoverable sha256 s.working)
    (stored : s.working.confirmationReceipts.get r.confirmationId = some r)
    (pending : r.completed = false) (new : NewIds s.working draws)
    {payment : Option PaymentRecord} {disposition : ConfirmationDisposition}
    (known : ∀ p, payment = some p → s.working.payments.get p.id = some p)
    (classified : classify payment r.command r.receivedAt = .ok disposition) :
    ∃ s', stageCompletion r (newConfirmation sha256 r.command r.receivedAt disposition payment) payment
        draws s = (.ok (), s') ∧ DrawnFrom [draws] s.working s'.working := by
  have hamount : decide (0 < r.amount) = true :=
    s.working.confirmationReceipts.checked r (Table.get_eq_some stored).1
  obtain ⟨c, hc⟩ : ∃ c, s.working.paymentConfirmations.insert
      (newConfirmation sha256 r.command r.receivedAt disposition payment) = some c :=
    Table.insert_isSome hamount (h.settlement.fresh_of_pending stored pending) fun _ _ => rfl
  obtain ⟨s₁, hdispose, drawn, same⟩ := applyDisposition_accepted draws
    (s := { s with working := { s.working with paymentConfirmations := c }, begun := true })
    (h.consistent.of_same ⟨rfl, rfl, rfl⟩) ⟨new.ledger, new.event⟩ known classified
  obtain ⟨t, ht⟩ : ∃ t, s₁.working.confirmationReceipts.update { r with completed := true } = some t :=
    Table.update_isSome hamount fun _ _ _ => ⟨rfl, rfl⟩
  refine ⟨{ s₁ with working := { s₁.working with confirmationReceipts := t }, begun := true }, ?_,
    drawn.ledger, drawn.events⟩
  have hconfirmation : insertPaymentConfirmation
      (newConfirmation sha256 r.command r.receivedAt disposition payment) s.working =
        .ok { s.working with paymentConfirmations := c } := insertInto_ok hc
  unfold stageCompletion
  rw [bind_ok (flush_ok hconfirmation)]
  exact (bind_ok hdispose).trans (flush_ok (updateIn_ok ht))

/-- **No receipt is poison**: the completion of a pending receipt goes through under new ids. -/
theorem completeConfirmation_accepted (h : Recoverable sha256 s.committed)
    (stored : s.committed.confirmationReceipts.get r.confirmationId = some r)
    (pending : r.completed = false) (new : NewIds s.committed draws) :
    ∃ disposition s', completeConfirmation sha256 r.confirmationId draws s =
        (.ok
          { confirmation := newConfirmation sha256 r.command r.receivedAt disposition
              (paymentByReference s.committed r.paymentReference)
            replayed := false }, s') ∧
      Settled sha256 r disposition s.committed s'.committed ∧
      DrawnFrom [draws] s.committed s'.committed := by
  have known : ∀ p, paymentByReference s.committed r.paymentReference = some p →
      s.committed.payments.get p.id = some p := fun p hp => (paymentByReference_eq_some hp).1
  obtain ⟨disposition, classified⟩ := classify_accepted h.consistent known r.command r.receivedAt
  obtain ⟨s₁, hstage, drawn⟩ := stageCompletion_accepted (s := { coordinated s with begun := true })
    h stored pending new known classified
  have hcall : completeConfirmation sha256 r.confirmationId draws s =
      (.ok
        { confirmation := newConfirmation sha256 r.command r.receivedAt disposition
            (paymentByReference s.committed r.paymentReference)
          replayed := false },
        { s₁ with committed := s₁.working, begun := false, reserved := false }) := by
    unfold completeConfirmation
    rw [bind_ok (beginCoordinatedWrite_apply s)]
    refine tryCatch_ok ?_
    unfold completeReceipt
    rw [bind_ok (query_apply _ _)]
    simp only [coordinated_working, stored]
    rw [bind_apply, existingOutcome_apply]
    simp only [h.settlement.fresh_of_pending stored pending]
    rw [bind_ok (query_apply _ _)]
    simp only [classified]
    exact tryCatch_ok (bind_ok hstage)
  rcases (completeConfirmation_cases hcall).2 with ⟨⟨e, he⟩, _⟩ | ⟨c, hc, _⟩ |
    ⟨receipt, disposition', hid, hsettled, hr⟩
  · cases he
  · rw [h.settlement.fresh_of_pending stored pending] at hc
    cases hc
  · have hreceipt : receipt = r := by
      have := hsettled.stored
      rw [hid, stored] at this
      exact (Option.some.inj this).symm
    subst hreceipt
    exact ⟨disposition', _, hcall.trans (congrArg (·, _) hr), hsettled, drawn⟩

end Completion

/-! ## The pending receipts as a worklist -/

/-- Every pending receipt, oldest first. -/
def allPending (db : Database) : List ConfirmationReceiptRecord :=
  (db.confirmationReceipts.select fun r => !r.completed).insertionSort receiptOrder

theorem receiptOrder_eq : receiptOrder =
    Worklist.firstBy ConfirmationReceiptRecord.receivedAt ConfirmationReceiptRecord.confirmationId := rfl

instance : Std.Total receiptOrder := by
  rw [receiptOrder_eq]
  exact ⟨Worklist.firstBy_total String.le_total⟩

instance : IsTrans ConfirmationReceiptRecord receiptOrder := by
  rw [receiptOrder_eq]
  exact ⟨fun _ _ _ => Worklist.firstBy_trans fun _ _ _ => String.le_trans⟩

section Pending

variable {db db' : Database} {r : ConfirmationReceiptRecord}

theorem mem_allPending : r ∈ allPending db ↔
    r ∈ db.confirmationReceipts.rows ∧ r.completed = false := by
  unfold allPending
  rw [List.mem_insertionSort, Table.mem_select]
  simp

theorem receipts_nodup (db : Database) : db.confirmationReceipts.rows.Nodup :=
  db.confirmationReceipts.distinct.imp fun hab heq => hab.1 (congrArg _ heq)

theorem allPending_nodup (db : Database) : (allPending db).Nodup := by
  unfold allPending
  rw [(List.perm_insertionSort _ _).nodup_iff]
  exact (receipts_nodup db).filter _

/-- The order determines a receipt. -/
theorem receiptOrder_antisymm {a b : ConfirmationReceiptRecord}
    (ha : a ∈ db.confirmationReceipts.rows) (hb : b ∈ db.confirmationReceipts.rows)
    (hab : receiptOrder a b) (hba : receiptOrder b a) : a = b := by
  rw [receiptOrder_eq] at hab hba
  exact Table.eq_of_key_eq ha hb (Worklist.firstBy_antisymm (fun _ _ => String.le_antisymm) hab hba)

/-- A receipt, completed if it is one of those. -/
def completeAmong (block : List ConfirmationReceiptRecord) (r : ConfirmationReceiptRecord) :
    ConfirmationReceiptRecord := if r ∈ block then { r with completed := true } else r

theorem completeAmong_of_mem {block : List ConfirmationReceiptRecord} (h : r ∈ block) :
    completeAmong block r = { r with completed := true } := if_pos h

theorem completeAmong_of_not_mem {block : List ConfirmationReceiptRecord} (h : r ∉ block) :
    completeAmong block r = r := if_neg h

/-- **What recovery leaves**: the receipts of a block are completed, each with exactly one final
record, and every other receipt and final record is what it was. -/
structure Recovered (block : List ConfirmationReceiptRecord) (db db' : Database) : Prop where
  receipts : db'.confirmationReceipts.rows = db.confirmationReceipts.rows.map (completeAmong block)
  final : ∀ r ∈ block, ∃ c, c.Matches r ∧
    db'.paymentConfirmations.rows.filter (fun c => decide (c.confirmationId = r.confirmationId)) = [c]
  others : ∀ id, (∀ r ∈ block, r.confirmationId ≠ id) →
    db'.paymentConfirmations.rows.filter (fun c => decide (c.confirmationId = id)) =
      db.paymentConfirmations.rows.filter fun c => decide (c.confirmationId = id)

theorem Recovered.refl (db : Database) : Recovered [] db db :=
  ⟨by
    rw [show completeAmong [] = id from funext fun _ => completeAmong_of_not_mem List.not_mem_nil]
    simp, fun _ h => absurd h List.not_mem_nil, fun _ _ => rfl⟩

/-- **What a block worked off is not pending any more**, and the rest stays in its order. -/
theorem Recovered.allPending {n : Nat} (h : Recovered ((allPending db).take n) db db') :
    PaymentLab.allPending db' = (PaymentLab.allPending db).drop n := by
  unfold PaymentLab.allPending Table.select at h ⊢
  rw [h.receipts]
  refine Worklist.insertionSort_worked_off (receipts_nodup db)
    (fun a ha b hb => receiptOrder_antisymm ha hb) (fun r _ hr => completeAmong_of_not_mem hr)
    fun r _ => ?_
  by_cases hr : r ∈
      ((db.confirmationReceipts.rows.filter fun r => !r.completed).insertionSort receiptOrder).take n
  · rw [completeAmong_of_mem hr]
    simp [hr]
  · rw [completeAmong_of_not_mem hr]
    simp [hr]

/-- Two blocks, the second of receipts that are still pending. -/
theorem Recovered.append {block block' : List ConfirmationReceiptRecord} {db'' : Database}
    (h : Recovered block db db') (k : Recovered block' db' db'')
    (pending : ∀ r ∈ block', r.completed = false)
    (apart : ∀ r ∈ block, ∀ r' ∈ block', r'.confirmationId ≠ r.confirmationId) :
    Recovered (block ++ block') db db'' := by
  refine ⟨?_, fun r hr => ?_, fun id hid => ?_⟩
  · rw [k.receipts, h.receipts, List.map_map]
    refine List.map_congr_left fun r _ => ?_
    rw [Function.comp_apply]
    by_cases hr : r ∈ block
    · -- a completed receipt is in no later block
      have hout : ({ r with completed := true } : ConfirmationReceiptRecord) ∉ block' :=
        fun hin => by cases pending _ hin
      rw [completeAmong_of_mem hr, completeAmong_of_not_mem hout,
        completeAmong_of_mem (List.mem_append_left _ hr)]
    · rw [completeAmong_of_not_mem hr]
      simp [completeAmong, hr]
  · rcases List.mem_append.mp hr with hr | hr
    · rw [k.others r.confirmationId (apart r hr)]
      exact h.final r hr
    · exact k.final r hr
  · rw [k.others id fun r hr => hid r (List.mem_append_right _ hr)]
    exact h.others id fun r hr => hid r (List.mem_append_left _ hr)

/-- A completion is a block of one receipt. -/
theorem Settled.recovered {sha256 : String → String} {disposition : ConfirmationDisposition}
    (settlement : Settlement sha256 db) (h : Settled sha256 r disposition db db') :
    Recovered [r] db db' := by
  have hnone : db.paymentConfirmations.rows.filter
      (fun c => decide (c.confirmationId = r.confirmationId)) = [] := by
    refine List.filter_eq_nil_iff.mpr fun c hc => ?_
    exact fun hid => Table.get_eq_none.mp h.fresh c hc (of_decide_eq_true hid)
  refine ⟨?_, fun r' hr' => ?_, fun id hid => ?_⟩
  · rw [Table.update_rows h.completed]
    refine List.map_congr_left fun q hq => ?_
    by_cases hqr : q = r
    · subst hqr
      rw [completeAmong_of_mem (List.mem_singleton.mpr rfl)]
      exact Table.overwrite_of_eq rfl
    · rw [completeAmong_of_not_mem (by simpa using hqr)]
      exact Table.overwrite_of_ne fun hkey =>
        hqr (Table.eq_of_key_eq hq (Table.get_eq_some h.stored).1 hkey)
  · obtain rfl := List.mem_singleton.mp hr'
    refine ⟨newConfirmation sha256 r'.command r'.receivedAt disposition
      (paymentByReference db r'.paymentReference),
      ⟨rfl, (settlement.digested _ r' h.stored).symm, rfl, rfl, rfl, rfl⟩, ?_⟩
    rw [Table.insert_rows h.confirmation, List.filter_append, hnone, List.nil_append]
    exact List.filter_eq_self.mpr fun c hc => by
      rw [List.mem_singleton.mp hc]
      exact decide_eq_true rfl
  · rw [Table.insert_rows h.confirmation, List.filter_append]
    have hout : ¬(newConfirmation sha256 r.command r.receivedAt disposition
        (paymentByReference db r.paymentReference)).confirmationId = id :=
      hid r (List.mem_singleton.mpr rfl)
    simp [hout]

end Pending

/-! ## One call of recovery -/

section Call

variable {sha256 : String → String} {draws : String → Draws}

theorem Recovered.stored_of_not_mem {block : List ConfirmationReceiptRecord} {db db' : Database}
    {r : ConfirmationReceiptRecord} (h : Recovered block db db')
    (stored : db.confirmationReceipts.get r.confirmationId = some r) (hr : r ∉ block) :
    db'.confirmationReceipts.get r.confirmationId = some r := by
  refine Table.get_of_mem (r := r) ?_
  rw [h.receipts, ← completeAmong_of_not_mem hr]
  exact List.mem_map_of_mem (Table.get_eq_some stored).1

/-- The draws of different receipts are different. -/
def DrawsApart (a b : Draws) : Prop := a.ledger ≠ b.ledger ∧ a.event ≠ b.event

/-- **A block goes through**: one completion after another. -/
theorem completeEach_accepted (draws : String → Draws) :
    ∀ (block : List ConfirmationReceiptRecord) {s : DatabaseSession}, Recoverable sha256 s.committed →
    (∀ r ∈ block, s.committed.confirmationReceipts.get r.confirmationId = some r ∧
      r.completed = false) →
    (∀ r ∈ block, NewIds s.committed (draws r.confirmationId)) →
    (block.map (·.confirmationId)).Nodup →
    (block.map fun r => draws r.confirmationId).Pairwise DrawsApart →
    ∃ s', completeEach sha256 draws (block.map (·.confirmationId)) s = (.ok (), s') ∧
      Recoverable sha256 s'.committed ∧ Recovered block s.committed s'.committed ∧
      DrawnFrom (block.map fun r => draws r.confirmationId) s.committed s'.committed := by
  intro block
  induction block with
  | nil => exact fun h _ _ _ _ => ⟨_, rfl, h, .refl _, .of_same rfl rfl⟩
  | cons r rest ih =>
    intro s h pending new nodup apart
    obtain ⟨hnotin, nodup⟩ := List.nodup_cons.mp nodup
    obtain ⟨hapart, apart⟩ := List.pairwise_cons.mp apart
    obtain ⟨stored, hpending⟩ := pending r List.mem_cons_self
    obtain ⟨disposition, s₁, hone, settled, drawn⟩ :=
      completeConfirmation_accepted h stored hpending (new r List.mem_cons_self)
    have recovered := settled.recovered h.settlement
    have hother : ∀ q ∈ rest, q.confirmationId ≠ r.confirmationId := fun q hq heq =>
      hnotin (List.mem_map.mpr ⟨q, hq, heq⟩)
    obtain ⟨s₂, hrest, h₂, recovered', drawn'⟩ := ih ((Effect.settled settled).recoverable h)
      (fun q hq => by
        obtain ⟨hstored, hq'⟩ := pending q (List.mem_cons_of_mem _ hq)
        refine ⟨recovered.stored_of_not_mem hstored fun hqr => ?_, hq'⟩
        exact hother q hq (by rw [List.mem_singleton.mp hqr]))
      (fun q hq => drawn.newIds (new q (List.mem_cons_of_mem _ hq)) fun d hd => by
        rw [List.mem_singleton.mp hd]
        exact hapart _ (List.mem_map_of_mem (f := fun r => draws r.confirmationId) hq))
      nodup apart
    refine ⟨s₂, (bind_ok hone).trans hrest, h₂, ?_, drawn.append drawn'⟩
    refine recovered.append recovered' (fun q hq => (pending q (List.mem_cons_of_mem _ hq)).2) ?_
    intro q hq q' hq'
    rw [List.mem_singleton.mp hq]
    exact hother q' hq'

theorem allPending_ids_nodup (db : Database) :
    ((allPending db).map (·.confirmationId)).Nodup := by
  refine (allPending_nodup db).map_on fun a ha b hb hid => ?_
  exact Table.eq_of_key_eq (mem_allPending.mp ha).1 (mem_allPending.mp hb).1 hid

/-- Ids generated for the completions on a store: none is taken, and no two completions get one. -/
structure NewDrawsFor (db : Database) (draws : String → Draws) : Prop where
  fresh : ∀ id, NewIds db (draws id)
  distinct : ∀ id id', id ≠ id' → DrawsApart (draws id) (draws id')

/-- **A call of recovery goes through** and works off the first block of the pending receipts. -/
theorem recoverPendingConfirmations_accepted {db : Database} {limit : Int} (identity : IdentityMap)
    (h : Recoverable sha256 db) (hlimit : 1 ≤ limit ∧ limit ≤ 1000) (new : NewDrawsFor db draws) :
    ∃ s', recoverPendingConfirmations sha256 limit draws (Session.start db identity) =
        (.ok (((allPending db).take limit.toNat).map (·.confirmationId)), s') ∧
      Recoverable sha256 s'.committed ∧
      Recovered ((allPending db).take limit.toNat) db s'.committed ∧
      DrawnFrom (((allPending db).take limit.toNat).map fun r => draws r.confirmationId) db
        s'.committed := by
  have nodup : (((allPending db).take limit.toNat).map (·.confirmationId)).Nodup := by
    rw [List.map_take]
    exact (allPending_ids_nodup db).sublist (List.take_sublist _ _)
  have apart : (((allPending db).take limit.toNat).map fun r => draws r.confirmationId).Pairwise
      DrawsApart := List.pairwise_map.mpr ((List.pairwise_map.mp nodup).imp (new.distinct _ _))
  obtain ⟨s', heach, h', recovered, drawn⟩ := completeEach_accepted draws
    ((allPending db).take limit.toNat)
    (s := { coordinated (Session.start db identity) with begun := false, reserved := false }) h
    (fun r hr => by
      obtain ⟨hmem, hpending⟩ := mem_allPending.mp (List.mem_of_mem_take hr)
      exact ⟨Table.get_of_mem hmem, hpending⟩)
    (fun r _ => new.fresh _) nodup apart
  refine ⟨s', ?_, h', recovered, drawn⟩
  have hselect : selectPending limit (Session.start db identity) =
      (.ok (((allPending db).take limit.toNat).map (·.confirmationId)),
        { coordinated (Session.start db identity) with begun := false, reserved := false }) := by
    unfold selectPending
    rw [if_neg (not_not.mpr hlimit)]
    rfl
  unfold recoverPendingConfirmations
  rw [bind_ok hselect]
  exact bind_ok heach

end Call

/-! ## Consecutive calls -/

section Recovery

variable (sha256 : String → String) (limit : Int) (draws : Nat → String → Draws)
  (identities : Nat → IdentityMap)

/-- The `k`-th call of recovery on a store, in a session of its own. -/
def recovery (k : Nat) (db : Database) : Except ServiceError (List String) × DatabaseSession :=
  recoverPendingConfirmations sha256 limit (draws k) (Session.start db (identities k))

/-- The store after the first `k` calls, with nothing in between. -/
def recoveryStore (db : Database) : Nat → Database :=
  Worklist.calls (fun k db => (recovery sha256 limit draws identities k db).2.committed) db

/-- The draws of every call are new, and no draw is repeated. -/
structure NewRecoveryDraws (db : Database) : Prop where
  fresh : ∀ k id, NewIds db (draws k id)
  distinct : ∀ j k id id', ¬(j = k ∧ id = id') → DrawsApart (draws j id) (draws k id')

/-- **Recovery drains** the pending receipts of a store. -/
structure RecoveryDrains (db : Database) : Prop where
  /-- the `k`-th call returns the `k`-th block of the pending receipts in their order -/
  blocks : ∀ k, (recovery sha256 limit draws identities k
      (recoveryStore sha256 limit draws identities db k)).1 =
    .ok ((((allPending db).drop (k * limit.toNat)).take limit.toNat).map (·.confirmationId))
  /-- and so far exactly the receipts of the first blocks are completed -/
  recovered : ∀ k, Recovered ((allPending db).take (k * limit.toNat)) db
    (recoveryStore sha256 limit draws identities db k)
  /-- enough calls leave none -/
  drained : ∀ k, Worklist.callsFor (allPending db).length limit.toNat ≤ k →
    ∀ r ∈ (recoveryStore sha256 limit draws identities db k).confirmationReceipts.rows,
      r.completed = true

variable {sha256 limit draws identities} {db : Database}

/-- What holds after `k` calls: the first blocks are completed, under draws of these calls. -/
structure RecoveredUntil (sha256 : String → String) (limit : Int) (draws : Nat → String → Draws)
    (start : Database) (k : Nat) (db : Database) : Prop where
  recoverable : Recoverable sha256 db
  recovered : Recovered ((allPending start).take (k * limit.toNat)) start db
  drawn : ∃ drawn, DrawnFrom drawn start db ∧ ∀ d ∈ drawn, ∃ j < k, ∃ id, d = draws j id

/-- One more call. -/
theorem RecoveredUntil.next (identities : Nat → IdentityMap) {start : Database} {k : Nat}
    (new : NewRecoveryDraws draws start)
    (hlimit : 1 ≤ limit ∧ limit ≤ 1000)
    (h : RecoveredUntil sha256 limit draws start k db) :
    (recovery sha256 limit draws identities k db).1 =
        .ok ((((allPending start).drop (k * limit.toNat)).take limit.toNat).map (·.confirmationId)) ∧
      RecoveredUntil sha256 limit draws start (k + 1)
        (recovery sha256 limit draws identities k db).2.committed := by
  obtain ⟨drawn, from_, earlier⟩ := h.drawn
  have newK : NewDrawsFor db (draws k) := by
    refine ⟨fun id => from_.newIds (new.fresh k id) fun d hd => ?_,
      fun id id' hne => new.distinct k k id id' fun heq => hne heq.2⟩
    obtain ⟨j, hj, id', rfl⟩ := earlier d hd
    exact new.distinct j k id' id (by omega)
  obtain ⟨s', hcall, recoverable, block, drawn'⟩ :=
    recoverPendingConfirmations_accepted (identities k) h.recoverable hlimit newK
  rw [h.recovered.allPending] at hcall block drawn'
  have hrecovery : recovery sha256 limit draws identities k db = (_, s') := hcall
  rw [hrecovery]
  have nodup := allPending_ids_nodup start
  rw [← List.take_append_drop (k * limit.toNat) (allPending start), List.map_append,
    List.nodup_append] at nodup
  refine ⟨rfl, recoverable, ?_, _, from_.append drawn', fun d hd => ?_⟩
  · rw [Worklist.take_succ_mul]
    refine h.recovered.append block (fun r hr => ?_) fun r hr r' hr' heq => ?_
    · exact (mem_allPending.mp (List.mem_of_mem_drop (List.mem_of_mem_take hr))).2
    · exact nodup.2.2 _ (List.mem_map_of_mem hr) _ (List.mem_map_of_mem (List.mem_of_mem_take hr'))
        heq.symm
  · rcases List.mem_append.mp hd with hold | hnew
    · obtain ⟨j, hj, id, heq⟩ := earlier d hold
      exact ⟨j, by omega, id, heq⟩
    · obtain ⟨r, _, rfl⟩ := List.mem_map.mp hnew
      exact ⟨k, by omega, r.confirmationId, rfl⟩

/-- Draining, of a store that recovery can rely on. -/
theorem Recoverable.drains (h : Recoverable sha256 db) (new : NewRecoveryDraws draws db)
    (hlimit : 1 ≤ limit ∧ limit ≤ 1000) : RecoveryDrains sha256 limit draws identities db := by
  have start : RecoveredUntil sha256 limit draws db 0 db :=
    ⟨h, by simpa using Recovered.refl db, [], .of_same rfl rfl, fun _ hd => absurd hd List.not_mem_nil⟩
  have sofar : ∀ k, RecoveredUntil sha256 limit draws db k
      (recoveryStore sha256 limit draws identities db k) :=
    Worklist.calls_induction start fun k t h => (h.next identities new hlimit).2
  refine ⟨fun k => ((sofar k).next identities new hlimit).1,
    fun k => (sofar k).recovered, fun k hk r hr => ?_⟩
  have hnil : allPending (recoveryStore sha256 limit draws identities db k) = [] :=
    (sofar k).recovered.allPending.trans (Worklist.drop_eq_nil_of_callsFor_le (by omega) hk)
  cases hcompleted : r.completed with
  | true => rfl
  | false =>
    have hpending := mem_allPending.mpr ⟨hr, hcompleted⟩
    rw [hnil] at hpending
    cases hpending

end Recovery

section Execution

variable {ι : Type} [DecidableEq ι] {sha256 : String → String}
  {ts : List (Pool.Transition Database ι (Option Client))}
  {v : Pool.World Database ι (Option Client)}

theorem Execution.recoverable (h : Execution sha256 ts v) : Recoverable sha256 v.shared :=
  ⟨h.consistent, h.settlement⟩

/-- **No poison receipt**: in every reachable store the completion of every pending receipt goes
through, with exactly one final record, and recovery drains them all. -/
theorem recovery_drains (h : Execution sha256 ts v) :
    (∀ r, v.shared.confirmationReceipts.get r.confirmationId = some r → r.completed = false →
        ∀ draws identity, NewIds v.shared draws →
          ∃ c s', completeConfirmation sha256 r.confirmationId draws
              (Session.start v.shared identity) =
                (.ok { confirmation := c, replayed := false }, s') ∧
            c.Matches r ∧ Recovered [r] v.shared s'.committed) ∧
      ∀ limit draws identities, 1 ≤ limit ∧ limit ≤ 1000 → NewRecoveryDraws draws v.shared →
        RecoveryDrains sha256 limit draws identities v.shared := by
  refine ⟨fun r stored pending draws identity new => ?_,
    fun limit draws identities hlimit new => h.recoverable.drains new hlimit⟩
  obtain ⟨disposition, s', hcall, settled, _⟩ := completeConfirmation_accepted
    (s := Session.start v.shared identity) h.recoverable stored pending new
  exact ⟨_, s', hcall, ⟨rfl, (h.settlement.digested _ r stored).symm, rfl, rfl, rfl, rfl⟩,
    settled.recovered h.settlement⟩

end Execution

/-! ## A queue of receipts -/

/-- A confirmation of the invoice, one of another amount, and one of an unknown reference. -/
def queue : List Request :=
  [.accept ⟨"conf-1", "ref_1", 500, .usd⟩ (.aware 10),
    .accept ⟨"conf-2", "ref_1", 400, .usd⟩ (.aware 11),
    .accept ⟨"conf-3", "ref_9", 500, .usd⟩ (.aware 5)]

/-- The store in which the three are pending. -/
def queueStore : Database := (Request.calls id (invoice :: queue) (.empty, ∅)).1

/-- Draws that mark the call and the receipt. -/
def markedIds (k : Nat) (id : String) : Draws := ⟨"", "", markedDraws k id, markedDraws k id⟩

theorem queueStore_newDraws : NewRecoveryDraws markedIds queueStore := by
  refine ⟨fun k id => ⟨?_, Table.get_eq_none.mpr fun event mem hid => ?_⟩,
    fun j k id id' hne => ⟨fun heq => hne (markedDraws_inj heq), fun heq => hne (markedDraws_inj heq)⟩⟩
  · have empty : queueStore.ledgerEntries.rows = [] := by decide +kernel
    exact Table.get_eq_none.mpr fun entry mem => by
      rw [empty] at mem
      cases mem
  · have ids : ∀ event ∈ queueStore.webhookEvents.rows, event.id = "evt_" ++ "1" := by decide +kernel
    have hid : event.id = "evt_" ++ markedDraws k id := hid
    rw [ids event mem] at hid
    exact markedDraws_ne.1 ((String.append_right_inj _).mp hid).symm

/-- Two calls of recovery complete the three, oldest first. -/
theorem queue_drained :
    (recovery id 2 markedIds (fun _ => ∅) 1
      (recoveryStore id 2 markedIds (fun _ => ∅) queueStore 1)).1 = .ok ["conf-2"] ∧
      ∀ r ∈ (recoveryStore id 2 markedIds (fun _ => ∅) queueStore 2).confirmationReceipts.rows,
        r.completed = true := by
  obtain ⟨ts, last, h⟩ := Execution.of_calls id invoice queue
  have drains : RecoveryDrains id 2 markedIds (fun _ => ∅) queueStore :=
    (recovery_drains h).2 2 markedIds (fun _ => ∅) (by decide) queueStore_newDraws
  have ids : (allPending queueStore).map (·.confirmationId) = ["conf-3", "conf-1", "conf-2"] := by
    decide +kernel
  have three : (allPending queueStore).length = 3 := by simpa using congrArg List.length ids
  refine ⟨(drains.blocks 1).trans ?_, drains.drained 2 ?_⟩
  · show Except.ok (((allPending queueStore).drop (1 * 2)).take 2 |>.map (·.confirmationId)) = _
    rw [List.map_take, List.map_drop, ids]
    rfl
  · show Worklist.callsFor (allPending queueStore).length 2 ≤ 2
    rw [three]
    decide

end PaymentLab
