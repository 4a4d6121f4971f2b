import PaymentLab.Laws.Reconciliation
import PaymentLab.Laws.Settlement
import PaymentLab.Runs.Progress
import PaymentLab.Runs.Turns

/-!
# The ledger through a cutoff

On one clock the ledger of a payment through any cutoff adds up to the balances in its latest
snapshot through the cutoff (`ledger_through_cutoff`), so the amount a batch should settle is never
cut off at zero. The argument is `Account.Chronicled`; the order of a receipt's time and its
payment's creation does not matter, because an awaiting payment has one event.

The clock is what makes the two agree. On it the entries through a cutoff are a prefix of the
ledger, the events through it a prefix of the history, and both end at the same version. On clocks
that disagree a later step may carry an earlier time, and a cutoff between the two would take the
one without the other.
-/

namespace PaymentLab

open Relational Transactional

/-- The event of the highest version of a payment among those created by a cutoff. Its snapshot is
what the payment looked like then. -/
structure LatestThrough (db : Database) (cutoff : Instant) (paymentId : String)
    (event : WebhookEventRecord) : Prop where
  mem : event ∈ db.eventsOf paymentId
  through : event.createdAt ≤ cutoff
  highest : ∀ other ∈ db.eventsOf paymentId, other.createdAt ≤ cutoff →
    other.aggregateVersion ≤ event.aggregateVersion

section Latest

variable {db : Database} {cutoff : Instant} {id : String} {a : Account}

/-- A payment has one event of each version. -/
theorem LatestThrough.unique {event other : WebhookEventRecord}
    (h : LatestThrough db cutoff id event) (k : LatestThrough db cutoff id other) : event = other := by
  have hversion : event.aggregateVersion = other.aggregateVersion :=
    le_antisymm (k.highest event h.mem h.through) (h.highest other k.mem k.through)
  obtain ⟨hmem, hid⟩ := List.mem_filter.mp h.mem
  obtain ⟨hmem', hid'⟩ := List.mem_filter.mp k.mem
  have hpayment : event.paymentId = other.paymentId :=
    (decide_eq_true_eq.mp hid).trans (decide_eq_true_eq.mp hid').symm
  by_contra hne
  have clash : webhookEventSchema.clash event other = true ∧
      webhookEventSchema.clash other event = true := by
    simp [webhookEventSchema, hversion, hpayment]
  rcases Table.clash_eq_false hmem hmem' hne with hfalse | hfalse
  · rw [clash.1] at hfalse
    cases hfalse
  · rw [clash.2] at hfalse
    cases hfalse

/-- The last published event through a cutoff is that of the highest version. -/
theorem latestThrough_of_getLast {first : Account} {steps : List LifecycleStep}
    (ha : db.account id = some a) (lived : Account.Lived first a steps) {published : PublishedEvent}
    (hlast : (a.eventsThrough cutoff).getLast? = some published) :
    ∃ event, LatestThrough db cutoff id event ∧ event.published = published := by
  obtain ⟨_, _, hevents⟩ := Database.account_eq_some ha
  obtain ⟨front, hfront⟩ := List.getLast?_eq_some_iff.mp hlast
  have hmem : published ∈ a.eventsThrough cutoff := by
    rw [hfront]
    exact List.mem_append_right _ (List.mem_singleton.mpr rfl)
  obtain ⟨hpublished, hthrough⟩ := List.mem_filter.mp hmem
  rw [hevents] at hpublished
  obtain ⟨event, hevent, rfl⟩ := List.mem_map.mp hpublished
  refine ⟨event, ⟨hevent, decide_eq_true_eq.mp hthrough, fun other hother hcutoff => ?_⟩, rfl⟩
  -- the events of an account are in the order of their versions
  have ordered : (a.eventsThrough cutoff).Pairwise fun x y =>
      x.aggregateVersion < y.aggregateVersion :=
    (lived.events_ordered.imp fun h => h.1).filter _
  have hother : other.published ∈ a.eventsThrough cutoff := by
    refine List.mem_filter.mpr ⟨?_, decide_eq_true hcutoff⟩
    rw [hevents]
    exact List.mem_map_of_mem hother
  rw [hfront] at ordered hother
  rcases List.mem_append.mp hother with hother | hother
  · exact ((List.pairwise_append.mp ordered).2.2 _ hother _ (List.mem_singleton.mpr rfl)).le
  · have hsame := congrArg PublishedEvent.aggregateVersion (List.mem_singleton.mp hother)
    exact hsame.le

end Latest

section Laws

variable {ι : Type} [DecidableEq ι] {sha256 : String → String}
  {ts : List (Pool.Transition Database ι (Option Client))}
  {v : Pool.World Database ι (Option Client)} {now : Instant}

/-- **The ledger through a cutoff is the state at the cutoff**, on one clock: the entries through it
add up to the balances in the last snapshot through it. It is `Account.Chronicled` of the payment's
account, which every run on a clock keeps (`Clocked.chronicled`). -/
theorem ledger_through_cutoff (h : Clocked sha256 ts v now) {p : PaymentRecord}
    (hp : v.shared.payments.get p.id = some p) {cutoff : Instant} (hcutoff : p.createdAt ≤ cutoff)
    {entries : List LedgerEntryRecord} (hentries : entries.Perm (v.shared.ledgerOf p.id)) :
    (∃ event, LatestThrough v.shared cutoff p.id event) ∧
      (∀ event, LatestThrough v.shared cutoff p.id event →
        calculateLedgerTotals entries (some cutoff) = event.payload.payment.balances) ∧
      0 ≤ (calculateLedgerTotals entries (some cutoff)).refunded ∧
      (calculateLedgerTotals entries (some cutoff)).refunded ≤
        (calculateLedgerTotals entries (some cutoff)).captured ∧
      expectedAmount v.shared cutoff p =
        (calculateLedgerTotals (orderedLedger v.shared p.id) (some cutoff)).netCaptured := by
  have ha := Database.account_of_get hp
  obtain ⟨first, steps, lived⟩ := h.execution.lived hp
  obtain ⟨published, hlast, htotals⟩ := h.chronicled _ _ ha cutoff hcutoff
  obtain ⟨event, hlatest, rfl⟩ := latestThrough_of_getLast ha lived hlast
  have hbalances : calculateLedgerTotals entries (some cutoff) = event.payload.payment.balances :=
    (calculateLedgerTotals_perm hentries _).trans htotals
  have positive := (bounded_of_stored (Table.get_eq_some hp).1).amount
  have sound := (lived.event_sound positive (List.mem_map_of_mem hlatest.mem)).1
  have bounds : 0 ≤ (calculateLedgerTotals entries (some cutoff)).refunded ∧
      (calculateLedgerTotals entries (some cutoff)).refunded ≤
        (calculateLedgerTotals entries (some cutoff)).captured := by
    rw [hbalances]
    exact ⟨sound.refunded_nonneg, sound.refunded_le⟩
  refine ⟨⟨event, hlatest⟩, fun other hother => hlatest.unique hother ▸ hbalances, bounds.1, bounds.2,
    max_eq_right ?_⟩
  unfold LedgerTotals.netCaptured
  rw [calculateLedgerTotals_perm ((orderedLedger_perm v.shared p.id).trans hentries.symm)]
  exact sub_nonneg.mpr bounds.2

end Laws

/-! ## A refunded invoice -/

/-- The confirmation of an invoice, accepted at 5 and completed later. -/
def payInvoice : Request :=
  .process ⟨"conf-1", "ref_1", 500, .usd⟩ (some (.aware 5)) none ⟨"2", "2", "2", "2"⟩

/-- A refund of a part of it, at 9. -/
def returnPart : Request := .refund "pay_1" 200 "refund" none 9 9 ⟨"3", "3", "3", "3"⟩

/-- The desk a billed invoice leaves. -/
def billedDesk : Desk := (Desk.turn id)^[2] (.empty, ⟨invoice, ∅, .ready⟩)

/-- The desk after its confirmation. -/
def paidDesk : Desk := billedDesk.called id payInvoice 2

/-- The desk after the refund. -/
def returnedDesk : Desk := paidDesk.called id returnPart 2

/-- The steps that lead to it. -/
def returnedSteps : List (Pool.Transition Database Bool (Option Client)) :=
  Desk.turns id 2 (.empty, ⟨invoice, ∅, .ready⟩) ++ billedDesk.call id payInvoice 2 ++
    paidDesk.call id returnPart 2

theorem returned_clocked : Clocked id returnedSteps returnedDesk.world 9 := by
  have ended : billedDesk.2.phase.Ended ∧ paidDesk.2.phase.Ended := by decide +kernel
  have unfinished :
      (∀ k < 2, ¬((Desk.turn id)^[k] (.empty, ⟨invoice, ∅, .ready⟩)).2.phase.Ended) ∧
        (∀ k < 2, ¬((Desk.turn id)^[k] (billedDesk.begin payInvoice)).2.phase.Ended) ∧
        ∀ k < 2, ¬((Desk.turn id)^[k] (paidDesk.begin returnPart)).2.phase.Ended := by
    decide +kernel
  have aware : ∀ time : Instant, (Datetime.aware time).Reads time := by
    rintro time _ ⟨⟩
    rfl
  have start : Clocked id [] (Desk.world (.empty, ⟨invoice, ∅, .ready⟩)) 0 :=
    .start 0 (Desk.initial invoice)
  have billed := start.turns (show (0 : Instant) ≤ 0 from le_refl 0)
    (fun phase => by cases phase <;> first | exact aware 0 | exact trivial) 2 unfinished.1
  have paid := billed.call ended.1 (show (0 : Instant) ≤ 5 by decide)
    (fun phase => by
      cases phase with
      | ready =>
        rintro _ ⟨⟩
        exact aware 5
      | _ => exact trivial) 2 unfinished.2.1
  exact paid.call ended.2 (show (5 : Instant) ≤ 9 by decide)
    (fun phase => by cases phase <;> first | exact rfl | exact trivial) 2 unfinished.2.2

/-- At 7 the invoice was paid, and nothing of it was returned yet. -/
theorem returned_through_cutoff :
    ∃ event, LatestThrough returnedDesk.1 7 "pay_1" event ∧
      calculateLedgerTotals (returnedDesk.1.ledgerOf "pay_1") (some 7) =
        event.payload.payment.balances ∧
      event.payload.payment.balances = { authorized := 500, captured := 500, refunded := 0 } := by
  have stored : (returnedDesk.1.payments.get "pay_1").map (·.createdAt) = some 0 ∧
      calculateLedgerTotals (returnedDesk.1.ledgerOf "pay_1") (some 7) =
        { authorized := 500, captured := 500, refunded := 0 } := by
    decide +kernel
  obtain ⟨p, hget, hcreated⟩ := Option.map_eq_some_iff.mp stored.1
  have hid : p.id = "pay_1" := (Table.get_eq_some hget).2
  rw [← hid] at hget stored ⊢
  obtain ⟨⟨event, hlatest⟩, hbalances, _⟩ := ledger_through_cutoff returned_clocked hget
    (show p.createdAt ≤ 7 by rw [hcreated]; decide) (List.Perm.refl _)
  exact ⟨event, hlatest, hbalances event hlatest, (hbalances event hlatest).symm.trans stored.2⟩

end PaymentLab
