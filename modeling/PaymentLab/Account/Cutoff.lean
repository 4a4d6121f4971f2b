import Mathlib.Algebra.Order.BigOperators.Group.List
import PaymentLab.Account.Confirmation
import PaymentLab.Account.Snapshot

/-!
# An account through a cutoff

The events of an account and the rows of its ledger carry times. An account is chronicled when, at
every cutoff from its creation on, the ledger through the cutoff adds up to the balances in the last
snapshot through it. A step keeps that when its event and its ledger row carry one time and nothing
in the account is later (`ExtendsAt.chronicled`): a version before the cutoff has every earlier one
before it.

The times of the steps need not increase strictly: several steps may be of one time, and a cutoff at
that time has all of them. Only the order between steps matters, and that it is the order of their
times is what the clock of a run is for.
-/

namespace PaymentLab

/-- The balances a snapshot shows. -/
def PaymentSnapshot.balances (snapshot : PaymentSnapshot) : LedgerTotals :=
  { authorized := snapshot.authorizedAmount
    captured := snapshot.capturedAmount
    refunded := snapshot.refundedAmount }

/-- The cutoff of the totals selects entries. -/
theorem calculateLedgerTotals_through (entries : List LedgerEntryRecord) (cutoff : Instant) :
    calculateLedgerTotals entries (some cutoff) =
      calculateLedgerTotals (entries.filter fun e => decide (e.createdAt ≤ cutoff)) none := by
  unfold calculateLedgerTotals
  rw [List.foldl_filter]
  congr 1
  funext totals entry
  dsimp only
  by_cases hle : entry.createdAt ≤ cutoff
  · rw [if_neg (not_lt.mpr hle), if_pos (decide_eq_true hle)]
  · rw [if_pos (not_le.mp hle), if_neg (by simpa only [decide_eq_true_eq] using hle)]

/-- What an entry adds to the captured total. -/
def LedgerEntryRecord.captured (entry : LedgerEntryRecord) : Int :=
  if entry.operation = "CAPTURE" ∨ entry.operation = "CONFIRMATION_CAPTURE" then entry.amount else 0

theorem LedgerTotals.add_captured (totals : LedgerTotals) (entry : LedgerEntryRecord) :
    (totals.add entry).captured = totals.captured + entry.captured := by
  unfold LedgerTotals.add LedgerEntryRecord.captured
  by_cases hauthorization : entry.operation = "AUTHORIZATION"
  · simp [hauthorization]
  by_cases hcapture : entry.operation = "CAPTURE"
  · simp [hcapture]
  by_cases hconfirmation : entry.operation = "CONFIRMATION_CAPTURE"
  · simp [hconfirmation]
  · simp only [hauthorization, hcapture, hconfirmation, if_false, or_self, add_zero]
    split <;> rfl

/-- The captured total is a sum over the entries. -/
theorem calculateLedgerTotals_captured (entries : List LedgerEntryRecord) :
    (calculateLedgerTotals entries none).captured = (entries.map (·.captured)).sum := by
  induction entries using List.reverseRecOn with
  | nil => rfl
  | append_singleton entries entry ih =>
    rw [calculateLedgerTotals_append, LedgerTotals.add_captured, ih, List.map_append,
      List.sum_append, List.map_singleton, List.sum_singleton]

theorem LifecycleStep.entry_createdAt {step : LifecycleStep} {before after : PaymentRecord}
    {id : String} {time : Instant} {entry : LedgerEntryRecord}
    (h : step.entry before after id time = some entry) : entry.createdAt = time := by
  obtain ⟨_, _, rfl⟩ := Option.map_eq_some_iff.mp h
  rfl

namespace Account

variable {first a b : Account} {steps : List LifecycleStep} {step : LifecycleStep}
  {time cutoff : Instant}

/-- The events of an account through a cutoff. -/
def eventsThrough (account : Account) (cutoff : Instant) : List PublishedEvent :=
  account.events.filter fun event => decide (event.createdAt ≤ cutoff)

/-- Nothing in the account is later than a time. -/
structure Past (time : Instant) (account : Account) : Prop where
  events : ∀ event ∈ account.events, event.createdAt ≤ time
  ledger : ∀ entry ∈ account.ledger, entry.createdAt ≤ time

/-- **The ledger through a cutoff is the state at the cutoff.** -/
def Chronicled (account : Account) : Prop :=
  ∀ cutoff, account.row.createdAt ≤ cutoff →
    ∃ event, (account.eventsThrough cutoff).getLast? = some event ∧
      calculateLedgerTotals account.ledger (some cutoff) = event.payload.payment.balances

theorem Past.mono {later : Instant} (h : a.Past time) (hle : time ≤ later) : a.Past later :=
  ⟨fun event mem => (h.events event mem).trans hle, fun entry mem => (h.ledger entry mem).trans hle⟩

/-- Through a cutoff that nothing is later than, everything counts. -/
theorem Past.through (h : a.Past cutoff) :
    a.eventsThrough cutoff = a.events ∧
      calculateLedgerTotals a.ledger (some cutoff) = calculateLedgerTotals a.ledger none := by
  refine ⟨List.filter_eq_self.mpr fun event mem => decide_eq_true (h.events event mem), ?_⟩
  rw [calculateLedgerTotals_through,
    List.filter_eq_self.mpr fun entry mem => decide_eq_true (h.ledger entry mem)]

/-- The last snapshot shows the balances of the row, and so does the ledger. -/
theorem Past.chronicle (h : a.Past cutoff) (published : a.Published) (balanced : a.Balanced) :
    ∃ event, (a.eventsThrough cutoff).getLast? = some event ∧
      calculateLedgerTotals a.ledger (some cutoff) = event.payload.payment.balances := by
  obtain ⟨hevents, htotals⟩ := h.through
  obtain ⟨event, hlast, hpayment⟩ := published.current
  refine ⟨event, by rw [hevents]; exact hlast, ?_⟩
  rw [htotals, balanced.totals, hpayment]
  rfl

/-! ## Opening -/

/-- An account is opened at one time. -/
theorem Opened.past (h : a.Opened) : a.Past a.row.createdAt := by
  obtain ⟨command, terms, now, hex, reference, ledger, event, _, hrow, hledger, hevents⟩ := h
  have hupdated : a.row.updatedAt = a.row.createdAt := by rw [hrow]; rfl
  refine ⟨fun event mem => ?_, fun entry mem => ?_⟩
  · rw [hevents] at mem
    rw [List.mem_singleton.mp mem]
    exact hupdated.le
  · rw [hledger] at mem
    unfold authorizationEntry at mem
    split at mem
    · rw [List.mem_singleton.mp mem]
    · cases mem

theorem Opened.chronicled (h : a.Opened) : a.Chronicled :=
  fun _ hcutoff => (h.past.mono hcutoff).chronicle h.published h.balanced

/-- An awaiting account is as it was opened. -/
theorem Lived.opened_of_awaiting (h : Lived first a steps) (awaiting : a.row.status = .awaitingPayment) :
    a.Opened := by
  cases h with
  | opened h => exact h
  | extended _ e =>
    have hdocumented := e.decided.documented.1
    rw [awaiting] at hdocumented
    exact absurd hdocumented (not_documented_awaiting _)

/-! ## One step at one time -/

/-- A step whose event and ledger row carry one time. -/
structure ExtendsAt (time : Instant) (step : LifecycleStep) (a b : Account) : Prop where
  extension : Extends step a b
  updated : b.row.updatedAt = time
  posted : ∃ id, b.ledger = a.ledger ++ (step.entry a.row b.row id time).toList

theorem ExtendsAt.past (e : ExtendsAt time step a b) (past : a.Past cutoff) (hle : time ≤ cutoff) :
    b.Past cutoff := by
  obtain ⟨hex, hevents⟩ := e.extension.events
  obtain ⟨id, hledger⟩ := e.posted
  refine ⟨fun event mem => ?_, fun entry mem => ?_⟩
  · rw [hevents] at mem
    rcases List.mem_append.mp mem with mem | mem
    · exact past.events event mem
    · rw [List.mem_singleton.mp mem]
      exact e.updated.le.trans hle
  · rw [hledger] at mem
    rcases List.mem_append.mp mem with mem | mem
    · exact past.ledger entry mem
    · rw [LifecycleStep.entry_createdAt (Option.mem_toList.mp mem)]
      exact hle

/-- A step keeps the chronicle when nothing in the account is later than it. -/
theorem ExtendsAt.chronicled (e : ExtendsAt time step a b) (published : a.Published)
    (balanced : a.Balanced) (past : a.Past (max time a.row.createdAt)) (h : a.Chronicled) :
    b.Chronicled := by
  intro cutoff hcutoff
  rw [e.extension.decided.sameIdentity.createdAt] at hcutoff
  by_cases hle : time ≤ cutoff
  · -- the step counts, so everything before it does
    exact (e.past (past.mono (max_le hle hcutoff)) hle).chronicle (e.extension.published published)
      (e.extension.balanced balanced)
  · -- the step is after the cutoff, where the account was chronicled before
    obtain ⟨event, hlast, htotals⟩ := h cutoff hcutoff
    obtain ⟨hex, hevents⟩ := e.extension.events
    obtain ⟨id, hledger⟩ := e.posted
    have hnone : ((step.entry a.row b.row id time).toList.filter
        fun entry => decide (entry.createdAt ≤ cutoff)) = [] := by
      refine List.filter_eq_nil_iff.mpr fun entry mem => ?_
      rw [LifecycleStep.entry_createdAt (Option.mem_toList.mp mem)]
      simpa only [decide_eq_true_eq] using hle
    have hafter : b.eventsThrough cutoff = a.eventsThrough cutoff := by
      unfold eventsThrough
      rw [hevents, List.filter_append, List.filter_singleton]
      have hlater : ¬b.row.updatedAt ≤ cutoff := e.updated ▸ hle
      rw [show (publishedEvent b.row step.eventType hex).createdAt = b.row.updatedAt from rfl,
        decide_eq_false hlater]
      exact List.append_nil _
    refine ⟨event, by rw [hafter]; exact hlast, ?_⟩
    rw [calculateLedgerTotals_through, hledger, List.filter_append, hnone, List.append_nil,
      ← calculateLedgerTotals_through, htotals]

/-! ## Captured by a cutoff -/

/-- A delayed account has captured something through a cutoff exactly when a confirmation captured it
by then. -/
theorem captured_through_iff (flow : a.KeepsToFlow) (once : a.CapturedOnce)
    (delayed : a.row.paymentFlow = .asynchronousConfirmation) (positive : 0 < a.row.amount) :
    0 < (calculateLedgerTotals a.ledger (some cutoff)).captured ↔
      ∃ entry ∈ confirmationCaptures a.ledger, entry.createdAt ≤ cutoff := by
  have hcaptured : ∀ entry ∈ a.ledger,
      entry.captured = if entry.operation = "CONFIRMATION_CAPTURE" then a.row.amount else 0 := by
    intro entry mem
    unfold LedgerEntryRecord.captured
    by_cases hop : entry.operation = "CONFIRMATION_CAPTURE"
    · rw [if_pos (.inr hop), if_pos hop]
      exact once.amount entry (List.mem_filter.mpr ⟨mem, decide_eq_true hop⟩)
    · have hcapture : entry.operation ≠ "CAPTURE" := by
        intro hcapture
        rw [flow.captures entry mem hcapture] at delayed
        cases delayed
      rw [if_neg (by simp only [hcapture, hop, or_self, not_false_eq_true]), if_neg hop]
  rw [calculateLedgerTotals_through, calculateLedgerTotals_captured]
  constructor
  · intro hpos
    by_contra hnone
    refine hpos.ne' (List.sum_eq_zero fun amount mem => ?_)
    obtain ⟨entry, hentry, rfl⟩ := List.mem_map.mp mem
    obtain ⟨mem, hcutoff⟩ := List.mem_filter.mp hentry
    rw [hcaptured entry mem]
    refine if_neg fun hop => hnone ⟨entry, ?_, decide_eq_true_eq.mp hcutoff⟩
    exact List.mem_filter.mpr ⟨mem, decide_eq_true hop⟩
  · rintro ⟨entry, hentry, hcutoff⟩
    obtain ⟨mem, hop⟩ := List.mem_filter.mp hentry
    have hvalue : entry.captured = a.row.amount := by
      rw [hcaptured entry mem]
      exact if_pos (decide_eq_true_eq.mp hop)
    have hle := List.single_le_sum
      (l := (a.ledger.filter fun e => decide (e.createdAt ≤ cutoff)).map (·.captured)) ?_
      entry.captured (List.mem_map_of_mem (List.mem_filter.mpr ⟨mem, decide_eq_true hcutoff⟩))
    · omega
    · intro amount hamount
      obtain ⟨other, hother, rfl⟩ := List.mem_map.mp hamount
      rw [hcaptured other (List.mem_of_mem_filter hother)]
      split
      · exact positive.le
      · exact le_refl 0

/-- A payment that fits its status has captured something exactly when it is paid. -/
theorem fits_paid_iff {payment : PaymentRecord} (fits : payment.FitsStatus)
    (positive : 0 < payment.amount) :
    (payment.status = .captured ∨ payment.status = .partiallyRefunded ∨ payment.status = .refunded) ↔
      0 < payment.capturedAmount := by
  unfold PaymentRecord.FitsStatus at fits
  cases hs : payment.status <;> rw [hs] at fits
  case authorized =>
    have := (PaymentRecord.balances_eq_iff.mp fits.2).2.1
    simp [this]
  case awaitingPayment =>
    have := (PaymentRecord.balances_eq_iff.mp fits.2).2.1
    simp [this]
  case partiallyRefunded =>
    have := fits.2.1
    simp [this, positive]
  all_goals
    have := (PaymentRecord.balances_eq_iff.mp fits).2.1
    simp [this, positive]

/-- **An account was paid by a cutoff**, in any of its snapshots, exactly when its ledger had captured
something by then. -/
theorem Lived.paid_through_iff (h : Lived first a steps) (chronicled : a.Chronicled)
    (positive : 0 < a.row.amount) (hcutoff : a.row.createdAt ≤ cutoff) :
    (∃ event ∈ a.eventsThrough cutoff, event.payload.payment.status = .captured ∨
        event.payload.payment.status = .partiallyRefunded ∨
        event.payload.payment.status = .refunded) ↔
      0 < (calculateLedgerTotals a.ledger (some cutoff)).captured := by
  have paid : ∀ event ∈ a.eventsThrough cutoff,
      (event.payload.payment.status = .captured ∨
        event.payload.payment.status = .partiallyRefunded ∨
        event.payload.payment.status = .refunded) ↔ 0 < event.payload.payment.capturedAmount := by
    intro event mem
    obtain ⟨b, _, eventType, hex, lived, same, rfl⟩ := h.event_row (List.mem_of_mem_filter mem)
    exact fits_paid_iff lived.balanced.fits (same.amount ▸ positive)
  obtain ⟨last, hlast, htotals⟩ := chronicled cutoff hcutoff
  obtain ⟨front, hfront⟩ := List.getLast?_eq_some_iff.mp hlast
  have hmem : last ∈ a.eventsThrough cutoff := List.mem_of_getLast? hlast
  rw [htotals]
  constructor
  · rintro ⟨event, mem, hpaid⟩
    have hcaptured := (paid event mem).mp hpaid
    -- the captured amount of a later snapshot is no smaller
    have ordered := h.events_ordered.filter fun event => decide (event.createdAt ≤ cutoff)
    change (a.eventsThrough cutoff).Pairwise _ at ordered
    rw [hfront] at ordered mem
    rcases List.mem_append.mp mem with mem | mem
    · have precedes := ((List.pairwise_append.mp ordered).2.2 event mem last
        (List.mem_singleton.mpr rfl)).2
      exact hcaptured.trans_le precedes.captured
    · rwa [List.mem_singleton.mp mem] at hcaptured
  · exact fun hcaptured => ⟨last, hmem, (paid last hmem).mpr hcaptured⟩

/-- The times of an account begin with its creation. -/
theorem Lived.created_past (h : Lived first a steps) (past : a.Past time) :
    a.row.createdAt ≤ time := by
  induction h with
  | opened h =>
    obtain ⟨command, terms, now, hex, reference, ledger, event, _, hrow, _, hevents⟩ := h
    have hcreated := past.events (publishedEvent first.row terms.eventType event)
      (by rw [hevents]; exact List.mem_singleton.mpr rfl)
    have hupdated : first.row.updatedAt = first.row.createdAt := by rw [hrow]; rfl
    exact hupdated.ge.trans hcreated
  | extended _ e ih =>
    rw [e.decided.sameIdentity.createdAt]
    obtain ⟨hex, hevents⟩ := e.events
    obtain ⟨id, now, hledger⟩ := e.ledger
    refine ih ⟨fun event mem => past.events event ?_, fun entry mem => past.ledger entry ?_⟩
    · rw [hevents]
      exact List.mem_append_left _ mem
    · rw [hledger]
      exact List.mem_append_left _ mem

end Account

end PaymentLab
