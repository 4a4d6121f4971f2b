import PaymentLab.Account.History
import PaymentLab.Laws.Ledger

/-!
# The outbox as history

In every store an execution reaches, the events of a payment are its versions, one event each, and
read in order they are a path of the documented state machine that ends in the row as it stands.

The columns that delivery writes are no part of the history: an event is its published half, and
whether it was claimed or delivered changes nothing here. The documented transitions are written
down from the requirements (`PaymentStatus.Documented`), not computed from the code, so that the
statement compares two things.
-/

namespace PaymentLab

open Relational Transactional

/-- The outbox of a payment: its events against its row. The versions are without a gap, each event
carries the row as it was at its version, and the statuses follow the lifecycle. Whether an event was
ever delivered is no part of it. -/
structure CompleteHistory (events : List WebhookEventRecord) (p : PaymentRecord) : Prop where
  /-- one event for each version, in order -/
  versions : events.map (·.aggregateVersion) = List.range' 1 p.version
  /-- the event of the current version carries the row -/
  current : ∀ event ∈ events, event.aggregateVersion = p.version →
    event.payload.payment = .fromPayment p
  legal : LegalPath (events.map (·.payload.payment.status))
  announced : ∀ event ∈ events, event.eventType = event.payload.payment.status.announcedBy
  consistent : ∀ event ∈ events,
    event.payload.id = event.id ∧ event.payload.type = event.eventType ∧
      event.payload.aggregateVersion = event.aggregateVersion ∧
      event.payload.payment.version = event.aggregateVersion
  identity : ∀ event ∈ events, event.payload.payment.SharesIdentity p

/-- In a list numbered from one, only the last element carries the last number. -/
theorem eq_last_of_numbered {α : Type} {number : α → Nat} {xs : List α} {n : Nat}
    (numbered : xs.map number = List.range' 1 n) {last : α} (hlast : xs.getLast? = some last)
    {x : α} (mem : x ∈ xs) (hx : number x = n) : x = last := by
  obtain ⟨front, rfl⟩ := List.getLast?_eq_some_iff.mp hlast
  rcases List.mem_append.mp mem with mem | mem
  · -- the numbers before the last one are smaller
    have hlength : n = front.length + 1 := by
      have := congrArg List.length numbered
      simp only [List.length_map, List.length_append, List.length_singleton,
        List.length_range'] at this
      exact this.symm
    subst hlength
    rw [List.map_append, List.range'_concat] at numbered
    have hfront := (List.append_inj numbered (by
      rw [List.length_map, List.length_range'])).1
    have hmem : number x ∈ List.range' 1 front.length := hfront ▸ List.mem_map_of_mem mem
    have := List.mem_range'_1.mp hmem
    omega
  · exact List.mem_singleton.mp mem

/-- The published history of an account, read off the event rows. -/
theorem Account.Published.events {p : PaymentRecord} {ledger : List LedgerEntryRecord}
    {events : List WebhookEventRecord}
    (h : Account.Published ⟨p, ledger, events.map (·.published)⟩) : CompleteHistory events p := by
  have forEach : ∀ {P : PublishedEvent → Prop}, (∀ e ∈ events.map (·.published), P e) →
      ∀ event ∈ events, P event.published :=
    fun all event mem => all _ (List.mem_map_of_mem mem)
  have hversions : events.map (·.aggregateVersion) = List.range' 1 p.version := by
    rw [← h.versions, List.map_map]
    rfl
  refine ⟨hversions, ?_, ?_, forEach h.announced, forEach h.consistent, forEach h.identity⟩
  · intro event mem hcurrent
    obtain ⟨last, hlast, hpayment⟩ := h.current
    have hevent := eq_last_of_numbered h.versions hlast (List.mem_map_of_mem mem) hcurrent
    rw [← hpayment, ← hevent]
    rfl
  · have hlegal := h.legal
    rw [List.map_map] at hlegal
    exact hlegal

/-- **The outbox is a complete, legal history** of each payment: one event for each version up to the
row's, the last of them with the row itself, and their statuses a path of the documented state
machine. By induction on the life of the account; delivery is no part of it, because an account has
only the published columns. -/
theorem outbox_history {ι : Type} [DecidableEq ι] {sha256 : String → String}
    {ts : List (Pool.Transition Database ι (Option Client))}
    {v : Pool.World Database ι (Option Client)} (h : Execution sha256 ts v) {p : PaymentRecord}
    (hp : v.shared.payments.get p.id = some p) :
    CompleteHistory (v.shared.eventsOf p.id) p := by
  obtain ⟨first, steps, lived⟩ := h.lived hp
  exact lived.published.events

/-- The history of a purchase. -/
theorem purchase_history :
    purchaseStore.payments.get purchased.id = some purchased ∧
      CompleteHistory (purchaseStore.eventsOf purchased.id) purchased := by
  obtain ⟨ts, last, h⟩ := purchase_execution
  have stored : purchaseStore.payments.get purchased.id = some purchased := by decide +kernel
  exact ⟨stored, outbox_history h stored⟩

end PaymentLab
