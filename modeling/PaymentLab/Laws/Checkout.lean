import Mathlib.Data.List.Induction
import PaymentLab.Checkout.Invariant

/-!
# The checkout over whole runs

What a customer and the server may rely on in every run of the page, over any actions, reloads,
answers and failures: an uncertain submission keeps its key until it is decided, a result is shown
for what the server said, and a retry repeats the request.

None of the three holds of every run. The page takes an accepted answer for a payment before it has
read one, and a status it does not know for a refusal; each law is therefore an equivalence, with
the answers that break it on the other side (`FetchAnswer.Discards`, `SwallowsBody`, `RetriesLost`).
The server is assumed nothing except where a law says so (`AnswersPayments`).

A run is of one tab. The session storage of a tab is its own, so a second tab shares nothing with
it, and what two tabs of one customer submit are two payments. The identities that the page draws
are arguments of the events: `crypto.randomUUID` may return anything here, equal values included,
and no law below needs them to differ.

What is shown is the panel as it would be rendered from the state. When a render throws, the panel
on the screen is an earlier one, and the model says only that it threw (`Tab.panelThrew`) and takes
every button that may stand there as enabled.
-/

namespace PaymentLab

open JavaScript Machine

/-- A step of a tab. -/
abbrev TabStep := Transition Tab CheckoutEvent

/-! ## What a step answers and sends -/

/-- A step answers a `POST` under a key, while it is pending. An answer to a request that a reload
has forgotten is no event. -/
def AnswersUnder (key : JsString) (t : TabStep) (answer : FetchAnswer) : Prop :=
  ∃ request, t.pre.Answers t.event request answer ∧ request.key = key

/-- The page enters the uncertain state for a submission sent under a key. -/
def EntersUncertain (key : JsString) (t : TabStep) : Prop :=
  t.post.uiState = .uncertain ∧ ∃ answer, AnswersUnder key t answer ∧ answer.Uncertain

/-- A request under a key gets a decoded payment or a rejection, which is what settles whether the
payment was made. -/
def DecidedUnder (key : JsString) (t : TabStep) : Prop :=
  ∃ answer, AnswersUnder key t answer ∧ answer.Definitive

/-- A request under a key gets an answer on which the page gives the submission up undecided: an
accepted status without a payment, or a status that is neither accepted nor a rejection. -/
def DiscardedUnder (key : JsString) (t : TabStep) : Prop :=
  ∃ answer, AnswersUnder key t answer ∧ answer.Discards

/-- The requests a step sends. -/
def sentBy (t : TabStep) : List PaymentRequest := t.post.posted.drop t.pre.posted.length

theorem sentBy_of_same {t : TabStep} (h : t.post.posted = t.pre.posted) : sentBy t = [] := by
  simp [sentBy, h]

theorem sentBy_of_append {t : TabStep} {request : PaymentRequest}
    (h : t.post.posted = t.pre.posted ++ [request]) : sentBy t = [request] := by
  simp [sentBy, h]

theorem FetchAnswer.Discards.not_definitive {answer : FetchAnswer} (h : answer.Discards) :
    ¬answer.Definitive := by
  match answer with
  | .networkError | .ok .undecodable | .ok .null | .ok (.value (.other _)) => exact id
  | .ok (.value (.payment _)) => exact h.elim
  | .notOk _ _ => exact h.1

/-- An event gives one answer. -/
theorem AnswersUnder.unique {key key' : JsString} {t : TabStep} {a b : FetchAnswer}
    (ha : AnswersUnder key t a) (hb : AnswersUnder key' t b) : a = b := by
  obtain ⟨_, ⟨_, hevent, _⟩, _⟩ := ha
  obtain ⟨_, ⟨_, hevent', _⟩, _⟩ := hb
  rw [hevent] at hevent'
  cases hevent'
  rfl

/-! ## An uncertain submission -/

/-- After a step the key and the packet are as they were at the entry, and what was sent is under the
key. -/
structure KeptUnder (key : JsString) (entry t : TabStep) : Prop where
  stored : t.post.storage.activeKey = some key
  submission : ∃ packet, entry.post.storage.activeSubmission = some packet ∧
    t.post.storage.activeSubmission = some packet
  requests : ∀ request ∈ sentBy t, request.key = key

/-- From the entry into the uncertain state on, the key is kept until the submission is decided. -/
def KeepsKey (ts : List TabStep) : Prop :=
  ∀ key before entry middle after, ts = before ++ entry :: (middle ++ after) →
    EntersUncertain key entry → (∀ t ∈ middle, ¬DecidedUnder key t) →
    ∀ t ∈ entry :: middle, KeptUnder key entry t

/-- Two places that hold one request hold one packet. -/
theorem Prepared.same_packet {storage storage' : SessionStorage} {form form' : Form}
    {request : PaymentRequest} (h : Prepared storage form request)
    (h' : Prepared storage' form' request) : storage.activeSubmission = storage'.activeSubmission := by
  have htoken : form.outcome.token = form'.outcome.token := h.token.trans h'.token.symm
  have houtcome : form.outcome = form'.outcome := by
    cases hleft : form.outcome <;> cases hright : form'.outcome <;>
      simp [hleft, hright, TestOutcome.token] at htoken ⊢
  rw [h.packet, h'.packet]
  unfold activeSubmission
  rw [h.reference, h'.reference, h.currency, h'.currency, houtcome]

/-- A step on a held submission that does not settle it. -/
theorem Tab.Holds.held_step {t : TabStep} {request : PaymentRequest} (h : t.pre.Holds request)
    (hstep : t.pre.step t.event = some t.post) (undecided : ¬DecidedUnder request.key t)
    (kept : ¬DiscardedUnder request.key t) :
    t.post.Holds request ∧ ∀ other ∈ sentBy t, other = request := by
  rcases h.step hstep with ⟨answer, answers, posted, held | ⟨_, _, settled, _⟩⟩ | ⟨_, held, posted⟩
  · refine ⟨held.1, ?_⟩
    simp [sentBy_of_same posted]
  · rcases settled with definitive | discards
    · exact absurd ⟨answer, ⟨request, answers, rfl⟩, definitive⟩ undecided
    · exact absurd ⟨answer, ⟨request, answers, rfl⟩, discards⟩ kept
  · refine ⟨held, ?_⟩
    rcases posted with posted | posted
    · simp [sentBy_of_same posted]
    · simp [sentBy_of_append posted]

/-- **A held submission over a run** whose answers do not settle it. -/
theorem Tab.Holds.held_run {request : PaymentRequest} {us : List TabStep} {tab v : Tab}
    (run : Run Tab.step tab us v) (h : tab.Holds request)
    (undecided : ∀ t ∈ us, ¬DecidedUnder request.key t)
    (kept : ∀ t ∈ us, ¬DiscardedUnder request.key t) :
    ∀ t ∈ us, t.post.Holds request ∧ ∀ other ∈ sentBy t, other = request := by
  induction us generalizing tab with
  | nil => simp
  | cons u us ih =>
    obtain ⟨rfl, hstep, hrest⟩ := run
    have hu := h.held_step hstep (undecided u List.mem_cons_self) (kept u List.mem_cons_self)
    intro t mem
    rcases List.mem_cons.mp mem with rfl | mem
    · exact hu
    · exact ih hrest hu.1 (fun t mem => undecided t (List.mem_cons_of_mem _ mem))
        (fun t mem => kept t (List.mem_cons_of_mem _ mem)) t mem

/-- The answer that makes the page uncertain leaves the submission held. -/
theorem EntersUncertain.held {key : JsString} {t : TabStep} (h : EntersUncertain key t)
    (consistent : t.pre.Consistent) (hstep : t.pre.step t.event = some t.post) :
    ∃ request, request.key = key ∧ t.post.Holds request ∧ t.post.posted = t.pre.posted := by
  obtain ⟨_, answer, ⟨request, answers, hkey⟩, uncertain⟩ := h
  obtain ⟨held, _⟩ := consistent.answers answers
  rcases held.step hstep with ⟨other, answers', posted, held' | ⟨_, certain, _⟩⟩ | ⟨noAnswer, _⟩
  · exact ⟨request, hkey, held'.1, posted⟩
  · have hsame : other = answer :=
      AnswersUnder.unique ⟨request, answers', hkey⟩ ⟨request, answers, hkey⟩
    exact absurd (hsame ▸ uncertain) certain
  · exact absurd answers (noAnswer request answer)

/-- A discarded submission leaves no key. -/
theorem DiscardedUnder.no_key {key : JsString} {t : TabStep} (h : DiscardedUnder key t)
    (consistent : t.pre.Consistent) (hstep : t.pre.step t.event = some t.post) :
    t.post.storage.activeKey = none := by
  obtain ⟨answer, ⟨request, answers, hkey⟩, discards⟩ := h
  obtain ⟨held, _⟩ := consistent.answers answers
  rcases held.step hstep with ⟨other, answers', _, ⟨_, _, _, kept⟩ | ⟨settled, _⟩⟩ | ⟨noAnswer, _⟩
  · have hsame : other = answer :=
      AnswersUnder.unique ⟨request, answers', hkey⟩ ⟨request, answers, hkey⟩
    exact absurd (hsame ▸ discards) kept
  · exact settled.key
  · exact absurd answers (noAnswer request answer)

/-- **An uncertain submission keeps its key exactly when its retries are answered plainly**: in every
run, from each entry into the uncertain state to the answer that decides the submission, the key and
the packet stay and nothing is sent under another key, if and only if none of its requests meanwhile
gets an accepted status with a body that is no payment, or a status that is neither accepted nor a
rejection, other than the time-out. One direction is the invariant of a held submission; the other is
that such an answer leaves no key. -/
theorem uncertain_keeps_key {ts : List TabStep} {v : Tab} (run : CheckoutRun ts v) :
    KeepsKey ts ↔ ∀ key before entry middle t after,
      ts = before ++ entry :: (middle ++ t :: after) → EntersUncertain key entry →
      (∀ u ∈ middle, ¬DecidedUnder key u) → ¬DiscardedUnder key t := by
  constructor
  · intro keeps key before entry middle t after hts enters undecided discarded
    have hmem : t ∈ ts := by simp [hts]
    obtain ⟨consistent, hstep⟩ := run.transition hmem
    have hnot : ¬DecidedUnder key t := by
      rintro ⟨answer, answers, definitive⟩
      obtain ⟨other, answers', discards⟩ := discarded
      have hsame := answers.unique answers'
      exact discards.not_definitive (hsame ▸ definitive)
    have hkept := keeps key before entry (middle ++ [t]) after (by simp [hts]) enters
      (by
        intro u mem
        rcases List.mem_append.mp mem with mem | mem
        · exact undecided u mem
        · rw [List.mem_singleton.mp mem]
          exact hnot) t (by simp)
    have hnone := discarded.no_key consistent hstep
    rw [hkept.stored] at hnone
    cases hnone
  · intro answered key before entry middle after hts enters undecided
    obtain ⟨consistent, hstep⟩ := run.transition (t := entry) (by simp [hts])
    obtain ⟨request, hkey, held, posted⟩ := enters.held consistent hstep
    subst hkey
    obtain ⟨language, form, fullRun⟩ := run
    rw [hts] at fullRun
    obtain ⟨u, hmiddle, _⟩ := run_append.mp fullRun.split.2.2
    have kept : ∀ t ∈ middle, ¬DiscardedUnder request.key t := by
      intro t mem
      obtain ⟨first, last, rfl⟩ := List.append_of_mem mem
      exact answered request.key before entry first t (last ++ after) (by simp [hts]) enters
        fun u mem => undecided u (List.mem_append_left _ mem)
    have heach := held.held_run hmiddle undecided kept
    have hpacket : ∀ tab : Tab, tab.Holds request → ∃ packet,
        entry.post.storage.activeSubmission = some packet ∧
          tab.storage.activeSubmission = some packet := by
      intro tab holds
      refine ⟨_, held.prepared.packet, ?_⟩
      rw [holds.prepared.same_packet held.prepared]
      exact held.prepared.packet
    intro t mem
    rcases List.mem_cons.mp mem with rfl | mem
    · exact ⟨held.prepared.key, hpacket _ held, by simp [sentBy_of_same posted]⟩
    · obtain ⟨holds, sent⟩ := heach t mem
      exact ⟨holds.prepared.key, hpacket _ holds, fun other hother => by rw [sent other hother]⟩

/-! ## A retry that fails -/

/-- A form with an order. -/
def orderForm : Form :=
  { reference := js "order-1", amount := js "2500", currency := .jpy, outcome := .approve }

/-- A generated identifier. -/
def orderUuid : Uuid := ⟨List.replicate 36 48, by simp⟩

/-- The tab after some events in a new one. -/
def tabAfter (events : List CheckoutEvent) : Tab :=
  events.foldl (fun tab event => (tab.step event).getD tab) (Tab.opened .en .initial)

/-- The step of an event after others. -/
def stepAfter (events : List CheckoutEvent) (event : CheckoutEvent) : TabStep :=
  { pre := tabAfter events, event := event, post := tabAfter (events ++ [event]) }

/-- The steps of events in a new tab are a run. -/
theorem CheckoutRun.of_trace {events : List CheckoutEvent} {ts : List TabStep} {v : Tab}
    (h : trace Tab.step (Tab.opened .en .initial) events = some (ts, v)) : CheckoutRun ts v :=
  ⟨.en, .initial, trace_run h⟩

/-- An order is sent, and its answer is lost. -/
def lostAnswer : List CheckoutEvent :=
  [.edit orderForm, .submit orderUuid, .answer 0 .networkError]

/-- The retry that is answered with a status. -/
def failedRetry (status : Nat) : List TabStep :=
  [stepAfter [] (.edit orderForm),
    stepAfter [.edit orderForm] (.submit orderUuid),
    stepAfter [.edit orderForm, .submit orderUuid] (.answer 0 .networkError),
    stepAfter lostAnswer (.retry orderUuid),
    stepAfter (lostAnswer ++ [.retry orderUuid]) (.answer 0 (.notOk status (.code none)))]

theorem failedRetry_run :
    CheckoutRun (failedRetry 503)
      (tabAfter (lostAnswer ++ [.retry orderUuid, .answer 0 (.notOk 503 (.code none))])) := by
  have traced : trace Tab.step (Tab.opened .en .initial)
      (lostAnswer ++ [.retry orderUuid, .answer 0 (.notOk 503 (.code none))]) =
        some (failedRetry 503, _) := rfl
  exact .of_trace traced

/-- The request of the order. -/
def orderRequest : PaymentRequest :=
  { key := js "checkout-" ++ orderUuid.val, merchantReference := js "order-1", amount := 2500
    currency := .jpy, paymentMethodToken := "tok_approved" }

/-- A retry that is answered with status 503 discards the key. -/
theorem failedRetry_discards : CheckoutRun (failedRetry 503)
    (tabAfter (lostAnswer ++ [.retry orderUuid, .answer 0 (.notOk 503 (.code none))])) ∧
    ¬KeepsKey (failedRetry 503) := by
  refine ⟨failedRetry_run, fun keeps => ?_⟩
  have enters : EntersUncertain orderRequest.key
      (stepAfter [.edit orderForm, .submit orderUuid] (.answer 0 .networkError)) :=
    ⟨rfl, .networkError, ⟨orderRequest, ⟨0, rfl, rfl⟩, rfl⟩, trivial⟩
  have undecided : ∀ t ∈ [stepAfter lostAnswer (.retry orderUuid),
      stepAfter (lostAnswer ++ [.retry orderUuid]) (.answer 0 (.notOk 503 (.code none)))],
      ¬DecidedUnder orderRequest.key t := by
    intro t mem
    rintro ⟨answer, ⟨request, ⟨index, hevent, _⟩, _⟩, definitive⟩
    rcases List.mem_cons.mp mem with rfl | mem
    · simp [stepAfter] at hevent
    · rw [List.mem_singleton.mp mem] at hevent
      simp only [stepAfter, CheckoutEvent.answer.injEq] at hevent
      rw [← hevent.2] at definitive
      simp [FetchAnswer.Definitive] at definitive
  have kept := keeps orderRequest.key [stepAfter [] (.edit orderForm),
    stepAfter [.edit orderForm] (.submit orderUuid)] _ _ [] rfl enters undecided _
    (List.mem_cons_of_mem _ (List.mem_cons_of_mem _ List.mem_cons_self))
  have hnone : (stepAfter (lostAnswer ++ [.retry orderUuid])
      (.answer 0 (.notOk 503 (.code none)))).post.storage.activeKey = none := rfl
  rw [kept.stored] at hnone
  cases hnone

/-- A retry that has no answer yet keeps the key. -/
theorem openRetry_keeps_key : KeepsKey ((failedRetry 503).take 4) := by
  have traced : trace Tab.step (Tab.opened .en .initial) (lostAnswer ++ [.retry orderUuid]) =
      some ((failedRetry 503).take 4, tabAfter (lostAnswer ++ [.retry orderUuid])) := rfl
  have run := CheckoutRun.of_trace traced
  apply (uncertain_keeps_key run).mpr
  intro key before entry middle t after hts _ _ discarded
  obtain ⟨answer, ⟨request, ⟨index, hevent, _⟩, _⟩, discards⟩ := discarded
  have mem : t ∈ (failedRetry 503).take 4 := by simp [hts]
  simp only [failedRetry, List.take_succ_cons, List.take_zero, List.mem_cons, List.not_mem_nil,
    or_false] at mem
  rcases mem with rfl | rfl | rfl | rfl <;> simp [stepAfter] at hevent
  -- the answer that was lost
  rw [← hevent.2] at discards
  exact discards

/-! ## Retries -/

/-- A step that a waiting customer sees: a switch of the language, a reload, a retry, or an answer
that does not decide the submission. -/
def Waits (t : TabStep) : Prop :=
  match t.event with
  | .language _ | .reload _ | .retry _ => True
  | .answer _ answer => ∀ request, t.pre.Answers t.event request answer → ¬answer.Definitive
  | _ => False

/-- An accepted answer to a `POST` whose identity cannot be read: the submission is cleared before
the reading throws, and the page says that it is uncertain. -/
def LosesAnswer (t : TabStep) : Prop :=
  ∃ request answer, t.pre.Answers t.event request answer ∧ answer.Loses

/-- After switches of the language only, a retry that draws another identifier than the first request
did. That a draw repeats an identifier is not ruled out, only told apart. -/
def RetriedAfresh (uuid : Uuid) : List TabStep → Prop
  | [] => False
  | t :: us =>
    (∃ other, t.event = .retry other ∧ other ≠ uuid) ∨
      (∃ language, t.event = .language language) ∧ RetriedAfresh uuid us

/-- Somewhere in a run the identity of an accepted answer cannot be read, and the customer retries from
there, without a reload in between. It is a condition on the answers and on what the customer does: a
reload after such an answer starts with an empty form and sends nothing. -/
def RetriesLost (uuid : Uuid) (us : List TabStep) : Prop :=
  ∃ before lost after, us = before ++ lost :: after ∧ LosesAnswer lost ∧ RetriedAfresh uuid after

theorem retriesLost_cons {uuid : Uuid} {u : TabStep} {us : List TabStep} :
    RetriesLost uuid (u :: us) ↔ LosesAnswer u ∧ RetriedAfresh uuid us ∨ RetriesLost uuid us := by
  constructor
  · rintro ⟨before, lost, after, hus, loses, afresh⟩
    cases before with
    | nil =>
      obtain ⟨rfl, rfl⟩ := List.cons.inj hus
      exact .inl ⟨loses, afresh⟩
    | cons first before =>
      obtain ⟨rfl, rfl⟩ := List.cons.inj hus
      exact .inr ⟨before, lost, after, rfl, loses, afresh⟩
  · rintro (⟨loses, afresh⟩ | ⟨before, lost, after, rfl, loses, afresh⟩)
    · exact ⟨[], u, us, rfl, loses, afresh⟩
    · exact ⟨u :: before, lost, after, rfl, loses, afresh⟩

/-- The page is uncertain of a request that it shows and no longer holds. -/
structure Tab.Lost (tab : Tab) (request : PaymentRequest) : Prop where
  settled : tab.Settled
  uncertain : tab.uiState = .uncertain
  shows : tab.form.Shows request

/-- The page is done with a submission, or says so. -/
structure Tab.Quiet (tab : Tab) : Prop where
  settled : tab.Settled
  certain : tab.uiState ≠ .uncertain

/-- **A waiting step on a held submission** holds it, loses it or is done with it. -/
theorem Tab.Holds.waits {t : TabStep} {request : PaymentRequest} (h : t.pre.Holds request)
    (hstep : t.pre.step t.event = some t.post) :
    ¬LosesAnswer t ∧ t.post.Holds request ∧ (∀ other ∈ sentBy t, other = request) ∨
      LosesAnswer t ∧ t.post.Lost request ∧ sentBy t = [] ∨
      ¬LosesAnswer t ∧ t.post.Quiet ∧ sentBy t = [] := by
  rcases h.step hstep with ⟨answer, answers, posted, held⟩ | ⟨noAnswer, held, posted⟩
  · have hlost : LosesAnswer t ↔ answer.Loses := by
      constructor
      · rintro ⟨other, answer', answers', loses⟩
        have hsame : answer' = answer :=
          AnswersUnder.unique ⟨other, answers', rfl⟩ ⟨request, answers, rfl⟩
        exact hsame ▸ loses
      · exact fun loses => ⟨request, answer, answers, loses⟩
    rcases held with ⟨held, _, _, kept⟩ | ⟨settled, _, _, hform, huncertain⟩
    · refine .inl ⟨fun loses => kept (hlost.mp loses).discards, held, ?_⟩
      simp [sentBy_of_same posted]
    · by_cases loses : answer.Loses
      · exact .inr (.inl ⟨hlost.mpr loses,
          ⟨settled, huncertain.mpr loses, hform ▸ h.prepared.toShows⟩, sentBy_of_same posted⟩)
      · exact .inr (.inr ⟨fun lost => loses (hlost.mp lost),
          ⟨settled, fun uncertain => loses (huncertain.mp uncertain)⟩, sentBy_of_same posted⟩)
  · refine .inl ⟨?_, held, ?_⟩
    · rintro ⟨other, answer, answers, _⟩
      exact noAnswer other answer answers
    · rcases posted with posted | posted
      · simp [sentBy_of_same posted]
      · simp [sentBy_of_append posted]

/-- **A waiting step on a lost submission**: the language is switched, a retry sends the content of the
request under a key of its own, or a reload forgets it. -/
theorem Tab.Lost.waits {t : TabStep} {request : PaymentRequest} (h : t.pre.Lost request)
    (waits : Waits t) (hstep : t.pre.step t.event = some t.post) :
    (∃ language, t.event = .language language) ∧ t.post.Lost request ∧ sentBy t = [] ∨
      (∃ uuid, t.event = .retry uuid ∧
        t.post.Holds { request with key := js "checkout-" ++ uuid.val } ∧
        sentBy t = [{ request with key := js "checkout-" ++ uuid.val }]) ∨
      (∃ form, t.event = .reload form) ∧ t.post.Quiet ∧ sentBy t = [] := by
  obtain ⟨pre, event, post⟩ := t
  dsimp only at h hstep ⊢
  obtain ⟨settled, uncertain, hreference, hamount, hcurrency, htoken, hvalid⟩ := h
  cases event with
  | edit | submit | newPayment | refresh => exact waits.elim
  | language language =>
    left
    obtain rfl : pre.setLanguage language = post := Option.some.inj hstep
    refine ⟨⟨language, rfl⟩, ?_, sentBy_of_same ?_⟩ <;> simp only [Tab.setLanguage] <;> split
    · exact ⟨⟨settled.key, settled.submission, settled.still, settled.state⟩, uncertain,
        hreference, hamount, hcurrency, htoken, hvalid⟩
    · exact ⟨⟨settled.key, settled.submission, settled.still, settled.state⟩, uncertain,
        hreference, hamount, hcurrency, htoken, hvalid⟩
    · rfl
    · rfl
  | retry uuid =>
    right
    left
    obtain ⟨_, htab⟩ := Option.ite_none_right_eq_some.mp hstep
    obtain rfl : pre.submitPayment uuid = post := Option.some.inj htab
    obtain ⟨renewed, held, posted, hrenewed⟩ :=
      settled.submitPayment_sends (.inr uncertain) hvalid hamount uuid
    rw [hreference, hcurrency, htoken] at hrenewed
    subst hrenewed
    exact ⟨uuid, rfl, held, sentBy_of_append posted⟩
  | reload form =>
    right
    right
    obtain rfl : Tab.load pre.language form pre.storage pre.posted = post := Option.some.inj hstep
    obtain ⟨settled', posted, certain⟩ := settled.load form
    exact ⟨⟨form, rfl⟩, ⟨settled', certain⟩, sentBy_of_same posted⟩
  | answer index answer =>
    have hidle : pre.pending = [] := by
      have hstate := settled.state
      rw [uncertain] at hstate
      exact hstate.1
    simp [Tab.step, hidle] at hstep

/-- A waiting step on a page that is done with its submission. -/
theorem Tab.Quiet.waits {t : TabStep} (h : t.pre.Quiet) (waits : Waits t)
    (hstep : t.pre.step t.event = some t.post) :
    ¬LosesAnswer t ∧ t.post.Quiet ∧ sentBy t = [] := by
  have noAnswer : ¬LosesAnswer t := by
    rintro ⟨request, answer, ⟨index, _, hfetch⟩, _⟩
    exact h.settled.not_submit request (List.mem_of_getElem? hfetch)
  rcases h.settled.step hstep with ⟨settled, posted, certain⟩ | ⟨uuid, _, hevent | ⟨_, hstate⟩, _⟩
  · exact ⟨noAnswer, ⟨settled, fun uncertain => h.certain (certain uncertain)⟩,
      sentBy_of_same posted⟩
  · unfold Waits at waits
    rw [hevent] at waits
    exact waits.elim
  · exact absurd hstate h.certain

/-- A page that is done with its submission sends nothing while the customer waits. -/
theorem Tab.Quiet.waits_run (uuid : Uuid) {us : List TabStep} {tab v : Tab}
    (run : Run Tab.step tab us v) (h : tab.Quiet) (waits : ∀ t ∈ us, Waits t) :
    (∀ t ∈ us, sentBy t = []) ∧ ¬RetriesLost uuid us := by
  induction us generalizing tab with
  | nil =>
    refine ⟨by simp, ?_⟩
    rintro ⟨before, lost, after, hus, _⟩
    simp at hus
  | cons u us ih =>
    obtain ⟨rfl, hstep, hrest⟩ := run
    obtain ⟨noAnswer, quiet, hsent⟩ := h.waits (waits u List.mem_cons_self) hstep
    obtain ⟨hnone, hlost⟩ := ih hrest quiet fun t mem => waits t (List.mem_cons_of_mem _ mem)
    refine ⟨List.forall_mem_cons.mpr ⟨hsent, hnone⟩, ?_⟩
    rw [retriesLost_cons]
    rintro (⟨loses, _⟩ | lost)
    · exact noAnswer loses
    · exact hlost lost

/-- A request under a drawn key is the one of another draw exactly if the draws are the same. -/
theorem renewed_eq_iff {request : PaymentRequest} {uuid other : Uuid}
    (hkey : request.key = js "checkout-" ++ uuid.val) :
    { request with key := js "checkout-" ++ other.val } = request ↔ other = uuid := by
  constructor
  · intro heq
    have hkeys := congrArg PaymentRequest.key heq
    rw [hkey] at hkeys
    exact Subtype.ext (List.append_cancel_left hkeys)
  · rintro rfl
    rw [← hkey]

/-- **Waiting over a run**: every request sent is the one that is waited for, exactly when none is lost
and retried. The induction follows a held submission and a lost one together, because a retry that draws
the same identifier leads back. -/
theorem waits_run {request : PaymentRequest} {uuid : Uuid}
    (hkey : request.key = js "checkout-" ++ uuid.val) {us : List TabStep} {tab v : Tab}
    (run : Run Tab.step tab us v) (waits : ∀ t ∈ us, Waits t) :
    (tab.Holds request →
      ((∀ t ∈ us, ∀ other ∈ sentBy t, other = request) ↔ ¬RetriesLost uuid us)) ∧
    (tab.Lost request →
      ((∀ t ∈ us, ∀ other ∈ sentBy t, other = request) ↔
        ¬RetriedAfresh uuid us ∧ ¬RetriesLost uuid us)) := by
  induction us generalizing tab with
  | nil =>
    have hnil : ¬RetriesLost uuid [] := by
      rintro ⟨before, lost, after, hus, _⟩
      simp at hus
    simp [hnil, RetriedAfresh]
  | cons u us ih =>
    obtain ⟨rfl, hstep, hrest⟩ := run
    have hwaits := waits u List.mem_cons_self
    have hlater : ∀ t ∈ us, Waits t := fun t mem => waits t (List.mem_cons_of_mem _ mem)
    obtain ⟨ihHolds, ihLost⟩ := ih hrest hlater
    have quiet : u.post.Quiet → sentBy u = [] →
        (∀ t ∈ u :: us, ∀ other ∈ sentBy t, other = request) ∧ ¬RetriesLost uuid us := by
      intro hquiet hsent
      obtain ⟨hnone, hlost⟩ := Tab.Quiet.waits_run uuid hrest hquiet hlater
      refine ⟨List.forall_mem_cons.mpr ⟨by simp [hsent], fun t mem => ?_⟩, hlost⟩
      simp [hnone t mem]
    rw [List.forall_mem_cons, retriesLost_cons]
    constructor
    · intro holds
      rcases holds.waits hstep with ⟨kept, held, hsent⟩ | ⟨loses, lost, hsent⟩ | ⟨kept, done, hsent⟩
      · have hrun := ihHolds held
        simp only [kept, false_and, false_or]
        exact ⟨fun h => hrun.mp h.2, fun h => ⟨hsent, hrun.mpr h⟩⟩
      · have hrun := ihLost lost
        simp only [loses, true_and, not_or, hsent, List.not_mem_nil, false_imp_iff, implies_true]
        exact hrun
      · obtain ⟨hall, hnot⟩ := quiet done hsent
        refine iff_of_true (List.forall_mem_cons.mp hall) ?_
        rintro (⟨loses, _⟩ | lost)
        · exact kept loses
        · exact hnot lost
    · intro lost
      have unanswered : (∀ index answer, u.event ≠ .answer index answer) → ¬LosesAnswer u := by
        rintro other ⟨request', answer, ⟨index, hanswer, _⟩, _⟩
        exact other index answer hanswer
      rcases lost.waits hwaits hstep with
        ⟨⟨language, hevent⟩, still, hsent⟩ | ⟨other, hevent, held, hsent⟩ |
        ⟨⟨form, hevent⟩, done, hsent⟩
      · have hrun := ihLost still
        have hnot := unanswered (by simp [hevent])
        have hafresh : RetriedAfresh uuid (u :: us) ↔ RetriedAfresh uuid us := by
          simp [RetriedAfresh, hevent]
        simp only [hafresh, hnot, false_and, false_or, hsent, List.not_mem_nil, false_imp_iff,
          implies_true, true_and]
        exact hrun
      · have hnot := unanswered (by simp [hevent])
        by_cases hsame : other = uuid
        · rw [(renewed_eq_iff hkey).mpr hsame] at held hsent
          have hrun := ihHolds held
          have hrenews : ¬RetriedAfresh uuid (u :: us) := by
            simp [RetriedAfresh, hevent, hsame]
          simp only [hsent, List.mem_singleton, forall_eq, true_and, hrenews, not_false_eq_true, hnot,
            false_and, false_or]
          exact hrun
        · have hafresh : RetriedAfresh uuid (u :: us) := .inl ⟨other, hevent, hsame⟩
          refine iff_of_false ?_ fun h => h.1 hafresh
          intro h
          exact hsame ((renewed_eq_iff hkey).mp (h.1 _ (by simp [hsent])))
      · obtain ⟨hall, hlost⟩ := quiet done hsent
        have hnot := unanswered (by simp [hevent])
        refine iff_of_true (List.forall_mem_cons.mp hall) ⟨by simp [RetriedAfresh, hevent], ?_⟩
        rintro (⟨loses, _⟩ | lost)
        · exact hnot loses
        · exact hlost lost

/-- **A retry repeats the request, unless its answer was lost.** In every run that has reached the form,
a valid form is sent as it stands; through language switches, reloads and retries, until an answer
decides the submission, every request is that request with its key if and only if no retry follows an
accepted answer whose identity cannot be read; and whatever happens, at most one `POST` of a page is in
flight. Reloads are on neither side of the condition: the request survives them. -/
theorem retry_repeats {ts : List TabStep} {tab : Tab} (run : CheckoutRun ts tab)
    (editing : tab.uiState = .editing) (reference : tab.form.reference ≠ [])
    (length : codePoints tab.form.reference ≤ 64) {amount : Nat}
    (accepted : parseMinorUnits tab.form.amount tab.form.currency = some amount) (uuid : Uuid) :
    ∃ first request, tab.step (.submit uuid) = some first ∧
      first.posted = tab.posted ++ [request] ∧
      request.merchantReference = tab.form.reference ∧ request.amount = amount ∧
      request.currency = tab.form.currency ∧ request.paymentMethodToken = tab.form.outcome.token ∧
      ∀ us v, Run Tab.step first us v →
        ((∀ t ∈ us, Waits t) →
          ((∀ t ∈ us, ∀ other ∈ sentBy t, other = request) ↔ ¬RetriesLost uuid us)) ∧
          (v.pending.filter Fetch.isSubmit).length ≤ 1 := by
  have settled : tab.Settled := by
    rcases run.consistent with ⟨request, held⟩ | settled
    · rcases held.state with ⟨hstate, _⟩ | ⟨hstate, _⟩ <;> simp [editing] at hstate
    · exact settled
  have valid : tab.form.errors = [] := Form.errors_eq_nil.mpr ⟨reference, length, amount, accepted⟩
  obtain ⟨request, held, posted, hrequest⟩ :=
    settled.submitPayment_sends (.inl editing) valid accepted uuid
  have hstep : tab.step (.submit uuid) = some (tab.submitPayment uuid) := by
    simp [Tab.step, editing, UiState.busy]
  have hkey : request.key = js "checkout-" ++ uuid.val := by rw [hrequest]
  refine ⟨_, request, hstep, posted, by rw [hrequest], by rw [hrequest], by rw [hrequest],
    by rw [hrequest], fun us v rest => ⟨fun waits => ?_, ?_⟩⟩
  · exact (waits_run hkey rest waits).1 held
  · exact (rest.invariant Tab.Consistent.step (.inl ⟨_, held⟩)).in_flight

/-- Another generated identifier. -/
def otherUuid : Uuid := ⟨List.replicate 36 49, by simp⟩

/-- The order is sent, and the answer to it is lost on its way: the retry sends the same request. -/
theorem order_repeats : sentBy (stepAfter lostAnswer (.retry otherUuid)) ≠ [] ∧
    ∀ other ∈ sentBy (stepAfter lostAnswer (.retry otherUuid)), other = orderRequest := by
  have run : CheckoutRun [stepAfter [] (.edit orderForm)] (tabAfter [.edit orderForm]) :=
    ⟨.en, .initial, rfl, rfl, rfl⟩
  have accepted : parseMinorUnits (js "2500") .jpy = some 2500 := by decide +kernel
  obtain ⟨first, request, hstep, hposted, _, _, _, _, hruns⟩ :=
    retry_repeats run rfl (by decide +kernel) (by decide +kernel) accepted orderUuid
  obtain rfl : tabAfter [.edit orderForm, .submit orderUuid] = first := Option.some.inj hstep
  obtain rfl : orderRequest = request := List.singleton_inj.mp hposted
  have traced : trace Tab.step (tabAfter [.edit orderForm, .submit orderUuid])
      [.answer 0 .networkError, .retry otherUuid] =
        some ([stepAfter [.edit orderForm, .submit orderUuid] (.answer 0 .networkError),
          stepAfter lostAnswer (.retry otherUuid)], _) := rfl
  have waits : ∀ t ∈ [stepAfter [.edit orderForm, .submit orderUuid] (.answer 0 .networkError),
      stepAfter lostAnswer (.retry otherUuid)], Waits t := by
    intro t mem
    simp only [List.mem_cons, List.not_mem_nil, or_false] at mem
    rcases mem with rfl | rfl
    · exact fun _ _ => id
    · trivial
  have kept : ¬RetriesLost orderUuid
      [stepAfter [.edit orderForm, .submit orderUuid] (.answer 0 .networkError),
        stepAfter lostAnswer (.retry otherUuid)] := by
    rintro ⟨before, lost, after, hus, ⟨request, answer, ⟨index, hevent, _⟩, loses⟩, _⟩
    have mem : lost ∈ [stepAfter [.edit orderForm, .submit orderUuid] (.answer 0 .networkError),
        stepAfter lostAnswer (.retry otherUuid)] := by simp [hus]
    simp only [List.mem_cons, List.not_mem_nil, or_false] at mem
    rcases mem with rfl | rfl
    · simp only [stepAfter, CheckoutEvent.answer.injEq] at hevent
      rw [← hevent.2] at loses
      exact loses
    · simp [stepAfter] at hevent
  have hsame := ((hruns _ _ (trace_run traced)).1 waits).mpr kept
  exact ⟨by simp [show sentBy (stepAfter lostAnswer (.retry otherUuid)) = [orderRequest] from rfl],
    hsame _ (by simp)⟩

/-- The order is accepted with the body `null`, and retried. -/
def nullAnswer : List TabStep :=
  [stepAfter [.edit orderForm, .submit orderUuid] (.answer 0 (.ok .null)),
    stepAfter [.edit orderForm, .submit orderUuid, .answer 0 (.ok .null)] (.retry otherUuid)]

/-- Nothing in these two steps decides the order, and its retry has a key of its own. -/
theorem nullAnswer_renews :
    (tabAfter [.edit orderForm]).step (.submit orderUuid) =
        some (tabAfter [.edit orderForm, .submit orderUuid]) ∧
      Run Tab.step (tabAfter [.edit orderForm, .submit orderUuid]) nullAnswer
        (tabAfter [.edit orderForm, .submit orderUuid, .answer 0 (.ok .null), .retry otherUuid]) ∧
      (∀ t ∈ nullAnswer, Waits t) ∧
      ∃ t ∈ nullAnswer, ∃ other ∈ sentBy t, other.key ≠ orderRequest.key := by
  have traced : trace Tab.step (tabAfter [.edit orderForm, .submit orderUuid])
      [.answer 0 (.ok .null), .retry otherUuid] = some (nullAnswer, _) := rfl
  refine ⟨rfl, trace_run traced, ?_, _, List.mem_cons_of_mem _ List.mem_cons_self, _,
    List.mem_singleton.mpr rfl, ?_⟩
  · intro t mem
    simp only [nullAnswer, List.mem_cons, List.not_mem_nil, or_false] at mem
    rcases mem with rfl | rfl
    · exact fun _ _ => id
    · trivial
  · decide +kernel

/-! ## Results -/

/-- A payment was decoded from an answer in a run. Which request the answer was to is left open. -/
def DecodedIn (ts : List TabStep) (p : PaymentResponse) : Prop :=
  ∃ t ∈ ts, ∃ index, t.event = .answer index (.ok (.value (.payment p)))

/-- An answer whose body cannot be decoded. A refusal without a code is taken as one, which decides
nothing: no refusal enters a final state. -/
def FetchAnswer.undecodable : FetchAnswer → Bool
  | .ok .undecodable | .notOk _ (.code none) => true
  | _ => false

/-- A tab shows a payment that a run decoded, under the identity that a reload asks for, as declined and
as authorized exactly when it is. Whether the payment is the customer's is not told here: the page keeps
nothing to compare it with. -/
structure ShowsDecoded (ts : List TabStep) (tab : Tab) (p : PaymentResponse) : Prop where
  current : tab.currentPayment = some (.payment p)
  decoded : DecodedIn ts p
  stored : tab.storage.lastPaymentId = some p.id
  shown : ∃ panel, tab.panel = some panel ∧
    (panel.showsDeclined tab.language ↔ p.status = .declined) ∧
    (panel.showsAuthorized tab.language ↔ p.status = .authorized)

/-- Every final state of a run shows a decoded payment, and no step on a body that cannot be decoded
enters one: where such a step ends in a final state it started in one, with the same payment. -/
def HonestResults (ts : List TabStep) : Prop :=
  ∀ before t after, ts = before ++ t :: after → t.post.uiState = .final →
    (∃ p, ShowsDecoded (before ++ [t]) t.post p) ∧
      ∀ index answer, t.event = .answer index answer → answer.undecodable = true →
        t.pre.uiState = .final ∧ t.post.currentPayment = t.pre.currentPayment

/-- The accepted bodies of a run that are JSON are those of a `PaymentResponse`. Of which payment is not
said, nor of which status. -/
def AnswersPayments (ts : List TabStep) : Prop :=
  ∀ t ∈ ts, ∀ index body, t.event = .answer index (.ok body) →
    body = .undecodable ∨ ∃ p, body = .value (.payment p)

/-- A `POST` is accepted with a body that cannot be decoded. The page goes on with `{}`. -/
def SwallowsBody (t : TabStep) : Prop := ∃ request, t.pre.Answers t.event request (.ok .undecodable)

/-- A restoration or a refresh is answered with a payment of another identity than the one asked for.
The page shows that payment and keeps the identity it had. -/
def AnswersAnother (t : TabStep) : Prop :=
  ∃ index id p, t.event = .answer index (.ok (.value (.payment p))) ∧ p.id ≠ id ∧
    (t.pre.pending[index]? = some (.restore id) ∨ t.pre.pending[index]? = some (.refresh id))

section Current

variable {tab tab' : Tab}

theorem Tab.moveUi_currentPayment {event : UiEvent} (h : tab.moveUi event = some tab') :
    tab'.currentPayment = tab.currentPayment := by
  obtain ⟨state, _, rfl⟩ := Option.map_eq_some_iff.mp h
  rfl

@[simp] theorem Tab.move_currentPayment (event : UiEvent) (tab : Tab) :
    (tab.move event).currentPayment = tab.currentPayment := by
  unfold move
  cases h : tab.moveUi event with
  | none => rfl
  | some tab' => exact moveUi_currentPayment h

/-- A refresh leaves the state, the storage and the payment to its answer. -/
theorem Tab.refreshPayment_keeps (tab : Tab) :
    tab.refreshPayment.uiState = tab.uiState ∧ tab.refreshPayment.storage = tab.storage ∧
      tab.refreshPayment.currentPayment = tab.currentPayment := by
  unfold refreshPayment
  split
  · exact ⟨rfl, rfl, rfl⟩
  · split
    · exact ⟨rfl, rfl, rfl⟩
    · split <;> exact ⟨rfl, rfl, rfl⟩

/-- The start of the script ends in no final state. -/
theorem Tab.load_not_final (language : Language) (form : Form) (storage : SessionStorage)
    (posted : List PaymentRequest) : (Tab.load language form storage posted).uiState ≠ .final := by
  unfold load restorePayment
  simp only [moveUi, transitionUiState, Option.map_some]
  split
  · split_ifs <;> simp [restoreFailed, move, moveUi, transitionUiState]
  · split
    · simp [move, moveUi, transitionUiState]
    · split_ifs <;> simp [clearActiveSubmission, move, moveUi, transitionUiState]
    · simp [clearActiveSubmission, move, moveUi, transitionUiState]

/-- A submission that is not sent leaves the page as it is, but for the errors of the form. -/
theorem Tab.submitPayment_cases (uuid : Uuid) (tab : Tab) :
    (tab.submitPayment uuid).uiState = .processing ∨
      ∃ errors, tab.submitPayment uuid = { tab with errors := errors } := by
  unfold submitPayment validateForm
  split
  · next heq =>
    obtain ⟨rfl, _⟩ := Prod.mk.inj heq
    exact .inr ⟨_, rfl⟩
  · next heq =>
    obtain ⟨rfl, _⟩ := Prod.mk.inj heq
    split
    · exact .inr ⟨_, rfl⟩
    · next hmove =>
      left
      obtain ⟨state, hnext, rfl⟩ := Option.map_eq_some_iff.mp hmove
      cases hui : tab.uiState <;> simp [hui, transitionUiState] at hnext <;> simp [← hnext]

@[simp] theorem Tab.submitPayment_currentPayment (uuid : Uuid) (tab : Tab) :
    (tab.submitPayment uuid).currentPayment = tab.currentPayment := by
  unfold submitPayment validateForm
  split
  · next heq =>
    obtain ⟨rfl, _⟩ := Prod.mk.inj heq
    rfl
  · next heq =>
    obtain ⟨rfl, _⟩ := Prod.mk.inj heq
    split
    · rfl
    · next hmove =>
      have hsame := moveUi_currentPayment hmove
      exact hsame

@[simp] theorem Tab.load_currentPayment (language : Language) (form : Form)
    (storage : SessionStorage) (posted : List PaymentRequest) :
    (Tab.load language form storage posted).currentPayment = none := by
  unfold load restorePayment
  simp only [moveUi, transitionUiState, Option.map_some]
  split
  · split_ifs <;> simp [restoreFailed]
  · split
    · simp
    · split_ifs <;> simp [clearActiveSubmission]
    · simp [clearActiveSubmission]

theorem Tab.resolve_currentPayment {failed : Tab → Tab} {body : PaymentBody}
    (fails : ∀ tab : Tab, (failed tab).currentPayment = some body → tab.currentPayment = some body)
    (h : (tab.resolve failed).currentPayment = some body) : tab.currentPayment = some body := by
  unfold resolve at h
  split at h
  · exact fails tab h
  · next tab' hmove =>
    rw [← moveUi_currentPayment hmove]
    split_ifs at h
    · exact fails tab' h
    · exact h

/-- What an answer to a `POST` puts on the page. -/
theorem Tab.settleSubmit_currentPayment {answer : FetchAnswer} {body : PaymentBody}
    (h : (tab.settleSubmit answer).currentPayment = some body) :
    answer = .ok (.value body) ∨ answer = .ok .undecodable := by
  have fails : ∀ tab : Tab, tab.submissionFailed.currentPayment = some body →
      tab.currentPayment = some body := by
    intro tab h
    simp [submissionFailed] at h
  have refused : ∀ (tab : Tab) (event : UiEvent), tab.currentPayment = none →
      ((tab.moveUi event).getD tab.submissionFailed).currentPayment = none := by
    intro tab event hnone
    cases hmove : tab.moveUi event with
    | none => simp [submissionFailed]
    | some tab' => simpa [moveUi_currentPayment hmove] using hnone
  cases answer with
  | networkError => simp [settleSubmit, submissionFailed] at h
  | ok accepted =>
    simp only [settleSubmit] at h
    rcases Tab.keepPayment_eq accepted.orEmpty tab.clearActiveSubmission with
      ⟨hkeep, _⟩ | ⟨value, id, hvalue, _, hkeep⟩ <;> rw [hkeep] at h
    · simp [submissionFailed] at h
    · have hbody := Tab.resolve_currentPayment fails h
      cases accepted with
      | undecodable => exact .inr rfl
      | null => cases hvalue
      | value accepted =>
        cases hvalue
        cases hbody
        exact .inl rfl
  | notOk status error =>
    unfold settleSubmit at h
    dsimp only at h
    split_ifs at h
    · simp [submissionFailed] at h
    · rw [refused _ _ rfl] at h
      cases h
    · rw [refused _ _ rfl] at h
      cases h

/-- What an answer to a restoration puts on the page. -/
theorem Tab.settleRestore_currentPayment {answer : FetchAnswer} {body : PaymentBody}
    (h : (tab.settleRestore answer).currentPayment = some body) :
    answer = .ok (.value body) ∨ tab.currentPayment = some body := by
  match answer with
  | .networkError | .ok .undecodable => exact .inr (by simpa [settleRestore, restoreFailed] using h)
  | .ok .null => simp [settleRestore, restoreFailed] at h
  | .notOk status error =>
    right
    simp only [settleRestore] at h
    cases hmove : moveUi .showError { tab with
        storage := { tab.storage with lastPaymentId := none }
        currentErrorKey := .missingResult } with
    | none => simpa [hmove, restoreFailed] using h
    | some tab' =>
      rw [hmove, Option.getD_some, moveUi_currentPayment hmove] at h
      exact h
  | .ok (.value accepted) =>
    left
    simp only [settleRestore] at h
    split at h
    · simp only [restoreFailed, move_currentPayment, Option.some.injEq] at h
      rw [h]
    · have hbody := Tab.resolve_currentPayment (by simp [restoreFailed]) h
      simp only [Option.some.injEq] at hbody
      rw [hbody]

/-- What a step puts on the page is what it decoded, what was there, or the `{}` of an accepted `POST`
whose body could not be decoded. -/
theorem Tab.current_step {event : CheckoutEvent} (hstep : tab.step event = some tab')
    {body : PaymentBody} (h : tab'.currentPayment = some body) :
    (∃ index, event = .answer index (.ok (.value body))) ∨
      tab.currentPayment = some body ∨ ∃ request, tab.Answers event request (.ok .undecodable) := by
  cases event with
  | edit form =>
    obtain ⟨_, htab⟩ := Option.ite_none_right_eq_some.mp hstep
    cases htab
    exact .inr (.inl h)
  | submit uuid =>
    cases hstep
    refine .inr (.inl ?_)
    split_ifs at h
    · exact h
    · simpa using h
  | retry uuid =>
    obtain ⟨_, htab⟩ := Option.ite_none_right_eq_some.mp hstep
    cases htab
    exact .inr (.inl (by simpa using h))
  | newPayment =>
    obtain ⟨_, htab⟩ := Option.ite_none_right_eq_some.mp hstep
    cases htab
    simp [Tab.resetCheckout] at h
  | refresh =>
    obtain ⟨_, htab⟩ := Option.ite_none_right_eq_some.mp hstep
    cases htab
    refine .inr (.inl ?_)
    rwa [(Tab.refreshPayment_keeps tab).2.2] at h
  | language language =>
    cases hstep
    refine .inr (.inl ?_)
    simp only [Tab.setLanguage] at h
    split at h <;> exact h
  | reload form =>
    cases hstep
    simp at h
  | answer index answer =>
    obtain ⟨fetch, hfetch, rfl⟩ := Option.map_eq_some_iff.mp hstep
    cases fetch with
    | submit request =>
      rcases Tab.settleSubmit_currentPayment h with rfl | rfl
      · exact .inl ⟨index, rfl⟩
      · exact .inr (.inr ⟨request, index, rfl, hfetch⟩)
    | restore id =>
      rcases Tab.settleRestore_currentPayment h with rfl | hsame
      · exact .inl ⟨index, rfl⟩
      · exact .inr (.inl hsame)
    | refresh id =>
      cases answer with
      | networkError => exact .inr (.inl h)
      | notOk status error => exact .inr (.inl h)
      | ok accepted =>
        cases accepted with
        | undecodable => exact .inr (.inl h)
        | null => cases h
        | value accepted =>
          cases h
          exact .inl ⟨index, rfl⟩

end Current

/-! ### Entering the final state -/

/-- A body that renders is shown. -/
theorem Tab.resolve_renders (failed : Tab → Tab) (tab : Tab) {body : PaymentBody}
    (hnext : transitionUiState tab.uiState .paymentResolved = some .final)
    (hbody : tab.currentPayment = some body)
    (renders : ∃ panel, renderFinalResult tab.language body.properties tab.refreshing
      tab.refreshFailed = some panel) :
    tab.resolve failed = { tab with uiState := .final } := by
  obtain ⟨panel, hpanel⟩ := renders
  have hshown : panelThrew { tab with uiState := .final } = false := by
    simp [panelThrew, Tab.panel, hbody, hpanel]
  simp only [resolve, moveUi, hnext, Option.map_some, hshown]
  simp

/-- **What an accepted `POST` shows**: the body, under its identity. -/
theorem Tab.settleSubmit_shows (tab : Tab) (accepted : AcceptedBody) {body : PaymentBody}
    {id : JsString} (processing : tab.uiState = .processing) (hvalue : accepted.orEmpty = some body)
    (hid : body.idText = some id)
    (renders : ∃ panel, renderFinalResult tab.language body.properties tab.refreshing
      tab.refreshFailed = some panel) :
    (tab.settleSubmit (.ok accepted)).uiState = .final ∧
      (tab.settleSubmit (.ok accepted)).currentPayment = some body ∧
      (tab.settleSubmit (.ok accepted)).storage.lastPaymentId = some id := by
  have hkeep : tab.clearActiveSubmission.keepPayment accepted.orEmpty = some
      { tab.clearActiveSubmission with
        storage := { tab.clearActiveSubmission.storage with lastPaymentId := some id }
        currentPayment := some body } := by
    simp [keepPayment, hvalue, hid]
  have hnext : transitionUiState tab.clearActiveSubmission.uiState .paymentResolved = some .final := by
    simp [clearActiveSubmission, processing, transitionUiState]
  have hresolve := Tab.resolve_renders submissionFailed
    { tab.clearActiveSubmission with
      storage := { tab.clearActiveSubmission.storage with lastPaymentId := some id }
      currentPayment := some body } hnext rfl renders
  simp only [settleSubmit, hkeep, hresolve]
  exact ⟨trivial, trivial, trivial⟩

/-- **What a restored payment shows**: the payment, under the identity that was kept. -/
theorem Tab.settleRestore_shows (tab : Tab) (restoring : tab.uiState = .restoring)
    (p : PaymentResponse) :
    (tab.settleRestore (.ok (.value (.payment p)))).uiState = .final ∧
      (tab.settleRestore (.ok (.value (.payment p)))).currentPayment = some (.payment p) ∧
      (tab.settleRestore (.ok (.value (.payment p)))).storage = tab.storage := by
  obtain ⟨panel, hpanel, _⟩ := renderFinalResult_payment tab.language p tab.refreshing
    tab.refreshFailed
  have hresolve := Tab.resolve_renders restoreFailed
    { tab with currentPayment := some (.payment p), form := populateControlsFromPayment p }
    (by simp [restoring, transitionUiState]) rfl ⟨panel, hpanel⟩
  simp only [settleRestore, controlsOf, hresolve]
  exact ⟨trivial, trivial, trivial⟩

/-- An answer to a `POST` that is not accepted enters no final state. -/
theorem Tab.settleSubmit_not_final (tab : Tab) (processing : tab.uiState = .processing)
    (answer : FetchAnswer) (refused : ∀ body, answer ≠ .ok body) :
    (tab.settleSubmit answer).uiState ≠ .final := by
  cases answer with
  | networkError => simp [settleSubmit, submissionFailed, move, moveUi, processing, transitionUiState]
  | ok body => exact absurd rfl (refused body)
  | notOk status error =>
    simp only [settleSubmit, submissionFailed, clearActiveSubmission, move, moveUi, processing,
      transitionUiState]
    split_ifs <;> simp

/-- An answer to a restoration without a body to restore enters no final state. -/
theorem Tab.settleRestore_not_final (tab : Tab) (restoring : tab.uiState = .restoring)
    (answer : FetchAnswer) (refused : ∀ body, answer ≠ .ok (.value body)) :
    (tab.settleRestore answer).uiState ≠ .final := by
  match answer with
  | .networkError | .ok .undecodable | .ok .null | .notOk _ _ =>
    simp [settleRestore, restoreFailed, move, moveUi, restoring, transitionUiState]
  | .ok (.value body) => exact absurd rfl (refused body)

/-- **Only an answer enters the final state**, or changes what it shows. -/
theorem Tab.final_step {tab tab' : Tab} {event : CheckoutEvent} (hstep : tab.step event = some tab')
    (final : tab'.uiState = .final) :
    (∃ index answer, event = .answer index answer) ∨
      tab.uiState = .final ∧ tab'.currentPayment = tab.currentPayment ∧ tab'.storage = tab.storage := by
  have submitted : ∀ uuid, (tab.submitPayment uuid).uiState = .final → tab.uiState = .final ∧
      (tab.submitPayment uuid).currentPayment = tab.currentPayment ∧
      (tab.submitPayment uuid).storage = tab.storage := by
    intro uuid final
    rcases tab.submitPayment_cases uuid with processing | ⟨errors, hsame⟩
    · rw [processing] at final
      cases final
    · rw [hsame] at final ⊢
      exact ⟨final, rfl, rfl⟩
  cases event with
  | edit form =>
    obtain ⟨_, htab⟩ := Option.ite_none_right_eq_some.mp hstep
    cases htab
    exact .inr ⟨final, rfl, rfl⟩
  | submit uuid =>
    right
    cases hstep
    split_ifs at final ⊢
    · exact ⟨final, rfl, rfl⟩
    · exact submitted uuid final
  | retry uuid =>
    obtain ⟨_, htab⟩ := Option.ite_none_right_eq_some.mp hstep
    cases htab
    exact .inr (submitted uuid final)
  | newPayment =>
    obtain ⟨_, htab⟩ := Option.ite_none_right_eq_some.mp hstep
    cases htab
    have hreset : transitionUiState tab.uiState .reset = some .editing := by
      cases tab.uiState <;> rfl
    simp [resetCheckout, move, moveUi, hreset] at final
  | refresh =>
    obtain ⟨_, htab⟩ := Option.ite_none_right_eq_some.mp hstep
    cases htab
    obtain ⟨hstate, hstorage, hcurrent⟩ := tab.refreshPayment_keeps
    exact .inr ⟨hstate ▸ final, hcurrent, hstorage⟩
  | language language =>
    right
    cases hstep
    unfold Tab.setLanguage at final ⊢
    dsimp only at final ⊢
    split at final <;> simp_all [validateForm]
  | reload form =>
    cases hstep
    exact absurd final (Tab.load_not_final tab.language form tab.storage tab.posted)
  | answer index answer => exact .inl ⟨index, answer, rfl⟩

/-- Where a final state shows a payment, a reload asks for it. -/
def Tab.Identified (tab : Tab) : Prop :=
  tab.uiState = .final → ∃ p, tab.currentPayment = some (.payment p) ∧
    tab.storage.lastPaymentId = some p.id

/-- A refused answer to a question for a payment leaves the payment on the page. -/
theorem Tab.settleRefresh_refused (tab : Tab) {answer : FetchAnswer}
    (refused : ∀ body, answer ≠ .ok body) :
    tab.settleRefresh answer = { tab with refreshFailed := true, refreshing := false } := by
  cases answer with
  | networkError => rfl
  | notOk status error => rfl
  | ok body => exact absurd rfl (refused body)

/-- What an answer is where accepted bodies are payments or cannot be decoded. -/
theorem FetchAnswer.typed (answer : FetchAnswer)
    (payments : ∀ body, answer = .ok body →
      body = .undecodable ∨ ∃ p, body = .value (.payment p)) :
    (∀ body, answer ≠ .ok body) ∨ answer = .ok .undecodable ∨
      ∃ p, answer = .ok (.value (.payment p)) := by
  cases answer with
  | networkError => exact .inl (by simp)
  | notOk status error => exact .inl (by simp)
  | ok body =>
    rcases payments body rfl with rfl | ⟨p, rfl⟩
    · exact .inr (.inl rfl)
    · exact .inr (.inr ⟨p, rfl⟩)

/-- **One step of an identified page** whose answer is a payment, the one asked for where it was asked
for. -/
theorem Tab.Identified.step {t : TabStep} (h : t.pre.Identified) (consistent : t.pre.Consistent)
    (hstep : t.pre.step t.event = some t.post)
    (typed : ∀ index body, t.event = .answer index (.ok body) →
      body = .undecodable ∨ ∃ p, body = .value (.payment p))
    (read : ¬SwallowsBody t) (asked : ¬AnswersAnother t) : t.post.Identified := by
  intro final
  rcases Tab.final_step hstep final with ⟨index, answer, hevent⟩ | ⟨hpre, hcurrent, hstorage⟩
  · rw [hevent] at hstep
    obtain ⟨fetch, hfetch, hpost⟩ := Option.map_eq_some_iff.mp hstep
    rw [← hpost] at final ⊢
    have payment := answer.typed fun body hbody => typed index body (hbody ▸ hevent)
    cases fetch with
    | submit request =>
      obtain ⟨_, processing⟩ := consistent.answers ⟨index, hevent, hfetch⟩
      rcases payment with refused | rfl | ⟨p, rfl⟩
      · exact absurd final (Tab.settleSubmit_not_final
          { t.pre with pending := t.pre.pending.eraseIdx index } processing _ refused)
      · exact absurd ⟨request, index, hevent, hfetch⟩ read
      · obtain ⟨panel, hpanel, _⟩ := renderFinalResult_payment t.pre.language p t.pre.refreshing
          t.pre.refreshFailed
        obtain ⟨_, hcurrent, hlast⟩ := Tab.settleSubmit_shows
          { t.pre with pending := t.pre.pending.eraseIdx index } (.value (.payment p)) processing rfl
          rfl ⟨panel, hpanel⟩
        exact ⟨p, hcurrent, hlast⟩
    | restore id =>
      obtain ⟨restoring, hlast⟩ := consistent.restores hfetch
      rcases payment with refused | rfl | ⟨p, rfl⟩
      · exact absurd final (Tab.settleRestore_not_final
          { t.pre with pending := t.pre.pending.eraseIdx index } restoring _ fun _ => refused _)
      · exact absurd final (Tab.settleRestore_not_final
          { t.pre with pending := t.pre.pending.eraseIdx index } restoring _ (by simp))
      · obtain ⟨_, hcurrent, hstorage⟩ := Tab.settleRestore_shows
          { t.pre with pending := t.pre.pending.eraseIdx index } restoring p
        refine ⟨p, hcurrent, ?_⟩
        have hsame : p.id = id := by
          by_contra hother
          exact asked ⟨index, id, p, hevent, hother, .inl hfetch⟩
        rw [hsame]
        simp only [settle, hstorage]
        exact hlast
    | refresh id =>
      obtain ⟨hfinal, body, hbody, hid⟩ := consistent.refreshes hfetch
      obtain ⟨q, hcurrent, hlast⟩ := h hfinal
      rcases payment with refused | rfl | ⟨p, rfl⟩
      · rw [settle, Tab.settleRefresh_refused _ refused]
        exact ⟨q, hcurrent, hlast⟩
      · exact ⟨q, hcurrent, hlast⟩
      · have hsame : p.id = id := by
          by_contra hother
          exact asked ⟨index, id, p, hevent, hother, .inr hfetch⟩
        rw [hbody] at hcurrent
        cases hcurrent
        cases hid
        refine ⟨p, rfl, ?_⟩
        rw [hsame]
        exact hlast
  · obtain ⟨p, hp, hlast⟩ := h hpre
    exact ⟨p, hcurrent ▸ hp, hstorage ▸ hlast⟩

/-- A body that cannot be decoded enters no final state, other than as the answer to a `POST` that is
accepted. -/
theorem Tab.Consistent.undecodable_step {tab tab' : Tab} (consistent : tab.Consistent) {index : Nat}
    {answer : FetchAnswer} (hstep : tab.step (.answer index answer) = some tab')
    (undecodable : answer.undecodable = true)
    (read : ¬∃ request, tab.Answers (.answer index answer) request (.ok .undecodable))
    (final : tab'.uiState = .final) :
    tab.uiState = .final ∧ tab'.currentPayment = tab.currentPayment := by
  obtain ⟨fetch, hfetch, rfl⟩ := Option.map_eq_some_iff.mp hstep
  cases fetch with
  | submit request =>
    have answers : tab.Answers (.answer index answer) request answer := ⟨index, rfl, hfetch⟩
    obtain ⟨_, processing⟩ := consistent.answers answers
    refine absurd final (Tab.settleSubmit_not_final
      { tab with pending := tab.pending.eraseIdx index } processing _ ?_)
    rintro body rfl
    cases body with
    | undecodable => exact read ⟨request, index, rfl, hfetch⟩
    | null | value => cases undecodable
  | restore id =>
    obtain ⟨restoring, _⟩ := consistent.restores hfetch
    refine absurd final (Tab.settleRestore_not_final
      { tab with pending := tab.pending.eraseIdx index } restoring _ ?_)
    rintro body rfl
    cases undecodable
  | refresh id =>
    match answer with
    | .ok .undecodable | .notOk _ _ | .networkError => exact ⟨final, rfl⟩
    | .ok .null | .ok (.value _) => cases undecodable

/-- An accepted `POST` with a body that cannot be decoded shows the final state of no payment. -/
theorem SwallowsBody.final {t : TabStep} (h : SwallowsBody t) (consistent : t.pre.Consistent)
    (hstep : t.pre.step t.event = some t.post) :
    t.post.uiState = .final ∧ t.post.currentPayment = some (.other .empty) := by
  obtain ⟨request, index, hevent, hfetch⟩ := h
  obtain ⟨_, processing⟩ := consistent.answers ⟨index, hevent, hfetch⟩
  obtain ⟨panel, hpanel, _⟩ := renderFinalResult_empty t.pre.language t.pre.refreshing
    t.pre.refreshFailed
  rw [hevent] at hstep
  simp only [Tab.step, hfetch, Option.map_some, Option.some.injEq] at hstep
  rw [← hstep]
  obtain ⟨hfinal, hcurrent, _⟩ := Tab.settleSubmit_shows
    { t.pre with pending := t.pre.pending.eraseIdx index } .undecodable processing rfl rfl
    ⟨panel, hpanel⟩
  exact ⟨hfinal, hcurrent⟩

/-- Where every accepted `POST` is decoded, what is on the page was decoded. -/
theorem CheckoutRun.decoded {ts : List TabStep} {v : Tab} (run : CheckoutRun ts v)
    (typed : AnswersPayments ts) (read : ∀ t ∈ ts, ¬SwallowsBody t) {body : PaymentBody}
    (h : v.currentPayment = some body) : ∃ p, body = .payment p ∧ DecodedIn ts p := by
  induction ts using List.reverseRecOn generalizing v body with
  | nil =>
    obtain ⟨language, form, rfl⟩ := run
    simp [Tab.opened] at h
  | append_singleton ts t ih =>
    obtain ⟨language, form, full⟩ := run
    obtain ⟨before, hstep, hend⟩ := full.split
    cases hend
    rcases Tab.current_step hstep h with ⟨index, hevent⟩ | hpre | swallows
    · have hbody := typed t (by simp) index _ hevent
      simp only [reduceCtorEq, AcceptedBody.value.injEq, false_or] at hbody
      obtain ⟨p, rfl⟩ := hbody
      exact ⟨p, rfl, t, by simp, index, hevent⟩
    · obtain ⟨p, hbody, u, mem, index, hevent⟩ := ih ⟨language, form, before⟩
        (fun u mem => typed u (List.mem_append_left _ mem))
        (fun u mem => read u (List.mem_append_left _ mem)) hpre
      exact ⟨p, hbody, u, List.mem_append_left _ mem, index, hevent⟩
    · exact absurd swallows (read t (by simp))

/-- The identity on the page over a run whose answers are the payments asked for. -/
theorem CheckoutRun.identified {ts : List TabStep} {v : Tab} (run : CheckoutRun ts v)
    (typed : AnswersPayments ts) (honest : ∀ t ∈ ts, ¬SwallowsBody t ∧ ¬AnswersAnother t) :
    v.Identified := by
  induction ts using List.reverseRecOn generalizing v with
  | nil =>
    obtain ⟨language, form, rfl⟩ := run
    intro final
    exact absurd final (Tab.load_not_final language form .empty [])
  | append_singleton ts t ih =>
    obtain ⟨consistent, _⟩ := run.transition (t := t) (by simp)
    obtain ⟨language, form, full⟩ := run
    obtain ⟨before, hstep, hend⟩ := full.split
    cases hend
    have hpre := ih ⟨language, form, before⟩ (fun u mem => typed u (List.mem_append_left _ mem))
      fun u mem => honest u (List.mem_append_left _ mem)
    obtain ⟨read, asked⟩ := honest t (by simp)
    exact hpre.step consistent hstep (typed t (by simp)) read asked

/-- **A payment of another identity is not shown honestly**: the page keeps the identity it asked
for. -/
theorem HonestResults.not_another {ts : List TabStep} {v : Tab} (h : HonestResults ts)
    (run : CheckoutRun ts v) {t : TabStep} (mem : t ∈ ts) : ¬AnswersAnother t := by
  rintro ⟨index, id, p, hevent, hother, hfetch⟩
  obtain ⟨consistent, hstep⟩ := run.transition mem
  obtain ⟨before, after, hts⟩ := List.append_of_mem mem
  rw [hevent] at hstep
  have shown : t.post.uiState = .final → t.post.currentPayment = some (.payment p) →
      t.post.storage.lastPaymentId = some id → False := by
    intro final hcurrent hlast
    obtain ⟨⟨q, shows⟩, _⟩ := h before t after hts final
    rw [shows.current, Option.some.injEq, PaymentBody.payment.injEq] at hcurrent
    rw [shows.stored, hcurrent] at hlast
    exact hother (Option.some.inj hlast)
  rcases hfetch with hfetch | hfetch
  · obtain ⟨restoring, hlast⟩ := consistent.restores hfetch
    simp only [Tab.step, hfetch, Option.map_some, Option.some.injEq] at hstep
    obtain ⟨hfinal, hcurrent, hstorage⟩ := Tab.settleRestore_shows
      { t.pre with pending := t.pre.pending.eraseIdx index } restoring p
    rw [← hstep] at shown
    exact shown hfinal hcurrent (by simpa only [Tab.settle, hstorage] using hlast)
  · obtain ⟨final, body, hbody, hid⟩ := consistent.refreshes hfetch
    simp only [Tab.step, hfetch, Option.map_some, Option.some.injEq] at hstep
    -- the state before the refresh is honest, so it keeps the identity that is asked for
    have hlast : t.pre.storage.lastPaymentId = some id := by
      obtain ⟨language, form, full⟩ := run
      rw [hts] at full
      have hbefore := full.split.1
      rcases List.eq_nil_or_concat before with rfl | ⟨first, u, rfl⟩
      · rw [← show _ = t.pre from hbefore] at final
        exact absurd final (Tab.load_not_final language form .empty [])
      · rw [List.concat_eq_append] at hts hbefore
        have hpre : u.post = t.pre := hbefore.split.2.2
        rw [← hpre] at final hbody ⊢
        obtain ⟨⟨q, shows⟩, _⟩ := h first u (t :: after) (by simp [hts]) final
        rw [shows.current] at hbody
        cases hbody
        rw [shows.stored, ← hid]
        rfl
    rw [← hstep] at shown
    exact shown final rfl hlast

/-- **Results are honest exactly when every accepted `POST` is decoded and every payment is the one asked
for**: in every run whose decoded bodies are payments, each final state shows a payment that an answer
carried, under the identity kept for a reload, as declined and as authorized exactly when it is, and a
body that cannot be decoded leads to none, if and only if no accepted `POST` of the run has a body that
cannot be decoded and no restoration or refresh is answered with another payment. -/
theorem results_honest {ts : List TabStep} {v : Tab} (run : CheckoutRun ts v)
    (typed : AnswersPayments ts) :
    HonestResults ts ↔ ∀ t ∈ ts, ¬SwallowsBody t ∧ ¬AnswersAnother t := by
  constructor
  · intro honest t mem
    refine ⟨fun swallows => ?_, honest.not_another run mem⟩
    obtain ⟨consistent, hstep⟩ := run.transition mem
    obtain ⟨final, empty⟩ := swallows.final consistent hstep
    obtain ⟨before, after, hts⟩ := List.append_of_mem mem
    obtain ⟨⟨p, shows⟩, _⟩ := honest before t after hts final
    rw [shows.current] at empty
    cases empty
  · intro answered before t after hts final
    have mem : t ∈ ts := by simp [hts]
    obtain ⟨consistent, hstep⟩ := run.transition mem
    obtain ⟨language, form, full⟩ := run
    rw [hts] at full
    have toward : CheckoutRun (before ++ [t]) t.post :=
      ⟨language, form, run_append.mpr ⟨t.pre, full.split.1, rfl, hstep, rfl⟩⟩
    have within : ∀ u ∈ before ++ [t], u ∈ ts := by
      intro u hu
      rw [hts]
      rcases List.mem_append.mp hu with hu | hu
      · exact List.mem_append_left _ hu
      · simp [List.mem_singleton.mp hu]
    have typedToward : AnswersPayments (before ++ [t]) := fun u hu => typed u (within u hu)
    refine ⟨?_, fun index answer hevent undecodable => ?_⟩
    · obtain ⟨p, hcurrent, hlast⟩ :=
        toward.identified typedToward (fun u hu => answered u (within u hu)) final
      obtain ⟨q, hbody, decoded⟩ :=
        toward.decoded typedToward (fun u hu => (answered u (within u hu)).1) hcurrent
      cases hbody
      obtain ⟨panel, hpanel, declined, authorized⟩ := renderFinalResult_payment t.post.language p
        t.post.refreshing t.post.refreshFailed
      refine ⟨p, hcurrent, decoded, hlast, panel, ?_, declined, authorized⟩
      simp [Tab.panel, final, hcurrent, hpanel]
    · rw [hevent] at hstep
      apply consistent.undecodable_step hstep undecodable _ final
      rintro ⟨request, answers⟩
      rw [← hevent] at answers
      exact (answered t mem).1 ⟨request, answers⟩

/-- The order is accepted with a body that cannot be decoded. -/
def unreadable : List TabStep :=
  [stepAfter [] (.edit orderForm),
    stepAfter [.edit orderForm] (.submit orderUuid),
    stepAfter [.edit orderForm, .submit orderUuid] (.answer 0 (.ok .undecodable))]

/-- The page then shows a declined payment that no answer carried. -/
theorem unreadable_declined :
    CheckoutRun unreadable
        (tabAfter [.edit orderForm, .submit orderUuid, .answer 0 (.ok .undecodable)]) ∧
      (∃ panel, (tabAfter [.edit orderForm, .submit orderUuid, .answer 0 (.ok .undecodable)]).panel =
        some panel ∧ panel.showsDeclined .en) ∧
      ¬HonestResults unreadable := by
  have traced : trace Tab.step (Tab.opened .en .initial)
      [.edit orderForm, .submit orderUuid, .answer 0 (.ok .undecodable)] = some (unreadable, _) := rfl
  refine ⟨.of_trace traced, ⟨_, rfl, ?_⟩, fun honest => ?_⟩
  · exact ⟨rfl, rfl⟩
  · obtain ⟨⟨p, shows⟩, _⟩ := honest [stepAfter [] (.edit orderForm),
      stepAfter [.edit orderForm] (.submit orderUuid)] _ [] rfl rfl
    have empty : (stepAfter [.edit orderForm, .submit orderUuid]
        (.answer 0 (.ok .undecodable))).post.currentPayment = some (.other .empty) := rfl
    rw [shows.current] at empty
    cases empty

/-- A payment as the server answers it. -/
def orderPayment : PaymentResponse :=
  { id := js "pay_1", merchantReference := js "order-1", amount := 2500, currency := .jpy
    status := .authorized, paymentFlow := .synchronous, paymentReference := none
    expiresAt := none, declineReason := none }

/-- The order is accepted with its payment, and a reload restores it. -/
def readable : List TabStep :=
  [stepAfter [] (.edit orderForm),
    stepAfter [.edit orderForm] (.submit orderUuid),
    stepAfter [.edit orderForm, .submit orderUuid] (.answer 0 (.ok (.value (.payment orderPayment)))),
    stepAfter [.edit orderForm, .submit orderUuid, .answer 0 (.ok (.value (.payment orderPayment)))]
      (.reload .initial),
    stepAfter [.edit orderForm, .submit orderUuid, .answer 0 (.ok (.value (.payment orderPayment))),
      .reload .initial] (.answer 0 (.ok (.value (.payment orderPayment))))]

/-- Both results are honest. -/
theorem readable_honest : HonestResults readable := by
  have traced : trace Tab.step (Tab.opened .en .initial)
      [.edit orderForm, .submit orderUuid, .answer 0 (.ok (.value (.payment orderPayment))),
        .reload .initial, .answer 0 (.ok (.value (.payment orderPayment)))] =
      some (readable, _) := rfl
  have typed : AnswersPayments readable := by
    intro t mem index body hevent
    simp only [readable, List.mem_cons, List.not_mem_nil, or_false] at mem
    rcases mem with rfl | rfl | rfl | rfl | rfl <;> simp [stepAfter] at hevent
    · exact .inr ⟨orderPayment, hevent.2.symm⟩
    · exact .inr ⟨orderPayment, hevent.2.symm⟩
  apply (results_honest (.of_trace traced) typed).mpr
  intro t mem
  constructor
  · rintro ⟨request, index, hevent, _⟩
    simp only [readable, List.mem_cons, List.not_mem_nil, or_false] at mem
    rcases mem with rfl | rfl | rfl | rfl | rfl <;> simp [stepAfter] at hevent
  · rintro ⟨index, id, p, hevent, hother, hfetch⟩
    simp only [readable, List.mem_cons, List.not_mem_nil, or_false] at mem
    rcases mem with rfl | rfl | rfl | rfl | rfl <;> simp [stepAfter] at hevent
    · obtain ⟨rfl, rfl⟩ := hevent
      -- the first answer is to the `POST`
      rcases hfetch with hfetch | hfetch <;> cases hfetch
    · obtain ⟨rfl, rfl⟩ := hevent
      rcases hfetch with hfetch | hfetch
      · cases hfetch
        exact hother rfl
      · cases hfetch

end PaymentLab
