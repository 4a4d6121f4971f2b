import PaymentLab.Library.CanonicalJson
import PaymentLab.Services.Runtime

/-!
# Workload profiles

`performance/profiles.py`: the payments each performance profile leaves behind, and the merchant
reference and idempotency key under which it makes each of them.
-/

namespace PaymentLab

/-- `JPY_AMOUNT`. -/
def jpyAmount : Int := 2500

/-- `USD_AMOUNT`. -/
def usdAmount : Int := 1099

/-- `ExpectedPayment`: one payment effect expected from a performance profile. -/
structure ExpectedPayment where
  phase : String
  index : Nat
  approved : Bool
  deriving DecidableEq, Repr

namespace ExpectedPayment

/-- `ExpectedPayment.currency`. -/
def currency (payment : ExpectedPayment) : Currency :=
  if payment.index % 2 = 0 then .jpy else .usd

/-- `ExpectedPayment.amount`. -/
def amount (payment : ExpectedPayment) : Int :=
  if payment.currency = .jpy then jpyAmount else usdAmount

end ExpectedPayment

/-- The payments of one phase, all approved. -/
def phasePayments (phase : String) (count : Nat) : List ExpectedPayment :=
  (List.range count).map fun index => { phase := phase, index := index, approved := true }

/-- `available_profiles`. -/
def availableProfiles : List String :=
  ["smoke", "authorization", "retrieval", "idempotent-burst", "mixed"]

/-- `expected_payments`. -/
def expectedPayments (profile : String) : Except ServiceError (List ExpectedPayment) :=
  if profile = "smoke" then
    .ok ((List.range 5).map fun index =>
      { phase := "load", index := index, approved := decide (index < 4) })
  else if profile = "authorization" then
    .ok (phasePayments "warmup" 5 ++ phasePayments "load" 150)
  else if profile = "retrieval" then
    .ok (phasePayments "setup" 20)
  else if profile = "idempotent-burst" then
    .ok [{ phase := "setup", index := 0, approved := true }]
  else if profile = "mixed" then
    .ok (phasePayments "setup" 20 ++ phasePayments "load" 120)
  else .error (.valueError ("Unknown performance profile: " ++ profile))

/-- What the references and keys of one run and profile begin with. -/
def runPrefix (runId profile : String) : String := "perf-" ++ runId ++ "-" ++ profile ++ "-"

/-- `reference`. -/
def reference (runId profile : String) (payment : ExpectedPayment) : String :=
  runPrefix runId profile ++ payment.phase ++ "-" ++ payment.index.repr

/-- `idempotency_key`. -/
def idempotencyKey (runId profile : String) (payment : ExpectedPayment) : String :=
  runPrefix runId profile ++ payment.phase ++ "-" ++ payment.index.repr ++ "-key"

/-! ## References and keys are apart -/

/-- The phases of the profiles. -/
def phases : List String := ["load", "warmup", "setup"]

theorem phase_no_hyphen {phase : String} (h : phase ∈ phases) : '-' ∉ phase.toList := by
  simp only [phases, List.mem_cons, List.not_mem_nil, or_false] at h
  rcases h with rfl | rfl | rfl <;> decide

theorem index_no_hyphen (index : Nat) : '-' ∉ index.repr.toList := by
  intro h
  rw [Nat.toList_repr] at h
  exact absurd (Nat.isDigit_of_mem_toDigits (by omega) (by omega) h) (by decide)

/-- A payment of a profile is known by its phase and index. -/
def ExpectedPayment.ident (payment : ExpectedPayment) : String × Nat :=
  (payment.phase, payment.index)

/-- A phase and an index are read back from their text. -/
theorem ident_eq_of_text {a b : ExpectedPayment} (ha : a.phase ∈ phases)
    (h : a.phase ++ "-" ++ a.index.repr = b.phase ++ "-" ++ b.index.repr) : a.ident = b.ident := by
  have hlist := congrArg String.toList h
  simp only [String.toList_append, List.append_assoc] at hlist
  have hsplit : a.phase.toList ++ '-' :: a.index.repr.toList =
      b.phase.toList ++ '-' :: b.index.repr.toList := hlist
  rw [List.append_cons_inj_of_notMem (phase_no_hyphen ha) (index_no_hyphen _)] at hsplit
  obtain ⟨hphase, _, hindex⟩ := hsplit
  rw [Nat.toList_repr, Nat.toList_repr] at hindex
  have hdigits := CanonicalJson.toDigits_unambiguous CanonicalJson.delimited_nil
    CanonicalJson.delimited_nil (congrArg (· ++ []) hindex)
  exact Prod.ext (String.toList_injective hphase) hdigits.1

theorem reference_injective {runId profile : String} {a b : ExpectedPayment}
    (ha : a.phase ∈ phases)
    (h : reference runId profile a = reference runId profile b) : a.ident = b.ident := by
  simp only [reference, String.append_assoc, String.append_right_inj] at h
  exact ident_eq_of_text ha (by simpa only [String.append_assoc] using h)

/-- A key is the reference with a suffix. -/
theorem idempotencyKey_eq (runId profile : String) (payment : ExpectedPayment) :
    idempotencyKey runId profile payment = reference runId profile payment ++ "-key" := rfl

theorem idempotencyKey_injective {runId profile : String} {a b : ExpectedPayment}
    (ha : a.phase ∈ phases)
    (h : idempotencyKey runId profile a = idempotencyKey runId profile b) : a.ident = b.ident := by
  rw [idempotencyKey_eq, idempotencyKey_eq, String.append_left_inj] at h
  exact reference_injective ha h

/-! ## What a profile expects -/

/-- The payments of a profile, each known by its phase and index. -/
structure WellNumbered (expected : List ExpectedPayment) : Prop where
  distinct : (expected.map ExpectedPayment.ident).Nodup
  phased : ∀ e ∈ expected, e.phase ∈ phases

theorem mem_phasePayments {phase : String} {count : Nat} {e : ExpectedPayment}
    (h : e ∈ phasePayments phase count) : e.phase = phase := by
  obtain ⟨_, _, rfl⟩ := List.mem_map.mp h
  rfl

/-- Payments numbered in one phase. -/
theorem wellNumbered_map {phase : String} (hphase : phase ∈ phases) (count : Nat)
    (approved : Nat → Bool) :
    WellNumbered ((List.range count).map fun index =>
      { phase := phase, index := index, approved := approved index }) where
  distinct := by
    rw [List.map_map]
    exact List.nodup_range.map fun i j h => (Prod.mk.inj h).2
  phased := by
    intro e he
    obtain ⟨_, _, rfl⟩ := List.mem_map.mp he
    exact hphase

/-- Payments of two phases. -/
theorem WellNumbered.append {phase phase' : String} (hphase : phase ∈ phases)
    (hphase' : phase' ∈ phases) (hne : phase ≠ phase') (count count' : Nat) :
    WellNumbered (phasePayments phase count ++ phasePayments phase' count') where
  distinct := by
    rw [List.map_append]
    refine (wellNumbered_map hphase count _).distinct.append
      (wellNumbered_map hphase' count' _).distinct ?_
    intro ident h h'
    obtain ⟨a, ha, rfl⟩ := List.mem_map.mp h
    obtain ⟨b, hb, heq⟩ := List.mem_map.mp h'
    refine hne ?_
    rw [← mem_phasePayments ha, ← mem_phasePayments hb]
    exact (Prod.mk.inj heq).1.symm
  phased := by
    intro e he
    rcases List.mem_append.mp he with h | h
    · exact (mem_phasePayments h).symm ▸ hphase
    · exact (mem_phasePayments h).symm ▸ hphase'

/-- **Every profile numbers its payments.** -/
theorem expectedPayments_wellNumbered {profile : String} {expected : List ExpectedPayment}
    (h : expectedPayments profile = .ok expected) : WellNumbered expected := by
  unfold expectedPayments at h
  split at h
  · cases h
    exact wellNumbered_map (by simp [phases]) 5 _
  · split at h
    · cases h
      exact .append (by simp [phases]) (by simp [phases]) (by decide) 5 150
    · split at h
      · cases h
        exact wellNumbered_map (by simp [phases]) 20 _
      · split at h
        · cases h
          exact wellNumbered_map (by simp [phases]) 1 fun _ => true
        · split at h
          · cases h
            exact .append (by simp [phases]) (by simp [phases]) (by decide) 20 120
          · cases h

section References

variable {expected : List ExpectedPayment} (h : WellNumbered expected) (runId profile : String)

include h

theorem WellNumbered.references_nodup : (expected.map (reference runId profile)).Nodup := by
  refine List.Nodup.map_on (fun a ha b hb heq => ?_) h.distinct.of_map
  exact List.inj_on_of_nodup_map h.distinct ha hb
    (reference_injective (h.phased a ha) heq)

theorem WellNumbered.keys_nodup : (expected.map (idempotencyKey runId profile)).Nodup := by
  refine List.Nodup.map_on (fun a ha b hb heq => ?_) h.distinct.of_map
  exact List.inj_on_of_nodup_map h.distinct ha hb
    (idempotencyKey_injective (h.phased a ha) heq)

end References

end PaymentLab
