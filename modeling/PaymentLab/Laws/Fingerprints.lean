import PaymentLab.Runs.Keyed

/-!
# Fingerprints

A fingerprint is the digest of a canonical text, and the canonical text of a command determines it
(`fingerprints_identify`): its kind shows in the names of the fields, every field is in the object
under its own name, and the text determines the object whatever its strings hold
(`CanonicalJson.text_injective`). Of the digest only injectivity is assumed.

The strings of a command are sequences of Unicode scalar values, as they are once a request has been
decoded. The two kinds of command share no fingerprint either: an authorization and a lifecycle
operation have different field names, so their texts differ before any value is compared.
-/

namespace PaymentLab

/-! ## Values of the enumerations -/

theorem Currency.value_injective : Function.Injective Currency.value := by
  intro a b h
  cases a <;> cases b <;> first | rfl | exact absurd h (by decide)

theorem PaymentOperation.value_injective : Function.Injective PaymentOperation.value := by
  intro a b h
  cases a <;> cases b <;> first | rfl | exact absurd h (by decide)

theorem AuthorizationDecision.value_injective : Function.Injective AuthorizationDecision.value := by
  intro a b h
  cases a <;> cases b <;> first | rfl | exact absurd h (by decide)

/-- No authorization token is the token of a delayed payment. -/
theorem AuthorizationDecision.value_ne_delayed (decision : AuthorizationDecision) :
    decision.value ≠ PaymentMethodDecision.awaitConfirmation.value := by
  cases decision <;> decide

theorem PaymentMethodDecision.value_injective : Function.Injective PaymentMethodDecision.value := by
  intro a b h
  cases a with
  | authorization decision =>
    cases b with
    | authorization other => rw [AuthorizationDecision.value_injective h]
    | awaitConfirmation => exact absurd h decision.value_ne_delayed
  | awaitConfirmation =>
    cases b with
    | authorization other => exact absurd h.symm other.value_ne_delayed
    | awaitConfirmation => rfl

/-! ## The digested objects -/

/-- The object a keyed fingerprint digests. -/
def KeyedCommand.payload : KeyedCommand → CanonicalJson.Value
  | .authorize command => command.payload
  | .lifecycle command => command.payload

/-- The digested object has every field of the command, and shows its kind. -/
theorem KeyedCommand.payload_injective : Function.Injective KeyedCommand.payload := by
  intro a b h
  cases a with
  | authorize command =>
    cases b with
    | authorize other =>
      obtain ⟨reference, amount, currency, token⟩ := command
      obtain ⟨reference', amount', currency', token'⟩ := other
      simp only [payload, AuthorizationCommand.payload, CanonicalJson.Value.obj.injEq,
        List.cons.injEq, Prod.mk.injEq, true_and, and_true, CanonicalJson.Value.int.injEq,
        CanonicalJson.Value.str.injEq] at h
      obtain ⟨rfl, hcurrency, rfl, htoken⟩ := h
      rw [Currency.value_injective hcurrency, PaymentMethodDecision.value_injective htoken]
    | lifecycle other =>
      exact absurd h (by simp [payload, AuthorizationCommand.payload, LifecycleCommand.payload])
  | lifecycle command =>
    cases b with
    | authorize other =>
      exact absurd h (by simp [payload, AuthorizationCommand.payload, LifecycleCommand.payload])
    | lifecycle other =>
      obtain ⟨paymentId, operation, amount⟩ := command
      obtain ⟨paymentId', operation', amount'⟩ := other
      simp only [payload, LifecycleCommand.payload, CanonicalJson.Value.obj.injEq,
        List.cons.injEq, Prod.mk.injEq, true_and, and_true, CanonicalJson.Value.str.injEq] at h
      obtain ⟨hamount, hoperation, rfl⟩ := h
      have hamount : amount = amount' := by
        cases amount <;> cases amount' <;> simp_all
      rw [hamount, PaymentOperation.value_injective hoperation]

/-- The digested object of a confirmation has every field of it. -/
theorem ConfirmationCommand.payload_injective : Function.Injective ConfirmationCommand.payload := by
  intro a b h
  obtain ⟨confirmationId, reference, amount, currency⟩ := a
  obtain ⟨confirmationId', reference', amount', currency'⟩ := b
  simp only [payload, CanonicalJson.Value.obj.injEq, List.cons.injEq, Prod.mk.injEq, true_and,
    and_true, CanonicalJson.Value.int.injEq, CanonicalJson.Value.str.injEq] at h
  obtain ⟨rfl, rfl, hcurrency, rfl⟩ := h
  rw [Currency.value_injective hcurrency]

/-! ## Fingerprints determine commands -/

section Digest

variable {sha256 : String → String}

theorem KeyedCommand.fingerprint_eq (sha256 : String → String) (command : KeyedCommand) :
    command.fingerprint sha256 = sha256 (CanonicalJson.text command.payload) := by
  cases command <;> rfl

/-- **A fingerprint determines its command.** -/
theorem KeyedCommand.fingerprint_injective (injective : Function.Injective sha256) :
    Function.Injective (KeyedCommand.fingerprint sha256) := by
  intro a b h
  rw [fingerprint_eq, fingerprint_eq] at h
  exact payload_injective (CanonicalJson.text_injective (injective h))

theorem AuthorizationCommand.fingerprint_injective (injective : Function.Injective sha256) :
    Function.Injective (AuthorizationCommand.fingerprint sha256) := by
  intro a b h
  have hkeyed := KeyedCommand.fingerprint_injective injective
    (show KeyedCommand.fingerprint sha256 (.authorize a) =
      KeyedCommand.fingerprint sha256 (.authorize b) from h)
  cases hkeyed
  rfl

/-- **A fingerprint determines its confirmation.** -/
theorem ConfirmationCommand.fingerprint_injective (injective : Function.Injective sha256) :
    Function.Injective (ConfirmationCommand.fingerprint sha256) := fun _ _ h =>
  payload_injective (CanonicalJson.text_injective (injective h))

end Digest

/-- **Fingerprints identify requests**: the canonical texts of two commands under one key space are
equal exactly if the commands are, the texts of two confirmations are equal exactly if these are,
and so are their fingerprints under an injective digest. -/
theorem fingerprints_identify :
    (∀ a b : KeyedCommand,
        CanonicalJson.text a.payload = CanonicalJson.text b.payload ↔ a = b) ∧
      (∀ a b : ConfirmationCommand,
        CanonicalJson.text a.payload = CanonicalJson.text b.payload ↔ a = b) ∧
      ∀ sha256 : String → String, Function.Injective sha256 →
        (∀ a b : KeyedCommand, a.fingerprint sha256 = b.fingerprint sha256 ↔ a = b) ∧
          ∀ a b : ConfirmationCommand, a.fingerprint sha256 = b.fingerprint sha256 ↔ a = b := by
  refine ⟨fun a b => ?_, fun a b => ?_, fun sha256 injective => ⟨fun a b => ?_, fun a b => ?_⟩⟩
  · exact (CanonicalJson.text_injective.comp KeyedCommand.payload_injective).eq_iff
  · exact (CanonicalJson.text_injective.comp ConfirmationCommand.payload_injective).eq_iff
  · exact (KeyedCommand.fingerprint_injective injective).eq_iff
  · exact (ConfirmationCommand.fingerprint_injective injective).eq_iff

/-- A reference that spells the text of another field is still a reference. -/
theorem quoted_distinct :
    KeyedCommand.fingerprint id (.authorize
        ⟨"order\",\"payment_method_token\":\"tok_declined", 500, .usd,
          .authorization .approve⟩) ≠
      KeyedCommand.fingerprint id (.authorize
        ⟨"order", 500, .usd, .authorization .decline⟩) := by
  rw [ne_eq, (fingerprints_identify.2.2 id Function.injective_id).1]
  decide

end PaymentLab
