import Mathlib.Algebra.Field.Rat
import Mathlib.Data.List.TakeWhile
import Mathlib.Tactic.FieldSimp
import Mathlib.Tactic.Linarith
import PaymentLab.Domain.Payment
import PaymentLab.Library.JavaScript

/-!
# Amounts of the checkout page

`web/checkout/money.js`, and the way back from `checkout.js`: an amount as the customer types it and
as minor units. What the page writes into the field for an amount is read back as that amount
(`parseMinorUnits_display`).
-/

namespace PaymentLab

open JavaScript

/-- `MAX_MINOR_UNITS`. -/
def maxMinorUnits : Nat := 999999999

/-- `digits.replace(/^0+(?=[0-9])/, "")`. -/
def stripZeros : JsString → JsString
  | [] => []
  | [u] => [u]
  | u :: v :: rest => if u = 48 then stripZeros (v :: rest) else u :: v :: rest

/-- `boundedInteger`: the value of digits, leading zeros apart, where it lies from 1 to the largest
amount. -/
def boundedInteger (digits : JsString) : Option Nat :=
  let amount := bigInt (stripZeros digits)
  if amount = 0 ∨ maxMinorUnits < amount then none else some amount

/-- The groups of `/^([0-9]+)(?:\.([0-9]{1,2}))?$/`, the second empty where it is absent. -/
def matchDollars (value : JsString) : Option (JsString × JsString) :=
  let whole := value.takeWhile isDigit
  if whole = [] then none
  else
    match value.dropWhile isDigit with
    | [] => some (whole, [])
    | dot :: fractional =>
      if dot = 46 ∧ fractional.all isDigit ∧ (fractional.length = 1 ∨ fractional.length = 2) then
        some (whole, fractional)
      else none

/-- `parseMinorUnits`: an amount as a customer types it, in minor units of a currency; `none` where
it is no amount. Blanks, signs and separators of thousands make it none. -/
def parseMinorUnits (value : JsString) : Currency → Option Nat
  | .jpy => if value ≠ [] ∧ value.all isDigit then boundedInteger value else none
  | .usd => (matchDollars value).bind fun groups => boundedInteger (groups.1 ++ padEnd 2 groups.2)

/-- `displayAmountFromMinorUnits`: the text that the page puts into the field for an amount, with two
digits after the point where the currency has them. -/
def displayAmountFromMinorUnits (amount : Nat) : Currency → JsString
  | .jpy => decimal amount
  | .usd => decimal (amount / 100) ++ js "." ++ padStart 2 (decimal (amount % 100))

/-! ## There and back -/

@[simp] theorem bigInt_stripZeros (digits : JsString) : bigInt (stripZeros digits) = bigInt digits := by
  induction digits with
  | nil => rfl
  | cons u rest ih =>
    cases rest with
    | nil => rfl
    | cons v rest =>
      unfold stripZeros
      split
      · next hzero =>
        subst hzero
        rw [ih]
        simp [bigInt]
      · rfl

theorem boundedInteger_eq_some {digits : JsString} {amount : Nat} :
    boundedInteger digits = some amount ↔
      bigInt digits = amount ∧ 0 < amount ∧ amount ≤ maxMinorUnits := by
  unfold boundedInteger
  simp only [bigInt_stripZeros, Option.ite_none_left_eq_some, Option.some.injEq]
  omega

/-- An accepted amount is positive and bounded. -/
theorem parseMinorUnits_bounds {value : JsString} {currency : Currency} {amount : Nat}
    (h : parseMinorUnits value currency = some amount) : 0 < amount ∧ amount ≤ maxMinorUnits := by
  cases currency with
  | jpy =>
    obtain ⟨_, hbounded⟩ := Option.ite_none_right_eq_some.mp h
    exact (boundedInteger_eq_some.mp hbounded).2
  | usd =>
    obtain ⟨groups, _, hbounded⟩ := Option.bind_eq_some_iff.mp h
    exact (boundedInteger_eq_some.mp hbounded).2

/-- Digits, a point and one or two digits are matched as they stand. -/
theorem matchDollars_point {whole fractional : JsString} (hwhole : ∀ u ∈ whole, isDigit u = true)
    (some_digit : whole ≠ []) (hfractional : ∀ u ∈ fractional, isDigit u = true)
    (length : fractional.length = 1 ∨ fractional.length = 2) :
    matchDollars (whole ++ js "." ++ fractional) = some (whole, fractional) := by
  have hpoint : isDigit 46 = false := by decide
  have hjs : js "." = [46] := by decide
  unfold matchDollars
  rw [hjs, List.append_assoc, List.takeWhile_append_of_pos hwhole,
    List.dropWhile_append_of_pos hwhole]
  simp [hpoint, some_digit, length, List.all_eq_true.mpr hfractional]

/-- The cents of an amount are written with two digits. -/
theorem cents_length (amount : Nat) : (padStart 2 (decimal (amount % 100))).length = 2 := by
  have hshort : (decimal (amount % 100)).length ≤ 2 :=
    length_decimal_le (show amount % 100 < 10 ^ 2 by omega) (by omega)
  simp only [padStart, List.length_append, List.length_replicate]
  omega

/-- **What the page writes for an amount is read back as the amount.** -/
theorem parseMinorUnits_display {amount : Nat} (positive : 0 < amount)
    (bounded : amount ≤ maxMinorUnits) (currency : Currency) :
    parseMinorUnits (displayAmountFromMinorUnits amount currency) currency = some amount := by
  cases currency with
  | jpy =>
    have hdigits : (decimal amount).all isDigit = true :=
      List.all_eq_true.mpr fun u mem => isDigit_decimal mem
    unfold parseMinorUnits displayAmountFromMinorUnits
    dsimp only
    rw [if_pos ⟨decimal_ne_nil amount, hdigits⟩, boundedInteger_eq_some]
    simp [positive, bounded]
  | usd =>
    have hcents : ∀ u ∈ padStart 2 (decimal (amount % 100)), isDigit u = true := by
      intro u mem
      rcases List.mem_append.mp mem with hzero | hdigit
      · rw [List.eq_of_mem_replicate hzero]
        decide
      · exact isDigit_decimal hdigit
    unfold parseMinorUnits displayAmountFromMinorUnits
    dsimp only
    rw [matchDollars_point (fun u => isDigit_decimal) (decimal_ne_nil _) hcents
      (.inr (cents_length amount)), Option.bind_some, boundedInteger_eq_some]
    refine ⟨?_, positive, bounded⟩
    have hpad : padEnd 2 (padStart 2 (decimal (amount % 100))) =
        padStart 2 (decimal (amount % 100)) := by
      simp [padEnd, cents_length]
    dsimp only
    rw [hpad, bigInt_append, cents_length, bigInt_decimal]
    unfold padStart
    rw [bigInt_append, bigInt_zeros, bigInt_decimal]
    omega

/-! ## Exactness -/

/-- `parseMinorUnits` of any value and any currency. -/
def parseMinorUnitsOf (value : JsValue) (currency : JsString) : Option Nat :=
  match value with
  | .string text =>
    if currency = js "JPY" then parseMinorUnits text .jpy
    else if currency = js "USD" then parseMinorUnits text .usd
    else none
  | _ => none

theorem parseMinorUnitsOf_yen (text : JsString) :
    parseMinorUnitsOf (.string text) (js "JPY") = parseMinorUnits text .jpy := by
  simp [parseMinorUnitsOf]

theorem parseMinorUnitsOf_dollars (text : JsString) :
    parseMinorUnitsOf (.string text) (js "USD") = parseMinorUnits text .usd := by
  have hnames : js "USD" ≠ js "JPY" := by decide
  simp [parseMinorUnitsOf, hnames]

/-- One or more ASCII digits. -/
def Digits (text : JsString) : Prop := text ≠ [] ∧ ∀ u ∈ text, isDigit u = true

/-- The positional value of digits. -/
def positional : JsString → Nat
  | [] => 0
  | u :: rest => (u.toNat - 48) * 10 ^ rest.length + positional rest

theorem bigInt_eq_positional (digits : JsString) : bigInt digits = positional digits := by
  induction digits with
  | nil => rfl
  | cons u rest ih =>
    have happend := bigInt_append [u] rest
    rw [List.singleton_append] at happend
    rw [happend, ih]
    simp [bigInt, positional]

/-- Digits, or digits with a point and one or two digits, are what the dollar pattern matches. -/
theorem matchDollars_eq_some {value whole fractional : JsString} :
    matchDollars value = some (whole, fractional) ↔ Digits whole ∧
      (fractional = [] ∧ value = whole ∨
        Digits fractional ∧ fractional.length ≤ 2 ∧ value = whole ++ js "." ++ fractional) := by
  have hjs : js "." = [46] := by decide
  constructor
  · intro h
    unfold matchDollars at h
    have hsplit := List.takeWhile_append_dropWhile (p := isDigit) (l := value)
    have hdigits : ∀ u ∈ value.takeWhile isDigit, isDigit u = true := fun u mem =>
      List.mem_takeWhile_imp mem
    dsimp only at h
    split_ifs at h with hempty
    split at h
    · next hrest =>
      cases h
      rw [hrest, List.append_nil] at hsplit
      exact ⟨⟨hempty, hdigits⟩, .inl ⟨rfl, hsplit.symm⟩⟩
    · next dot rest hrest =>
      split_ifs at h with hpoint
      cases h
      obtain ⟨rfl, hfractional, hlength⟩ := hpoint
      refine ⟨⟨hempty, hdigits⟩, .inr ⟨⟨?_, List.all_eq_true.mp hfractional⟩, by omega, ?_⟩⟩
      · intro hnil
        simp [hnil] at hlength
      · rw [hjs, List.append_assoc, List.singleton_append, ← hrest, hsplit]
  · rintro ⟨⟨hempty, hdigits⟩, ⟨rfl, rfl⟩ | ⟨⟨hnil, hfractional⟩, hlength, rfl⟩⟩
    · unfold matchDollars
      rw [List.takeWhile_eq_self_iff.mpr hdigits, List.dropWhile_eq_nil_iff.mpr hdigits]
      simp [hempty]
    · have hpositive := List.length_pos_iff.mpr hnil
      exact matchDollars_point hdigits hempty hfractional (by omega)

theorem parseMinorUnits_yen {text : JsString} {n : Nat} : parseMinorUnits text .jpy = some n ↔
    Digits text ∧ positional text = n ∧ 1 ≤ n ∧ n ≤ 999999999 := by
  have hbounded : boundedInteger text = some n ↔ _ := boundedInteger_eq_some
  rw [bigInt_eq_positional] at hbounded
  unfold parseMinorUnits Digits
  dsimp only
  rw [Option.ite_none_right_eq_some, hbounded, List.all_eq_true]
  rfl

/-- The digits of a matched amount are its minor units. -/
theorem positional_dollars {whole fractional : JsString} (length : fractional.length ≤ 2) :
    ((positional (whole ++ padEnd 2 fractional) : Nat) : ℚ) =
      100 * (positional whole + positional fractional / 10 ^ fractional.length) := by
  have happend := bigInt_append whole (padEnd 2 fractional)
  have hpad := bigInt_append fractional (List.replicate (2 - fractional.length) 48)
  have hlength : (padEnd 2 fractional).length = 2 := by
    simp only [padEnd, List.length_append, List.length_replicate]
    omega
  rw [hlength] at happend
  rw [bigInt_zeros, List.length_replicate] at hpad
  simp only [bigInt_eq_positional] at happend hpad
  rw [happend]
  unfold padEnd
  rw [hpad]
  push_cast
  have hcases : fractional.length = 0 ∨ fractional.length = 1 ∨ fractional.length = 2 := by omega
  rcases hcases with h | h | h <;> rw [h] <;> norm_num <;> ring

theorem parseMinorUnits_dollars {text : JsString} {n : Nat} : parseMinorUnits text .usd = some n ↔
    (∃ whole, Digits whole ∧
      (text = whole ∧ (n : ℚ) = 100 * positional whole ∨
        ∃ fractional, Digits fractional ∧ fractional.length ≤ 2 ∧
          text = whole ++ js "." ++ fractional ∧
          (n : ℚ) = 100 * (positional whole + positional fractional / 10 ^ fractional.length))) ∧
    1 ≤ n ∧ n ≤ 999999999 := by
  have hvalue : ∀ {whole fractional : JsString}, fractional.length ≤ 2 →
      (bigInt (whole ++ padEnd 2 fractional) = n ↔
        (n : ℚ) = 100 * (positional whole + positional fractional / 10 ^ fractional.length)) := by
    intro whole fractional hlength
    rw [bigInt_eq_positional, ← positional_dollars hlength, Nat.cast_inj, eq_comm]
  unfold parseMinorUnits
  dsimp only
  rw [Option.bind_eq_some_iff]
  constructor
  · rintro ⟨⟨whole, fractional⟩, hmatch, hbounded⟩
    obtain ⟨hamount, hpositive, hmax⟩ := boundedInteger_eq_some.mp hbounded
    obtain ⟨hwhole, ⟨rfl, rfl⟩ | ⟨hfractional, hlength, rfl⟩⟩ := matchDollars_eq_some.mp hmatch
    · have h := (hvalue (by simp)).mp hamount
      exact ⟨⟨text, hwhole, .inl ⟨rfl, by simpa [positional] using h⟩⟩, hpositive, hmax⟩
    · have h := (hvalue hlength).mp hamount
      exact ⟨⟨whole, hwhole, .inr ⟨fractional, hfractional, hlength, rfl, h⟩⟩, hpositive, hmax⟩
  · rintro ⟨⟨whole, hwhole, ⟨rfl, h⟩ | ⟨fractional, hfractional, hlength, rfl, h⟩⟩, hpositive, hmax⟩
    · refine ⟨(text, []), matchDollars_eq_some.mpr ⟨hwhole, .inl ⟨rfl, rfl⟩⟩, ?_⟩
      exact boundedInteger_eq_some.mpr
        ⟨(hvalue (by simp)).mpr (by simpa [positional] using h), hpositive, hmax⟩
    · refine ⟨(whole, fractional),
        matchDollars_eq_some.mpr ⟨hwhole, .inr ⟨hfractional, hlength, rfl⟩⟩, ?_⟩
      exact boundedInteger_eq_some.mpr ⟨(hvalue hlength).mpr h, hpositive, hmax⟩

/-- **Parsing is exact**: yen are digits, dollars are digits with at most two after a point; the
amount is the number of minor units of their decimal value, from 1 to 999999999; nothing else is an
amount; and what the page displays for an amount is parsed as it. -/
theorem parseMinorUnits_exact :
    (∀ text n, parseMinorUnitsOf (.string text) (js "JPY") = some n ↔
      Digits text ∧ positional text = n ∧ 1 ≤ n ∧ n ≤ 999999999) ∧
    (∀ text n, parseMinorUnitsOf (.string text) (js "USD") = some n ↔
      (∃ whole, Digits whole ∧
        (text = whole ∧ (n : ℚ) = 100 * positional whole ∨
          ∃ fractional, Digits fractional ∧ fractional.length ≤ 2 ∧
            text = whole ++ js "." ++ fractional ∧
            (n : ℚ) = 100 * (positional whole + positional fractional / 10 ^ fractional.length))) ∧
      1 ≤ n ∧ n ≤ 999999999) ∧
    (∀ value currency, currency ≠ js "JPY" → currency ≠ js "USD" →
      parseMinorUnitsOf value currency = none) ∧
    ∀ n (currency : Currency), 1 ≤ n → n ≤ 999999999 →
      parseMinorUnitsOf (.string (displayAmountFromMinorUnits n currency)) (js currency.value) =
        some n := by
  refine ⟨fun text n => ?_, fun text n => ?_, fun value currency hyen hdollar => ?_,
    fun n currency hpositive hmax => ?_⟩
  · rw [parseMinorUnitsOf_yen]
    exact parseMinorUnits_yen
  · rw [parseMinorUnitsOf_dollars]
    exact parseMinorUnits_dollars
  · unfold parseMinorUnitsOf
    split
    · rw [if_neg hyen, if_neg hdollar]
    · rfl
  · have hread := parseMinorUnits_display (show 0 < n by omega) hmax currency
    cases currency with
    | jpy => exact (parseMinorUnitsOf_yen _).trans hread
    | usd => exact (parseMinorUnitsOf_dollars _).trans hread

end PaymentLab
