import Mathlib.Data.List.Basic
import Mathlib.Tactic.Common
import Mathlib.Tactic.Ring

/-!
# JavaScript strings and values

A string is a sequence of UTF-16 code units, paired or not. The operations are those of the language:
the code points of a string, the decimal text of an integer, the integer of a decimal text, padding.
`JsValue` is what `JSON.parse` answers; `JSON.stringify` of such a value is not modelled, only the
value its text renders.
-/

/-- A string: its UTF-16 code units. -/
abbrev JsString := List UInt16

namespace JavaScript

/-- The code units of a character. -/
def unitsOf (c : Char) : JsString :=
  if c.toNat < 0x10000 then [c.toNat.toUInt16]
  else
    [(0xD800 + (c.toNat - 0x10000) / 0x400).toUInt16,
      (0xDC00 + (c.toNat - 0x10000) % 0x400).toUInt16]

/-- A literal. -/
def js (text : String) : JsString := text.toList.flatMap unitsOf

/-- A unit that opens a surrogate pair. -/
def isHigh (u : UInt16) : Bool := decide (0xD800 ≤ u ∧ u ≤ 0xDBFF)

/-- A unit that closes one. -/
def isLow (u : UInt16) : Bool := decide (0xDC00 ≤ u ∧ u ≤ 0xDFFF)

/-- `[...value].length`: the code points, an unpaired surrogate being one. -/
def codePoints : JsString → Nat
  | [] => 0
  | [_] => 1
  | a :: b :: rest =>
    if isHigh a && isLow b then codePoints rest + 1 else codePoints (b :: rest) + 1

/-- `[0-9]`. -/
def isDigit (u : UInt16) : Bool := decide (48 ≤ u.toNat ∧ u.toNat ≤ 57)

/-- `String(value)` of a natural number. -/
def decimal (n : Nat) : JsString := (Nat.toDigits 10 n).map fun c => c.toNat.toUInt16

/-- `BigInt(value)` of digits. -/
def bigInt (digits : JsString) : Nat := digits.foldl (fun n u => 10 * n + (u.toNat - 48)) 0

/-- `value.padStart(length, "0")`. -/
def padStart (length : Nat) (value : JsString) : JsString :=
  List.replicate (length - value.length) 48 ++ value

/-- `value.padEnd(length, "0")`. -/
def padEnd (length : Nat) (value : JsString) : JsString :=
  value ++ List.replicate (length - value.length) 48

/-! ## Digits -/

theorem toNat_unit {c : Char} (h : c.isDigit = true) : c.toNat.toUInt16.toNat = c.toNat := by
  simp only [Char.isDigit, Bool.and_eq_true, decide_eq_true_eq, UInt32.le_iff_toNat_le] at h
  have hsmall : c.toNat < 65536 := by
    have hlast : c.val.toNat ≤ 57 := h.2
    have hval : c.toNat = c.val.toNat := rfl
    omega
  simp [Nat.toUInt16, UInt16.toNat_ofNat', Nat.mod_eq_of_lt hsmall]

/-- The text of a number is digits. -/
theorem isDigit_decimal {n : Nat} {u : UInt16} (h : u ∈ decimal n) : isDigit u = true := by
  obtain ⟨c, mem, rfl⟩ := List.mem_map.mp h
  have hc := Nat.isDigit_of_mem_toDigits (by omega) (by omega) mem
  unfold isDigit
  rw [toNat_unit hc]
  simp only [Char.isDigit, Bool.and_eq_true, decide_eq_true_eq, UInt32.le_iff_toNat_le] at hc
  simpa using hc

theorem decimal_ne_nil (n : Nat) : decimal n ≠ [] := by
  simp [decimal, Nat.toDigits_ne_nil]

/-- A number is read back from its text. -/
@[simp] theorem bigInt_decimal (n : Nat) : bigInt (decimal n) = n := by
  have hread : ∀ (l : List Char) (init : Nat), (∀ c ∈ l, c.isDigit = true) →
      (l.map fun c => c.toNat.toUInt16).foldl (fun n u => 10 * n + (u.toNat - 48)) init =
        Nat.ofDigitChars 10 l init := by
    intro l
    induction l with
    | nil => simp
    | cons c rest ih =>
      intro init hdigits
      rw [List.map_cons, List.foldl_cons, toNat_unit (hdigits c List.mem_cons_self),
        ih _ fun d mem => hdigits d (List.mem_cons_of_mem _ mem), Nat.ofDigitChars_cons]
      rfl
  unfold bigInt decimal
  rw [hread _ 0 fun c mem => Nat.isDigit_of_mem_toDigits (by omega) (by omega) mem]
  simp

/-- Digits after digits. -/
theorem bigInt_append (a b : JsString) : bigInt (a ++ b) = bigInt a * 10 ^ b.length + bigInt b := by
  have hshift : ∀ (l : JsString) (init : Nat),
      l.foldl (fun n u => 10 * n + (u.toNat - 48)) init = init * 10 ^ l.length + bigInt l := by
    intro l
    induction l with
    | nil => simp [bigInt]
    | cons u rest ih =>
      intro init
      unfold bigInt
      rw [List.foldl_cons, List.foldl_cons, ih, ih (10 * 0 + _), List.length_cons, pow_succ]
      ring
  unfold bigInt
  rw [List.foldl_append, hshift]
  rfl

theorem length_decimal_le {n k : Nat} (h : n < 10 ^ k) (hk : 0 < k) : (decimal n).length ≤ k := by
  unfold decimal
  rw [List.length_map]
  exact (Nat.length_toDigits_le_iff (by omega) hk).mpr h

@[simp] theorem bigInt_zeros (n : Nat) : bigInt (List.replicate n 48) = 0 := by
  induction n with
  | zero => rfl
  | succ n ih =>
    rw [List.replicate_succ', bigInt_append, ih]
    rfl

/-! ## Values -/

/-- What `JSON.parse` answers. A number that is no integer carries no value, so that only what
depends on no fraction can be said of it. -/
inductive JsValue where
  | null
  | boolean (b : Bool)
  | number (integer : Option Int)
  | string (s : JsString)
  | array (items : List JsValue)
  | object (fields : List (String × JsValue))

/-- The property of an object, where it has one. -/
def JsValue.property (value : JsValue) (name : String) : Option JsValue :=
  match value with
  | .object fields => (fields.find? fun field => decide (field.1 = name)).map (·.2)
  | _ => none

end JavaScript
