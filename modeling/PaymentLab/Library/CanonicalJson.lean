import Mathlib.Data.List.Basic
import Mathlib.Tactic.Common

/-!
# Canonical JSON text

The text `json.dumps(value, separators=(",", ":"), sort_keys=True)` renders, for the values that are
built from null, booleans, integers, strings and objects: no blanks, every character outside
printable ASCII escaped as UTF-16 units, objects in the order their fields are listed (a caller
lists them in sorted order).

**The law** (`dumps_injective`): the text determines the value. It is proved as a prefix property,
`dumps_unambiguous`: two values whose texts begin one string at the same place, each followed by
something that does not continue a number, are the same value with the same rest. The pieces
(`escape`, `quote`, the digits of a number) have the property each, and an object composes them.
-/

namespace CanonicalJson

/-- A JSON value without arrays and fractions. An object is the list of its members; that no name is
there twice is not asked of it. -/
inductive Value where
  | null
  | bool (b : Bool)
  | int (i : Int)
  | str (s : String)
  | obj (fields : List (String × Value))

/-! ## The text -/

/-- A hexadecimal digit in lower case. -/
def hexDigit (n : Nat) : Char := Nat.digitChar (n % 16)

/-- `\uXXXX` for one UTF-16 unit. -/
def escapeUnit (n : Nat) : List Char :=
  ['\\', 'u', hexDigit (n / 4096), hexDigit (n / 256), hexDigit (n / 16), hexDigit n]

/-- The first unit of a surrogate pair. -/
def highSurrogate (n : Nat) : Nat := 0xd800 + (n - 0x10000) / 0x400

/-- The second unit of a surrogate pair. -/
def lowSurrogate (n : Nat) : Nat := 0xdc00 + (n - 0x10000) % 0x400

/-- The characters with an escape of two characters, and its second character. -/
def shortEscapes : List (Char × Char) :=
  [('"', '"'), ('\\', '\\'), ('\n', 'n'), ('\r', 'r'), ('\t', 't'),
    (Char.ofNat 12, 'f'), (Char.ofNat 8, 'b')]

/-- The second character of a short escape. -/
def shortEscape (c : Char) : Option Char := (shortEscapes.find? (·.1 = c)).map (·.2)

/-- The escape of a code outside printable ASCII. -/
def escapeCode (n : Nat) : List Char :=
  if n < 0x10000 then escapeUnit n
  else escapeUnit (highSurrogate n) ++ escapeUnit (lowSurrogate n)

/-- One character of a string, escaped where ASCII output asks for it. -/
def escape (c : Char) : List Char :=
  match shortEscape c with
  | some x => ['\\', x]
  | none => if 0x20 ≤ c.toNat ∧ c.toNat ≤ 0x7e then [c] else escapeCode c.toNat

/-- The characters of a string up to and with its closing quote. -/
def quoteTail : List Char → List Char
  | [] => ['"']
  | c :: cs => escape c ++ quoteTail cs

/-- A string in quotes. -/
def quote (s : String) : List Char := '"' :: quoteTail s.toList

/-- An integer in decimal. -/
def intText : Int → List Char
  | .ofNat n => Nat.toDigits 10 n
  | .negSucc n => '-' :: Nat.toDigits 10 (n + 1)

mutual

/-- `json.dumps`. -/
def dumps : Value → List Char
  | .null => ['n', 'u', 'l', 'l']
  | .bool true => ['t', 'r', 'u', 'e']
  | .bool false => ['f', 'a', 'l', 's', 'e']
  | .int i => intText i
  | .str s => quote s
  | .obj [] => ['{', '}']
  | .obj ((key, value) :: rest) => '{' :: (quote key ++ ':' :: (dumps value ++ dumpsTail rest))

/-- The fields after the first, up to and with the closing brace. -/
def dumpsTail : List (String × Value) → List Char
  | [] => ['}']
  | (key, value) :: rest => ',' :: (quote key ++ ':' :: (dumps value ++ dumpsTail rest))

end

/-- The text as a string. -/
def text (value : Value) : String := String.ofList (dumps value)

/-! ## Characters -/

theorem hexDigit_injective {m n : Nat} (h : hexDigit m = hexDigit n) : m % 16 = n % 16 := by
  have all : ∀ i < 16, ∀ j < 16, Nat.digitChar i = Nat.digitChar j → i = j := by decide
  exact all _ (Nat.mod_lt _ (by omega)) _ (Nat.mod_lt _ (by omega)) h

/-- The four digits determine a unit. -/
theorem escapeUnit_injective {m n : Nat} (hm : m < 0x10000) (hn : n < 0x10000) {s t : List Char}
    (h : escapeUnit m ++ s = escapeUnit n ++ t) : m = n ∧ s = t := by
  simp only [escapeUnit, List.cons_append, List.nil_append, List.cons.injEq, true_and] at h
  obtain ⟨h3, h2, h1, h0, rest⟩ := h
  have := hexDigit_injective h3
  have := hexDigit_injective h2
  have := hexDigit_injective h1
  have := hexDigit_injective h0
  exact ⟨by omega, rest⟩

/-- A character is no surrogate, so its code is no unit of a pair. -/
theorem toNat_not_surrogate (c : Char) : c.toNat < 0xd800 ∨ (0xdfff < c.toNat ∧ c.toNat < 0x110000) :=
  c.valid

theorem escapeCode_injective {c d : Char} {s t : List Char}
    (h : escapeCode c.toNat ++ s = escapeCode d.toNat ++ t) : c = d ∧ s = t := by
  have hc := toNat_not_surrogate c
  have hd := toNat_not_surrogate d
  unfold escapeCode highSurrogate lowSurrogate at h
  split at h
  · next hcs =>
    split at h
    · next hds =>
      obtain ⟨heq, rest⟩ := escapeUnit_injective hcs hds h
      exact ⟨Char.toNat_inj.mp heq, rest⟩
    · -- the first unit of the pair lies in the surrogate range
      rw [List.append_assoc] at h
      have := (escapeUnit_injective hcs (by omega) h).1
      omega
  · next hcl =>
    split at h
    · next hds =>
      rw [List.append_assoc] at h
      have := (escapeUnit_injective (by omega) hds h).1
      omega
    · next hdl =>
      rw [List.append_assoc, List.append_assoc] at h
      obtain ⟨high, rest⟩ := escapeUnit_injective (by omega) (by omega) h
      obtain ⟨low, rest⟩ := escapeUnit_injective (by omega) (by omega) rest
      exact ⟨Char.toNat_inj.mp (by omega), rest⟩

theorem mem_shortEscapes {c x : Char} (h : shortEscape c = some x) : (c, x) ∈ shortEscapes := by
  obtain ⟨⟨d, y⟩, hfind, rfl⟩ := Option.map_eq_some_iff.mp h
  have hd : d = c := by simpa only [decide_eq_true_eq] using List.find?_some hfind
  exact hd ▸ List.mem_of_find?_eq_some hfind

theorem shortEscape_injective {c d x : Char} (hc : shortEscape c = some x)
    (hd : shortEscape d = some x) : c = d := by
  have table : ∀ p ∈ shortEscapes, ∀ q ∈ shortEscapes, p.2 = q.2 → p.1 = q.1 := by decide
  exact table _ (mem_shortEscapes hc) _ (mem_shortEscapes hd) rfl

theorem shortEscape_ne_u {c : Char} : shortEscape c ≠ some 'u' := by
  intro h
  have table : ∀ p ∈ shortEscapes, p.2 ≠ 'u' := by decide
  exact table _ (mem_shortEscapes h) rfl

/-- The three forms an escape takes. -/
theorem escape_cases (c : Char) :
    (∃ x, shortEscape c = some x ∧ escape c = ['\\', x]) ∨
      (c ≠ '\\' ∧ c ≠ '"' ∧ escape c = [c]) ∨ escape c = escapeCode c.toNat := by
  unfold escape
  cases hs : shortEscape c with
  | some x => exact .inl ⟨x, rfl, rfl⟩
  | none =>
    right
    by_cases hp : 0x20 ≤ c.toNat ∧ c.toNat ≤ 0x7e
    · left
      refine ⟨?_, ?_, if_pos hp⟩ <;> (rintro rfl; exact absurd hs (by decide))
    · exact .inr (if_neg hp)

theorem escapeCode_head (n : Nat) (s : List Char) : ∃ rest, escapeCode n ++ s = '\\' :: 'u' :: rest := by
  unfold escapeCode escapeUnit
  split <;> exact ⟨_, rfl⟩

/-- **Escapes are unambiguous**: an escape at the front of a string determines the character and
the rest. -/
theorem escape_unambiguous {c d : Char} {s t : List Char} (h : escape c ++ s = escape d ++ t) :
    c = d ∧ s = t := by
  obtain ⟨x, hx, ec⟩ | ⟨hcb, _, ec⟩ | ec := escape_cases c <;>
    obtain ⟨y, hy, ed⟩ | ⟨hdb, _, ed⟩ | ed := escape_cases d <;>
    rw [ec, ed] at h
  · simp only [List.cons_append, List.nil_append, List.cons.injEq, true_and] at h
    exact ⟨shortEscape_injective hx (h.1 ▸ hy), h.2⟩
  · simp only [List.cons_append, List.nil_append, List.cons.injEq] at h
    exact absurd h.1.symm hdb
  · obtain ⟨rest, hr⟩ := escapeCode_head d.toNat t
    rw [hr] at h
    simp only [List.cons_append, List.nil_append, List.cons.injEq, true_and] at h
    exact absurd (h.1 ▸ hx) shortEscape_ne_u
  · simp only [List.cons_append, List.nil_append, List.cons.injEq] at h
    exact absurd h.1 hcb
  · simpa only [List.cons_append, List.nil_append, List.cons.injEq] using h
  · obtain ⟨rest, hr⟩ := escapeCode_head d.toNat t
    rw [hr] at h
    simp only [List.cons_append, List.nil_append, List.cons.injEq] at h
    exact absurd h.1 hcb
  · obtain ⟨rest, hr⟩ := escapeCode_head c.toNat s
    rw [hr] at h
    simp only [List.cons_append, List.nil_append, List.cons.injEq, true_and] at h
    exact absurd (h.1 ▸ hy) shortEscape_ne_u
  · obtain ⟨rest, hr⟩ := escapeCode_head c.toNat s
    rw [hr] at h
    simp only [List.cons_append, List.nil_append, List.cons.injEq] at h
    exact absurd h.1.symm hdb
  · exact escapeCode_injective h

/-- No escape begins like the closing quote. -/
theorem escape_ne_quote {c : Char} {s t : List Char} : escape c ++ s ≠ '"' :: t := by
  obtain ⟨x, _, ec⟩ | ⟨_, hq, ec⟩ | ec := escape_cases c <;> rw [ec]
  · simp only [List.cons_append, List.nil_append, ne_eq, List.cons.injEq, not_and]
    intro h
    exact absurd h (by decide)
  · simp only [List.cons_append, List.nil_append, ne_eq, List.cons.injEq, not_and]
    intro h
    exact absurd h hq
  · obtain ⟨rest, hr⟩ := escapeCode_head c.toNat s
    rw [hr]
    simp only [ne_eq, List.cons.injEq, not_and]
    intro h
    exact absurd h (by decide)

/-! ## Strings and numbers -/

theorem quoteTail_unambiguous : ∀ {cs ds s t : List Char},
    quoteTail cs ++ s = quoteTail ds ++ t → cs = ds ∧ s = t
  | [], [], s, t, h => by simpa only [quoteTail, List.cons_append, List.nil_append,
      List.cons.injEq, true_and] using h
  | [], d :: ds, s, t, h => by
    simp only [quoteTail, List.cons_append, List.nil_append, List.append_assoc] at h
    exact absurd h.symm escape_ne_quote
  | c :: cs, [], s, t, h => by
    simp only [quoteTail, List.cons_append, List.nil_append, List.append_assoc] at h
    exact absurd h escape_ne_quote
  | c :: cs, d :: ds, s, t, h => by
    simp only [quoteTail, List.append_assoc] at h
    obtain ⟨rfl, htail⟩ := escape_unambiguous h
    obtain ⟨rfl, hrest⟩ := quoteTail_unambiguous htail
    exact ⟨rfl, hrest⟩

/-- **Quoted strings are unambiguous.** -/
theorem quote_unambiguous {a b : String} {s t : List Char} (h : quote a ++ s = quote b ++ t) :
    a = b ∧ s = t := by
  simp only [quote, List.cons_append, List.cons.injEq, true_and] at h
  obtain ⟨heq, rest⟩ := quoteTail_unambiguous h
  exact ⟨String.toList_inj.mp heq, rest⟩

/-- A rest that does not continue a number. -/
def Delimited (s : List Char) : Prop := ∀ c rest, s = c :: rest → c.isDigit = false

theorem delimited_nil : Delimited [] := fun _ _ h => nomatch h

theorem delimited_cons {c : Char} {s : List Char} (h : c.isDigit = false) : Delimited (c :: s) := by
  intro d rest heq
  cases heq
  exact h

/-- The digits in front of a delimited rest. -/
theorem takeWhile_digits {ds s : List Char} (digits : ∀ c ∈ ds, c.isDigit = true)
    (hs : Delimited s) : (ds ++ s).takeWhile Char.isDigit = ds := by
  rw [List.takeWhile_append_of_pos digits]
  cases s with
  | nil => simp only [List.takeWhile_nil, List.append_nil]
  | cons c rest =>
    rw [List.takeWhile_cons, hs c rest rfl]
    simp only [Bool.false_eq_true, if_false, List.append_nil]

theorem toDigits_unambiguous {m n : Nat} {s t : List Char} (hs : Delimited s) (ht : Delimited t)
    (h : Nat.toDigits 10 m ++ s = Nat.toDigits 10 n ++ t) : m = n ∧ s = t := by
  have digits : ∀ k, ∀ c ∈ Nat.toDigits 10 k, c.isDigit = true := fun k c hc =>
    Nat.isDigit_of_mem_toDigits (by omega) (by omega) hc
  have hdigits : Nat.toDigits 10 m = Nat.toDigits 10 n := by
    rw [← takeWhile_digits (digits m) hs, h, takeWhile_digits (digits n) ht]
  refine ⟨?_, by rw [hdigits] at h; exact List.append_cancel_left h⟩
  rw [← Nat.ofDigitChars_ten_toDigits (n := m), hdigits, Nat.ofDigitChars_ten_toDigits]

/-- A number begins with a minus sign or a digit. -/
theorem intText_head (i : Int) :
    ∃ c rest, intText i = c :: rest ∧ (c = '-' ∨ c.isDigit = true) := by
  cases i with
  | ofNat n =>
    cases hd : Nat.toDigits 10 n with
    | nil => exact absurd hd Nat.toDigits_ne_nil
    | cons c rest =>
      exact ⟨c, rest, hd, .inr (Nat.isDigit_of_mem_toDigits (by omega) (by omega)
        (hd ▸ List.mem_cons_self))⟩
  | negSucc n => exact ⟨'-', _, rfl, .inl rfl⟩

theorem toDigits_ne_minus {n : Nat} {s t : List Char} : Nat.toDigits 10 n ++ s ≠ '-' :: t := by
  intro h
  cases hd : Nat.toDigits 10 n with
  | nil => exact absurd hd Nat.toDigits_ne_nil
  | cons c rest =>
    rw [hd] at h
    have hc : c.isDigit = true :=
      Nat.isDigit_of_mem_toDigits (b := 10) (n := n) (by omega) (by omega) (hd ▸ List.mem_cons_self)
    rw [(List.cons.inj h).1] at hc
    exact absurd hc (by decide)

/-- **Numbers are unambiguous** in front of a delimited rest. -/
theorem intText_unambiguous {i j : Int} {s t : List Char} (hs : Delimited s) (ht : Delimited t)
    (h : intText i ++ s = intText j ++ t) : i = j ∧ s = t := by
  cases i with
  | ofNat m =>
    cases j with
    | ofNat n =>
      obtain ⟨heq, rest⟩ := toDigits_unambiguous hs ht h
      exact ⟨by rw [heq], rest⟩
    | negSucc n => exact absurd h toDigits_ne_minus
  | negSucc m =>
    cases j with
    | ofNat n => exact absurd h.symm toDigits_ne_minus
    | negSucc n =>
      simp only [intText, List.cons_append, List.cons.injEq, true_and] at h
      obtain ⟨heq, rest⟩ := toDigits_unambiguous hs ht h
      exact ⟨by rw [Nat.succ.inj heq], rest⟩

/-! ## Values -/

/-- The kind of value a first character announces. -/
def headKind (c : Char) : Nat :=
  if c = 'n' then 0 else if c = 't' then 1 else if c = 'f' then 2
  else if c = '"' then 3 else if c = '{' then 4 else 5

/-- The kind of a value. -/
def kind : Value → Nat
  | .null => 0
  | .bool true => 1
  | .bool false => 2
  | .str _ => 3
  | .obj _ => 4
  | .int _ => 5

theorem dumps_head (v : Value) : ∃ c rest, dumps v = c :: rest ∧ headKind c = kind v := by
  match v with
  | .null => exact ⟨_, _, rfl, rfl⟩
  | .bool true => exact ⟨_, _, rfl, rfl⟩
  | .bool false => exact ⟨_, _, rfl, rfl⟩
  | .str _ => exact ⟨_, _, rfl, rfl⟩
  | .obj [] => exact ⟨_, _, rfl, rfl⟩
  | .obj ((_, _) :: _) => exact ⟨_, _, rfl, rfl⟩
  | .int i =>
    obtain ⟨c, rest, htext, hc⟩ := intText_head i
    refine ⟨c, rest, htext, ?_⟩
    rcases hc with rfl | hc
    · rfl
    · have hne : ∀ d : Char, d.isDigit = false → c ≠ d := fun d hd h => by rw [h, hd] at hc; cases hc
      unfold headKind
      rw [if_neg (hne _ (by decide)), if_neg (hne _ (by decide)), if_neg (hne _ (by decide)),
        if_neg (hne _ (by decide)), if_neg (hne _ (by decide))]
      rfl

theorem kind_eq_of_dumps {a b : Value} {s t : List Char} (h : dumps a ++ s = dumps b ++ t) :
    kind a = kind b := by
  obtain ⟨c, cs, ha, hc⟩ := dumps_head a
  obtain ⟨d, ds, hb, hd⟩ := dumps_head b
  rw [ha, hb] at h
  rw [← hc, ← hd, (List.cons.inj h).1]

theorem dumpsTail_delimited (fields : List (String × Value)) (s : List Char) :
    Delimited (dumpsTail fields ++ s) := by
  match fields with
  | [] => exact delimited_cons (by decide)
  | (_, _) :: _ => exact delimited_cons (by decide)

mutual

/-- **The text is unambiguous**: texts that agree up to delimited rests are of the same value. -/
theorem dumps_unambiguous : ∀ (a b : Value) {s t : List Char}, Delimited s → Delimited t →
    dumps a ++ s = dumps b ++ t → a = b ∧ s = t
  | .null, b, s, t, _, _, h => by
    have hk := kind_eq_of_dumps h
    match b, hk with
    | .null, _ => exact ⟨rfl, List.append_cancel_left h⟩
  | .bool true, b, s, t, _, _, h => by
    have hk := kind_eq_of_dumps h
    match b, hk with
    | .bool true, _ => exact ⟨rfl, List.append_cancel_left h⟩
  | .bool false, b, s, t, _, _, h => by
    have hk := kind_eq_of_dumps h
    match b, hk with
    | .bool false, _ => exact ⟨rfl, List.append_cancel_left h⟩
  | .int i, b, s, t, hs, ht, h => by
    have hk := kind_eq_of_dumps h
    match b, hk with
    | .int j, _ =>
      obtain ⟨rfl, rest⟩ := intText_unambiguous hs ht h
      exact ⟨rfl, rest⟩
  | .str x, b, s, t, _, _, h => by
    have hk := kind_eq_of_dumps h
    match b, hk with
    | .str y, _ =>
      obtain ⟨rfl, rest⟩ := quote_unambiguous h
      exact ⟨rfl, rest⟩
  | .obj [], b, s, t, _, _, h => by
    have hk := kind_eq_of_dumps h
    match b, hk with
    | .obj [], _ => exact ⟨rfl, List.append_cancel_left h⟩
    | .obj ((key, value) :: rest), _ =>
      simp only [dumps, quote, List.cons_append, List.nil_append, List.cons.injEq, true_and] at h
      exact absurd h.1 (by decide)
  | .obj ((key, value) :: rest), b, s, t, _, _, h => by
    have hk := kind_eq_of_dumps h
    match b, hk with
    | .obj [], _ =>
      simp only [dumps, quote, List.cons_append, List.nil_append, List.cons.injEq, true_and] at h
      exact absurd h.1 (by decide)
    | .obj ((key', value') :: rest'), _ =>
      simp only [dumps, List.cons_append, List.append_assoc, List.cons.injEq, true_and] at h
      obtain ⟨rfl, hvalue⟩ := quote_unambiguous h
      obtain ⟨rfl, htail⟩ := dumps_unambiguous value value' (dumpsTail_delimited rest s)
        (dumpsTail_delimited rest' t) (List.cons.inj hvalue).2
      obtain ⟨rfl, hrest⟩ := dumpsTail_unambiguous rest rest' htail
      exact ⟨rfl, hrest⟩

theorem dumpsTail_unambiguous : ∀ (fields fields' : List (String × Value)) {s t : List Char},
    dumpsTail fields ++ s = dumpsTail fields' ++ t → fields = fields' ∧ s = t
  | [], [], s, t, h => ⟨rfl, List.append_cancel_left h⟩
  | [], (key', value') :: rest', s, t, h => by
    simp only [dumpsTail, List.cons_append, List.nil_append, List.cons.injEq] at h
    exact absurd h.1 (by decide)
  | (key, value) :: rest, [], s, t, h => by
    simp only [dumpsTail, List.cons_append, List.nil_append, List.cons.injEq] at h
    exact absurd h.1 (by decide)
  | (key, value) :: rest, (key', value') :: rest', s, t, h => by
    simp only [dumpsTail, List.cons_append, List.append_assoc, List.cons.injEq, true_and] at h
    obtain ⟨rfl, hvalue⟩ := quote_unambiguous h
    obtain ⟨rfl, htail⟩ := dumps_unambiguous value value' (dumpsTail_delimited rest s)
      (dumpsTail_delimited rest' t) (List.cons.inj hvalue).2
    obtain ⟨rfl, hrest⟩ := dumpsTail_unambiguous rest rest' htail
    exact ⟨rfl, hrest⟩

end

/-- The text determines the value. -/
theorem dumps_injective {a b : Value} (h : dumps a = dumps b) : a = b :=
  (dumps_unambiguous a b delimited_nil delimited_nil (by rw [h])).1

theorem text_injective : Function.Injective text := fun _ _ h =>
  dumps_injective (by simpa only [text, String.ofList_inj] using h)

example : text (.obj [("amount", .int (-5)), ("note", .str "é\"")]) =
    "\x7b\"amount\":-5,\"note\":\"\\u00e9\\\"\"\x7d" := by decide

end CanonicalJson
