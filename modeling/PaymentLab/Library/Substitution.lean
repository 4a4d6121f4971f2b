import Mathlib.Data.List.Basic
import Mathlib.Data.List.Infix
import Mathlib.Tactic.Common

/-!
# Substitution in a text

One pass over a text that replaces what a matcher finds, from the left and without overlaps. A pass
cuts the text into parts (`exists_cuts`): its result is these parts with the replacement between
them. With a literal word the text itself is the same parts with that word between them
(`exists_parts`), so a pass moves the occurrences of other words to and fro as long as they touch
neither the word nor its replacement (`occurs_replace`). A word that ends as the replacement begins
can come into being at a seam (`infix_replace_border`): one pass does not remove it.
-/

namespace Substitution

variable {α : Type*}

/-! ## The pass -/

section Pass

variable (matchLength : List α → Nat) (replacement : List α)

/-- The pass, with some characters of the last match left to skip. A match of length 0 is none. -/
def subFrom : Nat → List α → List α
  | _, [] => []
  | skip + 1, _ :: rest => subFrom skip rest
  | 0, c :: rest =>
    match matchLength (c :: rest) with
    | 0 => c :: subFrom 0 rest
    | n + 1 => replacement ++ subFrom n rest

/-- Every match replaced. -/
def sub (text : List α) : List α := subFrom matchLength replacement 0 text

end Pass

variable {matchLength : List α → Nat}

theorem subFrom_eq (replacement : List α) :
    ∀ (skip : Nat) (text : List α),
      subFrom matchLength replacement skip text = sub matchLength replacement (text.drop skip)
  | 0, _ => rfl
  | _ + 1, [] => rfl
  | skip + 1, _ :: rest => subFrom_eq replacement skip rest

/-- No match begins within the first of two texts that follow each other. -/
def Quiet (matchLength : List α → Nat) (x y : List α) : Prop :=
  ∀ u v, x = u ++ v → v ≠ [] → matchLength (v ++ y) = 0

theorem quiet_nil (y : List α) : Quiet matchLength [] y := fun _ _ h hv =>
  absurd (List.append_eq_nil_iff.mp h.symm).2 hv

theorem Quiet.cons {c : α} {x y : List α} (h : Quiet matchLength x y)
    (front : matchLength (c :: x ++ y) = 0) : Quiet matchLength (c :: x) y := by
  intro u v hx hv
  cases u with
  | nil =>
    rw [← show c :: x = v from hx]
    exact front
  | cons d u =>
    injection hx with _ hx
    exact h u v hx hv

/-- The parts of a text between its matches. -/
inductive Cuts (matchLength : List α → Nat) : List α → List (List α) → Prop where
  | last {x : List α} (quiet : Quiet matchLength x []) : Cuts matchLength x [x]
  | cut {x y z : List α} {parts : List (List α)} (quiet : Quiet matchLength x (y ++ z))
      (length : matchLength (y ++ z) = y.length) (found : y ≠ [])
      (rest : Cuts matchLength z parts) : Cuts matchLength (x ++ (y ++ z)) (x :: parts)

theorem Cuts.ne_nil {text : List α} {parts : List (List α)} (h : Cuts matchLength text parts) :
    parts ≠ [] := by
  cases h <;> exact List.cons_ne_nil _ _

theorem Cuts.cons {c : α} {text : List α} {parts : List (List α)}
    (h : Cuts matchLength text parts) (front : matchLength (c :: text) = 0) :
    ∃ x rest, parts = x :: rest ∧ Cuts matchLength (c :: text) ((c :: x) :: rest) := by
  cases h with
  | last quiet =>
    exact ⟨text, [], rfl, .last (quiet.cons (by simpa using front))⟩
  | cut quiet length found rest =>
    exact ⟨_, _, rfl, .cut (quiet.cons front) length found rest⟩

/-- **A pass puts the replacement between the parts** of the text. -/
theorem exists_cuts (bounded : ∀ text, matchLength text ≤ text.length) (text : List α) :
    ∃ parts, Cuts matchLength text parts ∧
      ∀ replacement, sub matchLength replacement text = replacement.intercalate parts := by
  induction hn : text.length using Nat.strong_induction_on generalizing text with
  | h n ih =>
    cases text with
    | nil => exact ⟨[[]], .last (quiet_nil []), fun _ => rfl⟩
    | cons c rest =>
      subst hn
      cases hfront : matchLength (c :: rest) with
      | zero =>
        obtain ⟨parts, hcuts, hsub⟩ := ih rest.length (by simp) rest rfl
        obtain ⟨x, others, rfl, hcons⟩ := hcuts.cons hfront
        refine ⟨(c :: x) :: others, hcons, fun replacement => ?_⟩
        rw [List.intercalate_cons_cons_left, ← hsub]
        simp [sub, subFrom, hfront]
      | succ k =>
        obtain ⟨parts, hcuts, hsub⟩ :=
          ih (rest.drop k).length (by rw [List.length_drop, List.length_cons]; omega) (rest.drop k) rfl
        have hlength : k + 1 ≤ rest.length + 1 := by simpa [hfront] using bounded (c :: rest)
        have hsplit : c :: rest = [] ++ ((c :: rest.take k) ++ rest.drop k) := by simp
        refine ⟨[] :: parts, ?_, fun replacement => ?_⟩
        · rw [hsplit]
          refine .cut (quiet_nil _) ?_ (List.cons_ne_nil _ _) hcuts
          rw [List.cons_append, List.take_append_drop, hfront, List.length_cons, List.length_take]
          omega
        · rw [List.intercalate_cons_of_ne_nil hcuts.ne_nil, ← hsub, ← subFrom_eq]
          simp [sub, subFrom, hfront]

/-! ## Occurrences -/

/-- A word occurs in a text, not right after one of `befores` and not right before one of
`afters`. -/
def Occurs (befores : List (List α)) (word : List α) (afters : List (List α)) (text : List α) :
    Prop :=
  ∃ pre post, text = pre ++ (word ++ post) ∧ (∀ before ∈ befores, ¬before <:+ pre) ∧
    ∀ after ∈ afters, ¬after <+: post

/-- A part lies in the text. -/
theorem infix_intercalate {r part : List α} {parts : List (List α)} (h : part ∈ parts) :
    part <:+: r.intercalate parts := by
  induction parts with
  | nil => cases h
  | cons x rest ih =>
    rcases List.mem_cons.mp h with rfl | h
    · cases rest with
      | nil => simp
      | cons y rest =>
        rw [List.intercalate_cons_cons, List.append_assoc]
        exact (List.prefix_append _ _).isInfix
    · rw [List.intercalate_cons_of_ne_nil (List.ne_nil_of_mem h)]
      exact (ih h).trans (List.suffix_append _ _).isInfix

theorem occurs_nil {word text : List α} : Occurs [] word [] text ↔ word <:+: text := by
  constructor
  · rintro ⟨pre, post, rfl, _, _⟩
    exact ⟨pre, post, List.append_assoc _ _ _⟩
  · rintro ⟨pre, post, rfl⟩
    exact ⟨pre, post, List.append_assoc _ _ _, by simp, by simp⟩

/-- Where a word lies in a text with a distinguished piece `r`: before it, after it, across its
front, or beginning within it. -/
theorem overlap {x r y pre word post : List α} (hword : word ≠ [])
    (h : x ++ (r ++ y) = pre ++ (word ++ post)) :
    (∃ z, x = pre ++ (word ++ z) ∧ post = z ++ (r ++ y)) ∨
      (∃ z, pre = x ++ (r ++ z) ∧ y = z ++ (word ++ post)) ∨
      (∃ u v, word = u ++ v ∧ v ≠ [] ∧ x = pre ++ u ∧ v ++ post = r ++ y) ∨
      ∃ u v, r = u ++ v ∧ u ≠ [] ∧ v ≠ [] ∧ pre = x ++ u ∧ word ++ post = v ++ y := by
  rcases List.append_eq_append_iff.mp h with ⟨u, rfl, hrest⟩ | ⟨u, rfl, hrest⟩
  · rcases List.append_eq_append_iff.mp hrest with ⟨z, rfl, rfl⟩ | ⟨v, rfl, hv⟩
    · exact .inr (.inl ⟨z, rfl, rfl⟩)
    · rcases eq_or_ne v [] with rfl | hne
      · exact .inr (.inl ⟨[], by simp, by simpa using hv.symm⟩)
      · rcases eq_or_ne u [] with rfl | hne'
        · exact .inr (.inr (.inl ⟨[], word, rfl, hword, by simp, by simpa using hv⟩))
        · exact .inr (.inr (.inr ⟨u, v, rfl, hne', hne, rfl, hv⟩))
  · rcases List.append_eq_append_iff.mp hrest with ⟨z, rfl, rfl⟩ | ⟨v, rfl, hv⟩
    · exact .inl ⟨z, by simp, rfl⟩
    · rcases eq_or_ne v [] with rfl | hne
      · exact .inl ⟨[], by simp, by simpa using hv.symm⟩
      · exact .inr (.inr (.inl ⟨u, v, rfl, hne, rfl, hv.symm⟩))

/-- **A word and a piece are apart**: where they overlap, the contexts of the word exclude it, and
the contexts themselves do not overlap the piece. -/
structure Apart (befores : List (List α)) (word : List α) (afters : List (List α)) (r : List α) :
    Prop where
  wordNonempty : word ≠ []
  pieceNonempty : r ≠ []
  across : ∀ i < word.length, ¬r <+: word.drop i ∧
    (word.drop i <+: r → ∃ after ∈ afters, after <+: r.drop (word.length - i))
  within : ∀ i < r.length, 0 < i → ¬word <+: r.drop i ∧
    (r.drop i <+: word → ∃ before ∈ befores, before <:+ r.take i)
  last : ∀ before ∈ befores, ∀ i < before.length,
    ¬before.take (i + 1) <:+ r ∧ ¬r <:+ before.take (i + 1)
  first : ∀ after ∈ afters, ∀ i < after.length, ¬after.drop i <+: r ∧ ¬r <+: after.drop i

instance [DecidableEq α] (befores : List (List α)) (word : List α) (afters : List (List α))
    (r : List α) : Decidable (Apart befores word afters r) :=
  decidable_of_iff
    (word ≠ [] ∧ r ≠ [] ∧
      (∀ i < word.length, ¬r <+: word.drop i ∧
        (word.drop i <+: r → ∃ after ∈ afters, after <+: r.drop (word.length - i))) ∧
      (∀ i < r.length, 0 < i → ¬word <+: r.drop i ∧
        (r.drop i <+: word → ∃ before ∈ befores, before <:+ r.take i)) ∧
      (∀ before ∈ befores, ∀ i < before.length,
        ¬before.take (i + 1) <:+ r ∧ ¬r <:+ before.take (i + 1)) ∧
      ∀ after ∈ afters, ∀ i < after.length, ¬after.drop i <+: r ∧ ¬r <+: after.drop i)
    ⟨fun h => ⟨h.1, h.2.1, h.2.2.1, h.2.2.2.1, h.2.2.2.2.1, h.2.2.2.2.2⟩,
      fun h => ⟨h.wordNonempty, h.pieceNonempty, h.across, h.within, h.last, h.first⟩⟩

section Contexts

variable {befores afters : List (List α)} {word r x y z : List α}

/-- A text that does not overlap the piece from its front ends before it. -/
theorem prefix_of_clear {after : List α}
    (clear : ∀ i < after.length, ¬after.drop i <+: r ∧ ¬r <+: after.drop i)
    (h : after <+: z ++ (r ++ y)) : after <+: z := by
  obtain ⟨post, hpost⟩ := h
  rcases List.append_eq_append_iff.mp hpost with ⟨rest, rfl, _⟩ | ⟨rest, rfl, hrest⟩
  · exact List.prefix_append _ _
  · rcases eq_or_ne rest [] with rfl | hne
    · simp
    · have hi : z.length < (z ++ rest).length := by
        simpa using List.length_pos_iff.mpr hne
      have hclear := clear z.length hi
      rw [List.drop_left] at hclear
      rcases List.prefix_or_prefix_of_prefix ⟨post, hrest.symm⟩ (List.prefix_append r y) with h | h
      · exact absurd h hclear.1
      · exact absurd h hclear.2

/-- A text that does not overlap the piece from its back begins after it. -/
theorem suffix_of_clear {before : List α}
    (clear : ∀ i < before.length, ¬before.take (i + 1) <:+ r ∧ ¬r <:+ before.take (i + 1))
    (h : before <:+ x ++ (r ++ z)) : before <:+ z := by
  obtain ⟨pre, hpre⟩ := h
  rw [← List.append_assoc] at hpre
  rcases List.append_eq_append_iff.mp hpre with ⟨rest, hrest, rfl⟩ | ⟨rest, _, rfl⟩
  · rcases eq_or_ne rest [] with rfl | hne
    · simp
    · have hpos := List.length_pos_iff.mpr hne
      have hclear := clear (rest.length - 1) (by rw [List.length_append]; omega)
      rw [Nat.sub_add_cancel hpos, List.take_left] at hclear
      rcases List.suffix_or_suffix_of_suffix ⟨pre, hrest.symm⟩ (List.suffix_append x r) with h | h
      · exact absurd h hclear.1
      · exact absurd h hclear.2
  · exact List.suffix_append _ _

/-- **Occurrences are on either side of a piece** they are apart from. -/
theorem occurs_append (apart : Apart befores word afters r) :
    Occurs befores word afters (x ++ (r ++ y)) ↔
      Occurs befores word afters x ∨ Occurs befores word afters y := by
  constructor
  · rintro ⟨pre, post, h, hbefore, hafter⟩
    rcases overlap apart.wordNonempty h with ⟨z, rfl, rfl⟩ | ⟨z, rfl, rfl⟩ |
      ⟨u, v, rfl, hv, rfl, hrest⟩ | ⟨u, v, rfl, hu, hv, rfl, hrest⟩
    · exact .inl ⟨pre, z, rfl, hbefore, fun after hmem hz =>
        hafter after hmem (hz.trans (List.prefix_append _ _))⟩
    · refine .inr ⟨z, post, rfl, fun before hmem hz => hbefore before hmem ?_, hafter⟩
      exact hz.trans ((List.suffix_append _ _).trans (List.suffix_append _ _))
    · -- the word begins before the piece and runs into it
      have hi : u.length < (u ++ v).length := by
        simpa using List.length_pos_iff.mpr hv
      obtain ⟨houtside, hafters⟩ := apart.across u.length hi
      rw [List.drop_left] at houtside hafters
      rcases List.append_eq_append_iff.mp hrest with ⟨rest, rfl, rfl⟩ | ⟨rest, rfl, _⟩
      · obtain ⟨after, hmem, hstarts⟩ := hafters (List.prefix_append _ _)
        rw [List.length_append, Nat.add_sub_cancel_left, List.drop_left] at hstarts
        exact absurd (hstarts.trans (List.prefix_append _ _)) (hafter after hmem)
      · exact absurd (List.prefix_append _ _) houtside
    · -- the word begins within the piece
      have hi : u.length < (u ++ v).length := by
        simpa using List.length_pos_iff.mpr hv
      obtain ⟨hinside, hbefores⟩ := apart.within u.length hi (List.length_pos_iff.mpr hu)
      rw [List.drop_left] at hinside hbefores
      rcases List.append_eq_append_iff.mp hrest with ⟨rest, rfl, _⟩ | ⟨rest, rfl, _⟩
      · exact absurd (List.prefix_append _ _) hinside
      · obtain ⟨before, hmem, hsuffix⟩ := hbefores (List.prefix_append _ _)
        rw [List.take_left] at hsuffix
        exact absurd (hsuffix.trans (List.suffix_append _ _)) (hbefore before hmem)
  · rintro (⟨pre, post, rfl, hbefore, hafter⟩ | ⟨pre, post, rfl, hbefore, hafter⟩)
    · refine ⟨pre, post ++ (r ++ y), by simp, hbefore, fun after hmem hstarts => ?_⟩
      exact hafter after hmem (prefix_of_clear (apart.first after hmem) hstarts)
    · refine ⟨x ++ (r ++ pre), post, by simp, fun before hmem hsuffix => ?_, hafter⟩
      exact hbefore before hmem (suffix_of_clear (apart.last before hmem) hsuffix)

/-- The occurrences in a text are those in its parts, when they are apart from what lies between. -/
theorem occurs_intercalate (apart : Apart befores word afters r) (parts : List (List α)) :
    Occurs befores word afters (r.intercalate parts) ↔
      ∃ part ∈ parts, Occurs befores word afters part := by
  have hnil : ¬Occurs befores word afters [] := by
    rintro ⟨pre, post, h, _⟩
    simp [apart.wordNonempty] at h
  induction parts with
  | nil => simpa using hnil
  | cons x rest ih =>
    cases rest with
    | nil => simp
    | cons y rest =>
      rw [List.intercalate_cons_cons, List.append_assoc, occurs_append apart,
        List.exists_mem_cons_iff]
      exact or_congr_right ih

end Contexts

/-- **A word that ends as the piece begins**: `u ++ b` overlaps the piece with its end `b` only. -/
structure Borders (u b r : List α) : Prop where
  border : b ≠ [] ∧ b <+: r
  across : ∀ i < (u ++ b).length, i ≠ u.length → ¬r <+: (u ++ b).drop i ∧ ¬(u ++ b).drop i <+: r
  within : ∀ i < r.length, 0 < i → ¬(u ++ b) <+: r.drop i ∧ ¬r.drop i <+: (u ++ b)

instance [DecidableEq α] (u b r : List α) : Decidable (Borders u b r) :=
  decidable_of_iff
    ((b ≠ [] ∧ b <+: r) ∧
      (∀ i < (u ++ b).length, i ≠ u.length →
        ¬r <+: (u ++ b).drop i ∧ ¬(u ++ b).drop i <+: r) ∧
      ∀ i < r.length, 0 < i → ¬(u ++ b) <+: r.drop i ∧ ¬r.drop i <+: (u ++ b))
    ⟨fun h => ⟨h.1, h.2.1, h.2.2⟩, fun h => ⟨h.border, h.across, h.within⟩⟩

section Seams

variable {u b r x y : List α}

theorem infix_append_border (borders : Borders u b r) :
    (u ++ b) <:+: x ++ (r ++ y) ↔ (u ++ b) <:+: x ∨ u <:+ x ∨ (u ++ b) <:+: y := by
  have hne : u ++ b ≠ [] := by simp [borders.border.1]
  constructor
  · rintro ⟨pre, post, h⟩
    rw [List.append_assoc] at h
    rcases overlap hne h.symm with ⟨z, rfl, rfl⟩ | ⟨z, rfl, rfl⟩ | ⟨u', v, hword, hv, rfl, hrest⟩ |
      ⟨u', v, rfl, hu, hv, rfl, hrest⟩
    · exact .inl ⟨pre, z, List.append_assoc _ _ _⟩
    · exact .inr (.inr ⟨z, post, List.append_assoc _ _ _⟩)
    · -- the word begins before the piece and runs into it, so at the border
      have hi : u'.length < (u ++ b).length := by
        rw [hword]
        simpa using List.length_pos_iff.mpr hv
      by_cases hlength : u'.length = u.length
      · rw [← (List.append_inj hword hlength.symm).1]
        exact .inr (.inl (List.suffix_append _ _))
      · obtain ⟨houtside, hinside⟩ := borders.across u'.length hi hlength
        rw [hword, List.drop_left] at houtside hinside
        rcases List.append_eq_append_iff.mp hrest with ⟨rest, rfl, _⟩ | ⟨rest, rfl, _⟩
        · exact absurd (List.prefix_append _ _) hinside
        · exact absurd (List.prefix_append _ _) houtside
    · have hi : u'.length < (u' ++ v).length := by
        simpa using List.length_pos_iff.mpr hv
      obtain ⟨hinside, houtside⟩ := borders.within u'.length hi (List.length_pos_iff.mpr hu)
      rw [List.drop_left] at hinside houtside
      rcases List.append_eq_append_iff.mp hrest with ⟨rest, rfl, _⟩ | ⟨rest, hword, _⟩
      · exact absurd (List.prefix_append _ _) hinside
      · exact absurd ⟨rest, hword.symm⟩ houtside
  · rintro (h | ⟨pre, rfl⟩ | h)
    · exact h.trans (List.prefix_append _ _).isInfix
    · obtain ⟨rest, rfl⟩ := borders.border.2
      exact ⟨pre, rest ++ y, by simp⟩
    · exact h.trans ((List.suffix_append _ _).trans (List.suffix_append _ _)).isInfix

/-- A word occurs in a part, or a part before a seam ends as the word begins. -/
theorem infix_intercalate_border (borders : Borders u b r) (parts : List (List α)) :
    (u ++ b) <:+: r.intercalate parts ↔
      (∃ part ∈ parts, (u ++ b) <:+: part) ∨ ∃ part ∈ parts.dropLast, u <:+ part := by
  induction parts with
  | nil => simp [borders.border.1]
  | cons x rest ih =>
    cases rest with
    | nil => simp
    | cons y rest =>
      rw [List.intercalate_cons_cons, List.append_assoc, infix_append_border borders, ih,
        List.dropLast_cons_cons, List.exists_mem_cons_iff _ x, List.exists_mem_cons_iff _ x]
      simp only [or_assoc, or_left_comm]

end Seams

/-! ## Replacing a word -/

section Replace

variable [DecidableEq α]

/-- The matcher of a word. -/
def literal (word : List α) (text : List α) : Nat :=
  if word <+: text then word.length else 0

/-- Every occurrence of a nonempty word replaced. -/
def replace (old new : List α) (text : List α) : List α := sub (literal old) new text

theorem literal_le (word text : List α) : literal word text ≤ text.length := by
  unfold literal
  split
  · next h => exact h.length_le
  · exact Nat.zero_le _

theorem literal_append (word rest : List α) : literal word (word ++ rest) = word.length :=
  if_pos (List.prefix_append _ _)

/-- A part of a quiet text does not contain the word. -/
theorem Quiet.free {word x y : List α} (hword : word ≠ []) (h : Quiet (literal word) x y) :
    ¬word <:+: x := by
  rintro ⟨pre, post, rfl⟩
  have hzero := h pre (word ++ post) (List.append_assoc _ _ _) (by simp [hword])
  rw [List.append_assoc, literal_append, List.length_eq_zero_iff] at hzero
  exact hword hzero

/-- What a pass finds is the word. -/
theorem eq_of_literal {word y z : List α} (hfound : y ≠ [])
    (hlength : literal word (y ++ z) = y.length) : y = word := by
  unfold literal at hlength
  split at hlength
  · next h =>
    obtain ⟨rest, hrest⟩ := h
    exact (List.append_inj hrest hlength).1.symm
  · exact absurd (List.length_eq_zero_iff.mp hlength.symm) hfound

/-- The parts of a text between the occurrences of a word. -/
theorem Cuts.literal {word text : List α} {parts : List (List α)} (hword : word ≠ [])
    (h : Cuts (literal word) text parts) :
    text = word.intercalate parts ∧ ∀ part ∈ parts, ¬word <:+: part := by
  induction h with
  | last quiet => exact ⟨by simp, by simpa using quiet.free hword⟩
  | cut quiet length found rest ih =>
    rw [List.intercalate_cons_of_ne_nil rest.ne_nil, ← ih.1, eq_of_literal found length]
    exact ⟨by simp, List.forall_mem_cons.mpr ⟨quiet.free hword, ih.2⟩⟩

/-- **A replacement changes what lies between the parts** of a text, and the parts are free of the
replaced word. -/
theorem exists_parts {old : List α} (hold : old ≠ []) (text : List α) :
    ∃ parts, (∀ part ∈ parts, ¬old <:+: part) ∧ text = old.intercalate parts ∧
      ∀ new, replace old new text = new.intercalate parts := by
  obtain ⟨parts, hcuts, hsub⟩ := exists_cuts (literal_le old) text
  obtain ⟨htext, hfree⟩ := hcuts.literal hold
  exact ⟨parts, hfree, htext, hsub⟩

variable {old new text : List α}

/-- **Occurrences across a replacement**: those of a word that is apart from the replacement are the
ones the text had, where they did not touch the replaced word. -/
theorem occurs_replace {befores befores' afters afters' : List (List α)} {word : List α}
    (hnew : Apart befores word afters new)
    (hold : Apart (befores' ++ befores) word (afters' ++ afters) old)
    (touched : (∀ before ∈ befores', old <:+: before ++ word) ∧
      ∀ after ∈ afters', old <:+: word ++ after) :
    Occurs befores word afters (replace old new text) ↔
      Occurs (befores' ++ befores) word (afters' ++ afters) text := by
  obtain ⟨parts, hfree, htext, hreplace⟩ := exists_parts hold.pieceNonempty text
  rw [hreplace, htext, occurs_intercalate hnew, occurs_intercalate hold]
  refine exists_congr fun part => and_congr_right fun hpart => ⟨?_, ?_⟩
  · -- in a part the word does not touch the replaced word
    rintro ⟨pre, post, rfl, hbefore, hafter⟩
    refine ⟨pre, post, rfl, ?_, ?_⟩
    · refine List.forall_mem_append.mpr ⟨?_, hbefore⟩
      rintro before hmem ⟨front, rfl⟩
      refine hfree _ hpart ((touched.1 before hmem).trans ⟨front, post, ?_⟩)
      simp
    · refine List.forall_mem_append.mpr ⟨?_, hafter⟩
      rintro after hmem ⟨back, rfl⟩
      refine hfree _ hpart ((touched.2 after hmem).trans ⟨pre, back, ?_⟩)
      simp
  · rintro ⟨pre, post, rfl, hbefore, hafter⟩
    exact ⟨pre, post, rfl, (List.forall_mem_append.mp hbefore).2,
      (List.forall_mem_append.mp hafter).2⟩

/-- A word that is apart from the replacement does not come into being. -/
theorem infix_of_replace {word : List α} (hold : old ≠ []) (hnew : Apart [] word [] new)
    (h : word <:+: replace old new text) : word <:+: text := by
  obtain ⟨parts, _, htext, hreplace⟩ := exists_parts hold text
  rw [hreplace, ← occurs_nil, occurs_intercalate hnew] at h
  obtain ⟨part, hpart, hoccurs⟩ := h
  rw [htext]
  exact (occurs_nil.mp hoccurs).trans (infix_intercalate hpart)

/-- A pass removes a word that is apart from its replacement. -/
theorem not_infix_replace (hnew : Apart [] old [] new) : ¬old <:+: replace old new text := by
  obtain ⟨parts, hfree, _, hreplace⟩ := exists_parts hnew.wordNonempty text
  rw [hreplace, ← occurs_nil, occurs_intercalate hnew]
  rintro ⟨part, hpart, hoccurs⟩
  exact hfree part hpart (occurs_nil.mp hoccurs)

/-- Without the word a pass changes nothing. -/
theorem replace_of_not_infix (hold : old ≠ []) (h : ¬old <:+: text) :
    replace old new text = text := by
  obtain ⟨parts, hfree, htext, hreplace⟩ := exists_parts hold text
  rw [hreplace]
  cases parts with
  | nil => exact htext.symm
  | cons x rest =>
    cases rest with
    | nil => rw [htext, List.intercalate_singleton, List.intercalate_singleton]
    | cons y rest =>
      rw [List.intercalate_cons_cons] at htext
      exact absurd ⟨x, old.intercalate (y :: rest), htext.symm⟩ h

section Seam

variable {u b : List α}

omit [DecidableEq α] in
theorem no_part_contains {parts : List (List α)} (free : ∀ part ∈ parts, ¬old <:+: part)
    (u : List α) : ¬∃ part ∈ parts, (u ++ old) <:+: part := by
  rintro ⟨part, hpart, h⟩
  exact free part hpart ((List.suffix_append _ _).isInfix.trans h)

/-- **A word at a seam**: one that ends as the replacement begins comes into being where its front
stands before the replaced word. -/
theorem infix_replace_border (hnew : Borders u b new) (hold : Borders u old old)
    (apart : Apart [] (u ++ b) [] old) :
    (u ++ b) <:+: replace old new text ↔ (u ++ b) <:+: text ∨ (u ++ old) <:+: text := by
  obtain ⟨parts, hfree, htext, hreplace⟩ := exists_parts hold.border.1 text
  rw [hreplace, htext, infix_intercalate_border hnew, infix_intercalate_border hold, ← occurs_nil,
    occurs_intercalate apart]
  simp only [occurs_nil, no_part_contains hfree u, false_or]

/-- The replaced word itself comes into being in this way only. -/
theorem self_infix_replace_border (hself : u ++ b = old) (hnew : Borders u b new)
    (hold : Borders u old old) :
    old <:+: replace old new text ↔ (u ++ old) <:+: text := by
  obtain ⟨parts, hfree, htext, hreplace⟩ := exists_parts hold.border.1 text
  have hborder := infix_intercalate_border hnew parts
  rw [hself] at hborder
  rw [hreplace, htext, hborder, infix_intercalate_border hold]
  exact or_congr_left (iff_of_false (no_part_contains hfree []) (no_part_contains hfree u))

end Seam

end Replace

end Substitution
