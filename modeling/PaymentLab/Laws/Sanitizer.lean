import Mathlib.Data.List.TakeWhile
import PaymentLab.Library.Lists
import PaymentLab.Scripts.SanitizeTrace

/-!
# What a published trace still shows

Where the rewritten bytes are free of test controls (`trace_sanitized`). A decline token, an approval
token and a failure point never come through on their own account; two things do. The token of a
delayed payment has no replacement, so it stays unless another control swallows it. And a failure
point is put together anew at a seam: `test_control` begins as `after_commit` and `before_commit`
end, so that `after_commi` or `before_commi` in front of a replaced control completes another one.

The statement is about the bytes of a member, any bytes, in whatever format they are. It is an
equivalence, with the two leaks on the other side, and each is defined by the bytes before the
rewriting. A zip archive is rewritten member by member; what its directory says of the members is
not looked at.
-/

namespace PaymentLab

open Substitution

/-! ## The condition -/

/-- Bytes that end within the detail of a decline token, which takes in all that follows of its kind:
the pattern of a decline token has no end of its own. -/
def TakenIn (pre : Bytes) : Prop :=
  ∃ before tail, pre = before ++ (ascii "tok_declined_" ++ tail) ∧ ∀ b ∈ tail, isDetail b = true

/-- A word in some bytes that no decline token takes in, not right after one of `befores` and not
right before one of `afters`. The neighbours matter because the replacements are made one after the
other: a control that overlaps the word is replaced first and destroys it. -/
def Exposed (befores : List Bytes) (word : Bytes) (afters : List Bytes) (data : Bytes) : Prop :=
  ∃ pre post, data = pre ++ (word ++ post) ∧ ¬TakenIn pre ∧ (∀ before ∈ befores, ¬before <:+ pre) ∧
    ∀ after ∈ afters, ¬after <+: post

/-- The front of a failure point before a control whose replacement completes it. -/
def junctions : List Bytes :=
  [ascii "after_commi" ++ ascii "after_commit",
    ascii "after_commi" ++ ascii "before_commit",
    ascii "after_commi" ++ ascii "before_commi" ++ ascii "after_commit",
    ascii "before_commi" ++ ascii "before_commit",
    ascii "before_commi" ++ ascii "before_commi" ++ ascii "after_commit"]

/-- The bytes of a member that do not come out clean: the token of a delayed payment that no other
control reaches into, or a junction that no simulator token reaches into. A junction is a text
without a control in it, out of which the replacement of one makes another. -/
def Exposes (data : Bytes) : Prop :=
  Exposed [ascii "after_commi", ascii "before_commi"] (ascii "tok_awaiting_confirmation") [] data ∨
    ∃ junction ∈ junctions, Exposed [] junction [ascii "ok_declined", ascii "ok_approved"] data

/-- Bytes without a simulator token and without a failure point, as plain text. A control under an
encoding, escaped or compressed once more, is not looked for, here or in the script. -/
structure Sanitized (data : Bytes) : Prop where
  tokens : ∀ decision : PaymentMethodDecision, ¬ascii decision.value <:+: data
  failurePoints : ∀ point : FailurePoint, ¬ascii point.value <:+: data

/-! ## How the words overlap -/

/-- The bare decline token overlaps itself as a whole only, and is detail as its tail is. -/
theorem declined_word :
    (ascii "tok_declined").length = 12 ∧
      ascii "tok_declined_" = ascii "tok_declined" ++ [95] ∧
      (ascii "tok_declined").all isDetail = true ∧
      Borders [] (ascii "tok_declined") (ascii "tok_declined") ∧
      Apart [] (ascii "tok_declined") [] (ascii "synthetic_no") := by decide +kernel

/-- The simulator tokens do not overlap a replacement, and every decline token begins as the bare
one does. -/
theorem token_words :
    (∀ token ∈ [ascii "tok_declined", ascii "tok_approved"],
        ∀ r ∈ [ascii "synthetic_ok", ascii "test_control", ascii "test_control_"],
          Apart [] token [] r) ∧
      ∀ text ∈ ["tok_declined", "tok_declined_insufficient_funds", "tok_declined_limit_exceeded",
          "tok_declined_expired", "tok_declined_verification", "tok_declined_invalid",
          "tok_declined_unknown"], ascii "tok_declined" <:+: ascii text := by decide +kernel

/-- The token of a delayed payment overlaps a failure point with its first letter only. -/
theorem awaiting_word :
    (∀ r ∈ [ascii "synthetic_no", ascii "tok_declined", ascii "synthetic_ok", ascii "tok_approved"],
        Apart [ascii "after_commi", ascii "before_commi"] (ascii "tok_awaiting_confirmation") [] r) ∧
      Apart [ascii "before_commi"] (ascii "tok_awaiting_confirmation") [] (ascii "test_control") ∧
      Apart [ascii "after_commi", ascii "before_commi"] (ascii "tok_awaiting_confirmation") []
        (ascii "after_commit") ∧
      ascii "after_commit" <:+: ascii "after_commi" ++ ascii "tok_awaiting_confirmation" ∧
      Apart [] (ascii "tok_awaiting_confirmation") [] (ascii "test_control_") ∧
      Apart [ascii "before_commi"] (ascii "tok_awaiting_confirmation") [] (ascii "before_commit") ∧
      ascii "before_commit" <:+: ascii "before_commi" ++ ascii "tok_awaiting_confirmation" ∧
      (∀ byte ∈ (ascii "tok_awaiting_confirmation").head?, isDetail byte = true ∧ byte ≠ 95) ∧
      ∀ before ∈ [ascii "after_commi", ascii "before_commi"], before.all isDetail = true := by
  decide +kernel

/-- A junction overlaps a simulator token with its last letter only. -/
theorem junction_words : ∀ junction ∈ junctions,
    (∀ byte ∈ junction.head?, isDetail byte = true ∧ byte ≠ 95) ∧
      Apart [] junction [] (ascii "synthetic_ok") ∧
      Apart [] junction [ascii "ok_approved"] (ascii "tok_approved") ∧
      ascii "tok_approved" <:+: junction ++ ascii "ok_approved" ∧
      Apart [] junction [ascii "ok_approved"] (ascii "synthetic_no") ∧
      Apart [] junction [ascii "ok_declined", ascii "ok_approved"] (ascii "tok_declined") ∧
      ascii "tok_declined" <:+: junction ++ ascii "ok_declined" := by decide +kernel

/-- The failure points end as their replacements begin, with one letter. -/
theorem seam_words :
    ascii "after_commi" ++ ascii "t" = ascii "after_commit" ∧
      ascii "before_commi" ++ ascii "t" = ascii "before_commit" ∧
      (∀ front ∈ [ascii "after_commi", ascii "before_commi"],
        Borders front (ascii "t") (ascii "test_control_") ∧
          Borders front (ascii "before_commit") (ascii "before_commit") ∧
          Borders (front ++ ascii "before_commi") (ascii "t") (ascii "test_control") ∧
          Borders (front ++ ascii "before_commi") (ascii "after_commit") (ascii "after_commit") ∧
          Apart [] (front ++ ascii "before_commi" ++ ascii "t") [] (ascii "after_commit")) ∧
      Borders (ascii "after_commi") (ascii "t") (ascii "test_control") ∧
      Borders (ascii "after_commi") (ascii "after_commit") (ascii "after_commit") ∧
      Apart [] (ascii "after_commi" ++ ascii "t") [] (ascii "before_commit") := by decide +kernel

/-! ## The decline tokens -/

section Decline

variable {x y z : Bytes}

/-- A match is the bare token with no detail behind it, or the token with all of its detail. -/
theorem detailedDeclineToken_cases (found : y ≠ [])
    (length : detailedDeclineToken (y ++ z) = y.length) :
    (y = ascii "tok_declined" ∧ ∀ b rest, z = 95 :: b :: rest → isDetail b = false) ∨
      ∃ tail, y = ascii "tok_declined" ++ 95 :: tail ∧ (∀ b ∈ tail, isDetail b = true) ∧
        ∀ b rest, z = b :: rest → isDetail b = false := by
  have hkey := declined_word.1
  unfold detailedDeclineToken at length
  split at length
  · next h =>
    obtain ⟨rest, hrest⟩ := h
    have hdrop : (y ++ z).drop 12 = rest := by rw [← hrest, ← hkey, List.drop_left]
    rw [hdrop] at length
    cases rest with
    | nil =>
      obtain ⟨rfl, rfl⟩ := List.append_inj hrest (hkey.trans length)
      exact .inl ⟨rfl, by simp⟩
    | cons byte rest =>
      dsimp only at length
      split at length
      · next hdetail =>
        obtain ⟨rfl, _⟩ := hdetail
        have hsplit : (ascii "tok_declined" ++ 95 :: rest.takeWhile isDetail) ++
            rest.dropWhile isDetail = y ++ z := by
          rw [List.append_assoc, List.cons_append, List.takeWhile_append_dropWhile, hrest]
        obtain ⟨rfl, rfl⟩ := List.append_inj hsplit (by
          rw [← length, List.length_append, hkey, List.length_cons]
          omega)
        refine .inr ⟨_, rfl, fun b hb => List.mem_takeWhile_imp hb, fun b rest' hz => ?_⟩
        have := List.head?_dropWhile_not isDetail rest
        simpa [hz] using this
      · next hdetail =>
        obtain ⟨rfl, rfl⟩ := List.append_inj hrest (hkey.trans length)
        refine .inl ⟨rfl, fun b rest' hz => ?_⟩
        injection hz with hbyte hz
        rw [hz] at hdetail
        by_contra hb
        exact hdetail ⟨hbyte, by simp [hb]⟩
  · exact absurd (List.length_eq_zero_iff.mp length.symm) found

theorem detailedDeclineToken_le (data : Bytes) : detailedDeclineToken data ≤ data.length := by
  unfold detailedDeclineToken
  split
  · next h =>
    obtain ⟨rest, rfl⟩ := h
    have hkey := declined_word.1
    rw [← hkey, List.drop_left]
    cases rest with
    | nil => simp [hkey]
    | cons byte rest =>
      have := (List.takeWhile_prefix isDetail (l := rest)).length_le
      dsimp only
      split <;> simp only [List.length_append, hkey, List.length_cons] <;> omega
  · exact Nat.zero_le _

/-- A quiet text has no decline token. -/
theorem undeclined_of_quiet (h : Quiet detailedDeclineToken x y) : ¬ascii "tok_declined" <:+: x := by
  rintro ⟨pre, post, rfl⟩
  have hzero := h pre (ascii "tok_declined" ++ post) (List.append_assoc _ _ _)
    (List.append_ne_nil_of_left_ne_nil declined_word.2.2.2.1.border.1 _)
  have hstarts : ascii "tok_declined" <+: (ascii "tok_declined" ++ post) ++ y := by
    rw [List.append_assoc]
    exact List.prefix_append _ _
  unfold detailedDeclineToken at hzero
  rw [if_pos hstarts] at hzero
  split at hzero
  · cases hzero
  · split at hzero <;> omega

theorem declined_append (tail : Bytes) :
    ascii "tok_declined_" ++ tail = ascii "tok_declined" ++ 95 :: tail := by
  rw [declined_word.2.1, List.append_assoc, List.singleton_append]

/-- The parts between the decline tokens have none. -/
theorem undeclined_parts {data : Bytes} {parts : List Bytes}
    (cuts : Cuts detailedDeclineToken data parts) :
    ∀ part ∈ parts, ¬ascii "tok_declined" <:+: part := by
  induction cuts with
  | last quiet => simpa using undeclined_of_quiet quiet
  | cut quiet _ _ _ ih => exact List.forall_mem_cons.mpr ⟨undeclined_of_quiet quiet, ih⟩

/-- The first byte of some detail and a further byte of it. -/
theorem exists_detail_cons {pre : Bytes} (post : Bytes) {byte : UInt8}
    (hpre : ∀ b ∈ pre, isDetail b = true) (hbyte : isDetail byte = true) :
    ∃ b rest, pre ++ byte :: post = b :: rest ∧ isDetail b = true := by
  cases pre with
  | nil => exact ⟨byte, post, rfl, hbyte⟩
  | cons b pre => exact ⟨b, pre ++ byte :: post, rfl, hpre b List.mem_cons_self⟩

/-- **A match ends the detail before it**: what is taken in behind a match is so by a later decline
token. -/
theorem TakenIn.of_match {pre post : Bytes} {byte : UInt8} (free : ¬ascii "tok_declined" <:+: x)
    (found : y ≠ []) (length : detailedDeclineToken (y ++ (pre ++ byte :: post)) = y.length)
    (hbyte : isDetail byte = true) (h : TakenIn (x ++ (y ++ pre))) : TakenIn pre := by
  obtain ⟨before, tail, htaken, htail⟩ := h
  obtain ⟨_, _, hkey, hborder, _⟩ := declined_word
  rw [List.all_eq_true] at hkey
  rw [declined_append] at htaken
  rcases detailedDeclineToken_cases found length with ⟨rfl, hbare⟩ | ⟨detail, rfl, _, hend⟩
  · -- a bare token, with no detail behind it
    rcases overlap hborder.border.1 htaken with ⟨z, rfl, _⟩ | ⟨z, rfl, rfl⟩ |
      ⟨u, v, huv, hv, rfl, hrest⟩ | ⟨u, v, huv, hu, hv, rfl, hrest⟩
    · exact absurd ⟨before, z, List.append_assoc _ _ _⟩ free
    · exact ⟨z, tail, by rw [declined_append], htail⟩
    · have hcompare := List.prefix_or_prefix_of_prefix ⟨_, hrest⟩
        (List.prefix_append (ascii "tok_declined") pre)
      rcases eq_or_ne u [] with rfl | hu
      · rw [show v = ascii "tok_declined" from huv.symm] at hrest
        obtain ⟨b, rest, hcons, hb⟩ := exists_detail_cons post htail hbyte
        rw [← List.append_cancel_left hrest, List.cons_append, hcons] at hbare
        rw [hbare b rest rfl] at hb
        cases hb
      · obtain ⟨houtside, hinside⟩ := hborder.across u.length (by
          rw [List.nil_append, huv]
          simpa using List.length_pos_iff.mpr hv) (by simpa using hu)
        rw [List.nil_append, huv, List.drop_left] at houtside hinside
        rw [huv] at hcompare
        rcases hcompare with h | h
        · exact absurd h hinside
        · exact absurd h houtside
    · obtain ⟨hinside, houtside⟩ := hborder.within u.length (by
        rw [huv]
        simpa using List.length_pos_iff.mpr hv) (List.length_pos_iff.mpr hu)
      rw [List.nil_append] at hinside houtside
      have hdrop : (ascii "tok_declined").drop u.length = v := by rw [huv, List.drop_left]
      rw [hdrop] at hinside houtside
      rcases List.prefix_or_prefix_of_prefix ⟨_, hrest⟩ (List.prefix_append v pre) with h | h
      · exact absurd h hinside
      · exact absurd h houtside
  · -- a token with all of its detail: what follows it does not begin with detail
    have hdetail : (∀ b ∈ pre, isDetail b = true) → TakenIn pre := by
      intro hpre
      obtain ⟨b, rest, hcons, hb⟩ := exists_detail_cons post hpre hbyte
      rw [hend b rest hcons] at hb
      cases hb
    have hall : ∀ b ∈ ascii "tok_declined" ++ 95 :: tail, isDetail b = true := by
      intro b hb
      rcases List.mem_append.mp hb with hb | hb
      · exact hkey b hb
      · rcases List.mem_cons.mp hb with rfl | hb
        · rfl
        · exact htail b hb
    rcases overlap hborder.border.1 htaken with ⟨z, rfl, _⟩ | ⟨z, rfl, rfl⟩ |
      ⟨u, v, huv, hv, rfl, hrest⟩ | ⟨u, v, huv, hu, hv, rfl, hrest⟩
    · exact absurd ⟨before, z, List.append_assoc _ _ _⟩ free
    · exact ⟨z, tail, by rw [declined_append], htail⟩
    · refine hdetail fun b hb => hall b ?_
      rw [huv, List.append_assoc, hrest]
      exact List.mem_append_right _ (List.mem_append_right _ hb)
    · refine hdetail fun b hb => hall b ?_
      rw [hrest]
      exact List.mem_append_right _ hb

theorem TakenIn.append (h : TakenIn z) : TakenIn (x ++ z) := by
  obtain ⟨before, tail, rfl, htail⟩ := h
  exact ⟨x ++ before, tail, (List.append_assoc _ _ _).symm, htail⟩

variable {befores afters afters' : List Bytes} {word data : Bytes}

/-- In bytes without a decline token an exposed word is one that occurs. -/
theorem exposed_of_undeclined (free : ¬ascii "tok_declined" <:+: x)
    (touched : ∀ after ∈ afters', ascii "tok_declined" <:+: word ++ after) :
    Exposed befores word (afters' ++ afters) x ↔ Occurs befores word afters x := by
  constructor
  · rintro ⟨pre, post, rfl, _, hbefore, hafter⟩
    exact ⟨pre, post, rfl, hbefore, (List.forall_mem_append.mp hafter).2⟩
  · rintro ⟨pre, post, rfl, hbefore, hafter⟩
    refine ⟨pre, post, rfl, ?_, hbefore, List.forall_mem_append.mpr ⟨?_, hafter⟩⟩
    · rintro ⟨before, tail, rfl, _⟩
      refine free ⟨before, 95 :: (tail ++ (word ++ post)), ?_⟩
      rw [declined_append]
      simp
    · rintro after hmem ⟨back, rfl⟩
      refine free ((touched after hmem).trans ⟨pre, back, ?_⟩)
      simp

/-- A word does not begin within a match, other than where it is taken in. -/
theorem not_within_match {u v post : Bytes} {byte : UInt8} {rest : Bytes}
    (apart : Apart befores (byte :: rest) afters (ascii "tok_declined")) (hbyte : byte ≠ 95)
    (hu : u ≠ []) (hv : v ≠ []) (length : detailedDeclineToken ((u ++ v) ++ z) = (u ++ v).length)
    (hrest : byte :: rest ++ post = v ++ z) (taken : ¬TakenIn (x ++ u))
    (hbefore : ∀ before ∈ befores, ¬before <:+ x ++ u) : False := by
  have hkey : ∃ detail, u ++ v = ascii "tok_declined" ++ detail ∧
      (detail = [] ∨ ∃ tail, detail = 95 :: tail ∧ ∀ b ∈ tail, isDetail b = true) := by
    rcases detailedDeclineToken_cases (List.append_ne_nil_of_left_ne_nil hu v) length with
      ⟨h, _⟩ | ⟨tail, h, htail, _⟩
    · exact ⟨[], by simpa using h, .inl rfl⟩
    · exact ⟨_, h, .inr ⟨tail, rfl, htail⟩⟩
  obtain ⟨detail, hmatch, hdetail⟩ := hkey
  rcases List.append_eq_append_iff.mp hmatch with ⟨k, hkey, rfl⟩ | ⟨k, rfl, rfl⟩
  · -- it begins within the bare token, or right behind it
    rcases eq_or_ne k [] with rfl | hk
    · rcases hdetail with rfl | ⟨tail, rfl, _⟩
      · exact hv rfl
      · injection hrest with h _
        exact hbyte h
    · have hi : u.length < (ascii "tok_declined").length := by
        rw [hkey]
        simpa using List.length_pos_iff.mpr hk
      obtain ⟨hinside, hbefores⟩ := apart.within u.length hi (List.length_pos_iff.mpr hu)
      rw [hkey, List.drop_left] at hinside hbefores
      rw [List.take_left] at hbefores
      have hk' : k <+: byte :: rest ++ post := by
        rw [hrest, List.append_assoc]
        exact List.prefix_append _ _
      rcases List.prefix_or_prefix_of_prefix (List.prefix_append (byte :: rest) post) hk' with h | h
      · exact hinside h
      · obtain ⟨before, hmem, hsuffix⟩ := hbefores h
        exact hbefore before hmem (hsuffix.trans (List.suffix_append _ _))
  · -- it begins within the detail
    cases k with
    | nil =>
      rcases hdetail with h | ⟨tail, h, _⟩
      · exact hv h
      · rw [show v = 95 :: tail from h] at hrest
        injection hrest with h _
        exact hbyte h
    | cons b k =>
      rcases hdetail with h | ⟨tail, h, htail⟩
      · cases h
      · injection h with hb hk
        refine taken ⟨x, k, ?_, fun c hc => htail c (hk ▸ List.mem_append_left _ hc)⟩
        rw [hb, declined_append]

/-- A text of detail bytes does not reach over a byte that is none. -/
theorem suffix_of_not_detail {before : Bytes} {byte : UInt8}
    (detail : ∀ b ∈ before, isDetail b = true) (hbyte : isDetail byte = false)
    (h : before <:+ x ++ byte :: z) : before <:+ byte :: z := by
  have hmem : byte ∉ before := fun hmem => by
    rw [detail byte hmem] at hbyte
    cases hbyte
  have clear : ∀ i < before.length,
      ¬before.take (i + 1) <:+ [byte] ∧ ¬[byte] <:+ before.take (i + 1) := by
    refine fun i hi => ⟨fun hsuffix => ?_, fun hsuffix => ?_⟩
    · have hlength := hsuffix.length_le
      obtain ⟨c, hc⟩ : ∃ c, c ∈ before.take (i + 1) := by
        refine List.exists_mem_of_length_pos ?_
        rw [List.length_take]
        omega
      rw [List.mem_singleton.mp (hsuffix.subset hc)] at hc
      exact hmem (List.mem_of_mem_take hc)
    · exact hmem (List.mem_of_mem_take (hsuffix.subset (List.mem_singleton.mpr rfl)))
  have := suffix_of_clear clear (show before <:+ x ++ ([byte] ++ z) from h)
  exact this.trans (List.suffix_cons _ _)

/-- **Exposed words are on either side of a match.** -/
theorem exposed_append {byte : UInt8} {rest : Bytes} (free : ¬ascii "tok_declined" <:+: x)
    (found : y ≠ []) (length : detailedDeclineToken (y ++ z) = y.length)
    (hbyte : isDetail byte = true ∧ byte ≠ 95)
    (hbefores : ∀ before ∈ befores, ∀ b ∈ before, isDetail b = true)
    (apart : Apart befores (byte :: rest) afters (ascii "tok_declined")) :
    Exposed befores (byte :: rest) afters (x ++ (y ++ z)) ↔
      Exposed befores (byte :: rest) afters x ∨ Exposed befores (byte :: rest) afters z := by
  have hfront : ∃ detail, y = ascii "tok_declined" ++ detail := by
    rcases detailedDeclineToken_cases found length with ⟨h, _⟩ | ⟨tail, h, _⟩
    · exact ⟨[], by simpa using h⟩
    · exact ⟨_, h⟩
  constructor
  · rintro ⟨pre, post, h, taken, hbefore, hafter⟩
    rcases overlap apart.wordNonempty h with ⟨q, rfl, rfl⟩ | ⟨q, rfl, rfl⟩ |
      ⟨u, v, huv, hv, rfl, hrest⟩ | ⟨u, v, rfl, hu, hv, rfl, hrest⟩
    · exact .inl ⟨pre, q, rfl, taken, hbefore, fun after hmem hq =>
        hafter after hmem (hq.trans (List.prefix_append _ _))⟩
    · refine .inr ⟨q, post, rfl, fun hq => taken hq.append.append, fun before hmem hq => ?_, hafter⟩
      exact hbefore before hmem (hq.trans ((List.suffix_append _ _).trans (List.suffix_append _ _)))
    · -- it runs into the match, so a control reaches into it
      obtain ⟨detail, rfl⟩ := hfront
      have hi : u.length < (byte :: rest).length := by
        rw [huv]
        simpa using List.length_pos_iff.mpr hv
      obtain ⟨houtside, hafters⟩ := apart.across u.length hi
      rw [huv, List.drop_left] at houtside hafters
      rw [List.append_assoc] at hrest
      rcases List.append_eq_append_iff.mp hrest with ⟨k, hkey, rfl⟩ | ⟨k, rfl, _⟩
      · rw [hkey] at hafters
        obtain ⟨after, hmem, hstarts⟩ := hafters (List.prefix_append _ _)
        rw [List.length_append, Nat.add_sub_cancel_left, List.drop_left] at hstarts
        exact absurd (hstarts.trans (List.prefix_append _ _)) (hafter after hmem)
      · exact absurd (List.prefix_append _ _) houtside
    · exact (not_within_match apart hbyte.2 hu hv length hrest taken hbefore).elim
  · rintro (⟨pre, post, rfl, taken, hbefore, hafter⟩ | ⟨pre, post, rfl, taken, hbefore, hafter⟩)
    · obtain ⟨detail, rfl⟩ := hfront
      refine ⟨pre, post ++ (ascii "tok_declined" ++ detail ++ z), by simp, taken, hbefore,
        fun after hmem hstarts => ?_⟩
      rw [List.append_assoc] at hstarts
      exact hafter after hmem (prefix_of_clear (apart.first after hmem) hstarts)
    · refine ⟨x ++ (y ++ pre), post, by simp, fun h => taken (h.of_match free found length hbyte.1),
        fun before hmem hsuffix => ?_, hafter⟩
      refine hbefore before hmem ?_
      rcases detailedDeclineToken_cases found length with ⟨rfl, _⟩ | ⟨tail, rfl, _, hend⟩
      · exact suffix_of_clear (apart.last before hmem) hsuffix
      · cases pre with
        | nil =>
          rw [hend byte _ rfl] at hbyte
          cases hbyte.1
        | cons b pre =>
          rw [← List.append_assoc] at hsuffix
          exact suffix_of_not_detail (hbefores before hmem) (hend b _ rfl) hsuffix

/-- **What a decline token does not reach**: the words in the parts between the decline tokens are
the exposed ones. -/
theorem occurs_parts {parts : List Bytes} {byte : UInt8} {rest : Bytes}
    (cuts : Cuts detailedDeclineToken data parts) (hbyte : isDetail byte = true ∧ byte ≠ 95)
    (hbefores : ∀ before ∈ befores, ∀ b ∈ before, isDetail b = true)
    (apart : Apart befores (byte :: rest) (afters' ++ afters) (ascii "tok_declined"))
    (touched : ∀ after ∈ afters', ascii "tok_declined" <:+: byte :: rest ++ after) :
    (∃ part ∈ parts, Occurs befores (byte :: rest) afters part) ↔
      Exposed befores (byte :: rest) (afters' ++ afters) data := by
  induction cuts with
  | last quiet =>
    rw [exposed_of_undeclined (undeclined_of_quiet quiet) touched]
    simp
  | cut quiet length found _ ih =>
    rw [exposed_append (undeclined_of_quiet quiet) found length hbyte hbefores apart,
      exposed_of_undeclined (undeclined_of_quiet quiet) touched, ← ih, List.exists_mem_cons_iff]

end Decline

/-! ## The passes one after another -/

section Passes

variable {data : Bytes}

/-- The bytes after the pass over the decline tokens. -/
def withoutDecline (data : Bytes) : Bytes :=
  sub detailedDeclineToken (ascii "synthetic_no") data

/-- The bytes after the pass over the approval tokens. -/
def withoutTokens (data : Bytes) : Bytes :=
  replace (ascii "tok_approved") (ascii "synthetic_ok") (withoutDecline data)

/-- No decline token is left, and no later pass puts one together. -/
theorem withoutTokens_undeclined : ¬ascii "tok_declined" <:+: withoutTokens data := by
  intro h
  have approved := token_words.1 (ascii "tok_approved") (by simp) (ascii "synthetic_ok") (by simp)
  have declined := token_words.1 (ascii "tok_declined") (by simp) (ascii "synthetic_ok") (by simp)
  have hfirst := infix_of_replace approved.wordNonempty declined h
  obtain ⟨parts, hcuts, hsub⟩ := exists_cuts detailedDeclineToken_le data
  have apart := declined_word.2.2.2.2
  unfold withoutDecline at hfirst
  rw [hsub, ← occurs_nil, occurs_intercalate apart] at hfirst
  obtain ⟨part, hpart, hoccurs⟩ := hfirst
  exact undeclined_parts hcuts part hpart (occurs_nil.mp hoccurs)

/-- The rewritten bytes: the second pass over decline tokens finds none. -/
theorem sanitize_eq (data : Bytes) :
    sanitize data = replace (ascii "before_commit") (ascii "test_control_")
      (replace (ascii "after_commit") (ascii "test_control") (withoutTokens data)) := by
  have hnone : replace (ascii "tok_declined") (ascii "synthetic_no") (withoutTokens data) =
      withoutTokens data :=
    replace_of_not_infix declined_word.2.2.2.1.border.1 withoutTokens_undeclined
  rw [← hnone]
  rfl

/-- A word that neither replacement of a failure point begins or ends is there before. -/
theorem infix_of_sanitize {word : Bytes} (hfirst : Apart [] word [] (ascii "test_control"))
    (hlast : Apart [] word [] (ascii "test_control_")) (h : word <:+: sanitize data) :
    word <:+: withoutTokens data := by
  rw [sanitize_eq] at h
  obtain ⟨_, _, fronts, _, hafter, _⟩ := seam_words
  have hbefore := (fronts (ascii "before_commi") (by simp)).2.1
  exact infix_of_replace hafter.border.1 hfirst (infix_of_replace hbefore.border.1 hlast h)

/-- **No authorization token comes through.** -/
theorem authorization_sanitized (decision : AuthorizationDecision) :
    ¬ascii decision.value <:+: sanitize data := by
  have through : ∀ token ∈ [ascii "tok_declined", ascii "tok_approved"],
      token <:+: sanitize data → token <:+: withoutTokens data := fun token hmem =>
    infix_of_sanitize (token_words.1 token hmem _ (by simp)) (token_words.1 token hmem _ (by simp))
  have undeclined : ¬ascii "tok_declined" <:+: sanitize data := fun h =>
    withoutTokens_undeclined (through _ (by simp) h)
  have approved := token_words.1 (ascii "tok_approved") (by simp) (ascii "synthetic_ok") (by simp)
  cases decision with
  | approve => exact fun h => not_infix_replace approved (through _ (by simp) h)
  | decline | declineInsufficientFunds | declineLimitExceeded | declineExpired
  | declineVerification | declineInvalid | declineUnknown =>
    exact fun h => undeclined ((token_words.2 _ (by simp [AuthorizationDecision.value])).trans h)

/-- The token of a delayed payment goes through the passes over the failure points, unless one
reaches into it. -/
theorem awaiting_sanitize :
    ascii "tok_awaiting_confirmation" <:+: sanitize data ↔
      Occurs [ascii "after_commi", ascii "before_commi"] (ascii "tok_awaiting_confirmation") []
        (withoutTokens data) := by
  obtain ⟨_, hfirst, hafter, after, hlast, hbefore, before, _⟩ := awaiting_word
  have last : Occurs [] (ascii "tok_awaiting_confirmation") [] (sanitize data) ↔
      Occurs ([ascii "before_commi"] ++ []) (ascii "tok_awaiting_confirmation") ([] ++ [])
        (replace (ascii "after_commit") (ascii "test_control") (withoutTokens data)) := by
    rw [sanitize_eq]
    exact occurs_replace hlast hbefore ⟨by simpa using before, by simp⟩
  have first : Occurs [ascii "before_commi"] (ascii "tok_awaiting_confirmation") []
        (replace (ascii "after_commit") (ascii "test_control") (withoutTokens data)) ↔
      Occurs ([ascii "after_commi"] ++ [ascii "before_commi"]) (ascii "tok_awaiting_confirmation")
        ([] ++ []) (withoutTokens data) :=
    occurs_replace hfirst hafter ⟨by simpa using after, by simp⟩
  exact occurs_nil.symm.trans (last.trans first)

/-- What the last pass completes. -/
theorem failurePoint_last (text : Bytes) :
    (ascii "after_commit" <:+: replace (ascii "before_commit") (ascii "test_control_") text ↔
        ascii "after_commit" <:+: text ∨ ascii "after_commi" ++ ascii "before_commit" <:+: text) ∧
      (ascii "before_commit" <:+: replace (ascii "before_commit") (ascii "test_control_") text ↔
        ascii "before_commi" ++ ascii "before_commit" <:+: text) := by
  obtain ⟨hafter, hbefore, fronts, _, _, apart⟩ := seam_words
  have after := fronts (ascii "after_commi") (by simp)
  have before := fronts (ascii "before_commi") (by simp)
  rw [← hafter]
  exact ⟨infix_replace_border after.1 after.2.1 apart,
    self_infix_replace_border hbefore before.1 before.2.1⟩

/-- What the pass before it completes. -/
theorem failurePoint_first (text : Bytes) :
    (ascii "after_commit" <:+: replace (ascii "after_commit") (ascii "test_control") text ↔
        ascii "after_commi" ++ ascii "after_commit" <:+: text) ∧
      ∀ front ∈ [ascii "after_commi", ascii "before_commi"],
        (front ++ ascii "before_commit" <:+:
            replace (ascii "after_commit") (ascii "test_control") text ↔
          front ++ ascii "before_commit" <:+: text ∨
            front ++ ascii "before_commi" ++ ascii "after_commit" <:+: text) := by
  obtain ⟨hafter, hbefore, fronts, border, self, _⟩ := seam_words
  refine ⟨self_infix_replace_border hafter border self, fun front hmem => ?_⟩
  obtain ⟨_, _, hborder, hself, apart⟩ := fronts front hmem
  rw [← hbefore, ← List.append_assoc]
  exact infix_replace_border hborder hself apart

/-- **A failure point is put together at a junction.** -/
theorem failurePoint_sanitize :
    (ascii "after_commit" <:+: sanitize data ∨ ascii "before_commit" <:+: sanitize data) ↔
      ∃ junction ∈ junctions, junction <:+: withoutTokens data := by
  obtain ⟨first, fronts⟩ := failurePoint_first (withoutTokens data)
  rw [sanitize_eq, (failurePoint_last _).1, (failurePoint_last _).2, first,
    fronts (ascii "after_commi") (by simp), fronts (ascii "before_commi") (by simp)]
  simp only [junctions, List.exists_mem_cons_iff, List.not_mem_nil, false_and, exists_false,
    or_false, or_assoc]

/-- A word that is left by the passes over the simulator tokens is one that they do not reach. -/
theorem occurs_withoutTokens {befores afters afters₀ afters₁ : List Bytes} {word : Bytes}
    (letter : ∀ byte ∈ word.head?, isDetail byte = true ∧ byte ≠ 95)
    (hbefores : ∀ before ∈ befores, ∀ b ∈ before, isDetail b = true)
    (approved : Apart befores word afters (ascii "synthetic_ok") ∧
      Apart befores word (afters₁ ++ afters) (ascii "tok_approved") ∧
      ∀ after ∈ afters₁, ascii "tok_approved" <:+: word ++ after)
    (declined : Apart befores word (afters₁ ++ afters) (ascii "synthetic_no") ∧
      Apart befores word (afters₀ ++ (afters₁ ++ afters)) (ascii "tok_declined") ∧
      ∀ after ∈ afters₀, ascii "tok_declined" <:+: word ++ after) :
    Occurs befores word afters (withoutTokens data) ↔
      Exposed befores word (afters₀ ++ (afters₁ ++ afters)) data := by
  have hreplace : Occurs befores word afters (withoutTokens data) ↔
      Occurs ([] ++ befores) word (afters₁ ++ afters) (withoutDecline data) :=
    occurs_replace approved.1 approved.2.1 ⟨by simp, approved.2.2⟩
  obtain ⟨parts, hcuts, hsub⟩ := exists_cuts detailedDeclineToken_le data
  rw [hreplace, List.nil_append, withoutDecline, hsub, occurs_intercalate declined.1]
  cases word with
  | nil => exact absurd rfl declined.1.wordNonempty
  | cons byte rest =>
    exact occurs_parts hcuts (letter byte rfl) hbefores declined.2.1 declined.2.2

theorem awaiting_exposed :
    ascii "tok_awaiting_confirmation" <:+: sanitize data ↔
      Exposed [ascii "after_commi", ascii "before_commi"] (ascii "tok_awaiting_confirmation") []
        data := by
  obtain ⟨apart, _, _, _, _, _, _, letter, hbefores⟩ := awaiting_word
  have exposed : Occurs [ascii "after_commi", ascii "before_commi"]
        (ascii "tok_awaiting_confirmation") [] (withoutTokens data) ↔
      Exposed [ascii "after_commi", ascii "before_commi"] (ascii "tok_awaiting_confirmation")
        ([] ++ ([] ++ [])) data :=
    occurs_withoutTokens letter (fun before hmem => List.all_eq_true.mp (hbefores before hmem))
      ⟨apart _ (by simp), apart _ (by simp), by simp⟩ ⟨apart _ (by simp), apart _ (by simp), by simp⟩
  exact awaiting_sanitize.trans exposed

theorem junction_exposed {junction : Bytes} (h : junction ∈ junctions) :
    junction <:+: withoutTokens data ↔
      Exposed [] junction [ascii "ok_declined", ascii "ok_approved"] data := by
  obtain ⟨letter, kept, approved, happroved, kept', declined, hdeclined⟩ := junction_words junction h
  have exposed : Occurs [] junction [] (withoutTokens data) ↔
      Exposed [] junction ([ascii "ok_declined"] ++ ([ascii "ok_approved"] ++ [])) data :=
    occurs_withoutTokens letter (by simp) ⟨kept, approved, by simpa using happroved⟩
      ⟨kept', declined, by simpa using hdeclined⟩
  exact occurs_nil.symm.trans exposed

end Passes

/-- **A trace comes out clean exactly if its bytes do not expose a control**: no token of a delayed
payment that the other controls leave, and no junction that completes a failure point. -/
theorem trace_sanitized (data : Bytes) : Sanitized (sanitize data) ↔ ¬Exposes data := by
  have exposes : Exposes data ↔ ascii "tok_awaiting_confirmation" <:+: sanitize data ∨
      ascii "after_commit" <:+: sanitize data ∨ ascii "before_commit" <:+: sanitize data := by
    rw [awaiting_exposed, failurePoint_sanitize]
    refine or_congr_right (exists_congr fun junction => and_congr_right fun h => ?_)
    exact (junction_exposed h).symm
  rw [exposes]
  constructor
  · rintro ⟨tokens, failurePoints⟩ (h | h | h)
    · exact tokens .awaitConfirmation h
    · exact failurePoints .afterCommit h
    · exact failurePoints .beforeCommit h
  · intro clean
    refine ⟨fun decision => ?_, fun point => ?_⟩
    · cases decision with
      | authorization decision => exact authorization_sanitized decision
      | awaitConfirmation => exact fun h => clean (.inl h)
    · cases point with
      | beforeCommit => exact fun h => clean (.inr (.inr h))
      | afterCommit => exact fun h => clean (.inr (.inl h))

/-- A submitted token of a delayed payment is published as it is. -/
theorem awaiting_published :
    ¬Sanitized (sanitize (ascii "payment_method_token=tok_awaiting_confirmation")) := by
  intro clean
  exact clean.tokens .awaitConfirmation (by decide +kernel)

/-- Two failure points in a row, the first cut short, come out as one. -/
example : sanitize (ascii "after_commiafter_commit") = ascii "after_commitest_control" := by
  decide +kernel

/-! ## The members of a trace -/

/-- A name of the trace is read as the bytes of a member with it. -/
theorem readMember_of_mem {trace : List TraceMember} {member : TraceMember} (h : member ∈ trace) :
    ∃ source ∈ trace, source.filename = member.filename ∧
      readMember trace member.filename = some source.data := by
  unfold readMember
  cases hfind : trace.reverse.find? fun source => decide (source.filename = member.filename) with
  | none =>
    have := List.find?_eq_none.mp hfind member (List.mem_reverse.mpr h)
    simp at this
  | some source =>
    have hname := List.find?_some hfind
    exact ⟨source, List.mem_reverse.mp (List.mem_of_find?_eq_some hfind), of_decide_eq_true hname,
      rfl⟩

/-- Every written member holds the rewritten bytes of a member of its name. -/
theorem sanitizeTrace_members (trace : List TraceMember) :
    ∃ written, sanitizeTrace trace = some written ∧
      List.Forall₂ (fun member out => out.filename = member.filename ∧
        ∃ source ∈ trace, source.filename = member.filename ∧ out.data = sanitize source.data)
        trace written := by
  have each : ∀ member ∈ trace, ∃ out : TraceMember,
      ((readMember trace member.filename).map fun data =>
        { member with data := sanitize data }) = some out ∧
      out.filename = member.filename ∧
      ∃ source ∈ trace, source.filename = member.filename ∧ out.data = sanitize source.data := by
    intro member hmem
    obtain ⟨source, hsource, hname, hread⟩ := readMember_of_mem hmem
    rw [hread]
    exact ⟨{ member with data := sanitize source.data }, rfl, rfl, source, hsource, hname, rfl⟩
  obtain ⟨written, hwritten⟩ := Lists.exists_forall₂ each
  exact ⟨written, Lists.mapM_eq_some.mpr (hwritten.imp fun _ _ h => h.1),
    hwritten.imp fun _ _ h => h.2⟩

end PaymentLab
