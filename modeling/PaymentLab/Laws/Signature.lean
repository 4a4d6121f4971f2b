import Mathlib.Data.List.TakeDrop
import Mathlib.Data.List.TakeWhile
import PaymentLab.Library.Lists
import PaymentLab.Services.Consumer

/-!
# Signatures at the boundary

Which headers a signature check accepts and which exceptions it raises, over arbitrary text. The
parser reads a header as the items it joins (`headerParts_eq_some`), a repeated key counts by its last
value (`headerPart_eq_some`), and the check then accepts exactly the digest of the timestamp and the
body. It raises its own exception on everything else but one kind of header: a digest of the right
length, under a timestamp within the tolerance, with a character outside ASCII (`Incomparable`).

The HMAC and `int` are parameters. Of the first only the form of its value is relied on, of the
second nothing: what it reads as a timestamp is a timestamp. The comparison is by code points, and
the time that a comparison takes, which `compare_digest` is for, is not visible here.
-/

namespace PaymentLab

open Transactional

/-! ## The header -/

/-- A header is a list of items: keys and values around `=`, joined by commas. Every header that the
code does not reject for its form is one, in exactly one way. -/
structure Splits (header : String) (items : List (String × String)) : Prop where
  joined : header.toList =
    [','].intercalate (items.map fun item => item.1.toList ++ '=' :: item.2.toList)
  nonempty : items ≠ []
  keys : ∀ item ∈ items, '=' ∉ item.1.toList ∧ ',' ∉ item.1.toList
  values : ∀ item ∈ items, ',' ∉ item.2.toList

/-- The last value under a key: of several items with one key the dictionary keeps the last. -/
def LastValue (items : List (String × String)) (key value : String) : Prop :=
  ∃ before after, items = before ++ (key, value) :: after ∧ ∀ item ∈ after, item.1 ≠ key

/-- An item is split at its first `=`. -/
theorem headerPair_eq_some {text : List Char} {item : String × String} :
    headerPair text = some item ↔
      text = item.1.toList ++ '=' :: item.2.toList ∧ '=' ∉ item.1.toList := by
  obtain ⟨key, value⟩ := item
  unfold headerPair
  rw [List.span_eq_takeWhile_dropWhile]
  constructor
  · intro h
    have hsplit := List.takeWhile_append_dropWhile (p := fun c : Char => decide (c ≠ '=')) (l := text)
    split at h
    · cases h
    · next before c after heq =>
      cases h
      simp only [Prod.mk.injEq] at heq
      obtain ⟨hbefore, hafter⟩ := heq
      have hc : c = '=' := by
        have hdrop := List.head?_dropWhile_not (fun c : Char => decide (c ≠ '=')) text
        rw [hafter] at hdrop
        simpa using hdrop
      refine ⟨?_, ?_⟩
      · rw [← hsplit, hbefore, hafter, hc]
        simp
      · intro mem
        rw [String.toList_ofList, ← hbefore] at mem
        have := List.mem_takeWhile_imp mem
        simp at this
  · rintro ⟨rfl, hkey⟩
    have htake : (key.toList ++ '=' :: value.toList).takeWhile (fun c => decide (c ≠ '=')) =
        key.toList := by
      rw [List.takeWhile_append_of_pos]
      · simp
      · intro c mem
        simp only [decide_eq_true_eq]
        rintro rfl
        exact hkey mem
    have hdrop : (key.toList ++ '=' :: value.toList).dropWhile (fun c => decide (c ≠ '=')) =
        '=' :: value.toList := by
      rw [List.dropWhile_append_of_pos]
      · simp
      · intro c mem
        simp only [decide_eq_true_eq]
        rintro rfl
        exact hkey mem
    rw [htake, hdrop]
    simp

/-- **The parser** answers the items a header joins, and nothing when it joins none. -/
theorem headerParts_eq_some {header : String} {items : List (String × String)} :
    headerParts header = some items ↔ Splits header items := by
  unfold headerParts
  rw [Lists.mapM_eq_some]
  constructor
  · intro h
    have htexts : header.toList.splitOn ',' =
        items.map fun item => item.1.toList ++ '=' :: item.2.toList := by
      rw [← List.forall₂_eq_eq_eq, List.forall₂_map_right_iff]
      exact h.imp fun _ _ hpair => (headerPair_eq_some.mp hpair).1
    have hitems : ∀ item ∈ items, '=' ∉ item.1.toList ∧
        ',' ∉ item.1.toList ++ '=' :: item.2.toList := by
      intro item mem
      obtain ⟨text, htext, hpair⟩ := Lists.forall₂_right h mem
      obtain ⟨rfl, hkey⟩ := headerPair_eq_some.mp hpair
      exact ⟨hkey, Lists.not_mem_of_mem_splitOn htext⟩
    refine ⟨?_, ?_, fun item mem => ?_, fun item mem => ?_⟩
    · rw [← htexts, List.intercalate_splitOn]
    · rintro rfl
      exact List.splitOn_ne_nil _ _ htexts
    · obtain ⟨hkey, htext⟩ := hitems item mem
      exact ⟨hkey, fun hcomma => htext (List.mem_append_left _ hcomma)⟩
    · obtain ⟨_, htext⟩ := hitems item mem
      exact fun hcomma => htext (List.mem_append_right _ (List.mem_cons_of_mem _ hcomma))
  · rintro ⟨joined, nonempty, keys, values⟩
    rw [joined, List.splitOn_intercalate]
    · rw [List.forall₂_map_left_iff]
      apply List.forall₂_same.mpr
      intro item mem
      exact headerPair_eq_some.mpr ⟨rfl, (keys item mem).1⟩
    · intro text mem
      obtain ⟨item, hitem, rfl⟩ := List.mem_map.mp mem
      simp [(keys item hitem).2, values item hitem]
    · simpa using nonempty

/-- **A part** of a header is the last value under its key. -/
theorem headerPart_eq_some {items : List (String × String)} {key value : String} :
    headerPart items key = some value ↔ LastValue items key value := by
  unfold headerPart
  rw [Option.map_eq_some_iff]
  constructor
  · rintro ⟨⟨key', value'⟩, hfind, rfl⟩
    obtain ⟨hkey, before, after, hsplit, hnone⟩ := List.find?_eq_some_iff_append.mp hfind
    have hkey : key' = key := of_decide_eq_true hkey
    subst hkey
    refine ⟨after.reverse, before.reverse, ?_, fun item mem heq => ?_⟩
    · rw [← List.reverse_reverse items, hsplit]
      simp
    · have := hnone item (List.mem_reverse.mp mem)
      simp [heq] at this
  · rintro ⟨before, after, rfl, hnone⟩
    refine ⟨(key, value), List.find?_eq_some_iff_append.mpr ⟨by simp, after.reverse,
      before.reverse, by simp, fun item mem => ?_⟩, rfl⟩
    simpa using hnone item (List.mem_reverse.mp mem)

/-! ## The check -/

section Check

variable (hmacSha256 : String → Int → Bytes → String) (readInt : String → Option Int)

/-- `hexdigest`: 64 lowercase hexadecimal digits. Of the digest only its form is relied on; that it
cannot be guessed is no part of the statement. -/
def HexDigest : Prop :=
  ∀ secret timestamp payload, (hmacSha256 secret timestamp payload).length = 64 ∧
    ∀ c ∈ (hmacSha256 secret timestamp payload).toList, c ∈ "0123456789abcdef".toList

/-- A header with a timestamp within the tolerance of the clock, and a digest. The digest may be
anything; whether it is the right one is `Signed`. -/
structure Timely (header : String) (now : Datetime) (tolerance timestamp : Int) (supplied : String) :
    Prop where
  read : ∃ items text, Splits header items ∧ LastValue items "t" text ∧
    readInt text = some timestamp ∧ LastValue items "v1" supplied
  within : |wholeSeconds now - timestamp| ≤ tolerance

/-- A header that carries the digest of its timestamp and the body, within the tolerance. -/
def Signed (payload : Bytes) (header secret : String) (now : Datetime) (tolerance : Int) : Prop :=
  ∃ timestamp, Timely readInt header now tolerance timestamp (hmacSha256 secret timestamp payload)

/-- A header whose digest has the length of one and a character outside ASCII. These are the headers
that `compare_digest` does not compare: it raises `TypeError`, which nothing catches. A wrong digest
of any other kind is refused as one. -/
def Incomparable (header : String) (now : Datetime) (tolerance : Int) : Prop :=
  ∃ timestamp supplied, Timely readInt header now tolerance timestamp supplied ∧
    supplied.length = 64 ∧ ∃ c ∈ supplied.toList, 127 < c.toNat

/-- A check that accepts the signed headers and raises its own exception on all others. An exception
of another kind is a failure of the check. -/
def Exactly (result : Except ServiceError Unit) (signed : Prop) : Prop :=
  (result = .ok () ↔ signed) ∧
    ∀ e, result = .error e → ∃ message, e = .invalidWebhookSignature message

variable {hmacSha256 readInt} {payload : Bytes} {header secret supplied : String} {now : Datetime}
  {tolerance timestamp : Int}

theorem readSignature_eq_some : readSignature readInt header = some (timestamp, supplied) ↔
    ∃ items text, Splits header items ∧ LastValue items "t" text ∧
      readInt text = some timestamp ∧ LastValue items "v1" supplied := by
  unfold readSignature
  simp only [Option.bind_eq_bind, Option.bind_eq_some_iff, headerParts_eq_some,
    headerPart_eq_some]
  constructor
  · rintro ⟨items, hitems, text, htext, _, hread, _, hsupplied, heq⟩
    cases heq
    exact ⟨items, text, hitems, htext, hread, hsupplied⟩
  · rintro ⟨items, text, hitems, htext, hread, hsupplied⟩
    exact ⟨items, hitems, text, htext, timestamp, hread, supplied, hsupplied, rfl⟩

theorem timely_iff : Timely readInt header now tolerance timestamp supplied ↔
    readSignature readInt header = some (timestamp, supplied) ∧
      |wholeSeconds now - timestamp| ≤ tolerance := by
  rw [readSignature_eq_some]
  exact ⟨fun h => ⟨h.read, h.within⟩, fun h => ⟨h.1, h.2⟩⟩

/-- A digest is text in ASCII. -/
theorem HexDigest.ascii (hex : HexDigest hmacSha256) (secret : String) (timestamp : Int)
    (payload : Bytes) : ∀ c ∈ (hmacSha256 secret timestamp payload).toList, ¬127 < c.toNat := by
  intro c mem
  have hdigit := (hex secret timestamp payload).2 c mem
  have digits : ∀ d ∈ "0123456789abcdef".toList, ¬127 < d.toNat := by simp
  exact digits c hdigit

/-- The result on a header that names a timestamp and a digest. -/
theorem verify_read (named : secret ≠ "") (hex : HexDigest hmacSha256)
    (hread : readSignature readInt header = some (timestamp, supplied)) :
    Exactly (verifyWebhookSignature hmacSha256 readInt payload header secret now tolerance)
        (supplied = hmacSha256 secret timestamp payload ∧
          |wholeSeconds now - timestamp| ≤ tolerance) ↔
      ¬(|wholeSeconds now - timestamp| ≤ tolerance ∧ supplied.length = 64 ∧
        ∃ c ∈ supplied.toList, 127 < c.toNat) := by
  unfold Exactly verifyWebhookSignature
  rw [hread]
  dsimp only
  by_cases hlength : supplied.length = 64
  · by_cases hwithin : |wholeSeconds now - timestamp| ≤ tolerance
    · by_cases hascii : ∃ c ∈ supplied.toList, 127 < c.toNat
      · have hany : (supplied.toList.any fun c => decide (127 < c.toNat)) = true := by
          simpa using hascii
        rw [if_neg (not_not.mpr hlength), if_neg (not_lt.mpr hwithin), if_neg named, if_pos hany]
        simp [hlength, hwithin, hascii]
      · have hany : (supplied.toList.any fun c => decide (127 < c.toNat)) = false := by
          simpa using hascii
        rw [if_neg (not_not.mpr hlength), if_neg (not_lt.mpr hwithin), if_neg named, hany]
        by_cases hsame : hmacSha256 secret timestamp payload = supplied
        · simp [hsame, hwithin, hascii]
        · simp [hsame, Ne.symm hsame, hascii]
    · rw [if_neg (not_not.mpr hlength), if_pos (not_le.mp hwithin)]
      simp [hwithin]
  · have hne : supplied ≠ hmacSha256 secret timestamp payload := by
      rintro rfl
      exact hlength (hex secret timestamp payload).1
    rw [if_pos hlength]
    simp [hne, hlength]

/-- **The check of a body** is exact on every header but the incomparable ones. -/
theorem verify_exactly (named : secret ≠ "") (hex : HexDigest hmacSha256) :
    Exactly (verifyWebhookSignature hmacSha256 readInt payload header secret now tolerance)
        (Signed hmacSha256 readInt payload header secret now tolerance) ↔
      ¬Incomparable readInt header now tolerance := by
  unfold Signed Incomparable
  simp only [timely_iff]
  cases hread : readSignature readInt header with
  | none =>
    unfold Exactly verifyWebhookSignature
    rw [hread]
    simp
  | some read =>
    obtain ⟨timestamp, supplied⟩ := read
    have hsigned : (∃ ts, some (timestamp, supplied) =
        some (ts, hmacSha256 secret ts payload) ∧
          |wholeSeconds now - ts| ≤ tolerance) ↔
        (supplied = hmacSha256 secret timestamp payload ∧
          |wholeSeconds now - timestamp| ≤ tolerance) := by
      constructor
      · rintro ⟨_, heq, hwithin⟩
        cases heq
        exact ⟨rfl, hwithin⟩
      · rintro ⟨rfl, hwithin⟩
        exact ⟨timestamp, rfl, hwithin⟩
    rw [hsigned, verify_read named hex hread]
    apply not_congr
    constructor
    · rintro ⟨hwithin, hlength, hascii⟩
      exact ⟨timestamp, supplied, ⟨rfl, hwithin⟩, hlength, hascii⟩
    · rintro ⟨_, _, ⟨heq, hwithin⟩, hlength, hascii⟩
      cases heq
      exact ⟨hwithin, hlength, hascii⟩

/-- What the check raises on an incomparable header. -/
theorem incomparable_raises (named : secret ≠ "") (h : Incomparable readInt header now tolerance) :
    verifyWebhookSignature hmacSha256 readInt payload header secret now tolerance =
      .error (.runtimeError "comparing strings with non-ASCII characters is not supported") := by
  obtain ⟨timestamp, supplied, timely, hlength, hascii⟩ := h
  obtain ⟨hread, hwithin⟩ := timely_iff.mp timely
  have hany : (supplied.toList.any fun c => decide (127 < c.toNat)) = true := by simpa using hascii
  unfold verifyWebhookSignature
  rw [hread]
  dsimp only
  rw [if_neg (not_not.mpr hlength), if_neg (not_lt.mpr hwithin), if_neg named, if_pos hany]

/-- The decimal text of an integer has digits and a sign. -/
theorem toList_toString_int (n : Int) : ∀ c ∈ (toString n).toList, c.isDigit = true ∨ c = '-' := by
  intro c mem
  cases n with
  | ofNat n =>
    have hdigit : c ∈ Nat.toDigits 10 n := by simpa [toString, Int.repr, Nat.repr] using mem
    exact .inl (Nat.isDigit_of_mem_toDigits (by omega) (by omega) hdigit)
  | negSucc n =>
    have hdigit : c = '-' ∨ c ∈ Nat.toDigits 10 (n + 1) := by
      simpa [toString, Int.repr, Nat.repr] using mem
    rcases hdigit with rfl | hdigit
    · exact .inr rfl
    · exact .inl (Nat.isDigit_of_mem_toDigits (by omega) (by omega) hdigit)

/-- **A header that `sign_webhook` made** splits into its timestamp and its digest. -/
theorem splits_signed (hex : HexDigest hmacSha256) (payload : Bytes) (secret : String)
    (timestamp : Int) :
    Splits ("t=" ++ toString timestamp ++ ",v1=" ++ hmacSha256 secret timestamp payload)
      [("t", toString timestamp), ("v1", hmacSha256 secret timestamp payload)] where
  joined := by simp [List.intercalate_cons_cons]
  nonempty := by simp
  keys := by simp
  values := by
    intro item mem hcomma
    rcases List.mem_cons.mp mem with rfl | mem
    · rcases toList_toString_int timestamp _ hcomma with hdigit | hminus
      · exact absurd hdigit (by decide)
      · exact absurd hminus (by decide)
    · cases List.mem_singleton.mp mem
      exact absurd ((hex secret timestamp payload).2 _ hcomma) (by decide)

theorem verify_signed (named : secret ≠ "") (hex : HexDigest hmacSha256)
    (reads : readInt (toString timestamp) = some timestamp)
    (within : |wholeSeconds now - timestamp| ≤ tolerance) :
    verifyWebhookSignature hmacSha256 readInt payload
      ("t=" ++ toString timestamp ++ ",v1=" ++ hmacSha256 secret timestamp payload) secret now
      tolerance = .ok () := by
  have hread : readSignature readInt
      ("t=" ++ toString timestamp ++ ",v1=" ++ hmacSha256 secret timestamp payload) =
        some (timestamp, hmacSha256 secret timestamp payload) :=
    readSignature_eq_some.mpr ⟨_, _, splits_signed hex payload secret timestamp,
      ⟨[], [_], rfl, by simp⟩, reads, ⟨[_], [], rfl, by simp⟩⟩
  refine ((verify_read named hex hread).mpr ?_).1.mpr ⟨rfl, within⟩
  rintro ⟨_, _, c, mem, hascii⟩
  exact hex.ascii secret timestamp payload c mem hascii

/-- The exceptions of the confirmation's check: that of an invalid signature under its own name, and
every other one as it is. -/
theorem verifyConfirmation_eq_error (hheader : header ≠ "") {e : ServiceError}
    (h : verifyConfirmationSignature hmacSha256 readInt payload (some header) secret now = .error e) :
    (∃ message, e = .invalidConfirmationSignature message) ∨
      (∀ message, e ≠ .invalidWebhookSignature message) ∧
        verifyWebhookSignature hmacSha256 readInt payload header secret now = .error e := by
  unfold verifyConfirmationSignature at h
  split at h
  · next hnone => cases hnone
  · next hsome => exact absurd (Option.some.inj hsome) hheader
  · next hsome =>
    cases hsome
    split at h
    · cases h
      exact .inl ⟨_, rfl⟩
    · next other => exact .inr ⟨fun message heq => other message (by rw [h, heq]), h⟩

/-- An exception other than that of an invalid signature passes through. -/
theorem verifyConfirmation_raises (hheader : header ≠ "") {e : ServiceError}
    (other : ∀ message, e ≠ .invalidWebhookSignature message)
    (h : verifyWebhookSignature hmacSha256 readInt payload header secret now = .error e) :
    verifyConfirmationSignature hmacSha256 readInt payload (some header) secret now = .error e := by
  unfold verifyConfirmationSignature
  split
  · next hnone => cases hnone
  · next hsome => exact absurd (Option.some.inj hsome) hheader
  · next hsome =>
    cases hsome
    rw [h]
    split
    · next heq => exact absurd (Except.error.inj heq) (other _)
    · rfl

/-- A confirmation is refused by one exception, unless its header is incomparable. -/
theorem verifyConfirmation_iff (named : secret ≠ "") (hex : HexDigest hmacSha256) :
    (∀ e, verifyConfirmationSignature hmacSha256 readInt payload (some header) secret now =
        .error e → ∃ message, e = .invalidConfirmationSignature message) ↔
      ¬Incomparable readInt header now signatureToleranceSeconds := by
  by_cases hempty : header = ""
  · subst hempty
    constructor
    · rintro _ ⟨_, _, timely, _⟩
      have hread := (timely_iff.mp timely).1
      have hnone : readSignature readInt "" = none := rfl
      rw [hnone] at hread
      cases hread
    · intro _ e herror
      cases herror
      exact ⟨_, rfl⟩
  · constructor
    · intro only incomparable
      obtain ⟨_, heq⟩ := only _ (verifyConfirmation_raises hempty (fun _ heq => by cases heq)
        (incomparable_raises named incomparable))
      cases heq
    · intro comparable e herror
      have checked : Exactly (verifyWebhookSignature hmacSha256 readInt payload header secret now) _ :=
        (verify_exactly named hex).mpr comparable
      rcases verifyConfirmation_eq_error hempty herror with own | ⟨other, hresult⟩
      · exact own
      · obtain ⟨message, heq⟩ := checked.2 e hresult
        exact absurd heq (other message)

variable (header) in
/-- **Signatures are exact where they are comparable.** The check accepts exactly the signed headers
and raises only its own exception if and only if the header is not incomparable; a header that
`sign_webhook` made is accepted within the tolerance; and a confirmation is refused by its one
exception under the same condition. -/
theorem signature_exact (named : secret ≠ "") (hex : HexDigest hmacSha256) :
    (Exactly (verifyWebhookSignature hmacSha256 readInt payload header secret now tolerance)
        (Signed hmacSha256 readInt payload header secret now tolerance) ↔
      ¬Incomparable readInt header now tolerance) ∧
    (∀ timestamp, readInt (toString timestamp) = some timestamp →
      |wholeSeconds now - timestamp| ≤ tolerance → ∀ s : DatabaseSession,
        ∃ made, signWebhook hmacSha256 payload secret timestamp s = (.ok made, s) ∧
          verifyWebhookSignature hmacSha256 readInt payload made secret now tolerance = .ok ()) ∧
    ((∀ e, verifyConfirmationSignature hmacSha256 readInt payload (some header) secret now =
        .error e → ∃ message, e = .invalidConfirmationSignature message) ↔
      ¬Incomparable readInt header now signatureToleranceSeconds) := by
  refine ⟨verify_exactly named hex, fun timestamp reads within s => ?_,
    verifyConfirmation_iff named hex⟩
  refine ⟨_, ?_, verify_signed named hex reads within⟩
  unfold signWebhook
  rw [if_neg named]
  rfl

end Check

/-! ## One body -/

/-- `int()` on the text of zero. -/
def readZero (text : String) : Option Int := if text = "0" then some 0 else none

/-- The digest of the body `{}` under the secret `secret` and the timestamp 0. -/
def emptyDigest (_ : String) (_ : Int) (_ : Bytes) : String :=
  "4bbe8d39de1ffea42cffafb4727e02f761bef8ed2886b51575ce417d542e918f"

/-- A signed body is accepted. -/
theorem emptyDigest_accepted : ∃ made,
    signWebhook emptyDigest [123, 125] "secret" 0 (Session.start .empty ∅) =
      (.ok made, (Session.start .empty ∅ : DatabaseSession)) ∧
      verifyWebhookSignature emptyDigest readZero [123, 125] made "secret" (.aware 0) 300 = .ok () := by
  have hex : HexDigest emptyDigest := by
    intro _ _ _
    unfold emptyDigest
    exact ⟨by decide +kernel, by simp⟩
  exact (signature_exact "" (by decide) hex).2.1 0 (by decide) (by decide) _

/-- A digest of 64 accented letters is refused by another exception. -/
theorem accented_raises :
    ¬Exactly (verifyWebhookSignature emptyDigest readZero [123, 125]
        ("t=0,v1=" ++ String.ofList (List.replicate 64 'é')) "secret" (.aware 0) 300)
      (Signed emptyDigest readZero [123, 125]
        ("t=0,v1=" ++ String.ofList (List.replicate 64 'é')) "secret" (.aware 0) 300) := by
  rintro ⟨_, own⟩
  obtain ⟨_, heq⟩ := own (.runtimeError
    "comparing strings with non-ASCII characters is not supported") (by decide +kernel)
  cases heq

end PaymentLab
