import PaymentLab.Library.Substitution
import PaymentLab.Services.Consumer

/-!
# Test controls in a published trace

`scripts/sanitize_trace.py`: every member of a Playwright trace is rewritten before it is published.
The decline tokens go first, with whatever detail follows them, then each of `REPLACEMENTS` in its
order.
-/

namespace PaymentLab

/-- A bytes literal of ASCII characters. -/
def ascii (text : String) : Bytes := text.toList.map Char.toUInt8

/-- A byte of the class `[a-z_]`. -/
def isDetail (byte : UInt8) : Bool := (97 ≤ byte && byte ≤ 122) || byte == 95

/-- The length of the match of `tok_declined(?:_[a-z_]+)?` in front of some bytes, 0 for none. -/
def detailedDeclineToken (data : Bytes) : Nat :=
  if ascii "tok_declined" <+: data then
    match data.drop 12 with
    | [] => 12
    | byte :: rest =>
      if byte = 95 ∧ rest.takeWhile isDetail ≠ [] then 13 + (rest.takeWhile isDetail).length else 12
  else 0

/-- `REPLACEMENTS`, in the order of the dictionary. -/
def replacements : List (Bytes × Bytes) :=
  [(ascii "tok_approved", ascii "synthetic_ok"),
    (ascii "tok_declined", ascii "synthetic_no"),
    (ascii "after_commit", ascii "test_control"),
    (ascii "before_commit", ascii "test_control_")]

/-- The bytes written for the bytes of a member. -/
def sanitize (data : Bytes) : Bytes :=
  replacements.foldl (fun data replacement => Substitution.replace replacement.1 replacement.2 data)
    (Substitution.sub detailedDeclineToken (ascii "synthetic_no") data)

/-- A member of a zip file. -/
structure TraceMember where
  filename : String
  data : Bytes
  deriving DecidableEq, Repr

/-- `ZipFile.read`: the last member of a name. -/
def readMember (trace : List TraceMember) (filename : String) : Option Bytes :=
  (trace.reverse.find? fun member => decide (member.filename = filename)).map (·.data)

/-- `sanitize_trace`. -/
def sanitizeTrace (trace : List TraceMember) : Option (List TraceMember) :=
  trace.mapM fun member =>
    (readMember trace member.filename).map fun data => { member with data := sanitize data }

end PaymentLab
