import PaymentLab.Library.CanonicalJson

/-!
# JSON values

The values a JSON decoder gives, and the enumerations that are stored under a text. A number with a
fraction or an exponent carries no value here: no reader of this development takes one.
-/

/-- A decoded JSON value. A fraction carries no value: a reader that tells it from an integer needs
no more. -/
inductive Json where
  | null
  | bool (b : Bool)
  | int (i : Int)
  | float
  | str (s : String)
  | arr (items : List Json)
  | obj (fields : List (String × Json))

namespace Json

/-- The value of a field, where the object has it. -/
def get (fields : List (String × Json)) (name : String) : Option Json :=
  (fields.find? fun field => decide (field.1 = name)).map (·.2)

@[simp] theorem get_cons_self (name : String) (value : Json) (fields : List (String × Json)) :
    get ((name, value) :: fields) name = some value := by
  simp [get]

/-- The member of an enumeration with a stored text. -/
def memberOf {α : Type} (members : List α) (value : α → String) (text : String) : Option α :=
  members.find? fun member => decide (value member = text)

end Json
