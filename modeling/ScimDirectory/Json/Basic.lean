import ScimDirectory.Number.Binary64

/-!
# JSON values

A JSON value with the two kinds of number that matter here apart: integers, which can be
indices, and all others. The members of an object stand in a list; `Json.ofMembers` puts them
in ascending order of their names, the order in which an object's members are visited.
-/

namespace ScimDirectory

/-- A JSON value. -/
inductive Json where
  /-- The value `null`. -/
  | null
  /-- `true` or `false`. -/
  | bool (value : Bool)
  /-- A number written without fraction and exponent. -/
  | integer (value : Int)
  /-- Any other number. -/
  | real (value : Binary64)
  /-- A string. -/
  | text (value : String)
  /-- An array. -/
  | array (values : List Json)
  /-- An object. -/
  | object (members : List (String × Json))

namespace Json

/-- An object whose members stand in ascending order of their names. -/
def ofMembers (members : List (String × Json)) : Json :=
  .object (members.mergeSort fun a b => decide (a.1 ≤ b.1))

/-- What a value is called in a message. -/
def kindName : Json → String
  | .null => "null"
  | .bool _ => "a boolean"
  | .integer _ | .real _ => "a number"
  | .text _ => "a string"
  | .array _ => "an array"
  | .object _ => "an object"

/-- Whether a value is `null`. -/
def isNull : Json → Bool
  | .null => true
  | _ => false

/-- A string's text. -/
def text? : Json → Option String
  | .text s => some s
  | _ => none

/-- A boolean's value. -/
def bool? : Json → Option Bool
  | .bool b => some b
  | _ => none

/-- The value of an integer between zero and the largest 64-bit word. -/
def index? : Json → Option Nat
  | .integer (.ofNat n) => if n < Nat.pow 2 64 then some n else none
  | _ => none

/-- Reads every element of an array. -/
def list? {α : Type} (read : Json → Option α) : Json → Option (List α)
  | .array values => values.mapM read
  | _ => none

/-- A list of strings. -/
def texts (values : List String) : Json := .array (values.map .text)

end Json
end ScimDirectory
