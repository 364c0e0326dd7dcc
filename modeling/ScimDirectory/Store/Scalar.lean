import ScimDirectory.Text.Truth

/-!
# Scalars

The values that a column may hold. A cell without a value is `none`, so a column is read as an
optional scalar.
-/

namespace ScimDirectory

/-- A value in a column. -/
inductive Scalar where
  /-- A text. -/
  | text (value : String)
  /-- A truth value. -/
  | bool (value : Bool)
  deriving DecidableEq

/-- The text of a scalar, strings between quotes. -/
def Scalar.toText : Scalar → String
  | .text s => "\"" ++ s ++ "\""
  | .bool b => Text.truth b

end ScimDirectory
