import ScimDirectory.Text.Quoted

/-!
# Violations

What a resource can lack or hold too much of. Resources are checked before anything is stored.
-/

namespace ScimDirectory

/-- Why a resource is not valid. -/
inductive Violation where
  /-- A required attribute is missing. -/
  | missingRequired (attr : String)
  /-- A value is not one of those allowed. -/
  | invalidCanonical (attr value : String) (allowed : List String)
  /-- More than one item is marked as the preferred one. -/
  | multiplePrimary (attr : String)
  /-- An item lacks a required sub-attribute. -/
  | missingRequiredSub (attr sub : String)
  deriving DecidableEq

/-- The wording of the violation. -/
def Violation.message : Violation → String
  | .missingRequired attr => "Required attribute '" ++ attr ++ "' is missing"
  | .invalidCanonical attr value allowed =>
    "Attribute '" ++ attr ++ "' has invalid value '" ++ value ++ "', allowed values: " ++
      Text.quotedList allowed
  | .multiplePrimary attr => "Attribute '" ++ attr ++ "' cannot have multiple primary values"
  | .missingRequiredSub attr sub =>
    "Attribute '" ++ attr ++ "' missing required sub-attribute '" ++ sub ++ "'"

/-- Refuses more than one preferred item, given which items are. -/
def checkSinglePrimary (attr : String) (primary : List Bool) : Except Violation Unit :=
  if 1 < primary.count true then .error (.multiplePrimary attr) else .ok ()

end ScimDirectory
