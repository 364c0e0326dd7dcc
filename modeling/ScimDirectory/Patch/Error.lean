import ScimDirectory.Filter.Compile
import ScimDirectory.Filter.SyntaxError

/-!
# Errors of operations

Why an operation on a resource cannot be applied, with the keyword that the protocol gives to
each kind of reason.
-/

namespace ScimDirectory

/-- Why an operation cannot be applied. -/
inductive PatchError where
  /-- The request does not declare the message schema. -/
  | invalidSchema
  /-- A path cannot be read. -/
  | invalidPath (path : String) (error : SyntaxError)
  /-- A name in a path stands for nothing. -/
  | lookup (error : LookupError)
  /-- The value filter of a path cannot be compiled. -/
  | filter (error : FilterError)
  /-- An operation without anything to apply it to. -/
  | noTarget (detail : String)
  /-- An attribute that the server owns. -/
  | readOnly (attr : String)
  /-- An attribute that cannot be removed. -/
  | immutable (attr : String)
  /-- A value that the attribute cannot have. -/
  | invalidValue (attr detail : String)
  /-- A value that cannot be read as an item of the attribute. -/
  | unreadableItem (attr : String)
  /-- The filter of a path selects none or several items where one is wanted. -/
  | notSingular
  /-- A sub-attribute of items that no filter selects. -/
  | missingFilter (attr : String)
  /-- Items are selected and no sub-attribute of them is named. -/
  | missingSubAttribute (attr : String)
  deriving DecidableEq

namespace PatchError

/-- The wording of the error. -/
def message : PatchError → String
  | invalidSchema => "request must include the PatchOp message schema"
  | invalidPath path error => "invalid path '" ++ path ++ "': " ++ error.message
  | lookup error => error.message
  | filter error => error.message
  | noTarget detail => detail
  | readOnly attr => "'" ++ attr ++ "' is read-only"
  | immutable attr => attr ++ " is not mutable"
  | invalidValue attr detail => "invalid value for '" ++ attr ++ "': " ++ detail
  | unreadableItem attr => "invalid value for '" ++ attr ++ "': <json>"
  | notSingular => "query must resolve to one element"
  | missingFilter attr =>
    "'" ++ attr ++ "' selects items of a multi-valued attribute without a value filter"
  | missingSubAttribute attr => "'" ++ attr ++ "' selects items but names no sub-attribute to set"

/-- The protocol's keyword for the kind of error. -/
def keyword : PatchError → String
  | invalidSchema => "invalidSyntax"
  | invalidPath .. | lookup _ | missingFilter _ | missingSubAttribute _ => "invalidPath"
  | filter _ => "invalidFilter"
  | noTarget _ | notSingular => "noTarget"
  | readOnly _ | immutable _ => "mutability"
  | invalidValue .. | unreadableItem _ => "invalidValue"

end PatchError
end ScimDirectory
