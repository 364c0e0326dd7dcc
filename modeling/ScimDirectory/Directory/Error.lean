import ScimDirectory.Patch.Error
import ScimDirectory.Resource.Violation
import ScimDirectory.Store.Error
import ScimDirectory.Version.EntityTag

/-!
# Errors of the directory

Everything that can go wrong in a use of the directory, with the status code and the keyword of
the answer that a client gets.
-/

namespace ScimDirectory

/-- Why a use of the directory failed. -/
inductive DirectoryError where
  /-- A resource is not valid. -/
  | violation (error : Violation)
  /-- A filter cannot be read. -/
  | filterText (error : SyntaxError)
  /-- A filter cannot be compiled. -/
  | filter (error : FilterError)
  /-- An operation cannot be applied. -/
  | patch (error : PatchError)
  /-- Storage failed. -/
  | storage (error : StoreError)
  /-- A body cannot be read. -/
  | unreadable
  /-- A version cannot be read. -/
  | version (error : VersionError)
  /-- A resource is not there. -/
  | notFound (resourceType id : String)
  /-- The resource no longer has the version that the client expects. -/
  | preconditionFailed (expected current : String)
  /-- A request is not well formed. -/
  | invalidRequest (detail : String)
  /-- A hook rejected what was written. -/
  | hook (detail : String)
  /-- Anything else. -/
  | internal (detail : String)
  deriving DecidableEq

namespace DirectoryError

/-- The wording of the error. -/
def message : DirectoryError → String
  | violation error => "Validation error: " ++ error.message
  | filterText error => "Invalid filter: " ++ error.message
  | filter error => "Filter error: " ++ error.message
  | patch error => "Patch error: " ++ error.message
  | storage error => "Storage error: " ++ error.message
  | unreadable => "JSON error"
  | version error => "Version error: " ++ error.message
  | notFound resourceType id => "Resource not found: " ++ resourceType ++ " with ID " ++ id
  | preconditionFailed expected current =>
    "Precondition failed: expected version " ++ expected ++ ", found " ++ current
  | invalidRequest detail => "Invalid request: " ++ detail
  | hook detail => "Write hook failed: " ++ detail
  | internal detail => "Internal server error: " ++ detail

/-- The status code of an answer to a storage error. -/
def storageStatus : StoreError → Nat
  | .notFound .. => 404
  | .constraint .. => 409
  | .notSingular .. => 400
  | _ => 500

/-- The status code of the answer. -/
def status : DirectoryError → Nat
  | violation _ | filterText _ | filter _ | patch _ | unreadable | version _ | invalidRequest _ =>
    400
  | storage error => storageStatus error
  | notFound .. => 404
  | preconditionFailed .. => 412
  | hook _ | internal _ => 500

/-- The protocol's keyword for the kind of error, when there is one. -/
def keyword? : DirectoryError → Option String
  | filterText _ | filter _ => some "invalidFilter"
  | patch error => some error.keyword
  | violation _ | unreadable => some "invalidValue"
  | storage error => if error.isConstraint then some "uniqueness" else none
  | version _ => some "invalidVers"
  | invalidRequest _ => some "invalidSyntax"
  | notFound .. | preconditionFailed .. | hook _ | internal _ => none

end DirectoryError
end ScimDirectory
