import ScimDirectory.Json.Members
import ScimDirectory.Patch.Error

/-!
# Patch requests

An ordered list of operations on one resource. An operation may carry a path; without one its
value is an object, and each member is an operation of its own.
-/

namespace ScimDirectory

/-- What an operation does. -/
inductive OperationKind where
  /-- Adds values. -/
  | add
  /-- Removes values. -/
  | remove
  /-- Replaces values. -/
  | replace
  deriving DecidableEq

namespace OperationKind

/-- The keyword of an operation. -/
def keyword : OperationKind → String
  | add => "add"
  | remove => "remove"
  | replace => "replace"

/-- The operation of a keyword in any letter case. -/
def ofKeyword? (word : String) : Option OperationKind :=
  [add, remove, replace].find? fun kind => Text.sameLetters kind.keyword word

end OperationKind

/-- An operation on a resource. -/
structure Operation where
  /-- What it does. -/
  kind : OperationKind
  /-- What it is applied to. -/
  path : Option String
  /-- The value it is applied with, `null` when there is none. -/
  value : Json

namespace Operation

/-- The names of the fields. -/
def keys : List String := ["op", "path", "value"]

/-- An operation that adds a value at a path. -/
def add (path : String) (value : Json) : Operation := ⟨.add, some path, value⟩

/-- An operation that replaces the value at a path. -/
def replace (path : String) (value : Json) : Operation := ⟨.replace, some path, value⟩

/-- An operation that removes the value at a path. -/
def remove (path : String) : Operation := ⟨.remove, some path, .null⟩

/-- Writes an operation. -/
def toJson (operation : Operation) : Json :=
  .object <|
    ("op", .text operation.kind.keyword) ::
    Members.ofOption "path" .text operation.path ++
    (if operation.value.isNull then [] else [("value", operation.value)])

/-- Reads what an operation does. -/
def kind? (json : Json) : Option OperationKind := json.text?.bind OperationKind.ofKeyword?

/-- Reads an operation. -/
def ofJson? (json : Json) : Option Operation := do
  let ms ← json.members? keys
  return {
    kind := ← ms.required "op" kind?
    path := ← ms.optional "path" Json.text?
    value := ← ms.withDefault "value" .null some }

end Operation

/-- A request to patch a resource. -/
structure PatchRequest where
  /-- The schemas that the request declares. -/
  schemas : List String
  /-- The operations, in the order in which they are applied. -/
  operations : List Operation

namespace PatchRequest

/-- The schema of the message. -/
def schema : String := "urn:ietf:params:scim:api:messages:2.0:PatchOp"

/-- A request for some operations. -/
def ofOperations (operations : List Operation) : PatchRequest := ⟨[schema], operations⟩

/-- The names of the fields. -/
def keys : List String := ["schemas", "Operations"]

/-- A removal has nothing to remove without a path. -/
def removalWithoutPath : PatchError := .noTarget "remove operation requires a path"

/-- Refuses a request before any operation is applied. -/
def validate (request : PatchRequest) : Except PatchError Unit :=
  if !request.schemas.contains schema then .error .invalidSchema
  else if request.operations.isEmpty then
    .error (.invalidValue "Operations" "at least one operation is required")
  else if request.operations.any fun op => op.kind = .remove && op.path.isNone then
    .error removalWithoutPath
  else .ok ()

/-- Writes a request. -/
def toJson (request : PatchRequest) : Json :=
  .object
    [("schemas", Json.texts request.schemas),
      ("Operations", .array (request.operations.map Operation.toJson))]

/-- Reads a request. -/
def ofJson? (json : Json) : Option PatchRequest := do
  let ms ← json.members? keys
  return {
    schemas := ← ms.required "schemas" (Json.list? Json.text?)
    operations := ← ms.required "Operations" (Json.list? Operation.ofJson?) }

end PatchRequest
end ScimDirectory
