import ScimDirectory.Directory.Hook

/-!
# Search messages

The request for a search, and the list of resources that answers it.
-/

namespace ScimDirectory

/-- The resource types that a search is about. -/
inductive Scope where
  /-- Users and groups. -/
  | all
  /-- Users. -/
  | users
  /-- Groups. -/
  | groups
  deriving DecidableEq

namespace Scope

/-- Whether a resource type is in scope. -/
def wants : Scope → ResourceType → Bool
  | all, _ => true
  | users, type => type = .user
  | groups, type => type = .group

end Scope

/-- A request for a search. -/
structure SearchRequest where
  /-- The schemas that the request declares. -/
  schemas : List String
  /-- The filter; without one every resource matches. -/
  filter : Option String
  /-- The place of the first resource to return, counted from one. -/
  startIndex : Option Nat
  /-- The greatest number of resources to return. -/
  count : Option Nat
  deriving DecidableEq

namespace SearchRequest

/-- The schema of the message. -/
def schema : String := "urn:ietf:params:scim:api:messages:2.0:SearchRequest"

/-- A request for everything. -/
def everything : SearchRequest := ⟨[schema], none, none, none⟩

/-- A request for what satisfies a filter. -/
def filtered (filter : String) : SearchRequest := { everything with filter := some filter }

/-- The request for a part of the answer. -/
def paged (request : SearchRequest) (startIndex count : Nat) : SearchRequest :=
  { request with startIndex := some startIndex, count := some count }

/-- The names of the fields. -/
def keys : List String := ["schemas", "filter", "startIndex", "count"]

/-- Refuses a request that does not declare the schema of the message. -/
def validate (request : SearchRequest) : Except DirectoryError Unit :=
  if request.schemas.contains schema then .ok ()
  else .error (.invalidRequest ("search requests must declare the " ++ schema ++ " schema"))

/-- Writes an index. -/
def indexJson (n : Nat) : Json := .integer (Int.ofNat n)

/-- Writes a request. -/
def toJson (request : SearchRequest) : Json :=
  .object <|
    ("schemas", Json.texts request.schemas) ::
    Members.ofOption "filter" .text request.filter ++
    Members.ofOption "startIndex" indexJson request.startIndex ++
    Members.ofOption "count" indexJson request.count

/-- Reads a request. -/
def ofJson? (json : Json) : Option SearchRequest := do
  let ms ← json.members? keys
  return {
    schemas := ← ms.withDefault "schemas" [schema] (Json.list? Json.text?)
    filter := ← ms.optional "filter" Json.text?
    startIndex := ← ms.optional "startIndex" Json.index?
    count := ← ms.optional "count" Json.index? }

end SearchRequest

/-- A resource found by a search. -/
inductive Hit where
  /-- A user. -/
  | user (user : User)
  /-- A group. -/
  | group (group : Group)

namespace Hit

/-- Writes a resource. -/
def toJson : Hit → Json
  | .user u => u.toJson
  | .group g => g.toJson

/-- The name of a user or of a group. -/
def name : Hit → String
  | .user u => u.userName
  | .group g => g.displayName

end Hit

/-- The answer to a search. -/
structure ListResponse where
  /-- How many resources match. -/
  totalResults : Nat
  /-- The place of the first resource returned. -/
  startIndex : Nat
  /-- The resources returned. -/
  resources : List Hit

namespace ListResponse

/-- The schema of the message. -/
def schema : String := "urn:ietf:params:scim:api:messages:2.0:ListResponse"

/-- Writes an answer. -/
def toJson (response : ListResponse) : Json :=
  .object
    [("schemas", Json.texts [schema]),
      ("totalResults", SearchRequest.indexJson response.totalResults),
      ("itemsPerPage", SearchRequest.indexJson response.resources.length),
      ("startIndex", SearchRequest.indexJson response.startIndex),
      ("Resources", .array (response.resources.map Hit.toJson))]

end ListResponse
end ScimDirectory
