import ScimDirectory.Resource.Item
import ScimDirectory.Resource.Meta
import ScimDirectory.Text.Blank

/-!
# Groups

A group as it is exchanged with clients. The identifier and the metadata are the server's.
-/

namespace ScimDirectory

/-- A group. -/
structure Group where
  /-- The schemas that the group declares. -/
  schemas : List String
  /-- The identifier. -/
  id : Option String
  /-- The identifier that the client keeps. -/
  externalId : Option String
  /-- The name shown for the group. -/
  displayName : String
  /-- The members. -/
  members : List Member
  /-- The metadata. -/
  metadata : Option Meta
  deriving DecidableEq

namespace Group

/-- A group with nothing but a name. -/
def named (displayName : String) : Group :=
  { schemas := [ResourceType.group.schema], id := none, externalId := none, displayName
    members := [], metadata := none }

/-- Refuses a group that may not be stored. -/
def validate (group : Group) : Except Violation Unit := do
  if Text.allBlank group.displayName then throw (.missingRequired "displayName")
  group.members.forM Member.validate

/-- The names of the attributes in the order of the schema. -/
def keys : List String := ["schemas", "id", "externalId", "displayName", "members", "meta"]

/-- Writes a group. -/
def toJson (group : Group) : Json :=
  .object <|
    ("schemas", Json.texts group.schemas) ::
    Members.ofOption "id" .text group.id ++
    Members.ofOption "externalId" .text group.externalId ++
    ("displayName", .text group.displayName) ::
    Members.ofList "members" Member.toJson group.members ++
    Members.ofOption "meta" Meta.toJson group.metadata

/-- Reads a group. -/
def ofJson? (json : Json) : Option Group := do
  let ms ← json.members? keys
  return {
    schemas := ← ms.withDefault "schemas" [ResourceType.group.schema] (Json.list? Json.text?)
    id := ← ms.optional "id" Json.text?
    externalId := ← ms.optional "externalId" Json.text?
    displayName := ← ms.withDefault "displayName" "" Json.text?
    members := ← ms.withDefault "members" [] (Json.list? Member.ofJson?)
    metadata := ← ms.optional "meta" Meta.ofJson? }

end Group
end ScimDirectory
