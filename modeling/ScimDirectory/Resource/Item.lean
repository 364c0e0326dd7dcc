import ScimDirectory.Json.Members
import ScimDirectory.Resource.Violation
import ScimDirectory.Schema.ResourceType
import ScimDirectory.Store.Row

/-!
# Items of multi-valued attributes

The four shapes in which items are exchanged: plain values, addresses, members of a group, and
the groups that a user belongs to; and the name of a user, which has components like an item.
Absent sub-attributes are left out when an item is written.
-/

namespace ScimDirectory

/-- An item of a collection of plain values. -/
structure MultiValue where
  /-- The value. -/
  value : Option String
  /-- The text shown for the value. -/
  display : Option String
  /-- The type. -/
  type : Option String
  /-- Whether the item is the preferred one. -/
  primary : Option Bool
  deriving DecidableEq

namespace MultiValue

/-- The names of the sub-attributes. -/
def keys : List String := ["value", "display", "type", "primary"]

/-- An item with nothing but a value. -/
def ofValue (value : String) : MultiValue := ⟨some value, none, none, none⟩

/-- Whether the item is marked as the preferred one. -/
def isPrimary (item : MultiValue) : Bool := item.primary = some true

/-- Whether the item has a value that is not empty. -/
def hasValue (item : MultiValue) : Bool := item.value.any (· != "")

/-- Refuses items without a value. -/
def checkValues (attr : String) (items : List MultiValue) : Except Violation Unit :=
  if items.all hasValue then .ok () else .error (.missingRequiredSub attr "value")

/-- Writes an item. -/
def toJson (item : MultiValue) : Json :=
  .object <|
    Members.ofOption "value" .text item.value ++
    Members.ofOption "display" .text item.display ++
    Members.ofOption "type" .text item.type ++
    Members.ofOption "primary" .bool item.primary

/-- Reads an item. -/
def ofJson? (json : Json) : Option MultiValue := do
  let ms ← json.members? keys
  return {
    value := ← ms.optional "value" Json.text?
    display := ← ms.optional "display" Json.text?
    type := ← ms.optional "type" Json.text?
    primary := ← ms.optional "primary" Json.bool? }

end MultiValue

/-- A postal address. -/
structure Address where
  /-- The whole address. -/
  formatted : Option String
  /-- The street. -/
  streetAddress : Option String
  /-- The city. -/
  locality : Option String
  /-- The state. -/
  region : Option String
  /-- The postal code. -/
  postalCode : Option String
  /-- The country. -/
  country : Option String
  /-- The type. -/
  type : Option String
  /-- Whether the address is the preferred one. -/
  primary : Option Bool
  deriving DecidableEq

namespace Address

/-- The names of the sub-attributes. -/
def keys : List String :=
  ["formatted", "streetAddress", "locality", "region", "postalCode", "country", "type", "primary"]

/-- Whether the address is marked as the preferred one. -/
def isPrimary (address : Address) : Bool := address.primary = some true

/-- Whether the address has no part, its type and mark aside. -/
def isEmpty (address : Address) : Bool :=
  address.formatted.isNone && address.streetAddress.isNone && address.locality.isNone &&
    address.region.isNone && address.postalCode.isNone && address.country.isNone

/-- Writes an address. -/
def toJson (address : Address) : Json :=
  .object <|
    Members.ofOption "formatted" .text address.formatted ++
    Members.ofOption "streetAddress" .text address.streetAddress ++
    Members.ofOption "locality" .text address.locality ++
    Members.ofOption "region" .text address.region ++
    Members.ofOption "postalCode" .text address.postalCode ++
    Members.ofOption "country" .text address.country ++
    Members.ofOption "type" .text address.type ++
    Members.ofOption "primary" .bool address.primary

/-- Reads an address. -/
def ofJson? (json : Json) : Option Address := do
  let ms ← json.members? keys
  return {
    formatted := ← ms.optional "formatted" Json.text?
    streetAddress := ← ms.optional "streetAddress" Json.text?
    locality := ← ms.optional "locality" Json.text?
    region := ← ms.optional "region" Json.text?
    postalCode := ← ms.optional "postalCode" Json.text?
    country := ← ms.optional "country" Json.text?
    type := ← ms.optional "type" Json.text?
    primary := ← ms.optional "primary" Json.bool? }

end Address

/-- A member of a group. -/
structure Member where
  /-- The identifier of the member. -/
  value : String
  /-- The URL of the member. -/
  ref : Option String
  /-- The resource type of the member. -/
  type : Option String
  /-- The text shown for the member. -/
  display : Option String
  deriving DecidableEq

namespace Member

/-- The names of the sub-attributes. -/
def keys : List String := ["value", "$ref", "type", "display"]

/-- The types that a member may have. -/
def types : List String := ResourceType.all.map ResourceType.name

/-- A member of a given type. -/
def ofType (type : ResourceType) (value : String) : Member := ⟨value, none, some type.name, none⟩

/-- Whether the member is marked as a user. -/
def isUser (member : Member) : Bool := member.type = some ResourceType.user.name

/-- Refuses a member without a value or with another type. -/
def validate (member : Member) : Except Violation Unit :=
  if member.value = "" then .error (.missingRequiredSub "members" "value")
  else match member.type with
    | none => .ok ()
    | some type =>
      if types.contains type then .ok ()
      else .error (.invalidCanonical "members.type" type types)

/-- Writes a member. -/
def toJson (member : Member) : Json :=
  .object <|
    ("value", .text member.value) ::
    Members.ofOption "$ref" .text member.ref ++
    Members.ofOption "type" .text member.type ++
    Members.ofOption "display" .text member.display

/-- Reads a member. A missing value is read as the empty text. -/
def ofJson? (json : Json) : Option Member := do
  let ms ← json.members? keys
  return {
    value := ← ms.withDefault "value" "" Json.text?
    ref := ← ms.optional "$ref" Json.text?
    type := ← ms.optional "type" Json.text?
    display := ← ms.optional "display" Json.text? }

end Member

/-- A group that a user belongs to. -/
structure GroupRef where
  /-- The identifier of the group. -/
  value : String
  /-- The URL of the group. -/
  ref : Option String
  /-- The text shown for the group. -/
  display : Option String
  /-- How the user belongs to the group. -/
  type : Option String
  deriving DecidableEq

namespace GroupRef

/-- The names of the sub-attributes. -/
def keys : List String := ["value", "$ref", "display", "type"]

/-- Writes a reference to a group. -/
def toJson (group : GroupRef) : Json :=
  .object <|
    ("value", .text group.value) ::
    Members.ofOption "$ref" .text group.ref ++
    Members.ofOption "display" .text group.display ++
    Members.ofOption "type" .text group.type

/-- Reads a reference to a group. -/
def ofJson? (json : Json) : Option GroupRef := do
  let ms ← json.members? keys
  return {
    value := ← ms.required "value" Json.text?
    ref := ← ms.optional "$ref" Json.text?
    display := ← ms.optional "display" Json.text?
    type := ← ms.optional "type" Json.text? }

end GroupRef

namespace PersonName

/-- The names of the components. -/
def keys : List String :=
  ["formatted", "familyName", "givenName", "middleName", "honorificPrefix", "honorificSuffix"]

/-- A name of a given and a family name. -/
def simple (givenName familyName : String) : PersonName :=
  { empty with givenName := some givenName, familyName := some familyName }

/-- Writes a name. -/
def toJson (name : PersonName) : Json :=
  .object <|
    Members.ofOption "formatted" .text name.formatted ++
    Members.ofOption "familyName" .text name.familyName ++
    Members.ofOption "givenName" .text name.givenName ++
    Members.ofOption "middleName" .text name.middleName ++
    Members.ofOption "honorificPrefix" .text name.honorificPrefix ++
    Members.ofOption "honorificSuffix" .text name.honorificSuffix

/-- Reads a name. -/
def ofJson? (json : Json) : Option PersonName := do
  let ms ← json.members? keys
  return {
    formatted := ← ms.optional "formatted" Json.text?
    familyName := ← ms.optional "familyName" Json.text?
    givenName := ← ms.optional "givenName" Json.text?
    middleName := ← ms.optional "middleName" Json.text?
    honorificPrefix := ← ms.optional "honorificPrefix" Json.text?
    honorificSuffix := ← ms.optional "honorificSuffix" Json.text? }

end PersonName
end ScimDirectory
