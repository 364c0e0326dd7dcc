import ScimDirectory.Resource.Item
import ScimDirectory.Resource.Meta
import ScimDirectory.Schema.Relation
import ScimDirectory.Text.Blank

/-!
# Users

A user as it is exchanged with clients. The password is read and never written. The identifier,
the groups and the metadata are the server's: they are read from a client and then ignored.
-/

namespace ScimDirectory

/-- A user. -/
structure User extends Profile where
  /-- The schemas that the user declares. -/
  schemas : List String
  /-- The identifier. -/
  id : Option String
  /-- The name the user signs in with. -/
  userName : String
  /-- The components of the user's name. -/
  name : Option PersonName
  /-- The collections of plain values. -/
  values : Collection → List MultiValue
  /-- The addresses. -/
  addresses : List Address
  /-- The groups that the user belongs to. -/
  groups : List GroupRef
  /-- The metadata. -/
  metadata : Option Meta

namespace User

/-- A user with nothing but a name to sign in with. -/
def named (userName : String) : User :=
  { Profile.empty with
    schemas := [ResourceType.user.schema], id := none, userName, name := none
    values := fun _ => [], addresses := [], groups := [], metadata := none }

/-- Refuses a collection with an item that lacks a value or with two preferred items. -/
def checkCollection (user : User) (c : Collection) : Except Violation Unit := do
  MultiValue.checkValues c.attributeName (user.values c)
  checkSinglePrimary c.attributeName ((user.values c).map MultiValue.isPrimary)

/-- Refuses a user that may not be stored. -/
def validate (user : User) : Except Violation Unit := do
  if Text.allBlank user.userName then throw (.missingRequired "userName")
  Collection.all.forM user.checkCollection
  checkSinglePrimary "addresses" (user.addresses.map Address.isPrimary)

/-- The names of the attributes in the order of the schema. -/
def keys : List String :=
  ["schemas", "id", "externalId", "userName", "name", "displayName", "nickName", "profileUrl",
    "title", "userType", "preferredLanguage", "locale", "timezone", "active", "password", "emails",
    "phoneNumbers", "ims", "photos", "addresses", "entitlements", "roles", "x509Certificates",
    "groups", "meta"]

/-- Writes a user without the password. -/
def toJson (user : User) : Json :=
  .object <|
    ("schemas", Json.texts user.schemas) ::
    Members.ofOption "id" .text user.id ++
    Members.ofOption "externalId" .text user.externalId ++
    ("userName", .text user.userName) ::
    Members.ofOption "name" PersonName.toJson user.name ++
    Members.ofOption "displayName" .text user.displayName ++
    Members.ofOption "nickName" .text user.nickName ++
    Members.ofOption "profileUrl" .text user.profileUrl ++
    Members.ofOption "title" .text user.title ++
    Members.ofOption "userType" .text user.userType ++
    Members.ofOption "preferredLanguage" .text user.preferredLanguage ++
    Members.ofOption "locale" .text user.locale ++
    Members.ofOption "timezone" .text user.timezone ++
    Members.ofOption "active" .bool user.active ++
    (Collection.all.flatMap fun c =>
      Members.ofList c.attributeName MultiValue.toJson (user.values c)) ++
    Members.ofList "addresses" Address.toJson user.addresses ++
    Members.ofList "groups" GroupRef.toJson user.groups ++
    Members.ofOption "meta" Meta.toJson user.metadata

/-- Reads the optional singular attributes. -/
def profile? (ms : Members) : Option Profile := do
  return {
    externalId := ← ms.optional "externalId" Json.text?
    displayName := ← ms.optional "displayName" Json.text?
    nickName := ← ms.optional "nickName" Json.text?
    profileUrl := ← ms.optional "profileUrl" Json.text?
    title := ← ms.optional "title" Json.text?
    userType := ← ms.optional "userType" Json.text?
    preferredLanguage := ← ms.optional "preferredLanguage" Json.text?
    locale := ← ms.optional "locale" Json.text?
    timezone := ← ms.optional "timezone" Json.text?
    active := ← ms.optional "active" Json.bool?
    password := ← ms.optional "password" Json.text? }

/-- Reads a collection of plain values, which is empty when it is missing. -/
def collection? (ms : Members) (c : Collection) : Option (List MultiValue) :=
  ms.withDefault c.attributeName [] (Json.list? MultiValue.ofJson?)

/-- Reads every collection of plain values. -/
def values? (ms : Members) : Option (Collection → List MultiValue) := do
  let emails ← collection? ms .emails
  let phoneNumbers ← collection? ms .phoneNumbers
  let ims ← collection? ms .ims
  let photos ← collection? ms .photos
  let entitlements ← collection? ms .entitlements
  let roles ← collection? ms .roles
  let x509Certificates ← collection? ms .x509Certificates
  return fun
    | .emails => emails
    | .phoneNumbers => phoneNumbers
    | .ims => ims
    | .photos => photos
    | .entitlements => entitlements
    | .roles => roles
    | .x509Certificates => x509Certificates

/-- Reads a user. -/
def ofJson? (json : Json) : Option User := do
  let ms ← json.members? keys
  return {
    ← profile? ms with
    schemas := ← ms.withDefault "schemas" [ResourceType.user.schema] (Json.list? Json.text?)
    id := ← ms.optional "id" Json.text?
    userName := ← ms.withDefault "userName" "" Json.text?
    name := ← ms.optional "name" PersonName.ofJson?
    values := ← values? ms
    addresses := ← ms.withDefault "addresses" [] (Json.list? Address.ofJson?)
    groups := ← ms.withDefault "groups" [] (Json.list? GroupRef.ofJson?)
    metadata := ← ms.optional "meta" Meta.ofJson? }

end User
end ScimDirectory
