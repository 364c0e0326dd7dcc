import ScimDirectory.Digest.Base64
import ScimDirectory.Digest.Sha256
import ScimDirectory.Resource.Group
import ScimDirectory.Resource.User
import ScimDirectory.Text.Truth
import ScimDirectory.Version.EntityTag

/-!
# Stamps

The version of a resource is a digest of its content under a salt. The content is a sequence of
bytes in which every part says how far it goes: an optional text starts with a byte that tells
whether it is there, a text that is there follows its length, a list follows its number of items,
and an item ends with a byte that tells whether it is the preferred one.
-/

namespace ScimDirectory.Stamp

/-- Bytes of content. -/
abbrev Bytes := List UInt8

/-- The bytes of a text in UTF-8. -/
def utf8 (s : String) : Bytes := s.toUTF8.data.toList

/-- A length or a number of items, in eight bytes, the most significant first. -/
def count (n : Nat) : Bytes := Digest.bytesOfLength n

/-- An optional text. -/
def text : Option String → Bytes
  | none => [0]
  | some s => 1 :: count (utf8 s).length ++ utf8 s

/-- A mark. -/
def flag (set : Bool) : Bytes := [if set then 1 else 0]

/-- A list of items. -/
def items {α : Type} (item : α → Bytes) (values : List α) : Bytes :=
  count values.length ++ values.flatMap item

/-- The components of a name. An absent name counts as one without components. -/
def name (name : Option PersonName) : Bytes :=
  let name := name.getD .empty
  text name.formatted ++ text name.familyName ++ text name.givenName ++ text name.middleName ++
    text name.honorificPrefix ++ text name.honorificSuffix

/-- A plain value. -/
def value (item : MultiValue) : Bytes :=
  text item.value ++ text item.display ++ text item.type ++ flag item.isPrimary

/-- An address. -/
def address (address : Address) : Bytes :=
  text address.formatted ++ text address.streetAddress ++ text address.locality ++
    text address.region ++ text address.postalCode ++ text address.country ++ text address.type ++
    flag address.isPrimary

/-- A member. -/
def member (member : Member) : Bytes :=
  text (some member.value) ++ text member.display ++ text member.type ++ text member.ref ++
    flag false

/-- The content of a user. -/
def user (user : User) : Bytes :=
  text (some user.userName) ++ text user.externalId ++ text user.displayName ++
    text user.nickName ++ text user.profileUrl ++ text user.title ++ text user.userType ++
    text user.preferredLanguage ++ text user.locale ++ text user.timezone ++
    text (user.active.map Text.truth) ++ text user.password ++ name user.name ++
    items value (user.values .emails) ++ items value (user.values .phoneNumbers) ++
    items value (user.values .ims) ++ items value (user.values .photos) ++
    items address user.addresses ++ items value (user.values .entitlements) ++
    items value (user.values .roles) ++ items value (user.values .x509Certificates)

/-- The content of a group. -/
def group (group : Group) : Bytes :=
  text (some group.displayName) ++ text group.externalId ++ items member group.members

/-- The version of content under a salt. -/
def tag (salt content : Bytes) : EntityTag := ⟨Digest.base64 (Digest.sha256 (salt ++ content))⟩

/-- The version of a user. -/
def userTag (salt : Bytes) (u : User) : EntityTag := tag salt (user u)

/-- The version of a group. -/
def groupTag (salt : Bytes) (g : Group) : EntityTag := tag salt (group g)

/-- What is told about a salt, its length only. -/
def saltSummary (salt : Bytes) : String :=
  "EtagComputer \x7b salt_len: " ++ toString salt.length ++ " \x7d"

end ScimDirectory.Stamp
