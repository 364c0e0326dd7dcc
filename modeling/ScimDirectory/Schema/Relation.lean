import ScimDirectory.Schema.ResourceType

/-!
# Relations

A multi-valued attribute is a relation between a resource and its items. Seven attributes of a
user share one shape of item, the plain value; addresses and the members of a group have shapes
of their own.
-/

namespace ScimDirectory

/-- A multi-valued attribute of a user whose items are plain values. -/
inductive Collection where
  /-- Mail addresses. -/
  | emails
  /-- Telephone numbers. -/
  | phoneNumbers
  /-- Instant messaging addresses. -/
  | ims
  /-- URLs of photographs. -/
  | photos
  /-- Entitlements. -/
  | entitlements
  /-- Roles. -/
  | roles
  /-- X.509 certificates. -/
  | x509Certificates
  deriving DecidableEq

namespace Collection

/-- The collections in the order of the user schema. -/
def all : List Collection :=
  [.emails, .phoneNumbers, .ims, .photos, .entitlements, .roles, .x509Certificates]

/-- The attribute name. -/
def attributeName : Collection → String
  | .emails => "emails"
  | .phoneNumbers => "phoneNumbers"
  | .ims => "ims"
  | .photos => "photos"
  | .entitlements => "entitlements"
  | .roles => "roles"
  | .x509Certificates => "x509Certificates"

/-- The storage table of the items. -/
def table : Collection → String
  | .emails => "emails"
  | .phoneNumbers => "phone_numbers"
  | .ims => "ims"
  | .photos => "photos"
  | .entitlements => "entitlements"
  | .roles => "roles"
  | .x509Certificates => "x509_certificates"

end Collection

/-- A multi-valued attribute. -/
inductive Relation where
  /-- A user's collection of plain values. -/
  | values (collection : Collection)
  /-- A user's addresses. -/
  | addresses
  /-- A group's members. -/
  | members
  deriving DecidableEq

namespace Relation

/-- The relations of a resource type, in the order of its schema. -/
def ofType : ResourceType → List Relation
  | .user =>
    [.values .emails, .values .phoneNumbers, .values .ims, .values .photos, .addresses,
      .values .entitlements, .values .roles, .values .x509Certificates]
  | .group => [.members]

/-- Every relation. -/
def all : List Relation := ofType .user ++ ofType .group

/-- The attribute name. -/
def attributeName : Relation → String
  | .values c => c.attributeName
  | .addresses => "addresses"
  | .members => "members"

/-- The relation of an attribute name. -/
def named? (name : String) : Option Relation := all.find? (·.attributeName == name)

/-- The storage table of the items. -/
def table : Relation → String
  | .values c => c.table
  | .addresses => "addresses"
  | .members => "group_members"

/-- The resource type that owns the items. -/
def owner : Relation → ResourceType
  | .members => .group
  | _ => .user

end Relation
end ScimDirectory
