import ScimDirectory.Schema.Column
import ScimDirectory.Schema.Relation

/-!
# Attributes

The attribute tables tie protocol names to storage: each resource type has a table of its
singular attributes and its relations, and each kind of item has a table of its sub-attributes.
A dotted name such as `name.givenName` is a sub-attribute of a complex singular attribute.
-/

namespace ScimDirectory

/-- How the values of a field are compared. -/
inductive Matching where
  /-- Texts that match whatever the case of their letters. -/
  | ignoringCase
  /-- Texts that match exactly. -/
  | exact
  /-- Truth values. -/
  | boolean
  deriving DecidableEq

/-- A singular attribute kept in one column. -/
structure Field where
  /-- The protocol name. -/
  name : String
  /-- The column. -/
  column : Column
  /-- How values are compared. -/
  matching : Matching
  /-- Whether a filter may name it. -/
  filterable : Bool
  deriving DecidableEq

namespace Field

/-- A text compared without regard to case. -/
def text (name : String) (column : Column) : Field := ⟨name, column, .ignoringCase, true⟩

/-- A text compared exactly. -/
def exact (name : String) (column : Column) : Field := ⟨name, column, .exact, true⟩

/-- A truth value. -/
def boolean (name : String) (column : Column) : Field := ⟨name, column, .boolean, true⟩

/-- The field barred from filters. -/
def hidden (field : Field) : Field := { field with filterable := false }

/-- Whether the values are texts. -/
def isText (field : Field) : Bool := field.matching ≠ .boolean

/-- Whether comparisons ignore case. -/
def foldsCase (field : Field) : Bool := field.matching = .ignoringCase

end Field

/-- What a name in an attribute table stands for. -/
inductive Entry where
  /-- A singular attribute. -/
  | field (field : Field)
  /-- A multi-valued attribute. -/
  | relation (relation : Relation)
  deriving DecidableEq

/-- The protocol name of an entry. -/
def Entry.name : Entry → String
  | .field f => f.name
  | .relation r => r.attributeName

/-- The attributes of a resource type, or the sub-attributes of one kind of item. -/
structure AttributeTable where
  /-- What the table describes, as messages call it. -/
  name : String
  /-- The entries. -/
  entries : List Entry

namespace AttributeTable

/-- The attributes of a user. -/
def user : AttributeTable where
  name := "User"
  entries :=
    [.field (.text "userName" .userName),
      .field (.exact "externalId" .externalId),
      .field (.text "displayName" .displayName),
      .field (.text "nickName" .nickName),
      .field (.exact "profileUrl" .profileUrl),
      .field (.text "title" .title),
      .field (.text "userType" .userType),
      .field (.text "preferredLanguage" .preferredLanguage),
      .field (.text "locale" .locale),
      .field (.text "timezone" .timezone),
      .field (.boolean "active" .active),
      .field (Field.exact "password" .password).hidden,
      .field (.text "name.formatted" .nameFormatted),
      .field (.text "name.familyName" .nameFamilyName),
      .field (.text "name.givenName" .nameGivenName),
      .field (.text "name.middleName" .nameMiddleName),
      .field (.text "name.honorificPrefix" .nameHonorificPrefix),
      .field (.text "name.honorificSuffix" .nameHonorificSuffix)] ++
      (Relation.ofType .user).map .relation

/-- The attributes of a group. -/
def group : AttributeTable where
  name := "Group"
  entries :=
    [.field (.text "displayName" .displayName),
      .field (.exact "externalId" .externalId)] ++
      (Relation.ofType .group).map .relation

/-- The sub-attributes of a plain value. -/
def value : AttributeTable where
  name := "multi-valued item"
  entries :=
    [.field (.text "value" .value),
      .field (.text "display" .display),
      .field (.text "type" .type),
      .field (.boolean "primary" .primary)]

/-- The sub-attributes of an address. -/
def address : AttributeTable where
  name := "address"
  entries :=
    [.field (.text "formatted" .formatted),
      .field (.text "streetAddress" .streetAddress),
      .field (.text "locality" .locality),
      .field (.text "region" .region),
      .field (.text "postalCode" .postalCode),
      .field (.text "country" .country),
      .field (.text "type" .type),
      .field (.boolean "primary" .primary)]

/-- The sub-attributes of a member. -/
def member : AttributeTable where
  name := "member"
  entries :=
    [.field (.exact "value" .value),
      .field (.exact "$ref" .ref),
      .field (.text "type" .type),
      .field (.text "display" .display)]

/-- The attributes of a resource type. -/
def ofType : ResourceType → AttributeTable
  | .user => user
  | .group => group

/-- The sub-attributes of a relation's items. -/
def ofItems : Relation → AttributeTable
  | .values _ => value
  | .addresses => address
  | .members => member

/-- The singular attributes in the order of the table. -/
def fields (table : AttributeTable) : List Field :=
  table.entries.filterMap fun
    | .field field => some field
    | .relation _ => none

end AttributeTable
end ScimDirectory
