import ScimDirectory.Schema.ResourceType

/-!
# Columns

Columns are known by their storage name. Tables may share a column: a user and a group both
have a display name, and each kind of item has a type.
-/

namespace ScimDirectory

/-- A storage column. -/
inductive Column where
  /-- The name a user signs in with. -/
  | userName
  /-- The identifier that the client keeps. -/
  | externalId
  /-- The name shown for a user or a group. -/
  | displayName
  /-- A user's nickname. -/
  | nickName
  /-- The URL of a user's profile. -/
  | profileUrl
  /-- A user's title. -/
  | title
  /-- A user's relationship to the organisation. -/
  | userType
  /-- A user's preferred language. -/
  | preferredLanguage
  /-- A user's locale. -/
  | locale
  /-- A user's time zone. -/
  | timezone
  /-- Whether a user is active. -/
  | active
  /-- A user's password. -/
  | password
  /-- The whole of a user's name. -/
  | nameFormatted
  /-- The family name. -/
  | nameFamilyName
  /-- The given name. -/
  | nameGivenName
  /-- The middle name. -/
  | nameMiddleName
  /-- The title before a name. -/
  | nameHonorificPrefix
  /-- The addition after a name. -/
  | nameHonorificSuffix
  /-- An item's value. -/
  | value
  /-- An item's display text. -/
  | display
  /-- An item's type. -/
  | type
  /-- Whether an item is the preferred one. -/
  | primary
  /-- The URL of a member. -/
  | ref
  /-- The whole of an address. -/
  | formatted
  /-- The street of an address. -/
  | streetAddress
  /-- The city of an address. -/
  | locality
  /-- The state of an address. -/
  | region
  /-- The postal code of an address. -/
  | postalCode
  /-- The country of an address. -/
  | country
  /-- A column that no table has. -/
  | other (name : String)
  deriving DecidableEq

namespace Column

/-- The storage name. -/
def name : Column → String
  | .userName => "user_name"
  | .externalId => "external_id"
  | .displayName => "display_name"
  | .nickName => "nick_name"
  | .profileUrl => "profile_url"
  | .title => "title"
  | .userType => "user_type"
  | .preferredLanguage => "preferred_language"
  | .locale => "locale"
  | .timezone => "timezone"
  | .active => "active"
  | .password => "password"
  | .nameFormatted => "name_formatted"
  | .nameFamilyName => "name_family_name"
  | .nameGivenName => "name_given_name"
  | .nameMiddleName => "name_middle_name"
  | .nameHonorificPrefix => "name_honorific_prefix"
  | .nameHonorificSuffix => "name_honorific_suffix"
  | .value => "value"
  | .display => "display"
  | .type => "type"
  | .primary => "primary"
  | .ref => "ref"
  | .formatted => "formatted"
  | .streetAddress => "street_address"
  | .locality => "locality"
  | .region => "region"
  | .postalCode => "postal_code"
  | .country => "country"
  | .other name => name

/-- The columns of the users table. -/
def ofUser : List Column :=
  [.userName, .externalId, .displayName, .nickName, .profileUrl, .title, .userType,
    .preferredLanguage, .locale, .timezone, .active, .password, .nameFormatted,
    .nameFamilyName, .nameGivenName, .nameMiddleName, .nameHonorificPrefix,
    .nameHonorificSuffix]

/-- The columns of the groups table. -/
def ofGroup : List Column := [.displayName, .externalId]

/-- The columns of the table of a resource type. -/
def ofType : ResourceType → List Column
  | .user => ofUser
  | .group => ofGroup

/-- The columns of every table of items. -/
def ofItem : List Column :=
  [.value, .display, .type, .primary, .ref, .formatted, .streetAddress, .locality, .region,
    .postalCode, .country]

/-- The column of a storage name. -/
def named (name : String) : Column :=
  ((ofUser ++ ofItem).find? (·.name == name)).getD (.other name)

end Column
end ScimDirectory
