import ScimDirectory.Instant
import ScimDirectory.Schema.Column
import ScimDirectory.Schema.ResourceType
import ScimDirectory.Store.Call
import ScimDirectory.Store.Scalar
import ScimDirectory.Uuid

/-!
# Rows

A user and a group are one row each, and every item of a multi-valued attribute is a row that
names its owner. Rows are read and written by column, so that predicates and operations need not
know the kind of row. A column is written in place; writing a column that the table lacks, or a
value that the column does not hold, is refused.
-/

namespace ScimDirectory

/-- The components of a person's name. -/
structure PersonName where
  /-- The whole name as it is shown. -/
  formatted : Option String
  /-- The family name. -/
  familyName : Option String
  /-- The given name. -/
  givenName : Option String
  /-- The middle name. -/
  middleName : Option String
  /-- The title before the name. -/
  honorificPrefix : Option String
  /-- The addition after the name. -/
  honorificSuffix : Option String
  deriving DecidableEq

/-- A name with no component. -/
def PersonName.empty : PersonName := ⟨none, none, none, none, none, none⟩

/-- Whether a name has no component. -/
def PersonName.isEmpty (name : PersonName) : Bool := name = .empty

/-- The optional singular attributes of a user, the name aside. -/
structure Profile where
  /-- The identifier that the client keeps. -/
  externalId : Option String
  /-- The name shown for the user. -/
  displayName : Option String
  /-- The nickname. -/
  nickName : Option String
  /-- The URL of the profile. -/
  profileUrl : Option String
  /-- The title. -/
  title : Option String
  /-- The relationship to the organisation. -/
  userType : Option String
  /-- The preferred language. -/
  preferredLanguage : Option String
  /-- The locale. -/
  locale : Option String
  /-- The time zone. -/
  timezone : Option String
  /-- Whether the user is active. -/
  active : Option Bool
  /-- The password. -/
  password : Option String
  deriving DecidableEq

/-- A profile without attributes. -/
def Profile.empty : Profile :=
  ⟨none, none, none, none, none, none, none, none, none, none, none⟩

/-- A row of the users table. -/
structure UserRow extends Profile where
  /-- The primary key. -/
  id : Uuid
  /-- The name the user signs in with. -/
  userName : String
  /-- The components of the user's name. -/
  name : PersonName
  /-- The version of the resource, empty before it has one. -/
  etag : String
  /-- When the row was made. -/
  created : Instant
  /-- When the row was last changed. -/
  lastModified : Instant
  deriving DecidableEq

/-- A row of the groups table. -/
structure GroupRow where
  /-- The primary key. -/
  id : Uuid
  /-- The name shown for the group. -/
  displayName : String
  /-- The identifier that the client keeps. -/
  externalId : Option String
  /-- The version of the resource, empty before it has one. -/
  etag : String
  /-- When the row was made. -/
  created : Instant
  /-- When the row was last changed. -/
  lastModified : Instant
  deriving DecidableEq

/-- The key of an item. A key that is drawn is known by the number of the draw and the place in
it, so that no two draws agree. -/
inductive ItemId where
  /-- A key that was given. -/
  | given (id : Uuid)
  /-- A key that was drawn. -/
  | drawn (draw place : Nat)
  deriving DecidableEq

/-- The text of a key. A drawn key has none of its own. -/
def ItemId.toText : ItemId → String
  | .given id => id.toText
  | .drawn .. => "*"

/-- A row of one of the item tables. Only addresses use the address columns and only members use
the reference. -/
structure ItemRow where
  /-- The primary key. -/
  id : ItemId
  /-- The key of the resource that owns the item. -/
  owner : Uuid
  /-- The value. -/
  value : Option String
  /-- The text shown for the value. -/
  display : Option String
  /-- The type. -/
  type : Option String
  /-- Whether the item is the preferred one. -/
  primary : Option Bool
  /-- The URL of a member. -/
  ref : Option String
  /-- The whole address. -/
  formatted : Option String
  /-- The street. -/
  streetAddress : Option String
  /-- The city. -/
  locality : Option String
  /-- The state. -/
  region : Option String
  /-- The postal code. -/
  postalCode : Option String
  /-- The country. -/
  country : Option String
  deriving DecidableEq

/-- A user with nothing but the required columns. -/
def UserRow.named (id : Uuid) (userName : String) (created : Instant) : UserRow :=
  { Profile.empty with
    id, userName, name := .empty, etag := "", created, lastModified := created }

/-- A group with nothing but the required columns. -/
def GroupRow.named (id : Uuid) (displayName : String) (created : Instant) : GroupRow :=
  { id, displayName, externalId := none, etag := "", created, lastModified := created }

/-- An item without values. -/
def ItemRow.blank (id : ItemId) (owner : Uuid) : ItemRow :=
  ⟨id, owner, none, none, none, none, none, none, none, none, none, none, none⟩

namespace ItemRow

/-- Whether the item is marked as the preferred one. -/
def isPrimary (item : ItemRow) : Bool := item.primary = some true

/-- What tells plain values and members apart. -/
def identity (item : ItemRow) : Option String × Option String × Option String :=
  (item.ref, item.type, item.value)

/-- What tells addresses apart. -/
def addressParts (item : ItemRow) : List (Option String) :=
  [item.formatted, item.streetAddress, item.locality, item.region, item.postalCode, item.country,
    item.type]

end ItemRow

/-- A column read as text. -/
def textCell (value : Option String) : Option (Option Scalar) := some (value.map .text)

/-- A column read as a truth value. -/
def boolCell (value : Option Bool) : Option (Option Scalar) := some (value.map .bool)

/-- Sets a column of texts. -/
def setText (table : String) (column : Column) : Option Scalar → Call (Option String) Unit
  | some (.text s) => Call.change fun _ => some s
  | none => Call.change fun _ => none
  | some (.bool _) =>
    throw (.invalidData (table ++ "." ++ column.name ++ " holds text, got a boolean"))

/-- Sets a column of truth values. -/
def setBool (table : String) (column : Column) : Option Scalar → Call (Option Bool) Unit
  | some (.bool b) => Call.change fun _ => some b
  | none => Call.change fun _ => none
  | some (.text _) =>
    throw (.invalidData (table ++ "." ++ column.name ++ " holds a boolean, got text"))

/-- Sets a column that must hold a text with at least one character. -/
def setRequired (table : String) (column : Column) : Option Scalar → Call String Unit
  | some (.text s) =>
    if s = "" then throw (.invalidData (table ++ "." ++ column.name ++ " must be non-empty text"))
    else Call.change fun _ => s
  | _ => throw (.invalidData (table ++ "." ++ column.name ++ " must be non-empty text"))

/-- What a row becomes when it is written, or why it cannot be. -/
def Call.outcome {ρ : Type} (write : Call ρ Unit) (row : ρ) : Except StoreError ρ :=
  match write.run row with
  | (.ok (), new) => .ok new
  | (.error error, _) => .error error

/-- Reads a user's column; none when the table has no such column. -/
def UserRow.cell (row : UserRow) : Column → Option (Option Scalar)
  | .userName => textCell (some row.userName)
  | .externalId => textCell row.externalId
  | .displayName => textCell row.displayName
  | .nickName => textCell row.nickName
  | .profileUrl => textCell row.profileUrl
  | .title => textCell row.title
  | .userType => textCell row.userType
  | .preferredLanguage => textCell row.preferredLanguage
  | .locale => textCell row.locale
  | .timezone => textCell row.timezone
  | .active => boolCell row.active
  | .password => textCell row.password
  | .nameFormatted => textCell row.name.formatted
  | .nameFamilyName => textCell row.name.familyName
  | .nameGivenName => textCell row.name.givenName
  | .nameMiddleName => textCell row.name.middleName
  | .nameHonorificPrefix => textCell row.name.honorificPrefix
  | .nameHonorificSuffix => textCell row.name.honorificSuffix
  | _ => none

/-- The part of a user's row that a column of texts stands for. -/
def UserRow.textSlot? : Column → Option (Slot UserRow (Option String))
  | .externalId => some (.mk (·.externalId) fun row s => { row with externalId := s })
  | .displayName => some (.mk (·.displayName) fun row s => { row with displayName := s })
  | .nickName => some (.mk (·.nickName) fun row s => { row with nickName := s })
  | .profileUrl => some (.mk (·.profileUrl) fun row s => { row with profileUrl := s })
  | .title => some (.mk (·.title) fun row s => { row with title := s })
  | .userType => some (.mk (·.userType) fun row s => { row with userType := s })
  | .preferredLanguage =>
    some (.mk (·.preferredLanguage) fun row s => { row with preferredLanguage := s })
  | .locale => some (.mk (·.locale) fun row s => { row with locale := s })
  | .timezone => some (.mk (·.timezone) fun row s => { row with timezone := s })
  | .password => some (.mk (·.password) fun row s => { row with password := s })
  | .nameFormatted => some (.mk (·.name.formatted) fun row s => { row with name.formatted := s })
  | .nameFamilyName =>
    some (.mk (·.name.familyName) fun row s => { row with name.familyName := s })
  | .nameGivenName => some (.mk (·.name.givenName) fun row s => { row with name.givenName := s })
  | .nameMiddleName =>
    some (.mk (·.name.middleName) fun row s => { row with name.middleName := s })
  | .nameHonorificPrefix =>
    some (.mk (·.name.honorificPrefix) fun row s => { row with name.honorificPrefix := s })
  | .nameHonorificSuffix =>
    some (.mk (·.name.honorificSuffix) fun row s => { row with name.honorificSuffix := s })
  | _ => none

/-- Writes a user's column. -/
def UserRow.write (column : Column) (value : Option Scalar) : Call UserRow Unit :=
  match column with
  | .userName =>
    Slot.call (.mk (·.userName) fun row s => { row with userName := s })
      (setRequired "users" column value)
  | .active =>
    Slot.call (.mk (·.active) fun row b => { row with active := b }) (setBool "users" column value)
  | _ =>
    match textSlot? column with
    | some slot => slot.call (setText "users" column value)
    | none => throw (.unknownColumn "users" column.name)

/-- Reads a group's column; none when the table has no such column. -/
def GroupRow.cell (row : GroupRow) : Column → Option (Option Scalar)
  | .displayName => textCell (some row.displayName)
  | .externalId => textCell row.externalId
  | _ => none

/-- Writes a group's column. -/
def GroupRow.write (column : Column) (value : Option Scalar) : Call GroupRow Unit :=
  match column with
  | .displayName =>
    Slot.call (.mk (·.displayName) fun row s => { row with displayName := s })
      (setRequired "groups" column value)
  | .externalId =>
    Slot.call (.mk (·.externalId) fun row s => { row with externalId := s })
      (setText "groups" column value)
  | _ => throw (.unknownColumn "groups" column.name)

/-- Reads an item's column; none when item tables have no such column. -/
def ItemRow.cell (item : ItemRow) : Column → Option (Option Scalar)
  | .value => textCell item.value
  | .display => textCell item.display
  | .type => textCell item.type
  | .primary => boolCell item.primary
  | .ref => textCell item.ref
  | .formatted => textCell item.formatted
  | .streetAddress => textCell item.streetAddress
  | .locality => textCell item.locality
  | .region => textCell item.region
  | .postalCode => textCell item.postalCode
  | .country => textCell item.country
  | _ => none

/-- The part of an item that a column of texts stands for. -/
def ItemRow.textSlot? : Column → Option (Slot ItemRow (Option String))
  | .value => some (.mk (·.value) fun item s => { item with value := s })
  | .display => some (.mk (·.display) fun item s => { item with display := s })
  | .type => some (.mk (·.type) fun item s => { item with type := s })
  | .ref => some (.mk (·.ref) fun item s => { item with ref := s })
  | .formatted => some (.mk (·.formatted) fun item s => { item with formatted := s })
  | .streetAddress => some (.mk (·.streetAddress) fun item s => { item with streetAddress := s })
  | .locality => some (.mk (·.locality) fun item s => { item with locality := s })
  | .region => some (.mk (·.region) fun item s => { item with region := s })
  | .postalCode => some (.mk (·.postalCode) fun item s => { item with postalCode := s })
  | .country => some (.mk (·.country) fun item s => { item with country := s })
  | _ => none

/-- Writes an item's column. -/
def ItemRow.write (column : Column) (value : Option Scalar) : Call ItemRow Unit :=
  match column with
  | .primary =>
    Slot.call (.mk (·.primary) fun item b => { item with primary := b })
      (setBool "items" column value)
  | _ =>
    match textSlot? column with
    | some slot => slot.call (setText "items" column value)
    | none => throw (.unknownColumn "items" column.name)

/-- An item with another content in a column. -/
def ItemRow.assign (item : ItemRow) (column : Column) (value : Option Scalar) :
    Except StoreError ItemRow := (write column value).outcome item

/-- The row of a resource type. -/
abbrev Row : ResourceType → Type
  | .user => UserRow
  | .group => GroupRow

namespace Row

/-- The primary key. -/
def id : {type : ResourceType} → Row type → Uuid
  | .user, row => UserRow.id row
  | .group, row => GroupRow.id row

/-- The version. -/
def etag : {type : ResourceType} → Row type → String
  | .user, row => UserRow.etag row
  | .group, row => GroupRow.etag row

/-- When the row was made. -/
def created : {type : ResourceType} → Row type → Instant
  | .user, row => UserRow.created row
  | .group, row => GroupRow.created row

/-- When the row was last changed. -/
def lastModified : {type : ResourceType} → Row type → Instant
  | .user, row => UserRow.lastModified row
  | .group, row => GroupRow.lastModified row

/-- The row with another version. -/
def withEtag : {type : ResourceType} → Row type → String → Row type
  | .user, row, etag => { (row : UserRow) with etag }
  | .group, row, etag => { (row : GroupRow) with etag }

/-- The row with another time of change. -/
def withLastModified : {type : ResourceType} → Row type → Instant → Row type
  | .user, row, lastModified => { (row : UserRow) with lastModified }
  | .group, row, lastModified => { (row : GroupRow) with lastModified }

/-- Reads a column; none when the table has no such column. -/
def cell : {type : ResourceType} → Row type → Column → Option (Option Scalar)
  | .user, row, column => UserRow.cell row column
  | .group, row, column => GroupRow.cell row column

/-- Writes a column. -/
def write : {type : ResourceType} → Column → Option Scalar → Call (Row type) Unit
  | .user, column, value => UserRow.write column value
  | .group, column, value => GroupRow.write column value

/-- The row with another content in a column. -/
def assign {type : ResourceType} (row : Row type) (column : Column) (value : Option Scalar) :
    Except StoreError (Row type) := (write column value).outcome row

/-- The name that no two rows of a type may share, whatever the case of its letters; groups may
share names. -/
def uniqueName? : {type : ResourceType} → Row type → Option String
  | .user, row => some (UserRow.userName row)
  | .group, _ => none

end Row
end ScimDirectory
