import ScimDirectory.Directory.Config
import ScimDirectory.Store.Record

/-!
# Views

The passage between resources and records. A record keeps what a client may set; its view adds
the identifier, the metadata and, for a user, the groups. A member without a URL is given the one
of the resource it names.
-/

namespace ScimDirectory

/-- The item row of a plain value. -/
def MultiValue.toRow (item : MultiValue) (id : ItemId) (owner : Uuid) : ItemRow :=
  { ItemRow.blank id owner with
    value := item.value, display := item.display, type := item.type, primary := item.primary }

/-- The item row of an address. -/
def Address.toRow (address : Address) (id : ItemId) (owner : Uuid) : ItemRow :=
  { ItemRow.blank id owner with
    formatted := address.formatted, streetAddress := address.streetAddress
    locality := address.locality, region := address.region, postalCode := address.postalCode
    country := address.country, type := address.type, primary := address.primary }

namespace Member

/-- The resource type that a member is taken to have: a group only when it says so. -/
def target (member : Member) : ResourceType :=
  if member.type = some ResourceType.group.name then .group else .user

/-- The URL of a member. -/
def url (root : ServiceRoot) (member : Member) : String :=
  member.ref.getD (root.url member.target member.value)

/-- The item row of a member. -/
def toRow (root : ServiceRoot) (member : Member) (id : ItemId) (owner : Uuid) : ItemRow :=
  { ItemRow.blank id owner with
    value := some member.value, display := member.display, type := member.type
    ref := some (member.url root) }

end Member

namespace ItemRow

/-- The plain value of an item row. -/
def toValue (item : ItemRow) : MultiValue := ⟨item.value, item.display, item.type, item.primary⟩

/-- The address of an item row. -/
def toAddress (item : ItemRow) : Address :=
  ⟨item.formatted, item.streetAddress, item.locality, item.region, item.postalCode, item.country,
    item.type, item.primary⟩

/-- The member of an item row. -/
def toMember (item : ItemRow) : Member := ⟨item.value.getD "", item.ref, item.type, item.display⟩

end ItemRow

/-- Item rows for the items of a list, with keys of one draw. -/
def rowsOf {α : Type} (toRow : α → ItemId → Uuid → ItemRow) (draw : Nat) (owner : Uuid)
    (items : List α) : List ItemRow :=
  items.mapIdx fun place item => toRow item (.drawn draw place) owner

namespace User

/-- The item rows of a user's relation. -/
def itemRows (user : User) (draw : Nat) (owner : Uuid) : Relation → List ItemRow
  | .values c => rowsOf MultiValue.toRow draw owner (user.values c)
  | .addresses => rowsOf Address.toRow draw owner user.addresses
  | .members => []

/-- The row of a user. -/
def toRow (user : User) (id : Uuid) (etag : String) (created lastModified : Instant) : UserRow :=
  { user.toProfile with
    id, userName := user.userName, name := user.name.getD .empty, etag, created, lastModified }

/-- The record of a user. -/
def toRecord (user : User) (id : Uuid) (etag : String) (created lastModified : Instant)
    (draw : Nat) : Record .user :=
  ⟨user.toRow id etag created lastModified,
    childrenOf (Relation.ofType .user) (user.itemRows draw id)⟩

end User

namespace Group

/-- The row of a group. -/
def toRow (group : Group) (id : Uuid) (etag : String) (created lastModified : Instant) :
    GroupRow :=
  { id, displayName := group.displayName, externalId := group.externalId, etag, created
    lastModified }

/-- The item rows of a group's relation. -/
def itemRows (root : ServiceRoot) (group : Group) (draw : Nat) (owner : Uuid) :
    Relation → List ItemRow
  | .members => rowsOf (Member.toRow root) draw owner group.members
  | _ => []

/-- The record of a group. -/
def toRecord (root : ServiceRoot) (group : Group) (id : Uuid) (etag : String)
    (created lastModified : Instant) (draw : Nat) : Record .group :=
  ⟨group.toRow id etag created lastModified,
    childrenOf (Relation.ofType .group) (group.itemRows root draw id)⟩

end Group

namespace Row

variable {type : ResourceType}

/-- The metadata of a row. An empty version is none. -/
def metadata (root : ServiceRoot) (row : Row type) : Meta :=
  { resourceType := type.name, created := row.created, lastModified := row.lastModified
    location := some (root.url type row.id.toText)
    version := if row.etag = "" then none else some row.etag }

end Row

/-- The reference to a group in the groups of a user. -/
def GroupRow.toRef (root : ServiceRoot) (row : GroupRow) : GroupRef :=
  { value := row.id.toText, ref := some (root.url .group row.id.toText)
    display := some row.displayName, type := some "direct" }

/-- The view of a user's record, given the groups. The password is not shown. -/
def userView (root : ServiceRoot) (groups : List GroupRef) (record : Record .user) : User :=
  let row : UserRow := record.row
  { row.toProfile with
    password := none
    schemas := [ResourceType.user.schema]
    id := some row.id.toText
    userName := row.userName
    name := if row.name.isEmpty then none else some row.name
    values := fun c => (record.items (.values c)).map ItemRow.toValue
    addresses := (record.items .addresses).map ItemRow.toAddress
    groups
    metadata := some (Row.metadata root record.row) }

/-- The view of a group's record. -/
def groupView (root : ServiceRoot) (record : Record .group) : Group :=
  let row : GroupRow := record.row
  { schemas := [ResourceType.group.schema]
    id := some row.id.toText
    externalId := row.externalId
    displayName := row.displayName
    members := (record.items .members).map ItemRow.toMember
    metadata := some (Row.metadata root record.row) }

end ScimDirectory
