import ScimDirectory.Predicate.Evaluate
import ScimDirectory.Store.Record

/-!
# Tables

Storage in memory: a table of users, a table of groups, and for each relation a list of items that
is made when it is first asked for. User names are unique whatever the case of their letters, and an
item can only be linked to an owner that exists.
-/

namespace ScimDirectory

/-- The stored rows. A row of a user or of a group is kept under its own `id`: it is found, put and
dropped by it, so a key that finds a row is the row's own. -/
structure Tables where
  /-- The users. -/
  users : List UserRow
  /-- The groups. -/
  groups : List GroupRow
  /-- The items, each with the relation that it belongs to, oldest first. -/
  items : List (Relation × ItemRow)
  /-- The relations that have been given a list of items, which may have become empty. -/
  lists : List Relation
  deriving DecidableEq

namespace Tables

/-- No rows at all. -/
def empty : Tables := ⟨[], [], [], []⟩

/-- The rows of a resource type. -/
def rows (tables : Tables) : (type : ResourceType) → List (Row type)
  | .user => tables.users
  | .group => tables.groups

/-- The tables with other rows of a resource type. -/
def withRows (tables : Tables) : (type : ResourceType) → List (Row type) → Tables
  | .user, rows => { tables with users := rows }
  | .group, rows => { tables with groups := rows }

/-- The items of a relation. -/
def itemsOf (tables : Tables) (relation : Relation) : List ItemRow :=
  tables.items.filterMap fun (r, item) => if r = relation then some item else none

/-- The items of a relation that an owner has. -/
def ownedItems (tables : Tables) (owner : Uuid) (relation : Relation) : List ItemRow :=
  (tables.itemsOf relation).filter (·.owner = owner)

/-- The row with a key. -/
def find? (tables : Tables) (type : ResourceType) (id : Uuid) : Option (Row type) :=
  (tables.rows type).find? (·.id = id)

/-- Whether a row with a key is there. -/
def has (tables : Tables) (type : ResourceType) (id : Uuid) : Bool := (tables.find? type id).isSome

/-- Rows in which a row has taken the place of the one with its key, or has come last. -/
def putRow {type : ResourceType} (row : Row type) : List (Row type) → List (Row type)
  | [] => [row]
  | other :: rest => if other.id = row.id then row :: rest else other :: putRow row rest

/-- The tables with a row in the place of the one with its key, or as a new row. -/
def put {type : ResourceType} (tables : Tables) (row : Row type) : Tables :=
  tables.withRows type (putRow row (tables.rows type))

/-- The tables without the row with a key. -/
def dropRow (tables : Tables) (type : ResourceType) (id : Uuid) : Tables :=
  tables.withRows type ((tables.rows type).filter (·.id ≠ id))

/-- Whether a relation has a list of items. One with items has it. -/
def hasList (tables : Tables) (relation : Relation) : Bool :=
  tables.lists.contains relation || !(tables.itemsOf relation).isEmpty

/-- The tables with a list of items for a relation, a new one if it has none. -/
def withList (tables : Tables) (relation : Relation) : Tables :=
  if tables.hasList relation then tables else { tables with lists := relation :: tables.lists }

/-- The tables with a new item, which comes last in its relation. -/
def link (tables : Tables) (relation : Relation) (item : ItemRow) : Tables :=
  { tables with items := tables.items ++ [(relation, item)] }

/-- The tables without the items of a relation that a test picks. -/
def without (tables : Tables) (relation : Relation) (test : ItemRow → Bool) : Tables :=
  { tables with items := tables.items.filter fun (r, item) => ¬(r = relation ∧ test item) }

/-- A row with the items it owns. -/
def record {type : ResourceType} (tables : Tables) (row : Row type) : Record type :=
  ⟨row, childrenOf (Relation.ofType type) (tables.ownedItems row.id)⟩

/-- The view of a stored row. -/
def view {type : ResourceType} (tables : Tables) (row : Row type) : RowView :=
  row.view (tables.ownedItems row.id)

/-- Whether a name is another row's, whatever the case of its letters. -/
def nameTaken {type : ResourceType} (tables : Tables) (row : Row type) : Bool :=
  match row.uniqueName? with
  | none => false
  | some name => (tables.rows type).any fun other =>
    other.id ≠ row.id && other.uniqueName?.any fun taken =>
      Text.lowercase taken == Text.lowercase name

/-- Refuses a row whose name is another row's. -/
def checkName {type : ResourceType} (tables : Tables) (row : Row type) : Except StoreError Unit :=
  if tables.nameTaken row then
    .error (.constraint type.table
      ("userName '" ++ row.uniqueName?.getD "" ++ "' already exists"))
  else .ok ()

/-- Refuses a record with a relation that its resource type does not own. -/
def checkRelations {type : ResourceType} (record : Record type) : Except StoreError Unit :=
  match record.children.find? (·.1.owner ≠ type) with
  | none => .ok ()
  | some (relation, _) =>
    .error (.invalidData
      (relation.attributeName ++ " items cannot belong to a " ++ type.name))

/-- A row that was to be there is not. -/
def missing (table id : String) : StoreError := .notFound table id

/-- A key that was to be new is not. -/
def duplicate (table id : String) : StoreError := .constraint table ("duplicate key " ++ id)

/-- The record with a key. -/
def get? (type : ResourceType) (id : Uuid) (tables : Tables) : Option (Record type) :=
  (tables.find? type id).map tables.record

/-- Whether a row is made before another one, or at the same time and not after it in the order of
keys. -/
def inOrder {type : ResourceType} (a b : Row type) : Bool :=
  a.created.before b.created || (a.created = b.created && a.id.le b.id)

/-- The records that satisfy a predicate, by time of creation and then by key. -/
def query (type : ResourceType) (predicate : Option Predicate) (tables : Tables) :
    Except StoreError (List (Record type)) :=
  (selectWhere predicate tables.view (tables.rows type)).map fun rows =>
    (rows.mergeSort inOrder).map tables.record

/-- The items of a relation that an owner has and that satisfy a predicate, oldest first. -/
def queryItems (relation : Relation) (owner : Uuid) (predicate : Option Predicate)
    (tables : Tables) : Except StoreError (List ItemRow) :=
  selectWhere predicate ItemRow.view (tables.ownedItems owner relation)

/-- Items in which an item has taken the place of the first one of its relation with its key. -/
def putItem (relation : Relation) (item : ItemRow) :
    List (Relation × ItemRow) → List (Relation × ItemRow)
  | [] => []
  | (r, other) :: rest =>
    if r = relation ∧ other.id = item.id then (relation, item) :: rest
    else (r, other) :: putItem relation item rest

/-- The tables with an item in the place of the one with its key. -/
def writeItem (tables : Tables) (relation : Relation) (item : ItemRow) : Tables :=
  { tables with items := putItem relation item tables.items }

/-- The numbers of users, of groups and of items. -/
def sizes (tables : Tables) : List Nat :=
  [tables.users.length, tables.groups.length, tables.items.length]

end Tables
end ScimDirectory
