import ScimDirectory.Schema.Relation
import ScimDirectory.Store.Row

/-!
# Records

A resource row together with the items it owns. Whole resources are stored and answered as
records.
-/

namespace ScimDirectory

/-- A row and its items by relation, in the order of the relations. -/
structure Record (type : ResourceType) where
  /-- The resource row. -/
  row : Row type
  /-- The items of each relation that has some. -/
  children : List (Relation × List ItemRow)

namespace Record

variable {type : ResourceType}

/-- The items of a relation, oldest first. -/
def items (record : Record type) (relation : Relation) : List ItemRow :=
  (record.children.lookup relation).getD []

/-- The record with another row. -/
def withRow (record : Record type) (row : Row type) : Record type := { record with row }

end Record

/-- The relations that have items, each with its items. -/
def childrenOf (relations : List Relation) (items : Relation → List ItemRow) :
    List (Relation × List ItemRow) :=
  relations.filterMap fun relation =>
    if (items relation).isEmpty then none else some (relation, items relation)

end ScimDirectory
