import ScimDirectory.Store.Call
import ScimDirectory.Store.Tables

/-!
# Storage

What the directory asks of storage: whole resources are written in one call each, items one by
one. A call may fail, and a storage may change even then. Storage in memory changes its tables in
place, each call step after step.
-/

namespace ScimDirectory

/-- The calls of a storage. -/
class Storage (σ : Type) where
  /-- Stores a new record. -/
  insert {type : ResourceType} : Record type → Call σ (Record type)
  /-- Replaces a record. -/
  replace {type : ResourceType} : Record type → Call σ (Record type)
  /-- Finds the record with a key. -/
  get (type : ResourceType) : Uuid → Call σ (Option (Record type))
  /-- Finds the records that satisfy a predicate, by time of creation and then by key. -/
  query (type : ResourceType) : Option Predicate → Call σ (List (Record type))
  /-- Writes the columns of a row. -/
  update {type : ResourceType} : Row type → Call σ (Row type)
  /-- Deletes a row with its items, and tells whether it was there. -/
  delete (type : ResourceType) : Uuid → Call σ Bool
  /-- Finds the items of an owner that satisfy a predicate, oldest first. -/
  queryItems : Relation → Uuid → Option Predicate → Call σ (List ItemRow)
  /-- Links a new item to its owner. -/
  insertItem : Relation → ItemRow → Call σ ItemRow
  /-- Writes an item. -/
  updateItem : Relation → ItemRow → Call σ ItemRow
  /-- Deletes the items with the given keys, and counts them. -/
  deleteItems : Relation → List ItemId → Call σ Nat
  /-- Deletes the items of an owner, and counts them. -/
  deleteAllItems : Relation → Uuid → Call σ Nat

/-- The one item of an owner that satisfies a predicate. -/
def Storage.onlyItem {σ : Type} [Storage σ] (relation : Relation) (owner : Uuid) (p : Predicate) :
    Call σ ItemRow := do
  match ← Storage.queryItems relation owner (some p) with
  | [item] => return item
  | [] => throw (.notFound relation.table p.toText)
  | items => throw (.notSingular relation.table items.length)

namespace Tables

/-- Links items of one relation to an owner, one after the other. -/
def linkItems (owner : Uuid) (relation : Relation) : List ItemRow → Call Tables Unit
  | [] => pure ()
  | item :: items => do
    Call.change (·.link relation { item with owner })
    linkItems owner relation items

/-- Links the items of children to an owner, relation after relation. -/
def linkChildren (owner : Uuid) : List (Relation × List ItemRow) → Call Tables Unit
  | [] => pure ()
  | (relation, items) :: children => do
    Call.change (·.withList relation)
    linkItems owner relation items
    linkChildren owner children

/-- Removes the items of an owner, relation after relation. -/
def removeChildren (owner : Uuid) : List Relation → Call Tables Unit
  | [] => pure ()
  | relation :: relations => do
    if ← Call.look (·.hasList relation) then
      Call.change (·.without relation fun item => item.owner = owner)
    removeChildren owner relations

/-- Removes the items of a relation that a test picks, and counts them. -/
def removeItems (relation : Relation) (test : ItemRow → Bool) : Call Tables Nat := do
  if ← Call.look (·.hasList relation) then
    let before ← Call.look fun tables => (tables.itemsOf relation).length
    Call.change (·.without relation test)
    let left ← Call.look fun tables => (tables.itemsOf relation).length
    return before - left
  else return 0

/-- The stored item with a key. -/
def findItem (relation : Relation) (id : ItemId) (tables : Tables) : Except StoreError ItemRow :=
  match (tables.itemsOf relation).find? (·.id = id) with
  | some stored => .ok stored
  | none => .error (missing relation.table id.toText)

end Tables

open Tables

instance : Storage Tables where
  insert {type} record := do
    Call.reading fun _ => checkRelations record
    Call.require (!·.has type record.row.id) (duplicate type.table record.row.id.toText)
    Call.reading (·.checkName record.row)
    Call.change (·.put record.row)
    linkChildren record.row.id record.children
    Call.look (·.record record.row)
  replace {type} record := do
    Call.reading fun _ => checkRelations record
    Call.require (·.has type record.row.id) (missing type.table record.row.id.toText)
    Call.reading (·.checkName record.row)
    Call.change (·.put record.row)
    removeChildren record.row.id (Relation.ofType type)
    linkChildren record.row.id record.children
    Call.look (·.record record.row)
  get type id := .look (·.get? type id)
  query type predicate := .reading (·.query type predicate)
  update {type} row := do
    Call.require (·.has type row.id) (missing type.table row.id.toText)
    Call.reading (·.checkName row)
    Call.change (·.put row)
    return row
  delete type id := do
    let existed ← Call.look (·.has type id)
    Call.change (·.dropRow type id)
    if existed then removeChildren id (Relation.ofType type)
    return existed
  queryItems relation owner predicate := .reading (·.queryItems relation owner predicate)
  insertItem relation item := do
    Call.require (·.has relation.owner item.owner) (.constraint relation.table
      ("foreign key: no " ++ relation.owner.name ++ " with id " ++ item.owner.toText))
    Call.change (·.withList relation)
    Call.require (fun tables => !(tables.itemsOf relation).any (·.id = item.id))
      (duplicate relation.table item.id.toText)
    Call.change (·.link relation item)
    return item
  updateItem relation item := do
    let stored ← Call.reading (·.findItem relation item.id)
    Call.require (fun _ => stored.owner = item.owner)
      (.constraint relation.table "items cannot be moved to another owner")
    Call.change (·.writeItem relation item)
    return item
  deleteItems relation ids := removeItems relation fun item => ids.contains item.id
  deleteAllItems relation owner := removeItems relation fun item => item.owner = owner

end ScimDirectory
