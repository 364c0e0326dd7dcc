import ScimDirectory.Proofs.Store.Calls
import ScimDirectory.Proofs.Store.Items
import ScimDirectory.Store.Storage

/-!
# What calls in place come to

The calls on tables change them step after step. Each comes to a function of the tables as a whole,
which gives an answer with new tables or an error without any. A call that fails has changed nothing
for good: all checks but one come before the first change, and an item that is refused for its key
finds a list for its relation, so that no new one was made.
-/

namespace ScimDirectory

namespace Tables

variable {type : ResourceType} {relation : Relation}

/-- The tables without the items that an owner of a resource type has. -/
def dropItems (tables : Tables) (type : ResourceType) (owner : Uuid) : Tables :=
  { tables with
    items := tables.items.filter fun (r, item) => ¬(r.owner = type ∧ item.owner = owner) }

/-- The tables with new items, linked to their owner. -/
def addItems (tables : Tables) (owner : Uuid) : List (Relation × List ItemRow) → Tables
  | [] => tables
  | (relation, items) :: children =>
    addItems
      { tables.withList relation with
        items := tables.items ++ items.map fun item => (relation, { item with owner }) }
      owner children

/-- Stores a new row with its items. -/
def insert (record : Record type) (tables : Tables) : Except StoreError (Record type × Tables) :=
  match checkRelations record with
  | .error error => .error error
  | .ok () =>
    if tables.has type record.row.id then .error (duplicate type.table record.row.id.toText)
    else
      match tables.checkName record.row with
      | .error error => .error error
      | .ok () =>
        let stored := (tables.put record.row).addItems record.row.id record.children
        .ok (stored.record record.row, stored)

/-- Replaces a row and all of its items. -/
def replace (record : Record type) (tables : Tables) : Except StoreError (Record type × Tables) :=
  match checkRelations record with
  | .error error => .error error
  | .ok () =>
    if !tables.has type record.row.id then .error (missing type.table record.row.id.toText)
    else
      match tables.checkName record.row with
      | .error error => .error error
      | .ok () =>
        let stored := ((tables.put record.row).dropItems type record.row.id).addItems
          record.row.id record.children
        .ok (stored.record record.row, stored)

/-- Writes the columns of a row. -/
def update (row : Row type) (tables : Tables) : Except StoreError (Row type × Tables) :=
  if !tables.has type row.id then .error (missing type.table row.id.toText)
  else
    match tables.checkName row with
    | .error error => .error error
    | .ok () => .ok (row, tables.put row)

/-- Deletes a row and its items, and tells whether the row was there. -/
def delete (type : ResourceType) (id : Uuid) (tables : Tables) : Bool × Tables :=
  if tables.has type id then (true, (tables.dropRow type id).dropItems type id)
  else (false, tables)

/-- Links a new item to its owner. -/
def insertItem (relation : Relation) (item : ItemRow) (tables : Tables) :
    Except StoreError (ItemRow × Tables) :=
  if !tables.has relation.owner item.owner then
    .error (.constraint relation.table
      ("foreign key: no " ++ relation.owner.name ++ " with id " ++ item.owner.toText))
  else if (tables.itemsOf relation).any (·.id = item.id) then
    .error (duplicate relation.table item.id.toText)
  else .ok (item, (tables.withList relation).link relation item)

/-- Writes an item in the place of the one with its key, which must have the same owner. -/
def updateItem (relation : Relation) (item : ItemRow) (tables : Tables) :
    Except StoreError (ItemRow × Tables) :=
  match (tables.itemsOf relation).find? (·.id = item.id) with
  | none => .error (missing relation.table item.id.toText)
  | some stored =>
    if stored.owner ≠ item.owner then
      .error (.constraint relation.table "items cannot be moved to another owner")
    else .ok (item, tables.writeItem relation item)

/-- Deletes the items of a relation that a test picks, and counts them. -/
def deleteWhere (relation : Relation) (test : ItemRow → Bool) (tables : Tables) : Nat × Tables :=
  ((tables.itemsOf relation).length - ((tables.without relation test).itemsOf relation).length,
    tables.without relation test)

/-- Deletes the items of a relation with the given keys, and counts them. -/
def deleteItems (relation : Relation) (ids : List ItemId) (tables : Tables) : Nat × Tables :=
  tables.deleteWhere relation fun item => ids.contains item.id

/-- Deletes the items of a relation that an owner has, and counts them. -/
def deleteAllItems (relation : Relation) (owner : Uuid) (tables : Tables) : Nat × Tables :=
  tables.deleteWhere relation fun item => item.owner = owner

/-- A new list of a relation is all that changes. -/
theorem withList_eq (tables : Tables) (relation : Relation) :
    ∃ lists, tables.withList relation = { tables with lists } := by
  unfold withList
  split
  · exact ⟨tables.lists, rfl⟩
  · exact ⟨_, rfl⟩

@[simp] theorem items_withList (tables : Tables) (relation : Relation) :
    (tables.withList relation).items = tables.items := by
  obtain ⟨lists, heq⟩ := tables.withList_eq relation
  rw [heq]

@[simp] theorem itemsOf_withList (tables : Tables) (relation : Relation) :
    (tables.withList relation).itemsOf = tables.itemsOf := by
  funext other
  rw [itemsOf, items_withList, itemsOf]

/-- A relation with items has a list already. -/
theorem withList_of_any {tables : Tables} {test : ItemRow → Bool}
    (h : (tables.itemsOf relation).any test = true) : tables.withList relation = tables := by
  have hlist : tables.hasList relation = true := by
    rw [hasList, Bool.or_eq_true, Bool.not_eq_true', List.isEmpty_eq_false_iff]
    exact .inr fun hnil => by simp [hnil] at h
  rw [withList, if_pos hlist]

/-- A relation without a list has no items. -/
theorem itemsOf_of_hasList_eq_false {tables : Tables} (h : tables.hasList relation = false) :
    tables.itemsOf relation = [] := by
  rw [hasList, Bool.or_eq_false_iff, Bool.not_eq_false', List.isEmpty_iff] at h
  exact h.2

/-- Nothing leaves a relation without a list. -/
theorem without_of_hasList_eq_false {tables : Tables} (h : tables.hasList relation = false)
    (test : ItemRow → Bool) : tables.without relation test = tables := by
  have hitems : tables.items.filter
      (fun (r, item) => ¬(r = relation ∧ test item = true)) = tables.items := by
    refine List.filter_eq_self.mpr fun entry hmem => decide_eq_true fun hpicked => ?_
    have hentry : entry.2 ∈ tables.itemsOf relation := mem_itemsOf.mpr (hpicked.1 ▸ hmem)
    rw [itemsOf_of_hasList_eq_false h] at hentry
    cases hentry
  rw [without, hitems]

/-- What linking children leaves: their items come last, in some lists. -/
theorem addItems_eq (tables : Tables) (owner : Uuid) (children : List (Relation × List ItemRow)) :
    ∃ lists, tables.addItems owner children =
      { tables with
        items := tables.items ++ children.flatMap fun (r, items) =>
          items.map fun item => (r, { item with owner }),
        lists } := by
  induction children generalizing tables with
  | nil => exact ⟨tables.lists, by simp [addItems]⟩
  | cons child children ih =>
    obtain ⟨first, hfirst⟩ := tables.withList_eq child.1
    obtain ⟨lists, heq⟩ := ih { tables.withList child.1 with
      items := tables.items ++ child.2.map fun item => (child.1, { item with owner }) }
    refine ⟨lists, heq.trans ?_⟩
    rw [hfirst, List.flatMap_cons, List.append_assoc]

@[simp] theorem rows_addItems (tables : Tables) (owner : Uuid)
    (children : List (Relation × List ItemRow)) (type : ResourceType) :
    (tables.addItems owner children).rows type = tables.rows type := by
  obtain ⟨lists, heq⟩ := tables.addItems_eq owner children
  rw [heq, rows_mk_items]

@[simp] theorem rows_dropItems (tables : Tables) (owned : ResourceType) (owner : Uuid)
    (type : ResourceType) : (tables.dropItems owned owner).rows type = tables.rows type :=
  rows_mk_items ..

@[simp] theorem rows_without (tables : Tables) (relation : Relation) (test : ItemRow → Bool)
    (type : ResourceType) : (tables.without relation test).rows type = tables.rows type :=
  rows_mk_items ..

/-- Linking items one after the other links them all. -/
theorem run_linkItems (owner : Uuid) (relation : Relation) (items : List ItemRow)
    (tables : Tables) :
    (linkItems owner relation items).run tables =
      (.ok (), { tables with
        items := tables.items ++ items.map fun item => (relation, { item with owner }) }) := by
  induction items generalizing tables with
  | nil => rw [linkItems, run_pure, List.map_nil, List.append_nil]
  | cons item items ih =>
    rw [linkItems, Call.run_change_bind, ih, link, List.map_cons, List.append_assoc,
      List.singleton_append]

theorem run_linkChildren (owner : Uuid) (children : List (Relation × List ItemRow))
    (tables : Tables) :
    (linkChildren owner children).run tables = (.ok (), tables.addItems owner children) := by
  induction children generalizing tables with
  | nil => rfl
  | cons child children ih =>
    rw [linkChildren, Call.run_change_bind, run_bind_of_ok (run_linkItems ..), ih, addItems,
      items_withList]

/-- Removing the items of an owner from one relation after the other removes them from all. -/
theorem run_removeChildren (owner : Uuid) (relations : List Relation) (tables : Tables) :
    (removeChildren owner relations).run tables =
      (.ok (), { tables with
        items := tables.items.filter fun (r, item) => ¬(r ∈ relations ∧ item.owner = owner) }) := by
  induction relations generalizing tables with
  | nil => simp [removeChildren, run_pure]
  | cons relation relations ih =>
    have hitems : ((tables.without relation fun item => item.owner = owner).items.filter
        fun (r, item) => ¬(r ∈ relations ∧ item.owner = owner)) =
        tables.items.filter fun (r, item) => ¬(r ∈ relation :: relations ∧ item.owner = owner) := by
      rw [without, List.filter_filter]
      refine List.filter_congr fun entry _ => ?_
      by_cases hr : entry.1 = relation <;> by_cases ho : entry.2.owner = owner <;> simp [hr, ho]
    have hlater := ih (tables.without relation fun item => item.owner = owner)
    rw [hitems] at hlater
    rw [removeChildren, Call.run_look_bind]
    split
    · exact hlater
    · next hlist =>
      rw [without_of_hasList_eq_false (eq_false_of_ne_true hlist)] at hlater
      exact hlater

theorem run_removeChildren_ofType (owner : Uuid) (type : ResourceType) (tables : Tables) :
    (removeChildren owner (Relation.ofType type)).run tables =
      (.ok (), tables.dropItems type owner) := by
  rw [run_removeChildren]
  simp only [Relation.mem_ofType, dropItems]

/-- Dropping a row that is not there changes nothing. -/
theorem dropRow_of_has_eq_false {tables : Tables} {id : Uuid} (h : tables.has type id = false) :
    tables.dropRow type id = tables := by
  have hrows : (tables.rows type).filter (·.id ≠ id) = tables.rows type := by
    refine List.filter_eq_self.mpr fun row hmem => decide_eq_true fun hid => ?_
    rw [has_iff.mpr (List.mem_map.mpr ⟨row, hmem, hid⟩)] at h
    cases h
  rw [dropRow, hrows]
  cases type <;> rfl

/-- An insertion is done whole or not at all. -/
theorem call_insert (record : Record type) :
    (Storage.insert record : Call Tables _) = .writing (insert record) := by
  refine Call.ext_run fun tables => ?_
  rw [Call.run_writing, insert]
  simp only [Storage.insert, Call.run_reading_bind, Call.run_require_bind, Call.run_change_bind]
  cases checkRelations record with
  | error error => rfl
  | ok =>
    cases tables.has type record.row.id with
    | true => rfl
    | false =>
      cases tables.checkName record.row with
      | error error => rfl
      | ok => exact run_bind_of_ok (run_linkChildren ..) _

/-- So is a replacement. -/
theorem call_replace (record : Record type) :
    (Storage.replace record : Call Tables _) = .writing (replace record) := by
  refine Call.ext_run fun tables => ?_
  rw [Call.run_writing, replace]
  simp only [Storage.replace, Call.run_reading_bind, Call.run_require_bind, Call.run_change_bind]
  cases checkRelations record with
  | error error => rfl
  | ok =>
    cases tables.has type record.row.id with
    | false => rfl
    | true =>
      cases tables.checkName record.row with
      | error error => rfl
      | ok =>
        exact (run_bind_of_ok (run_removeChildren_ofType ..) _).trans
          (run_bind_of_ok (run_linkChildren ..) _)

theorem call_update (row : Row type) :
    (Storage.update row : Call Tables _) = .writing (update row) := by
  refine Call.ext_run fun tables => ?_
  rw [Call.run_writing, update]
  simp only [Storage.update, Call.run_reading_bind, Call.run_require_bind, Call.run_change_bind]
  cases tables.has type row.id with
  | false => rfl
  | true =>
    cases tables.checkName row <;> rfl

/-- A deletion drops a row that is there with its items. -/
theorem call_delete (type : ResourceType) (id : Uuid) :
    (Storage.delete type id : Call Tables _) = .always (delete type id) := by
  refine Call.ext_run fun tables => ?_
  rw [Call.run_always, delete]
  simp only [Storage.delete, Call.run_look_bind, Call.run_change_bind]
  cases hthere : tables.has type id with
  | true => exact run_bind_of_ok (run_removeChildren_ofType ..) _
  | false =>
    rw [dropRow_of_has_eq_false hthere]
    rfl

/-- An item is refused for its key only where its relation has a list already. -/
theorem call_insertItem (relation : Relation) (item : ItemRow) :
    (Storage.insertItem relation item : Call Tables _) = .writing (insertItem relation item) := by
  refine Call.ext_run fun tables => ?_
  rw [Call.run_writing, insertItem]
  simp only [Storage.insertItem, Call.run_require_bind, Call.run_change_bind, itemsOf_withList]
  cases tables.has relation.owner item.owner with
  | false => rfl
  | true =>
    cases htaken : (tables.itemsOf relation).any fun other => other.id = item.id with
    | true =>
      rw [withList_of_any htaken]
      rfl
    | false => rfl

theorem call_updateItem (relation : Relation) (item : ItemRow) :
    (Storage.updateItem relation item : Call Tables _) = .writing (updateItem relation item) := by
  refine Call.ext_run fun tables => ?_
  rw [Call.run_writing, updateItem]
  simp only [Storage.updateItem, Call.run_reading_bind, Call.run_require_bind,
    Call.run_change_bind, findItem]
  cases (tables.itemsOf relation).find? fun other => other.id = item.id with
  | none => rfl
  | some stored =>
    by_cases howner : stored.owner = item.owner
    · simp only [howner, decide_true, ite_true, ne_eq, not_true_eq_false, ite_false]
      rfl
    · simp only [howner, decide_false, Bool.false_eq_true, ite_false, ne_eq, not_false_eq_true,
        ite_true]

/-- Items that are picked leave, those of a relation without a list among them. -/
theorem removeItems_eq (relation : Relation) (test : ItemRow → Bool) :
    removeItems relation test = .always (deleteWhere relation test) := by
  refine Call.ext_run fun tables => ?_
  rw [removeItems, Call.run_look_bind, Call.run_always]
  cases hlist : tables.hasList relation with
  | true => rfl
  | false =>
    rw [deleteWhere, without_of_hasList_eq_false hlist, Nat.sub_self]
    rfl

theorem call_deleteItems (relation : Relation) (ids : List ItemId) :
    (Storage.deleteItems relation ids : Call Tables _) = .always (deleteItems relation ids) :=
  removeItems_eq ..

theorem call_deleteAllItems (relation : Relation) (owner : Uuid) :
    (Storage.deleteAllItems relation owner : Call Tables _) =
      .always (deleteAllItems relation owner) :=
  removeItems_eq ..

end Tables

end ScimDirectory
