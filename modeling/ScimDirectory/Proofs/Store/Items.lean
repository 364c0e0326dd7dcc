import ScimDirectory.Proofs.Store.Rows

/-!
# Items and their owners

How the items of one owner answer after items are added, dropped, deleted or written, and what a
record that is read back holds. Rows of resources are not touched by any of this, and neither are
the items of other relations and owners.
-/

namespace ScimDirectory

namespace Relation

/-- The relations of a type are those that it owns. -/
theorem mem_ofType {relation : Relation} {type : ResourceType} :
    relation ∈ ofType type ↔ relation.owner = type := by
  cases type <;> rcases relation with c | _ | _ <;> try (cases c <;> decide)
  all_goals decide

/-- A type lists each of its relations once. -/
theorem nodup_ofType (type : ResourceType) : (ofType type).Nodup := by
  cases type <;> decide

end Relation

/-- A relation without items has no children. -/
theorem childrenOf_cons (first : Relation) (relations : List Relation)
    (items : Relation → List ItemRow) :
    childrenOf (first :: relations) items =
      (if (items first).isEmpty then [] else [(first, items first)]) ++
        childrenOf relations items := by
  by_cases h : (items first).isEmpty
  · simp only [childrenOf, List.filterMap_cons, h, ite_true, List.nil_append]
  · simp only [childrenOf, List.filterMap_cons, h, Bool.false_eq_true, ite_false,
      List.cons_append, List.nil_append]

/-- The items of one of the relations that children were made for are what they were made of. -/
theorem lookup_childrenOf (relations : List Relation) (items : Relation → List ItemRow)
    (relation : Relation) :
    ((childrenOf relations items).lookup relation).getD [] =
      if relation ∈ relations then items relation else [] := by
  induction relations with
  | nil => rfl
  | cons first relations ih =>
    rw [childrenOf_cons]
    by_cases hfirst : relation = first
    · subst hfirst
      by_cases h : (items relation).isEmpty
      · have hnil := List.isEmpty_iff.mp h
        simp [ih, hnil]
      · simp [h]
    · by_cases h : (items first).isEmpty
      · simp [h, ih, hfirst]
      · simp [h, ih, hfirst, List.lookup_cons, beq_eq_false_iff_ne.mpr hfirst]

/-- Children depend on the items of their relations only. -/
theorem childrenOf_congr {relations : List Relation} {f g : Relation → List ItemRow}
    (h : ∀ relation ∈ relations, f relation = g relation) :
    childrenOf relations f = childrenOf relations g :=
  List.filterMap_congr fun relation hmem => by simp only [h relation hmem]

/-- The items of a record that is made of its relations' items. -/
theorem items_childrenOf {type : ResourceType} (row : Row type) (items : Relation → List ItemRow)
    (relation : Relation) :
    (⟨row, childrenOf (Relation.ofType type) items⟩ : Record type).items relation =
      if relation.owner = type then items relation else [] := by
  rw [Record.items, lookup_childrenOf]
  simp only [Relation.mem_ofType]

/-- Children are the items of their relations one after the other. -/
theorem flatMap_childrenOf {relations : List Relation} (hnodup : relations.Nodup)
    (items : Relation → List ItemRow) (relation : Relation) :
    ((childrenOf relations items).flatMap fun child =>
      if child.1 = relation then child.2 else []) =
      if relation ∈ relations then items relation else [] := by
  induction relations with
  | nil => rfl
  | cons first relations ih =>
    obtain ⟨hfirst, hnodup⟩ := List.nodup_cons.mp hnodup
    rw [childrenOf_cons, List.flatMap_append, ih hnodup]
    by_cases hrelation : relation = first
    · subst hrelation
      by_cases h : (items relation).isEmpty
      · have hnil := List.isEmpty_iff.mp h
        simp [hnil]
      · simp [h, hfirst]
    · have hne : first ≠ relation := fun heq => hrelation heq.symm
      by_cases h : (items first).isEmpty
      · simp [h, hrelation]
      · simp [h, hrelation, hne]

namespace Tables

variable {type : ResourceType}

/-- An item of a relation is listed with it. -/
theorem mem_itemsOf {tables : Tables} {relation : Relation} {item : ItemRow} :
    item ∈ tables.itemsOf relation ↔ (relation, item) ∈ tables.items := by
  simp only [itemsOf, List.mem_filterMap, Prod.exists, Option.ite_none_right_eq_some,
    Option.some.injEq]
  constructor
  · rintro ⟨r, i, hmem, rfl, rfl⟩
    exact hmem
  · exact fun hmem => ⟨relation, item, hmem, rfl, rfl⟩

/-- An owned item is listed with its relation and names its owner. -/
theorem mem_ownedItems {tables : Tables} {owner : Uuid} {relation : Relation} {item : ItemRow} :
    item ∈ tables.ownedItems owner relation ↔
      (relation, item) ∈ tables.items ∧ item.owner = owner := by
  simp only [ownedItems, List.mem_filter, mem_itemsOf, decide_eq_true_eq]

@[simp] theorem itemsOf_put (tables : Tables) (row : Row type) :
    (tables.put row).itemsOf = tables.itemsOf := by
  funext relation
  simp only [itemsOf, items_put]

@[simp] theorem itemsOf_dropRow (tables : Tables) (id : Uuid) :
    (tables.dropRow type id).itemsOf = tables.itemsOf := by
  funext relation
  simp only [itemsOf, items_dropRow]

/-- Tables with the same items have the same owned items. -/
theorem ownedItems_congr {tables other : Tables} (h : tables.items = other.items) :
    tables.ownedItems = other.ownedItems := by
  funext owner relation
  simp only [ownedItems, itemsOf, h]

@[simp] theorem ownedItems_put (tables : Tables) (row : Row type) :
    (tables.put row).ownedItems = tables.ownedItems :=
  ownedItems_congr (tables.items_put row)

@[simp] theorem ownedItems_dropRow (tables : Tables) (id : Uuid) :
    (tables.dropRow type id).ownedItems = tables.ownedItems :=
  ownedItems_congr (tables.items_dropRow id)

/-- Rows do not depend on the items and on their lists. -/
@[simp] theorem rows_mk_items (tables : Tables) (items : List (Relation × ItemRow))
    (lists : List Relation) (type : ResourceType) :
    ({ tables with items, lists } : Tables).rows type = tables.rows type := by
  cases type <;> rfl

/-- Every stored row satisfies a condition. -/
def RowsSatisfy (P : ∀ ⦃type : ResourceType⦄, Row type → Prop) (tables : Tables) : Prop :=
  ∀ ⦃type : ResourceType⦄, ∀ row ∈ tables.rows type, P row

namespace RowsSatisfy

variable {P : ∀ ⦃type : ResourceType⦄, Row type → Prop} {tables : Tables}
  (h : tables.RowsSatisfy P)

include h

/-- One row may be written when it satisfies the condition. -/
theorem put {row : Row type} (hrow : P row) : (tables.put row).RowsSatisfy P := by
  intro other found hmem
  by_cases htype : other = type
  · subst htype
    rw [rows_put] at hmem
    rcases mem_or_of_mem_putRow hmem with rfl | hold
    · exact hrow
    · exact h found hold
  · rw [rows_put_of_ne tables htype] at hmem
    exact h found hmem

theorem dropRow (type : ResourceType) (id : Uuid) : (tables.dropRow type id).RowsSatisfy P := by
  intro other found hmem
  by_cases htype : other = type
  · subst htype
    rw [rows_dropRow] at hmem
    exact h found (List.mem_filter.mp hmem).1
  · rw [rows_dropRow_of_ne tables htype] at hmem
    exact h found hmem

/-- Items do not matter. -/
theorem of_rows {after : Tables} (hrows : ∀ type, after.rows type = tables.rows type) :
    after.RowsSatisfy P := by
  intro type found hmem
  rw [hrows] at hmem
  exact h found hmem

end RowsSatisfy

/-- Keys do not depend on the items. -/
@[simp] theorem has_mk_items (tables : Tables) (items : List (Relation × ItemRow))
    (lists : List Relation) (type : ResourceType) (id : Uuid) :
    ({ tables with items, lists } : Tables).has type id = tables.has type id := by
  simp only [has, find?, rows_mk_items]

/-- What a key finds does not depend on the items. -/
@[simp] theorem find?_mk_items (tables : Tables) (items : List (Relation × ItemRow))
    (lists : List Relation) (type : ResourceType) (id : Uuid) :
    ({ tables with items, lists } : Tables).find? type id = tables.find? type id := by
  simp only [find?, rows_mk_items]

/-- What a key finds as a record depends on its row and on the items that it owns. -/
theorem get?_congr {tables after : Tables} {id : Uuid}
    (hfind : after.find? type id = tables.find? type id)
    (hitems : ∀ relation, relation.owner = type →
      after.ownedItems id relation = tables.ownedItems id relation) :
    after.get? type id = tables.get? type id := by
  rw [get?, get?, hfind]
  cases hrow : tables.find? type id with
  | none => rfl
  | some row =>
    have hid : row.id = id := id_of_find? hrow
    simp only [Option.map_some, record, hid]
    rw [childrenOf_congr fun relation hmem => hitems relation (Relation.mem_ofType.mp hmem)]

/-- A key that finds a row finds its record. -/
theorem get?_of_find? {tables : Tables} {id : Uuid} {row : Row type}
    (h : tables.find? type id = some row) : tables.get? type id = some (tables.record row) := by
  rw [get?, h, Option.map_some]

/-- A key that finds a record finds its row. -/
theorem get?_eq_some {tables : Tables} {id : Uuid} {record : Record type}
    (h : tables.get? type id = some record) :
    tables.find? type id = some record.row ∧ tables.record record.row = record := by
  obtain ⟨row, hfind, rfl⟩ := Option.map_eq_some_iff.mp h
  exact ⟨hfind, rfl⟩

end Tables
end ScimDirectory
