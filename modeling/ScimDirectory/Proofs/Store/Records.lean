import ScimDirectory.Proofs.Store.Sound

/-!
# Records that are read back

What a key finds after a write: the record that was written, as it was given, or what it found
before when the write was on behalf of another resource.
-/

namespace ScimDirectory.Tables

variable {tables after : Tables} {type other : ResourceType} {id key : Uuid}

/-- A record whose row and items are stored is read back as it is. -/
theorem get?_eq_of_drawn {record : Record type} {draw : Nat} (hdrawn : record.Drawn draw)
    (hfind : after.find? type record.row.id = some record.row)
    (hitems : ∀ relation, relation.owner = type →
      after.ownedItems record.row.id relation = record.items relation) :
    after.get? type record.row.id = some record := by
  have hchildren : childrenOf (Relation.ofType type) (after.ownedItems record.row.id) =
      record.children := by
    rw [hdrawn.children]
    exact childrenOf_congr fun relation hmem => hitems relation (Relation.mem_ofType.mp hmem)
  rw [get?_of_find? hfind, Tables.record, hchildren]

/-- A key finds the row that was stored under it, and other keys what they found before. -/
theorem find?_insert {record stored : Record type}
    (hwrite : tables.insert record = .ok (stored, after)) :
    after.find? type record.row.id = some record.row ∧
      ∀ {other key}, ¬(other = type ∧ key = record.row.id) →
        after.find? other key = tables.find? other key := by
  obtain ⟨-, -, -, rfl, -⟩ := insert_eq_ok hwrite
  simp only [find?_addItems]
  exact ⟨by rw [find?_put, if_pos rfl], fun hne => find?_put_of_not hne⟩

theorem find?_replace {record stored : Record type}
    (hwrite : tables.replace record = .ok (stored, after)) :
    after.find? type record.row.id = some record.row ∧
      ∀ {other key}, ¬(other = type ∧ key = record.row.id) →
        after.find? other key = tables.find? other key := by
  obtain ⟨-, -, -, rfl, -⟩ := replace_eq_ok hwrite
  simp only [find?_addItems, dropItems, find?_mk_items]
  exact ⟨by rw [find?_put, if_pos rfl], fun hne => find?_put_of_not hne⟩

/-- A record that was inserted is found as it was given. -/
theorem get?_insert (h : tables.WellFormed) {record stored : Record type} {draw : Nat}
    (hdrawn : record.Drawn draw) (hwrite : tables.insert record = .ok (stored, after)) :
    after.get? type record.row.id = some record := by
  refine get?_eq_of_drawn hdrawn (find?_insert hwrite).1 fun relation hrelation => ?_
  rw [ownedItems_insert h hdrawn hwrite, if_pos ⟨hrelation, rfl⟩]

/-- Inserting a record leaves what other keys find. -/
theorem get?_insert_of_not (h : tables.WellFormed) {record stored : Record type} {draw : Nat}
    (hdrawn : record.Drawn draw) (hwrite : tables.insert record = .ok (stored, after))
    (hne : ¬(other = type ∧ key = record.row.id)) : after.get? other key = tables.get? other key := by
  refine get?_congr ((find?_insert hwrite).2 hne) fun relation hrelation => ?_
  rw [ownedItems_insert h hdrawn hwrite, if_neg fun h => hne ⟨hrelation.symm.trans h.1, h.2⟩]

/-- A record that was put in the place of another one is found as it was given. -/
theorem get?_replace {record stored : Record type} {draw : Nat} (hdrawn : record.Drawn draw)
    (hwrite : tables.replace record = .ok (stored, after)) :
    after.get? type record.row.id = some record := by
  refine get?_eq_of_drawn hdrawn (find?_replace hwrite).1 fun relation hrelation => ?_
  rw [ownedItems_replace hdrawn hwrite, if_pos ⟨hrelation, rfl⟩]

/-- Replacing a record leaves what other keys find. -/
theorem get?_replace_of_not {record stored : Record type} {draw : Nat}
    (hdrawn : record.Drawn draw) (hwrite : tables.replace record = .ok (stored, after))
    (hne : ¬(other = type ∧ key = record.row.id)) : after.get? other key = tables.get? other key := by
  refine get?_congr ((find?_replace hwrite).2 hne) fun relation hrelation => ?_
  rw [ownedItems_replace hdrawn hwrite, if_neg fun h => hne ⟨hrelation.symm.trans h.1, h.2⟩]

/-- A row that was written is found with the items that it owned before. -/
theorem get?_put (tables : Tables) (row : Row type) :
    (tables.put row).get? type row.id = some (tables.record row) := by
  have hfind : (tables.put row).find? type row.id = some row := by rw [find?_put, if_pos rfl]
  rw [get?_of_find? hfind, record, ownedItems_put, record]

/-- Writing a row leaves what other keys find. -/
theorem get?_put_of_not (tables : Tables) {row : Row type}
    (hne : ¬(other = type ∧ key = row.id)) :
    (tables.put row).get? other key = tables.get? other key :=
  get?_congr (find?_put_of_not hne) fun _ _ => by rw [ownedItems_put]

/-- A deleted resource is not found any more. -/
theorem get?_delete_self (tables : Tables) (type : ResourceType) (id : Uuid) :
    (tables.delete type id).2.get? type id = none := by
  have hgone : (tables.delete type id).2.find? type id = none := by
    unfold delete
    split
    · simp only [dropItems, find?_mk_items]
      rw [find?_dropRow, if_pos rfl]
    · next hnone => simpa [has] using hnone
  rw [get?, hgone, Option.map_none]

/-- Deleting a resource leaves what other keys find. -/
theorem find?_delete_of_not (tables : Tables) (hne : ¬(other = type ∧ key = id)) :
    (tables.delete type id).2.find? other key = tables.find? other key := by
  unfold delete
  split
  · simp only [dropItems, find?_mk_items]
    exact find?_dropRow_of_not hne
  · rfl

theorem get?_delete_of_not (tables : Tables) (hne : ¬(other = type ∧ key = id)) :
    (tables.delete type id).2.get? other key = tables.get? other key := by
  refine get?_congr (tables.find?_delete_of_not hne) fun relation hrelation => ?_
  rw [ownedItems_delete, if_neg fun h => hne ⟨hrelation.symm.trans h.2.1, h.2.2⟩]

end ScimDirectory.Tables
