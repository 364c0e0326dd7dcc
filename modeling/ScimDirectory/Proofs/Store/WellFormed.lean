import ScimDirectory.Proofs.Store.InPlace

/-!
# Well-formed tables

Keys are distinct, names of users are distinct whatever the case of their letters, and every item
belongs to a row of the type that owns its relation. Every write of storage keeps this, also when
it fails, so it holds after every sequence of calls, and then every item is counted once among the
records of its owner's type.
-/

namespace ScimDirectory

namespace Tables

/-- The integrity of stored rows and items. -/
structure WellFormed (tables : Tables) : Prop where
  /-- No two rows of a type have the same key. -/
  keys : ∀ type, ((tables.rows type).map Row.id).Nodup
  /-- No two users have names that differ in the case of letters at most. -/
  names : tables.users.Pairwise fun a b => Text.lowercase a.userName ≠ Text.lowercase b.userName
  /-- Every item belongs to a row of the type that owns its relation. -/
  owners : ∀ relation item, (relation, item) ∈ tables.items →
    tables.has relation.owner item.owner = true

/-- Empty tables are well formed. -/
theorem wellFormed_empty : empty.WellFormed where
  keys type := by cases type <;> exact List.nodup_nil
  names := List.Pairwise.nil
  owners := fun _ _ hmem => nomatch hmem

/-- A name passes the check when it is not another row's. -/
theorem checkName_eq_ok_iff {type : ResourceType} {tables : Tables} {row : Row type} :
    tables.checkName row = .ok () ↔ tables.nameTaken row = false := by
  rw [checkName]
  cases tables.nameTaken row <;> simp

namespace WellFormed

variable {tables : Tables} {type : ResourceType}

/-- Fewer items are as well formed. -/
theorem of_items_subset (h : tables.WellFormed) {items : List (Relation × ItemRow)}
    {lists : List Relation} (hsubset : items ⊆ tables.items) :
    ({ tables with items, lists } : Tables).WellFormed where
  keys type := by simpa only [rows_mk_items] using h.keys type
  names := h.names
  owners := by
    intro relation item hmem
    rw [has_mk_items]
    exact h.owners relation item (hsubset hmem)

/-- An item whose owner is there may be added. -/
theorem append_items (h : tables.WellFormed) {more : List (Relation × ItemRow)}
    {lists : List Relation} (howners : ∀ relation item, (relation, item) ∈ more →
      tables.has relation.owner item.owner = true) :
    ({ tables with items := tables.items ++ more, lists } : Tables).WellFormed where
  keys type := by simpa only [rows_mk_items] using h.keys type
  names := h.names
  owners := by
    intro relation item hmem
    rw [has_mk_items]
    rcases List.mem_append.mp hmem with hmem | hmem
    · exact h.owners relation item hmem
    · exact howners relation item hmem

/-- A name that is free differs from the names of all other users. -/
theorem lowercase_ne_of_checkName {row : Row .user} (hname : tables.checkName row = .ok ())
    {other : UserRow} (hmem : other ∈ tables.users) (hid : other.id ≠ UserRow.id row) :
    Text.lowercase other.userName ≠ Text.lowercase (UserRow.userName row) := by
  intro heq
  have htaken : tables.nameTaken row = true := by
    refine List.any_eq_true.mpr ⟨other, hmem, ?_⟩
    have hother : @Row.id .user other ≠ Row.id row := hid
    have hsame : (Text.lowercase other.userName == Text.lowercase (UserRow.userName row)) = true :=
      beq_iff_eq.mpr heq
    simp only [hother, ne_eq, not_false_eq_true, decide_true, Bool.true_and]
    exact hsame
  rw [checkName_eq_ok_iff, htaken] at hname
  cases hname

/-- A row with a free name may be put. -/
theorem put (h : tables.WellFormed) {row : Row type} (hname : tables.checkName row = .ok ()) :
    (tables.put row).WellFormed where
  keys other := by
    by_cases htype : other = type
    · subst htype
      rw [rows_put]
      exact nodup_putRow row (h.keys other)
    · rw [rows_put_of_ne tables htype]
      exact h.keys other
  names := by
    cases type with
    | user =>
      refine pairwise_putRow (fun hne => Ne.symm hne) (h.keys .user) h.names ?_
      exact fun other hmem hid => lowercase_ne_of_checkName hname hmem hid
    | group => exact h.names
  owners := by
    intro relation item hmem
    rw [items_put] at hmem
    exact has_put.mpr (.inr (h.owners relation item hmem))

/-- A row that keeps its name may be written. -/
theorem checkName_eq_ok (h : tables.WellFormed) {row stored : Row type}
    (hstored : tables.find? type row.id = some stored)
    (hname : row.uniqueName? = stored.uniqueName?) : tables.checkName row = .ok () := by
  rw [checkName_eq_ok_iff]
  cases type with
  | group => rfl
  | user =>
    have hsame : UserRow.userName row = UserRow.userName stored := Option.some.inj hname
    refine List.any_eq_false.mpr fun other hmem htaken => ?_
    obtain ⟨hother, hlower⟩ := Bool.and_eq_true_iff.mp htaken
    have hnames : (tables.users.map fun user => Text.lowercase user.userName).Nodup :=
      List.pairwise_map.mpr h.names
    have htaken : Text.lowercase (UserRow.userName other) =
        Text.lowercase (UserRow.userName stored) := hsame ▸ beq_iff_eq.mp hlower
    have heq := List.inj_on_of_nodup_map hnames hmem (mem_of_find? hstored) htaken
    exact of_decide_eq_true hother (heq ▸ id_of_find? hstored)

/-- A row may be dropped together with its items. -/
theorem drop (h : tables.WellFormed) (type : ResourceType) (id : Uuid) :
    ((tables.dropRow type id).dropItems type id).WellFormed where
  keys other := by
    rw [dropItems, rows_mk_items]
    by_cases htype : other = type
    · subst htype
      rw [rows_dropRow]
      exact (h.keys other).sublist ((List.filter_sublist).map _)
    · rw [rows_dropRow_of_ne tables htype]
      exact h.keys other
  names := by
    cases type with
    | user => exact h.names.sublist List.filter_sublist
    | group => exact h.names
  owners := by
    intro relation item hmem
    obtain ⟨hmem, hother⟩ := List.mem_filter.mp hmem
    rw [items_dropRow] at hmem
    rw [dropItems, has_mk_items]
    have hkept : ¬(relation.owner = type ∧ item.owner = id) := of_decide_eq_true hother
    exact has_dropRow.mpr ⟨h.owners relation item hmem, hkept⟩

/-- The children of a record of a type that is there may be linked to it. -/
theorem addItems (h : tables.WellFormed) {owner : Uuid}
    {children : List (Relation × List ItemRow)} (howner : tables.has type owner = true)
    (hchildren : ∀ child ∈ children, child.1.owner = type) :
    (tables.addItems owner children).WellFormed := by
  obtain ⟨lists, heq⟩ := tables.addItems_eq owner children
  rw [heq]
  refine h.append_items fun relation item hmem => ?_
  obtain ⟨child, hchild, hmem⟩ := List.mem_flatMap.mp hmem
  obtain ⟨_, _, heq⟩ := List.mem_map.mp hmem
  cases heq
  rw [hchildren child hchild]
  exact howner

end WellFormed

/-- The relations of a record that passes are its type's. -/
theorem owner_eq_of_checkRelations {type : ResourceType} {record : Record type}
    (h : checkRelations record = .ok ()) : ∀ child ∈ record.children, child.1.owner = type := by
  intro child hmem
  unfold checkRelations at h
  split at h
  · next hfind => simpa using List.find?_eq_none.mp hfind child hmem
  · cases h

/-- A record whose relations are all its type's passes. -/
theorem checkRelations_eq_ok {type : ResourceType} {record : Record type}
    (howned : ∀ child ∈ record.children, child.1.owner = type) :
    checkRelations record = .ok () := by
  have hnone : record.children.find? (fun child => decide (child.1.owner ≠ type)) = none :=
    List.find?_eq_none.mpr fun child hmem => by simpa using howned child hmem
  rw [checkRelations, hnone]

/-- What an insertion that succeeds has checked, and the tables it leaves. -/
theorem insert_eq_ok {type : ResourceType} {record stored : Record type} {tables after : Tables}
    (h : tables.insert record = .ok (stored, after)) :
    checkRelations record = .ok () ∧ tables.has type record.row.id = false ∧
      tables.checkName record.row = .ok () ∧
      after = (tables.put record.row).addItems record.row.id record.children ∧
      stored = after.record record.row := by
  unfold insert at h
  split at h
  · cases h
  · next hrelations =>
    split at h
    · cases h
    · next hnew =>
      split at h
      · cases h
      · next hname =>
        cases h
        exact ⟨hrelations, eq_false_of_ne_true hnew, hname, rfl, rfl⟩

/-- A record that passes its checks is inserted. -/
theorem insert_eq {type : ResourceType} {record : Record type} {tables : Tables}
    (hrelations : checkRelations record = .ok ()) (hnew : tables.has type record.row.id = false)
    (hname : tables.checkName record.row = .ok ()) :
    ∃ stored after, tables.insert record = .ok (stored, after) := by
  unfold insert
  rw [hrelations, hnew, hname]
  exact ⟨_, _, rfl⟩

/-- What a replacement that succeeds has checked, and the tables it leaves. -/
theorem replace_eq_ok {type : ResourceType} {record stored : Record type} {tables after : Tables}
    (h : tables.replace record = .ok (stored, after)) :
    checkRelations record = .ok () ∧ tables.has type record.row.id = true ∧
      tables.checkName record.row = .ok () ∧
      after = ((tables.put record.row).dropItems type record.row.id).addItems
        record.row.id record.children ∧
      stored = after.record record.row := by
  unfold replace at h
  split at h
  · cases h
  · next hrelations =>
    split at h
    · cases h
    · next hthere =>
      split at h
      · cases h
      · next hname =>
        cases h
        exact ⟨hrelations, by simpa using hthere, hname, rfl, rfl⟩

/-- What an update that succeeds has checked, and the tables it leaves. -/
theorem update_eq_ok {type : ResourceType} {row stored : Row type} {tables after : Tables}
    (h : tables.update row = .ok (stored, after)) :
    tables.has type row.id = true ∧ tables.checkName row = .ok () ∧ stored = row ∧
      after = tables.put row := by
  unfold update at h
  split at h
  · cases h
  · next hthere =>
    split at h
    · cases h
    · next hname =>
      cases h
      exact ⟨by simpa using hthere, hname, rfl, rfl⟩

/-- A row that is stored and keeps its name can be updated. -/
theorem WellFormed.update_eq {type : ResourceType} {tables : Tables} (h : tables.WellFormed)
    {row stored : Row type} (hstored : tables.find? type row.id = some stored)
    (hname : row.uniqueName? = stored.uniqueName?) :
    tables.update row = .ok (row, tables.put row) := by
  have hthere : tables.has type row.id = true := by rw [has, hstored, Option.isSome_some]
  rw [update, hthere, h.checkName_eq_ok hstored hname]
  rfl

/-- What the insertion of an item that succeeds has checked, and the tables it leaves. -/
theorem insertItem_eq_ok {relation : Relation} {item stored : ItemRow} {tables after : Tables}
    (h : tables.insertItem relation item = .ok (stored, after)) :
    tables.has relation.owner item.owner = true ∧
      (∀ other ∈ tables.itemsOf relation, other.id ≠ item.id) ∧ stored = item ∧
      after = (tables.withList relation).link relation item := by
  unfold insertItem at h
  split at h
  · cases h
  · next howner =>
    split at h
    · cases h
    · next hnew =>
      cases h
      refine ⟨by simpa using howner, fun other hmem heq => hnew ?_, rfl, rfl⟩
      exact List.any_eq_true.mpr ⟨other, hmem, decide_eq_true heq⟩

/-- What the update of an item that succeeds has checked, and the tables it leaves. -/
theorem updateItem_eq_ok {relation : Relation} {item stored : ItemRow} {tables after : Tables}
    (h : tables.updateItem relation item = .ok (stored, after)) :
    (∃ other ∈ tables.itemsOf relation, other.id = item.id ∧ other.owner = item.owner) ∧
      stored = item ∧ after = tables.writeItem relation item := by
  unfold updateItem at h
  split at h
  · cases h
  · next other hfind =>
    split at h
    · cases h
    · next howner =>
      cases h
      have hid : other.id = item.id := by simpa using List.find?_some hfind
      have hmem := List.mem_of_find?_eq_some hfind
      exact ⟨⟨other, hmem, hid, of_not_not howner⟩, rfl, rfl⟩

/-- The items after one is written are the item itself and items that were there. -/
theorem mem_putItem {relation : Relation} {item : ItemRow} {items : List (Relation × ItemRow)}
    {entry : Relation × ItemRow} (h : entry ∈ putItem relation item items) :
    entry = (relation, item) ∨ entry ∈ items := by
  induction items with
  | nil => cases h
  | cons first items ih =>
    rw [putItem] at h
    split at h
    · exact (List.mem_cons.mp h).imp_right (List.mem_cons_of_mem _)
    · rcases List.mem_cons.mp h with heq | hmem
      · exact .inr (heq ▸ List.mem_cons_self)
      · exact (ih hmem).imp_right (List.mem_cons_of_mem _)

namespace WellFormed

variable {tables after : Tables} {type : ResourceType}

theorem insert (h : tables.WellFormed) {record stored : Record type}
    (hwrite : tables.insert record = .ok (stored, after)) : after.WellFormed := by
  obtain ⟨hrelations, -, hname, rfl, -⟩ := insert_eq_ok hwrite
  exact (h.put hname).addItems (has_put.mpr (.inl ⟨rfl, rfl⟩))
    (owner_eq_of_checkRelations hrelations)

theorem replace (h : tables.WellFormed) {record stored : Record type}
    (hwrite : tables.replace record = .ok (stored, after)) : after.WellFormed := by
  obtain ⟨hrelations, -, hname, rfl, -⟩ := replace_eq_ok hwrite
  have hdropped : ((tables.put record.row).dropItems type record.row.id).WellFormed :=
    (h.put hname).of_items_subset (List.filter_subset_self _)
  refine hdropped.addItems ?_ (owner_eq_of_checkRelations hrelations)
  rw [dropItems, has_mk_items]
  exact has_put.mpr (.inl ⟨rfl, rfl⟩)

theorem update (h : tables.WellFormed) {row stored : Row type}
    (hwrite : tables.update row = .ok (stored, after)) : after.WellFormed := by
  obtain ⟨-, hname, -, rfl⟩ := update_eq_ok hwrite
  exact h.put hname

theorem delete (h : tables.WellFormed) (type : ResourceType) (id : Uuid) :
    (tables.delete type id).2.WellFormed := by
  unfold Tables.delete
  split
  · exact h.drop type id
  · exact h

theorem insertItem (h : tables.WellFormed) {relation : Relation} {item stored : ItemRow}
    (hwrite : tables.insertItem relation item = .ok (stored, after)) : after.WellFormed := by
  obtain ⟨howner, -, -, rfl⟩ := insertItem_eq_ok hwrite
  obtain ⟨lists, heq⟩ := tables.withList_eq relation
  rw [heq]
  refine h.append_items fun r other hmem => ?_
  cases List.mem_singleton.mp hmem
  exact howner

theorem updateItem (h : tables.WellFormed) {relation : Relation} {item stored : ItemRow}
    (hwrite : tables.updateItem relation item = .ok (stored, after)) : after.WellFormed := by
  obtain ⟨⟨other, hother, -, howner⟩, -, rfl⟩ := updateItem_eq_ok hwrite
  refine ⟨fun type => by simpa only [writeItem, rows_mk_items] using h.keys type, h.names, ?_⟩
  intro r entry hmem
  rw [writeItem, has_mk_items]
  rcases mem_putItem hmem with heq | hmem
  · cases heq
    exact howner ▸ h.owners relation other (mem_itemsOf.mp hother)
  · exact h.owners r entry hmem

theorem deleteWhere (h : tables.WellFormed) (relation : Relation) (test : ItemRow → Bool) :
    (tables.deleteWhere relation test).2.WellFormed :=
  h.of_items_subset (List.filter_subset_self _)

end WellFormed

end Tables
end ScimDirectory
