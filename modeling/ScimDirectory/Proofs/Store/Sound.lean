import ScimDirectory.Proofs.Store.Changes

/-!
# Drawn keys

Items of a directory get keys that are drawn, one draw for all items of a request, each in its
place. Tables are sound after some draws when they are well formed, keys are distinct within each
relation, and every key is from one of these draws. So a further draw has only new keys.
-/

namespace ScimDirectory

/-- Keys of one draw, each with a place of its own. -/
structure FreshKeys (draw : Nat) (items : List ItemRow) : Prop where
  /-- No two items have the same key. -/
  nodup : (items.map ItemRow.id).Nodup
  /-- Every key is from the draw. -/
  drawn : ∀ item ∈ items, ∃ place, item.id = .drawn draw place

namespace FreshKeys

variable {draw : Nat} {items : List ItemRow}

theorem nil : FreshKeys draw [] := ⟨List.nodup_nil, fun _ hmem => nomatch hmem⟩

/-- Some of the items have fresh keys too. -/
theorem sublist (h : FreshKeys draw items) {some : List ItemRow} (hsub : some.Sublist items) :
    FreshKeys draw some :=
  ⟨h.nodup.sublist (hsub.map _), fun item hmem => h.drawn item (hsub.subset hmem)⟩

/-- Keys that are the places from some place on are fresh. -/
theorem of_map_id {start : Nat}
    (h : items.map ItemRow.id = (List.range' start items.length).map (.drawn draw)) :
    FreshKeys draw items where
  nodup := by
    rw [h]
    exact (List.nodup_range' 1).map fun _ _ heq => (ItemId.drawn.inj heq).2
  drawn := by
    intro item hmem
    have hkey : item.id ∈ items.map ItemRow.id := List.mem_map_of_mem hmem
    rw [h] at hkey
    obtain ⟨place, -, heq⟩ := List.mem_map.mp hkey
    exact ⟨place, heq.symm⟩

end FreshKeys

/-- A record as the directory makes it: its items are those of its type's relations, they name the
record as their owner, and their keys are from one draw. -/
structure Record.Drawn {type : ResourceType} (record : Record type) (draw : Nat) : Prop where
  /-- Every relation of the type, and no other one, is among the children. -/
  children : record.children = childrenOf (Relation.ofType type) record.items
  /-- The keys of each relation are from the draw. -/
  fresh : ∀ relation, FreshKeys draw (record.items relation)
  /-- The record owns its items. -/
  owners : ∀ relation, ∀ item ∈ record.items relation, item.owner = record.row.id

/-- A record is drawn when its relations' items are. -/
theorem drawn_childrenOf {type : ResourceType} {row : Row type} {draw : Nat}
    {items : Relation → List ItemRow} (hfresh : ∀ relation, FreshKeys draw (items relation))
    (howners : ∀ relation, ∀ item ∈ items relation, item.owner = row.id) :
    (⟨row, childrenOf (Relation.ofType type) items⟩ : Record type).Drawn draw where
  children := by
    refine childrenOf_congr fun relation hmem => ?_
    rw [items_childrenOf, if_pos (Relation.mem_ofType.mp hmem)]
  fresh := by
    intro relation
    rw [items_childrenOf]
    split
    · exact hfresh relation
    · exact FreshKeys.nil
  owners := by
    intro relation item hmem
    rw [items_childrenOf] at hmem
    split at hmem
    · exact howners relation item hmem
    · cases hmem

namespace Record.Drawn

variable {type : ResourceType} {record : Record type} {draw : Nat}

/-- A record has items of the relations of its type only. -/
theorem items_eq_nil (h : record.Drawn draw) {relation : Relation} (hne : relation.owner ≠ type) :
    record.items relation = [] := by
  have hlookup := lookup_childrenOf (Relation.ofType type) record.items relation
  rw [← h.children, if_neg (mt Relation.mem_ofType.mp hne)] at hlookup
  exact hlookup

/-- Linking the children of a record adds its items. -/
theorem itemsOf_addItems (h : record.Drawn draw) (tables : Tables) (relation : Relation) :
    (tables.addItems record.row.id record.children).itemsOf relation =
      tables.itemsOf relation ++ record.items relation := by
  have howned : (record.items relation).map (fun item => { item with owner := record.row.id }) =
      record.items relation := by
    refine (List.map_congr_left fun item hmem => ?_).trans (List.map_id _)
    rw [← h.owners relation item hmem]
    rfl
  rw [h.children, Tables.itemsOf_addItems_childrenOf tables _ (Relation.nodup_ofType type), howned]
  by_cases hmem : relation ∈ Relation.ofType type
  · rw [if_pos hmem]
  · rw [if_neg hmem, h.items_eq_nil (mt Relation.mem_ofType.mpr hmem)]

/-- The owner of a record's items has them after those that were there. -/
theorem ownedItems_addItems (h : record.Drawn draw) (tables : Tables) (owner : Uuid)
    (relation : Relation) :
    (tables.addItems record.row.id record.children).ownedItems owner relation =
      tables.ownedItems owner relation ++
        if owner = record.row.id then record.items relation else [] := by
  rw [Tables.ownedItems, h.itemsOf_addItems, List.filter_append, Tables.ownedItems]
  congr 1
  by_cases howner : owner = record.row.id
  · rw [if_pos howner]
    exact List.filter_eq_self.mpr fun item hmem => by simp [h.owners relation item hmem, howner]
  · rw [if_neg howner]
    refine List.filter_eq_nil_iff.mpr fun item hmem => ?_
    simp [h.owners relation item hmem, Ne.symm howner]

end Record.Drawn

namespace Tables

section

variable {tables after : Tables} {type : ResourceType} {record stored : Record type} {draw : Nat}

/-- After an insertion the new owner has the items of the record, and other owners keep theirs. -/
theorem ownedItems_insert (h : tables.WellFormed) (hdrawn : record.Drawn draw)
    (hwrite : tables.insert record = .ok (stored, after)) (owner : Uuid) (relation : Relation) :
    after.ownedItems owner relation =
      if relation.owner = type ∧ owner = record.row.id then record.items relation
      else tables.ownedItems owner relation := by
  obtain ⟨-, hnew, -, rfl, -⟩ := insert_eq_ok hwrite
  rw [hdrawn.ownedItems_addItems, ownedItems_put]
  by_cases howner : owner = record.row.id
  · by_cases htype : relation.owner = type
    · have hnone : tables.ownedItems owner relation = [] := by
        refine List.eq_nil_iff_forall_not_mem.mpr fun item hmem => ?_
        obtain ⟨hstored, hsame⟩ := mem_ownedItems.mp hmem
        have hthere := h.owners relation item hstored
        rw [htype, hsame, howner, hnew] at hthere
        cases hthere
      rw [if_pos howner, if_pos ⟨htype, howner⟩, hnone, List.nil_append]
    · rw [if_pos howner, if_neg fun h => htype h.1, hdrawn.items_eq_nil htype, List.append_nil]
  · rw [if_neg howner, if_neg fun h => howner h.2, List.append_nil]

/-- After a replacement the owner has the items of the record, and other owners keep theirs. -/
theorem ownedItems_replace (hdrawn : record.Drawn draw)
    (hwrite : tables.replace record = .ok (stored, after)) (owner : Uuid) (relation : Relation) :
    after.ownedItems owner relation =
      if relation.owner = type ∧ owner = record.row.id then record.items relation
      else tables.ownedItems owner relation := by
  obtain ⟨-, -, -, rfl, -⟩ := replace_eq_ok hwrite
  rw [hdrawn.ownedItems_addItems, ownedItems_dropItems, ownedItems_put]
  by_cases howner : owner = record.row.id
  · by_cases htype : relation.owner = type
    · rw [if_pos howner, if_pos ⟨htype, howner⟩, if_pos ⟨htype, howner⟩, List.nil_append]
    · rw [if_pos howner, if_neg fun h => htype h.1, if_neg fun h => htype h.1,
        hdrawn.items_eq_nil htype, List.append_nil]
  · rw [if_neg howner, if_neg fun h => howner h.2, if_neg fun h => howner h.2, List.append_nil]

/-- A deletion takes the items of the owner only. -/
theorem ownedItems_delete (tables : Tables) (type : ResourceType) (id owner : Uuid)
    (relation : Relation) :
    (tables.delete type id).2.ownedItems owner relation =
      if tables.has type id ∧ relation.owner = type ∧ owner = id then []
      else tables.ownedItems owner relation := by
  unfold delete
  split
  · next hthere =>
    rw [ownedItems_dropItems, ownedItems_dropRow]
    simp only [hthere, true_and]
  · next hgone => rw [if_neg fun h => hgone h.1]

end

/-- The integrity of tables after some draws of keys. -/
structure Sound (tables : Tables) (draws : Nat) : Prop extends tables.WellFormed where
  /-- No two items of a relation have the same key. -/
  unique : ∀ relation, ((tables.itemsOf relation).map ItemRow.id).Nodup
  /-- Every key of an item has been drawn. -/
  drawn : ∀ relation, ∀ item ∈ tables.itemsOf relation,
    ∃ draw place, item.id = .drawn draw place ∧ draw < draws

theorem sound_empty (draws : Nat) : empty.Sound draws :=
  ⟨wellFormed_empty, fun _ => List.nodup_nil, fun _ _ hmem => nomatch hmem⟩

namespace Sound

variable {tables after : Tables} {draws : Nat} {relation : Relation}

/-- Soundness outlasts further draws. -/
theorem mono (h : tables.Sound draws) {more : Nat} (hle : draws ≤ more) : tables.Sound more where
  toWellFormed := h.toWellFormed
  unique := h.unique
  drawn := by
    intro relation item hmem
    obtain ⟨draw, place, hid, hlt⟩ := h.drawn relation item hmem
    exact ⟨draw, place, hid, Nat.lt_of_lt_of_le hlt hle⟩

/-- No two items of an owner's relation have the same key. -/
theorem unique_owned (h : tables.Sound draws) (owner : Uuid) (relation : Relation) :
    ((tables.ownedItems owner relation).map ItemRow.id).Nodup :=
  (h.unique relation).sublist (List.filter_sublist.map _)

/-- No stored item has a fresh key. -/
theorem ne_of_fresh (h : tables.Sound draws) {fresh : List ItemRow} (hfresh : FreshKeys draws fresh)
    {item new : ItemRow} (hitem : item ∈ tables.itemsOf relation) (hnew : new ∈ fresh) :
    item.id ≠ new.id := by
  obtain ⟨draw, place, hid, hlt⟩ := h.drawn relation item hitem
  obtain ⟨place', hid'⟩ := hfresh.drawn new hnew
  rw [hid, hid']
  intro heq
  exact Nat.ne_of_lt hlt (ItemId.drawn.inj heq).1

/-- Tables stay sound when each relation keeps some of its items and gets items with fresh keys. -/
theorem add (h : tables.Sound draws) (hwell : after.WellFormed) {fresh : Relation → List ItemRow}
    (hfresh : ∀ relation, FreshKeys draws (fresh relation))
    (hitems : ∀ relation, ∃ kept, kept.Sublist (tables.itemsOf relation) ∧
      after.itemsOf relation = kept ++ fresh relation) : after.Sound (draws + 1) where
  toWellFormed := hwell
  unique := by
    intro relation
    obtain ⟨kept, hsub, heq⟩ := hitems relation
    rw [heq, List.map_append]
    refine List.nodup_append'.mpr ⟨(h.unique relation).sublist (hsub.map _),
      (hfresh relation).nodup, fun key hkept hnew => ?_⟩
    obtain ⟨item, hitem, rfl⟩ := List.mem_map.mp hkept
    obtain ⟨new, hmem, hid⟩ := List.mem_map.mp hnew
    exact h.ne_of_fresh (hfresh relation) (hsub.subset hitem) hmem hid.symm
  drawn := by
    intro relation item hmem
    obtain ⟨kept, hsub, heq⟩ := hitems relation
    rw [heq] at hmem
    rcases List.mem_append.mp hmem with hmem | hmem
    · obtain ⟨draw, place, hid, hlt⟩ := h.drawn relation item (hsub.subset hmem)
      exact ⟨draw, place, hid, Nat.lt_succ_of_lt hlt⟩
    · obtain ⟨place, hid⟩ := (hfresh relation).drawn item hmem
      exact ⟨draws, place, hid, Nat.lt_succ_self draws⟩

/-- Tables stay sound when relations lose items. -/
theorem shrink (h : tables.Sound draws) (hwell : after.WellFormed)
    (hitems : ∀ relation, (after.itemsOf relation).Sublist (tables.itemsOf relation)) :
    after.Sound draws where
  toWellFormed := hwell
  unique relation := (h.unique relation).sublist ((hitems relation).map _)
  drawn relation item hmem := h.drawn relation item ((hitems relation).subset hmem)

/-- A change that leaves the items alone keeps tables sound. -/
theorem of_items_eq (h : tables.Sound draws) (hwell : after.WellFormed)
    (hitems : after.items = tables.items) : after.Sound draws :=
  h.shrink hwell fun relation => by simp only [itemsOf, hitems, List.Sublist.refl]

theorem update {type : ResourceType} (h : tables.Sound draws) {row stored : Row type}
    (hwrite : tables.update row = .ok (stored, after)) : after.Sound draws := by
  refine h.of_items_eq (h.toWellFormed.update hwrite) ?_
  obtain ⟨-, -, -, rfl⟩ := update_eq_ok hwrite
  exact items_put tables row

theorem insert {type : ResourceType} (h : tables.Sound draws) {record stored : Record type}
    (hdrawn : record.Drawn draws) (hwrite : tables.insert record = .ok (stored, after)) :
    after.Sound (draws + 1) := by
  refine h.add (h.toWellFormed.insert hwrite) hdrawn.fresh fun relation => ?_
  obtain ⟨-, -, -, rfl, -⟩ := insert_eq_ok hwrite
  refine ⟨tables.itemsOf relation, List.Sublist.refl _, ?_⟩
  rw [hdrawn.itemsOf_addItems, itemsOf_put]

theorem replace {type : ResourceType} (h : tables.Sound draws) {record stored : Record type}
    (hdrawn : record.Drawn draws) (hwrite : tables.replace record = .ok (stored, after)) :
    after.Sound (draws + 1) := by
  refine h.add (h.toWellFormed.replace hwrite) hdrawn.fresh fun relation => ?_
  obtain ⟨-, -, -, rfl, -⟩ := replace_eq_ok hwrite
  refine ⟨_, ?_, hdrawn.itemsOf_addItems _ relation⟩
  exact tables.itemsOf_put record.row ▸ itemsOf_dropItems_sublist (tables.put record.row) ..

theorem delete (h : tables.Sound draws) (type : ResourceType) (id : Uuid) :
    (tables.delete type id).2.Sound draws :=
  h.shrink (h.toWellFormed.delete type id) (tables.itemsOf_delete_sublist type id)

theorem append (h : tables.Sound draws) {items : List ItemRow} (hfresh : FreshKeys draws items)
    (howners : ∀ item ∈ items, tables.has relation.owner item.owner = true) :
    (tables.append relation items).Sound (draws + 1) := by
  have hwell : (tables.append relation items).WellFormed := by
    obtain ⟨lists, heq⟩ := tables.append_eq relation items
    rw [heq]
    refine h.toWellFormed.append_items fun r item hmem => ?_
    obtain ⟨item, hitem, heq⟩ := List.mem_map.mp hmem
    cases heq
    exact howners item hitem
  refine @add _ _ _ h hwell (fun r => if r = relation then items else []) (fun r => ?_)
    fun r => ⟨_, List.Sublist.refl _, itemsOf_append tables relation items r⟩
  split
  · exact hfresh
  · exact FreshKeys.nil

theorem rewrite (h : tables.Sound draws) {f : ItemRow → ItemRow}
    (hid : ∀ item, (f item).id = item.id) (howner : ∀ item, (f item).owner = item.owner) :
    (tables.rewrite relation f).Sound draws where
  keys type := by simpa only [Tables.rewrite, rows_mk_items] using h.keys type
  names := h.names
  owners := by
    intro r item hmem
    rw [Tables.rewrite, has_mk_items]
    obtain ⟨⟨r', stored⟩, hstored, heq⟩ := List.mem_map.mp hmem
    obtain ⟨rfl, rfl⟩ := Prod.mk.inj heq
    split
    · rw [howner]
      exact h.owners r' stored hstored
    · exact h.owners r' stored hstored
  unique := by
    intro r
    rw [itemsOf_rewrite]
    split
    · rw [List.map_map]
      exact (List.map_congr_left fun item _ => (hid item).symm) ▸ h.unique relation
    · exact h.unique r
  drawn := by
    intro r item hmem
    rw [itemsOf_rewrite] at hmem
    split at hmem
    · obtain ⟨stored, hstored, rfl⟩ := List.mem_map.mp hmem
      rw [hid]
      exact h.drawn relation stored hstored
    · exact h.drawn r item hmem

theorem without (h : tables.Sound draws) (relation : Relation) (test : ItemRow → Bool) :
    (tables.without relation test).Sound draws :=
  h.shrink (h.toWellFormed.deleteWhere relation test) (tables.itemsOf_without_sublist relation test)

end Sound

end Tables

end ScimDirectory
