import ScimDirectory.Proofs.Store.WellFormed

/-!
# Changes of items

The three things that can happen to the items of a relation as a whole: new ones come last, some
are rewritten in their places, some leave. Each is one equation for the items of a relation and
one for those of an owner, and calls on single items add up to them while keys are distinct.
-/

namespace ScimDirectory

/-- What an item becomes when others are written in turn, each in the place of its key. -/
def overlay (changed : List ItemRow) (item : ItemRow) : ItemRow :=
  changed.foldl (fun item new => if item.id = new.id then new else item) item

theorem overlay_singleton (new item : ItemRow) :
    overlay [new] item = if item.id = new.id then new else item := rfl

/-- Items keep their keys. -/
theorem id_overlay (changed : List ItemRow) (item : ItemRow) :
    (overlay changed item).id = item.id := by
  induction changed generalizing item with
  | nil => rfl
  | cons new changed ih =>
    rw [overlay, List.foldl_cons]
    refine (ih _).trans ?_
    split
    · next heq => exact heq.symm
    · rfl

/-- An item stays when no other has its key. -/
theorem overlay_of_not_mem {changed : List ItemRow} {item : ItemRow}
    (h : item.id ∉ changed.map ItemRow.id) : overlay changed item = item := by
  induction changed with
  | nil => rfl
  | cons new changed ih =>
    rw [List.map_cons, List.mem_cons, not_or] at h
    rw [overlay, List.foldl_cons, if_neg h.1]
    exact ih h.2

/-- Selected items become what a function makes of them, and other items stay. -/
theorem overlay_map {selected : List ItemRow} (hnodup : (selected.map ItemRow.id).Nodup)
    {f : ItemRow → ItemRow} (hf : ∀ item, (f item).id = item.id) {item : ItemRow}
    (hmem : item ∈ selected) : overlay (selected.map f) item = f item := by
  induction selected with
  | nil => cases hmem
  | cons first selected ih =>
    rw [List.map_cons, List.nodup_cons] at hnodup
    rw [List.map_cons, overlay, List.foldl_cons, hf]
    rcases List.mem_cons.mp hmem with rfl | hmem
    · rw [if_pos rfl]
      refine overlay_of_not_mem ?_
      rw [hf, List.map_map]
      exact (List.map_congr_left fun other _ => hf other) ▸ hnodup.1
    · have hne : item.id ≠ first.id := fun heq =>
        hnodup.1 (heq ▸ List.mem_map_of_mem hmem)
      rw [if_neg hne]
      exact ih hnodup.2 hmem

namespace Tables

variable {tables : Tables} {relation : Relation} {owner : Uuid}

/-- The tables with more items of a relation, linked one after the other. -/
def append (tables : Tables) (relation : Relation) : List ItemRow → Tables
  | [] => tables
  | item :: items => ((tables.withList relation).link relation item).append relation items

/-- The tables with each item of a relation rewritten in its place. -/
def rewrite (tables : Tables) (relation : Relation) (f : ItemRow → ItemRow) : Tables :=
  { tables with
    items := tables.items.map fun (r, item) => (r, if r = relation then f item else item) }

/-- More items come last, in some lists. -/
theorem append_eq (tables : Tables) (relation : Relation) (items : List ItemRow) :
    ∃ lists, tables.append relation items =
      { tables with items := tables.items ++ items.map (Prod.mk relation), lists } := by
  induction items generalizing tables with
  | nil => exact ⟨tables.lists, by simp [append]⟩
  | cons item items ih =>
    obtain ⟨first, hfirst⟩ := tables.withList_eq relation
    obtain ⟨lists, heq⟩ := ih ((tables.withList relation).link relation item)
    refine ⟨lists, heq.trans ?_⟩
    rw [link, hfirst, List.map_cons, List.append_assoc, List.singleton_append]

@[simp] theorem rows_append (tables : Tables) (relation : Relation) (items : List ItemRow)
    (type : ResourceType) : (tables.append relation items).rows type = tables.rows type := by
  obtain ⟨lists, heq⟩ := tables.append_eq relation items
  rw [heq, rows_mk_items]

@[simp] theorem find?_append (tables : Tables) (relation : Relation) (items : List ItemRow)
    (type : ResourceType) (id : Uuid) :
    (tables.append relation items).find? type id = tables.find? type id := by
  rw [find?, rows_append, find?]

@[simp] theorem has_append (tables : Tables) (relation : Relation) (items : List ItemRow)
    (type : ResourceType) (id : Uuid) :
    (tables.append relation items).has type id = tables.has type id := by
  rw [has, find?_append, has]

theorem itemsOf_append (tables : Tables) (relation : Relation) (items : List ItemRow)
    (other : Relation) :
    (tables.append relation items).itemsOf other =
      tables.itemsOf other ++ if other = relation then items else [] := by
  obtain ⟨lists, heq⟩ := tables.append_eq relation items
  simp only [heq, itemsOf, List.filterMap_append, List.filterMap_map]
  congr 1
  by_cases h : other = relation
  · subst h
    simp
  · have hne : relation ≠ other := fun heq => h heq.symm
    simp [h, hne]

@[simp] theorem rows_rewrite (tables : Tables) (relation : Relation) (f : ItemRow → ItemRow)
    (type : ResourceType) : (tables.rewrite relation f).rows type = tables.rows type :=
  rows_mk_items ..

theorem itemsOf_rewrite (tables : Tables) (relation : Relation) (f : ItemRow → ItemRow)
    (other : Relation) :
    (tables.rewrite relation f).itemsOf other =
      if other = relation then (tables.itemsOf relation).map f else tables.itemsOf other := by
  simp only [rewrite, itemsOf, List.filterMap_map]
  by_cases h : other = relation
  · subst h
    rw [if_pos rfl, List.map_filterMap]
    refine List.filterMap_congr fun entry _ => ?_
    by_cases hr : entry.1 = other <;> simp [hr]
  · rw [if_neg h]
    refine List.filterMap_congr fun entry _ => ?_
    by_cases hr : entry.1 = other
    · have hne : entry.1 ≠ relation := fun heq => h (hr.symm.trans heq)
      simp [hr, hr ▸ hne]
    · simp [hr]

theorem itemsOf_without (tables : Tables) (relation : Relation) (test : ItemRow → Bool)
    (other : Relation) :
    (tables.without relation test).itemsOf other =
      if other = relation then (tables.itemsOf relation).filter (fun item => !test item)
      else tables.itemsOf other := by
  simp only [without, itemsOf, List.filterMap_filter]
  by_cases h : other = relation
  · subst h
    rw [if_pos rfl, List.filter_filterMap]
    refine List.filterMap_congr fun entry _ => ?_
    by_cases hr : entry.1 = other <;> by_cases ht : test entry.2 <;> simp [hr, ht, Option.filter]
  · rw [if_neg h]
    refine List.filterMap_congr fun entry _ => ?_
    by_cases hr : entry.1 = other
    · have hne : entry.1 ≠ relation := fun heq => h (hr.symm.trans heq)
      simp [hr, hr ▸ hne]
    · simp [hr]

@[simp] theorem find?_addItems (tables : Tables) (owner : Uuid)
    (children : List (Relation × List ItemRow)) (type : ResourceType) (id : Uuid) :
    (tables.addItems owner children).find? type id = tables.find? type id := by
  rw [find?, rows_addItems, find?]

/-- Linking the items of children adds those that stand under each relation. -/
theorem itemsOf_addItems (tables : Tables) (owner : Uuid)
    (children : List (Relation × List ItemRow)) (other : Relation) :
    (tables.addItems owner children).itemsOf other = tables.itemsOf other ++
      (children.flatMap fun child => if child.1 = other then child.2 else []).map
        fun item => { item with owner } := by
  obtain ⟨lists, heq⟩ := tables.addItems_eq owner children
  simp only [heq, itemsOf, List.filterMap_append, List.filterMap_flatMap, List.map_flatMap]
  congr 1
  refine List.flatMap_congr fun child _ => ?_
  by_cases h : child.1 = other
  · simp [h]
  · simp [h]

/-- Linking the items of children adds those of each relation that they were made for. -/
theorem itemsOf_addItems_childrenOf (tables : Tables) (owner : Uuid) {relations : List Relation}
    (hnodup : relations.Nodup) (items : Relation → List ItemRow) (other : Relation) :
    (tables.addItems owner (childrenOf relations items)).itemsOf other =
      tables.itemsOf other ++
        if other ∈ relations then (items other).map fun item => { item with owner } else [] := by
  rw [itemsOf_addItems, flatMap_childrenOf hnodup, apply_ite (List.map _), List.map_nil]

/-- When items leave a relation, some of each relation stay. -/
theorem itemsOf_without_sublist (tables : Tables) (relation : Relation) (test : ItemRow → Bool)
    (other : Relation) :
    ((tables.without relation test).itemsOf other).Sublist (tables.itemsOf other) := by
  rw [itemsOf_without]
  split
  · next heq => exact heq ▸ List.filter_sublist
  · exact List.Sublist.refl _

/-- The owner of new items has them after those that were there. -/
theorem ownedItems_append_self {items : List ItemRow} (h : ∀ item ∈ items, item.owner = owner) :
    (tables.append relation items).ownedItems owner relation =
      tables.ownedItems owner relation ++ items := by
  have hall : items.filter (·.owner = owner) = items :=
    List.filter_eq_self.mpr fun item hmem => decide_eq_true (h item hmem)
  rw [ownedItems, itemsOf_append, if_pos rfl, List.filter_append, hall, ownedItems]

/-- Other owners and other relations have no new items. -/
theorem ownedItems_append_of_ne {items : List ItemRow} (h : ∀ item ∈ items, item.owner = owner)
    {other : Uuid} {r : Relation} (hne : ¬(other = owner ∧ r = relation)) :
    (tables.append relation items).ownedItems other r = tables.ownedItems other r := by
  rw [ownedItems, itemsOf_append, List.filter_append, ownedItems]
  by_cases hr : r = relation
  · have hother : owner ≠ other := fun heq => hne ⟨heq.symm, hr⟩
    have hnone : items.filter (·.owner = other) = [] :=
      List.filter_eq_nil_iff.mpr fun item hmem => by simp [h item hmem, hother]
    rw [if_pos hr, hnone, List.append_nil]
  · rw [if_neg hr, List.filter_nil, List.append_nil]

/-- Items that are rewritten with their owners stay where they are. -/
theorem ownedItems_rewrite {f : ItemRow → ItemRow} (h : ∀ item, (f item).owner = item.owner)
    (other : Uuid) (r : Relation) :
    (tables.rewrite relation f).ownedItems other r =
      if r = relation then (tables.ownedItems other relation).map f
      else tables.ownedItems other r := by
  rw [ownedItems, itemsOf_rewrite]
  by_cases hr : r = relation
  · rw [if_pos hr, if_pos hr, ownedItems, List.filter_map]
    simp only [Function.comp_def, h]
  · rw [if_neg hr, if_neg hr, ownedItems]

theorem ownedItems_without (tables : Tables) (relation : Relation) (test : ItemRow → Bool)
    (other : Uuid) (r : Relation) :
    (tables.without relation test).ownedItems other r =
      if r = relation then (tables.ownedItems other relation).filter (fun item => !test item)
      else tables.ownedItems other r := by
  rw [ownedItems, itemsOf_without]
  by_cases hr : r = relation
  · rw [if_pos hr, if_pos hr, ownedItems, List.filter_filter, List.filter_filter]
    exact List.filter_congr fun item _ => Bool.and_comm _ _
  · rw [if_neg hr, if_neg hr, ownedItems]

/-- When items of one owner leave, other owners and other relations keep theirs. -/
theorem ownedItems_without_of_ne {test : ItemRow → Bool}
    (h : ∀ item, test item = true → item.owner = owner) {other : Uuid} {r : Relation}
    (hne : ¬(other = owner ∧ r = relation)) :
    (tables.without relation test).ownedItems other r = tables.ownedItems other r := by
  rw [ownedItems_without]
  split
  · next hr =>
    subst hr
    refine List.filter_eq_self.mpr fun item hmem => ?_
    rw [Bool.not_eq_true']
    refine eq_false_of_ne_true fun htest => hne ⟨?_, rfl⟩
    exact (mem_ownedItems.mp hmem).2.symm.trans (h item htest)
  · rfl

/-- Items that leave in two turns leave at once. -/
theorem without_without (tables : Tables) (relation : Relation) (test more : ItemRow → Bool) :
    (tables.without relation test).without relation more =
      tables.without relation fun item => test item || more item := by
  simp only [without, List.filter_filter]
  congr 1
  refine List.filter_congr fun entry _ => ?_
  by_cases h : entry.1 = relation <;> simp [h, Bool.and_comm]

/-- Which items leave matters on the items of the relation only. -/
theorem without_congr {test other : ItemRow → Bool}
    (h : ∀ item ∈ tables.itemsOf relation, test item = other item) :
    tables.without relation test = tables.without relation other := by
  simp only [without]
  congr 1
  refine List.filter_congr fun entry hmem => ?_
  by_cases hr : entry.1 = relation
  · have hitem : (relation, entry.2) ∈ tables.items := hr ▸ hmem
    simp [hr, h entry.2 (mem_itemsOf.mpr hitem)]
  · simp [hr]

theorem without_none (tables : Tables) (relation : Relation) :
    tables.without relation (fun _ => false) = tables := by
  simp [without]

/-- Rows are found as before when items leave. -/
@[simp] theorem find?_without (tables : Tables) (relation : Relation) (test : ItemRow → Bool)
    (type : ResourceType) (id : Uuid) :
    (tables.without relation test).find? type id = tables.find? type id :=
  find?_mk_items ..

/-- An owner whose items leave has none. -/
theorem ownedItems_without_owner (tables : Tables) (relation : Relation) (owner : Uuid) :
    (tables.without relation fun item => item.owner = owner).ownedItems owner relation = [] := by
  rw [ownedItems_without, if_pos rfl]
  refine List.filter_eq_nil_iff.mpr fun item hmem => ?_
  simp [(mem_ownedItems.mp hmem).2]

theorem itemsOf_dropItems (tables : Tables) (type : ResourceType) (owner : Uuid)
    (r : Relation) :
    (tables.dropItems type owner).itemsOf r =
      if r.owner = type then (tables.itemsOf r).filter (·.owner ≠ owner)
      else tables.itemsOf r := by
  simp only [dropItems, itemsOf, List.filterMap_filter]
  by_cases h : r.owner = type
  · rw [if_pos h, List.filter_filterMap]
    refine List.filterMap_congr fun entry _ => ?_
    by_cases hr : entry.1 = r <;> by_cases ho : entry.2.owner = owner <;>
      simp [hr, ho, h, Option.filter]
  · rw [if_neg h]
    refine List.filterMap_congr fun entry _ => ?_
    by_cases hr : entry.1 = r <;> simp [hr, h]

/-- Dropping the items of an owner leaves some of each relation. -/
theorem itemsOf_dropItems_sublist (tables : Tables) (type : ResourceType) (owner : Uuid)
    (r : Relation) : ((tables.dropItems type owner).itemsOf r).Sublist (tables.itemsOf r) := by
  rw [itemsOf_dropItems]
  split
  · exact List.filter_sublist
  · exact List.Sublist.refl _

/-- Deleting a row leaves some of the items of each relation. -/
theorem itemsOf_delete_sublist (tables : Tables) (type : ResourceType) (id : Uuid)
    (r : Relation) : ((tables.delete type id).2.itemsOf r).Sublist (tables.itemsOf r) := by
  unfold delete
  split
  · exact tables.itemsOf_dropRow id ▸ itemsOf_dropItems_sublist (tables.dropRow type id) ..
  · exact List.Sublist.refl _

/-- An owner whose items are dropped has none, and other owners keep theirs. -/
theorem ownedItems_dropItems (tables : Tables) (type : ResourceType) (owner other : Uuid)
    (r : Relation) :
    (tables.dropItems type owner).ownedItems other r =
      if r.owner = type ∧ other = owner then [] else tables.ownedItems other r := by
  rw [ownedItems, itemsOf_dropItems]
  by_cases htype : r.owner = type
  · rw [if_pos htype, List.filter_filter]
    by_cases hother : other = owner
    · subst hother
      rw [if_pos ⟨htype, rfl⟩]
      exact List.filter_eq_nil_iff.mpr fun item _ => by simp
    · rw [if_neg fun h => hother h.2, ownedItems]
      refine List.filter_congr fun item _ => ?_
      by_cases ho : item.owner = other
      · simp [ho, hother]
      · simp [ho]
  · rw [if_neg htype, if_neg fun h => htype h.1, ownedItems]

/-- Rewriting twice is rewriting by both in turn. -/
theorem rewrite_rewrite (tables : Tables) (relation : Relation) (f g : ItemRow → ItemRow) :
    (tables.rewrite relation f).rewrite relation g = tables.rewrite relation fun item =>
      g (f item) := by
  simp only [rewrite, List.map_map]
  congr 1
  refine List.map_congr_left fun entry _ => ?_
  by_cases h : entry.1 = relation <;> simp [h]

/-- Rewriting matters on the items of the relation only. -/
theorem rewrite_congr {f g : ItemRow → ItemRow}
    (h : ∀ item ∈ tables.itemsOf relation, f item = g item) :
    tables.rewrite relation f = tables.rewrite relation g := by
  simp only [rewrite]
  congr 1
  refine List.map_congr_left fun entry hmem => ?_
  by_cases hr : entry.1 = relation
  · have hitem : (relation, entry.2) ∈ tables.items := hr ▸ hmem
    simp [hr, h entry.2 (mem_itemsOf.mpr hitem)]
  · simp [hr]

theorem rewrite_id (tables : Tables) (relation : Relation) :
    tables.rewrite relation (fun item => item) = tables := by
  simp [rewrite]

/-- While keys are distinct, writing an item rewrites the one with its key. -/
theorem putItem_eq_rewrite (hunique : ((tables.itemsOf relation).map ItemRow.id).Nodup)
    (item : ItemRow) :
    tables.writeItem relation item = tables.rewrite relation (overlay [item]) := by
  obtain ⟨users, groups, items, lists⟩ := tables
  simp only [writeItem, rewrite, mk.injEq, true_and, and_true, overlay_singleton]
  simp only [itemsOf] at hunique
  induction items with
  | nil => rfl
  | cons entry items ih =>
    obtain ⟨r, other⟩ := entry
    rw [putItem, List.map_cons]
    by_cases hr : r = relation
    · subst hr
      simp only [List.filterMap_cons, if_true, List.map_cons, List.nodup_cons] at hunique
      obtain ⟨hother, hunique⟩ := hunique
      by_cases hid : other.id = item.id
      · have hrest : ∀ rest ∈ items,
            (rest.1, if rest.1 = r then if rest.2.id = item.id then item else rest.2
              else rest.2) = rest := by
          rintro ⟨r', rest⟩ hmem
          by_cases hr' : r' = r
          · subst hr'
            have hne : rest.id ≠ item.id := by
              intro heq
              refine hother (List.mem_map.mpr ⟨rest, ?_, heq.trans hid.symm⟩)
              exact List.mem_filterMap.mpr ⟨(r', rest), hmem, by simp⟩
            simp [hne]
          · simp [hr']
        simp only [hid, and_self, if_true, List.cons.injEq, true_and]
        exact ((List.map_congr_left hrest).trans (List.map_id' items)).symm
      · simp only [hid, and_false, if_false, if_true, List.cons.injEq, true_and]
        exact ih hunique
    · simp only [hr, List.filterMap_cons, if_false] at hunique
      simp only [hr, false_and, if_false, List.cons.injEq, true_and]
      exact ih hunique

/-- While keys are distinct, an item with the key and the owner of a stored one can be written. -/
theorem updateItem_eq (hunique : ((tables.itemsOf relation).map ItemRow.id).Nodup)
    {item stored : ItemRow} (hmem : stored ∈ tables.itemsOf relation) (hid : stored.id = item.id)
    (howner : stored.owner = item.owner) :
    tables.updateItem relation item = .ok (item, tables.rewrite relation (overlay [item])) := by
  have hfind : (tables.itemsOf relation).find? (·.id = item.id) = some stored := by
    cases hfound : (tables.itemsOf relation).find? (·.id = item.id) with
    | none => simpa [hid] using List.find?_eq_none.mp hfound stored hmem
    | some found =>
      have hkey : found.id = item.id := by simpa using List.find?_some hfound
      rw [List.inj_on_of_nodup_map hunique (List.mem_of_find?_eq_some hfound) hmem
        (hkey.trans hid.symm)]
  rw [updateItem, hfind]
  simp only [howner, ne_eq, not_true_eq_false, if_false, putItem_eq_rewrite hunique]

/-- An item with a new key and an owner that is there can be linked. -/
theorem insertItem_eq {item : ItemRow} (howner : tables.has relation.owner item.owner = true)
    (hnew : ∀ other ∈ tables.itemsOf relation, other.id ≠ item.id) :
    tables.insertItem relation item = .ok (item, tables.append relation [item]) := by
  have hfresh : (tables.itemsOf relation).any (·.id = item.id) = false :=
    List.any_eq_false.mpr fun other hmem => by simp [hnew other hmem]
  simp [insertItem, howner, hfresh, append]

end Tables
end ScimDirectory
