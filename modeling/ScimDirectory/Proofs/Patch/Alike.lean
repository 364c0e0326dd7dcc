import ScimDirectory.Proofs.Directory.Preferred
import ScimDirectory.Proofs.Patch.Items
import ScimDirectory.Proofs.Store.Cells

/-!
# Items that count as the same

Two items of a relation count as the same when some of their columns agree, and which these are
depends on the relation only. The items that an addition takes as new are those of which none
before them is the same: no two of them are the same, and each item that is left out has one that
is. A value is decoded to the same columns whatever keys its items get.
-/

namespace ScimDirectory

namespace Patch

variable {relation : Relation}

/-- What tells the items of a relation apart. -/
def likeness (relation : Relation) (item : ItemRow) : List (Option String) :=
  match relation with
  | .addresses => item.addressParts
  | _ => [item.ref, item.type, item.value]

theorem sameItem_iff {a b : ItemRow} :
    sameItem relation a b = true ↔ likeness relation a = likeness relation b := by
  cases relation <;> simp [sameItem, likeness, ItemRow.identity]

/-- What tells items apart is in their columns. -/
theorem likeness_congr {a b : ItemRow} (h : a.cell = b.cell) :
    likeness relation a = likeness relation b := by
  unfold likeness
  split
  · simp only [ItemRow.addressParts, textCell_inj (congrFun h .formatted),
      textCell_inj (congrFun h .streetAddress), textCell_inj (congrFun h .locality),
      textCell_inj (congrFun h .region), textCell_inj (congrFun h .postalCode),
      textCell_inj (congrFun h .country), textCell_inj (congrFun h .type)]
  · rw [textCell_inj (congrFun h .ref), textCell_inj (congrFun h .type),
      textCell_inj (congrFun h .value)]

/-- Items of which no two are the same. -/
def AllDiffer (relation : Relation) (items : List ItemRow) : Prop :=
  items.Pairwise fun a b => sameItem relation a b = false

theorem allDiffer_iff {items : List ItemRow} :
    AllDiffer relation items ↔ (items.map (likeness relation)).Nodup := by
  simp only [AllDiffer, ← Bool.not_eq_true, sameItem_iff, List.Nodup, List.pairwise_map, ne_eq]

/-- New items differ from one another, and from those that are known. -/
theorem allDiffer_newItems (known items : List ItemRow) :
    AllDiffer relation (newItems relation known items) ∧
      ∀ old ∈ known, ∀ item ∈ newItems relation known items,
        sameItem relation old item = false := by
  induction items generalizing known with
  | nil => exact ⟨List.Pairwise.nil, fun _ _ _ hmem => nomatch hmem⟩
  | cons item items ih =>
    rw [newItems]
    split
    · exact ih known
    · next hnew =>
      obtain ⟨hdiffer, hknown⟩ := ih (known ++ [item])
      have hold : ∀ old ∈ known, sameItem relation old item = false := fun old hmem =>
        eq_false_of_ne_true fun hsame => hnew (List.any_eq_true.mpr ⟨old, hmem, hsame⟩)
      refine ⟨List.pairwise_cons.mpr ⟨hknown item (by simp), hdiffer⟩,
        fun old hmem other hother => ?_⟩
      rcases List.mem_cons.mp hother with rfl | hother
      · exact hold old hmem
      · exact hknown old (List.mem_append_left _ hmem) other hother

/-- Every item is the same as a known one or a new one. -/
theorem exists_sameItem_newItems (known items : List ItemRow) :
    ∀ item ∈ items, ∃ kept ∈ known ++ newItems relation known items,
      sameItem relation kept item = true := by
  induction items generalizing known with
  | nil => exact fun _ hmem => nomatch hmem
  | cons first items ih =>
    intro item hmem
    rw [newItems]
    split
    · next hknown =>
      rcases List.mem_cons.mp hmem with rfl | hmem
      · obtain ⟨old, hold, hsame⟩ := List.any_eq_true.mp hknown
        exact ⟨old, List.mem_append_left _ hold, hsame⟩
      · exact ih known item hmem
    · rcases List.mem_cons.mp hmem with rfl | hmem
      · exact ⟨item, by simp, sameItem_iff.mpr rfl⟩
      · obtain ⟨kept, hkept, hsame⟩ := ih (known ++ [first]) item hmem
        rw [List.append_assoc] at hkept
        exact ⟨kept, hkept, hsame⟩

/-- Items that are all known are not new. -/
theorem newItems_eq_nil {known items : List ItemRow}
    (h : ∀ item ∈ items, ∃ old ∈ known, sameItem relation old item = true) :
    newItems relation known items = [] := by
  induction items with
  | nil => rfl
  | cons item items ih =>
    obtain ⟨hfirst, hrest⟩ := List.forall_mem_cons.mp h
    rw [newItems, if_pos (List.any_eq_true.mpr hfirst), ih hrest]

/-- Items that differ from one another and from those that are known are all new. -/
theorem newItems_eq_self {known items : List ItemRow} (hdiffer : AllDiffer relation items)
    (hknown : ∀ old ∈ known, ∀ item ∈ items, sameItem relation old item = false) :
    newItems relation known items = items := by
  induction items generalizing known with
  | nil => rfl
  | cons item items ih =>
    obtain ⟨hfirst, hrest⟩ := List.pairwise_cons.mp hdiffer
    have hnone : ¬known.any (sameItem relation · item) = true := by
      rintro hany
      obtain ⟨old, hold, hsame⟩ := List.any_eq_true.mp hany
      rw [hknown old hold item List.mem_cons_self] at hsame
      cases hsame
    rw [newItems, if_neg hnone, ih hrest]
    intro old hold other hother
    rcases List.mem_append.mp hold with hold | hold
    · exact hknown old hold other (List.mem_cons_of_mem _ hother)
    · obtain rfl := List.mem_singleton.mp hold
      exact hfirst other hother

/-- Among no known items, all items are new exactly when they differ from one another. -/
theorem newItems_nil_iff {items : List ItemRow} :
    newItems relation [] items = items ↔ AllDiffer relation items :=
  ⟨fun h => h ▸ (allDiffer_newItems [] items).1,
    fun h => newItems_eq_self h fun _ hmem => nomatch hmem⟩

/-- A value is decoded to the same columns, or refused with the same error, whatever its key. -/
theorem map_cell_item (root : ServiceRoot) (id id' : ItemId) (owner : Uuid) (value : Json) :
    (item root relation id owner value).map ItemRow.cell =
      (item root relation id' owner value).map ItemRow.cell := by
  cases relation with
  | values c =>
    simp only [item]
    split
    · rfl
    · next v _ => cases MultiValue.checkValues c.attributeName [v] <;> rfl
  | addresses =>
    simp only [item]
    split <;> rfl
  | members =>
    simp only [item]
    split
    · rfl
    · next member _ => cases member.validate <;> rfl

theorem map_cell_itemsFrom (root : ServiceRoot) (draw draw' place place' : Nat) (owner : Uuid)
    (values : List Json) :
    (itemsFrom root relation draw place owner values).map (List.map ItemRow.cell) =
      (itemsFrom root relation draw' place' owner values).map (List.map ItemRow.cell) := by
  have hcons (draw place : Nat) (value : Json) (values : List Json) :
      itemsFrom root relation draw place owner (value :: values) =
        (item root relation (.drawn draw place) owner value).bind fun row =>
          (itemsFrom root relation draw (place + 1) owner values).map (row :: ·) := by
    rw [itemsFrom]
    cases item root relation (.drawn draw place) owner value <;> rfl
  have hmap (first : Except DirectoryError ItemRow) (rest : Except DirectoryError (List ItemRow)) :
      (first.bind fun row => rest.map (row :: ·)).map (List.map ItemRow.cell) =
        (first.map ItemRow.cell).bind fun cells =>
          (rest.map (List.map ItemRow.cell)).map (cells :: ·) := by
    cases first <;> cases rest <;> rfl
  induction values generalizing place place' with
  | nil => rfl
  | cons value values ih =>
    rw [hcons, hcons, hmap, hmap, ih (place + 1) (place' + 1),
      map_cell_item root (.drawn draw place) (.drawn draw' place')]

/-- The items of a value have the same columns in every draw. -/
theorem map_cell_items (root : ServiceRoot) (draw draw' : Nat) (owner : Uuid) (value : Json) :
    (items root relation draw owner value).map (List.map ItemRow.cell) =
      (items root relation draw' owner value).map (List.map ItemRow.cell) := by
  unfold items
  split <;> exact map_cell_itemsFrom ..

/-- A value that is decoded in one draw is decoded in every other one, to the same columns. -/
theorem exists_items (root : ServiceRoot) {draw : Nat} (draw' : Nat) {owner : Uuid} {value : Json}
    {rows : List ItemRow} (h : items root relation draw owner value = .ok rows) :
    ∃ rows', items root relation draw' owner value = .ok rows' ∧
      rows'.map ItemRow.cell = rows.map ItemRow.cell := by
  have hcells : (items root relation draw' owner value).map (List.map ItemRow.cell) =
      (items root relation draw owner value).map (List.map ItemRow.cell) :=
    map_cell_items root draw' draw owner value
  rw [h] at hcells
  exact except_map_eq_ok.mp hcells

end Patch

end ScimDirectory
