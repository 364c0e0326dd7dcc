import ScimDirectory.Patch.Apply
import ScimDirectory.Proofs.Predicate.Selection
import ScimDirectory.Proofs.Store.Cells
import ScimDirectory.Proofs.Store.Sound
import ScimDirectory.Proofs.Traversal

/-!
# Items in operations

Items that an operation reads from a value get keys of one draw and the owner they are meant for;
items that it changes keep both. Which items a filter picks does not depend on the order in which
they are tested.
-/

namespace ScimDirectory

/-- Whether an item satisfies a predicate. An item that cannot be tested does not. -/
def Predicate.picks (p : Predicate) (item : ItemRow) : Bool :=
  match p.evaluate item.view with
  | .ok b => b
  | .error _ => false

/-- A selection that succeeds has tested every item and kept those that satisfy the predicate. -/
theorem selectBy_eq_ok {p : Predicate} {items kept : List ItemRow}
    (h : selectBy p ItemRow.view items = .ok kept) : kept = items.filter p.picks := by
  induction items generalizing kept with
  | nil =>
    cases h
    rfl
  | cons item items ih =>
    rw [selectBy] at h
    cases heval : p.evaluate item.view with
    | error e => simp [heval] at h
    | ok b =>
      simp only [heval] at h
      obtain ⟨rest, hrest, rfl⟩ := except_map_eq_ok.mp h
      have hpicks : p.picks item = b := by rw [Predicate.picks, heval]
      rw [ih hrest, List.filter_cons, hpicks]

/-- Writing a column of an item changes neither its key nor its owner. -/
theorem ItemRow.keys_of_assign {item new : ItemRow} {column : Column} {content : Option Scalar}
    (h : item.assign column content = .ok new) : new.id = item.id ∧ new.owner = item.owner := by
  cases column <;>
    simp only [ItemRow.assign_eq, ItemRow.taking, ItemRow.textSlot?] at h <;>
    first
    | cases h
    | obtain ⟨_, -, rfl⟩ := except_map_eq_ok.mp h; exact ⟨rfl, rfl⟩

namespace Patch

/-- Updates change neither the key of an item nor its owner. -/
theorem keys_of_assignItemFields {item new : ItemRow} {updates : Updates}
    (h : assignItemFields item updates = .ok new) : new.id = item.id ∧ new.owner = item.owner := by
  induction updates generalizing item with
  | nil =>
    cases h
    exact ⟨rfl, rfl⟩
  | cons update updates ih =>
    rw [assignItemFields] at h
    split at h
    · cases h
    · next middle hassign =>
      obtain ⟨hid, howner⟩ := ih h
      have hkeys := ItemRow.keys_of_assign (except_mapError_eq_ok.mp hassign)
      exact ⟨hid.trans hkeys.1, howner.trans hkeys.2⟩

/-- Changing items that succeeds has updated each of them and has checked what came of it. -/
theorem changedItems_eq_ok_iff {relation : Relation} {updates : Updates}
    {items changed : List ItemRow} :
    changedItems relation updates items = .ok changed ↔
      List.Forall₂ (fun item new => assignItemFields item updates = .ok new ∧
        checkMember relation new = .ok ()) items changed := by
  induction items generalizing changed with
  | nil => simp [changedItems, eq_comm]
  | cons item items ih =>
    rw [changedItems]
    cases hassign : assignItemFields item updates with
    | error e => simp [List.forall₂_cons_left_iff, hassign]
    | ok new =>
      dsimp only
      cases hmember : checkMember relation new with
      | error e => simp [List.forall₂_cons_left_iff, hassign, hmember]
      | ok _ =>
        simp only [except_map_eq_ok, ih, List.forall₂_cons_left_iff, hassign, Except.ok.injEq]
        constructor
        · rintro ⟨rest, hrest, rfl⟩
          exact ⟨new, rest, ⟨rfl, hmember⟩, hrest, rfl⟩
        · rintro ⟨_, rest, ⟨rfl, -⟩, hrest, rfl⟩
          exact ⟨rest, hrest, rfl⟩

/-- Each changed item has the key and the owner of one of the items that were changed. -/
theorem exists_of_mem_changedItems {relation : Relation} {updates : Updates}
    {items changed : List ItemRow} (h : changedItems relation updates items = .ok changed)
    {new : ItemRow} (hmem : new ∈ changed) :
    ∃ item ∈ items, item.id = new.id ∧ item.owner = new.owner := by
  have hall := changedItems_eq_ok_iff.mp h
  clear h
  induction hall with
  | nil => cases hmem
  | cons hfirst _ ih =>
    rcases List.mem_cons.mp hmem with rfl | hmem
    · obtain ⟨hid, howner⟩ := keys_of_assignItemFields hfirst.1
      exact ⟨_, List.mem_cons_self, hid.symm, howner.symm⟩
    · obtain ⟨item, hitem, hkeys⟩ := ih hmem
      exact ⟨item, List.mem_cons_of_mem _ hitem, hkeys⟩

/-- An item that is decoded has the key and the owner that it is given. -/
theorem keys_of_item {root : ServiceRoot} {relation : Relation} {id : ItemId} {owner : Uuid}
    {value : Json} {row : ItemRow} (h : item root relation id owner value = .ok row) :
    row.id = id ∧ row.owner = owner := by
  unfold item at h
  split at h <;> split at h <;> try cases h
  · obtain ⟨_, -, rfl⟩ := except_map_eq_ok.mp h
    exact ⟨rfl, rfl⟩
  · exact ⟨rfl, rfl⟩
  · obtain ⟨_, -, rfl⟩ := except_map_eq_ok.mp h
    exact ⟨rfl, rfl⟩

/-- Decoded items have the keys of their places, one after the other, and one owner. -/
theorem keys_of_itemsFrom {root : ServiceRoot} {relation : Relation} {draw place : Nat}
    {owner : Uuid} {values : List Json} {rows : List ItemRow}
    (h : itemsFrom root relation draw place owner values = .ok rows) :
    rows.map ItemRow.id = (List.range' place rows.length).map (.drawn draw) ∧
      ∀ row ∈ rows, row.owner = owner := by
  induction values generalizing place rows with
  | nil =>
    cases h
    exact ⟨rfl, fun _ hmem => nomatch hmem⟩
  | cons value values ih =>
    rw [itemsFrom] at h
    split at h
    · cases h
    · next row hrow =>
      obtain ⟨rest, hrest, rfl⟩ := except_map_eq_ok.mp h
      obtain ⟨hids, howners⟩ := ih hrest
      obtain ⟨hid, howner⟩ := keys_of_item hrow
      constructor
      · rw [List.map_cons, hids, hid, List.length_cons, List.range'_succ, List.map_cons]
      · intro other hmem
        rcases List.mem_cons.mp hmem with rfl | hmem
        · exact howner
        · exact howners other hmem

/-- The items of a value have fresh keys and one owner. -/
theorem keys_of_items {root : ServiceRoot} {relation : Relation} {draw : Nat} {owner : Uuid}
    {value : Json} {rows : List ItemRow} (h : items root relation draw owner value = .ok rows) :
    FreshKeys draw rows ∧ ∀ row ∈ rows, row.owner = owner := by
  have hfrom : ∃ values, itemsFrom root relation draw 0 owner values = .ok rows := by
    unfold items at h
    split at h
    · exact ⟨_, h⟩
    · exact ⟨_, h⟩
  obtain ⟨values, hvalues⟩ := hfrom
  obtain ⟨hids, howners⟩ := keys_of_itemsFrom hvalues
  exact ⟨FreshKeys.of_map_id hids, howners⟩

/-- Items that are new are some of those that were given, in their order. -/
theorem newItems_sublist (relation : Relation) (known items : List ItemRow) :
    (newItems relation known items).Sublist items := by
  induction items generalizing known with
  | nil => exact List.Sublist.refl _
  | cons item items ih =>
    rw [newItems]
    split
    · exact (ih known).cons item
    · exact (ih _).cons_cons item

/-- What updates make of an item, if they are taken. -/
def updated (updates : Updates) (item : ItemRow) : ItemRow :=
  match assignItemFields item updates with
  | .ok new => new
  | .error _ => item

theorem keys_of_updated (updates : Updates) (item : ItemRow) :
    (updated updates item).id = item.id ∧ (updated updates item).owner = item.owner := by
  unfold updated
  split
  · next hassign => exact keys_of_assignItemFields hassign
  · exact ⟨rfl, rfl⟩

/-- Changed items are what the updates make of the items. -/
theorem changedItems_eq_map {relation : Relation} {updates : Updates} {items changed : List ItemRow}
    (h : changedItems relation updates items = .ok changed) :
    changed = items.map (updated updates) := by
  have hall := changedItems_eq_ok_iff.mp h
  clear h
  induction hall with
  | nil => rfl
  | cons hfirst _ ih => rw [List.map_cons, ← ih, updated, hfirst.1]

/-- What an item becomes when it is changed along with others. -/
theorem assignItemFields_updated {updates : Updates} {items changed : List ItemRow}
    (h : changedItems relation updates items = .ok changed) {item : ItemRow} (hmem : item ∈ items) :
    assignItemFields item updates = .ok (updated updates item) ∧
      checkMember relation (updated updates item) = .ok () := by
  have hall := changedItems_eq_ok_iff.mp h
  clear h
  induction hall with
  | nil => cases hmem
  | cons hfirst _ ih =>
    rcases List.mem_cons.mp hmem with rfl | hmem
    · rw [updated, hfirst.1]
      exact ⟨rfl, hfirst.2⟩
    · exact ih hmem

/-- What becomes of an item when those of an owner that a test picks are updated. -/
def revised (owner : Uuid) (test : ItemRow → Bool) (updates : Updates) (item : ItemRow) :
    ItemRow :=
  if item.owner = owner ∧ test item then updated updates item else item

theorem keys_of_revised (owner : Uuid) (test : ItemRow → Bool) (updates : Updates)
    (item : ItemRow) :
    (revised owner test updates item).id = item.id ∧
      (revised owner test updates item).owner = item.owner := by
  unfold revised
  split
  · exact keys_of_updated updates item
  · exact ⟨rfl, rfl⟩

/-- When items of one owner are updated, other owners and other relations keep theirs. -/
theorem ownedItems_revised_of_ne {tables : Tables} {relation r : Relation} {owner other : Uuid}
    (test : ItemRow → Bool) (updates : Updates) (hne : ¬(other = owner ∧ r = relation)) :
    (tables.rewrite relation (revised owner test updates)).ownedItems other r =
      tables.ownedItems other r := by
  rw [Tables.ownedItems_rewrite fun item => (keys_of_revised owner test updates item).2]
  split
  · next hr =>
    subst hr
    refine (List.map_congr_left fun item hmem => if_neg fun hpicked => ?_).trans (List.map_id _)
    exact hne ⟨(Tables.mem_ownedItems.mp hmem).2.symm.trans hpicked.1, rfl⟩
  · rfl

/-- Writing the changed ones among an owner's items updates those that a test picks. -/
theorem rewrite_changedItems {tables : Tables} {relation : Relation} {owner : Uuid}
    (hunique : ((tables.itemsOf relation).map ItemRow.id).Nodup) {test : ItemRow → Bool}
    {updates : Updates} {changed : List ItemRow}
    (h : changedItems relation updates ((tables.ownedItems owner relation).filter test) =
      .ok changed) :
    tables.rewrite relation (overlay changed) =
      tables.rewrite relation (revised owner test updates) := by
  have hselected : (((tables.ownedItems owner relation).filter test).map ItemRow.id).Nodup :=
    hunique.sublist ((List.filter_sublist.trans List.filter_sublist).map _)
  rw [changedItems_eq_map h]
  refine Tables.rewrite_congr fun item hmem => ?_
  unfold revised
  split
  · next hpicked =>
    have howned : item ∈ tables.ownedItems owner relation :=
      List.mem_filter.mpr ⟨hmem, decide_eq_true hpicked.1⟩
    exact overlay_map hselected (fun item => (keys_of_updated updates item).1)
      (List.mem_filter.mpr ⟨howned, hpicked.2⟩)
  · next hother =>
    refine overlay_of_not_mem fun hid => hother ?_
    rw [List.map_map] at hid
    obtain ⟨chosen, hchosen, hsame⟩ := List.mem_map.mp hid
    obtain ⟨howned, htest⟩ := List.mem_filter.mp hchosen
    obtain ⟨hstored, howner⟩ := List.mem_filter.mp howned
    have hkey : chosen.id = item.id := (keys_of_updated updates chosen).1.symm.trans hsame
    rw [← List.inj_on_of_nodup_map hunique hstored hmem hkey]
    exact ⟨of_decide_eq_true howner, htest⟩

/-- The items that are not changed are those that the test does not pick. -/
theorem filter_unchanged {relation : Relation} {items changed : List ItemRow} {test : ItemRow → Bool}
    {updates : Updates} (hunique : (items.map ItemRow.id).Nodup)
    (h : changedItems relation updates (items.filter test) = .ok changed) :
    items.filter (fun item => !changed.any (·.id = item.id)) =
      items.filter fun item => !test item := by
  refine List.filter_congr fun item hmem => congrArg (!·) ?_
  rw [changedItems_eq_map h, Bool.eq_iff_iff, List.any_eq_true]
  constructor
  · rintro ⟨new, hnew, hid⟩
    obtain ⟨chosen, hchosen, rfl⟩ := List.mem_map.mp hnew
    obtain ⟨hstored, htest⟩ := List.mem_filter.mp hchosen
    have hkey : chosen.id = item.id :=
      (keys_of_updated updates chosen).1.symm.trans (of_decide_eq_true hid)
    rwa [← List.inj_on_of_nodup_map hunique hstored hmem hkey]
  · intro htest
    refine ⟨updated updates item, List.mem_map_of_mem (List.mem_filter.mpr ⟨hmem, htest⟩), ?_⟩
    exact decide_eq_true (keys_of_updated updates item).1

/-- The revised items of an owner are the others and the changed ones, in another order. -/
theorem revised_perm {relation : Relation} {owner : Uuid} {items changed : List ItemRow}
    {test : ItemRow → Bool} {updates : Updates} (howned : ∀ item ∈ items, item.owner = owner)
    (h : changedItems relation updates (items.filter test) = .ok changed) :
    (items.map (revised owner test updates)).Perm
      (items.filter (fun item => !test item) ++ changed) := by
  rw [changedItems_eq_map h]
  clear h
  induction items with
  | nil => exact List.Perm.nil
  | cons item items ih =>
    have hrest := ih fun other hmem => howned other (List.mem_cons_of_mem _ hmem)
    have howner := howned item List.mem_cons_self
    by_cases htest : test item = true
    · have hrevised : revised owner test updates item = updated updates item :=
        if_pos ⟨howner, htest⟩
      simp only [List.map_cons, List.filter_cons, htest, hrevised, Bool.not_true, if_true,
        Bool.false_eq_true, if_false]
      exact (hrest.cons _).trans List.perm_middle.symm
    · have hrevised : revised owner test updates item = item := if_neg fun h => htest h.2
      simp only [List.map_cons, List.filter_cons, htest, hrevised, Bool.not_false, if_true,
        Bool.false_eq_true, if_false, List.cons_append]
      exact hrest.cons _

end Patch

end ScimDirectory
