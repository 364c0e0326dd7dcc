import ScimDirectory.Proofs.Store.Changes
import ScimDirectory.Proofs.Store.History
import Mathlib.Data.List.Induction

/-!
# Keys of items

A single item is refused when another item of its relation has its key. The items of a whole record
are linked without this check, when the record is stored and when it takes the place of another
one. So keys stay distinct along a history of calls exactly as long as no record comes with two items
of one key, or with the key of an item that another owner has. All other calls keep them distinct.
-/

namespace ScimDirectory

/-- The items that stand under a relation among the children of a record. -/
def Record.linked {type : ResourceType} (record : Record type) (relation : Relation) :
    List ItemRow :=
  record.children.flatMap fun child => if child.1 = relation then child.2 else []

/-- Whether a record has two items with one key in a relation, or an item there with the key of an
item of another owner. -/
def Record.RepeatsKeys {type : ResourceType} (record : Record type) (tables : Tables) : Prop :=
  ∃ relation, ¬((record.linked relation).map ItemRow.id).Nodup ∨
    ∃ new ∈ record.linked relation, ∃ item ∈ tables.itemsOf relation,
      item.owner ≠ record.row.id ∧ item.id = new.id

/-- Whether a call writes a record that repeats keys. -/
def StoreCall.RepeatsKeys (tables : Tables) : StoreCall → Prop
  | .insert record => (tables.insert record).isOk = true ∧ record.RepeatsKeys tables
  | .replace record => (tables.replace record).isOk = true ∧ record.RepeatsKeys tables
  | _ => False

namespace Tables

/-- No two items of a relation have the same key. -/
def UniqueKeys (tables : Tables) : Prop :=
  ∀ relation, ((tables.itemsOf relation).map ItemRow.id).Nodup

variable {tables after : Tables} {type : ResourceType}

/-- Empty tables have no keys. -/
theorem uniqueKeys_empty : empty.UniqueKeys := fun _ => List.nodup_nil

/-- A record that passes has items in the relations of its type only. -/
theorem linked_eq_nil {record : Record type} (hrelations : checkRelations record = .ok ())
    {relation : Relation} (hne : relation.owner ≠ type) : record.linked relation = [] := by
  refine List.flatMap_eq_nil_iff.mpr fun child hmem => if_neg ?_
  rintro rfl
  exact hne (owner_eq_of_checkRelations hrelations child hmem)

/-- Items that are linked to an owner keep their keys. -/
theorem map_id_linked (items : List ItemRow) (owner : Uuid) :
    (items.map fun item : ItemRow => { item with owner }).map ItemRow.id = items.map ItemRow.id := by
  rw [List.map_map]
  rfl

/-- Keys are distinct after more items are linked exactly when those of the new items are distinct
and none of them is there already. -/
theorem nodup_linked_iff {kept new : List ItemRow} (hkept : (kept.map ItemRow.id).Nodup)
    (owner : Uuid) :
    ((kept ++ new.map fun item : ItemRow => { item with owner }).map ItemRow.id).Nodup ↔
      (new.map ItemRow.id).Nodup ∧ ∀ item ∈ new, ∀ other ∈ kept, other.id ≠ item.id := by
  rw [List.map_append, map_id_linked, List.nodup_append']
  constructor
  · rintro ⟨-, hnew, hdisjoint⟩
    refine ⟨hnew, fun item hitem other hother heq => ?_⟩
    exact hdisjoint (List.mem_map_of_mem hother) (heq ▸ List.mem_map_of_mem hitem)
  · rintro ⟨hnew, hother⟩
    refine ⟨hkept, hnew, fun key hleft hright => ?_⟩
    obtain ⟨other, hmem, rfl⟩ := List.mem_map.mp hleft
    obtain ⟨item, hitem, heq⟩ := List.mem_map.mp hright
    exact hother item hitem other hmem heq.symm

/-- Where an owner has no items, none of them is dropped. -/
theorem dropItems_eq_self {owner : Uuid} (h : ∀ relation item, (relation, item) ∈ tables.items →
    relation.owner = type → item.owner ≠ owner) : tables.dropItems type owner = tables := by
  have hitems : (tables.dropItems type owner).items = tables.items :=
    List.filter_eq_self.mpr fun entry hmem =>
      decide_eq_true fun hdropped => h entry.1 entry.2 hmem hdropped.1 hdropped.2
  exact congrArg (fun items => { tables with items }) hitems

/-- A new record is linked as one that takes the place of another: a new owner has no items. -/
theorem WellFormed.insert_eq_ok (hwell : tables.WellFormed) {record stored : Record type}
    (h : tables.insert record = .ok (stored, after)) :
    checkRelations record = .ok () ∧
      after = ((tables.put record.row).dropItems type record.row.id).addItems
        record.row.id record.children := by
  obtain ⟨hrelations, hnew, -, rfl, -⟩ := Tables.insert_eq_ok h
  refine ⟨hrelations, ?_⟩
  rw [dropItems_eq_self fun relation item hmem hrelation howner => ?_]
  rw [items_put] at hmem
  have hthere := hwell.owners relation item hmem
  rw [hrelation, howner, hnew] at hthere
  cases hthere

/-- A record that is linked in the place of its owner's items keeps keys distinct exactly when it
repeats none. -/
theorem uniqueKeys_linked_iff (h : tables.UniqueKeys) {record : Record type}
    (hrelations : checkRelations record = .ok ()) :
    (((tables.put record.row).dropItems type record.row.id).addItems
        record.row.id record.children).UniqueKeys ↔ ¬record.RepeatsKeys tables := by
  have hkept : ∀ relation, (((tables.put record.row).dropItems type record.row.id).itemsOf
      relation).Sublist (tables.itemsOf relation) := fun relation =>
    tables.itemsOf_put record.row ▸ itemsOf_dropItems_sublist (tables.put record.row) ..
  have hothers : ∀ relation, ∀ new ∈ record.linked relation, ∀ item,
      item ∈ ((tables.put record.row).dropItems type record.row.id).itemsOf relation ↔
        item ∈ tables.itemsOf relation ∧ item.owner ≠ record.row.id := by
    intro relation new hnew item
    have hrelation : relation.owner = type := by
      by_contra hne
      rw [linked_eq_nil hrelations hne] at hnew
      cases hnew
    simp [itemsOf_dropItems, hrelation]
  constructor
  · rintro hafter ⟨relation, hrepeats⟩
    have hnodup := hafter relation
    rw [itemsOf_addItems] at hnodup
    obtain ⟨hnew, hother⟩ := (nodup_linked_iff ((h relation).sublist ((hkept relation).map _))
      record.row.id).mp hnodup
    rcases hrepeats with htwice | ⟨new, hmem, item, hitem, howner, hid⟩
    · exact htwice hnew
    · exact hother new hmem item ((hothers relation new hmem item).mpr ⟨hitem, howner⟩) hid
  · intro hfresh relation
    rw [itemsOf_addItems]
    refine (nodup_linked_iff ((h relation).sublist ((hkept relation).map _)) record.row.id).mpr
      ⟨?_, fun new hmem item hitem hid => hfresh ⟨relation, .inr ?_⟩⟩
    · by_contra htwice
      exact hfresh ⟨relation, .inl htwice⟩
    · obtain ⟨hstored, howner⟩ := (hothers relation new hmem item).mp hitem
      exact ⟨new, hmem, item, hstored, howner, hid⟩

/-- What is left when items leave has distinct keys. -/
theorem UniqueKeys.shrink (h : tables.UniqueKeys)
    (hitems : ∀ relation, (after.itemsOf relation).Sublist (tables.itemsOf relation)) :
    after.UniqueKeys := fun relation => (h relation).sublist ((hitems relation).map _)

/-- A single item is linked only with a new key. -/
theorem UniqueKeys.insertItem (h : tables.UniqueKeys) {relation : Relation} {item stored : ItemRow}
    (hwrite : tables.insertItem relation item = .ok (stored, after)) : after.UniqueKeys := by
  obtain ⟨-, hnew, -, rfl⟩ := insertItem_eq_ok hwrite
  intro other
  change (((tables.append relation [item]).itemsOf other).map ItemRow.id).Nodup
  rw [itemsOf_append, List.map_append, List.nodup_append']
  refine ⟨h other, ?_, fun key hleft hright => ?_⟩
  · split
    · exact List.nodup_singleton _
    · exact List.nodup_nil
  · obtain ⟨stored, hstored, rfl⟩ := List.mem_map.mp hleft
    split at hright
    · next heq =>
      subst heq
      exact hnew stored hstored (List.mem_singleton.mp hright)
    · cases hright

/-- An item that is written has the key that it had. -/
theorem UniqueKeys.updateItem (h : tables.UniqueKeys) {relation : Relation} {item stored : ItemRow}
    (hwrite : tables.updateItem relation item = .ok (stored, after)) : after.UniqueKeys := by
  obtain ⟨-, -, rfl⟩ := updateItem_eq_ok hwrite
  intro other
  rw [putItem_eq_rewrite (h relation), itemsOf_rewrite]
  split
  · rw [List.map_map]
    exact (List.map_congr_left fun item _ => (id_overlay _ item).symm) ▸ h relation
  · exact h other

/-- A call that writes keeps keys distinct, unless it succeeds and what it leaves has a key twice. -/
theorem uniqueKeys_writing_iff {α : Type} {write : Tables → Except StoreError (α × Tables)}
    (h : tables.UniqueKeys) {Repeats : Prop}
    (hwrite : ∀ a after, write tables = .ok (a, after) → (after.UniqueKeys ↔ ¬Repeats)) :
    ((Call.writing write).run tables).2.UniqueKeys ↔
      ¬((write tables).isOk = true ∧ Repeats) := by
  unfold Call.writing ExceptT.run
  dsimp only
  cases hrun : write tables with
  | error error => exact iff_of_true h fun hboth => nomatch hboth.1
  | ok written => simpa [Except.isOk, Except.toBool] using hwrite written.1 written.2 hrun

/-- Exactly the calls that write a record with repeated keys make keys of items repeat. -/
theorem uniqueKeys_step_iff (hwell : tables.WellFormed) (h : tables.UniqueKeys) (c : StoreCall) :
    (c.step tables).UniqueKeys ↔ ¬c.RepeatsKeys tables := by
  rw [StoreCall.step_eq]
  cases c with
  | insert record =>
    refine uniqueKeys_writing_iff h fun stored after hwrite => ?_
    obtain ⟨hrelations, rfl⟩ := hwell.insert_eq_ok hwrite
    exact uniqueKeys_linked_iff h hrelations
  | replace record =>
    refine uniqueKeys_writing_iff h fun stored after hwrite => ?_
    obtain ⟨hrelations, -, -, rfl, -⟩ := replace_eq_ok hwrite
    exact uniqueKeys_linked_iff h hrelations
  | get type id => exact iff_of_true h not_false
  | query type predicate => exact iff_of_true h not_false
  | update row =>
    refine iff_of_true (Call.writing_preserves h fun stored after hwrite => ?_) not_false
    obtain ⟨-, -, -, rfl⟩ := update_eq_ok hwrite
    exact h.shrink fun relation => by rw [itemsOf_put]
  | delete type id =>
    exact iff_of_true (h.shrink (tables.itemsOf_delete_sublist type id)) not_false
  | queryItems relation owner predicate => exact iff_of_true h not_false
  | insertItem relation item =>
    exact iff_of_true (Call.writing_preserves h fun _ _ hwrite => h.insertItem hwrite) not_false
  | updateItem relation item =>
    exact iff_of_true (Call.writing_preserves h fun _ _ hwrite => h.updateItem hwrite) not_false
  | deleteItems relation ids =>
    exact iff_of_true (h.shrink (tables.itemsOf_without_sublist relation fun item =>
      ids.contains item.id)) not_false
  | deleteAllItems relation owner =>
    exact iff_of_true (h.shrink (tables.itemsOf_without_sublist relation fun item =>
      item.owner = owner)) not_false

end Tables

/-- Along any calls on empty storage, each of which may fail, no two items of a relation ever have
the same key exactly when no call succeeds in writing a record that repeats keys: one with two items
of one key in a relation, or with an item that has the key of another owner's item. -/
theorem item_keys_stay_unique_iff (calls : List StoreCall) :
    (∀ done, done <+: calls → (StoreCall.steps done Tables.empty).UniqueKeys) ↔
      ∀ done call, done ++ [call] <+: calls →
        ¬call.RepeatsKeys (StoreCall.steps done Tables.empty) := by
  have hwell : ∀ done, (StoreCall.steps done Tables.empty).WellFormed :=
    fun done => Tables.wellFormed_empty.steps done
  have hconcat : ∀ done call, StoreCall.steps (done ++ [call]) Tables.empty =
      call.step (StoreCall.steps done Tables.empty) := fun done call => List.foldl_append
  constructor
  · intro hunique done call hdone
    have hafter := hunique _ hdone
    rw [hconcat] at hafter
    exact (Tables.uniqueKeys_step_iff (hwell done)
      (hunique done ((List.prefix_append done _).trans hdone)) call).mp hafter
  · intro hfresh done
    induction done using List.reverseRecOn with
    | nil => exact fun _ => Tables.uniqueKeys_empty
    | append_singleton done call ih =>
      intro hdone
      rw [hconcat]
      exact (Tables.uniqueKeys_step_iff (hwell done)
        (ih ((List.prefix_append done _).trans hdone)) call).mpr (hfresh done call hdone)

/-- An item whose key another user's item has is refused by itself, but not as part of a record that
replaces its owner's: then both users have an item with this key. -/
theorem item_key_repeats_of_replaced_user :
    let mail (owner : Uuid) : ItemRow := ItemRow.blank (.given (.numbered 9)) owner
    let alice : Record .user := ⟨UserRow.named (.numbered 1) "alice" (.ofSeconds 0),
      [(.values .emails, [mail (.numbered 1)])]⟩
    let bob : Record .user := ⟨UserRow.named (.numbered 2) "bob" (.ofSeconds 0), []⟩
    let calls : List StoreCall := [.insert alice, .insert bob,
      .insertItem (.values .emails) (mail (.numbered 2)),
      .replace { bob with children := [(.values .emails, [mail (.numbered 2)])] }]
    (StoreCall.steps (calls.take 3) Tables.empty = StoreCall.steps (calls.take 2) Tables.empty) ∧
      ¬(StoreCall.steps calls Tables.empty).UniqueKeys := by
  intro mail alice bob calls
  refine ⟨by decide +kernel, fun hunique => ?_⟩
  have htwice : ¬(((StoreCall.steps calls Tables.empty).itemsOf
      (.values .emails)).map ItemRow.id).Nodup := by decide +kernel
  exact htwice (hunique (.values .emails))

end ScimDirectory
