import ScimDirectory.Proofs.Store.Keys
import ScimDirectory.Proofs.Store.Records
import ScimDirectory.Proofs.Store.RowOrder

/-!
# Replacing records

To replace a stored record is to delete it and to insert the new one: both are refused on the same
grounds, since the name of a row is not held against the row itself, and both leave the same items
and, in another order perhaps, the same rows. A record that is stored either way is read back with
its items linked to it and without the relations that have none. Other records are read back as
before.
-/

namespace ScimDirectory

/-- A record as it is stored: relations without items are left out, and items name their owner. -/
def Record.asStored {type : ResourceType} (record : Record type) : Record type where
  row := record.row
  children := (record.children.filter fun child => !child.2.isEmpty).map fun child =>
    (child.1, child.2.map fun item => { item with owner := record.row.id })

/-- The items of relations that stand in the order of a list, each once, are found under it. -/
theorem childrenOf_linked {relations : List Relation} (hnodup : relations.Nodup)
    {children : List (Relation × List ItemRow)} (hsub : (children.map Prod.fst).Sublist relations)
    (f : ItemRow → ItemRow) :
    (childrenOf relations fun relation =>
      (children.flatMap fun child => if child.1 = relation then child.2 else []).map f) =
      (children.filter fun child => !child.2.isEmpty).map fun child =>
        (child.1, child.2.map f) := by
  induction relations generalizing children with
  | nil =>
    obtain rfl : children = [] := List.map_eq_nil_iff.mp (List.sublist_nil.mp hsub)
    rfl
  | cons first relations ih =>
    obtain ⟨hfirst, hothers⟩ := List.nodup_cons.mp hnodup
    -- Children of later relations have nothing under the first one.
    have hnone : ∀ {rest : List (Relation × List ItemRow)},
        (rest.map Prod.fst).Sublist relations →
        (rest.flatMap fun child => if child.1 = first then child.2 else []) = [] := by
      intro rest hrest
      refine List.flatMap_eq_nil_iff.mpr fun child hmem => if_neg ?_
      rintro rfl
      exact hfirst (hrest.subset (List.mem_map_of_mem hmem))
    rw [childrenOf_cons]
    rcases List.sublist_cons_iff.mp hsub with hrest | ⟨keys, hkeys, hrest⟩
    · rw [hnone hrest, ih hothers hrest]
      rfl
    · obtain ⟨child, rest, rfl, rfl, rfl⟩ := List.map_eq_cons_iff.mp hkeys
      have hlater : ∀ relation ∈ relations,
          ((child :: rest).flatMap fun child => if child.1 = relation then child.2 else []) =
            rest.flatMap fun child => if child.1 = relation then child.2 else [] := by
        intro relation hmem
        have hne : child.1 ≠ relation := fun heq => hfirst (heq ▸ hmem)
        rw [List.flatMap_cons, if_neg hne, List.nil_append]
      rw [childrenOf_congr fun relation hmem => by rw [hlater relation hmem], ih hothers hrest,
        List.flatMap_cons, if_pos rfl, hnone hrest, List.append_nil, List.filter_cons,
        List.isEmpty_map]
      cases child.2.isEmpty <;> rfl

namespace Tables

variable {tables after : Tables} {type : ResourceType} {record stored : Record type}

/-- The tables after a record has been written in the place of what its key found. -/
def written (tables : Tables) (record : Record type) : Tables :=
  ((tables.put record.row).dropItems type record.row.id).addItems record.row.id record.children

/-- An owner that is written has the items of its record, and other owners keep theirs. -/
theorem ownedItems_written (hrelations : checkRelations record = .ok ()) (owner : Uuid)
    (relation : Relation) :
    (tables.written record).ownedItems owner relation =
      if relation.owner = type ∧ owner = record.row.id then
        (record.linked relation).map fun item => { item with owner := record.row.id }
      else tables.ownedItems owner relation := by
  have hkept : ((tables.put record.row).dropItems type record.row.id).ownedItems owner relation =
      if relation.owner = type ∧ owner = record.row.id then []
      else tables.ownedItems owner relation := by
    rw [ownedItems_dropItems, ownedItems_put]
  rw [ownedItems, written, itemsOf_addItems, List.filter_append]
  change ((tables.put record.row).dropItems type record.row.id).ownedItems owner relation ++
    ((record.linked relation).map _).filter _ = _
  rw [hkept]
  by_cases hself : relation.owner = type ∧ owner = record.row.id
  · rw [if_pos hself, if_pos hself, List.nil_append]
    refine List.filter_eq_self.mpr fun item hmem => ?_
    obtain ⟨_, -, rfl⟩ := List.mem_map.mp hmem
    exact decide_eq_true hself.2.symm
  · have hnone : ((record.linked relation).map fun item =>
        ({ item with owner := record.row.id } : ItemRow)).filter (·.owner = owner) = [] := by
      refine List.filter_eq_nil_iff.mpr fun item hmem howner => hself ?_
      obtain ⟨linked, hlinked, rfl⟩ := List.mem_map.mp hmem
      refine ⟨?_, (of_decide_eq_true howner).symm⟩
      by_contra hne
      rw [linked_eq_nil hrelations hne] at hlinked
      cases hlinked
    rw [if_neg hself, if_neg hself, hnone, List.append_nil]

/-- A row that is written is found under its key. -/
theorem find?_written_self (tables : Tables) (record : Record type) :
    (tables.written record).find? type record.row.id = some record.row := by
  rw [written, find?_addItems, dropItems, find?_mk_items, find?_put, if_pos rfl]

/-- Writing a record leaves the rows that other keys find. -/
theorem find?_written_of_not {other : ResourceType} {key : Uuid}
    (hne : ¬(other = type ∧ key = record.row.id)) :
    (tables.written record).find? other key = tables.find? other key := by
  rw [written, find?_addItems, dropItems, find?_mk_items, find?_put_of_not hne]

/-- A record that is written is read back with the items that it was given. -/
theorem record_written (hrelations : checkRelations record = .ok ())
    (hmap : (record.children.map Prod.fst).Sublist Relation.all) :
    (tables.written record).record record.row = record.asStored := by
  have hsub : (record.children.map Prod.fst).Sublist (Relation.ofType type) := by
    have howned : ∀ relation ∈ record.children.map Prod.fst, relation.owner = type :=
      List.forall_mem_map.mpr (owner_eq_of_checkRelations hrelations)
    have hall : Relation.all.filter (·.owner = type) = Relation.ofType type := by
      cases type <;> decide
    have hkept : (record.children.map Prod.fst).filter (·.owner = type) =
        record.children.map Prod.fst :=
      List.filter_eq_self.mpr fun relation hmem => decide_eq_true (howned relation hmem)
    exact hall ▸ hkept ▸ hmap.filter _
  have hchildren : childrenOf (Relation.ofType type)
      ((tables.written record).ownedItems record.row.id) = record.asStored.children := by
    rw [Record.asStored, ← childrenOf_linked (Relation.nodup_ofType type) hsub]
    refine childrenOf_congr fun relation hmem => ?_
    rw [ownedItems_written hrelations, if_pos ⟨Relation.mem_ofType.mp hmem, rfl⟩]
    rfl
  rw [Tables.record, hchildren]
  rfl

/-- A record that is written is read back as it is stored, and other records as before. -/
theorem get?_written (hrelations : checkRelations record = .ok ())
    (hmap : (record.children.map Prod.fst).Sublist Relation.all) :
    (tables.written record).get? type record.row.id = some record.asStored ∧
      ∀ other key, ¬(other = type ∧ key = record.row.id) →
        (tables.written record).get? other key = tables.get? other key := by
  refine ⟨?_, fun other key hne => ?_⟩
  · rw [get?_of_find? (find?_written_self tables record), record_written hrelations hmap]
  · refine get?_congr (find?_written_of_not hne) fun relation hrelation => ?_
    rw [ownedItems_written hrelations, if_neg fun h => hne ⟨hrelation.symm.trans h.1, h.2⟩]

/-- Both ways to store a record write it. -/
theorem WellFormed.eq_written (hwell : tables.WellFormed)
    (hwrite : tables.insert record = .ok (stored, after) ∨
      tables.replace record = .ok (stored, after)) :
    checkRelations record = .ok () ∧ after = tables.written record ∧
      stored = after.record record.row := by
  rcases hwrite with hwrite | hwrite
  · obtain ⟨hrelations, hafter⟩ := hwell.insert_eq_ok hwrite
    exact ⟨hrelations, hafter, (Tables.insert_eq_ok hwrite).2.2.2.2⟩
  · obtain ⟨hrelations, -, -, hafter, hstored⟩ := replace_eq_ok hwrite
    exact ⟨hrelations, hafter, hstored⟩

section

variable (tables : Tables) (row : Row type)

theorem has_deleted : ((tables.dropRow type row.id).dropItems type row.id).has type row.id =
    false := by
  rw [dropItems, has_mk_items, has, find?_dropRow, if_pos rfl, Option.isSome_none]

/-- The name of a row is not held against the row itself. -/
theorem checkName_deleted :
    ((tables.dropRow type row.id).dropItems type row.id).checkName row = tables.checkName row := by
  have htaken : ((tables.dropRow type row.id).dropItems type row.id).nameTaken row =
      tables.nameTaken row := by
    unfold nameTaken
    split
    · rfl
    · rw [rows_dropItems, rows_dropRow, List.any_filter]
      refine congrArg (fun test => (tables.rows type).any test) (funext fun other => ?_)
      by_cases h : other.id = row.id <;> simp [h]
  rw [checkName, htaken, checkName]

/-- Up to their order, the rows are the same whether a row takes the place of the one with its key
or comes after that one is deleted, and so are the items. -/
theorem sameButOrder_deleted (hkeys : ((tables.rows type).map Row.id).Nodup) :
    ((tables.put row).dropItems type row.id).SameButOrder
      (((tables.dropRow type row.id).dropItems type row.id).put row) where
  rows other := by
    by_cases htype : other = type
    · subst htype
      have hothers : (((tables.rows other).filter (·.id ≠ row.id)).map Row.id).Nodup :=
        hkeys.sublist (List.filter_sublist.map _)
      have hlast := putRow_perm row hothers
      rw [List.filter_filter] at hlast
      simp only [Bool.and_self] at hlast
      rw [rows_dropItems, rows_put, rows_put, rows_dropItems, rows_dropRow]
      exact (putRow_perm row hkeys).trans hlast.symm
    · rw [rows_dropItems, rows_put_of_ne _ htype, rows_put_of_ne _ htype, rows_dropItems,
        rows_dropRow_of_ne _ htype]
  items := by
    rw [items_put, dropItems, dropItems, items_put, items_dropRow]

end

/-- A stored record is replaced as it is deleted and the new one inserted. -/
theorem WellFormed.replace_alike (hwell : tables.WellFormed)
    (hstored : tables.has type record.row.id = true) :
    WrittenAlike (tables.replace record)
      ((tables.delete type record.row.id).2.insert record) := by
  have hafter := (sameButOrder_deleted tables record.row (hwell.keys type)).addItems record.row.id
    record.children
  rw [Tables.delete, if_pos hstored]
  unfold Tables.replace Tables.insert
  simp only [hstored, has_deleted, checkName_deleted, hafter.record_eq, Bool.not_true,
    Bool.false_eq_true, if_false]
  split
  · exact .failed _
  · split
    · exact .failed _
    · exact .written _ hafter

/-- So replacing is answered as deleting and inserting. -/
theorem WellFormed.answer_replace (hwell : tables.WellFormed)
    (hstored : tables.has type record.row.id = true) :
    (StoreCall.replace record).answer tables = (StoreCall.insert record).answer
      ((StoreCall.delete type record.row.id).step tables) := by
  rw [StoreCall.answer_eq, StoreCall.answer_eq, StoreCall.step_eq]
  exact (hwell.replace_alike hstored).answer_eq

/-- When it succeeds, it leaves the same tables, but for the order of rows. -/
theorem WellFormed.step_replace (hwell : tables.WellFormed)
    (hstored : tables.has type record.row.id = true)
    (hok : ((StoreCall.replace record).answer tables).isOk = true) :
    ((StoreCall.replace record).step tables).SameButOrder
      ((StoreCall.insert record).step ((StoreCall.delete type record.row.id).step tables)) := by
  rw [StoreCall.answer_eq] at hok
  rw [StoreCall.step_eq, StoreCall.step_eq, StoreCall.step_eq]
  exact (hwell.replace_alike hstored).sameButOrder fun hfailed =>
    absurd (hfailed.symm.trans hok) Bool.false_ne_true

end Tables

/-- After any calls on empty storage, each of which may fail, a stored record is replaced exactly as
it is deleted and the new one inserted: with the same answer, be it an error or a record, and if it
succeeds, all later calls are answered the same and storage counts the same. A query that fails then
is told apart by that only, and the errors that it may have, by the order in which it visits rows,
are the same. A record whose relations stand in their order, each once, is answered as it is stored
when it is inserted or replaces another one, and found so; what other keys find does not change. -/
theorem replacing_is_deleting_and_inserting (calls : List StoreCall) {type : ResourceType}
    (record : Record type) :
    let tables := StoreCall.steps calls Tables.empty
    let deleted := (StoreCall.delete type record.row.id).step tables
    (tables.has type record.row.id = true →
      (StoreCall.replace record).answer tables = (StoreCall.insert record).answer deleted ∧
        (((StoreCall.replace record).answer tables).isOk = true → ∀ later,
          let replaced := (StoreCall.replace record).step tables
          let inserted := (StoreCall.insert record).step deleted
          (StoreCall.answers later replaced).map StoreCall.told =
              (StoreCall.answers later inserted).map StoreCall.told ∧
            (StoreCall.steps later replaced).sizes = (StoreCall.steps later inserted).sizes ∧
            ∀ type predicate answer,
              (StoreCall.steps later replaced).MayAnswer type predicate answer ↔
                (StoreCall.steps later inserted).MayAnswer type predicate answer)) ∧
    ((record.children.map Prod.fst).Sublist Relation.all → ∀ stored after,
      (Storage.insert record : Call Tables _).run tables = (.ok stored, after) ∨
          (Storage.replace record : Call Tables _).run tables = (.ok stored, after) →
        stored = record.asStored ∧ after.get? type record.row.id = some record.asStored ∧
          ∀ other key, ¬(other = type ∧ key = record.row.id) →
            after.get? other key = tables.get? other key) := by
  intro tables deleted
  have hwell : tables.WellFormed := Tables.wellFormed_empty.steps calls
  refine ⟨fun hstored => ?_, fun hmap stored after hrun => ?_⟩
  · refine ⟨hwell.answer_replace hstored, fun hok later => ?_⟩
    obtain ⟨hanswers, hend⟩ := (hwell.step_replace hstored hok).steps (hwell.step _) later
    exact ⟨hanswers, hend.sizes_eq, fun _ _ _ => hend.mayAnswer_iff⟩
  · rw [Tables.call_insert, Tables.call_replace, Call.run_writing_eq_ok,
      Call.run_writing_eq_ok] at hrun
    obtain ⟨hrelations, rfl, rfl⟩ := hwell.eq_written hrun
    exact ⟨Tables.record_written hrelations hmap, Tables.get?_written hrelations hmap⟩

/-- A user who is replaced keeps the place before another one, and does not when deleted and
inserted again; no query tells. The new addresses of mail are linked to the user whoever they named,
and an empty relation leaves no trace. -/
theorem replacing_is_deleting_and_inserting_of_bob :
    let user (key : Nat) (name : String) : Row .user :=
      UserRow.named (.numbered key) name (.ofSeconds 0)
    let mail (place : Nat) (owner : Uuid) : ItemRow := ItemRow.blank (.drawn 1 place) owner
    let calls : List StoreCall :=
      [@StoreCall.insert .user ⟨user 2 "bob", [(.values .emails, [mail 0 (.numbered 2)])]⟩,
        @StoreCall.insert .user ⟨user 1 "alice", []⟩]
    let bob : Record .user :=
      ⟨user 2 "Bob", [(.values .emails, [mail 1 (.numbered 1), mail 2 (.numbered 1)]),
        (.addresses, [])]⟩
    let tables := StoreCall.steps calls Tables.empty
    let replaced := (StoreCall.replace bob).step tables
    let inserted := (StoreCall.insert bob).step ((StoreCall.delete .user bob.row.id).step tables)
    replaced ≠ inserted ∧
      (StoreCall.answers [.query .user none] replaced).map StoreCall.told =
        (StoreCall.answers [.query .user none] inserted).map StoreCall.told ∧
      ∃ stored after, (Storage.replace bob : Call Tables _).run tables = (.ok stored, after) ∧
        after.get? .user bob.row.id = some
          ⟨user 2 "Bob", [(.values .emails, [mail 1 (.numbered 2), mail 2 (.numbered 2)])]⟩ := by
  intro user mail calls bob tables replaced inserted
  have hdiffer : replaced ≠ inserted := by decide +kernel
  have hthere : tables.has .user bob.row.id = true := by decide +kernel
  have hok : ((StoreCall.replace bob).answer tables).isOk = true := by decide +kernel
  obtain ⟨hsame, hfound⟩ := replacing_is_deleting_and_inserting calls bob
  have htold := ((hsame hthere).2 hok [.query .user none]).1
  obtain ⟨stored, hanswer⟩ := except_isOk_iff.mp hok
  have hrun : (Storage.replace bob : Call Tables _).run tables = (.ok stored, replaced) :=
    Prod.ext hanswer rfl
  have hget := (hfound (by decide) stored replaced (.inr hrun)).2.1
  exact ⟨hdiffer, htold, stored, replaced, hrun, hget⟩

end ScimDirectory
