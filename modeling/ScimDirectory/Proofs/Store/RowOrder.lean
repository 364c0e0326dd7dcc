import ScimDirectory.Proofs.Predicate.Selection
import ScimDirectory.Proofs.Store.IdleCalls
import ScimDirectory.Proofs.Store.Order

/-!
# The order of stored rows

Rows are found by key and answers are put in order, so nothing that a call answers depends on the
order in which rows are stored, with one exception: a query that cannot be evaluated on some rows
fails with the error of the first of them that it visits. Tables with the same items whose rows
stand in another order give the same answers to all calls from then on, these errors aside.
-/

namespace ScimDirectory

namespace Tables

/-- Up to their order, the rows after a put are the row itself and those with other keys. -/
theorem putRow_perm {type : ResourceType} (row : Row type) {rows : List (Row type)}
    (hkeys : (rows.map Row.id).Nodup) :
    (putRow row rows).Perm (row :: rows.filter (·.id ≠ row.id)) := by
  induction rows with
  | nil => exact .refl _
  | cons first rows ih =>
    obtain ⟨hfirst, hkeys⟩ := List.nodup_cons.mp hkeys
    rw [putRow]
    by_cases hsame : first.id = row.id
    · have hothers : rows.filter (·.id ≠ row.id) = rows :=
        List.filter_eq_self.mpr fun other hmem => decide_eq_true fun heq =>
          hfirst (hsame ▸ heq ▸ List.mem_map_of_mem hmem)
      rw [if_pos hsame, List.filter_cons_of_neg (by simpa using hsame), hothers]
    · rw [if_neg hsame, List.filter_cons_of_pos (by simpa using hsame)]
      exact ((ih hkeys).cons first).trans (.swap row first _)

/-- The same rows, in whatever order they stand, with the same items. -/
structure SameRows (tables other : Tables) : Prop where
  /-- The rows of a type are the same but for their order. -/
  rows : ∀ type, (tables.rows type).Perm (other.rows type)
  /-- The items of a relation are the same. -/
  items : ∀ relation, tables.itemsOf relation = other.itemsOf relation

namespace SameRows

variable {type : ResourceType} {tables other : Tables} (h : tables.SameRows other)

include h

theorem keys (hkeys : ((tables.rows type).map Row.id).Nodup) :
    ((other.rows type).map Row.id).Nodup :=
  ((h.rows type).map Row.id).nodup_iff.mp hkeys

theorem ownedItems : tables.ownedItems = other.ownedItems := by
  funext owner relation
  rw [Tables.ownedItems, Tables.ownedItems, h.items]

theorem record (row : Row type) : tables.record row = other.record row := by
  rw [Tables.record, Tables.record, h.ownedItems]

theorem view (row : Row type) : tables.view row = other.view row := by
  rw [Tables.view, Tables.view, h.ownedItems]

end SameRows

/-- Tables that are the same, but that their rows may stand in another order and that relations
without items may differ in having a list. -/
structure SameButOrder (a b : Tables) : Prop where
  /-- The rows of each type. -/
  rows : ∀ type, (a.rows type).Perm (b.rows type)
  /-- The items. -/
  items : a.items = b.items

/-- Two results of a write: the same error, or the same answer and tables that are the same but for
the order of rows. -/
inductive WrittenAlike {α : Type} :
    Except StoreError (α × Tables) → Except StoreError (α × Tables) → Prop where
  /-- Both writes fail. -/
  | failed (error : StoreError) : WrittenAlike (.error error) (.error error)
  /-- Both writes succeed. -/
  | written (answer : α) {a b : Tables} (h : a.SameButOrder b) :
    WrittenAlike (.ok (answer, a)) (.ok (answer, b))

namespace SameButOrder

variable {type : ResourceType} {a b : Tables} (h : a.SameButOrder b)

include h

theorem symm : b.SameButOrder a := ⟨fun type => (h.rows type).symm, h.items.symm⟩

theorem sameRows : a.SameRows b := ⟨h.rows, fun relation => by rw [itemsOf, h.items, itemsOf]⟩

/-- A key finds the same row. -/
theorem find?_eq (hkeys : ((a.rows type).map Row.id).Nodup) (id : Uuid) :
    a.find? type id = b.find? type id := by
  refine Option.ext fun row => ?_
  rw [find?_eq_some_iff hkeys, find?_eq_some_iff (h.sameRows.keys hkeys), (h.rows type).mem_iff]

theorem has_eq (id : Uuid) : a.has type id = b.has type id := by
  rw [Bool.eq_iff_iff, has_iff, has_iff, ((h.rows type).map Row.id).mem_iff]

theorem itemsOf_eq : a.itemsOf = b.itemsOf := funext h.sameRows.items

theorem record_eq : (a.record : Row type → Record type) = b.record := funext h.sameRows.record

theorem view_eq : (a.view : Row type → RowView) = b.view := funext h.sameRows.view

theorem checkName_eq (row : Row type) : a.checkName row = b.checkName row := by
  have htaken : a.nameTaken row = b.nameTaken row := by
    unfold nameTaken
    split
    · rfl
    · rw [Bool.eq_iff_iff, List.any_eq_true, List.any_eq_true]
      simp only [(h.rows type).mem_iff]
  rw [checkName, htaken, checkName]

theorem sizes_eq : a.sizes = b.sizes := by
  have husers : a.users.length = b.users.length := (h.rows .user).length_eq
  have hgroups : a.groups.length = b.groups.length := (h.rows .group).length_eq
  rw [sizes, husers, hgroups, h.items, sizes]

/-- Other rows of a type may be written in both. -/
theorem withRows {rows rows' : List (Row type)} (hrows : rows.Perm rows') :
    (a.withRows type rows).SameButOrder (b.withRows type rows') where
  rows other := by
    by_cases htype : other = type
    · subst htype
      rwa [rows_withRows, rows_withRows]
    · rw [rows_withRows_of_ne _ htype, rows_withRows_of_ne _ htype]
      exact h.rows other
  items := by rw [items_withRows, items_withRows, h.items]

theorem put (hkeys : ((a.rows type).map Row.id).Nodup) (row : Row type) :
    (a.put row).SameButOrder (b.put row) := by
  refine h.withRows ((putRow_perm row hkeys).trans (.trans ?_ (putRow_perm row ?_).symm))
  · exact ((h.rows type).filter _).cons row
  · exact h.sameRows.keys hkeys

theorem dropRow (id : Uuid) : (a.dropRow type id).SameButOrder (b.dropRow type id) :=
  h.withRows ((h.rows type).filter _)

/-- Other items may be written in both. -/
theorem mk_items (items : List (Relation × ItemRow)) (lists lists' : List Relation) :
    ({ a with items, lists } : Tables).SameButOrder { b with items, lists := lists' } where
  rows type := by
    rw [rows_mk_items, rows_mk_items]
    exact h.rows type
  items := rfl

theorem dropItems (type : ResourceType) (owner : Uuid) :
    (a.dropItems type owner).SameButOrder (b.dropItems type owner) := by
  rw [Tables.dropItems, Tables.dropItems, h.items]
  exact h.mk_items ..

theorem addItems (owner : Uuid) (children : List (Relation × List ItemRow)) :
    (a.addItems owner children).SameButOrder (b.addItems owner children) := by
  obtain ⟨lists, ha⟩ := a.addItems_eq owner children
  obtain ⟨lists', hb⟩ := b.addItems_eq owner children
  rw [ha, hb, h.items]
  exact h.mk_items ..

theorem insert (hkeys : ((a.rows type).map Row.id).Nodup) (record : Record type) :
    WrittenAlike (a.insert record) (b.insert record) := by
  have hput := (h.put hkeys record.row).addItems record.row.id record.children
  unfold Tables.insert
  simp only [h.has_eq, h.checkName_eq, hput.record_eq]
  split
  · exact .failed _
  · split
    · exact .failed _
    · split
      · exact .failed _
      · exact .written _ hput

theorem replace (hkeys : ((a.rows type).map Row.id).Nodup) (record : Record type) :
    WrittenAlike (a.replace record) (b.replace record) := by
  have hput := ((h.put hkeys record.row).dropItems type record.row.id).addItems record.row.id
    record.children
  unfold Tables.replace
  simp only [h.has_eq, h.checkName_eq, hput.record_eq]
  split
  · exact .failed _
  · split
    · exact .failed _
    · split
      · exact .failed _
      · exact .written _ hput

theorem update (hkeys : ((a.rows type).map Row.id).Nodup) (row : Row type) :
    WrittenAlike (a.update row) (b.update row) := by
  unfold Tables.update
  rw [h.has_eq, h.checkName_eq]
  split
  · exact .failed _
  · split
    · exact .failed _
    · exact .written _ (h.put hkeys row)

theorem insertItem (relation : Relation) (item : ItemRow) :
    WrittenAlike (a.insertItem relation item) (b.insertItem relation item) := by
  obtain ⟨lists, ha⟩ := a.withList_eq relation
  obtain ⟨lists', hb⟩ := b.withList_eq relation
  unfold Tables.insertItem
  rw [h.has_eq, h.itemsOf_eq, ha, hb, link, link, h.items]
  split
  · exact .failed _
  · split
    · exact .failed _
    · exact .written _ (h.mk_items ..)

theorem updateItem (relation : Relation) (item : ItemRow) :
    WrittenAlike (a.updateItem relation item) (b.updateItem relation item) := by
  unfold Tables.updateItem
  rw [h.itemsOf_eq, writeItem, writeItem, h.items]
  split
  · exact .failed _
  · split
    · exact .failed _
    · exact .written _ (h.mk_items ..)

theorem delete (type : ResourceType) (id : Uuid) :
    (a.delete type id).1 = (b.delete type id).1 ∧
      (a.delete type id).2.SameButOrder (b.delete type id).2 := by
  unfold Tables.delete
  rw [h.has_eq]
  split
  · exact ⟨rfl, (h.dropRow id).dropItems type id⟩
  · exact ⟨rfl, h⟩

theorem deleteWhere (relation : Relation) (test : ItemRow → Bool) :
    (a.deleteWhere relation test).1 = (b.deleteWhere relation test).1 ∧
      (a.deleteWhere relation test).2.SameButOrder (b.deleteWhere relation test).2 := by
  have hafter : (a.without relation test).SameButOrder (b.without relation test) := by
    rw [without, without, h.items]
    exact h.mk_items ..
  refine ⟨?_, hafter⟩
  rw [Tables.deleteWhere, Tables.deleteWhere, h.itemsOf_eq, hafter.itemsOf_eq]

theorem get?_eq (hkeys : ((a.rows type).map Row.id).Nodup) (id : Uuid) :
    a.get? type id = b.get? type id := by
  rw [get?, h.find?_eq hkeys, h.record_eq, get?]

/-- A query that succeeds is answered the same. -/
theorem query_eq_ok (hkeys : ((a.rows type).map Row.id).Nodup) {predicate : Option Predicate}
    {records : List (Record type)} (hquery : a.query type predicate = .ok records) :
    b.query type predicate = .ok records := by
  obtain ⟨rows, hrows, rfl⟩ := except_map_eq_ok.mp hquery
  obtain ⟨rows', hrows', hperm⟩ := selectWhere_perm (h.rows type) hrows
  have hkept : (rows.map Row.id).Nodup := hkeys.sublist ((selectWhere_sublist hrows).map _)
  rw [query, ← h.view_eq, hrows', ← h.record_eq, mergeSort_congr hkept hperm]
  rfl

/-- A query fails on both or on neither. -/
theorem query_told (hkeys : ((a.rows type).map Row.id).Nodup) (predicate : Option Predicate) :
    (a.query type predicate).mapError (fun _ => (none : Option StoreError)) =
      (b.query type predicate).mapError fun _ => none := by
  cases hleft : a.query type predicate with
  | ok records => rw [h.query_eq_ok hkeys hleft]
  | error e =>
    cases hright : b.query type predicate with
    | error e' => rfl
    | ok records =>
      rw [h.symm.query_eq_ok (h.sameRows.keys hkeys) hright] at hleft
      cases hleft

end SameButOrder

/-- An answer that a query may give when it visits the rows in some order. -/
def MayAnswer (tables : Tables) (type : ResourceType) (predicate : Option Predicate)
    (answer : Except StoreError (List (Record type))) : Prop :=
  ∃ rows, rows.Perm (tables.rows type) ∧
    (tables.withRows type rows).query type predicate = answer

/-- What a query may answer does not depend on the order of rows. -/
theorem SameButOrder.mayAnswer_iff {a b : Tables} (h : a.SameButOrder b) {type : ResourceType}
    {predicate : Option Predicate} {answer : Except StoreError (List (Record type))} :
    a.MayAnswer type predicate answer ↔ b.MayAnswer type predicate answer := by
  have hquery : ∀ rows, (a.withRows type rows).query type predicate =
      (b.withRows type rows).query type predicate := by
    intro rows
    have hsame : (a.withRows type rows).SameButOrder (b.withRows type rows) :=
      h.withRows (.refl rows)
    rw [query, query, hsame.view_eq, hsame.record_eq, rows_withRows, rows_withRows]
  unfold MayAnswer
  simp only [hquery]
  exact exists_congr fun rows => and_congr_left fun _ =>
    ⟨fun hperm => hperm.trans (h.rows type), fun hperm => hperm.trans (h.rows type).symm⟩

end Tables

namespace StoreCall

/-- Whether a call that fails has one error only, whatever the order of rows. -/
def errsAlike : StoreCall → Bool
  | .query .. => false
  | _ => true

/-- A call and its answer, without the error of a query. -/
def told (entry : (c : StoreCall) × Except StoreError c.Answer) :
    (c : StoreCall) × Except (Option StoreError) c.Answer :=
  ⟨entry.1, entry.2.mapError fun error => if entry.1.errsAlike then some error else none⟩

end StoreCall

namespace Tables

namespace WrittenAlike

variable {α : Type} {a b : Tables} {write write' : Tables → Except StoreError (α × Tables)}
  (halike : WrittenAlike (write a) (write' b))

include halike

/-- Writes with results alike give the same answer. -/
theorem answer_eq : ((Call.writing write).run a).1 = ((Call.writing write').run b).1 := by
  rw [Call.answer_writing, Call.answer_writing]
  generalize write a = left, write' b = right at halike
  cases halike <;> rfl

/-- Writes with results alike leave tables that are the same but for the order of rows; those that
fail, if the tables before them were. -/
theorem sameButOrder (h : ((Call.writing write).run a).1.isOk = false → a.SameButOrder b) :
    ((Call.writing write).run a).2.SameButOrder ((Call.writing write').run b).2 := by
  rw [Call.answer_writing] at h
  unfold Call.writing ExceptT.run
  dsimp only
  generalize write a = left, write' b = right at halike h
  cases halike with
  | failed error => exact h rfl
  | written answer hafter => exact hafter

theorem run (h : a.SameButOrder b) :
    ((Call.writing write).run a).1 = ((Call.writing write').run b).1 ∧
      ((Call.writing write).run a).2.SameButOrder ((Call.writing write').run b).2 :=
  ⟨halike.answer_eq, halike.sameButOrder fun _ => h⟩

end WrittenAlike

/-- Whatever the order of rows, a call is answered the same and leaves the same tables, in some
order again. -/
theorem SameButOrder.step {a b : Tables} (h : a.SameButOrder b) (hwell : a.WellFormed)
    (c : StoreCall) :
    StoreCall.told ⟨c, c.answer a⟩ = StoreCall.told ⟨c, c.answer b⟩ ∧
      (c.step a).SameButOrder (c.step b) := by
  simp only [StoreCall.answer_eq, StoreCall.step_eq]
  have hsame : ∀ {c : StoreCall}, (c.atOnce.run a).1 = (c.atOnce.run b).1 ∧
        (c.atOnce.run a).2.SameButOrder (c.atOnce.run b).2 →
      StoreCall.told ⟨c, (c.atOnce.run a).1⟩ = StoreCall.told ⟨c, (c.atOnce.run b).1⟩ ∧
        (c.atOnce.run a).2.SameButOrder (c.atOnce.run b).2 :=
    fun hboth => ⟨by rw [hboth.1], hboth.2⟩
  have halways : ∀ {α : Type} {x y : α}, x = y → (.ok x : Except StoreError α) = .ok y :=
    congrArg _
  cases c with
  | insert record => exact hsame ((h.insert (hwell.keys _) record).run h)
  | replace record => exact hsame ((h.replace (hwell.keys _) record).run h)
  | get type id => exact hsame ⟨halways (h.get?_eq (hwell.keys type) id), h⟩
  | query type predicate =>
    exact ⟨congrArg (Sigma.mk (StoreCall.query type predicate))
      (h.query_told (hwell.keys type) predicate), h⟩
  | update row => exact hsame ((h.update (hwell.keys _) row).run h)
  | delete type id =>
    obtain ⟨hanswer, hafter⟩ := h.delete type id
    exact hsame ⟨halways hanswer, hafter⟩
  | queryItems relation owner predicate =>
    refine hsame ⟨?_, h⟩
    change a.queryItems relation owner predicate = b.queryItems relation owner predicate
    rw [queryItems, h.sameRows.ownedItems, queryItems]
  | insertItem relation item => exact hsame ((h.insertItem relation item).run h)
  | updateItem relation item => exact hsame ((h.updateItem relation item).run h)
  | deleteItems relation ids =>
    obtain ⟨hanswer, hafter⟩ := h.deleteWhere relation fun item => ids.contains item.id
    exact hsame ⟨halways hanswer, hafter⟩
  | deleteAllItems relation owner =>
    obtain ⟨hanswer, hafter⟩ := h.deleteWhere relation fun item => item.owner = owner
    exact hsame ⟨halways hanswer, hafter⟩

/-- Whatever the order of rows, all later calls are answered the same. -/
theorem SameButOrder.steps {a b : Tables} (h : a.SameButOrder b) (hwell : a.WellFormed)
    (later : List StoreCall) :
    (StoreCall.answers later a).map StoreCall.told =
        (StoreCall.answers later b).map StoreCall.told ∧
      (StoreCall.steps later a).SameButOrder (StoreCall.steps later b) := by
  induction later generalizing a b with
  | nil => exact ⟨rfl, h⟩
  | cons c later ih =>
    obtain ⟨hanswer, hafter⟩ := h.step hwell c
    obtain ⟨hanswers, hend⟩ := ih hafter (hwell.step c)
    refine ⟨?_, hend⟩
    rw [StoreCall.answers, StoreCall.answers, List.map_cons, List.map_cons, hanswer, hanswers]

end Tables
end ScimDirectory
