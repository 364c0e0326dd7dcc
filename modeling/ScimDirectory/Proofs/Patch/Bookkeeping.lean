import ScimDirectory.Proofs.Patch.Columns

/-!
# Bookkeeping

The version of a row and the time of its last change are kept by the directory: they have no column
and are not part of the name or the key. A call on tables in which nothing else is different does
the same, and leaves tables in which nothing else is different.
-/

namespace ScimDirectory

namespace Row

variable {type : ResourceType}

/-- A change of rows that keeps keys, names and columns. -/
structure Clerical (f : Row type → Row type) : Prop where
  /-- Keys stay. -/
  id : ∀ row, (f row).id = row.id
  /-- Names stay. -/
  uniqueName? : ∀ row, (f row).uniqueName? = row.uniqueName?
  /-- Columns are written before or after. -/
  assign : ∀ row column content, (f row).assign column content = (row.assign column content).map f

/-- A row with another time of change and another version, if it is the one with a key. -/
def filed (id : Uuid) (now : Instant) (etag : String) (row : Row type) : Row type :=
  if row.id = id then (row.withLastModified now).withEtag etag else row

theorem filed_self (row : Row type) (now : Instant) (etag : String) :
    row.filed row.id now etag = (row.withLastModified now).withEtag etag :=
  if_pos rfl

theorem filed_of_ne {row : Row type} {id : Uuid} (h : row.id ≠ id) (now : Instant) (etag : String) :
    row.filed id now etag = row :=
  if_neg h

/-- Columns are written before or after a row gets its time and its version. -/
theorem assign_withEtag_withLastModified (row : Row type) (now : Instant) (etag : String)
    (column : Column) (content : Option Scalar) :
    ((row.withLastModified now).withEtag etag).assign column content =
      (row.assign column content).map fun new => (new.withLastModified now).withEtag etag := by
  cases type <;> cases column <;>
    simp only [assign_eq, taking, UserRow.taking, UserRow.textSlot?, GroupRow.taking,
      withLastModified, withEtag] <;>
    first
    | rfl
    | cases textOf "users" _ content <;> rfl
    | cases textOf "groups" _ content <;> rfl
    | cases boolOf "users" _ content <;> rfl
    | cases requiredText "users" _ content <;> rfl
    | cases requiredText "groups" _ content <;> rfl

theorem clerical_filed (id : Uuid) (now : Instant) (etag : String) :
    Clerical (filed id now etag : Row type → Row type) where
  id row := by
    unfold filed
    split
    · cases type <;> rfl
    · rfl
  uniqueName? row := by
    unfold filed
    split
    · cases type <;> rfl
    · rfl
  assign row column content := by
    cases hassign : row.assign column content with
    | error error =>
      unfold filed
      split
      · rw [assign_withEtag_withLastModified, hassign]
        rfl
      · rw [hassign]
        rfl
    | ok new =>
      have hid : new.id = row.id := (sameSystem_of_assign hassign).id
      unfold filed
      simp only [Except.map, hid]
      split
      · rw [assign_withEtag_withLastModified, hassign]
        rfl
      · exact hassign

end Row

namespace Tables

variable {type : ResourceType}

/-- The tables in which the rows of a type are changed. -/
def mapRows (f : Row type → Row type) (tables : Tables) : Tables :=
  tables.withRows type ((tables.rows type).map f)

@[simp] theorem rows_mapRows (f : Row type → Row type) (tables : Tables) :
    (tables.mapRows f).rows type = (tables.rows type).map f :=
  tables.rows_withRows _

@[simp] theorem items_mapRows (f : Row type → Row type) (tables : Tables) :
    (tables.mapRows f).items = tables.items :=
  tables.items_withRows _

@[simp] theorem itemsOf_mapRows (f : Row type → Row type) (tables : Tables) :
    (tables.mapRows f).itemsOf = tables.itemsOf := by
  funext relation
  rw [itemsOf, items_mapRows, itemsOf]

theorem withList_mapRows (f : Row type → Row type) (tables : Tables) (relation : Relation) :
    (tables.mapRows f).withList relation = (tables.withList relation).mapRows f := by
  cases type <;>
  · unfold withList
    rw [apply_ite (mapRows f)]
    rfl

theorem link_mapRows (f : Row type → Row type) (tables : Tables) (relation : Relation)
    (item : ItemRow) :
    (tables.mapRows f).link relation item = (tables.link relation item).mapRows f := by
  cases type <;> rfl

theorem writeItem_mapRows (f : Row type → Row type) (tables : Tables) (relation : Relation)
    (item : ItemRow) :
    (tables.mapRows f).writeItem relation item = (tables.writeItem relation item).mapRows f := by
  cases type <;> rfl

theorem without_mapRows (f : Row type → Row type) (tables : Tables) (relation : Relation)
    (test : ItemRow → Bool) :
    (tables.mapRows f).without relation test = (tables.without relation test).mapRows f := by
  cases type <;> rfl

theorem mapRows_withRows (f : Row type → Row type) (tables : Tables) (rows : List (Row type)) :
    mapRows f (tables.withRows type rows) = (tables.mapRows f).withRows type (rows.map f) := by
  cases type <;> rfl

section

variable {f : Row type → Row type} (hf : Row.Clerical f)

include hf

theorem find?_mapRows (tables : Tables) (id : Uuid) :
    (tables.mapRows f).find? type id = (tables.find? type id).map f := by
  rw [find?, rows_mapRows, List.find?_map, find?]
  congr 2
  funext row
  simp only [Function.comp_apply, hf.id]

theorem has_mapRows (tables : Tables) (other : ResourceType) (id : Uuid) :
    (tables.mapRows f).has other id = tables.has other id := by
  by_cases hother : other = type
  · subst hother
    rw [has, has, find?_mapRows hf, Option.isSome_map]
  · rw [has, has, find?, find?, mapRows, rows_withRows_of_ne _ hother]

theorem putRow_map (row : Row type) (rows : List (Row type)) :
    putRow (f row) (rows.map f) = (putRow row rows).map f := by
  induction rows with
  | nil => rfl
  | cons other rows ih =>
    simp only [List.map_cons, putRow, hf.id, ih]
    split <;> rfl

theorem put_mapRows (tables : Tables) (row : Row type) :
    (tables.mapRows f).put (f row) = (tables.put row).mapRows f := by
  rw [put, put, rows_mapRows, putRow_map hf, mapRows_withRows]

theorem nameTaken_mapRows (tables : Tables) (row : Row type) :
    (tables.mapRows f).nameTaken (f row) = tables.nameTaken row := by
  simp only [nameTaken, hf.uniqueName?, hf.id, rows_mapRows, List.any_map]
  cases row.uniqueName? with
  | none => rfl
  | some name =>
    refine congrArg (List.any _ ·) (funext fun other => ?_)
    simp only [Function.comp_apply, hf.id, hf.uniqueName?]

theorem update_mapRows (tables : Tables) (row : Row type) :
    (tables.mapRows f).update (f row) =
      (tables.update row).map fun (stored, after) => (f stored, after.mapRows f) := by
  simp only [update, has_mapRows hf, checkName, nameTaken_mapRows hf, hf.id, hf.uniqueName?,
    put_mapRows hf]
  split
  · rfl
  · split
    · next hname =>
      split at hname <;> cases hname
      rfl
    · next hname =>
      split at hname <;> cases hname
      rfl

theorem insertItem_mapRows (relation : Relation) (item : ItemRow) (tables : Tables) :
    (tables.mapRows f).insertItem relation item =
      (tables.insertItem relation item).map fun (stored, after) => (stored, after.mapRows f) := by
  simp only [insertItem, has_mapRows hf, itemsOf_mapRows, withList_mapRows, link_mapRows]
  split
  · rfl
  · split <;> rfl

end

variable (f : Row type → Row type)

theorem queryItems_mapRows (relation : Relation) (owner : Uuid) (predicate : Option Predicate)
    (tables : Tables) :
    (tables.mapRows f).queryItems relation owner predicate =
      tables.queryItems relation owner predicate := by
  simp only [queryItems, ownedItems, itemsOf, items_mapRows]

theorem updateItem_mapRows (relation : Relation) (item : ItemRow) (tables : Tables) :
    (tables.mapRows f).updateItem relation item =
      (tables.updateItem relation item).map fun (stored, after) => (stored, after.mapRows f) := by
  simp only [updateItem, itemsOf_mapRows, writeItem_mapRows]
  split
  · rfl
  · split <;> rfl

theorem deleteWhere_mapRows (relation : Relation) (test : ItemRow → Bool) (tables : Tables) :
    (tables.mapRows f).deleteWhere relation test =
      ((tables.deleteWhere relation test).1, (tables.deleteWhere relation test).2.mapRows f) := by
  simp only [deleteWhere, without_mapRows, itemsOf_mapRows]

/-- Putting a row with another time and version changes no other row. -/
theorem put_eq_mapRows {tables : Tables} (hnodup : ((tables.rows type).map Row.id).Nodup)
    {row : Row type} {id : Uuid} (hfind : tables.find? type id = some row) (now : Instant)
    (etag : String) :
    tables.put ((row.withLastModified now).withEtag etag) =
      tables.mapRows (Row.filed id now etag : Row type → Row type) := by
  obtain rfl : row.id = id := id_of_find? hfind
  rw [← Row.filed_self, put, mapRows]
  congr 1
  have hid := (Row.clerical_filed row.id now etag : @Row.Clerical type _).id
  unfold find? at hfind
  generalize tables.rows type = rows at *
  induction rows with
  | nil => cases hfind
  | cons other rows ih =>
    rw [List.map_cons, List.nodup_cons] at hnodup
    rw [List.map_cons, putRow, hid]
    by_cases hother : other.id = row.id
    · obtain rfl : other = row := by
        rw [List.find?_cons_of_pos (by simpa using hother)] at hfind
        exact Option.some.inj hfind
      have hrest : rows.map (Row.filed other.id now etag) = rows :=
        (List.map_congr_left fun row hmem => Row.filed_of_ne
          (fun hsame => hnodup.1 (List.mem_map.mpr ⟨row, hmem, hsame⟩)) now etag).trans
          (List.map_id rows)
      rw [if_pos rfl, hrest]
    · rw [List.find?_cons_of_neg (by simpa using hother)] at hfind
      rw [if_neg hother, Row.filed_of_ne hother, ih hnodup.2 hfind]

end Tables

section

variable {ε S α β : Type} {f : S → S}

/-- Whether a run answers the same in every state that is changed by a map, and leaves the state
changed by the map. -/
def Commutes (f : S → S) (a : ExceptT ε (StateM S) α) : Prop :=
  ∀ s, a.run (f s) = ((a.run s).1, f (a.run s).2)

namespace Commutes

theorem answer (x : Except ε α) : Commutes f (fun s => (x, s) : ExceptT ε (StateM S) α) :=
  fun _ => rfl

theorem bind {a : ExceptT ε (StateM S) α} {k : α → ExceptT ε (StateM S) β} (ha : Commutes f a)
    (hk : ∀ x, Commutes f (k x)) : Commutes f (a >>= k) := by
  intro s
  have hfirst := ha s
  rcases hrun : a.run s with ⟨e | x, middle⟩
  · rw [hrun] at hfirst
    rw [run_bind_of_error hfirst, run_bind_of_error hrun]
  · rw [hrun] at hfirst
    rw [run_bind_of_ok hfirst, run_bind_of_ok hrun]
    exact hk x middle

theorem adapt {ε' : Type} {a : ExceptT ε (StateM S) α} (wrap : ε → ε') (ha : Commutes f a) :
    Commutes f (a.adapt wrap) := by
  intro s
  have hrun : ∀ s, (a.adapt wrap).run s = ((a.run s).1.mapError wrap, (a.run s).2) := fun _ => rfl
  rw [hrun, hrun, ha s]

end Commutes

end

section

variable {σ α : Type} {f : σ → σ}

theorem commutes_reading {read : σ → Except StoreError α} (h : ∀ s, read (f s) = read s) :
    Commutes f (Call.reading read) :=
  fun s => congrArg (·, f s) (h s)

theorem commutes_writing {write : σ → Except StoreError (α × σ)}
    (h : ∀ s, write (f s) = (write s).map fun (a, after) => (a, f after)) :
    Commutes f (Call.writing write) := by
  intro s
  unfold Call.writing ExceptT.run
  dsimp only
  rw [h s]
  cases write s <;> rfl

theorem commutes_always {write : σ → α × σ} (h : ∀ s, write (f s) = ((write s).1, f (write s).2)) :
    Commutes f (Call.always write) := by
  intro s
  unfold Call.always ExceptT.run
  dsimp only
  rw [h s]

/-- A world in which storage is changed. -/
def World.mapStore (f : σ → σ) (w : World σ) : World σ := { w with store := f w.store }

theorem commutes_call {call : Call σ α} (h : Commutes f call) :
    Commutes (World.mapStore f) (Action.call call) := by
  intro w
  change ((call.run (f w.store)).1.mapError DirectoryError.storage,
    ({ w with store := (call.run (f w.store)).2 } : World σ)) = _
  rw [h w.store]
  rfl

theorem commutes_draw : Commutes (World.mapStore f) (Action.draw : Action σ Nat) := fun _ => rfl

end

namespace Patch

variable {type : ResourceType} {f : Row type → Row type} {α : Type} {key : Uuid}
  {relation : Relation}

/-- Whether an action does the same over tables in which rows are changed. -/
abbrev Unaffected (f : Row type → Row type) (a : Action Tables α) : Prop :=
  Commutes (World.mapStore (Tables.mapRows f)) a

/-- Whether a step does the same over tables in which rows are changed, with the row at hand
changed as well. -/
abbrev UnaffectedStep (f : Row type → Row type) (a : Step Tables type α) : Prop :=
  Commutes (fun (s : World Tables × Row type) => (s.1.mapStore (Tables.mapRows f), f s.2)) a

theorem unaffected_queryItems (predicate : Option Predicate) :
    Unaffected f (Action.call (Storage.queryItems relation key predicate)) :=
  commutes_call (commutes_reading (Tables.queryItems_mapRows f relation key predicate))

theorem unaffected_updateItem (item : ItemRow) :
    Unaffected f (Action.call (Storage.updateItem relation item)) :=
  commutes_call (Tables.call_updateItem relation item ▸
    commutes_writing (Tables.updateItem_mapRows f relation item))

theorem unaffected_updateItems (items : List ItemRow) :
    Unaffected f (updateItems relation items) := by
  induction items with
  | nil => exact .answer (.ok ())
  | cons item items ih => exact .bind (unaffected_updateItem item) fun _ => ih

theorem unaffected_deleteAllItems :
    Unaffected f (Action.call (Storage.deleteAllItems relation key)) :=
  commutes_call (Tables.call_deleteAllItems relation key ▸
    commutes_always (Tables.deleteWhere_mapRows f relation _))

theorem unaffected_removeItems (filter : Predicate) :
    Unaffected f (removeItems key relation filter) :=
  .bind (unaffected_queryItems _) fun _ =>
    .bind (commutes_call (Tables.call_deleteItems relation _ ▸
      commutes_always (Tables.deleteWhere_mapRows f relation _))) fun _ => .answer _

theorem unaffected_setItemField (filter : Predicate) (field : Field) (value : Json) :
    Unaffected f (setItemField key relation filter field value) := by
  have hitem : Unaffected f (Action.call (Storage.onlyItem relation key filter)) := by
    refine commutes_call (.bind
      (commutes_reading (Tables.queryItems_mapRows f relation key (some filter))) fun items => ?_)
    split <;> exact .answer _
  refine .bind (.adapt notOne hitem) fun item => .bind (.answer _) fun content =>
    .bind (.answer _) fun item => .bind (.answer _) fun _ => ?_
  have hwrite : Unaffected f (do let _ ← Action.call (Storage.updateItem relation item)) :=
    .bind (unaffected_updateItem item) fun _ => .answer _
  split
  · exact .bind (unaffected_queryItems _) fun _ => .bind (.answer _) fun _ => hwrite
  · exact hwrite

theorem unaffected_mergeItems (filter : Predicate) (value : Json) :
    Unaffected f (mergeItems key relation filter value) := by
  unfold mergeItems
  split
  · refine .bind (unaffected_queryItems _) fun all => .bind (unaffected_queryItems _)
      fun selected => ?_
    have hwrite : ∀ members, Unaffected f (do
        let updates ← Action.check .patch (itemUpdates relation members)
        let changed ← Action.ensure (changedItems relation updates selected)
        let others := all.filter fun item => !changed.any (·.id = item.id)
        Action.check .violation (checkPrimary relation (others ++ changed))
        updateItems relation changed) := fun members =>
      .bind (.answer _) fun updates => .bind (.answer _) fun changed => .bind (.answer _) fun _ =>
        unaffected_updateItems changed
    split
    · exact .bind (.answer _) fun _ => hwrite _
    · exact hwrite _
  · exact .answer _

theorem unaffected_lift {a : Action Tables α} (h : Unaffected f a) :
    UnaffectedStep f (Step.lift a) := by
  intro s
  change ((a.run (s.1.mapStore (Tables.mapRows f))).1,
    (a.run (s.1.mapStore (Tables.mapRows f))).2, f s.2) = _
  rw [h s.1]
  rfl

section

variable (hf : Row.Clerical f)

include hf

theorem unaffected_insertItems (items : List ItemRow) :
    Unaffected f (insertItems relation items) := by
  induction items with
  | nil => exact .answer (.ok ())
  | cons item items ih =>
    exact .bind (commutes_call (Tables.call_insertItem relation item ▸
      commutes_writing (Tables.insertItem_mapRows hf relation item))) fun _ => ih

theorem unaffected_addItems (root : ServiceRoot) (value : Json) :
    Unaffected f (addItems root key relation value) :=
  .bind (unaffected_queryItems _) fun _ => .bind commutes_draw fun _ => .bind (.answer _) fun _ =>
    .bind (.answer _) fun _ => unaffected_insertItems hf _

theorem unaffected_replaceItems (root : ServiceRoot) (value : Json) :
    Unaffected f (replaceItems root key relation value) := by
  refine .bind commutes_draw fun _ => ?_
  have hwrite : ∀ items, Unaffected f (do
      Action.check .violation (checkPrimary relation items)
      let _ ← Action.call (Storage.deleteAllItems relation key)
      insertItems relation items) := fun items =>
    .bind (.answer _) fun _ => .bind unaffected_deleteAllItems fun _ =>
      unaffected_insertItems hf items
  split
  · exact .bind (.answer _) fun _ => hwrite _
  · exact .bind (.answer _) fun _ => hwrite _

theorem unaffected_owner : UnaffectedStep f (owner : Step Tables type Uuid) :=
  fun s => congrArg (fun id => (Except.ok id, s.1.mapStore (Tables.mapRows f), f s.2)) (hf.id s.2)

theorem unaffected_assignField (field : Field) (content : Option Scalar) :
    UnaffectedStep f (assignField field content) := by
  intro ⟨w, row⟩
  dsimp only
  rw [assignField_run, assignField_run, hf.assign]
  cases row.assign field.column content <;> rfl

theorem unaffected_assignFields (updates : Updates) : UnaffectedStep f (assignFields updates) := by
  induction updates with
  | nil => exact .answer (.ok ())
  | cons update updates ih =>
    exact .bind (unaffected_assignField hf update.1 update.2) fun _ => ih

theorem unaffected_setFields (updates : Updates) : UnaffectedStep f (setFields updates) := by
  refine .bind (unaffected_assignFields hf updates) fun _ => ?_
  intro ⟨w, row⟩
  simp only [writeRow_run, World.mapStore, Tables.update_mapRows hf]
  cases w.store.update row <;> rfl

theorem unaffected_addTo (setting : Setting) (target : Target) (value : Json) :
    UnaffectedStep f (addTo setting target value) := by
  unfold addTo
  split
  · exact .answer _
  · cases target with
    | field field => exact .bind (.answer _) fun _ => unaffected_setFields hf _
    | complex parent => exact .bind (.answer _) fun _ => unaffected_setFields hf _
    | items relation filter sub =>
      rcases filter with _ | filter <;> rcases sub with _ | sub
      · exact .bind (unaffected_owner hf) fun _ => unaffected_lift (unaffected_addItems hf _ _)
      · exact .answer _
      · exact .answer _
      · exact .bind (unaffected_owner hf) fun _ => unaffected_lift (unaffected_setItemField _ _ _)

theorem unaffected_removeAt (target : Target) :
    UnaffectedStep f (removeAt target) := by
  unfold removeAt
  cases target with
  | field field => exact unaffected_setFields hf _
  | complex parent => exact unaffected_setFields hf _
  | items relation filter sub =>
    rcases filter with _ | filter <;> rcases sub with _ | sub
    · exact .bind (unaffected_owner hf) fun _ =>
        .bind (unaffected_lift unaffected_deleteAllItems) fun _ => .answer _
    · exact .answer _
    · exact .bind (unaffected_owner hf) fun _ => unaffected_lift (unaffected_removeItems _)
    · exact .answer _

theorem unaffected_replaceAt (setting : Setting) (target : Target) (value : Json) :
    UnaffectedStep f (replaceAt setting target value) := by
  unfold replaceAt
  cases target with
  | field field => exact .bind (.answer _) fun _ => unaffected_setFields hf _
  | complex parent =>
    by_cases hnull : value.isNull = true
    · simp only [hnull, if_true]
      exact .bind (.answer _) fun _ => unaffected_setFields hf _
    · simp only [hnull]
      exact .bind (.answer _) fun _ => unaffected_setFields hf _
  | items relation filter sub =>
    rcases filter with _ | filter <;> rcases sub with _ | sub
    · exact .bind (unaffected_owner hf) fun _ => unaffected_lift (unaffected_replaceItems hf _ _)
    · exact .answer _
    · exact .bind (unaffected_owner hf) fun _ => unaffected_lift (unaffected_mergeItems _ _)
    · exact .bind (unaffected_owner hf) fun _ => unaffected_lift (unaffected_setItemField _ _ _)

section

variable {setting : Setting} {apply : Target → Json → Step Tables type Unit}
  (happly : ∀ target value, UnaffectedStep f (apply target value))

omit hf

include happly

theorem unaffected_applyAt (path : String) (value : Json) :
    UnaffectedStep f (applyAt setting apply path value) :=
  .bind (.answer _) fun target => happly target value

theorem unaffected_applyMembers (members : Members) :
    UnaffectedStep f (applyMembers setting apply members) := by
  induction members with
  | nil => exact .answer (.ok ())
  | cons member members ih =>
    exact .bind (unaffected_applyAt happly member.1 member.2) fun _ => ih

theorem unaffected_applyValue (operation : Operation) :
    UnaffectedStep f (applyValue setting apply operation) := by
  unfold applyValue
  split
  · exact unaffected_applyAt happly _ _
  · exact unaffected_applyMembers happly _
  · exact .answer _

end

/-- An operation does the same over tables in which what the directory keeps is different. -/
theorem unaffected_apply (setting : Setting) (operation : Operation) :
    UnaffectedStep f (apply setting operation) := by
  unfold apply
  split
  · exact unaffected_applyValue (unaffected_addTo hf setting) operation
  · unfold remove
    split
    · exact unaffected_applyAt (fun target _ => unaffected_removeAt hf target) _ _
    · exact .answer _
  · exact unaffected_applyValue (unaffected_replaceAt hf setting) operation

/-- So do operations one after the other. -/
theorem unaffected_applyAll (setting : Setting) (operations : List Operation) :
    UnaffectedStep f (applyAll setting operations) := by
  induction operations with
  | nil => exact .answer (.ok ())
  | cons operation operations ih => exact .bind (unaffected_apply hf setting operation) fun _ => ih

end

end Patch

end ScimDirectory
