import ScimDirectory.Proofs.Directory.RequiredNames
import ScimDirectory.Proofs.Patch.Written
import ScimDirectory.Proofs.Store.IdleCalls

/-!
# What an operation does with its value

Whatever value an operation applies at a target, and of whatever kind it is, one of four things is
done: the value is refused, one column is written, the columns of a complex attribute are written,
or items of the resource at hand are. The columns of a complex attribute are columns that a row may
lack, and what is written to them is always of their kind, so that no row refuses it. Items are
written without touching a row. Each of the four keeps tables well formed, and so does every
operation.
-/

namespace ScimDirectory

section

variable {ε S α β : Type} {R : S → S → Prop}

/-- Every run ends in a state to which the one that it starts in is related, whatever it answers. -/
def Leads (R : S → S → Prop) (a : ExceptT ε (StateM S) α) : Prop := ∀ s, R s (a.run s).2

namespace Leads

theorem answer [Std.Refl R] (x : Except ε α) :
    Leads R (fun s => (x, s) : ExceptT ε (StateM S) α) :=
  fun s => Std.Refl.refl s

theorem bind [IsTrans S R] {a : ExceptT ε (StateM S) α} {f : α → ExceptT ε (StateM S) β}
    (ha : Leads R a) (hf : ∀ x, Leads R (f x)) : Leads R (a >>= f) := by
  intro s
  have hfirst := ha s
  rcases hrun : a.run s with ⟨error | x, middle⟩
  · rw [run_bind_of_error hrun]
    rwa [hrun] at hfirst
  · rw [run_bind_of_ok hrun]
    rw [hrun] at hfirst
    exact trans_of R hfirst (hf x middle)

end Leads

end

namespace Tables

/-- A change of tables that leaves the rows as they are, and well-formed tables well formed. -/
structure SparesRows (before after : Tables) : Prop where
  /-- The rows. -/
  rows : ∀ type, after.rows type = before.rows type
  /-- The integrity of rows and items. -/
  wellFormed : before.WellFormed → after.WellFormed

namespace SparesRows

variable {a b c : Tables}

theorem refl (tables : Tables) : tables.SparesRows tables := ⟨fun _ => rfl, id⟩

theorem trans (h : a.SparesRows b) (h' : b.SparesRows c) : a.SparesRows c :=
  ⟨fun type => (h'.rows type).trans (h.rows type), h'.wellFormed ∘ h.wellFormed⟩

theorem find?_eq (h : a.SparesRows b) (type : ResourceType) (id : Uuid) :
    b.find? type id = a.find? type id := by
  rw [find?, h.rows, find?]

theorem insertItem {relation : Relation} {item stored : ItemRow}
    (hwrite : a.insertItem relation item = .ok (stored, b)) : a.SparesRows b := by
  refine ⟨fun type => ?_, fun h => h.insertItem hwrite⟩
  obtain ⟨-, -, -, rfl⟩ := insertItem_eq_ok hwrite
  obtain ⟨lists, heq⟩ := a.withList_eq relation
  rw [heq]
  exact rows_mk_items ..

theorem updateItem {relation : Relation} {item stored : ItemRow}
    (hwrite : a.updateItem relation item = .ok (stored, b)) : a.SparesRows b := by
  refine ⟨fun type => ?_, fun h => h.updateItem hwrite⟩
  obtain ⟨-, -, rfl⟩ := updateItem_eq_ok hwrite
  exact rows_mk_items ..

theorem deleteWhere (tables : Tables) (relation : Relation) (test : ItemRow → Bool) :
    tables.SparesRows (tables.deleteWhere relation test).2 :=
  ⟨fun _ => rows_mk_items .., fun h => h.deleteWhere relation test⟩

end SparesRows

end Tables

namespace World

/-- A change that spares the stored rows. -/
def SparesRows (before after : World Tables) : Prop := before.store.SparesRows after.store

instance : Std.Refl SparesRows := ⟨fun w => .refl w.store⟩

instance : IsTrans (World Tables) SparesRows := ⟨fun _ _ _ => Tables.SparesRows.trans⟩

end World

namespace Patch

variable {type : ResourceType} {α : Type}

/-- An action that spares the rows. -/
abbrev OnItems (a : Action Tables α) : Prop := Leads World.SparesRows a

section

variable {relation : Relation} {owner : Uuid}

theorem onItems_writing {c : Call Tables α} {write : Tables → Except StoreError (α × Tables)}
    (hcall : c = .writing write)
    (h : ∀ {tables after x}, write tables = .ok (x, after) → tables.SparesRows after) :
    OnItems (Action.call c) := by
  intro w
  rw [Action.run_writing hcall]
  cases hwrite : write w.store with
  | error e => exact .refl _
  | ok written => exact h hwrite

theorem onItems_queryItems (predicate : Option Predicate) :
    OnItems (Action.call (Storage.queryItems relation owner predicate)) :=
  fun w => .refl w.store

theorem onItems_onlyItem (filter : Predicate) :
    OnItems ((Action.call (Storage.onlyItem relation owner filter)).adapt notOne) := by
  intro w
  have hstore : (((Action.call (Storage.onlyItem relation owner filter)).adapt notOne).run
      w).2.store = w.store := Storage.run_onlyItem relation owner filter w.store
  rw [World.SparesRows, hstore]
  exact .refl w.store

theorem onItems_draw : OnItems Action.draw := fun w => .refl w.store

theorem onItems_deleteAllItems :
    OnItems (Action.call (Storage.deleteAllItems relation owner)) := by
  rw [Tables.call_deleteAllItems]
  exact fun w => Tables.SparesRows.deleteWhere w.store relation fun item => item.owner = owner

theorem onItems_deleteItems (ids : List ItemId) :
    OnItems (Action.call (Storage.deleteItems relation ids)) := by
  rw [Tables.call_deleteItems]
  exact fun w => Tables.SparesRows.deleteWhere w.store relation fun item => ids.contains item.id

theorem onItems_updateItem (item : ItemRow) :
    OnItems (Action.call (Storage.updateItem relation item)) :=
  onItems_writing (Tables.call_updateItem relation item) .updateItem

theorem onItems_insertItems (items : List ItemRow) : OnItems (insertItems relation items) := by
  induction items with
  | nil => exact .answer (.ok ())
  | cons item items ih =>
    exact .bind (onItems_writing (Tables.call_insertItem relation item) .insertItem) fun _ => ih

theorem onItems_updateItems (items : List ItemRow) : OnItems (updateItems relation items) := by
  induction items with
  | nil => exact .answer (.ok ())
  | cons item items ih => exact .bind (onItems_updateItem item) fun _ => ih

theorem onItems_addItems (root : ServiceRoot) (value : Json) :
    OnItems (addItems root owner relation value) :=
  .bind (onItems_queryItems none) fun _ => .bind onItems_draw fun _ => .bind (.answer _) fun _ =>
    .bind (.answer _) fun _ => onItems_insertItems _

theorem onItems_replaceItems (root : ServiceRoot) (value : Json) :
    OnItems (replaceItems root owner relation value) := by
  refine .bind onItems_draw fun _ => ?_
  have hwrite : ∀ items, OnItems (do
      Action.check .violation (checkPrimary relation items)
      let _ ← Action.call (Storage.deleteAllItems relation owner)
      insertItems relation items) := fun items =>
    .bind (.answer _) fun _ => .bind onItems_deleteAllItems fun _ => onItems_insertItems items
  split
  · exact .bind (.answer _) fun _ => hwrite _
  · exact .bind (.answer _) fun _ => hwrite _

theorem onItems_removeItems (filter : Predicate) : OnItems (removeItems owner relation filter) :=
  .bind (onItems_queryItems _) fun _ => .bind (onItems_deleteItems _) fun _ => .answer _

theorem onItems_setItemField (filter : Predicate) (field : Field) (value : Json) :
    OnItems (setItemField owner relation filter field value) := by
  refine .bind (onItems_onlyItem filter) fun _ => .bind (.answer _) fun _ =>
    .bind (.answer _) fun item => .bind (.answer _) fun _ => ?_
  have hwrite : OnItems (do let _ ← Action.call (Storage.updateItem relation item)) :=
    .bind (onItems_updateItem item) fun _ => .answer _
  split
  · exact .bind (onItems_queryItems none) fun _ => .bind (.answer _) fun _ => hwrite
  · exact hwrite

theorem onItems_mergeItems (filter : Predicate) (value : Json) :
    OnItems (mergeItems owner relation filter value) := by
  unfold mergeItems
  split
  · refine .bind (onItems_queryItems none) fun all => .bind (onItems_queryItems _)
      fun selected => ?_
    have hwrite : ∀ members, OnItems (do
        let updates ← Action.check .patch (itemUpdates relation members)
        let changed ← Action.ensure (changedItems relation updates selected)
        let others := all.filter fun item => !changed.any (·.id = item.id)
        Action.check .violation (checkPrimary relation (others ++ changed))
        updateItems relation changed) := fun members =>
      .bind (.answer _) fun _ => .bind (.answer _) fun _ => .bind (.answer _) fun _ =>
        onItems_updateItems _
    split
    · exact .bind (.answer _) fun _ => hwrite _
    · exact hwrite _
  · exact .answer _

end

/-- The content that a value stands for is of the kind that the field holds. -/
theorem kind_of_scalar {field : Field} {value : Json} {content : Scalar}
    (h : scalar field value = .ok (some content)) :
    (∃ b, content = .bool b) ↔ field.matching = .boolean := by
  unfold scalar at h
  split at h
  · cases h
  · next hmatching =>
    cases h
    simp [hmatching]
  · next hmatching =>
    split at h <;> cases h
    simp [hmatching]
  · next hmatching =>
    cases h
    simp [hmatching]
  · next hmatching =>
    cases h
    simp [hmatching]
  · cases h

/-- An update by what a value stands for, of a column that a row may lack. -/
structure Fitting (type : ResourceType) (update : Field × Option Scalar) : Prop where
  /-- The field is one of the type's. -/
  listed : update.1 ∈ (AttributeTable.ofType type).fields
  /-- Its column is not that of the name that a row must not lack. -/
  optional : update.1.column ≠ Row.nameColumn type
  /-- The content is what a value stands for. -/
  content : ∃ value, scalar update.1 value = .ok update.2

/-- A column that a row may lack takes nothing, and what is of its kind. -/
theorem exists_assign {column : Column} (hlisted : column ∈ Column.ofType type)
    (hname : column ≠ Row.nameColumn type) {content : Option Scalar}
    (hkind : ∀ s, content = some s → ((∃ b, s = .bool b) ↔ column = .active)) (row : Row type) :
    ∃ new : Row type, row.assign column content = .ok new := by
  rcases content with _ | s | b
  · cases type <;> cases column <;>
      first
      | exact ⟨_, rfl⟩
      | exact absurd rfl hname
      | simp [Column.ofType, Column.ofUser, Column.ofGroup] at hlisted
  · have hne : column ≠ .active := by
      intro hactive
      obtain ⟨b, hb⟩ := (hkind _ rfl).mpr hactive
      cases hb
    cases type <;> cases column <;>
      first
      | exact ⟨_, rfl⟩
      | exact absurd rfl hname
      | exact absurd rfl hne
      | simp [Column.ofType, Column.ofUser, Column.ofGroup] at hlisted
  · obtain rfl : column = .active := (hkind _ rfl).mp ⟨b, rfl⟩
    cases type with
    | user => exact ⟨_, rfl⟩
    | group => exact absurd hlisted (by decide)

/-- Every row takes a fitting update. -/
theorem Fitting.exists_assign {update : Field × Option Scalar} (h : Fitting type update)
    (row : Row type) : ∃ new : Row type, row.assign update.1.column update.2 = .ok new := by
  have hcolumns : ∀ field ∈ (AttributeTable.ofType type).fields,
      field.column ∈ Column.ofType type ∧ (field.matching = .boolean ↔ field.column = .active) := by
    cases type <;> decide
  obtain ⟨hlisted, hactive⟩ := hcolumns update.1 h.listed
  obtain ⟨value, hcontent⟩ := h.content
  refine Patch.exists_assign hlisted h.optional (fun s hs => ?_) row
  rw [hs] at hcontent
  exact (kind_of_scalar hcontent).trans hactive

/-- Every row takes fitting updates. -/
theorem exists_assigned {updates : Updates} (h : ∀ update ∈ updates, Fitting type update)
    (row : Row type) : ∃ new : Row type, assigned row updates = .ok new := by
  induction updates generalizing row with
  | nil => exact ⟨row, rfl⟩
  | cons update updates ih =>
    obtain ⟨hfirst, hrest⟩ := List.forall_mem_cons.mp h
    obtain ⟨middle, hassign⟩ := hfirst.exists_assign row
    obtain ⟨new, hassigned⟩ := ih hrest middle
    refine ⟨new, ?_⟩
    rw [assigned, hassign]
    exact hassigned

/-- What an object says of a complex attribute fits its columns. -/
theorem fitting_of_complexUpdates {parent : String} {value : Json} {updates : Updates}
    (h : complexUpdates type parent value = .ok updates) :
    ∀ update ∈ updates, Fitting type update := by
  intro update hmem
  have hoptional := column_ne_of_complexUpdates h update hmem
  unfold complexUpdates at h
  split at h
  · obtain ⟨member, -, hupdate⟩ := exists_left_of_forall₂ (mapM_eq_ok_iff.mp h) hmem
    dsimp only [memberUpdate] at hupdate
    split at hupdate
    · cases hupdate
    · next hfield =>
      obtain ⟨_, hcontent, rfl⟩ := except_map_eq_ok.mp hupdate
      exact ⟨AttributeTable.mem_fields_of_mem_entries (AttributeTable.mem_entries_of_field hfield),
        hoptional, _, hcontent⟩
  · cases h

/-- Nothing fits the columns of a complex attribute. -/
theorem fitting_of_complexFields {parent : String} :
    ∀ update ∈ (complexFields type parent).map fun field => (field, none),
      Fitting type update := by
  refine List.forall_mem_map.mpr fun field hmem => ?_
  exact ⟨(List.mem_filter.mp hmem).1, column_ne_of_complexFields field hmem, .null, rfl⟩

/-- What the applying of a value at a target comes to. -/
inductive Move (kind : OperationKind) (target : Target) (value : Json) :
    Step Tables type Unit → Prop where
  /-- It is refused. -/
  | refused (error : DirectoryError) : Move kind target value (throw error)
  /-- One column is written. -/
  | column {field : Field} {content : Option Scalar} (htarget : target = .field field)
      (hcontent : fieldContent kind field value = .ok content) :
      Move kind target value (setFields [(field, content)])
  /-- Columns are written that a row may lack. -/
  | columns {updates : Updates} (hfitting : ∀ update ∈ updates, Fitting type update) :
      Move kind target value (setFields updates)
  /-- Items of the resource at hand are written. -/
  | items {a : Uuid → Action Tables Unit} (ha : ∀ owner, OnItems (a owner)) :
      Move kind target value (owner >>= fun id => Step.lift (a id))

variable {target : Target} {value : Json} {setting : Setting}

/-- A check that is not passed refuses the value. -/
theorem Move.check {kind : OperationKind} {ε β : Type} {wrap : ε → DirectoryError}
    {answer : Except ε β} {f : β → Step Tables type Unit}
    (h : ∀ x, answer = .ok x → Move kind target value (f x)) :
    Move kind target value (Step.check wrap answer >>= f) := by
  cases answer with
  | error e => exact .refused (wrap e)
  | ok x => exact h x rfl

theorem addTo_move :
    Move .add target value (addTo setting target value : Step Tables type Unit) := by
  unfold addTo
  split
  · exact .refused _
  · cases target with
    | field field => exact .check fun content hcontent => .column rfl hcontent
    | complex parent =>
      exact .check fun updates hupdates => .columns (fitting_of_complexUpdates hupdates)
    | items relation filter sub =>
      rcases filter with _ | filter <;> rcases sub with _ | sub
      · exact .items fun owner => onItems_addItems setting.root value
      · exact .refused _
      · exact .refused _
      · exact .items fun owner => onItems_setItemField filter sub value

theorem removeAt_move : Move .remove target value (removeAt target : Step Tables type Unit) := by
  unfold removeAt
  cases target with
  | field field => exact .column rfl rfl
  | complex parent => exact .columns fitting_of_complexFields
  | items relation filter sub =>
    rcases filter with _ | filter <;> rcases sub with _ | sub
    · simp only [lift_bind_pure]
      exact .items fun owner => .bind onItems_deleteAllItems fun _ => .answer _
    · exact .refused _
    · exact .items fun owner => onItems_removeItems filter
    · exact .refused _

theorem replaceAt_move :
    Move .replace target value (replaceAt setting target value : Step Tables type Unit) := by
  unfold replaceAt
  cases target with
  | field field => exact .check fun content hcontent => .column rfl hcontent
  | complex parent =>
    by_cases hnull : value.isNull = true
    · simp only [hnull, if_true]
      exact .columns fitting_of_complexFields
    · -- Replacing a complex attribute clears its columns but for those that the object has.
      simp only [hnull]
      refine .check fun updates hupdates => .columns fun update hmem => ?_
      rcases mem_overwrite hmem with hmem | ⟨hmem, -⟩
      · exact fitting_of_complexUpdates hupdates update hmem
      · exact fitting_of_complexFields update hmem
  | items relation filter sub =>
    rcases filter with _ | filter <;> rcases sub with _ | sub
    · exact .items fun owner => onItems_replaceItems setting.root value
    · exact .refused _
    · exact .items fun owner => onItems_mergeItems filter value
    · exact .items fun owner => onItems_setItemField filter sub value

/-- Whatever is done with a value at a target comes to a move. -/
theorem applyOf_move (kind : OperationKind) :
    Move kind target value (applyOf setting kind target value : Step Tables type Unit) := by
  cases kind with
  | add => exact addTo_move
  | remove => exact removeAt_move
  | replace => exact replaceAt_move

/-- One column is written to the row at hand, and then the row to storage. -/
theorem setField_run (field : Field) (content : Option Scalar) (w : World Tables)
    (row : Row type) :
    (setFields [(field, content)]).run (w, row) =
      match row.assign field.column content with
      | .error error => (.error (.patch (.invalidValue field.name error.message)), w, row)
      | .ok new =>
        match w.store.update new with
        | .error error => (.error (.storage error), w, new)
        | .ok (stored, store) => (.ok (), { w with store }, stored) := by
  have hfirst := assignField_run field content w row
  cases hassign : row.assign field.column content with
  | error error =>
    rw [hassign] at hfirst
    exact run_bind_of_error (run_bind_of_error hfirst _) _
  | ok new =>
    rw [hassign] at hfirst
    exact (run_bind_of_ok (run_bind_of_ok hfirst _) _).trans (writeRow_run w new)

/-- A step that leaves well-formed tables well formed, whatever row is at hand. -/
def KeepsWellFormed (before after : World Tables × Row type) : Prop :=
  before.1.store.WellFormed → after.1.store.WellFormed

instance : Std.Refl (@KeepsWellFormed type) := ⟨fun _ => id⟩

instance : IsTrans (World Tables × Row type) KeepsWellFormed := ⟨fun _ _ _ h h' => h' ∘ h⟩

theorem setFields_keepsWellFormed (updates : Updates) :
    Leads KeepsWellFormed (setFields updates : Step Tables type Unit) := by
  intro (w, row) hwell
  obtain ⟨_, -, hrun⟩ := setFields_run updates w row
  rw [hrun]
  cases assigned row updates with
  | error e => exact hwell
  | ok new =>
    dsimp only
    cases hwrite : w.store.update new with
    | error e => exact hwell
    | ok written => exact hwell.update hwrite

variable {kind : OperationKind}

/-- Every move keeps tables well formed. -/
theorem Move.keepsWellFormed {step : Step Tables type Unit} (h : Move kind target value step) :
    Leads KeepsWellFormed step := by
  cases h with
  | refused error => exact .answer (.error error)
  | column => exact setFields_keepsWellFormed _
  | columns => exact setFields_keepsWellFormed _
  | items ha => exact fun s hwell => (ha s.2.id s.1).wellFormed hwell

theorem carryOut_keepsWellFormed (setting : Setting) (asked : Instruction) :
    Leads KeepsWellFormed (carryOut setting asked : Step Tables type Unit) :=
  .bind (.answer _) fun _ => (applyOf_move asked.kind).keepsWellFormed

theorem carryOutAll_keepsWellFormed (setting : Setting) (instructions : List Instruction) :
    Leads KeepsWellFormed (carryOutAll setting instructions : Step Tables type Unit) := by
  induction instructions with
  | nil => exact .answer (.ok ())
  | cons asked others ih => exact .bind (carryOut_keepsWellFormed setting asked) fun _ => ih

/-- Every operation keeps tables well formed. -/
theorem apply_keepsWellFormed (setting : Setting) (operation : Operation) :
    Leads KeepsWellFormed (apply setting operation : Step Tables type Unit) := by
  rcases @apply_eq type Tables _ setting operation with heq | ⟨error, heq⟩
  · rw [heq]
    exact carryOutAll_keepsWellFormed setting _
  · rw [heq]
    exact .answer (.error error)

end Patch

end ScimDirectory
