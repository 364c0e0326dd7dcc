import ScimDirectory.Proofs.Patch.Additions
import ScimDirectory.Proofs.Patch.Moves
import ScimDirectory.Proofs.Patch.Plans

/-!
# Columns as lenses

Rows and items are read and written by column. What is written to a column is read back, the other
columns and what the server keeps of the row stay, and writing what is there changes nothing. The
columns that can be written are those that can be read. The attribute tables list columns of their
own table only, with the kind of their contents, so what a value is decoded to is always taken, but
for the name that a row must not lack. A write that fails leaves the row as it was and storage
alone.
-/

namespace ScimDirectory

/-- What reading and writing the rows of a table by column keep to. -/
structure ColumnLaws {ρ : Type} (table : String) (cell : ρ → Column → Option (Option Scalar))
    (assign : ρ → Column → Option Scalar → Except StoreError ρ) (Same : ρ → ρ → Prop) : Prop where
  /-- What is written to a column is read back. -/
  written : ∀ {row new column content}, assign row column content = .ok new →
    cell new column = some content
  /-- Writing a column leaves the others. -/
  others : ∀ {row new column content}, assign row column content = .ok new →
    ∀ other ≠ column, cell new other = cell row other
  /-- Writing a column leaves what the server keeps of the row. -/
  system : ∀ {row new column content}, assign row column content = .ok new → Same new row
  /-- Writing what a column holds changes nothing. -/
  idle : ∀ {row new column content}, assign row column content = .ok new →
    cell row column = some content → new = row
  /-- A column cannot be read exactly if writing it fails for want of the column. -/
  missing : ∀ row column content, cell row column = none ↔
    assign row column content = .error (.unknownColumn table column.name)

section

variable {table : String} {column : Column} {content : Option Scalar} {α : Type}

theorem textOf_ne_unknownColumn (set : Option String → α) (name : String) :
    (textOf table column content).map set ≠ .error (.unknownColumn table name) := by
  rcases content with _ | _ | _ <;> rintro ⟨⟩

theorem boolOf_ne_unknownColumn (set : Option Bool → α) (name : String) :
    (boolOf table column content).map set ≠ .error (.unknownColumn table name) := by
  rcases content with _ | _ | _ <;> rintro ⟨⟩

theorem requiredText_ne_unknownColumn (set : String → α) (name : String) :
    (requiredText table column content).map set ≠ .error (.unknownColumn table name) := by
  rcases content with _ | s | b
  · rintro ⟨⟩
  · rw [requiredText]
    split <;> rintro ⟨⟩
  · rintro ⟨⟩

end

namespace Row

variable {type : ResourceType}

/-- The columns of a row that can be read are those that can be written. -/
theorem cell_eq_none_iff (row : Row type) (column : Column) (content : Option Scalar) :
    row.cell column = none ↔
      row.assign column content = .error (.unknownColumn type.table column.name) := by
  rw [assign_eq]
  cases type <;> cases column <;>
    first
    | exact iff_of_true rfl rfl
    | exact iff_of_false (fun h => nomatch h) (textOf_ne_unknownColumn _ _)
    | exact iff_of_false (fun h => nomatch h) (boolOf_ne_unknownColumn _ _)
    | exact iff_of_false (fun h => nomatch h) (requiredText_ne_unknownColumn _ _)

/-- The columns of a row are lenses on all of it but its key, its version and its times. -/
theorem columnLaws (type : ResourceType) :
    ColumnLaws type.table (@cell type) assign SameSystem where
  written h := (cell_of_assign h _).trans (if_pos rfl)
  others h other hne := (cell_of_assign h other).trans (if_neg hne)
  system := sameSystem_of_assign
  idle {row new column content} h hthere := by
    refine eq_of_cells (funext fun other => ?_) (sameSystem_of_assign h)
    rw [cell_of_assign h other]
    split
    · next heq => rw [heq, hthere]
    · rfl
  missing := cell_eq_none_iff

/-- The column of the name that a row must not lack takes any text but the empty one, and nothing
else. -/
theorem exists_assign_name_iff (row : Row type) (content : Option Scalar) :
    (∃ new : Row type, row.assign (nameColumn type) content = .ok new) ↔
      ∃ s, content = some (.text s) ∧ s ≠ "" := by
  constructor
  · rintro ⟨new, hassign⟩
    have hname := requiredName_of_assign hassign
    rw [if_pos rfl] at hname
    exact ⟨new.requiredName, hname⟩
  · rintro ⟨s, rfl, hne⟩
    rw [assign_eq]
    cases type with
    | user =>
      exact ⟨_, congrArg (Except.map _) (requiredText_of_ne "users" .userName hne)⟩
    | group =>
      exact ⟨_, congrArg (Except.map _) (requiredText_of_ne "groups" .displayName hne)⟩

end Row

namespace ItemRow

/-- An item is what is in its columns and its keys. -/
theorem eq_of_cells {a b : ItemRow} (hcell : a.cell = b.cell) (hid : a.id = b.id)
    (howner : a.owner = b.owner) : a = b := by
  obtain ⟨⟩ := a
  obtain ⟨⟩ := b
  exact mk.injEq .. ▸ ⟨hid, howner, textCell_inj (congrFun hcell .value),
    textCell_inj (congrFun hcell .display), textCell_inj (congrFun hcell .type),
    boolCell_inj (congrFun hcell .primary), textCell_inj (congrFun hcell .ref),
    textCell_inj (congrFun hcell .formatted), textCell_inj (congrFun hcell .streetAddress),
    textCell_inj (congrFun hcell .locality), textCell_inj (congrFun hcell .region),
    textCell_inj (congrFun hcell .postalCode), textCell_inj (congrFun hcell .country)⟩

/-- The columns of an item that can be read are those that can be written. -/
theorem cell_eq_none_iff (item : ItemRow) (column : Column) (content : Option Scalar) :
    item.cell column = none ↔
      item.assign column content = .error (.unknownColumn "items" column.name) := by
  rw [assign_eq]
  cases column <;>
    first
    | exact iff_of_true rfl rfl
    | exact iff_of_false (fun h => nomatch h) (textOf_ne_unknownColumn _ _)
    | exact iff_of_false (fun h => nomatch h) (boolOf_ne_unknownColumn _ _)

/-- The columns of an item are lenses on all of it but its key and its owner. -/
theorem columnLaws : ColumnLaws "items" cell assign
    fun new item => new.id = item.id ∧ new.owner = item.owner where
  written h := (cell_of_assign h _).trans (if_pos rfl)
  others h other hne := (cell_of_assign h other).trans (if_neg hne)
  system := keys_of_assign
  idle {item new column content} h hthere := by
    obtain ⟨hid, howner⟩ := keys_of_assign h
    refine eq_of_cells (funext fun other => ?_) hid howner
    rw [cell_of_assign h other]
    split
    · next heq => rw [heq, hthere]
    · rfl
  missing := cell_eq_none_iff

/-- A column of an item takes nothing, and what is of its kind. -/
theorem exists_assign {column : Column} (hlisted : column ∈ Column.ofItem)
    {content : Option Scalar}
    (hkind : ∀ s, content = some s → ((∃ b, s = .bool b) ↔ column = .primary)) (item : ItemRow) :
    ∃ new, item.assign column content = .ok new := by
  rcases content with _ | s | b
  · cases column <;> first | exact ⟨_, rfl⟩ | simp [Column.ofItem] at hlisted
  · have hne : column ≠ .primary := by
      intro hprimary
      obtain ⟨b, hb⟩ := (hkind _ rfl).mpr hprimary
      cases hb
    cases column <;>
      first
      | exact ⟨_, rfl⟩
      | exact absurd rfl hne
      | simp [Column.ofItem] at hlisted
  · obtain rfl : column = .primary := (hkind _ rfl).mp ⟨b, rfl⟩
    exact ⟨_, rfl⟩

end ItemRow

namespace StaysOnFailure

variable {ε S α β : Type}

/-- A run that changes nothing may go on with one that stays where it is when it fails. -/
theorem bind {a : ExceptT ε (StateM S) α} {f : α → ExceptT ε (StateM S) β} (ha : Leads Eq a)
    (hf : ∀ x, StaysOnFailure (f x)) : StaysOnFailure (a >>= f) := by
  intro s error s' h
  have hfirst := ha s
  rcases hrun : a.run s with ⟨e | x, middle⟩
  · rw [hrun] at hfirst
    rw [run_bind_of_error hrun] at h
    exact (congrArg Prod.snd h).symm.trans hfirst.symm
  · rw [hrun] at hfirst
    rw [run_bind_of_ok hrun] at h
    exact (hf x h).trans hfirst.symm

/-- What a run answers may be wrapped. -/
theorem map {a : ExceptT ε (StateM S) α} (ha : StaysOnFailure a) (f : α → β) :
    StaysOnFailure (a >>= fun x => pure (f x)) := by
  intro s error s' h
  rw [run_bind_pure] at h
  obtain ⟨hanswer, hafter⟩ := Prod.mk.inj h
  exact ha (Prod.ext (except_map_eq_error.mp hanswer) hafter)

end StaysOnFailure

namespace Patch

/-- Writing one column leaves the row at hand and storage alone when it fails. -/
theorem assignField_staysOnFailure {type : ResourceType} (field : Field)
    (content : Option Scalar) :
    StaysOnFailure (assignField field content : Step Tables type Unit) :=
  (Row.write_staysOnFailure field.column content).of_part (.mk Prod.snd fun s row => (s.1, row)) _
    fun _ => rfl

/-- Setting a sub-attribute of an item leaves storage alone when it fails. -/
theorem setItemField_staysOnFailure (owner : Uuid) (relation : Relation) (filter : Predicate)
    (field : Field) (value : Json) :
    StaysOnFailure (setItemField owner relation filter field value : Action Tables Unit) := by
  refine .bind (fun w => ?_) fun _ => .bind (.answer _) fun _ => .bind (.answer _) fun item =>
    .bind (.answer _) fun _ => ?_
  · rw [run_onlyItem]
  · have hwrite : StaysOnFailure (do
        let _ ← Action.call (Storage.updateItem relation item) : Action Tables Unit) :=
      .map (.call (StoreCall.updateItem relation item).call_staysOnFailure) _
    split
    · exact .bind (fun w => rfl) fun _ => .bind (.answer _) fun _ => hwrite
    · exact hwrite

/-- The field of the name that a row must not lack. -/
def requiredField : ResourceType → Field
  | .user => .text "userName" .userName
  | .group => .text "displayName" .displayName

/-- The required name is cleared by `null` and by the empty text; any other value that it admits is
a text. -/
theorem scalar_requiredField {type : ResourceType} {value : Json} {content : Option Scalar}
    (h : scalar (requiredField type) value = .ok content) :
    (∃ s, content = some (.text s) ∧ s ≠ "") ↔ ¬(value = .null ∨ value = .text "") := by
  have hmatching : (requiredField type).matching = .ignoringCase := by cases type <;> rfl
  unfold scalar at h
  rw [hmatching] at h
  cases value with
  | null =>
    cases h
    simp
  | text s =>
    cases h
    simp
  | bool | integer | real | array | object => cases h

/-- What a value is decoded to for a field of a resource is taken by its column, but for an empty
required name. -/
theorem exists_assign_iff {type : ResourceType} {field : Field}
    (hlisted : field ∈ (AttributeTable.ofType type).fields) {value : Json}
    {content : Option Scalar} (hcontent : scalar field value = .ok content) (row : Row type) :
    (∃ new : Row type, row.assign field.column content = .ok new) ↔
      ¬(field = requiredField type ∧ (value = .null ∨ value = .text "")) := by
  have hname : ∀ field ∈ (AttributeTable.ofType type).fields,
      field.column = Row.nameColumn type → field = requiredField type := by
    cases type <;> decide
  by_cases hrequired : field = requiredField type
  · subst hrequired
    have hcolumn : (requiredField type).column = Row.nameColumn type := by cases type <;> rfl
    rw [hcolumn, Row.exists_assign_name_iff, scalar_requiredField hcontent]
    simp only [true_and]
  · have hoptional : field.column ≠ Row.nameColumn type :=
      fun hcolumn => hrequired (hname field hlisted hcolumn)
    have hfitting : Fitting type (field, content) := ⟨hlisted, hoptional, value, hcontent⟩
    exact iff_of_true (hfitting.exists_assign row) fun h => hrequired h.1

/-- What a value is decoded to for a field of an item is taken by its column. -/
theorem exists_assign_item {relation : Relation} {field : Field}
    (hlisted : field ∈ (AttributeTable.ofItems relation).fields) {value : Json}
    {content : Option Scalar} (hcontent : scalar field value = .ok content) (item : ItemRow) :
    ∃ new, item.assign field.column content = .ok new := by
  have hcolumns : ∀ field ∈ (AttributeTable.ofItems relation).fields,
      field.column ∈ Column.ofItem ∧ (field.matching = .boolean ↔ field.column = .primary) := by
    cases relation <;> dsimp only [AttributeTable.ofItems] <;> decide
  obtain ⟨hcolumn, hprimary⟩ := hcolumns field hlisted
  refine item.exists_assign hcolumn fun s hs => ?_
  rw [hs] at hcontent
  exact (kind_of_scalar hcontent).trans hprimary

end Patch

/-- The columns of users, groups and items are lenses, on all of a row but what the server keeps of
it: what is written to a column is read back and all else stays, and writing fails for want of a
column exactly where reading does. A row is written in place, and one that does not take a content
is left as it was. A step that writes a column of the row at hand, or one of a selected item,
changes nothing either when it fails. For a field that an attribute table lists, whatever a value is
decoded to is taken; only the required name of a resource takes neither `null` nor the empty
text. -/
theorem columns_are_lenses (type : ResourceType) (relation : Relation) :
    (ColumnLaws type.table (@Row.cell type) Row.assign Row.SameSystem ∧
      ColumnLaws "items" ItemRow.cell ItemRow.assign
        fun new item => new.id = item.id ∧ new.owner = item.owner) ∧
    ((∀ column content, StaysOnFailure (Row.write column content : Call (Row type) Unit)) ∧
      ∀ column content, StaysOnFailure (ItemRow.write column content)) ∧
    ((∀ field content,
        StaysOnFailure (Patch.assignField field content : Patch.Step Tables type Unit)) ∧
      ∀ owner filter field value,
        StaysOnFailure
          (Patch.setItemField owner relation filter field value : Action Tables Unit)) ∧
    (∀ field ∈ (AttributeTable.ofType type).fields, ∀ value content,
      Patch.scalar field value = .ok content → ∀ row : Row type,
        (∃ new : Row type, row.assign field.column content = .ok new) ↔
          ¬(field = Patch.requiredField type ∧ (value = .null ∨ value = .text ""))) ∧
    ∀ field ∈ (AttributeTable.ofItems relation).fields, ∀ value content,
      Patch.scalar field value = .ok content → ∀ item : ItemRow,
        ∃ new, item.assign field.column content = .ok new :=
  ⟨⟨Row.columnLaws type, ItemRow.columnLaws⟩,
    ⟨Row.write_staysOnFailure, ItemRow.write_staysOnFailure⟩,
    ⟨Patch.assignField_staysOnFailure,
      fun owner => Patch.setItemField_staysOnFailure owner relation⟩,
    fun _ hlisted _ _ hcontent => Patch.exists_assign_iff hlisted hcontent,
    fun _ hlisted _ _ hcontent => Patch.exists_assign_item hlisted hcontent⟩

/-- A user gives up a nickname and keeps the name and the key, but does not take an empty name. -/
theorem columns_are_lenses_of_bob :
    let bob : Row .user := UserRow.named (.numbered 1) "bob" (.ofSeconds 0)
    (∃ new : Row .user, bob.assign .nickName none = .ok new ∧ new.cell .nickName = some none ∧
      new.cell .userName = some (some (.text "bob")) ∧ new.id = .numbered 1) ∧
    ¬∃ new : Row .user, bob.assign .userName (some (.text "")) = .ok new := by
  intro bob
  obtain ⟨⟨hlaws, -⟩, -, -, hfields, -⟩ := columns_are_lenses .user (.values .emails)
  obtain ⟨new, hnew⟩ :=
    (hfields (.text "nickName" .nickName) (by decide) .null none rfl bob).mpr fun hrequired =>
      absurd hrequired.1 (by decide)
  refine ⟨⟨new, hnew, hlaws.written hnew, hlaws.others hnew .userName (by decide),
    (hlaws.system hnew).1⟩, fun htaken => ?_⟩
  exact (hfields (.text "userName" .userName) (by decide) (.text "") (some (.text "")) rfl bob).mp
    htaken ⟨rfl, .inr rfl⟩

end ScimDirectory
