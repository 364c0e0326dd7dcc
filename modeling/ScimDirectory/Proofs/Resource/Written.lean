import ScimDirectory.Directory.View
import ScimDirectory.Proofs.Attributes
import ScimDirectory.Proofs.Json.Reordered

/-!
# What a client writes of a resource

The members that a client writes of a resource are its attributes, those that it has, each with the
value that is written for what it is kept in. Every column of a row belongs to an attribute, so what
a resource has no member for is empty.
-/

namespace ScimDirectory

/-- The members of an object. -/
def Json.memberList : Json → Members
  | .object members => members
  | _ => []

namespace Resource

/-- A resource in JSON. -/
def toJson : {type : ResourceType} → Resource type → Json
  | .user, user => User.toJson user
  | .group, group => Group.toJson group

/-- The password, which is not shown. -/
def secrets : {type : ResourceType} → Resource type → Members
  | .user, user => Members.ofOption "password" .text (User.toProfile user).password
  | .group, _ => []

/-- The attributes that the server sets. -/
def serverKeys : List String := ["schemas", "id", "groups", "meta"]

/-- Whether a key is that of an attribute that a client sets. -/
def isClients (key : String) : Bool := !serverKeys.contains key

/-- The attributes of a resource that a client sets. -/
def clientMembers {type : ResourceType} (resource : Resource type) : Members :=
  (toJson resource).memberList.filter (fun member => isClients member.1) ++ secrets resource

/-- A resource with nothing but the name of another one. -/
def bare : {type : ResourceType} → Resource type → Resource type
  | .user, user => User.named (User.userName user)
  | .group, group => Group.named (Group.displayName group)

/-- A row with the singular attributes of a resource. -/
def content : {type : ResourceType} → Resource type → Row type
  | .user, user => User.toRow user (Uuid.numbered 0) "" (.ofSeconds 0) (.ofSeconds 0)
  | .group, group => Group.toRow group (Uuid.numbered 0) "" (.ofSeconds 0) (.ofSeconds 0)

end Resource

/-- The value of a scalar in JSON. -/
def Scalar.toJson : Scalar → Json
  | .text s => .text s
  | .bool b => .bool b

namespace Attribute

/-- What is written for a list: nothing when it is empty. -/
def writtenList {α : Type} (write : α → Json) (values : List α) : Option Json :=
  if values.isEmpty then none else some (.array (values.map write))

/-- What is written for a column: nothing when it has no value. -/
def writtenCell {type : ResourceType} (row : Row type) (column : Column) : Option Json :=
  (row.cell column).join.map Scalar.toJson

/-- The value that is written for an attribute of a resource, if it has one. -/
def written : {type : ResourceType} → Resource type → Attribute → Option Json
  | _, resource, single field => writtenCell (Resource.content resource) field.column
  | .user, user, name => (User.name user).map PersonName.toJson
  | .user, user, listed (.values c) => writtenList MultiValue.toJson (User.values user c)
  | .user, user, listed .addresses => writtenList Address.toJson (User.addresses user)
  | .group, group, listed .members => writtenList Member.toJson (Group.members group)
  | _, _, _ => none

end Attribute

open Members (present)

theorem written_textCell (x : Option String) :
    (textCell x).join.map Scalar.toJson = x.map .text := by
  cases x <;> rfl

theorem written_boolCell (x : Option Bool) :
    (boolCell x).join.map Scalar.toJson = x.map .bool := by
  cases x <;> rfl

theorem Scalar.eq_of_reordered {s : Scalar} {value : Json} (h : s.toJson.Reordered value) :
    value = s.toJson := by
  cases s <;> cases h <;> rfl

/-- What is written for a column is the scalar that it holds. -/
theorem Attribute.writtenCell_eq_some {type : ResourceType} {row : Row type} {column : Column}
    {json : Json} : writtenCell row column = some json ↔
      ∃ s : Scalar, row.cell column = some (some s) ∧ s.toJson = json := by
  simp only [writtenCell, Option.map_eq_some_iff, Option.join_eq_some_iff]

/-- The components of a name, written like columns. -/
def Attribute.nameParts (row : UserRow) : List (String × Option Json) :=
  components.map fun component => (component.1, @writtenCell .user row component.2.column)

theorem PersonName.toJson_eq (row : UserRow) :
    row.name.toJson = .object (present (Attribute.nameParts row)) := by
  simp only [toJson, Members.ofOption_eq_present, ← Members.present_append, List.cons_append,
    List.nil_append, Attribute.nameParts, Attribute.components, List.map_cons, List.map_nil,
    Attribute.writtenCell, Field.text, Row.cell, UserRow.cell, written_textCell]

/-- A component that is written is that of a column that holds something. -/
theorem Attribute.mem_nameParts {row : UserRow} {key : String} {json : Json} :
    (key, some json) ∈ nameParts row ↔ ∃ field, (key, field) ∈ components ∧
      ∃ s : Scalar, row.cell field.column = some (some s) ∧ s.toJson = json := by
  rw [nameParts, List.mem_map]
  constructor
  · rintro ⟨⟨_, field⟩, hmem, heq⟩
    obtain ⟨rfl, hwritten⟩ := Prod.mk.inj heq
    exact ⟨field, hmem, writtenCell_eq_some.mp hwritten⟩
  · rintro ⟨field, hmem, hcell⟩
    exact ⟨(key, field), hmem, Prod.ext rfl (writtenCell_eq_some.mpr hcell)⟩

namespace Resource

/-- What a client writes of a resource are its attributes, those that it has. -/
theorem clientMembers_eq {type : ResourceType} (resource : Resource type) :
    clientMembers resource =
      present ((Attribute.ofType type).map fun a => (a.key, a.written resource)) := by
  unfold clientMembers toJson secrets
  cases type with
  | user =>
    simp only [User.toJson, Json.memberList, Members.ofOption_eq_present,
      Members.ofList_eq_present, Members.cons_present, ← Members.present_append,
      Members.filter_present, Collection.all, List.flatMap_cons, List.flatMap_nil,
      List.cons_append, List.nil_append, List.append_nil]
    simp only [Attribute.ofType, Collection.all, List.map_cons, List.map_nil, List.cons_append,
      List.nil_append, Attribute.key, Attribute.written, Attribute.writtenCell,
      Attribute.writtenList, content, User.toRow, Row.cell, UserRow.cell, Field.text, Field.exact,
      Field.boolean, Field.hidden, written_textCell, written_boolCell]
    rfl
  | group =>
    simp only [Group.toJson, Json.memberList, Members.ofOption_eq_present,
      Members.ofList_eq_present, Members.cons_present, ← Members.present_append,
      Members.filter_present, List.cons_append, List.nil_append, List.append_nil]
    simp only [Attribute.ofType, List.map_cons, List.map_nil, Attribute.key, Attribute.written,
      Attribute.writtenCell, Attribute.writtenList, content, Group.toRow, Row.cell, GroupRow.cell,
      Field.text, Field.exact, written_textCell]
    rfl

variable {type : ResourceType}

/-- A resource with nothing but a name has in each column what the other one has, or nothing. -/
theorem cell_content_bare (resource : Resource type) (column : Column) :
    (content (bare resource)).cell column = (content resource).cell column ∨
      (content (bare resource)).cell column = some none := by
  cases type <;> cases column <;> first | exact .inl rfl | exact .inr rfl

end Resource

namespace Attribute

variable {type : ResourceType}

/-- Every column of a row belongs to an attribute. -/
theorem exists_of_cell {row : Row type} {column : Column} {content : Option Scalar}
    (h : row.cell column = some content) : ∃ a ∈ ofType type, column ∈ a.columns := by
  cases type <;> cases column <;> cases h <;> decide

/-- Attributes are kept in columns that the rows of their type have. -/
theorem exists_cell (row : Row type) {a : Attribute} (ha : a ∈ ofType type) {column : Column}
    (hcolumn : column ∈ a.columns) : ∃ content, row.cell column = some content := by
  have hlisted : ∀ a ∈ ofType type, ∀ column ∈ a.columns, column ∈ Column.ofType type := by
    cases type <;> decide
  have hcolumn := hlisted a ha column hcolumn
  cases type <;> cases column <;>
    first
    | exact ⟨_, rfl⟩
    | simp [Column.ofType, Column.ofUser, Column.ofGroup] at hcolumn

/-- The columns of an attribute that a resource does not have are empty. -/
theorem cell_of_not_written {resource : Resource type} {a : Attribute} (ha : a ∈ ofType type)
    (hnone : a.written resource = none) {column : Column} (hcolumn : column ∈ a.columns) :
    (Resource.content resource).cell column = some none := by
  cases a with
  | single field =>
    obtain rfl := List.mem_singleton.mp hcolumn
    obtain ⟨content, hcell⟩ := exists_cell (Resource.content resource) ha hcolumn
    have hempty : content.map Scalar.toJson = none := by
      simpa only [written, writtenCell, hcell, Option.join_some] using hnone
    rw [hcell, Option.map_eq_none_iff.mp hempty]
  | name =>
    cases type with
    | user =>
      have hname : User.name resource = none := Option.map_eq_none_iff.mp hnone
      have hempty : (Resource.content resource : UserRow).name = .empty := by
        rw [Resource.content, User.toRow, hname]
        rfl
      simp only [columns, fields, components, Field.text, List.map_cons, List.map_nil,
        List.mem_cons, List.not_mem_nil, or_false] at hcolumn
      rcases hcolumn with rfl | rfl | rfl | rfl | rfl | rfl <;>
        simp only [Row.cell, UserRow.cell, hempty] <;> rfl
    | group => exact absurd ha (by decide)
  | listed relation => cases hcolumn

end Attribute

end ScimDirectory
