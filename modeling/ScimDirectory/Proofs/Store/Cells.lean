import ScimDirectory.Directory.View
import ScimDirectory.Proofs.Store.Calls

/-!
# What columns tell

A column is written in place, and a write that fails leaves the row as it was, since nothing is set
before the content is known to fit. So a write comes to the row that it makes or to its error.

The columns of a row hold all of it but its key, its version and its times, and the columns of an
item all but its key and its owner. So a row that takes column after column from another one ends
with the same content.
-/

namespace ScimDirectory

theorem textCell_inj {x y : Option String} (h : textCell x = textCell y) : x = y :=
  Option.map_injective (fun _ _ => Scalar.text.inj) (Option.some.inj h)

theorem boolCell_inj {x y : Option Bool} (h : boolCell x = boolCell y) : x = y :=
  Option.map_injective (fun _ _ => Scalar.bool.inj) (Option.some.inj h)

/-- The new content of a column of texts. -/
def textOf (table : String) (column : Column) :
    Option Scalar → Except StoreError (Option String)
  | none => .ok none
  | some (.text s) => .ok (some s)
  | some (.bool _) =>
    .error (.invalidData (table ++ "." ++ column.name ++ " holds text, got a boolean"))

/-- The new content of a column of truth values. -/
def boolOf (table : String) (column : Column) :
    Option Scalar → Except StoreError (Option Bool)
  | none => .ok none
  | some (.bool b) => .ok (some b)
  | some (.text _) =>
    .error (.invalidData (table ++ "." ++ column.name ++ " holds a boolean, got text"))

/-- The new content of a column that must hold a text with at least one character. -/
def requiredText (table : String) (column : Column) : Option Scalar → Except StoreError String
  | some (.text s) =>
    if s = "" then .error (.invalidData (table ++ "." ++ column.name ++ " must be non-empty text"))
    else .ok s
  | _ => .error (.invalidData (table ++ "." ++ column.name ++ " must be non-empty text"))

section

variable {ρ κ : Type} (table : String) (column : Column) (value : Option Scalar)

/-- What comes of a write of a part comes of the part. -/
theorem outcome_call (slot : Slot ρ κ) (write : Call κ Unit) (row : ρ) :
    (slot.call write).outcome row = (write.outcome (slot.get row)).map (slot.put row) := by
  have hrun : (slot.call write).run row = ((write.run (slot.get row)).1,
      slot.put row (write.run (slot.get row)).2) := rfl
  unfold Call.outcome
  rw [hrun]
  rcases write.run (slot.get row) with ⟨error | ⟨⟩, part⟩ <;> rfl

theorem outcome_setText (part : Option String) :
    (setText table column value).outcome part = textOf table column value := by
  rcases value with _ | _ | _ <;> rfl

theorem outcome_setBool (part : Option Bool) :
    (setBool table column value).outcome part = boolOf table column value := by
  rcases value with _ | _ | _ <;> rfl

theorem outcome_setRequired (part : String) :
    (setRequired table column value).outcome part = requiredText table column value := by
  rcases value with _ | s | _
  · rfl
  · rw [setRequired, requiredText]
    split <;> rfl
  · rfl

theorem setText_staysOnFailure : StaysOnFailure (setText table column value) := by
  intro part error part' h
  rcases value with _ | _ | _ <;> cases h
  rfl

theorem setBool_staysOnFailure : StaysOnFailure (setBool table column value) := by
  intro part error part' h
  rcases value with _ | _ | _ <;> cases h
  rfl

theorem setRequired_staysOnFailure : StaysOnFailure (setRequired table column value) := by
  intro part error part' h
  unfold setRequired at h
  split at h
  · split at h <;> cases h
    rfl
  · cases h
    rfl

theorem throw_staysOnFailure (error : StoreError) :
    StaysOnFailure (throw error : Call ρ Unit) := by
  intro row error' row' h
  cases h
  rfl

/-- A write that leaves the row when it fails comes to its outcome. -/
theorem StaysOnFailure.run_eq {write : Call ρ Unit} (h : StaysOnFailure write) (row : ρ) :
    write.run row =
      match write.outcome row with
      | .ok new => (.ok (), new)
      | .error error => (.error error, row) := by
  unfold Call.outcome
  rcases hrun : write.run row with ⟨error | ⟨⟩, new⟩
  · rw [h hrun]
  · rfl

end

/-- A user that does not take a content stays as it is. -/
theorem UserRow.write_staysOnFailure (column : Column) (value : Option Scalar) :
    StaysOnFailure (UserRow.write column value) := by
  unfold UserRow.write
  split
  · exact (setRequired_staysOnFailure ..).slot _
  · exact (setBool_staysOnFailure ..).slot _
  · split
    · exact (setText_staysOnFailure ..).slot _
    · exact throw_staysOnFailure _

theorem GroupRow.write_staysOnFailure (column : Column) (value : Option Scalar) :
    StaysOnFailure (GroupRow.write column value) := by
  unfold GroupRow.write
  split
  · exact (setRequired_staysOnFailure ..).slot _
  · exact (setText_staysOnFailure ..).slot _
  · exact throw_staysOnFailure _

theorem Row.write_staysOnFailure {type : ResourceType} (column : Column) (value : Option Scalar) :
    StaysOnFailure (Row.write column value : Call (Row type) Unit) := by
  cases type with
  | user => exact UserRow.write_staysOnFailure column value
  | group => exact GroupRow.write_staysOnFailure column value

theorem ItemRow.write_staysOnFailure (column : Column) (value : Option Scalar) :
    StaysOnFailure (ItemRow.write column value) := by
  unfold ItemRow.write
  split
  · exact (setBool_staysOnFailure ..).slot _
  · split
    · exact (setText_staysOnFailure ..).slot _
    · exact throw_staysOnFailure _

section

variable (column : Column) (value : Option Scalar)

/-- A user of which a column takes a content. -/
def UserRow.taking (row : UserRow) : Except StoreError UserRow :=
  match column with
  | .userName => (requiredText "users" column value).map fun s => { row with userName := s }
  | .active => (boolOf "users" column value).map fun b => { row with active := b }
  | _ =>
    match textSlot? column with
    | some slot => (textOf "users" column value).map (slot.put row)
    | none => .error (.unknownColumn "users" column.name)

/-- A group of which a column takes a content. -/
def GroupRow.taking (row : GroupRow) : Except StoreError GroupRow :=
  match column with
  | .displayName =>
    (requiredText "groups" column value).map fun s => { row with displayName := s }
  | .externalId => (textOf "groups" column value).map fun s => { row with externalId := s }
  | _ => .error (.unknownColumn "groups" column.name)

/-- A row of which a column takes a content. -/
def Row.taking : {type : ResourceType} → Row type → Except StoreError (Row type)
  | .user, row => UserRow.taking column value row
  | .group, row => GroupRow.taking column value row

/-- An item of which a column takes a content. -/
def ItemRow.taking (item : ItemRow) : Except StoreError ItemRow :=
  match column with
  | .primary => (boolOf "items" column value).map fun b => { item with primary := b }
  | _ =>
    match textSlot? column with
    | some slot => (textOf "items" column value).map (slot.put item)
    | none => .error (.unknownColumn "items" column.name)

theorem UserRow.outcome_write (row : UserRow) :
    (write column value).outcome row = taking column value row := by
  cases column with
  | userName => exact (outcome_call ..).trans (congrArg _ (outcome_setRequired ..))
  | active => exact (outcome_call ..).trans (congrArg _ (outcome_setBool ..))
  | _ => first | rfl | exact (outcome_call ..).trans (congrArg _ (outcome_setText ..))

theorem GroupRow.outcome_write (row : GroupRow) :
    (write column value).outcome row = taking column value row := by
  cases column with
  | displayName => exact (outcome_call ..).trans (congrArg _ (outcome_setRequired ..))
  | externalId => exact (outcome_call ..).trans (congrArg _ (outcome_setText ..))
  | _ => rfl

/-- The row that a write makes is the one of which the column takes the content. -/
theorem Row.assign_eq {type : ResourceType} (row : Row type) :
    row.assign column value = taking column value row := by
  cases type with
  | user => exact UserRow.outcome_write column value row
  | group => exact GroupRow.outcome_write column value row

theorem ItemRow.assign_eq (item : ItemRow) :
    item.assign column value = taking column value item := by
  cases column with
  | primary => exact (outcome_call ..).trans (congrArg _ (outcome_setBool ..))
  | _ => first | rfl | exact (outcome_call ..).trans (congrArg _ (outcome_setText ..))

end

theorem textOf_map (table : String) (column : Column) (x : Option String) :
    textOf table column (x.map .text) = .ok x := by
  cases x <;> rfl

theorem boolOf_map (table : String) (column : Column) (x : Option Bool) :
    boolOf table column (x.map .bool) = .ok x := by
  cases x <;> rfl

theorem requiredText_of_ne (table : String) (column : Column) {s : String} (h : s ≠ "") :
    requiredText table column (some (.text s)) = .ok s := by
  simp [requiredText, h]

namespace Row

variable {type : ResourceType}

/-- The text that a row must not lack. -/
def requiredName : {type : ResourceType} → Row type → String
  | .user, row => UserRow.userName row
  | .group, row => GroupRow.displayName row

/-- A column takes what another row has in it, and the other columns stay. -/
theorem assign_cell {row content : Row type} {column : Column} {value : Option Scalar}
    (hcell : content.cell column = some value) (hname : content.requiredName ≠ "") :
    ∃ new : Row type, row.assign column value = .ok new ∧
      ∀ other, new.cell other = if other = column then content.cell other else row.cell other := by
  cases type with
  | user =>
    have hname : UserRow.userName content ≠ "" := hname
    cases column <;> cases hcell <;>
      simp only [assign_eq, taking, UserRow.taking, UserRow.textSlot?, textOf_map, boolOf_map,
        Option.map_some, requiredText_of_ne _ _ hname] <;>
      exact ⟨_, rfl, fun other => by cases other <;> rfl⟩
  | group =>
    have hname : GroupRow.displayName content ≠ "" := hname
    cases column <;> cases hcell <;>
      simp only [assign_eq, taking, GroupRow.taking, textOf_map, Option.map_some,
        requiredText_of_ne _ _ hname] <;>
      exact ⟨_, rfl, fun other => by cases other <;> rfl⟩

/-- The version is in no column. -/
theorem cell_withEtag (row : Row type) (etag : String) : (row.withEtag etag).cell = row.cell := by
  funext column
  cases type <;> cases column <;> rfl

/-- The time of the last change is in no column. -/
theorem cell_withLastModified (row : Row type) (time : Instant) :
    (row.withLastModified time).cell = row.cell := by
  funext column
  cases type <;> cases column <;> rfl

/-- The name that must be unique is in a column. -/
theorem uniqueName?_congr {a b : Row type} (h : a.cell .userName = b.cell .userName) :
    a.uniqueName? = b.uniqueName? := by
  cases type with
  | user => exact textCell_inj h
  | group => rfl

end Row

namespace UserRow

variable {a b : UserRow} (h : a.cell = b.cell)

include h

theorem toProfile_congr : a.toProfile = b.toProfile := by
  have hread (row : UserRow) : row.toProfile = ⟨row.externalId, row.displayName, row.nickName,
      row.profileUrl, row.title, row.userType, row.preferredLanguage, row.locale, row.timezone,
      row.active, row.password⟩ := rfl
  rw [hread a, hread b, Profile.mk.injEq]
  exact ⟨textCell_inj (congrFun h .externalId), textCell_inj (congrFun h .displayName),
    textCell_inj (congrFun h .nickName), textCell_inj (congrFun h .profileUrl),
    textCell_inj (congrFun h .title), textCell_inj (congrFun h .userType),
    textCell_inj (congrFun h .preferredLanguage), textCell_inj (congrFun h .locale),
    textCell_inj (congrFun h .timezone), boolCell_inj (congrFun h .active),
    textCell_inj (congrFun h .password)⟩

theorem name_congr : a.name = b.name := by
  have hread (row : UserRow) : row.name = ⟨row.name.formatted, row.name.familyName,
      row.name.givenName, row.name.middleName, row.name.honorificPrefix,
      row.name.honorificSuffix⟩ := rfl
  rw [hread a, hread b, PersonName.mk.injEq]
  exact ⟨textCell_inj (congrFun h .nameFormatted), textCell_inj (congrFun h .nameFamilyName),
    textCell_inj (congrFun h .nameGivenName), textCell_inj (congrFun h .nameMiddleName),
    textCell_inj (congrFun h .nameHonorificPrefix), textCell_inj (congrFun h .nameHonorificSuffix)⟩

theorem userName_congr : a.userName = b.userName :=
  Option.some.inj (textCell_inj (congrFun h .userName))

end UserRow

namespace ItemRow

variable {a b : ItemRow} (h : a.cell = b.cell)

include h

theorem toValue_congr : a.toValue = b.toValue := by
  simp only [toValue, textCell_inj (congrFun h .value), textCell_inj (congrFun h .display),
    textCell_inj (congrFun h .type), boolCell_inj (congrFun h .primary)]

theorem toAddress_congr : a.toAddress = b.toAddress := by
  simp only [toAddress, textCell_inj (congrFun h .formatted),
    textCell_inj (congrFun h .streetAddress), textCell_inj (congrFun h .locality),
    textCell_inj (congrFun h .region), textCell_inj (congrFun h .postalCode),
    textCell_inj (congrFun h .country), textCell_inj (congrFun h .type),
    boolCell_inj (congrFun h .primary)]

theorem toMember_congr : a.toMember = b.toMember := by
  simp only [toMember, textCell_inj (congrFun h .value), textCell_inj (congrFun h .ref),
    textCell_inj (congrFun h .type), textCell_inj (congrFun h .display)]

end ItemRow

/-- A column of an item takes what is written to it, and the other columns stay. -/
theorem ItemRow.cell_of_assign {item new : ItemRow} {column : Column} {content : Option Scalar}
    (h : item.assign column content = .ok new) (other : Column) :
    new.cell other = if other = column then some content else item.cell other := by
  have htext : ∀ {table : String} {column : Column} {x : Option String},
      textOf table column content = .ok x → textCell x = some content := by
    intro table column x hx
    rcases content with _ | _ | _ <;> cases hx <;> rfl
  have hbool : ∀ {table : String} {column : Column} {x : Option Bool},
      boolOf table column content = .ok x → boolCell x = some content := by
    intro table column x hx
    rcases content with _ | _ | _ <;> cases hx <;> rfl
  cases column <;>
    simp only [ItemRow.assign_eq, ItemRow.taking, ItemRow.textSlot?] at h <;>
    first
    | cases h
    | obtain ⟨x, hx, rfl⟩ := except_map_eq_ok.mp h
      first
      | have hcell := htext hx
        cases other <;> first | exact hcell | rfl
      | have hcell := hbool hx
        cases other <;> first | exact hcell | rfl

/-- What is read off the columns of items is the same for items with the same columns. -/
theorem map_eq_of_cells {α : Type} {read : ItemRow → α}
    (hread : ∀ {a b : ItemRow}, a.cell = b.cell → read a = read b) {items others : List ItemRow}
    (h : items.map ItemRow.cell = others.map ItemRow.cell) : items.map read = others.map read := by
  induction items generalizing others with
  | nil =>
    obtain rfl : others = [] := List.map_eq_nil_iff.mp h.symm
    rfl
  | cons item items ih =>
    obtain ⟨other, others, rfl, hfirst, hrest⟩ := List.map_eq_cons_iff.mp h.symm
    rw [List.map_cons, List.map_cons, hread hfirst.symm, ih hrest.symm]

/-- Two records with the same columns and, in each relation, the same items in the same order; keys,
versions and times aside. -/
structure Record.SameContent {type : ResourceType} (a b : Record type) : Prop where
  /-- The columns. -/
  columns : ∀ column, a.row.cell column = b.row.cell column
  /-- The items of each relation, as their columns tell them. -/
  items : ∀ relation, (a.items relation).map ItemRow.cell = (b.items relation).map ItemRow.cell

end ScimDirectory
