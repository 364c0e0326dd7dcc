import ScimDirectory.Directory.Action
import ScimDirectory.Patch.Decode
import ScimDirectory.Patch.Request
import ScimDirectory.Patch.Target

/-!
# Applying operations

An operation is applied to a resource whose row is at hand. Columns are written to that row and
then to storage; items are written to storage one call each, after a check that no relation is
left with two preferred items. What an operation has done when it fails stays done.
-/

namespace ScimDirectory.Patch

/-- How operations are read and where resources are found. -/
structure Setting where
  /-- How paths are read. -/
  parser : Filter.Parser
  /-- The URL under which resources are found. -/
  root : ServiceRoot

/-- A step of an operation, which may also change the row at hand. -/
abbrev Step (σ : Type) (type : ResourceType) (α : Type) :=
  ExceptT DirectoryError (StateM (World σ × Row type)) α

namespace Step

variable {σ α : Type} {type : ResourceType}

/-- An action that leaves the row at hand alone. -/
def lift (action : Action σ α) : Step σ type α := fun (w, row) =>
  let (answer, w) := action.run w
  (answer, w, row)

/-- A check. -/
def check {ε : Type} (wrap : ε → DirectoryError) (answer : Except ε α) : Step σ type α :=
  fun s => (answer.mapError wrap, s)

/-- The row at hand. -/
def row : Step σ type (Row type) := fun s => (.ok s.2, s)

/-- Changes the row at hand in place. -/
def onRow (wrap : StoreError → DirectoryError) (c : Call (Row type) α) : Step σ type α :=
  fun (w, row) =>
    let (answer, row) := c.run row
    (answer.mapError wrap, w, row)

/-- Puts another row at hand. -/
def setRow (row : Row type) : Step σ type Unit := fun s => (.ok (), s.1, row)

end Step

section

variable {σ : Type} [Storage σ] {type : ResourceType}

/-- Writes one column of the row at hand. -/
def assignField (field : Field) (content : Option Scalar) : Step σ type Unit :=
  Step.onRow (fun error => .patch (.invalidValue field.name error.message))
    (Row.write field.column content)

/-- Writes columns of the row at hand. -/
def assignFields : Updates → Step σ type Unit
  | [] => pure ()
  | (field, content) :: updates => do
    assignField field content
    assignFields updates

/-- Writes columns of the row at hand and then the row. -/
def setFields (updates : Updates) : Step σ type Unit := do
  assignFields updates
  let row ← Step.row
  let stored ← Step.lift (.call (Storage.update row))
  Step.setRow stored

/-- Links new items, one call each. -/
def insertItems (relation : Relation) : List ItemRow → Action σ Unit
  | [] => pure ()
  | item :: items => do
    let _ ← Action.call (Storage.insertItem relation item)
    insertItems relation items

/-- Writes items, one call each. -/
def updateItems (relation : Relation) : List ItemRow → Action σ Unit
  | [] => pure ()
  | item :: items => do
    let _ ← Action.call (Storage.updateItem relation item)
    updateItems relation items

/-- Adds the items of a value to a relation, except those that are there already. -/
def addItems (root : ServiceRoot) (owner : Uuid) (relation : Relation) (value : Json) :
    Action σ Unit := do
  let existing ← Action.call (Storage.queryItems relation owner none)
  let draw ← Action.draw
  let items ← Action.ensure (items root relation draw owner value)
  let fresh := newItems relation existing items
  Action.check .violation (checkPrimary relation (existing ++ fresh))
  insertItems relation fresh

/-- Puts the items of a value in the place of all items of a relation. -/
def replaceItems (root : ServiceRoot) (owner : Uuid) (relation : Relation) (value : Json) :
    Action σ Unit := do
  let draw ← Action.draw
  let items ← if value.isNull then pure []
    else Action.ensure (items root relation draw owner value)
  Action.check .violation (checkPrimary relation items)
  let _ ← Action.call (Storage.deleteAllItems relation owner)
  insertItems relation items

/-- Removes the items of a relation that satisfy a predicate. -/
def removeItems (owner : Uuid) (relation : Relation) (filter : Predicate) : Action σ Unit := do
  let selected ← Action.call (Storage.queryItems relation owner (some filter))
  let _ ← Action.call (Storage.deleteItems relation (selected.map ItemRow.id))

/-- Refuses an item that is not a valid member, if members are meant. -/
def checkMember (relation : Relation) (item : ItemRow) : Except Violation Unit :=
  if relation = .members then item.toMember.validate else .ok ()

/-- An item with another content in a field's column. -/
def assignItem (item : ItemRow) (field : Field) (content : Option Scalar) :
    Except PatchError ItemRow :=
  (item.assign field.column content).mapError fun error => .invalidValue field.name error.message

/-- An item after some updates. -/
def assignItemFields (item : ItemRow) : Updates → Except PatchError ItemRow
  | [] => .ok item
  | (field, content) :: updates =>
    match assignItem item field content with
    | .error error => .error error
    | .ok item => assignItemFields item updates

/-- The error when a filter does not select one item. -/
def notOne : DirectoryError → DirectoryError
  | .storage error =>
    if error.isNotFound || error.isNotSingular then .patch .notSingular else .storage error
  | error => error

/-- Sets a sub-attribute of the one item that satisfies a predicate. -/
def setItemField (owner : Uuid) (relation : Relation) (filter : Predicate) (field : Field)
    (value : Json) : Action σ Unit := do
  let item ← (Action.call (Storage.onlyItem relation owner filter)).adapt notOne
  let content ← Action.check .patch (scalar field value)
  let item ← Action.check .patch (assignItem item field content)
  Action.check .violation (checkMember relation item)
  if item.isPrimary then
    let all ← Action.call (Storage.queryItems relation owner none)
    Action.check .violation
      (checkPrimary relation (all.filter (·.id ≠ item.id) ++ [item]))
  let _ ← Action.call (Storage.updateItem relation item)

/-- Items after some updates, each a valid member if members are meant. -/
def changedItems (relation : Relation) (updates : Updates) :
    List ItemRow → Except DirectoryError (List ItemRow)
  | [] => .ok []
  | item :: items =>
    match assignItemFields item updates with
    | .error error => .error (.patch error)
    | .ok item =>
      match checkMember relation item with
      | .error error => .error (.violation error)
      | .ok () => (changedItems relation updates items).map (item :: ·)

/-- Sets the sub-attributes that an object names in every item that satisfies a predicate. -/
def mergeItems (owner : Uuid) (relation : Relation) (filter : Predicate) (value : Json) :
    Action σ Unit :=
  match value with
  | .object members => do
    let all ← Action.call (Storage.queryItems relation owner none)
    let selected ← Action.call (Storage.queryItems relation owner (some filter))
    if selected.isEmpty then
      throw (.patch (.noTarget
        ("no " ++ relation.attributeName ++ " item matches " ++ filter.toText)))
    let updates ← Action.check .patch (itemUpdates relation members)
    let changed ← Action.ensure (changedItems relation updates selected)
    let others := all.filter fun item => !changed.any (·.id = item.id)
    Action.check .violation (checkPrimary relation (others ++ changed))
    updateItems relation changed
  | _ => throw (.patch (.invalidValue relation.attributeName "expected an object"))

/-- The key of the resource at hand. -/
def owner : Step σ type Uuid := do return (← Step.row).id

/-- Adds a value to a target. -/
def addTo (setting : Setting) (target : Target) (value : Json) : Step σ type Unit :=
  if value.isNull then throw (.patch (.invalidValue "value" "add requires a value"))
  else match target with
    | .field field => do
      let content ← Step.check .patch (scalar field value)
      setFields [(field, content)]
    | .complex parent => do
      let updates ← Step.check .patch (complexUpdates type parent value)
      setFields updates
    | .items relation none none => do
      Step.lift (addItems setting.root (← owner) relation value)
    | .items relation (some filter) (some sub) => do
      Step.lift (setItemField (← owner) relation filter sub value)
    | .items relation (some _) none => throw (.patch (.missingSubAttribute relation.attributeName))
    | .items relation none (some _) => throw (.patch (.missingFilter relation.attributeName))

/-- Removes a target. A sub-attribute of selected items cannot be removed. -/
def removeAt (target : Target) : Step σ type Unit :=
  match target with
  | .field field => setFields [(field, none)]
  | .complex parent => setFields ((complexFields type parent).map fun field => (field, none))
  | .items relation none none => do
    let _ ← Step.lift (.call (Storage.deleteAllItems relation (← owner)))
  | .items relation (some filter) none => do
    Step.lift (removeItems (← owner) relation filter)
  | .items _ (some _) (some sub) => throw (.patch (.immutable sub.name))
  | .items relation none (some _) => throw (.patch (.missingFilter relation.attributeName))

/-- Puts a value in the place of a target. -/
def replaceAt (setting : Setting) (target : Target) (value : Json) : Step σ type Unit :=
  match target with
  | .field field => do
    let content ← Step.check .patch (scalar field value)
    setFields [(field, content)]
  | .complex parent => do
    let cleared := (complexFields type parent).map fun field => (field, none)
    let changes ← if value.isNull then pure []
      else Step.check .patch (complexUpdates type parent value)
    setFields (overwrite cleared changes)
  | .items relation none none => do
    Step.lift (replaceItems setting.root (← owner) relation value)
  | .items relation (some filter) (some sub) => do
    Step.lift (setItemField (← owner) relation filter sub value)
  | .items relation (some filter) none => do
    Step.lift (mergeItems (← owner) relation filter value)
  | .items relation none (some _) => throw (.patch (.missingFilter relation.attributeName))

/-- Applies a value at a path. -/
def applyAt (setting : Setting) (apply : Target → Json → Step σ type Unit) (path : String)
    (value : Json) : Step σ type Unit := do
  let target ← Step.check .patch (Target.ofPath setting.parser type path)
  apply target value

/-- Applies each member of an object at the path that it names, in order. -/
def applyMembers (setting : Setting) (apply : Target → Json → Step σ type Unit) :
    Members → Step σ type Unit
  | [] => pure ()
  | (path, value) :: members => do
    applyAt setting apply path value
    applyMembers setting apply members

/-- Applies the value of an operation at its path, or its members when it has none. -/
def applyValue (setting : Setting) (apply : Target → Json → Step σ type Unit)
    (operation : Operation) : Step σ type Unit :=
  match operation.path, operation.value with
  | some path, value => applyAt setting apply path value
  | none, .object members => applyMembers setting apply members
  | none, _ =>
    throw (.patch (.invalidValue "value" "an operation without a path needs an object value"))

/-- Applies an operation as an addition. -/
def add (setting : Setting) (operation : Operation) : Step σ type Unit :=
  applyValue setting (addTo setting) operation

/-- Applies an operation as a replacement. -/
def replace (setting : Setting) (operation : Operation) : Step σ type Unit :=
  applyValue setting (replaceAt setting) operation

/-- Applies an operation as a removal. -/
def remove (setting : Setting) (operation : Operation) : Step σ type Unit :=
  match operation.path with
  | some path => applyAt setting (fun target _ => removeAt target) path operation.value
  | none => throw (.patch PatchRequest.removalWithoutPath)

/-- Applies an operation as what it says it is. -/
def apply (setting : Setting) (operation : Operation) : Step σ type Unit :=
  match operation.kind with
  | .add => add setting operation
  | .remove => remove setting operation
  | .replace => replace setting operation

/-- Applies operations in order. -/
def applyAll (setting : Setting) : List Operation → Step σ type Unit
  | [] => pure ()
  | operation :: operations => do
    apply setting operation
    applyAll setting operations

end

end ScimDirectory.Patch
