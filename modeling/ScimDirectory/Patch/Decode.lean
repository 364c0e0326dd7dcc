import ScimDirectory.Directory.View
import ScimDirectory.Patch.Error

/-!
# Decoding values

The values of operations as column contents and as item rows. `null` clears a column, and the
words for truth values are accepted in any letter case where a truth value is wanted, because
some clients send them so.
-/

namespace ScimDirectory.Patch

/-- New contents of columns, in the order in which they are written. -/
abbrev Updates := List (Field × Option Scalar)

/-- What a field's values are called in a message. -/
def expected (field : Field) : String :=
  if field.matching = .boolean then "a boolean" else "a string"

/-- A value of the wrong kind. -/
def wrongKind (field : Field) (value : Json) : PatchError :=
  .invalidValue field.name ("expected " ++ expected field ++ ", got " ++ value.kindName)

/-- The truth value of a word. -/
def truthOf? (word : String) : Option Bool :=
  if Text.sameLetters word "true" then some true
  else if Text.sameLetters word "false" then some false
  else none

/-- The content of a field's column for a value. -/
def scalar (field : Field) (value : Json) : Except PatchError (Option Scalar) :=
  match field.matching, value with
  | _, .null => .ok none
  | .boolean, .bool b => .ok (some (.bool b))
  | .boolean, .text s =>
    match truthOf? s with
    | some b => .ok (some (.bool b))
    | none => .error (wrongKind field value)
  | .ignoringCase, .text s | .exact, .text s => .ok (some (.text s))
  | _, value => .error (wrongKind field value)

/-- The update of a member of an object, given what its name stands for. -/
def memberUpdate (field? : Option Field) (parent name : String) (value : Json) :
    Except PatchError (Field × Option Scalar) :=
  match field? with
  | none => .error (.lookup (.unknownSubAttribute parent name))
  | some field => (scalar field value).map fun content => (field, content)

/-- The columns of a complex attribute. -/
def complexFields (type : ResourceType) (parent : String) : List Field :=
  (AttributeTable.ofType type).fields.filter fun field =>
    (splitAtDot field.name).any fun (front, _) => Text.sameLetters front parent

/-- The updates of a complex attribute by the members of an object. -/
def complexUpdates (type : ResourceType) (parent : String) : Json → Except PatchError Updates
  | .object members => members.mapM fun (name, value) =>
    memberUpdate ((AttributeTable.ofType type).field? (parent ++ "." ++ name)) parent name value
  | _ => .error (.invalidValue parent "expected an object")

/-- The updates of an item by the members of an object. -/
def itemUpdates (relation : Relation) (members : Members) : Except PatchError Updates :=
  members.mapM fun (name, value) =>
    memberUpdate ((AttributeTable.ofItems relation).field? name) relation.attributeName name value

/-- Updates in which some columns have another content. A column that is not among them is not
added. -/
def overwrite (updates changes : Updates) : Updates :=
  changes.foldl (fun updates (field, content) =>
    updates.map fun (other, old) => if other = field then (other, content) else (other, old))
    updates

/-- A value that cannot be read as an item. -/
def unreadable (relation : Relation) : DirectoryError :=
  .patch (.unreadableItem relation.attributeName)

/-- The item row of a value. -/
def item (root : ServiceRoot) (relation : Relation) (id : ItemId) (owner : Uuid) (value : Json) :
    Except DirectoryError ItemRow :=
  match relation with
  | .values c =>
    match MultiValue.ofJson? value with
    | none => .error (unreadable relation)
    | some item =>
      ((MultiValue.checkValues c.attributeName [item]).mapError .violation).map fun _ =>
        item.toRow id owner
  | .addresses =>
    match Address.ofJson? value with
    | none => .error (unreadable relation)
    | some address => .ok (address.toRow id owner)
  | .members =>
    match Member.ofJson? value with
    | none => .error (unreadable relation)
    | some member =>
      (member.validate.mapError .violation).map fun _ => member.toRow root id owner

/-- The item rows of values, with keys of one draw from a place on. -/
def itemsFrom (root : ServiceRoot) (relation : Relation) (draw place : Nat) (owner : Uuid) :
    List Json → Except DirectoryError (List ItemRow)
  | [] => .ok []
  | value :: values =>
    match item root relation (.drawn draw place) owner value with
    | .error error => .error error
    | .ok row => (itemsFrom root relation draw (place + 1) owner values).map (row :: ·)

/-- The item rows of a value: one for each element of an array, or one for the value itself. -/
def items (root : ServiceRoot) (relation : Relation) (draw : Nat) (owner : Uuid) :
    Json → Except DirectoryError (List ItemRow)
  | .array values => itemsFrom root relation draw 0 owner values
  | value => itemsFrom root relation draw 0 owner [value]

/-- Whether two items of a relation count as the same. -/
def sameItem (relation : Relation) (a b : ItemRow) : Bool :=
  match relation with
  | .addresses => a.addressParts = b.addressParts
  | _ => a.identity = b.identity

/-- Refuses more than one preferred item. -/
def checkPrimary (relation : Relation) (items : List ItemRow) : Except Violation Unit :=
  checkSinglePrimary relation.attributeName (items.map ItemRow.isPrimary)

/-- The items that are not the same as one of those before them, which start with `known`. -/
def newItems (relation : Relation) (known : List ItemRow) : List ItemRow → List ItemRow
  | [] => []
  | item :: items =>
    if known.any (sameItem relation · item) then newItems relation known items
    else item :: newItems relation (known ++ [item]) items

end ScimDirectory.Patch
