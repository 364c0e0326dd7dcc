import ScimDirectory.Filter.Compile
import ScimDirectory.Filter.Parser
import ScimDirectory.Patch.Error

/-!
# Targets

What the path of an operation points at: a column, all columns of a complex attribute, or the
items of a relation, perhaps narrowed by a filter and to one sub-attribute. Paths into
attributes that the server owns point at nothing.
-/

namespace ScimDirectory

/-- What a path points at. -/
inductive Target where
  /-- A singular attribute. -/
  | field (field : Field)
  /-- A complex singular attribute, as the path names it. -/
  | complex (parent : String)
  /-- The items of a relation, those that satisfy a filter if there is one, and a sub-attribute of
  them if one is named. -/
  | items (relation : Relation) (filter : Option Predicate) (sub : Option Field)

namespace Target

/-- The attributes that the server owns. -/
def readOnly : List String := ["id", "meta", "groups", "schemas"]

/-- The part of a name before its first dot, or all of it. -/
def root (attr : String) : String := ((splitAtDot attr).map (·.1)).getD attr

/-- The sub-attribute of a relation's items that a path names. -/
def subField (relation : Relation) (sub : String) : Except PatchError Field :=
  match (AttributeTable.ofItems relation).field? sub with
  | some found => .ok found
  | none => .error (.lookup (.unknownSubAttribute relation.attributeName sub))

/-- The items that a path selects. -/
def ofItems (relation : Relation) (filter : Option Expr) (sub : Option String) :
    Except PatchError Target := do
  let filter ← filter.mapM fun expr => (Filter.compileItems relation expr).mapError .filter
  let sub ← sub.mapM (subField relation)
  return .items relation filter sub

/-- What an attribute with a value filter and a sub-attribute points at. -/
def ofParts (type : ResourceType) (attr : String) (filter : Option Expr) (sub : Option String) :
    Except PatchError Target :=
  let table := AttributeTable.ofType type
  if readOnly.any (Text.sameLetters · (root attr)) then .error (.readOnly attr)
  else if (table.field? attr).isNone && table.isComplex attr then
    if filter.isSome then .error (.lookup (.notMultiValued attr)) else .ok (.complex attr)
  else match table.resolve attr with
    | .error error => .error (.lookup error)
    | .ok (.field found) =>
      if filter.isSome then .error (.lookup (.notMultiValued found.name)) else .ok (.field found)
    | .ok (.relation relation) => ofItems relation filter sub
    | .ok (.itemField ..) => .error (.missingFilter attr)

/-- What a path points at in a resource of a given type. -/
def ofPath (parser : Filter.Parser) (type : ResourceType) (path : String) :
    Except PatchError Target :=
  match parser .path path with
  | .error error => .error (.invalidPath path error)
  | .ok (.path attr sub) => ofParts type attr none sub
  | .ok (.valuePath attr filter sub) => ofParts type attr (some filter) sub
  | .ok _ => .error (.invalidPath path (.fault .notAPath 0))

end Target
end ScimDirectory
