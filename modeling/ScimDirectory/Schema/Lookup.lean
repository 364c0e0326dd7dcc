import ScimDirectory.Schema.Attribute
import ScimDirectory.Text.AsciiCase

/-!
# Looking up attribute names

Names are looked up without regard to the case of ASCII letters, and a name that is not in the
table is always an error. The whole name is tried before it is split at its first dot, so a
dotted name in the table wins over an item's sub-attribute.
-/

namespace ScimDirectory

/-- Why a name stands for nothing. -/
inductive LookupError where
  /-- The table does not have the attribute. -/
  | unknownAttribute (resource attr : String)
  /-- The attribute does not have the sub-attribute. -/
  | unknownSubAttribute (parent sub : String)
  /-- The attribute has no sub-attributes. -/
  | notMultiValued (attr : String)
  deriving DecidableEq

namespace LookupError

/-- The wording of the error. -/
def message : LookupError → String
  | .unknownAttribute resource attr => "unknown attribute '" ++ attr ++ "' for " ++ resource
  | .unknownSubAttribute parent sub => "unknown sub-attribute '" ++ sub ++ "' of '" ++ parent ++ "'"
  | .notMultiValued attr => "'" ++ attr ++ "' has no sub-attributes"

/-- Whether the attribute itself is unknown, rather than known and wrongly used. -/
def isUnknownAttribute : LookupError → Bool
  | .unknownAttribute .. => true
  | _ => false

end LookupError

/-- What an attribute name stands for. -/
inductive Resolved where
  /-- A singular attribute. -/
  | field (field : Field)
  /-- A whole multi-valued attribute. -/
  | relation (relation : Relation)
  /-- A sub-attribute of a relation's items. -/
  | itemField (relation : Relation) (field : Field)
  deriving DecidableEq

/-- The parts of a text before and after its first dot. -/
def splitAtDot (s : String) : Option (String × String) :=
  let cs := s.toList
  match cs.dropWhile (· != '.') with
  | [] => none
  | _ :: rest => some (String.ofList (cs.takeWhile (· != '.')), String.ofList rest)

namespace AttributeTable

/-- The entry of a name. -/
def entry? (table : AttributeTable) (name : String) : Option Entry :=
  table.entries.find? fun entry => Text.sameLetters entry.name name

/-- The singular attribute of a name. -/
def field? (table : AttributeTable) (name : String) : Option Field :=
  match table.entry? name with
  | some (.field field) => some field
  | _ => none

/-- Whether a name is a parent, a dot and something more. -/
def isUnder (parent name : String) : Bool :=
  match splitAtDot name with
  | some (front, rest) => Text.sameLetters front parent && rest != ""
  | none => false

/-- Whether a name is the parent of dotted names, as `name` is. -/
def isComplex (table : AttributeTable) (parent : String) : Bool :=
  table.entries.any fun entry => isUnder parent entry.name

/-- What a name stands for. -/
def resolve (table : AttributeTable) (attr : String) : Except LookupError Resolved :=
  match table.entry? attr with
  | some (.field field) => .ok (.field field)
  | some (.relation relation) => .ok (.relation relation)
  | none =>
    match splitAtDot attr with
    | none => .error (.unknownAttribute table.name attr)
    | some (parent, sub) =>
      match table.entry? parent with
      | some (.relation relation) =>
        match (ofItems relation).field? sub with
        | some field => .ok (.itemField relation field)
        | none => .error (.unknownSubAttribute relation.attributeName sub)
      | some (.field field) => .error (.notMultiValued field.name)
      | none =>
        if table.isComplex parent then .error (.unknownSubAttribute parent sub)
        else .error (.unknownAttribute table.name attr)

end AttributeTable
end ScimDirectory
