import ScimDirectory.Json.Basic

/-!
# Records in JSON

A record with named fields is written as an object. It may be read from an object, whose
unknown members are ignored, or from an array of its field values in declaration order, which
may stop early. A field is optional, has a default, or is required; an optional field that is
`null` is absent.
-/

namespace ScimDirectory

/-- Members of an object. -/
abbrev Members := List (String × Json)

/-- The members of a record with the fields `keys`, from an object or from an array that has
at most one value for each. -/
def Json.members? (keys : List String) : Json → Option Members
  | .object members => some members
  | .array values => if values.length ≤ keys.length then some (keys.zip values) else none
  | _ => none

namespace Members

variable {α : Type}

/-- An optional field: absent when it is missing or `null`. -/
def optional (members : Members) (key : String) (read : Json → Option α) : Option (Option α) :=
  match members.lookup key with
  | none | some .null => some none
  | some value => (read value).map some

/-- A field that takes a default when it is missing. -/
def withDefault (members : Members) (key : String) (default : α) (read : Json → Option α) :
    Option α :=
  match members.lookup key with
  | none => some default
  | some value => read value

/-- A field that must be there. -/
def required (members : Members) (key : String) (read : Json → Option α) : Option α :=
  (members.lookup key).bind read

/-- The member of an optional field: none when it is absent. -/
def ofOption (key : String) (write : α → Json) : Option α → Members
  | none => []
  | some value => [(key, write value)]

/-- The member of a field that is left out when its list is empty. -/
def ofList (key : String) (write : α → Json) (values : List α) : Members :=
  if values.isEmpty then [] else [(key, .array (values.map write))]

end Members
end ScimDirectory
