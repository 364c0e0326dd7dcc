import ScimDirectory.Text.Blank

/-!
# Entity tags

The version of a resource is a text without further meaning. In headers and in `meta.version` it
stands between quotes after `W/`, and a header may leave the `W/` out; elsewhere it stands bare.
Two versions are equal when their texts are, whichever form they came in.
-/

namespace ScimDirectory

/-- The version of a resource. -/
structure EntityTag where
  /-- The text of the version. -/
  value : String
  deriving DecidableEq

/-- Why a text is no version. -/
inductive VersionError where
  /-- A header does not hold a quoted version. -/
  | invalidHeader (header : String)
  /-- A bare version cannot be read. -/
  | unreadable (detail : String)
  deriving DecidableEq

/-- The wording of the error. -/
def VersionError.message : VersionError → String
  | .invalidHeader header => "Invalid ETag format: " ++ header
  | .unreadable detail => "Failed to parse version: " ++ detail

namespace EntityTag

/-- The form of a weak version in a header. -/
def header (tag : EntityTag) : String := "W/\"" ++ tag.value ++ "\""

/-- The characters after an optional `W/`. -/
def dropWeak : List Char → List Char
  | 'W' :: '/' :: rest => rest
  | s => s

/-- The characters between a quote at the start and a quote at the end. -/
def unquote? : List Char → Option (List Char)
  | '"' :: rest => if rest.getLast? = some '"' then some rest.dropLast else none
  | _ => none

/-- Reads a weak or strong version from a header. -/
def ofHeader? (text : String) : Except VersionError EntityTag :=
  match unquote? (dropWeak (Text.trim text.toList)) with
  | some (c :: rest) => .ok ⟨String.ofList (c :: rest)⟩
  | _ => .error (.invalidHeader text)

/-- Reads a bare version: any text that is not blank. -/
def ofBare? (text : String) : Except VersionError EntityTag :=
  if Text.allBlank text then .error (.unreadable "Version string cannot be empty")
  else .ok ⟨Text.trimmed text⟩

end EntityTag
end ScimDirectory
