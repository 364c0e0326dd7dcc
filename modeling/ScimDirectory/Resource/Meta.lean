import ScimDirectory.Instant
import ScimDirectory.Json.Members

/-!
# Metadata

What the server keeps about every resource besides its attributes.
-/

namespace ScimDirectory

/-- The metadata of a resource. -/
structure Meta where
  /-- The name of the resource type. -/
  resourceType : String
  /-- When the resource was made. -/
  created : Instant
  /-- When the resource was last changed. -/
  lastModified : Instant
  /-- The URL of the resource. -/
  location : Option String
  /-- The version of the resource. -/
  version : Option String
  deriving DecidableEq

namespace Meta

/-- The names of the sub-attributes. -/
def keys : List String := ["resourceType", "created", "lastModified", "location", "version"]

/-- A text without the slashes at its end. -/
def dropSlashes (s : String) : String :=
  String.ofList (s.toList.reverse.dropWhile (· == '/')).reverse

/-- The URL of a resource under a base URL, whose own slashes at the end do not count. -/
def locationUnder (base endpoint id : String) : String :=
  dropSlashes base ++ "/" ++ endpoint ++ "/" ++ id

/-- Reads an instant from its RFC 3339 text. -/
def instant? : Json → Option Instant
  | .text s => Instant.ofText? s
  | _ => none

/-- Writes metadata. -/
def toJson (m : Meta) : Json :=
  .object <|
    ("resourceType", .text m.resourceType) ::
    ("created", .text m.created.toText) ::
    ("lastModified", .text m.lastModified.toText) ::
    Members.ofOption "location" .text m.location ++
    Members.ofOption "version" .text m.version

/-- Reads metadata. -/
def ofJson? (json : Json) : Option Meta := do
  let ms ← json.members? keys
  return {
    resourceType := ← ms.required "resourceType" Json.text?
    created := ← ms.required "created" instant?
    lastModified := ← ms.required "lastModified" instant?
    location := ← ms.optional "location" Json.text?
    version := ← ms.optional "version" Json.text? }

end Meta
end ScimDirectory
