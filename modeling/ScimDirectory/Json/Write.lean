import ScimDirectory.Json.Basic

/-!
# Writing JSON texts

Values are written without space. A real number always has a point, so that it is not taken for
an integer.
-/

namespace ScimDirectory.Json

/-- A character of a string as it is written. -/
def writtenChar (c : Char) : List Char :=
  if c = '"' then ['\\', '"']
  else if c = '\\' then ['\\', '\\']
  else if c.toNat < 0x20 then
    '\\' :: 'u' :: '0' :: '0' :: [Nat.digitChar (c.toNat / 16), Nat.digitChar (c.toNat % 16)]
  else [c]

/-- A string between quotes. -/
def writtenString (s : String) : String :=
  String.ofList ('"' :: s.toList.flatMap writtenChar ++ ['"'])

/-- A real number with a point. -/
def writtenReal (x : Binary64) : String :=
  let text := x.toText
  if text.toList.contains '.' then text else text ++ ".0"

mutual

/-- The text of a value. -/
def toText : Json → String
  | .null => "null"
  | .bool b => if b then "true" else "false"
  | .integer n => toString n
  | .real x => writtenReal x
  | .text s => writtenString s
  | .array values => "[" ++ String.intercalate "," (elementTexts values) ++ "]"
  | .object members => "\x7b" ++ String.intercalate "," (memberTexts members) ++ "\x7d"

/-- The texts of the elements of an array. -/
def elementTexts : List Json → List String
  | [] => []
  | json :: rest => toText json :: elementTexts rest

/-- The texts of the members of an object. -/
def memberTexts : List (String × Json) → List String
  | [] => []
  | (name, json) :: rest => (writtenString name ++ ":" ++ toText json) :: memberTexts rest

end

end ScimDirectory.Json
