import ScimDirectory.Number.Binary64
import ScimDirectory.Text.Truth

/-!
# Filter expressions

The tree of a filter or of a path, and its text. The tree holds every construct of the filter
grammar, also those that a search does not support, so that a search can say which one it does
not support.
-/

namespace ScimDirectory

/-- A value that an attribute is compared with. -/
inductive Literal where
  /-- A text. -/
  | text (value : String)
  /-- `true` or `false`. -/
  | bool (value : Bool)
  /-- A number. -/
  | number (value : Binary64)
  /-- The value `null`. -/
  | null
  deriving DecidableEq

/-- A comparison by value or by order. -/
inductive Comparison where
  /-- Equal. -/
  | eq
  /-- Not equal. -/
  | ne
  /-- Greater. -/
  | gt
  /-- Greater or equal. -/
  | ge
  /-- Less. -/
  | lt
  /-- Less or equal. -/
  | le
  deriving DecidableEq

/-- Where a text has to occur in another one. -/
inductive Occurrence where
  /-- Anywhere. -/
  | anywhere
  /-- At the start. -/
  | atStart
  /-- At the end. -/
  | atEnd
  deriving DecidableEq

/-- A connective between two filters. -/
inductive Connective where
  /-- Both have to hold. -/
  | and
  /-- One has to hold. -/
  | or
  deriving DecidableEq

/-- A filter, or the path of an operation. -/
inductive Expr where
  /-- An attribute compared with a value. -/
  | compare (attr : String) (comparison : Comparison) (value : Literal)
  /-- An attribute searched for a value. -/
  | search (attr : String) (occurrence : Occurrence) (value : Literal)
  /-- An attribute that is present. -/
  | present (attr : String)
  /-- Two filters joined by a connective. -/
  | join (connective : Connective) (lhs rhs : Expr)
  /-- A filter between parentheses. -/
  | group (negated : Bool) (inner : Expr)
  /-- An attribute, and perhaps a sub-attribute after it. -/
  | path (attr : String) (sub : Option String)
  /-- The items of an attribute that satisfy a filter, and perhaps a sub-attribute of them. -/
  | valuePath (attr : String) (filter : Expr) (sub : Option String)
  deriving DecidableEq

/-- What a value is called in a message. -/
def Literal.kindName : Literal → String
  | .text _ => "string"
  | .bool _ => "boolean"
  | .number _ => "number"
  | .null => "null"

/-- A text between quotes. A quote within is escaped; a backslash is not. -/
def Literal.quote (s : String) : String :=
  String.ofList ('"' :: s.toList.flatMap (fun c => if c = '"' then ['\\', '"'] else [c]) ++ ['"'])

/-- The text of a value. -/
def Literal.toText : Literal → String
  | .text s => quote s
  | .bool b => Text.truth b
  | .number x => x.toText
  | .null => "null"

/-- The operator of a comparison. -/
def Comparison.operator : Comparison → String
  | .eq => "eq"
  | .ne => "ne"
  | .gt => "gt"
  | .ge => "ge"
  | .lt => "lt"
  | .le => "le"

/-- The comparison of an operator. -/
def Comparison.ofOperator? (operator : String) : Option Comparison :=
  [eq, ne, gt, ge, lt, le].find? (·.operator == operator)

/-- The operator that asks for an occurrence. -/
def Occurrence.operator : Occurrence → String
  | .anywhere => "co"
  | .atStart => "sw"
  | .atEnd => "ew"

/-- The occurrence that an operator asks for. -/
def Occurrence.ofOperator? (operator : String) : Option Occurrence :=
  [anywhere, atStart, atEnd].find? (·.operator == operator)

/-- The keyword of a connective. -/
def Connective.keyword : Connective → String
  | .and => "and"
  | .or => "or"

namespace Expr

/-- The text of a sub-attribute after a path. -/
def subText : Option String → String
  | none => ""
  | some sub => "." ++ sub

/-- The text of an expression. Joined filters stand side by side without parentheses. -/
def toText : Expr → String
  | compare attr comparison value => attr ++ " " ++ comparison.operator ++ " " ++ value.toText
  | search attr occurrence value => attr ++ " " ++ occurrence.operator ++ " " ++ value.toText
  | present attr => attr ++ " pr"
  | join connective lhs rhs => lhs.toText ++ " " ++ connective.keyword ++ " " ++ rhs.toText
  | group negated inner => (if negated then "not (" else "(") ++ inner.toText ++ ")"
  | path attr sub => attr ++ subText sub
  | valuePath attr filter sub => attr ++ "[" ++ filter.toText ++ "]" ++ subText sub

/-- The attribute that a leaf or a path names. -/
def attribute? : Expr → Option String
  | compare attr .. | search attr .. | present attr | path attr .. | valuePath attr .. => some attr
  | join .. | group .. => none

end Expr
end ScimDirectory
