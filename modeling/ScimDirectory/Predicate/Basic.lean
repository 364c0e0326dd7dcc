import ScimDirectory.Filter.Expr
import ScimDirectory.Schema.Column
import ScimDirectory.Schema.Relation
import ScimDirectory.Store.Scalar

/-!
# Predicates

A condition on the columns and relations of a row, as storage understands it: plain data without
attribute names or filter syntax.
-/

namespace ScimDirectory

/-- A condition on a row. -/
inductive Predicate where
  /-- A column holds a value; texts may be compared without regard to case. -/
  | equals (column : Column) (value : Scalar) (foldCase : Bool)
  /-- A text occurs in a column. -/
  | occurs (occurrence : Occurrence) (column : Column) (text : String) (foldCase : Bool)
  /-- A column has a value. -/
  | notNull (column : Column)
  /-- A relation has an item. -/
  | hasItem (relation : Relation)
  /-- A relation has an item that satisfies a condition. -/
  | hasItemWhere (relation : Relation) (filter : Predicate)
  /-- All conditions hold. -/
  | and (parts : List Predicate)
  /-- Some condition holds. -/
  | or (parts : List Predicate)
  /-- A condition does not hold. -/
  | not (part : Predicate)

namespace Predicate

/-- A column has a value other than the empty text. -/
def presentText (column : Column) : Predicate :=
  .and [.notNull column, .not (.equals column (.text "") false)]

/-- All of some conditions; a single one is not wrapped. -/
def allOf : List Predicate → Predicate
  | [p] => p
  | ps => .and ps

/-- Some of some conditions; a single one is not wrapped. -/
def anyOf : List Predicate → Predicate
  | [p] => p
  | ps => .or ps

/-- Conditions between parentheses with a word between them. -/
def joinTexts (word : String) (texts : List String) : String :=
  "(" ++ String.intercalate word texts ++ ")"

/-- The pattern of a text that occurs somewhere. -/
def pattern (occurrence : Occurrence) (text : String) : String :=
  match occurrence with
  | .anywhere => "\"%" ++ text ++ "%\""
  | .atStart => "\"" ++ text ++ "%\""
  | .atEnd => "\"%" ++ text ++ "\""

mutual

/-- The text of a condition. -/
def toText : Predicate → String
  | .equals column value _ => column.name ++ " = " ++ value.toText
  | .occurs occurrence column text _ => column.name ++ " LIKE " ++ pattern occurrence text
  | .notNull column => column.name ++ " IS NOT NULL"
  | .hasItem relation => "HAS " ++ relation.table
  | .hasItemWhere relation filter => "HAS " ++ relation.table ++ "(" ++ toText filter ++ ")"
  | .and parts => joinTexts " AND " (toTexts parts)
  | .or parts => joinTexts " OR " (toTexts parts)
  | .not part => "NOT (" ++ toText part ++ ")"

/-- The texts of conditions. -/
def toTexts : List Predicate → List String
  | [] => []
  | p :: ps => toText p :: toTexts ps

end

end Predicate
end ScimDirectory
