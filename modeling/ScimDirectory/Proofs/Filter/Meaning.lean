import ScimDirectory.Filter.Compile
import ScimDirectory.Predicate.Evaluate
import Mathlib.Data.List.Infix

/-!
# What a filter means

The meaning of a filter on one row, told without predicates. A connective joins the meanings of
its sides, and a leaf asks something of what its attribute stands for in the table of the row: of
one column, or of some item. A leaf whose attribute the table lacks holds of nothing, and neither
do the constructs that searches do not support.
-/

namespace ScimDirectory

open ScimDirectory.Filter

/-- What a filter is about: the columns of a row and the items related to it. -/
structure Subject where
  /-- The columns. A column that is not there is as empty as one without a value. -/
  cell : Column → Option Scalar
  /-- The items of a relation. -/
  items : Relation → List ItemRow

/-- A resource row with the items related to it. -/
def Row.subject {type : ResourceType} (row : Row type) (items : Relation → List ItemRow) :
    Subject :=
  ⟨fun column => (row.cell column).join, items⟩

/-- An item, to which no items are related. -/
def ItemRow.subject (item : ItemRow) : Subject :=
  ⟨fun column => (item.cell column).join, fun _ => []⟩

/-- A text as a field compares it. -/
def Field.compared (field : Field) (s : String) : String :=
  if field.matching = .ignoringCase then Text.lowercase s else s

/-- A run of characters stands in another one where an occurrence asks for it. -/
def Occurrence.Places : Occurrence → List Char → List Char → Prop
  | .anywhere, needle, text => needle <:+: text
  | .atStart, needle, text => needle <+: text
  | .atEnd, needle, text => needle <:+ text

/-- What a leaf asks of a column: an empty text is no presence, and a literal is compared with a
value of its own kind under the case rule of the field. -/
def Filter.Test.Met (field : Field) : Test → Option Scalar → Prop
  | .present, cell => cell ≠ none ∧ (field.matching ≠ .boolean → cell ≠ some (.text ""))
  | .equals (.text s), some (.text t) => field.compared t = field.compared s
  | .equals (.bool b), some (.bool c) => c = b
  | .occurs occurrence (.text s), some (.text t) =>
    occurrence.Places (field.compared s).toList (field.compared t).toList
  | _, _ => False

/-- What a leaf asks of some item of a relation. -/
def Subject.SomeItem (subject : Subject) (relation : Relation) (field : Field) (test : Test) :
    Prop :=
  ∃ item ∈ subject.items relation, test.Met field (item.subject.cell field.column)

/-- What a leaf asks of an attribute: a whole relation is present when it has an item, and is
compared by the values of its items. -/
def Subject.Meets (subject : Subject) (test : Test) : Resolved → Prop
  | .field field => test.Met field (subject.cell field.column)
  | .itemField relation field => subject.SomeItem relation field test
  | .relation relation =>
    match test, (AttributeTable.ofItems relation).field? "value" with
    | .present, _ => subject.items relation ≠ []
    | test, some field => subject.SomeItem relation field test
    | _, none => False

/-- The meaning of a leaf on the rows of a table. -/
def Subject.MeetsLeaf (subject : Subject) (table : AttributeTable) (attr : String) (test : Test) :
    Prop :=
  match table.resolve attr with
  | .ok resolved => subject.Meets test resolved
  | .error _ => False

/-- The meaning of a filter on the rows of a table. -/
def Expr.Holds (table : AttributeTable) (subject : Subject) : Expr → Prop
  | .join .and lhs rhs => lhs.Holds table subject ∧ rhs.Holds table subject
  | .join .or lhs rhs => lhs.Holds table subject ∨ rhs.Holds table subject
  | .compare attr .eq value => subject.MeetsLeaf table attr (.equals value)
  | .search attr occurrence value => subject.MeetsLeaf table attr (.occurs occurrence value)
  | .present attr => subject.MeetsLeaf table attr .present
  | .compare .. | .group .. | .path .. | .valuePath .. => False

instance (occurrence : Occurrence) (needle text : List Char) :
    Decidable (occurrence.Places needle text) :=
  match occurrence with
  | .anywhere => inferInstanceAs (Decidable (needle <:+: text))
  | .atStart => inferInstanceAs (Decidable (needle <+: text))
  | .atEnd => inferInstanceAs (Decidable (needle <:+ text))

instance (field : Field) (test : Test) (cell : Option Scalar) :
    Decidable (test.Met field cell) := by
  unfold Test.Met
  split <;> infer_instance

instance (subject : Subject) (relation : Relation) (field : Field) (test : Test) :
    Decidable (subject.SomeItem relation field test) :=
  inferInstanceAs (Decidable (∃ item ∈ subject.items relation, _))

instance (subject : Subject) (test : Test) (resolved : Resolved) :
    Decidable (subject.Meets test resolved) := by
  unfold Subject.Meets
  split
  · infer_instance
  · infer_instance
  · split <;> infer_instance

instance (subject : Subject) (table : AttributeTable) (attr : String) (test : Test) :
    Decidable (subject.MeetsLeaf table attr test) := by
  unfold Subject.MeetsLeaf
  split <;> infer_instance

instance Expr.decidableHolds (table : AttributeTable) (subject : Subject) :
    (expr : Expr) → Decidable (expr.Holds table subject)
  | .join .and lhs rhs =>
    haveI := decidableHolds table subject lhs
    haveI := decidableHolds table subject rhs
    inferInstanceAs (Decidable (_ ∧ _))
  | .join .or lhs rhs =>
    haveI := decidableHolds table subject lhs
    haveI := decidableHolds table subject rhs
    inferInstanceAs (Decidable (_ ∨ _))
  | .compare attr .eq value =>
    inferInstanceAs (Decidable (subject.MeetsLeaf table attr (.equals value)))
  | .search attr occurrence value =>
    inferInstanceAs (Decidable (subject.MeetsLeaf table attr (.occurs occurrence value)))
  | .present attr => inferInstanceAs (Decidable (subject.MeetsLeaf table attr .present))
  | .compare _ .ne _ | .compare _ .gt _ | .compare _ .ge _ | .compare _ .lt _
  | .compare _ .le _ | .group .. | .path .. | .valuePath .. => inferInstanceAs (Decidable False)

end ScimDirectory
