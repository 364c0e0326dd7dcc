import ScimDirectory.Predicate.Basic
import ScimDirectory.Store.Row
import ScimDirectory.Text.Lowercase
import ScimDirectory.Text.Search

/-!
# Evaluating predicates

A predicate is evaluated on a view of a row: its columns and the items related to it. Parts are
evaluated from left to right and no further than the answer needs, so a part that cannot be
evaluated matters only when it is reached. An item has no relations of its own.
-/

namespace ScimDirectory

/-- What a predicate may read of a row. -/
structure RowView where
  /-- The table, as messages call it. -/
  table : String
  /-- The columns. -/
  cell : Column → Option (Option Scalar)
  /-- The items of a relation. -/
  items : Relation → Except StoreError (List ItemRow)

/-- An item's relations cannot be read. -/
def noRelations (relation : Relation) : Except StoreError (List ItemRow) :=
  .error (.invalidQuery
    (relation.attributeName ++ " cannot be traversed from a collection item"))

/-- The view of an item. -/
def ItemRow.view (item : ItemRow) : RowView := ⟨"items", item.cell, noRelations⟩

/-- The view of a resource row with the items related to it. -/
def Row.view {type : ResourceType} (row : Row type) (items : Relation → List ItemRow) : RowView :=
  ⟨type.table, row.cell, fun relation => .ok (items relation)⟩

/-- The value of a column, or an error when the table lacks it. -/
def RowView.read (view : RowView) (column : Column) : Except StoreError (Option Scalar) :=
  match view.cell column with
  | some cell => .ok cell
  | none => .error (.unknownColumn view.table column.name)

/-- The characters of a text as they are compared. -/
def comparedChars (foldCase : Bool) (s : String) : List Char :=
  (if foldCase then Text.lowercase s else s).toList

/-- Whether a run of characters occurs where it has to. -/
def Occurrence.holds (occurrence : Occurrence) (needle text : List Char) : Bool :=
  match occurrence with
  | .anywhere => Text.occursIn needle text
  | .atStart => needle.isPrefixOf text
  | .atEnd => needle.isSuffixOf text

/-- Whether a cell holds a value. A cell without a value, or with one of the other kind, holds
none. -/
def cellEquals (foldCase : Bool) : Option Scalar → Scalar → Bool
  | some (.text actual), .text wanted =>
    comparedChars foldCase actual == comparedChars foldCase wanted
  | some (.bool actual), .bool wanted => actual == wanted
  | _, _ => false

/-- Whether a text occurs in a cell. -/
def cellHolds (occurrence : Occurrence) (foldCase : Bool) : Option Scalar → String → Bool
  | some (.text actual), wanted =>
    occurrence.holds (comparedChars foldCase wanted) (comparedChars foldCase actual)
  | _, _ => false

/-- Whether a test succeeds on some element. Elements are tested in order, up to the first success
or the first that cannot be tested. -/
def anyWhere {α : Type} (test : α → Except StoreError Bool) : List α → Except StoreError Bool
  | [] => .ok false
  | x :: xs =>
    match test x with
    | .ok false => anyWhere test xs
    | answer => answer

namespace Predicate

mutual

/-- Whether a predicate holds of a row. -/
def evaluate : Predicate → RowView → Except StoreError Bool
  | .equals column value foldCase, view =>
    (view.read column).map (cellEquals foldCase · value)
  | .occurs occurrence column text foldCase, view =>
    (view.read column).map (cellHolds occurrence foldCase · text)
  | .notNull column, view => (view.read column).map Option.isSome
  | .hasItem relation, view => (view.items relation).map (!·.isEmpty)
  | .hasItemWhere relation filter, view =>
    (view.items relation).bind (anyWhere fun item => evaluate filter item.view)
  | .and parts, view => evaluateAll parts view
  | .or parts, view => evaluateAny parts view
  | .not part, view => (evaluate part view).map (!·)

/-- Whether all parts hold, up to the first that does not. -/
def evaluateAll : List Predicate → RowView → Except StoreError Bool
  | [], _ => .ok true
  | p :: ps, view =>
    match evaluate p view with
    | .ok true => evaluateAll ps view
    | answer => answer

/-- Whether some part holds, up to the first that does. -/
def evaluateAny : List Predicate → RowView → Except StoreError Bool
  | [], _ => .ok false
  | p :: ps, view =>
    match evaluate p view with
    | .ok false => evaluateAny ps view
    | answer => answer

end

end Predicate

/-- The elements that satisfy a predicate, each through its view and in order. An element that
cannot be tested makes the whole selection fail. -/
def selectBy {α : Type} (p : Predicate) (view : α → RowView) : List α → Except StoreError (List α)
  | [] => .ok []
  | x :: xs =>
    match p.evaluate (view x) with
    | .error error => .error error
    | .ok keep => (selectBy p view xs).map fun kept => if keep then x :: kept else kept

/-- The elements that satisfy a predicate, or all of them when there is none. -/
def selectWhere {α : Type} (predicate : Option Predicate) (view : α → RowView) (rows : List α) :
    Except StoreError (List α) :=
  match predicate with
  | none => .ok rows
  | some p => selectBy p view rows

end ScimDirectory
