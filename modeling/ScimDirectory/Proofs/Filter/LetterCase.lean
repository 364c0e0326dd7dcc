import ScimDirectory.Filter.Compile
import ScimDirectory.Proofs.Schema.LetterCase
import ScimDirectory.Proofs.Traversal

/-!
# Filters in small letters

A filter whose attribute names are in small letters has the predicates of the filter, or is refused
for the same reason. The values that it compares with are left as they are.
-/

namespace ScimDirectory

open ScimDirectory.Filter

/-- The expression with its attribute names in small letters. -/
def Expr.lowered : Expr → Expr
  | .compare attr comparison value => .compare (Text.lowered attr) comparison value
  | .search attr occurrence value => .search (Text.lowered attr) occurrence value
  | .present attr => .present (Text.lowered attr)
  | .join connective lhs rhs => .join connective lhs.lowered rhs.lowered
  | .group negated inner => .group negated inner.lowered
  | .path attr sub => .path (Text.lowered attr) (sub.map Text.lowered)
  | .valuePath attr filter sub =>
    .valuePath (Text.lowered attr) filter.lowered (sub.map Text.lowered)

/-- The error with the texts that it quotes in small letters. -/
def FilterError.lowered : FilterError → FilterError
  | .lookup error => .lookup error.lowered
  | .unimplemented construct => .unimplemented (Text.lowered construct)
  | .invalidOperator attr operator => .invalidOperator (Text.lowered attr) operator
  | .invalidValue attr detail => .invalidValue (Text.lowered attr) detail
  | .notFilterable attr => .notFilterable (Text.lowered attr)

namespace Filter

variable {field : Field} {attr : String} {test : Test}

/-- What is asked of a field does not depend on how a filter writes the field's name. -/
theorem condition_lowered :
    (condition? field (Text.lowered attr) test).mapError FilterError.lowered =
      (condition? field attr test).mapError FilterError.lowered := by
  unfold condition?
  cases field.filterable with
  | false => simp [Except.mapError, FilterError.lowered]
  | true =>
    cases test with
    | present => rfl
    | equals value =>
      refine mapError_map_congr ?_ _
      unfold scalarOf
      cases field.matching <;> cases value <;> simp [Except.mapError, FilterError.lowered]
    | occurs occurrence value =>
      cases field.isText <;> cases value <;> simp [Except.mapError, FilterError.lowered]

theorem testOn_lowered (resolved : Resolved) :
    (testOn resolved (Text.lowered attr) test).mapError FilterError.lowered =
      (testOn resolved attr test).mapError FilterError.lowered := by
  cases resolved with
  | field field => exact condition_lowered
  | itemField relation field => exact mapError_map_congr condition_lowered _
  | relation relation =>
    cases test with
    | present => rfl
    | equals | occurs =>
      dsimp only [testOn]
      cases (AttributeTable.ofItems relation).field? "value" with
      | some field => exact mapError_map_congr condition_lowered _
      | none => simp [Except.mapError, FilterError.lowered]

/-- A table is tested alike under a name in small letters. -/
theorem testIn_lowered (table : AttributeTable) :
    (testIn table (Text.lowered attr) test).mapError FilterError.lowered =
      (testIn table attr test).mapError FilterError.lowered := by
  unfold testIn
  obtain ⟨resolved, hsmall, hname⟩ | ⟨error, other, hsmall, hname, hsame⟩ :=
    cases_of_mapError_eq (table.resolve_lowered attr)
  · rw [hsmall, hname]
    exact mapError_map_congr (testOn_lowered resolved) _
  · have hunknown := congrArg LookupError.isUnknownAttribute hsame
    rw [LookupError.isUnknownAttribute_lowered, LookupError.isUnknownAttribute_lowered] at hunknown
    rw [hsmall, hname]
    dsimp only
    rw [hunknown]
    split
    · rfl
    · exact congrArg (fun error => Except.error (FilterError.lookup error)) hsame

theorem knows_lowered : knows (Text.lowered attr) = knows attr := by
  funext table
  unfold knows
  obtain ⟨resolved, hsmall, hname⟩ | ⟨error, other, hsmall, hname, -⟩ :=
    cases_of_mapError_eq (table.resolve_lowered attr)
  · rw [hsmall, hname]
  · rw [hsmall, hname]
    rfl

theorem leaf_lowered (wanted others : List AttributeTable) :
    (leaf wanted others (Text.lowered attr) test).mapError FilterError.lowered =
      (leaf wanted others attr test).mapError FilterError.lowered := by
  unfold leaf
  refine mapError_bind_congr (mapError_mapM_congr (fun table => testIn_lowered table) wanted)
    fun places => ?_
  rw [knows_lowered]
  cases wanted with
  | nil => rfl
  | cons first rest =>
    dsimp only
    split
    · simp [Except.mapError, FilterError.lowered, LookupError.lowered]
    · rfl

/-- A filter in small letters has the predicates of the filter, or is refused alike. The induction
is on the filter. -/
theorem predicates_lowered (wanted others : List AttributeTable) (expr : Expr) :
    (predicates wanted others expr.lowered).mapError FilterError.lowered =
      (predicates wanted others expr).mapError FilterError.lowered := by
  induction expr with
  | join connective lhs rhs ihl ihr =>
    exact mapError_bind_congr ihl fun _ => mapError_bind_congr ihr fun _ => rfl
  | compare attr comparison value =>
    cases comparison with
    | eq => exact leaf_lowered wanted others
    | ne | gt | ge | lt | le => rfl
  | search attr occurrence value => exact leaf_lowered wanted others
  | present attr => exact leaf_lowered wanted others
  | group negated inner => cases negated <;> rfl
  | path | valuePath =>
    simp [predicates, Expr.lowered, Except.mapError, FilterError.lowered]

theorem compile_lowered (expr : Expr) (wantUsers wantGroups : Bool) :
    (compile expr.lowered wantUsers wantGroups).mapError FilterError.lowered =
      (compile expr wantUsers wantGroups).mapError FilterError.lowered := by
  cases wantUsers <;> cases wantGroups <;>
    first
    | rfl
    | exact mapError_bind_congr (predicates_lowered _ _ expr) fun _ => rfl

theorem compileItems_lowered (relation : Relation) (expr : Expr) :
    (compileItems relation expr.lowered).mapError FilterError.lowered =
      (compileItems relation expr).mapError FilterError.lowered :=
  mapError_bind_congr (predicates_lowered _ _ expr) fun _ => rfl

end Filter
end ScimDirectory
