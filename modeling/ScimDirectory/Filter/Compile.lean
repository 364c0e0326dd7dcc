import ScimDirectory.Filter.Expr
import ScimDirectory.Predicate.Basic
import ScimDirectory.Schema.Lookup

/-!
# Compiling filters

A filter becomes one predicate for each wanted resource type. A type that lacks an attribute
cannot match a condition on it, and then gets no predicate: a conjunction needs both sides, a
disjunction either. An attribute that only an unwanted type has is lacking everywhere; one that
no type has is an error.
-/

namespace ScimDirectory

/-- Why a filter has no predicates. -/
inductive FilterError where
  /-- A name stands for nothing. -/
  | lookup (error : LookupError)
  /-- A construct that searches do not support. -/
  | unimplemented (construct : String)
  /-- An operator that the attribute does not admit. -/
  | invalidOperator (attr operator : String)
  /-- A value that the attribute cannot have. -/
  | invalidValue (attr detail : String)
  /-- An attribute that filters may not name. -/
  | notFilterable (attr : String)
  deriving DecidableEq

/-- The wording of the error. -/
def FilterError.message : FilterError → String
  | .lookup error => error.message
  | .unimplemented construct => construct ++ " is not implemented"
  | .invalidOperator attr operator =>
    "operator '" ++ operator ++ "' is not valid for attribute '" ++ attr ++ "'"
  | .invalidValue attr detail => "invalid comparison value for '" ++ attr ++ "': " ++ detail
  | .notFilterable attr => "attribute '" ++ attr ++ "' cannot be used in a filter"

namespace Filter

/-- What a leaf of a filter asks of its attribute. -/
inductive Test where
  /-- It has a value. -/
  | present
  /-- It equals a value. -/
  | equals (value : Literal)
  /-- A value occurs in it. -/
  | occurs (occurrence : Occurrence) (value : Literal)

/-- The operator of a test. -/
def Test.operator : Test → String
  | present => "pr"
  | equals _ => Comparison.eq.operator
  | occurs occurrence _ => occurrence.operator

/-- The scalar that a field's values are compared with. -/
def scalarOf (field : Field) (attr : String) (value : Literal) : Except FilterError Scalar :=
  match field.matching, value with
  | .boolean, .bool b => .ok (.bool b)
  | .ignoringCase, .text s | .exact, .text s => .ok (.text s)
  | .boolean, value =>
    .error (.invalidValue attr ("expected a boolean literal, got " ++ value.kindName))
  | _, value => .error (.invalidValue attr ("expected a string literal, got " ++ value.kindName))

/-- The predicate of a test on a field. -/
def condition? (field : Field) (attr : String) (test : Test) : Except FilterError Predicate :=
  if !field.filterable then .error (.notFilterable attr)
  else match test with
    | .present =>
      .ok (if field.isText then .presentText field.column else .notNull field.column)
    | .equals value =>
      (scalarOf field attr value).map fun scalar => .equals field.column scalar field.foldsCase
    | .occurs occurrence value =>
      if !field.isText then .error (.invalidOperator attr occurrence.operator)
      else match value with
        | .text s => .ok (.occurs occurrence field.column s field.foldsCase)
        | value =>
          .error (.invalidValue attr ("expected a string literal, got " ++ value.kindName))

/-- The predicate of a test on what an attribute name stands for. A whole relation is tested by
the values of its items, unless the test only asks for an item. -/
def testOn (resolved : Resolved) (attr : String) (test : Test) : Except FilterError Predicate :=
  match resolved with
  | .field field => condition? field attr test
  | .itemField relation field => (condition? field attr test).map (.hasItemWhere relation)
  | .relation relation =>
    match test with
    | .present => .ok (.hasItem relation)
    | test =>
      match (AttributeTable.ofItems relation).field? "value" with
      | some field => (condition? field attr test).map (.hasItemWhere relation)
      | none => .error (.invalidOperator attr test.operator)

/-- The predicate of a test for the resources of one table: none when the table lacks the
attribute. -/
def testIn (table : AttributeTable) (attr : String) (test : Test) :
    Except FilterError (Option Predicate) :=
  match table.resolve attr with
  | .ok resolved => (testOn resolved attr test).map some
  | .error error => if error.isUnknownAttribute then .ok none else .error (.lookup error)

/-- Whether a table has an attribute. -/
def knows (attr : String) (table : AttributeTable) : Bool := (table.resolve attr).isOk

/-- The predicates of a leaf, one place for each wanted table. The attribute has to be known to
one of the wanted or of the other tables. -/
def leaf (wanted others : List AttributeTable) (attr : String) (test : Test) :
    Except FilterError (List (Option Predicate)) := do
  let predicates ← wanted.mapM (testIn · attr test)
  match wanted with
  | first :: _ =>
    if predicates.all Option.isNone && !others.any (knows attr) then
      .error (.lookup (.unknownAttribute first.name attr))
    else .ok predicates
  | [] => .ok predicates

/-- The parts of a predicate under a connective: those of the same connective are spliced. -/
def parts (connective : Connective) (p : Predicate) : List Predicate :=
  match connective, p with
  | .and, .and ps => ps
  | .or, .or ps => ps
  | _, p => [p]

/-- Two predicates joined by a connective, without nesting one in itself. -/
def merge (connective : Connective) (p q : Predicate) : Predicate :=
  match connective with
  | .and => .and (parts .and p ++ parts .and q)
  | .or => .or (parts .or p ++ parts .or q)

/-- Two places joined by a connective. A place without a predicate matches nothing. -/
def combine (connective : Connective) (p q : Option Predicate) : Option Predicate :=
  match connective, p, q with
  | connective, some p, some q => some (merge connective p q)
  | .and, _, _ => none
  | .or, p, q => p.or q

/-- The predicates of a filter, one place for each wanted table. -/
def predicates (wanted others : List AttributeTable) :
    Expr → Except FilterError (List (Option Predicate))
  | .join connective lhs rhs => do
    let ps ← predicates wanted others lhs
    let qs ← predicates wanted others rhs
    return ps.zipWith (combine connective) qs
  | .compare attr .eq value => leaf wanted others attr (.equals value)
  | .compare _ comparison _ =>
    .error (.unimplemented ("the '" ++ comparison.operator ++ "' operator"))
  | .search attr occurrence value => leaf wanted others attr (.occurs occurrence value)
  | .present attr => leaf wanted others attr .present
  | .group true _ => .error (.unimplemented "'not' expressions")
  | .group false _ => .error (.unimplemented "parenthesized expressions")
  | .path attr _ | .valuePath attr .. =>
    .error (.unimplemented ("the value filter on '" ++ attr ++ "'"))

/-- The predicates of a filter for users and for groups; none for a type that is not wanted or
cannot match. -/
structure Compiled where
  /-- The predicate for users. -/
  users : Option Predicate
  /-- The predicate for groups. -/
  groups : Option Predicate

/-- The predicate for a resource type. -/
def Compiled.ofType (compiled : Compiled) : ResourceType → Option Predicate
  | .user => compiled.users
  | .group => compiled.groups

/-- Whether no resource type can match. -/
def Compiled.isUnsatisfiable (compiled : Compiled) : Bool :=
  compiled.users.isNone && compiled.groups.isNone

/-- Compiles a filter for the wanted resource types. -/
def compile (expr : Expr) (wantUsers wantGroups : Bool) : Except FilterError Compiled :=
  match wantUsers, wantGroups with
  | false, false => .ok ⟨none, none⟩
  | true, false => do
    let ps ← predicates [.user] [.group] expr
    return ⟨ps[0]?.join, none⟩
  | false, true => do
    let ps ← predicates [.group] [.user] expr
    return ⟨none, ps[0]?.join⟩
  | true, true => do
    let ps ← predicates [.user, .group] [] expr
    return ⟨ps[0]?.join, ps[1]?.join⟩

/-- Compiles the filter of a value path for the items of a relation. -/
def compileItems (relation : Relation) (expr : Expr) : Except FilterError Predicate := do
  let ps ← predicates [.ofItems relation] [] expr
  match ps.getLast?.join with
  | some p => return p
  | none => .error (.unimplemented ("empty " ++ relation.attributeName ++ " filter"))

end Filter
end ScimDirectory
