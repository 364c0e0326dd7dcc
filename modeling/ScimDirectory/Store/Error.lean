/-!
# Storage errors

Storage keeps three refusals apart from all other failures, because callers answer each of them
differently: the row is not there, a query for one row matched several, and a constraint forbids
the write.
-/

namespace ScimDirectory

/-- Why a storage call failed. -/
inductive StoreError where
  /-- A row is not there. -/
  | notFound (entity id : String)
  /-- A query for a single row matched another number of rows. -/
  | notSingular (entity : String) (count : Nat)
  /-- A constraint forbids the write. -/
  | constraint (entity detail : String)
  /-- A query that makes no sense for the table. -/
  | invalidQuery (detail : String)
  /-- Data that a row cannot hold. -/
  | invalidData (detail : String)
  /-- Anything else, perhaps with the text of what caused it. -/
  | internal (detail : String) (cause : Option String)
  deriving DecidableEq

namespace StoreError

/-- The wording of the error. -/
def message : StoreError → String
  | notFound entity id => entity ++ " not found: " ++ id
  | notSingular entity count =>
    entity ++ " query is not singular: " ++ toString count ++ " rows matched"
  | constraint entity detail => "Constraint violation on " ++ entity ++ ": " ++ detail
  | invalidQuery detail => "Invalid query: " ++ detail
  | invalidData detail => "Invalid data: " ++ detail
  | internal detail _ => "Internal storage error: " ++ detail

/-- Whether a row is not there. -/
def isNotFound : StoreError → Bool
  | notFound .. => true
  | _ => false

/-- Whether a query for a single row matched another number of rows. -/
def isNotSingular : StoreError → Bool
  | notSingular .. => true
  | _ => false

/-- Whether a constraint forbids the write. -/
def isConstraint : StoreError → Bool
  | constraint .. => true
  | _ => false

/-- The text of what caused the error. -/
def cause? : StoreError → Option String
  | internal _ cause => cause
  | _ => none

/-- A table has no such column. -/
def unknownColumn (table column : String) : StoreError :=
  invalidQuery ("table " ++ table ++ " has no column " ++ column)

end StoreError
end ScimDirectory
