import ScimDirectory.Store.Storage

/-!
# Outages

A storage in front of another one that stops answering some of its calls. Each call that is
rationed succeeds a given number of times and then fails before it does anything. Looking up a
record has a second ration, after which the record is not found.
-/

namespace ScimDirectory

/-- A storage with rations on some of its calls. -/
structure Outage (σ : Type) where
  /-- The storage behind. -/
  inner : σ
  /-- How many more times each rationed call succeeds. -/
  rations : List (String × Nat)

namespace Outage

variable {σ α : Type}

/-- The rations after one more use of a name, unless it is used up. A name without a ration is
never used up. -/
def spend (name : String) : List (String × Nat) → Option (List (String × Nat))
  | [] => some []
  | (other, left) :: rest =>
    if other = name then
      match left with
      | 0 => none
      | left + 1 => some ((other, left) :: rest)
    else (spend name rest).map ((other, left) :: ·)

/-- A call on the storage behind. -/
def pass (call : Call σ α) : Call (Outage σ) α := fun o =>
  let (answer, inner) := call.run o.inner
  (answer, { o with inner })

/-- A call that fails once its ration is used up. -/
def rationed (name : String) (call : Call (Outage σ) α) : Call (Outage σ) α := fun o =>
  match spend name o.rations with
  | none => (.error (.internal (name ++ " unavailable") none), o)
  | some rations => call { o with rations }

/-- A look-up that finds nothing once its ration is used up. -/
def forgetful (name : String) (call : Call (Outage σ) (Option α)) : Call (Outage σ) (Option α) :=
  fun o =>
    match spend name o.rations with
    | none => (.ok none, o)
    | some rations => call { o with rations }

instance [Storage σ] : Storage (Outage σ) where
  insert {type} record := rationed ("insert_" ++ type.noun) (pass (Storage.insert record))
  replace {type} record := rationed ("replace_" ++ type.noun) (pass (Storage.replace record))
  get type id :=
    rationed ("get_" ++ type.noun) <|
      forgetful ("get_" ++ type.noun ++ ".none") (pass (Storage.get type id))
  query type predicate := rationed ("query_" ++ type.table) (pass (Storage.query type predicate))
  update {type} row := rationed ("update_" ++ type.noun) (pass (Storage.update row))
  delete type id := rationed ("delete_" ++ type.noun) (pass (Storage.delete type id))
  queryItems relation owner predicate :=
    rationed "query_items" (pass (Storage.queryItems relation owner predicate))
  insertItem relation item := rationed "insert_item" (pass (Storage.insertItem relation item))
  updateItem relation item := rationed "update_item" (pass (Storage.updateItem relation item))
  deleteItems relation ids := rationed "delete_items" (pass (Storage.deleteItems relation ids))
  deleteAllItems relation owner :=
    rationed "delete_all_items" (pass (Storage.deleteAllItems relation owner))

end Outage
end ScimDirectory
