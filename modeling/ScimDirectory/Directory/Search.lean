import ScimDirectory.Directory.Basic
import ScimDirectory.Directory.SearchRequest

/-!
# Searching the directory

A search compiles its filter once for the resource types in scope. A type without a predicate is
not queried, and when none has one the answer is empty without a call on storage. Users come
before groups, each by time of creation, and the page that is asked for is cut from both.
-/

namespace ScimDirectory.Directory

/-- What a filter asks of the resource types in scope: nothing in particular, or a predicate for
each type that can match. -/
abbrev Wanted := Option Filter.Compiled

/-- The predicates of a search. A filter of nothing but blanks is none. -/
def wanted (d : Directory) (filter : Option String) (scope : Scope) :
    Except DirectoryError Wanted :=
  match filter.map Text.trimmed with
  | none | some "" => .ok none
  | some text =>
    match d.parser .filter text with
    | .error error => .error (.filterText error)
    | .ok expr =>
      match Filter.compile expr (scope.wants .user) (scope.wants .group) with
      | .error error => .error (.filter error)
      | .ok compiled => .ok (some compiled)

/-- The place of the first resource to return, at least one. -/
def firstIndex (request : SearchRequest) : Nat := max (request.startIndex.getD 1) 1

/-- The greatest number of resources to return, within the bound of the settings. -/
def pageSize (d : Directory) (request : SearchRequest) : Nat :=
  min (request.count.getD d.config.defaultPageSize) d.config.maxResults

/-- A resource found in storage. -/
abbrev Found := Record .user ⊕ Record .group

/-- The identifiers of the users among some resources. -/
def userIds (page : List Found) : List Uuid :=
  page.filterMap fun
    | .inl record => some (UserRow.id record.row)
    | .inr _ => none

/-- A resource as it is answered, given the groups of each user. -/
def hit (d : Directory) (groups : Uuid → List GroupRef) : Found → Hit
  | .inl record => .user (userView d.config.root (groups (UserRow.id record.row)) record)
  | .inr record => .group (groupView d.config.root record)

section

variable {σ : Type} [Storage σ]

/-- The records of a type that a search asks for. A type that is not in scope or cannot match is
not queried. -/
def matching (type : ResourceType) (scope : Scope) (wanted : Wanted) :
    Action σ (List (Record type)) :=
  match scope.wants type, wanted with
  | false, _ => return []
  | true, none => Action.call (Storage.query type none)
  | true, some compiled =>
    match compiled.ofType type with
    | none => return []
    | some predicate => Action.call (Storage.query type (some predicate))

/-- Runs a search. -/
def search (d : Directory) (request : SearchRequest) (scope : Scope) :
    Action σ ListResponse := do
  Action.ensure request.validate
  let wanted ← Action.ensure (d.wanted request.filter scope)
  if wanted.any Filter.Compiled.isUnsatisfiable then
    return ⟨0, firstIndex request, []⟩
  else
    let users ← matching .user scope wanted
    let groups ← matching .group scope wanted
    let found : List Found := users.map .inl ++ groups.map .inr
    let page := (found.drop (firstIndex request - 1)).take (d.pageSize request)
    let memberships ← d.groupsOf (userIds page)
    return ⟨found.length, firstIndex request, page.map (d.hit memberships)⟩

end

end ScimDirectory.Directory
