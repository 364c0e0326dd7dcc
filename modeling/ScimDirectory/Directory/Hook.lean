import ScimDirectory.Directory.Error
import ScimDirectory.Resource.Group
import ScimDirectory.Resource.User
import ScimDirectory.Text.Search

/-!
# Hooks

A hook sees every resource after it has been written. Hooks run in order, and the first that
fails ends the run; what was written stays.
-/

namespace ScimDirectory

/-- A resource of a given type. -/
abbrev Resource : ResourceType → Type
  | .user => User
  | .group => Group

/-- What a hook does about a resource: it may leave a note, and it may fail. -/
structure Reaction where
  /-- The note. -/
  note : Option String
  /-- The failure. -/
  failure : Option DirectoryError

/-- No note and no failure. -/
def Reaction.none : Reaction := ⟨.none, .none⟩

/-- A hook. -/
structure Hook where
  /-- The name under which failures are reported. -/
  name : String
  /-- What it does about a user. -/
  afterUser : User → Reaction
  /-- What it does about a group. -/
  afterGroup : Group → Reaction

namespace Hook

/-- A hook that does nothing. -/
def silent (name : String) : Hook := ⟨name, fun _ => .none, fun _ => .none⟩

/-- What a hook does about a resource. -/
def after (hook : Hook) : {type : ResourceType} → Resource type → Reaction
  | .user, user => hook.afterUser user
  | .group, group => hook.afterGroup group

/-- The failure that a run of hooks reports for the failure of one. -/
def report (hook : Hook) : DirectoryError → DirectoryError
  | .hook detail => .hook detail
  | error => .hook (hook.name ++ ": " ++ error.message)

/-- Runs hooks on a resource: their notes in order, and the failure that ended the run. -/
def run {type : ResourceType} (resource : Resource type) :
    List Hook → List String × Except DirectoryError Unit
  | [] => ([], .ok ())
  | hook :: hooks =>
    let reaction := hook.after resource
    match reaction.failure with
    | some error => (reaction.note.toList, .error (hook.report error))
    | none =>
      let (notes, answer) := run resource hooks
      (reaction.note.toList ++ notes, answer)

/-- A hook that notes the name of every resource, and that may fail on those whose name contains a
text. -/
def watching (name part : String) (failure : String → Option DirectoryError) : Hook :=
  let react (noun shown : String) : Reaction :=
    ⟨some (name ++ ":" ++ noun ++ ":" ++ shown),
      if Text.occursIn part.toList shown.toList then failure shown else none⟩
  ⟨name, fun user => react ResourceType.user.noun user.userName,
    fun group => react ResourceType.group.noun group.displayName⟩

end Hook
end ScimDirectory
