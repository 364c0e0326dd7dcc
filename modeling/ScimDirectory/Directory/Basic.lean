import ScimDirectory.Patch.Apply
import ScimDirectory.Version.Stamp

/-!
# The directory

The uses of a directory of users and groups: create, replace, get, delete and patch. A request
is checked before storage is called, a whole resource is written in one call, and hooks run after
the last write. The time of a use is given with it.
-/

namespace ScimDirectory

/-- A directory: its settings, the salt of its versions and its parser. -/
structure Directory where
  /-- The settings. -/
  config : Config
  /-- The salt of versions. -/
  salt : List UInt8
  /-- How filters and paths are read. -/
  parser : Filter.Parser

namespace Directory

/-- A directory with checked settings. The random salt is used when the settings leave it open. -/
def build (config : Config) (parser : Filter.Parser) (randomSalt : List UInt8) :
    Except ConfigError Directory :=
  config.validate.map fun _ => ⟨config, config.salt.getD randomSalt, parser⟩

/-- What operations need of the directory. -/
def setting (d : Directory) : Patch.Setting := ⟨d.parser, d.config.root⟩

/-- The version of a user's record: that of its view with the stored password. -/
def userStamp (d : Directory) (record : Record .user) : String :=
  let row : UserRow := record.row
  let view := userView d.config.root [] record
  (Stamp.userTag d.salt { view with password := row.password }).header

/-- The version of a group's record: that of its view. -/
def groupStamp (d : Directory) (record : Record .group) : String :=
  (Stamp.groupTag d.salt (groupView d.config.root record)).header

/-- The version of a record. -/
def stamp (d : Directory) : {type : ResourceType} → Record type → String
  | .user, record => d.userStamp record
  | .group, record => d.groupStamp record

/-- Refuses a resource that may not be stored. -/
def validate : {type : ResourceType} → Resource type → Except Violation Unit
  | .user, user => User.validate user
  | .group, group => Group.validate group

/-- The stamped record of a resource. A user is stamped as submitted; a group as its record shows
it, with the URLs that its members have been given. -/
def recordOf (d : Directory) : {type : ResourceType} → Resource type → Uuid → Instant → Instant →
    Nat → Record type
  | .user, user, id, created, now, draw =>
    User.toRecord user id (Stamp.userTag d.salt user).header created now draw
  | .group, group, id, created, now, draw =>
    let record := Group.toRecord d.config.root group id "" created now draw
    record.withRow (Row.withEtag record.row (d.groupStamp record))

/-- The identifier of a text, if it is one. -/
def idOf (type : ResourceType) (id : String) : Except DirectoryError Uuid :=
  match Uuid.ofText? id with
  | some uuid => .ok uuid
  | none => .error (.notFound type.name id)

/-- Refuses a stored version other than the one that the client expects. A star expects any. -/
def checkPrecondition (ifMatch : Option String) (current : String) : Except DirectoryError Unit :=
  match ifMatch.map Text.trimmed with
  | none => .ok ()
  | some expected =>
    if expected = "*" then .ok ()
    else match EntityTag.ofHeader? expected with
      | .error error => .error (.version error)
      | .ok wanted =>
        match EntityTag.ofHeader? current with
        | .ok stored =>
          if stored = wanted then .ok () else .error (.preconditionFailed expected current)
        | .error _ => .error (.preconditionFailed expected current)

/-- The items that name one of some users as a member. -/
def memberIs (users : List Uuid) : Predicate :=
  .anyOf (users.map fun id => .equals .value (.text id.toText) false)

/-- The groups that have such an item. -/
def hasMember (filter : Predicate) : Predicate := .hasItemWhere .members filter

/-- Whether an item makes a user a member. Items that say they name a group do not. -/
def namesUser (id : Uuid) (item : ItemRow) : Bool :=
  item.type ≠ some ResourceType.group.name && (item.value.bind Uuid.ofText?) = some id

/-- The groups among some that have a user as a member. -/
def groupRefs (root : ServiceRoot) (groups : List (Record .group)) (id : Uuid) : List GroupRef :=
  (groups.filter fun group => (group.items .members).any (namesUser id)).map fun group =>
    GroupRow.toRef root group.row

section

variable {σ : Type} [Storage σ] {type : ResourceType}

/-- The groups of some users. Without users storage is not asked. -/
def groupsOf (d : Directory) (users : List Uuid) : Action σ (Uuid → List GroupRef) :=
  if users.isEmpty then return fun _ => []
  else do
    let groups ← Action.call (Storage.query .group (some (hasMember (memberIs users))))
    return groupRefs d.config.root groups

/-- The view of a record. -/
def view (d : Directory) : {type : ResourceType} → Record type → Action σ (Resource type)
  | .user, record => do
    let id := UserRow.id record.row
    let groups ← d.groupsOf [id]
    return userView d.config.root (groups id) record
  | .group, record => return groupView d.config.root record

/-- The view of a record that was just made: no group can have the new user as a member. -/
def newView (d : Directory) : {type : ResourceType} → Record type → Resource type
  | .user, record => userView d.config.root [] record
  | .group, record => groupView d.config.root record

/-- Runs the hooks on a resource that was written. -/
def runHooks (d : Directory) (resource : Resource type) : Action σ Unit := do
  let (notes, answer) := Hook.run resource d.config.hooks
  Action.note notes
  Action.ensure answer

/-- The record with an identifier. -/
def find (type : ResourceType) (uuid : Uuid) (id : String) : Action σ (Record type) := do
  match ← Action.call (Storage.get type uuid) with
  | some record => return record
  | none => throw (.notFound type.name id)

/-- The identifier of a new resource: the one that is given, or the next number. -/
def newId (given : Option Uuid) : Action σ Uuid := fun w =>
  (.ok (given.getD (Uuid.numbered (w.issued + 1))), w)

/-- Counts a number as issued unless an identifier was given. -/
def countId (given : Option Uuid) : Action σ Unit := fun w =>
  (.ok (), if given.isSome then w else { w with issued := w.issued + 1 })

/-- Creates a resource. -/
def create (d : Directory) (now : Instant) (given : Option Uuid) (resource : Resource type) :
    Action σ (Resource type) := do
  Action.check .violation (validate resource)
  let id ← newId given
  let draw ← Action.draw
  let stored ← Action.call (Storage.insert (d.recordOf resource id now now draw))
  countId given
  let created := d.newView stored
  d.runHooks created
  return created

/-- Replaces all that a client may set of a resource. The identifier and the time of creation
stay. -/
def replace (d : Directory) (now : Instant) (id : String) (resource : Resource type)
    (ifMatch : Option String) : Action σ (Resource type) := do
  let uuid ← Action.ensure (idOf type id)
  Action.check .violation (validate resource)
  let current ← find type uuid id
  Action.ensure (checkPrecondition ifMatch (Row.etag current.row))
  let draw ← Action.draw
  let record := d.recordOf resource uuid (Row.created current.row) now draw
  let stored ← Action.call (Storage.replace record)
  let replaced ← d.view stored
  d.runHooks replaced
  return replaced

/-- The resource with an identifier. -/
def get (d : Directory) (type : ResourceType) (id : String) : Action σ (Resource type) := do
  let uuid ← Action.ensure (idOf type id)
  d.view (← find type uuid id)

/-- Removes a user from the members of groups, one group after the other. -/
def dropMember (filter : Predicate) : List (Record .group) → Action σ Unit
  | [] => pure ()
  | group :: groups => do
    let stale ← Action.call (Storage.queryItems .members (Row.id group.row) (some filter))
    let _ ← Action.call (Storage.deleteItems .members (stale.map ItemRow.id))
    dropMember filter groups

/-- Removes a user from all groups. -/
def leaveGroups (user : Uuid) : Action σ Unit := do
  let filter := memberIs [user]
  let groups ← Action.call (Storage.query .group (some (hasMember filter)))
  dropMember filter groups

/-- Deletes a resource. A user that is deleted leaves all groups. -/
def delete (type : ResourceType) (id : String) : Action σ Unit := do
  let uuid ← Action.ensure (idOf type id)
  let existed ← Action.call (Storage.delete type uuid)
  if existed then
    match type with
    | .user => leaveGroups uuid
    | .group => pure ()
  else throw (.notFound type.name id)

/-- The action of some operations on a resource whose row is at hand. -/
def patched (d : Directory) (row : Row type) (operations : List Operation) : Action σ Unit :=
  fun w =>
    let (answer, w, _) := (Patch.applyAll d.setting operations).run (w, row)
    (answer, w)

/-- The row of a record after a patch, with a new version if the settings ask for one. -/
def finished (d : Directory) (now : Instant) (record : Record type) : Row type :=
  let row := Row.withLastModified record.row now
  if d.config.restampOnPatch then Row.withEtag row (d.stamp (record.withRow row)) else row

/-- Applies the operations of a request in order. -/
def patch (d : Directory) (now : Instant) (type : ResourceType) (id : String)
    (request : PatchRequest) : Action σ (Resource type) := do
  Action.check .patch request.validate
  let uuid ← Action.ensure (idOf type id)
  let current ← find type uuid id
  d.patched current.row request.operations
  let record ← find type uuid id
  let row ← Action.call (Storage.update (d.finished now record))
  let patched ← d.view (record.withRow row)
  d.runHooks patched
  return patched

end

end Directory
end ScimDirectory
