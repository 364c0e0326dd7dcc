import ScimDirectory.Directory.Search

/-!
# Commands

What a client may ask of a directory, as one type, and the reply to each. A history of a directory
is a list of commands, each with the time at which it is carried out; commands that fail are part
of it, because what they did before they failed stays done.
-/

namespace ScimDirectory

/-- What a client may ask of a directory. -/
inductive Command where
  /-- Create a resource, perhaps with a given identifier. -/
  | create {type : ResourceType} (given : Option Uuid) (resource : Resource type)
  /-- Replace a resource, perhaps only if it still has a version. -/
  | replace {type : ResourceType} (id : String) (resource : Resource type)
      (ifMatch : Option String)
  /-- Show a resource. -/
  | get (type : ResourceType) (id : String)
  /-- Delete a resource. -/
  | delete (type : ResourceType) (id : String)
  /-- Apply operations to a resource. -/
  | patch (type : ResourceType) (id : String) (request : PatchRequest)
  /-- Search for resources. -/
  | search (request : SearchRequest) (scope : Scope)

/-- What a directory replies to a command. -/
inductive Reply where
  /-- The resource as it is now. -/
  | resource {type : ResourceType} (resource : Resource type)
  /-- The resource is deleted. -/
  | deleted
  /-- The resources that were found. -/
  | found (response : ListResponse)

namespace Directory

variable {σ : Type} [Storage σ]

/-- The action of a command. -/
def perform (d : Directory) (now : Instant) : Command → Action σ Reply
  | .create given resource => do return .resource (← d.create now given resource)
  | .replace id resource ifMatch => do return .resource (← d.replace now id resource ifMatch)
  | .get type id => do return .resource (← d.get type id)
  | .delete type id => do
    delete type id
    return .deleted
  | .patch type id request => do return .resource (← d.patch now type id request)
  | .search request scope => do return .found (← d.search request scope)

/-- Carries out a command. -/
def serve (d : Directory) (now : Instant) (command : Command) (w : World σ) :
    Except DirectoryError Reply × World σ :=
  (d.perform now command).run w

/-- Carries out commands in order, whether or not those before them fail. -/
def serveAll (d : Directory) (history : List (Instant × Command)) (w : World σ) : World σ :=
  history.foldl (fun w (now, command) => (d.serve now command w).2) w

end Directory
end ScimDirectory
