/-!
# Resource types

The two types of resource that the directory holds, with the names under which the protocol
knows them.
-/

namespace ScimDirectory

/-- A type of resource. -/
inductive ResourceType where
  /-- Users. -/
  | user
  /-- Groups of users and of other groups. -/
  | group
  deriving DecidableEq

namespace ResourceType

/-- Both resource types. -/
def all : List ResourceType := [.user, .group]

/-- The name in `meta.resourceType` and in the type of a member. -/
def name : ResourceType → String
  | .user => "User"
  | .group => "Group"

/-- The resource type of a name. -/
def named? (name : String) : Option ResourceType := all.find? (·.name == name)

/-- The word for one resource of the type. -/
def noun : ResourceType → String
  | .user => "user"
  | .group => "group"

/-- The schema that a resource declares. -/
def schema : ResourceType → String
  | .user => "urn:ietf:params:scim:schemas:core:2.0:User"
  | .group => "urn:ietf:params:scim:schemas:core:2.0:Group"

/-- The path segment of the resource type's endpoint. -/
def endpoint : ResourceType → String
  | .user => "Users"
  | .group => "Groups"

/-- The storage table of its rows. -/
def table : ResourceType → String
  | .user => "users"
  | .group => "groups"

end ResourceType
end ScimDirectory
