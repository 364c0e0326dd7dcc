import ScimDirectory.Proofs.Directory.Writes

/-!
# Views of what was submitted

The record of a resource shows what was submitted: its scalars, the components of its name, and the
items of its collections in their order. What the server adds to it and what it withholds is said
here once, for a user and for a group.
-/

namespace ScimDirectory

/-- A user as it is shown once it was submitted. The password is withheld, and so is a name without
components; the schemas, the identifier, the groups and the metadata are the server's. -/
def User.served (user : User) (id : Uuid) (groups : List GroupRef) (metadata : Meta) : User :=
  { user with
    password := none
    name := user.name.filter fun name => !name.isEmpty
    schemas := [ResourceType.user.schema], id := some id.toText, groups
    metadata := some metadata }

/-- A member with the URL that it has, or else with the one of the resource that it names. -/
def Member.located (root : ServiceRoot) (member : Member) : Member :=
  { member with ref := some (member.url root) }

/-- A group as it is shown once it was submitted. The schemas, the identifier and the metadata are
the server's, and a member without a URL has been given one. -/
def Group.served (root : ServiceRoot) (group : Group) (id : Uuid) (metadata : Meta) : Group :=
  { group with
    members := group.members.map (Member.located root)
    schemas := [ResourceType.group.schema], id := some id.toText, metadata := some metadata }

/-- A row keeps the name of a user, and shows it when it has components. -/
theorem shownName_eq (name : Option PersonName) :
    (if (name.getD .empty).isEmpty then none else some (name.getD .empty)) =
      name.filter fun name => !name.isEmpty := by
  cases name with
  | none => rfl
  | some name => cases hempty : name.isEmpty <;> simp [hempty, Option.filter]

/-- The record of a user shows what was submitted. -/
theorem userView_toRecord (root : ServiceRoot) (groups : List GroupRef) (user : User) (id : Uuid)
    (etag : String) (created now : Instant) (draw : Nat) :
    userView root groups (user.toRecord id etag created now draw) =
      user.served id groups (Row.metadata root (user.toRecord id etag created now draw).row) := by
  have hvalues : ∀ c, ((user.toRecord id etag created now draw).items (.values c)).map
      ItemRow.toValue = user.values c := by
    intro c
    have howner : (Relation.values c).owner = .user := rfl
    rw [User.toRecord, items_childrenOf, if_pos howner]
    exact (map_rowsOf (f := fun v => v) (fun _ _ _ => rfl) draw id _).trans (List.map_id' _)
  have haddresses : ((user.toRecord id etag created now draw).items .addresses).map
      ItemRow.toAddress = user.addresses := by
    have howner : Relation.addresses.owner = .user := rfl
    rw [User.toRecord, items_childrenOf, if_pos howner]
    exact (map_rowsOf (f := fun a => a) (fun _ _ _ => rfl) draw id _).trans (List.map_id' _)
  have hname : ((user.toRecord id etag created now draw).row : UserRow).name =
      user.name.getD .empty := rfl
  unfold userView User.served
  simp only [hvalues, haddresses, hname, shownName_eq]
  rfl

/-- The record of a group shows what was submitted. -/
theorem groupView_toRecord (root : ServiceRoot) (group : Group) (id : Uuid) (etag : String)
    (created now : Instant) (draw : Nat) :
    groupView root (group.toRecord root id etag created now draw) =
      group.served root id (Row.metadata root (group.toRecord root id etag created now draw).row) := by
  have hmembers : ((group.toRecord root id etag created now draw).items .members).map
      ItemRow.toMember = group.members.map (Member.located root) := by
    have howner : Relation.members.owner = .group := rfl
    rw [Group.toRecord, items_childrenOf, if_pos howner]
    exact map_rowsOf (f := Member.located root) (fun _ _ _ => rfl) draw id _
  unfold groupView Group.served
  rw [hmembers]
  rfl

/-- A version is never empty in a header. -/
theorem EntityTag.header_ne_empty (tag : EntityTag) : tag.header ≠ "" := by
  intro h
  have hlength := congrArg String.length h
  simp [header, String.length_append] at hlength

namespace Directory

/-- A resource as it is shown once it was submitted. -/
def served (d : Directory) : {type : ResourceType} → Resource type → Uuid → List GroupRef → Meta →
    Resource type
  | .user, user, id, groups, metadata => User.served user id groups metadata
  | .group, group, id, _, metadata => Group.served d.config.root group id metadata

/-- The metadata of a resource that has a version. -/
def metadataOf (d : Directory) (type : ResourceType) (id : Uuid) (created lastModified : Instant)
    (version : String) : Meta :=
  { resourceType := type.name, created, lastModified
    location := some (d.config.root.url type id.toText), version := some version }

/-- The record that a resource is stored as has a version. -/
theorem metadata_recordOf (d : Directory) {type : ResourceType} (resource : Resource type)
    (id : Uuid) (created now : Instant) (draw : Nat) :
    Row.metadata d.config.root (d.recordOf resource id created now draw).row =
      d.metadataOf type id created now (d.recordOf resource id created now draw).row.etag := by
  have hversion : (d.recordOf resource id created now draw).row.etag ≠ "" := by
    cases type <;> exact EntityTag.header_ne_empty _
  rw [Row.metadata, if_neg hversion]
  cases type <;> rfl

end Directory
end ScimDirectory
