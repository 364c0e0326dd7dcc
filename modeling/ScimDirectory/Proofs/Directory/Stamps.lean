import ScimDirectory.Proofs.Directory.Views
import ScimDirectory.Proofs.Store.Cells

/-!
# Stamps of records

A stamp is computed from a resource when it is stored and from the record when the settings ask
for a new one after a patch. Both give the same version, since the record keeps all that is
stamped, and what the server keeps of a record is not stamped.
-/

namespace ScimDirectory

/-- The record of a user keeps all that is stamped of the user. -/
theorem content_toRecord (root : ServiceRoot) (user : User) (id : Uuid) (etag : String)
    (created now : Instant) (draw : Nat) :
    Stamp.user { userView root [] (user.toRecord id etag created now draw) with
      password := user.password } = Stamp.user user := by
  have hname : Stamp.name (user.name.filter fun name => !name.isEmpty) = Stamp.name user.name := by
    cases user.name with
    | none => rfl
    | some name =>
      cases hempty : name.isEmpty with
      | true =>
        obtain rfl : name = .empty := of_decide_eq_true hempty
        rfl
      | false => simp [Option.filter, hempty]
  rw [userView_toRecord]
  unfold Stamp.user User.served
  dsimp only
  rw [hname]

namespace Directory

variable {type : ResourceType}

/-- A resource is stored with the version of its record. -/
theorem etag_recordOf (d : Directory) (resource : Resource type) (id : Uuid)
    (created now : Instant) (draw : Nat) :
    (d.recordOf resource id created now draw).row.etag =
      d.stamp (d.recordOf resource id created now draw) := by
  cases type with
  | user =>
    have hcontent := content_toRecord d.config.root resource id
      (Stamp.userTag d.salt resource).header created now draw
    have htag := congrArg (fun content => (Stamp.tag d.salt content).header) hcontent
    exact htag.symm
  | group => rfl

/-- The stamp of a record is told by its columns and those of its items. -/
theorem stamp_congr (d : Directory) {a b : Record type} (h : a.SameContent b) :
    d.stamp a = d.stamp b := by
  have hcell : a.row.cell = b.row.cell := funext h.columns
  cases type with
  | user =>
    have hvalues (c : Collection) : (a.items (.values c)).map ItemRow.toValue =
        (b.items (.values c)).map ItemRow.toValue :=
      map_eq_of_cells ItemRow.toValue_congr (h.items (.values c))
    have haddresses := map_eq_of_cells ItemRow.toAddress_congr (h.items .addresses)
    unfold stamp userStamp Stamp.userTag Stamp.user userView
    dsimp only
    rw [UserRow.toProfile_congr hcell, UserRow.name_congr hcell, UserRow.userName_congr hcell,
      haddresses]
    simp only [hvalues]
  | group =>
    have hmembers := map_eq_of_cells ItemRow.toMember_congr (h.items .members)
    unfold stamp groupStamp Stamp.groupTag Stamp.group groupView
    dsimp only
    have hname : some (GroupRow.displayName a.row) = some (GroupRow.displayName b.row) :=
      textCell_inj (congrFun hcell .displayName)
    have hexternal : GroupRow.externalId a.row = GroupRow.externalId b.row :=
      textCell_inj (congrFun hcell .externalId)
    rw [hmembers, hname, hexternal]

/-- The version itself is not stamped. -/
theorem stamp_withEtag (d : Directory) (record : Record type) (row : Row type) (etag : String) :
    d.stamp (record.withRow (Row.withEtag row etag)) = d.stamp (record.withRow row) := by
  cases type <;> rfl

/-- A patch that asks for a new version ends with that of the record. -/
theorem etag_finished (d : Directory) (hrestamp : d.config.restampOnPatch = true) (now : Instant)
    (record : Record type) :
    (d.finished now record).etag = d.stamp (record.withRow (d.finished now record)) := by
  unfold finished
  simp only [hrestamp, if_true, stamp_withEtag]
  cases type <;> rfl

end Directory

end ScimDirectory
