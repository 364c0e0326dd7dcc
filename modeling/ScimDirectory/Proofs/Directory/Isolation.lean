import ScimDirectory.Proofs.Directory.Commands
import ScimDirectory.Proofs.Store.Records

/-!
# Isolation

A write on behalf of one resource leaves the records of all others as they are: rows are found by
their keys and items by their owners. A user that leaves all groups leaves the records of users
and the rows of groups.
-/

namespace ScimDirectory.Directory

variable {d : Directory} {type other : ResourceType} {id key : Uuid}

/-- A relation of another resource is another relation or has another owner. -/
theorem not_owner_and_relation {relation r : Relation} (hne : ¬(other = type ∧ key = id))
    (hrelation : relation.owner = type) (hr : r.owner = other) : ¬(key = id ∧ r = relation) := by
  rintro ⟨hkey, rfl⟩
  exact hne ⟨hr.symm.trans hrelation, hkey⟩

/-- Revising items of one resource leaves the records of all others. -/
theorem get?_revised_of_not (tables : Tables) {relation : Relation} (test : ItemRow → Bool)
    (updates : Patch.Updates) (hrelation : relation.owner = type)
    (hne : ¬(other = type ∧ key = id)) :
    (tables.rewrite relation (Patch.revised id test updates)).get? other key =
      tables.get? other key :=
  Tables.get?_congr (Tables.find?_mk_items ..) fun _ hr =>
    Patch.ownedItems_revised_of_ne test updates (not_owner_and_relation hne hrelation hr)

/-- The row that a patch ends with has the key that it had. -/
theorem id_finished (d : Directory) (now : Instant) (record : Record type) :
    (d.finished now record).id = record.row.id := by
  unfold finished
  split <;> cases type <;> rfl

/-- A row with a new time and a new version has the items that it had. -/
theorem record_finished (d : Directory) (now : Instant) (tables : Tables) (row : Row type) :
    tables.record (d.finished now (tables.record row)) =
      (tables.record row).withRow (d.finished now (tables.record row)) := by
  have hid : (d.finished now (tables.record row)).id = row.id := id_finished d now _
  rw [Tables.record, hid]
  rfl

/-- A write on behalf of a resource leaves the records of all others. -/
theorem Write.get?_of_not {before after : Stock} (h : d.Write type id before after)
    (hsound : before.1.Sound before.2) (hne : ¬(other = type ∧ key = id)) :
    after.1.get? other key = before.1.get? other key := by
  cases h with
  | draw hmore => rfl
  | create resource now hvalid hwrite =>
    refine Tables.get?_insert_of_not hsound.toWellFormed (d.drawn_recordOf ..) hwrite ?_
    rwa [id_recordOf]
  | replace resource now hfind hvalid hwrite =>
    refine Tables.get?_replace_of_not (d.drawn_recordOf ..) hwrite ?_
    rwa [id_recordOf]
  | delete => exact Tables.get?_delete_of_not _ hne
  | assign updates hfind hassigned hwrite =>
    obtain ⟨-, -, -, rfl⟩ := Tables.update_eq_ok hwrite
    refine Tables.get?_put_of_not _ ?_
    rwa [(Patch.sameSystem_of_assigned hassigned).id, Tables.id_of_find? hfind]
  | add value hrelation hthere hplan =>
    refine Tables.get?_congr (Tables.find?_append ..) fun r hr => ?_
    exact Tables.ownedItems_append_of_ne (Patch.keys_of_additions hplan).2
      (not_owner_and_relation hne hrelation hr)
  | reset value hrelation hthere hplan =>
    refine Tables.get?_congr ((Tables.find?_append ..).trans (Tables.find?_without ..)) fun r hr => ?_
    have hother := not_owner_and_relation hne hrelation hr
    obtain ⟨hrows, -⟩ := Patch.replacements_eq_ok hplan
    rw [Tables.ownedItems_append_of_ne (Patch.keys_of_standIns hrows).2 hother]
    exact Tables.ownedItems_without_of_ne (fun _ htest => of_decide_eq_true htest) hother
  | remove test hrelation =>
    refine Tables.get?_congr (Tables.find?_mk_items ..) fun r hr => ?_
    exact Tables.ownedItems_without_of_ne (fun _ htest => (of_decide_eq_true htest).1)
      (not_owner_and_relation hne hrelation hr)
  | adjust filter field value hrelation hplan =>
    obtain ⟨updates, heq⟩ := Patch.rewrite_adjusted (hsound.unique _) hplan
    rw [heq]
    exact get?_revised_of_not _ _ updates hrelation hne
  | merge filter value hrelation hplan =>
    obtain ⟨updates, heq⟩ := Patch.rewrite_merged (hsound.unique _) hplan
    rw [heq]
    exact get?_revised_of_not _ _ updates hrelation hne
  | finish now hfind hwrite =>
    obtain ⟨-, -, -, rfl⟩ := Tables.update_eq_ok hwrite
    refine Tables.get?_put_of_not _ ?_
    rw [id_finished]
    exact Tables.id_of_find? hfind ▸ hne

/-- Writes on behalf of a resource leave the records of all others. -/
theorem Writes.get?_of_not {before after : Stock} (h : d.Writes type id before after)
    (hsound : before.1.Sound before.2) (hne : ¬(other = type ∧ key = id)) :
    after.1.get? other key = before.1.get? other key := by
  induction h with
  | refl => rfl
  | tail hwrites hwrite ih => exact (hwrite.get?_of_not (Writes.sound hwrites hsound) hne).trans ih

/-- A user that leaves all groups leaves the records of users. -/
theorem get?_user_withoutMember (tables : Tables) (user key : Uuid) :
    (tables.withoutMember user).get? .user key = tables.get? .user key := by
  refine Tables.get?_congr (Tables.find?_without ..) fun relation hrelation => ?_
  have hne : relation ≠ .members := by
    rintro rfl
    cases hrelation
  rw [Tables.withoutMember, Tables.ownedItems_without, if_neg hne]

/-- A group of which a user is taken out keeps its row. -/
theorem get?_group_withoutMember {tables : Tables} {user group : Uuid} {new : Record .group}
    (hget : (tables.withoutMember user).get? .group group = some new) :
    ∃ old, tables.get? .group group = some old ∧ new.row = old.row := by
  obtain ⟨hfind, -⟩ := Tables.get?_eq_some hget
  rw [Tables.withoutMember, Tables.find?_without] at hfind
  exact ⟨tables.record new.row, Tables.get?_of_find? hfind, rfl⟩

/-- Deleting a user leaves of a group what taking the user out leaves. -/
theorem get?_group_deleted (tables : Tables) (user group : Uuid) :
    ((tables.delete .user user).2.withoutMember user).get? .group group =
      (tables.withoutMember user).get? .group group := by
  have hne : ¬(ResourceType.group = .user ∧ group = user) := fun h => nomatch h.1
  refine Tables.get?_congr ?_ fun relation hrelation => ?_
  · simp only [Tables.withoutMember, Tables.find?_without]
    exact tables.find?_delete_of_not hne
  · have howned : ∀ r : Relation, r.owner = .group →
        (tables.delete .user user).2.ownedItems group r = tables.ownedItems group r := by
      intro r hr
      rw [Tables.ownedItems_delete, if_neg fun h => hne ⟨hr.symm.trans h.2.1, h.2.2⟩]
    simp only [Tables.withoutMember, Tables.ownedItems_without, howned .members rfl,
      howned relation hrelation]

/-- A creation leaves under its key what was there, or the record of the resource. -/
theorem get?_create {w : World Tables} (hsound : w.store.Sound w.draws) {now : Instant}
    {given : Option Uuid} {resource : Resource type} {record : Record type}
    (hget : ((d.create now given resource).run w).2.store.get? type (keyFor given w) =
      some record) :
    w.store.get? type (keyFor given w) = some record ∨
      record = d.recordOf resource (keyFor given w) now now w.draws := by
  rw [create_run] at hget
  split at hget
  · exact .inl hget
  · split at hget
    · exact .inl hget
    · next hwrite =>
      have hstored := Tables.get?_insert hsound.toWellFormed (d.drawn_recordOf ..) hwrite
      rw [id_recordOf] at hstored
      exact .inr (Option.some.inj (hget.symm.trans hstored))

/-- A replacement leaves under its key what was there, or the record of the resource with the time
of creation of what was there. -/
theorem get?_replace {w : World Tables} {now : Instant} {text : String}
    (hid : idOf type text = .ok key) {resource : Resource type} {ifMatch : Option String}
    {record : Record type}
    (hget : ((d.replace now text resource ifMatch).run w).2.store.get? type key = some record) :
    w.store.get? type key = some record ∨
      ∃ current, w.store.get? type key = some current ∧
        record = d.recordOf resource key current.row.created now w.draws := by
  rw [replace_run, hid] at hget
  dsimp only at hget
  split at hget
  · exact .inl hget
  · split at hget
    · exact .inl hget
    · next current hcurrent =>
      split at hget
      · exact .inl hget
      · split at hget
        · exact .inl hget
        · next hwrite =>
          rw [store_answered] at hget
          have hstored := Tables.get?_replace (d.drawn_recordOf ..) hwrite
          rw [id_recordOf] at hstored
          exact .inr ⟨current, hcurrent, Option.some.inj (hget.symm.trans hstored)⟩

end ScimDirectory.Directory
