import ScimDirectory.Proofs.Directory.Confinement
import ScimDirectory.Proofs.Directory.Derived
import ScimDirectory.Proofs.Uuid

/-!
# Departures

A deleted user leaves groups by the text of its key: the member items whose value is that text go.
Who is a member of a group is read otherwise, as a key in any of its forms. So a deleted user stays
a member of the groups that have it as a member by another form, and only of those.
-/

namespace ScimDirectory

namespace Record

theorem items_withoutMember (group : Record .group) (user : Uuid) :
    (group.withoutMember user).items .members =
      (group.items .members).filter fun item => item.value ≠ some user.toText :=
  @items_childrenOf .group ..

/-- A group that a user has left has it as a member no more exactly when every member item that made
the user a member was the text of its key. -/
theorem admits_withoutMember_eq_false_iff {group : Record .group} {user : Uuid} :
    (group.withoutMember user).admits user = false ↔
      ∀ item ∈ group.items .members, Directory.namesUser user item →
        item.value = some user.toText := by
  rw [admits, items_withoutMember, List.any_eq_false]
  constructor
  · intro hnone item hmem hnames
    by_contra hvalue
    exact hnone item (List.mem_filter.mpr ⟨hmem, decide_eq_true hvalue⟩) hnames
  · intro hspelled item hkept hnames
    obtain ⟨hmem, hvalue⟩ := List.mem_filter.mp hkept
    exact of_decide_eq_true hvalue (hspelled item hmem hnames)

end Record

namespace Directory

variable {w after : World Tables} {id : String}

/-- A user that is deleted leaves all groups. -/
theorem delete_user_eq_ok (hsound : w.store.Sound w.draws)
    (h : (delete .user id).run w = (.ok (), after)) :
    ∃ user, Uuid.ofText? id = some user ∧
      after = { w with store := (w.store.delete .user user).2.withoutMember user } := by
  have hrun := delete_run .user id w
  rw [h] at hrun
  cases hid : idOf .user id with
  | error error =>
    rw [hid] at hrun
    cases hrun
  | ok user =>
    refine ⟨user, idOf_eq_ok.mp hid, ?_⟩
    have hkept := hsound.delete .user user
    rw [hid] at hrun
    dsimp only at hrun
    rcases hdelete : w.store.delete .user user with ⟨_ | _, store⟩
    · rw [hdelete] at hrun
      cases hrun
    · rw [hdelete] at hrun hkept
      have hleave := @leaveGroups_run { w with store } hkept user
      exact congrArg Prod.snd (hrun.trans hleave)

end Directory

/-- In every directory that can be reached, a user that is deleted is gone, and each group is left
with all but the member items whose value is the text of the user's key. So no group has the user as
a member any more exactly when the text of the key was the value of every member item that made the
user a member. -/
theorem deleted_user_is_no_member_iff_spelled (d : Directory) (history : List (Instant × Command))
    (id : String) (w after : World Tables)
    (hw : d.serveAll history (World.fresh Tables.empty) = w)
    (hdelete : (Directory.delete .user id).run w = (.ok (), after)) :
    ∃ user, Uuid.ofText? id = some user ∧ after.store.get? .user user = none ∧
      (∀ key, after.store.get? .group key =
        (w.store.get? .group key).map (·.withoutMember user)) ∧
      ((∀ group ∈ after.store.recordsInOrder .group, group.admits user = false) ↔
        ∀ group ∈ w.store.recordsInOrder .group, ∀ item ∈ group.items .members,
          Directory.namesUser user item → item.value = some user.toText) := by
  have hsound : w.store.Sound w.draws := by
    rw [← hw]
    exact Directory.serveAll_sound (Tables.sound_empty 0) history
  obtain ⟨user, hid, rfl⟩ := Directory.delete_user_eq_ok hsound hdelete
  have hleft : (((w.store.delete .user user).2.withoutMember user).rows .group).map Row.id |>.Nodup :=
    ((hsound.delete .user user).without .members _).keys .group
  have hgroups : ∀ key, ((w.store.delete .user user).2.withoutMember user).get? .group key =
      (w.store.get? .group key).map (·.withoutMember user) := fun key =>
    (Directory.get?_group_deleted ..).trans (Directory.get?_withoutMember ..)
  refine ⟨user, hid, ?_, hgroups, ?_⟩
  · rw [Directory.get?_user_withoutMember]
    exact Tables.get?_delete_self ..
  · constructor
    · intro hnone group hmem
      have hget := (Tables.mem_recordsInOrder_iff (hsound.keys .group)).mp hmem
      refine Record.admits_withoutMember_eq_false_iff.mp (hnone _ ?_)
      rw [Tables.mem_recordsInOrder_iff hleft]
      exact (hgroups group.row.id).trans (congrArg (Option.map _) hget)
    · intro hspelled group hmem
      have hget := (Tables.mem_recordsInOrder_iff hleft).mp hmem
      obtain ⟨old, hold, rfl⟩ := Option.map_eq_some_iff.mp ((hgroups _).symm.trans hget)
      refine Record.admits_withoutMember_eq_false_iff.mpr (hspelled old ?_)
      exact (Tables.mem_recordsInOrder_iff (hsound.keys .group)).mpr hold

/-- A member that is written as the directory writes keys is no member of the group after it is
deleted. -/
theorem deleted_user_is_no_member_of_plain_member :
    let d : Directory := ⟨Config.standard, Stamp.utf8 "salt", Filter.parse⟩
    let team : Group := { Group.named "Team" with
      members := [.ofType .user (Uuid.numbered 1).toText, .ofType .group "else"] }
    let history : List (Instant × Command) :=
      [(.ofSeconds 0, @Command.create .user none (User.named "alice")),
        (.ofSeconds 1, @Command.create .group none team)]
    let w := d.serveAll history (World.fresh Tables.empty)
    ∃ after, (Directory.delete .user (Uuid.numbered 1).toText).run w = (.ok (), after) ∧
      after.store.has .group (.numbered 2) = true ∧
      ∀ group ∈ after.store.recordsInOrder .group, group.admits (.numbered 1) = false := by
  intro d team history w
  have hanswer : ((Directory.delete .user (Uuid.numbered 1).toText).run w).1 = .ok () := by
    rw [← except_toOption_eq_some]
    decide +kernel
  have hthere : ((Directory.delete .user (Uuid.numbered 1).toText).run w).2.store.has .group
      (.numbered 2) = true := by decide +kernel
  refine ⟨_, Prod.ext hanswer rfl, hthere, ?_⟩
  obtain ⟨user, hid, -, -, hiff⟩ :=
    deleted_user_is_no_member_iff_spelled d history _ w _ rfl (Prod.ext hanswer rfl)
  obtain rfl : user = .numbered 1 :=
    Option.some.inj (hid.symm.trans (Uuid.ofText?_toText (.numbered 1)))
  refine hiff.mpr fun group hmem => ?_
  obtain ⟨row, hrow, rfl⟩ := Tables.mem_recordsInOrder.mp hmem
  have hspelled : ∀ row ∈ w.store.rows .group, ∀ item ∈ (w.store.record row).items .members,
      Directory.namesUser (.numbered 1) item → item.value = some (Uuid.numbered 1).toText := by
    decide +kernel
  exact hspelled row hrow

/-- A member that is written without hyphens is still a member of the group after it is deleted. -/
theorem deleted_user_is_member_of_unhyphenated_member :
    let d : Directory := ⟨Config.standard, Stamp.utf8 "salt", Filter.parse⟩
    let team : Group := { Group.named "Team" with
      members := [.ofType .user "00000000000040008000000000000001"] }
    let history : List (Instant × Command) :=
      [(.ofSeconds 0, @Command.create .user none (User.named "alice")),
        (.ofSeconds 1, @Command.create .group none team)]
    let w := d.serveAll history (World.fresh Tables.empty)
    ∃ after, (Directory.delete .user (Uuid.numbered 1).toText).run w = (.ok (), after) ∧
      ∃ group, after.store.get? .group (.numbered 2) = some group ∧
        group.admits (.numbered 1) = true := by
  intro d team history w
  have hanswer : ((Directory.delete .user (Uuid.numbered 1).toText).run w).1 = .ok () := by
    rw [← except_toOption_eq_some]
    decide +kernel
  have hstays : (((Directory.delete .user (Uuid.numbered 1).toText).run w).2.store.get? .group
      (.numbered 2)).any (·.admits (.numbered 1)) = true := by decide +kernel
  obtain ⟨group, hgroup, hadmits⟩ := (Option.any_eq_true _ _).mp hstays
  exact ⟨_, Prod.ext hanswer rfl, group, hgroup, hadmits⟩

end ScimDirectory
