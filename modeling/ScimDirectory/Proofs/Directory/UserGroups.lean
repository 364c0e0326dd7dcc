import ScimDirectory.Proofs.Directory.Paging

/-!
# The groups of users

The groups of several users are found by one query, which looks for the texts of all their keys, and
then shared out to the users by reading the members of each group as keys. A user is given only
groups that have it as a member, each of them once, and no group is missed that has the text of the
user's own key.
-/

namespace ScimDirectory

namespace Record

/-- A member item makes a user a member of the group: it does not say that it names a group, and its
value is the user's key in any of the forms of a key. -/
def HasMember (group : Record .group) (user : Uuid) : Prop :=
  ∃ item ∈ group.items .members, item.type ≠ some ResourceType.group.name ∧
    item.value.bind Uuid.ofText? = some user

/-- A member item makes a user a member of the group by the text of its key. -/
def HasPlainMember (group : Record .group) (user : Uuid) : Prop :=
  ∃ item ∈ group.items .members, item.type ≠ some ResourceType.group.name ∧
    item.value = some user.toText

instance (group : Record .group) (user : Uuid) : Decidable (group.HasPlainMember user) :=
  inferInstanceAs (Decidable (∃ item ∈ group.items .members, _))

variable {group : Record .group} {user : Uuid}

theorem admits_iff : group.admits user = true ↔ group.HasMember user := by
  simp only [admits, HasMember, List.any_eq_true, Directory.namesUser, Bool.and_eq_true,
    decide_eq_true_eq]

/-- The text of a key is one of its forms. -/
theorem HasPlainMember.hasMember (h : group.HasPlainMember user) : group.HasMember user := by
  obtain ⟨item, hmem, htype, hvalue⟩ := h
  refine ⟨item, hmem, htype, ?_⟩
  rw [hvalue, Option.bind_some, Uuid.ofText?_toText]

theorem HasPlainMember.spells (h : group.HasPlainMember user) : group.spells user = true := by
  obtain ⟨item, hmem, -, hvalue⟩ := h
  exact List.any_eq_true.mpr ⟨item, hmem, decide_eq_true hvalue⟩

end Record

namespace Directory

variable {tables : Tables} {users : List Uuid} {user : Uuid}

/-- The groups that a user is given when the groups of some users are looked for. -/
def groupsAmong (tables : Tables) (users : List Uuid) (user : Uuid) : List (Record .group) :=
  (spelling tables users).filter (Record.admits · user)

/-- A user is given the groups that have it as a member, as far as they are found by the text of a
key that was looked for. -/
theorem mem_groupsAmong (hkeys : ((tables.rows .group).map Row.id).Nodup)
    {group : Record .group} :
    group ∈ groupsAmong tables users user ↔
      tables.get? .group group.row.id = some group ∧ group.HasMember user ∧
        ∃ other ∈ users, group.spells other = true := by
  rw [groupsAmong, spelling, List.mem_filter, List.mem_filter, Tables.mem_recordsInOrder_iff hkeys,
    List.any_eq_true, Record.admits_iff, and_assoc, and_comm (b := group.HasMember user)]

theorem pairwise_groupsAmong (hkeys : ((tables.rows .group).map Row.id).Nodup) :
    (groupsAmong tables users user).Pairwise fun a b => a.row.orderKey < b.row.orderKey :=
  ((Tables.pairwise_recordsInOrder hkeys).filter _).filter _

/-- No group is given twice. -/
theorem nodup_groupsAmong (hkeys : ((tables.rows .group).map Row.id).Nodup) (users : List Uuid)
    (user : Uuid) :
    ((groupsAmong tables users user).map fun group => group.row.id.toText).Nodup := by
  refine List.pairwise_map.mpr ((pairwise_groupsAmong hkeys).imp_of_mem ?_)
  intro a b ha hb hlt htext
  have hstored := ((mem_groupsAmong hkeys).mp ha).1
  rw [Uuid.toText_injective htext, ((mem_groupsAmong hkeys).mp hb).1] at hstored
  cases hstored
  exact lt_irrefl _ hlt

end Directory

/-- In every directory that can be reached, the lookup of the groups of some users succeeds and reads
only. It gives each of them references to stored groups of which it is a member, in the order of
times of creation and then of keys, no group twice, and among them every stored group that has a
member item with the text of the user's key. -/
theorem groups_of_users_are_sound_and_complete (d : Directory)
    (history : List (Instant × Command)) (users : List Uuid) (w : World Tables)
    (hw : d.serveAll history (World.fresh Tables.empty) = w) :
    ∃ groups : Uuid → List GroupRef, (d.groupsOf users).run w = (.ok groups, w) ∧
      ∀ user ∈ users, ∃ records : List (Record .group),
        groups user = records.map (fun group => GroupRow.toRef d.config.root group.row) ∧
        records.Pairwise (fun a b => a.row.orderKey < b.row.orderKey) ∧
        ((groups user).map GroupRef.value).Nodup ∧
        (∀ group ∈ records,
          w.store.get? .group group.row.id = some group ∧ group.HasMember user) ∧
        ∀ group, w.store.get? .group group.row.id = some group → group.HasPlainMember user →
          group ∈ records := by
  have hsound : w.store.Sound w.draws := by
    rw [← hw]
    exact Directory.serveAll_sound (Tables.sound_empty 0) history
  have hkeys := hsound.keys .group
  refine ⟨_, d.groupsOf_eq hkeys users, fun user huser => ?_⟩
  refine ⟨Directory.groupsAmong w.store users user, rfl, Directory.pairwise_groupsAmong hkeys,
    ?_, fun group hgroup => ?_, fun group hget hplain => ?_⟩
  · have hnodup := Directory.nodup_groupsAmong hkeys users user
    rwa [Directory.groupRefs, List.map_map]
  · have hfound := (Directory.mem_groupsAmong hkeys).mp hgroup
    exact ⟨hfound.1, hfound.2.1⟩
  · exact (Directory.mem_groupsAmong hkeys).mpr
      ⟨hget, hplain.hasMember, user, huser, hplain.spells⟩

/-- Of two users that a group names, one is asked for twice and given the group, and the other is not
given it, because the group says that it is a group. -/
theorem groups_of_users_are_sound_and_complete_of_nested_group :
    let d : Directory := ⟨Config.standard, Stamp.utf8 "salt", Filter.parse⟩
    let alice := Uuid.numbered 1
    let bob := Uuid.numbered 2
    let team : Group :=
      { Group.named "Team" with
        members := [.ofType .user alice.toText, .ofType .group bob.toText] }
    let history : List (Instant × Command) :=
      [(.ofSeconds 0, @Command.create .user none (User.named "alice")),
        (.ofSeconds 1, @Command.create .user none (User.named "bob")),
        (.ofSeconds 2, @Command.create .group none team)]
    let w := d.serveAll history (World.fresh Tables.empty)
    ∃ groups : Uuid → List GroupRef, (d.groupsOf [alice, bob, alice]).run w = (.ok groups, w) ∧
      (∃ ref ∈ groups alice, ref.display = some "Team") ∧ groups bob = [] := by
  intro d alice bob team history w
  have hsound : w.store.Sound w.draws := Directory.serveAll_sound (Tables.sound_empty 0) history
  obtain ⟨groups, hrun, hgroups⟩ :=
    groups_of_users_are_sound_and_complete d history [alice, bob, alice] w rfl
  refine ⟨groups, hrun, ?_, ?_⟩
  · have hteam : (w.store.recordsInOrder .group).any (fun group =>
        group.HasPlainMember alice ∧ GroupRow.displayName group.row = "Team") = true := by
      decide +kernel
    obtain ⟨group, hmem, hgroup⟩ := List.any_eq_true.mp hteam
    obtain ⟨hplain, hname⟩ := of_decide_eq_true hgroup
    obtain ⟨records, hrefs, -, -, -, hcomplete⟩ := hgroups alice (by simp)
    rw [hrefs]
    exact ⟨_, List.mem_map_of_mem (hcomplete group
      ((Tables.mem_recordsInOrder_iff (hsound.keys .group)).mp hmem) hplain), congrArg some hname⟩
  · have hnone : ∀ group ∈ w.store.recordsInOrder .group, group.admits bob = false := by
      decide +kernel
    obtain ⟨records, hrefs, -, -, hstored, -⟩ := hgroups bob (by simp)
    rw [hrefs, List.map_eq_nil_iff, List.eq_nil_iff_forall_not_mem]
    intro group hmem
    obtain ⟨hget, hmember⟩ := hstored group hmem
    have hadmits := hnone group ((Tables.mem_recordsInOrder_iff (hsound.keys .group)).mpr hget)
    rw [Record.admits_iff.mpr hmember] at hadmits
    cases hadmits

end ScimDirectory
