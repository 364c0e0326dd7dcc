import ScimDirectory.Proofs.Directory.Runs
import ScimDirectory.Proofs.Patch.Plans
import ScimDirectory.Proofs.Predicate.Merging

/-!
# Leaving groups

A user is looked for among the members of groups by the text of its key. All members can be
tested, so the groups that have the user are found and left one after the other, and in the end
every member item whose value is that text is gone.
-/

namespace ScimDirectory

namespace Directory

/-- A member item can be tested for a user: its value is the text of the key, or it is not. -/
theorem evaluate_memberIs (user : Uuid) (item : ItemRow) :
    (memberIs [user]).evaluate item.view = .ok (decide (item.value = some user.toText)) := by
  have hread : item.view.read .value = .ok (item.value.map .text) := rfl
  rw [memberIs, List.map_singleton, Predicate.anyOf, Predicate.evaluate, hread]
  cases item.value with
  | none => rfl
  | some value =>
    have hchars : (value.toList == user.toText.toList) = decide (value = user.toText) := by
      rw [Bool.eq_iff_iff, beq_iff_eq, String.toList_inj, decide_eq_true_iff]
    simp [Except.map, cellEquals, comparedChars, hchars]

theorem picks_memberIs (user : Uuid) (item : ItemRow) :
    (memberIs [user]).picks item = decide (item.value = some user.toText) := by
  rw [Predicate.picks, evaluate_memberIs]

/-- Whether a group's row has a user among its members. -/
def hasUser (tables : Tables) (user : Uuid) (group : Row .group) : Bool :=
  (tables.ownedItems group.id .members).any (memberIs [user]).picks

/-- Looking for the groups of a user succeeds. -/
theorem query_hasMember (tables : Tables) (user : Uuid) :
    tables.query .group (some (hasMember (memberIs [user]))) =
      .ok ((((tables.rows .group).filter (hasUser tables user)).mergeSort Tables.inOrder).map
        tables.record) := by
  have htest : ∀ group ∈ tables.rows .group,
      (hasMember (memberIs [user])).evaluate (tables.view group) =
        .ok (hasUser tables user group) := by
    intro group _
    rw [hasMember, Predicate.evaluate]
    refine anyWhere_eq_ok fun item _ => ?_
    rw [picks_memberIs, evaluate_memberIs]
  rw [Tables.query, selectWhere, selectBy_eq_filter htest]
  rfl

end Directory

/-- The tables after a user has left all groups. -/
def Tables.withoutMember (tables : Tables) (user : Uuid) : Tables :=
  tables.without .members (Directory.memberIs [user]).picks

namespace Directory

variable {w : World Tables}

/-- Groups are left one after the other. -/
theorem dropMember_run (hunique : ((w.store.itemsOf .members).map ItemRow.id).Nodup) (user : Uuid)
    (groups : List (Record .group)) :
    (dropMember (memberIs [user]) groups).run w =
      (.ok (), { w with
        store := w.store.without .members fun item =>
          groups.any (fun group => item.owner = group.row.id) && (memberIs [user]).picks item }) := by
  induction groups generalizing w with
  | nil => simp only [List.any_nil, Bool.false_and, Tables.without_none]; rfl
  | cons group groups ih =>
    have hselect : selectBy (memberIs [user]) ItemRow.view
        (w.store.ownedItems group.row.id .members) =
          .ok ((w.store.ownedItems group.row.id .members).filter (memberIs [user]).picks) :=
      selectBy_eq_filter fun item _ => by rw [picks_memberIs, evaluate_memberIs]
    refine (Action.run_reading_bind _ _ w).trans ?_
    dsimp only [Tables.queryItems, selectWhere]
    rw [hselect]
    refine (Action.run_always_bind (Tables.call_deleteItems .members _) _ w).trans ?_
    rw [Patch.deleteItems_selected hunique]
    have hkept : ((({ w with store := w.store.without .members fun item =>
        item.owner = group.row.id ∧ (memberIs [user]).picks item } : World Tables).store.itemsOf
          .members).map ItemRow.id).Nodup := by
      rw [Tables.itemsOf_without, if_pos rfl]
      exact hunique.sublist (List.filter_sublist.map _)
    rw [ih hkept, Tables.without_without]
    have htest : (fun item : ItemRow =>
        decide (item.owner = group.row.id ∧ (memberIs [user]).picks item = true) ||
          (groups.any fun group => decide (item.owner = group.row.id)) &&
            (memberIs [user]).picks item) = fun item =>
        (group :: groups).any (fun group => item.owner = group.row.id) &&
          (memberIs [user]).picks item := by
      funext item
      simp only [Bool.decide_and, Bool.decide_eq_true, List.any_cons, Bool.and_or_distrib_right]
    rw [htest]

/-- A user leaves all groups, and nothing else happens. -/
theorem leaveGroups_run (hsound : w.store.Sound w.draws) (user : Uuid) :
    (leaveGroups user).run w = (.ok (), { w with store := w.store.withoutMember user }) := by
  refine (Action.run_reading_bind
    (Tables.query .group (some (hasMember (memberIs [user]))))
    (fun groups => dropMember (memberIs [user]) groups) w).trans ?_
  rw [query_hasMember]
  refine (dropMember_run (hsound.unique .members) user _).trans ?_
  suffices hleft : w.store.without .members (fun item =>
      ((((w.store.rows .group).filter (hasUser w.store user)).mergeSort Tables.inOrder).map
        w.store.record).any (fun group => item.owner = group.row.id) &&
          (memberIs [user]).picks item) = w.store.withoutMember user by rw [hleft]
  refine Tables.without_congr fun item hmem => ?_
  by_cases hpicks : (memberIs [user]).picks item = true
  · have hstored := Tables.mem_itemsOf.mp hmem
    -- The owner is stored and has the item, so it is among the groups that are found.
    obtain ⟨group, hfind⟩ := Option.isSome_iff_exists.mp (hsound.owners .members item hstored)
    have hid : group.id = item.owner := Tables.id_of_find? hfind
    have hhas : hasUser w.store user group = true :=
      List.any_eq_true.mpr ⟨item, Tables.mem_ownedItems.mpr ⟨hstored, hid.symm⟩, hpicks⟩
    have hgroup := List.mem_filter.mpr ⟨Tables.mem_of_find? hfind, hhas⟩
    have hfound : w.store.record group ∈
        (((w.store.rows .group).filter (hasUser w.store user)).mergeSort Tables.inOrder).map
          w.store.record :=
      List.mem_map_of_mem (List.mem_mergeSort.mpr hgroup)
    rw [hpicks, Bool.and_true]
    refine List.any_eq_true.mpr ⟨w.store.record group, hfound, ?_⟩
    exact decide_eq_true hid.symm
  · simp [hpicks]

end Directory

end ScimDirectory
