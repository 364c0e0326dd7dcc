import ScimDirectory.Proofs.Directory.Commands
import ScimDirectory.Proofs.Directory.Listing
import ScimDirectory.Proofs.Predicate.Selection
import ScimDirectory.Proofs.Uuid

/-!
# Searching and showing

A search answers with stored resources, each as it is shown by itself but for the groups of a user:
these are looked up for all users of a page at once, and a group that is found by the text of one
user's key is then read for members in any form of a key. So a user is found with a group that is
not shown with the user exactly when no member item of the group has the text of the user's key,
one reads as that key, and one has the text of the key of another user on the page.
-/

namespace ScimDirectory

/-- A query answers with stored records. -/
theorem Tables.mem_recordsInOrder_of_query {tables : Tables} {type : ResourceType}
    {predicate : Option Predicate} {records : List (Record type)}
    (h : tables.query type predicate = .ok records) :
    ∀ record ∈ records, record ∈ tables.recordsInOrder type := by
  obtain ⟨rows, hrows, rfl⟩ := except_map_eq_ok.mp h
  have hsub : rows.Sublist (tables.rows type) := selectWhere_sublist hrows
  intro record hmem
  obtain ⟨row, hrow, rfl⟩ := List.mem_map.mp hmem
  exact Tables.mem_recordsInOrder.mpr ⟨row, hsub.subset (List.mem_mergeSort.mp hrow), rfl⟩

/-- The keys of the users in an answer. -/
def ListResponse.users (response : ListResponse) : List Uuid :=
  response.resources.filterMap fun
    | .user user => user.id.bind Uuid.ofText?
    | .group _ => none

namespace Directory

variable {d : Directory} {type : ResourceType} {w : World Tables} {request : SearchRequest}
  {scope : Scope} {response : ListResponse}

theorem mem_of_matching {wanted : Wanted} {records : List (Record type)}
    (h : (matching type scope wanted).run w = (.ok records, w)) :
    ∀ record ∈ records, record ∈ w.store.recordsInOrder type := by
  have hquery : ∀ {predicate},
      (Action.call (Storage.query type predicate)).run w = (.ok records, w) →
        ∀ record ∈ records, record ∈ w.store.recordsInOrder type := by
    intro predicate hcall
    have hanswer : (w.store.query type predicate).mapError DirectoryError.storage = .ok records :=
      congrArg Prod.fst hcall
    exact Tables.mem_recordsInOrder_of_query (except_mapError_eq_ok.mp hanswer)
  have hnone : (pure [] : Action Tables (List (Record type))).run w = (.ok records, w) →
      ∀ record ∈ records, record ∈ w.store.recordsInOrder type := by
    intro hpure
    cases hpure
    exact fun _ hmem => nomatch hmem
  unfold matching at h
  split at h
  · exact hnone h
  · exact hquery h
  · split at h
    · exact hnone h
    · exact hquery h

/-- Whether a found resource is stored. -/
def Found.Stored (tables : Tables) : Found → Prop
  | .inl record => tables.get? .user (Row.id record.row) = some record
  | .inr record => tables.get? .group (Row.id record.row) = some record

/-- A search that succeeds answers with a page of stored resources. -/
theorem search_eq_ok (hsound : w.store.Sound w.draws)
    (h : ((d.search request scope).run w).1 = .ok response) :
    ∃ page : List Found, (∀ found ∈ page, found.Stored w.store) ∧
      response.resources =
        page.map (d.hit (groupRefs d.config.root (spelling w.store (userIds page)))) := by
  have hrun : ∀ {type} {wanted : Wanted} {records : List (Record type)},
      ((matching type scope wanted).run w).1 = .ok records →
        (matching type scope wanted).run w = (.ok records, w) :=
    fun hanswer => Prod.ext hanswer (reads_matching _ _ _ w)
  rw [search_run] at h
  obtain ⟨_, -, h⟩ := except_bind_eq_ok.mp h
  obtain ⟨found, hfound, h⟩ := except_bind_eq_ok.mp h
  obtain ⟨wanted, -, hfound⟩ := except_bind_eq_ok.mp hfound
  obtain ⟨users, husers, hfound⟩ := except_bind_eq_ok.mp hfound
  obtain ⟨groups, hgroups, hfound⟩ := except_bind_eq_ok.mp hfound
  cases hfound
  rw [answerWith, d.groupsOf_eq (hsound.keys .group)] at h
  cases h
  refine ⟨_, fun found hmem => ?_, rfl⟩
  have hlisted := List.mem_of_mem_drop (List.mem_of_mem_take hmem)
  rcases List.mem_append.mp hlisted with hmem | hmem
  · obtain ⟨record, hrecord, rfl⟩ := List.mem_map.mp hmem
    exact (Tables.mem_recordsInOrder_iff (hsound.keys .user)).mp
      (mem_of_matching (hrun husers) record hrecord)
  · obtain ⟨record, hrecord, rfl⟩ := List.mem_map.mp hmem
    exact (Tables.mem_recordsInOrder_iff (hsound.keys .group)).mp
      (mem_of_matching (hrun hgroups) record hrecord)

/-- A search without a filter finds all records of the types in scope. -/
theorem search_of_no_filter (hsound : w.store.Sound w.draws) (hvalid : request.validate = .ok ())
    (hfilter : request.filter = none) :
    (d.search request scope).run w =
      let found := (if scope.wants .user then (w.store.recordsInOrder .user).map .inl else []) ++
        if scope.wants .group then (w.store.recordsInOrder .group).map .inr else []
      let page := (found.drop (firstIndex request - 1)).take (d.pageSize request)
      (.ok ⟨found.length, firstIndex request,
        page.map (d.hit (groupRefs d.config.root (spelling w.store (userIds page))))⟩, w) := by
  have hmatching : ∀ type, ((matching type scope none).run w).1 =
      .ok (if scope.wants type then w.store.recordsInOrder type else []) := by
    intro type
    unfold matching
    cases scope.wants type <;> rfl
  have hwanted : d.wanted request.filter scope = .ok none := by
    rw [hfilter]
    rfl
  have hfound : d.foundIn w request.filter scope =
      .ok ((if scope.wants .user then (w.store.recordsInOrder .user).map .inl else []) ++
        if scope.wants .group then (w.store.recordsInOrder .group).map .inr else []) := by
    refine except_bind_eq_ok.mpr ⟨none, hwanted, except_bind_eq_ok.mpr ⟨_, hmatching .user,
      except_bind_eq_ok.mpr ⟨_, hmatching .group, ?_⟩⟩⟩
    cases scope.wants .user <;> cases scope.wants .group <;> rfl
  rw [search_run, hvalid, hfound]
  refine congrArg (·, w) ?_
  change d.answerWith request w _ = _
  rw [answerWith, d.groupsOf_eq (hsound.keys .group)]
  rfl

/-- The users of an answer are those on its page. -/
theorem users_of_hits {page : List Found} {groups : Uuid → List GroupRef}
    (h : response.resources = page.map (d.hit groups)) : response.users = userIds page := by
  rw [ListResponse.users, h, List.filterMap_map, userIds]
  congr 1
  funext found
  cases found with
  | inl record =>
    simp only [Function.comp_apply, hit, userView, Option.bind_some, Uuid.ofText?_toText]
  | inr record => rfl

/-- A resource that is there is shown by the text of its key. -/
theorem get_toText (hsound : w.store.Sound w.draws) {id : Uuid} {record : Record type}
    (hget : w.store.get? type id = some record) :
    (d.get type id.toText).run w = (.ok (d.shownOver w.store record), w) := by
  rw [get_run, idOf_eq_ok.mpr (Uuid.ofText?_toText id)]
  dsimp only
  rw [hget]
  exact congrArg (·, w) (d.shown_eq (hsound.keys .group) record)

section

variable {root : ServiceRoot} {tables : Tables} {users : List Uuid} {id : Uuid}

/-- A group that is found by one user is found by all of a page. -/
theorem spelling_sublist (h : id ∈ users) :
    (spelling tables [id]).Sublist (spelling tables users) := by
  refine List.monotone_filter_right _ fun group hspells => ?_
  exact List.any_eq_true.mpr ⟨id, h, by simpa using hspells⟩

/-- A user on a page is given all groups that it has by itself. -/
theorem groupRefs_sublist (h : id ∈ users) :
    (groupRefs root (spelling tables [id]) id).Sublist
      (groupRefs root (spelling tables users) id) :=
  .map _ (.filter _ (spelling_sublist h))

/-- A user on a page is given no other groups exactly when every group that is found by a user of
the page, and has the user as a member, is found by the user. -/
theorem groupRefs_eq_iff (h : id ∈ users) :
    groupRefs root (spelling tables users) id = groupRefs root (spelling tables [id]) id ↔
      ∀ group ∈ tables.recordsInOrder .group, group.admits id →
        (∃ other ∈ users, group.spells other) → group.spells id := by
  constructor
  · intro heq group hmem hadmits ⟨other, hother, hspells⟩
    -- One list is part of the other, so they are the same as soon as they are of one length.
    have hsub : ((spelling tables [id]).filter (Record.admits · id)).Sublist
        ((spelling tables users).filter (Record.admits · id)) := .filter _ (spelling_sublist h)
    have hlength : ((spelling tables [id]).filter (Record.admits · id)).length =
        ((spelling tables users).filter (Record.admits · id)).length := by
      simpa [groupRefs, Record.admits] using (congrArg List.length heq).symm
    have hfound : group ∈ (spelling tables users).filter (Record.admits · id) :=
      List.mem_filter.mpr
        ⟨List.mem_filter.mpr ⟨hmem, List.any_eq_true.mpr ⟨other, hother, hspells⟩⟩, hadmits⟩
    rw [← hsub.eq_of_length hlength] at hfound
    simpa using (List.mem_filter.mp (List.mem_filter.mp hfound).1).2
  · intro hall
    unfold groupRefs spelling
    rw [List.filter_filter, List.filter_filter]
    refine congrArg _ (List.filter_congr fun group hmem => ?_)
    refine Bool.eq_iff_iff.mpr ?_
    simp only [Bool.and_eq_true, List.any_cons, List.any_nil, Bool.or_false]
    refine and_congr_right fun hadmits => ⟨fun hany => ?_, fun hspells => ?_⟩
    · exact hall group hmem hadmits (List.any_eq_true.mp hany)
    · exact List.any_eq_true.mpr ⟨id, h, hspells⟩

end

end Directory

/-- In every directory that can be reached, a group that a search finds is the one that is shown by
its key, and a user that it finds is shown by its key but for the groups, of which the search may
give more. It gives the same exactly when every stored group that has the user as a member, and a
member item with the text of the key of some user on the page, has one with the text of the user's
own key. -/
theorem found_is_shown_iff_spelled (d : Directory) (history : List (Instant × Command))
    (request : SearchRequest) (scope : Scope) (response : ListResponse) (w : World Tables)
    (hw : d.serveAll history (World.fresh Tables.empty) = w)
    (hfound : ((d.search request scope).run w).1 = .ok response) :
    (∀ group, .group group ∈ response.resources → ∃ id : Uuid, group.id = some id.toText ∧
      (d.get .group id.toText).run w = (.ok group, w)) ∧
    ∀ user, .user user ∈ response.resources → ∃ (id : Uuid) (shown : User),
      user.id = some id.toText ∧ (d.get .user id.toText).run w = (.ok shown, w) ∧
      user = { shown with groups := user.groups } ∧ shown.groups.Sublist user.groups ∧
      (user = shown ↔ ∀ group ∈ w.store.recordsInOrder .group, group.admits id →
        (∃ other ∈ response.users, group.spells other) → group.spells id) := by
  have hsound : w.store.Sound w.draws := by
    rw [← hw]
    exact Directory.serveAll_sound (Tables.sound_empty 0) history
  obtain ⟨page, hstored, hhits⟩ := Directory.search_eq_ok hsound hfound
  rw [Directory.users_of_hits hhits, hhits]
  constructor
  · intro group hmem
    obtain ⟨record | record, hrecord, hhit⟩ := List.mem_map.mp hmem <;> cases hhit
    exact ⟨Row.id record.row, rfl, Directory.get_toText hsound (hstored _ hrecord)⟩
  · intro user hmem
    obtain ⟨record | record, hrecord, hhit⟩ := List.mem_map.mp hmem <;> cases hhit
    have hlisted : UserRow.id record.row ∈ Directory.userIds page :=
      List.mem_filterMap.mpr ⟨_, hrecord, rfl⟩
    have hsame : ∀ groups groups', userView d.config.root groups record =
        userView d.config.root groups' record ↔ groups = groups' := fun groups groups' =>
      ⟨congrArg User.groups, fun h => congrArg (userView d.config.root · record) h⟩
    exact ⟨UserRow.id record.row, _, rfl, Directory.get_toText hsound (hstored _ hrecord), rfl,
      Directory.groupRefs_sublist hlisted,
      (hsame _ _).trans (Directory.groupRefs_eq_iff hlisted)⟩

/-- Members that are written as the directory writes keys are found with the groups that they are
shown with. -/
theorem found_is_shown_of_plain_members :
    let d : Directory := ⟨Config.standard, Stamp.utf8 "salt", Filter.parse⟩
    let users := [Uuid.numbered 1, Uuid.numbered 2]
    let team : Group :=
      { Group.named "Team" with members := users.map fun user => .ofType .user user.toText }
    let history : List (Instant × Command) :=
      [(.ofSeconds 0, @Command.create .user none (User.named "alice")),
        (.ofSeconds 1, @Command.create .user none (User.named "bob")),
        (.ofSeconds 2, @Command.create .group none team)]
    let w := d.serveAll history (World.fresh Tables.empty)
    ∃ response, ((d.search .everything .users).run w).1 = .ok response ∧ response.users = users ∧
      ∀ user, .user user ∈ response.resources → ∃ id : Uuid,
        user.id = some id.toText ∧ (d.get .user id.toText).run w = (.ok user, w) := by
  intro d users team history w
  have hsound : w.store.Sound w.draws := Directory.serveAll_sound (Tables.sound_empty 0) history
  have hrun : (d.search .everything .users).run w = _ :=
    Directory.search_of_no_filter hsound rfl rfl
  have horder : (w.store.rows .user).Pairwise fun a b => Tables.inOrder a b = true := by
    decide +kernel
  have hsearch : ((d.search .everything .users).run w).1.toOption.any
      (fun response => response.users = users) = true := by
    rw [hrun, Tables.recordsInOrder_of_pairwise horder]
    decide +kernel
  obtain ⟨response, hfound, husers⟩ := (Option.any_eq_true _ _).mp hsearch
  have hanswer := except_toOption_eq_some.mp hfound
  refine ⟨response, hanswer, of_decide_eq_true husers, fun user hmem => ?_⟩
  obtain ⟨id, shown, hid, hget, -, -, hsame⟩ :=
    (found_is_shown_iff_spelled d history .everything .users response w rfl hanswer).2 user hmem
  have hlisted : id ∈ users := by
    have hread : user.id.bind Uuid.ofText? = some id := by
      rw [hid, Option.bind_some, Uuid.ofText?_toText]
    rw [← of_decide_eq_true husers]
    exact List.mem_filterMap.mpr ⟨_, hmem, hread⟩
  have hspelled : ∀ group ∈ w.store.recordsInOrder .group, ∀ user ∈ users,
      group.spells user = true := by decide +kernel
  obtain rfl := hsame.mpr fun group hgroup _ _ => hspelled group hgroup id hlisted
  exact ⟨id, hid, hget⟩

/-- A member whose key is written without hyphens is found with a group, thanks to another member
on the page, and shown without it. -/
theorem found_user_is_not_shown_of_unhyphenated_member :
    let d : Directory := ⟨Config.standard, Stamp.utf8 "salt", Filter.parse⟩
    let team : Group :=
      { Group.named "Team" with
        members := [.ofType .user "00000000000040008000000000000001",
          .ofType .user (Uuid.numbered 2).toText] }
    let history : List (Instant × Command) :=
      [(.ofSeconds 0, @Command.create .user none (User.named "alice")),
        (.ofSeconds 1, @Command.create .user none (User.named "bob")),
        (.ofSeconds 2, @Command.create .group none team)]
    let w := d.serveAll history (World.fresh Tables.empty)
    ∃ response user, ((d.search .everything .users).run w).1 = .ok response ∧
      .user user ∈ response.resources ∧ user.id = some (Uuid.numbered 1).toText ∧
      ((d.get .user (Uuid.numbered 1).toText).run w).1 ≠ .ok user := by
  intro d team history w
  let isAlice : Hit → Bool
    | .user user => user.id = some (Uuid.numbered 1).toText && user.groups.length = 1
    | .group _ => false
  have hsound : w.store.Sound w.draws := Directory.serveAll_sound (Tables.sound_empty 0) history
  have hrun : (d.search .everything .users).run w = _ :=
    Directory.search_of_no_filter hsound rfl rfl
  have horder : (w.store.rows .user).Pairwise fun a b => Tables.inOrder a b = true := by
    decide +kernel
  have hsearch : ((d.search .everything .users).run w).1.toOption.any
      (fun response => response.resources.any isAlice) = true := by
    rw [hrun, Tables.recordsInOrder_of_pairwise horder]
    decide +kernel
  have hget : ((d.get .user (Uuid.numbered 1).toText).run w).1.toOption.all
      (fun shown => User.groups shown = []) = true := by decide +kernel
  obtain ⟨response, hfound, hany⟩ := (Option.any_eq_true _ _).mp hsearch
  obtain ⟨user | group, hmem, halice⟩ := List.any_eq_true.mp hany
  · obtain ⟨hid, hgroups⟩ := Bool.and_eq_true_iff.mp halice
    refine ⟨response, user, except_toOption_eq_some.mp hfound, hmem, of_decide_eq_true hid,
      fun hshown => ?_⟩
    rw [hshown] at hget
    have hnone : user.groups = [] := of_decide_eq_true hget
    have hone : user.groups.length = 1 := of_decide_eq_true hgroups
    rw [hnone] at hone
    cases hone
  · cases halice

end ScimDirectory
