import ScimDirectory.Proofs.Directory.Versions

/-!
# Confinement of commands

A command that writes is addressed to one resource, and whether it succeeds or fails halfway, it
leaves the records of all others as they are. Only the deletion of a user reaches further: groups
lose the member items that name the user, and nothing else. What a replacement or a patch leaves of
the resource itself has the key and the time of creation that it had.
-/

namespace ScimDirectory

/-- The record of a group without the member items of a user, the others in their order. -/
def Record.withoutMember (record : Record .group) (user : Uuid) : Record .group :=
  { record with
    children := childrenOf (Relation.ofType .group) fun relation =>
      (record.items relation).filter fun item => item.value ≠ some user.toText }

/-- The key of a record and the time when it was made. -/
def Record.origin {type : ResourceType} (record : Record type) : Uuid × Instant :=
  (record.row.id, record.row.created)

namespace Command

/-- The resource that a command writes on behalf of: a new one, or the one that it names. -/
def addressed? (w : World Tables) : Command → Option (ResourceType × Uuid)
  | @create type given _ => some (type, Directory.keyFor given w)
  | @replace type id _ _ => (Uuid.ofText? id).map (type, ·)
  | .delete type id => (Uuid.ofText? id).map (type, ·)
  | .patch type id _ => (Uuid.ofText? id).map (type, ·)
  | .get .. | .search .. => none

/-- Whether a command writes a resource anew that is there, under an identifier. -/
def Rewrites (type : ResourceType) (id : String) : Command → Prop
  | @replace other key _ _ => other = type ∧ key = id
  | .patch other key _ => other = type ∧ key = id
  | _ => False

end Command

namespace Directory

variable {d : Directory} {type other : ResourceType} {w : World Tables} {id : String}
  {uuid key : Uuid}

/-- A group of which a user is taken out keeps all but the member items of the user. -/
theorem get?_withoutMember (tables : Tables) (user group : Uuid) :
    (tables.withoutMember user).get? .group group =
      (tables.get? .group group).map (·.withoutMember user) := by
  have hfind : (tables.withoutMember user).find? .group group = tables.find? .group group :=
    Tables.find?_without ..
  cases hrow : tables.find? .group group with
  | none => rw [Tables.get?, Tables.get?, hfind, hrow, Option.map_none, Option.map_none,
      Option.map_none]
  | some row =>
    rw [Tables.get?_of_find? hrow, Tables.get?_of_find? (hfind.trans hrow), Option.map_some,
      Tables.record, Record.withoutMember]
    congr 2
    refine childrenOf_congr fun relation hmem => ?_
    obtain rfl : relation = .members := List.mem_singleton.mp hmem
    have hitems : (tables.record row).items .members = tables.ownedItems row.id .members := by
      rw [Tables.record, items_childrenOf, if_pos (Relation.mem_ofType.mp hmem)]
    rw [Tables.withoutMember, Tables.ownedItems_without, if_pos rfl, hitems]
    refine List.filter_congr fun item _ => ?_
    rw [picks_memberIs, decide_not]

/-- What a deletion leaves of resources other than the deleted one. -/
theorem get?_deleted_of_not (tables : Tables) (hne : ¬(other = type ∧ key = uuid)) :
    (deleted type uuid tables).get? other key = tables.get? other key ∨
      other = .group ∧ type = .user ∧
        (deleted type uuid tables).get? .group key =
          (tables.get? .group key).map (·.withoutMember uuid) := by
  cases type with
  | group => exact .inl (Tables.get?_delete_of_not _ hne)
  | user =>
    unfold deleted
    dsimp only
    split
    · cases other with
      | user =>
        left
        rw [get?_user_withoutMember]
        exact Tables.get?_delete_of_not _ hne
      | group => exact .inr ⟨rfl, rfl, (get?_group_deleted ..).trans (get?_withoutMember ..)⟩
    · exact .inl rfl

/-- Every command leaves the records of resources that it is not addressed to, but for a deleted
user's member items. -/
theorem get?_serve_of_not (hsound : w.store.Sound w.draws) (now : Instant) (command : Command)
    (hne : command.addressed? w ≠ some (other, key)) :
    (d.serve now command w).2.store.get? other key = w.store.get? other key ∨
      ∃ id user, other = .group ∧ command = .delete .user id ∧ Uuid.ofText? id = some user ∧
        (d.serve now command w).2.store.get? .group key =
          (w.store.get? .group key).map (·.withoutMember user) := by
  rw [serve_world]
  -- Writes on behalf of the addressed resource leave the others.
  have hwrites : ∀ {type uuid} {after : World Tables},
      command.addressed? w = some (type, uuid) → d.Writes type uuid w.stock after.stock →
        after.store.get? other key = w.store.get? other key := by
    intro type uuid after haddressed hwrites
    refine @Writes.get?_of_not d type other uuid key w.stock after.stock hwrites hsound ?_
    rintro ⟨rfl, rfl⟩
    exact hne haddressed
  cases command with
  | create given resource => exact .inl (hwrites rfl (create_writes d now given resource w))
  | @replace type id resource ifMatch =>
    left
    dsimp only
    cases hkey : Uuid.ofText? id with
    | none => rw [replace_run, idOf_eq_error hkey]
    | some uuid =>
      have haddressed : (Command.replace id resource ifMatch).addressed? w = some (type, uuid) := by
        rw [Command.addressed?, hkey, Option.map_some]
      exact hwrites haddressed (replace_writes d now (idOf_eq_ok.mpr hkey) resource ifMatch w)
  | get type id => exact .inl rfl
  | delete type id =>
    dsimp only
    cases hkey : Uuid.ofText? id with
    | none =>
      left
      rw [delete_run, idOf_eq_error hkey]
    | some uuid =>
      rw [store_delete hsound (idOf_eq_ok.mpr hkey)]
      have hother : ¬(other = type ∧ key = uuid) := by
        rintro ⟨rfl, rfl⟩
        exact hne (by rw [Command.addressed?, hkey, Option.map_some])
      rcases get?_deleted_of_not w.store hother with hsame | ⟨hgroup, rfl, hleft⟩
      · exact .inl hsame
      · exact .inr ⟨id, uuid, hgroup, rfl, hkey, hleft⟩
  | patch type id request =>
    left
    dsimp only
    cases hkey : Uuid.ofText? id with
    | none =>
      rw [patch_run, idOf_eq_error hkey]
      split <;> rfl
    | some uuid =>
      have haddressed : (Command.patch type id request).addressed? w = some (type, uuid) := by
        rw [Command.addressed?, hkey, Option.map_some]
      exact hwrites haddressed (patch_writes hsound now (idOf_eq_ok.mpr hkey) request)
  | search request scope => exact .inl rfl

/-- A replacement keeps the key and the time of creation. -/
theorem origin_replace (now : Instant)
    (hkey : Uuid.ofText? id = some uuid) (resource : Resource type) (ifMatch : Option String) :
    (((d.replace now id resource ifMatch).run w).2.store.get? type uuid).map Record.origin =
      (w.store.get? type uuid).map Record.origin := by
  rw [replace_run, idOf_eq_ok.mpr hkey]
  dsimp only
  split
  · rfl
  · cases hget : w.store.get? type uuid with
    | none =>
      dsimp only
      rw [hget]
    | some current =>
      dsimp only
      split
      · rw [hget]
      · split
        · rw [hget]
        · next hwrite =>
          have hstored := Tables.get?_replace (d.drawn_recordOf ..) hwrite
          rw [id_recordOf] at hstored
          rw [store_answered, hstored]
          have hid : current.row.id = uuid := Tables.id_of_find? (Tables.get?_eq_some hget).1
          simp only [Option.map_some, Record.origin, id_recordOf, hid]
          cases type <;> rfl

/-- The row that a patch ends with was made when it was. -/
theorem created_finished (d : Directory) (now : Instant) (record : Record type) :
    (d.finished now record).created = record.row.created := by
  unfold finished
  split <;> cases type <;> rfl

/-- A patch ends with the version that was there unless the settings ask for a new one. -/
theorem etag_finished_of_not (hkeep : d.config.restampOnPatch = false) (now : Instant)
    (record : Record type) : (d.finished now record).etag = record.row.etag := by
  unfold finished
  rw [hkeep]
  cases type <;> rfl

/-- A patch, whether it succeeds or fails halfway, keeps what does not depend on more of the row
than its key, its time of creation, and its version if the settings ask for no new one. -/
theorem map_patch {α : Type} (shows : Record type → α)
    (hshows : ∀ old new : Record type, new.row.id = old.row.id →
      new.row.created = old.row.created →
      (d.config.restampOnPatch = false → new.row.etag = old.row.etag) → shows new = shows old)
    (hsound : w.store.Sound w.draws) (now : Instant) (hkey : Uuid.ofText? id = some uuid)
    (request : PatchRequest) :
    (((d.patch now type id request).run w).2.store.get? type uuid).map shows =
      (w.store.get? type uuid).map shows := by
  rw [patch_run, idOf_eq_ok.mpr hkey]
  dsimp only
  split
  · rfl
  · cases hget : w.store.get? type uuid with
    | none =>
      dsimp only
      rw [hget]
    | some current =>
      dsimp only
      rcases hrun : (d.patched current.row request.operations).run w with ⟨answer, w'⟩
      obtain ⟨rfl, _, htrace⟩ := patched_trace hsound hget hrun
      obtain ⟨stored, hfind, hsame⟩ := htrace.kept
      cases answer with
      | error e =>
        dsimp only
        rw [Tables.get?_of_find? hfind, Option.map_some, Option.map_some]
        exact congrArg some (hshows current _ hsame.id hsame.created fun _ => hsame.etag)
      | ok _ =>
        dsimp only
        have hid : (d.finished now (w'.store.record stored)).id = current.row.id :=
          (id_finished d now _).trans hsame.id
        have hput := w'.store.get?_put (d.finished now (w'.store.record stored))
        rw [hid] at hput
        rw [store_concluded (Writes.sound htrace.writes hsound) now id hfind, hput,
          Option.map_some, Option.map_some]
        refine congrArg some (hshows current _ hid ?_ fun hkeep => ?_)
        · exact (created_finished d now _).trans hsame.created
        · exact (etag_finished_of_not hkeep now _).trans hsame.etag

end Directory

/-- In every directory that can be reached, a command leaves the records of all resources that it
is not addressed to, whether it succeeds or fails: rows and items, in their order. The only
exception is that the deletion of a user may take out of a group the member items whose value is
the text of the user's key. A replacement or a patch keeps the key and the time of creation of the
resource that it is addressed to, and a patch keeps its version unless the settings ask for a new
one. -/
theorem commands_are_confined (d : Directory) (history : List (Instant × Command)) (now : Instant)
    (command : Command) :
    let before := d.serveAll history (World.fresh Tables.empty)
    let after := (d.serve now command before).2
    (∀ other key, command.addressed? before ≠ some (other, key) →
      after.store.get? other key = before.store.get? other key ∨
        ∃ id user, other = .group ∧ command = .delete .user id ∧ Uuid.ofText? id = some user ∧
          after.store.get? .group key = (before.store.get? .group key).map (·.withoutMember user)) ∧
    (∀ type id uuid, command.Rewrites type id → Uuid.ofText? id = some uuid →
      (after.store.get? type uuid).map Record.origin =
        (before.store.get? type uuid).map Record.origin) ∧
    (d.config.restampOnPatch = false → ∀ type id uuid request, command = .patch type id request →
      Uuid.ofText? id = some uuid →
        (after.store.get? type uuid).map (fun record => record.row.etag) =
          (before.store.get? type uuid).map fun record => record.row.etag) := by
  intro before after
  have hsound : before.store.Sound before.draws :=
    Directory.serveAll_sound (Tables.sound_empty 0) history
  refine ⟨fun other key hne => Directory.get?_serve_of_not hsound now command hne, ?_, ?_⟩
  · intro type id uuid hrewrites hkey
    have hafter : after = (d.serve now command before).2 := rfl
    rw [hafter, Directory.serve_world]
    cases command with
    | replace other resource ifMatch =>
      obtain ⟨rfl, rfl⟩ := hrewrites
      exact Directory.origin_replace now hkey resource ifMatch
    | patch other key request =>
      obtain ⟨rfl, rfl⟩ := hrewrites
      exact Directory.map_patch Record.origin
        (fun _ _ hid hcreated _ => Prod.ext hid hcreated) hsound now hkey request
    | create | get | delete | search => cases hrewrites
  · rintro hkeep type id uuid request rfl hkey
    have hafter : after = (d.serve now (.patch type id request) before).2 := rfl
    rw [hafter, Directory.serve_world]
    exact Directory.map_patch (fun record => record.row.etag)
      (fun _ _ _ _ hetag => hetag hkeep) hsound now hkey request

/-- A deleted user is taken out of a group, and a patch of the group that fails halfway keeps the
group's version. -/
theorem commands_are_confined_of_team :
    let d : Directory := ⟨Config.standard, Stamp.utf8 "salt", Filter.parse⟩
    let team : Group := { Group.named "Team" with
      members := [.ofType .user (Uuid.numbered 1).toText, .ofType .group "else"] }
    let history : List (Instant × Command) :=
      [(.ofSeconds 0, @Command.create .user none (User.named "alice")),
        (.ofSeconds 1, @Command.create .group none team)]
    let before := d.serveAll history (World.fresh Tables.empty)
    let deletion : Command := .delete .user (Uuid.numbered 1).toText
    let id := (Uuid.numbered 2).toText
    let request : PatchRequest :=
      .ofOperations [.replace "displayName" (.text "Crew"), .remove "id"]
    let deleted := (d.serve (.ofSeconds 2) deletion before).2
    let patched := (d.serve (.ofSeconds 2) (.patch .group id request) before).2
    (deletion.addressed? before ≠ some (.group, .numbered 2) ∧
      deleted.store.get? .group (.numbered 2) =
        (before.store.get? .group (.numbered 2)).map (·.withoutMember (.numbered 1))) ∧
    (Command.Rewrites .group id (.patch .group id request) ∧
      Uuid.ofText? id = some (.numbered 2) ∧
      (patched.store.get? .group (.numbered 2)).map Record.origin =
        (before.store.get? .group (.numbered 2)).map Record.origin) ∧
    d.config.restampOnPatch = false ∧
      (patched.store.get? .group (.numbered 2)).map (fun record => record.row.etag) =
        (before.store.get? .group (.numbered 2)).map fun record => record.row.etag := by
  intro d team history before deletion id request deleted patched
  have hkey : Uuid.ofText? (Uuid.numbered 2).toText = some (.numbered 2) := by decide +kernel
  have hother : deletion.addressed? before ≠ some (.group, .numbered 2) := by
    intro h
    cases h
  have hbefore : d.serveAll history (World.fresh Tables.empty) = before := rfl
  have hdeleted : (d.serve (.ofSeconds 2) deletion before).2 = deleted := rfl
  have hpatched : (d.serve (.ofSeconds 2) (.patch .group id request) before).2 = patched := rfl
  obtain ⟨hothers, -, -⟩ := commands_are_confined d history (.ofSeconds 2) deletion
  obtain ⟨-, horigin, hversion⟩ :=
    commands_are_confined d history (.ofSeconds 2) (.patch .group id request)
  rw [hbefore, hdeleted] at hothers
  rw [hbefore, hpatched] at horigin hversion
  refine ⟨⟨hother, ?_⟩, ⟨⟨rfl, rfl⟩, hkey, horigin .group id _ ⟨rfl, rfl⟩ hkey⟩, rfl,
    hversion rfl .group id _ request rfl hkey⟩
  rcases hothers .group (.numbered 2) hother with hsame | ⟨key, user, -, hdelete, huser, hleft⟩
  · have hchanged : (deleted.store.get? .group (.numbered 2)).map (·.items .members) ≠
        (before.store.get? .group (.numbered 2)).map (·.items .members) := by
      rw [← hdeleted, ← hbefore]
      decide +kernel
    exact absurd (congrArg (Option.map (·.items .members)) hsame) hchanged
  · obtain ⟨-, rfl⟩ := Command.delete.inj hdelete
    have hone : Uuid.ofText? (Uuid.numbered 1).toText = some (.numbered 1) := by decide +kernel
    cases hone.symm.trans huser
    exact hleft

end ScimDirectory
