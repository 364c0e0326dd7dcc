import ScimDirectory.Proofs.Directory.Confinement
import ScimDirectory.Proofs.Directory.Patches

/-!
# Times of changes

A stored resource carries the time when it was last changed. A creation, a replacement and a patch
that succeeds write the time at which they are carried out. Two commands may change a resource and
leave its time as it was: a patch that fails after some of its operations are applied, and the
deletion of a user, who leaves groups. So while the clock runs on, a resource that is changed has a
later time than before exactly when it is neither of them that has changed it.
-/

namespace ScimDirectory

namespace Instant

/-- Nothing comes before itself. -/
theorem before_irrefl (a : Instant) : a.before a = false := by
  simp [before]

theorem before_trans {a b c : Instant} (hab : a.before b = true) (hbc : b.before c = true) :
    a.before c = true := by
  simp only [before, Bool.or_eq_true, Bool.and_eq_true, decide_eq_true_eq, beq_iff_eq] at *
  omega

end Instant

namespace Directory

variable {d : Directory} {w : World Tables} {now : Instant} {type : ResourceType} {key : Uuid}

/-- Whether a command may change a resource and leave its time: a patch whose operations fail, or
the deletion of a user, who leaves groups. -/
def LeavesTime (d : Directory) (w : World Tables) : Command → Prop
  | .patch type id request =>
    ∃ row error after, request.validate = .ok () ∧
      (Uuid.ofText? id).bind (w.store.find? type) = some row ∧
      (Patch.applyAll d.setting request.operations).run (w, row) = (.error error, after)
  | .delete .user _ => True
  | _ => False

/-- How a command leaves a resource that is there afterwards. -/
inductive Dated (d : Directory) (w : World Tables) (now : Instant) (command : Command)
    {type : ResourceType} (key : Uuid) (new : Record type) : Prop where
  /-- The resource is as it was. -/
  | same (hold : w.store.get? type key = some new)
  /-- It has the time that it had, and the command is one that leaves times. -/
  | left {old : Record type} (hold : w.store.get? type key = some old)
      (htime : new.row.lastModified = old.row.lastModified) (hleaves : d.LeavesTime w command)
  /-- It has the time of the command, and the command is not one that leaves times. -/
  | written (htime : new.row.lastModified = now) (hwrites : ¬d.LeavesTime w command)

/-- A whole resource is stored with the time at which that is done. -/
theorem lastModified_recordOf (resource : Resource type) (id : Uuid) (created : Instant)
    (draw : Nat) : (d.recordOf resource id created now draw).row.lastModified = now := by
  cases type <;> rfl

/-- A patch ends with the time at which it is carried out. -/
theorem lastModified_finished (record : Record type) :
    (d.finished now record).lastModified = now := by
  rw [finished_eq]
  cases type <;> rfl

/-- A creation dates what it stores. -/
theorem dated_create (hsound : w.store.Sound w.draws) (given : Option Uuid)
    (resource : Resource type) {new : Record type}
    (hget : ((d.create now given resource).run w).2.store.get? type (keyFor given w) = some new) :
    d.Dated w now (.create given resource) (keyFor given w) new := by
  rcases get?_create hsound hget with hold | rfl
  · exact .same hold
  · exact .written (lastModified_recordOf ..) fun hleaves => hleaves

/-- A replacement dates what it stores. -/
theorem dated_replace {id : String} (hid : idOf type id = .ok key) (resource : Resource type)
    (ifMatch : Option String) {new : Record type}
    (hget : ((d.replace now id resource ifMatch).run w).2.store.get? type key = some new) :
    d.Dated w now (.replace id resource ifMatch) key new := by
  rcases get?_replace hid hget with hold | ⟨current, -, rfl⟩
  · exact .same hold
  · exact .written (lastModified_recordOf ..) fun hleaves => hleaves

/-- A patch dates the resource unless an operation fails, and then it leaves the time. -/
theorem dated_patch (hsound : w.store.Sound w.draws) {id : String}
    (hkey : Uuid.ofText? id = some key) (request : PatchRequest) {new : Record type}
    (hget : ((d.patch now type id request).run w).2.store.get? type key = some new) :
    d.Dated w now (.patch type id request) key new := by
  rw [patch_eq hsound] at hget
  split at hget
  · exact .same hget
  · exact .same hget
  · next row hvalid hfound =>
    have hfind : w.store.find? type key = some row := by rwa [hkey] at hfound
    obtain rfl : row.id = key := Tables.id_of_find? hfind
    have htrace := Patch.applyAll_trace (d := d) hsound hfind request.operations
    split at hget
    · next error middle after happlied =>
      rw [happlied] at htrace
      obtain ⟨stored, hstored, hsame⟩ := htrace.kept
      cases (Tables.get?_of_find? hstored).symm.trans hget
      exact .left (Tables.get?_of_find? hfind) hsame.lastModified
        ⟨row, error, _, hvalid, hfound, happlied⟩
    · next middle after happlied =>
      rw [happlied] at htrace
      have hid : (d.finished now (middle.store.record after)).id = row.id :=
        (id_finished d now _).trans htrace.same.id
      have hput := middle.store.get?_put (d.finished now (middle.store.record after))
      rw [hid] at hput
      cases hput.symm.trans hget
      refine .written (lastModified_finished _) ?_
      rintro ⟨_, _, _, -, hfound', hfails⟩
      cases hfound.symm.trans hfound'
      cases happlied.symm.trans hfails

/-- A deletion leaves nothing of the resource that it is addressed to. -/
theorem get?_deleted_self (tables : Tables) (type : ResourceType) (key : Uuid) :
    (deleted type key tables).get? type key = none := by
  cases type with
  | group => exact Tables.get?_delete_self ..
  | user =>
    unfold deleted
    dsimp only
    split
    · rw [get?_user_withoutMember]
      exact Tables.get?_delete_self ..
    · next hgone => simpa [Tables.get?, Tables.has] using hgone

/-- Every command leaves every resource as it was, or dates it, or leaves its time. -/
theorem serve_dated (hsound : w.store.Sound w.draws) (command : Command) {new : Record type}
    (hget : (d.serve now command w).2.store.get? type key = some new) :
    d.Dated w now command key new := by
  -- What is not addressed is confined; what is depends on the command.
  by_cases haddressed : command.addressed? w = some (type, key)
  · rw [serve_world] at hget
    cases command with
    | create given resource =>
      cases haddressed
      exact dated_create hsound given resource hget
    | replace id resource ifMatch =>
      obtain ⟨_, hkey, heq⟩ := Option.map_eq_some_iff.mp haddressed
      cases heq
      exact dated_replace (idOf_eq_ok.mpr hkey) resource ifMatch hget
    | get | search => cases haddressed
    | delete _ id =>
      obtain ⟨_, hkey, heq⟩ := Option.map_eq_some_iff.mp haddressed
      cases heq
      dsimp only at hget
      rw [store_delete hsound (idOf_eq_ok.mpr hkey), get?_deleted_self] at hget
      cases hget
    | patch _ id request =>
      obtain ⟨_, hkey, heq⟩ := Option.map_eq_some_iff.mp haddressed
      cases heq
      exact dated_patch hsound hkey request hget
  · rcases @get?_serve_of_not d type w key hsound now command haddressed with
      hsame | ⟨id, user, rfl, rfl, -, hleft⟩
    · exact .same (hsame.symm.trans hget)
    · obtain ⟨old, hold, rfl⟩ := Option.map_eq_some_iff.mp (hleft.symm.trans hget)
      exact .left hold rfl trivial

/-- What is stored has the time of a command that was carried out. -/
theorem lastModified_mem (d : Directory) (history : List (Instant × Command))
    {record : Record type}
    (hget : (d.serveAll history (World.fresh Tables.empty)).store.get? type key = some record) :
    record.row.lastModified ∈ history.map Prod.fst := by
  induction history using List.reverseRecOn generalizing record with
  | nil => cases type <;> cases hget
  | append_singleton history entry ih =>
    have hsound : (d.serveAll history (World.fresh Tables.empty)).store.Sound
        (d.serveAll history (World.fresh Tables.empty)).draws :=
      serveAll_sound (Tables.sound_empty 0) history
    rw [serveAll_concat] at hget
    rw [List.map_append, List.mem_append]
    cases serve_dated hsound entry.2 hget with
    | same hold => exact .inl (ih hold)
    | left hold htime => exact .inl (htime ▸ ih hold)
    | written htime => exact .inr (htime ▸ List.mem_singleton_self _)

end Directory

/-- Let each command of a history be carried out later than the one before it, and one more command
later than all of them. A resource that this command changes, in its columns or its items, has a
later time than before exactly when the command is neither a patch whose operations fail nor the
deletion of a user. -/
theorem changes_are_dated_iff (d : Directory) (history : List (Instant × Command)) (now : Instant)
    (command : Command)
    (hclock : (history.map Prod.fst ++ [now]).IsChain fun a b => a.before b = true)
    {type : ResourceType} {id : Uuid} {old new : Record type}
    (hold : (d.serveAll history (World.fresh Tables.empty)).store.get? type id = some old)
    (hnew : (d.serve now command (d.serveAll history (World.fresh Tables.empty))).2.store.get?
      type id = some new)
    (hchanged : new ≠ old) :
    old.row.lastModified.before new.row.lastModified = true ↔
      ¬d.LeavesTime (d.serveAll history (World.fresh Tables.empty)) command := by
  have hsound : (d.serveAll history (World.fresh Tables.empty)).store.Sound
      (d.serveAll history (World.fresh Tables.empty)).draws :=
    Directory.serveAll_sound (Tables.sound_empty 0) history
  cases Directory.serve_dated hsound command hnew with
  | same hsame => exact absurd (Option.some.inj (hsame.symm.trans hold)) hchanged
  | left hstored htime hleaves =>
    cases hstored.symm.trans hold
    rw [htime, Instant.before_irrefl]
    exact iff_of_false Bool.false_ne_true (not_not_intro hleaves)
  | written htime hwrites =>
    have hpast := d.lastModified_mem history hold
    have : IsTrans Instant fun a b => a.before b = true := ⟨fun _ _ _ => Instant.before_trans⟩
    have hlater := (List.pairwise_append.mp (List.isChain_iff_pairwise.mp hclock)).2.2
      _ hpast now (List.mem_singleton_self now)
    rw [htime]
    exact iff_of_true hlater hwrites

/-- A group that is renamed has a later time, and no operation has failed. -/
theorem changes_are_dated_of_renamed_group :
    let d : Directory := ⟨Config.standard, Stamp.utf8 "salt", Filter.parse⟩
    let history : List (Instant × Command) :=
      [(.ofSeconds 0, @Command.create .group none (Group.named "Team"))]
    let rename : Command := .patch .group (Uuid.numbered 1).toText
      (.ofOperations [.replace "displayName" (.text "Crew")])
    let before := d.serveAll history (World.fresh Tables.empty)
    let after := (d.serve (.ofSeconds 1) rename before).2
    ∃ old new : Record .group, before.store.get? .group (.numbered 1) = some old ∧
      after.store.get? .group (.numbered 1) = some new ∧ new ≠ old ∧
      old.row.lastModified.before new.row.lastModified = true ∧ ¬d.LeavesTime before rename := by
  intro d history rename before after
  have hdated : (before.store.get? .group (.numbered 1)).any (fun old =>
      (after.store.get? .group (.numbered 1)).any fun new =>
        new.row.displayName ≠ old.row.displayName &&
          old.row.lastModified.before new.row.lastModified) = true := by decide +kernel
  obtain ⟨old, hold, hlasts⟩ := (Option.any_eq_true _ _).mp hdated
  obtain ⟨new, hnew, hboth⟩ := (Option.any_eq_true _ _).mp hlasts
  obtain ⟨hrow, hlater⟩ := Bool.and_eq_true_iff.mp hboth
  have hchanged : new ≠ old := by
    rintro rfl
    exact of_decide_eq_true hrow rfl
  have hclock : (history.map Prod.fst ++ [Instant.ofSeconds 1]).IsChain
      fun a b => a.before b = true := by decide +kernel
  have hbefore : d.serveAll history (World.fresh Tables.empty) = before := rfl
  have hafter : (d.serve (.ofSeconds 1) rename before).2 = after := rfl
  have hiff := @changes_are_dated_iff d history (.ofSeconds 1) rename hclock .group (.numbered 1)
    old new
  rw [hbefore, hafter] at hiff
  exact ⟨old, new, hold, hnew, hchanged, hlater, (hiff hold hnew hchanged).mp hlater⟩

/-- A group that loses a deleted user, and one that is renamed by a patch that fails later, keep
their time. -/
theorem times_outlast_changes_of_team :
    let d : Directory := ⟨Config.standard, Stamp.utf8 "salt", Filter.parse⟩
    let team : Group := { Group.named "Team" with
      members := [.ofType .user (Uuid.numbered 1).toText] }
    let history : List (Instant × Command) :=
      [(.ofSeconds 0, @Command.create .user none (User.named "alice")),
        (.ofSeconds 1, @Command.create .group none team)]
    let before := d.serveAll history (World.fresh Tables.empty)
    let deletion : Command := .delete .user (Uuid.numbered 1).toText
    let patch : Command := .patch .group (Uuid.numbered 2).toText
      (.ofOperations [.replace "displayName" (.text "Crew"), .remove "id"])
    ∀ command ∈ [deletion, patch],
      let after := (d.serve (.ofSeconds 2) command before).2
      ∃ old new : Record .group, before.store.get? .group (.numbered 2) = some old ∧
        after.store.get? .group (.numbered 2) = some new ∧ new ≠ old ∧
        old.row.lastModified.before new.row.lastModified = false := by
  intro d team history before deletion patch command hcommand after
  have hundated : [deletion, patch].all (fun command =>
      (before.store.get? .group (.numbered 2)).any fun old =>
        ((d.serve (.ofSeconds 2) command before).2.store.get? .group (.numbered 2)).any fun new =>
          (new.row.displayName, new.items .members) ≠
              (old.row.displayName, old.items .members) &&
            !old.row.lastModified.before new.row.lastModified) = true := by decide +kernel
  obtain ⟨old, hold, hlasts⟩ :=
    (Option.any_eq_true _ _).mp (List.all_eq_true.mp hundated command hcommand)
  obtain ⟨new, hnew, hboth⟩ := (Option.any_eq_true _ _).mp hlasts
  obtain ⟨hcontent, htime⟩ := Bool.and_eq_true_iff.mp hboth
  refine ⟨old, new, hold, hnew, ?_, Bool.not_eq_eq_eq_not.mp htime⟩
  rintro rfl
  exact of_decide_eq_true hcontent rfl

end ScimDirectory
