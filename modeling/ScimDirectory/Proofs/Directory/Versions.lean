import ScimDirectory.Proofs.Directory.Isolation
import ScimDirectory.Proofs.Directory.Stamps
import Mathlib.Data.List.Induction

/-!
# Versions and content

When the settings ask for a new version after a patch, the version of a stored resource is meant
to be that of its content. A creation, a replacement and a patch that succeeds compute it. Two
commands change content without it: a patch that fails after some of its operations are applied,
and the deletion of a user, which takes members out of groups. So versions follow content exactly
as long as neither of them changes what is stamped.
-/

namespace ScimDirectory

namespace Directory

/-- The version of every stored resource is that of its content. -/
def Coherent (d : Directory) (tables : Tables) : Prop :=
  ∀ (type : ResourceType) (id : Uuid) (record : Record type),
    tables.get? type id = some record → record.row.etag = d.stamp record

/-- The content of a resource that stays has another version after than before. -/
def Alters (d : Directory) (type : ResourceType) (id : Uuid) (before after : Tables) : Prop :=
  ∃ old new : Record type, before.get? type id = some old ∧ after.get? type id = some new ∧
    d.stamp new ≠ d.stamp old

/-- Whether a command changes content and leaves its version as it was: a patch whose operations
fail, or the deletion of a user who is a member of groups. -/
def Stale (d : Directory) (w : World Tables) : Command → Prop
  | .patch type id request =>
    ∃ uuid current error after, request.validate = .ok () ∧ idOf type id = .ok uuid ∧
      w.store.get? type uuid = some current ∧
      (d.patched current.row request.operations).run w = (.error error, after) ∧
      d.Alters type uuid w.store after.store
  | .delete .user id =>
    ∃ uuid group, idOf .user id = .ok uuid ∧ w.store.has .user uuid = true ∧
      d.Alters .group group w.store (w.store.withoutMember uuid)
  | _ => False

variable {d : Directory} {type : ResourceType} {w : World Tables}

/-- Only the resource that is written has to be looked at. -/
theorem Coherent.of_writes {id : Uuid} {before after : Stock} (h : d.Coherent before.1)
    (hsound : before.1.Sound before.2) (hwrites : d.Writes type id before after)
    (hself : ∀ record, after.1.get? type id = some record → record.row.etag = d.stamp record) :
    d.Coherent after.1 := by
  intro other key record hget
  by_cases hsame : other = type ∧ key = id
  · obtain ⟨rfl, rfl⟩ := hsame
    exact hself record hget
  · rw [hwrites.get?_of_not hsound hsame] at hget
    exact h other key record hget

/-- A resource that has kept its version has that of its content when its content has the version
that it had. -/
theorem etag_eq_stamp_iff {old new : Record type} (hold : old.row.etag = d.stamp old)
    (hkept : new.row.etag = old.row.etag) :
    new.row.etag = d.stamp new ↔ ¬d.stamp new ≠ d.stamp old := by
  rw [hkept, hold, not_not, eq_comm]

/-- A creation computes the version of what it stores. -/
theorem coherent_create (hsound : w.store.Sound w.draws) (h : d.Coherent w.store) (now : Instant)
    (given : Option Uuid) (resource : Resource type) :
    d.Coherent ((d.create now given resource).run w).2.store := by
  have hwrites := create_writes d now given resource w
  refine @Coherent.of_writes d type _ w.stock ((d.create now given resource).run w).2.stock h hsound
    hwrites fun record hget => ?_
  rcases get?_create hsound hget with hold | rfl
  · exact h _ _ record hold
  · exact d.etag_recordOf ..

/-- A replacement computes the version of what it stores. -/
theorem coherent_replace (hsound : w.store.Sound w.draws) (h : d.Coherent w.store) (now : Instant)
    {id : String} {uuid : Uuid} (hid : idOf type id = .ok uuid) (resource : Resource type)
    (ifMatch : Option String) :
    d.Coherent ((d.replace now id resource ifMatch).run w).2.store := by
  have hwrites := replace_writes d now hid resource ifMatch w
  refine @Coherent.of_writes d type _ w.stock ((d.replace now id resource ifMatch).run w).2.stock h
    hsound hwrites fun record hget => ?_
  rcases get?_replace hid hget with hold | ⟨current, -, rfl⟩
  · exact h _ _ record hold
  · exact d.etag_recordOf ..

/-- The row that a patch ends with has the name that it had. -/
theorem uniqueName?_finished (d : Directory) (now : Instant) (record : Record type) :
    (d.finished now record).uniqueName? = record.row.uniqueName? := by
  unfold finished
  split <;> cases type <;> rfl

/-- What a patch ends with is written, since key and name of the row are as they were. -/
theorem store_concluded (hsound : w.store.Sound w.draws) (now : Instant) {uuid : Uuid} (id : String)
    {row : Row type} (hfind : w.store.find? type uuid = some row) :
    (d.concluded now type uuid id w).2.store =
      w.store.put (d.finished now (w.store.record row)) := by
  have hkey : (d.finished now (w.store.record row)).id = uuid :=
    (id_finished d now _).trans (Tables.id_of_find? hfind)
  have hupdate := hsound.toWellFormed.update_eq (hkey.symm ▸ hfind)
    (uniqueName?_finished d now (w.store.record row))
  unfold concluded
  rw [Tables.get?_of_find? hfind]
  dsimp only
  rw [hupdate]
  dsimp only
  exact store_answered d _ _

/-- A patch that succeeds computes the version of what it leaves. -/
theorem coherent_concluded (hrestamp : d.config.restampOnPatch = true)
    (hsound : w.store.Sound w.draws) (now : Instant) {uuid : Uuid} (id : String) {row : Row type}
    (hfind : w.store.find? type uuid = some row) (record : Record type)
    (hget : (d.concluded now type uuid id w).2.store.get? type uuid = some record) :
    record.row.etag = d.stamp record := by
  have hkey : (d.finished now (w.store.record row)).id = uuid :=
    (id_finished d now _).trans (Tables.id_of_find? hfind)
  rw [store_concluded hsound now id hfind, ← hkey, Tables.get?_put, record_finished] at hget
  cases hget
  exact d.etag_finished hrestamp now _

/-- A patch whose operations fail leaves the version that was there, so it has to leave content of
that version too. -/
theorem coherent_failed_iff (hsound : w.store.Sound w.draws) (h : d.Coherent w.store) {uuid : Uuid}
    {current : Record type} (hget : w.store.get? type uuid = some current)
    {operations : List Operation} {error : DirectoryError} {after : World Tables}
    (hrun : (d.patched current.row operations).run w = (.error error, after)) :
    d.Coherent after.store ↔ ¬d.Alters type uuid w.store after.store := by
  obtain ⟨rfl, _, htrace⟩ := patched_trace hsound hget hrun
  obtain ⟨stored, hfind, hsame⟩ := htrace.kept
  have hnew := Tables.get?_of_find? hfind
  have hiff := @etag_eq_stamp_iff d type _ (after.store.record stored) (h _ _ current hget)
    hsame.etag
  constructor
  · rintro hcoherent ⟨old, new, hold, hafter, hne⟩
    cases hget.symm.trans hold
    cases hnew.symm.trans hafter
    exact hiff.mp (hcoherent _ _ _ hnew) hne
  · intro hunaltered
    refine @Coherent.of_writes d type _ w.stock after.stock h hsound htrace.writes
      fun record hrecord => ?_
    cases hnew.symm.trans hrecord
    exact hiff.mpr fun hne => hunaltered ⟨current, _, hget, hnew, hne⟩

/-- A patch keeps versions coherent unless it fails with other content than before. -/
theorem coherent_patch_iff (hrestamp : d.config.restampOnPatch = true)
    (hsound : w.store.Sound w.draws) (h : d.Coherent w.store) (now : Instant) (id : String)
    (request : PatchRequest) :
    d.Coherent ((d.patch now type id request).run w).2.store ↔
      ¬d.Stale w (.patch type id request) := by
  cases hvalid : request.validate with
  | error e =>
    rw [patch_run, hvalid]
    refine iff_of_true h ?_
    rintro ⟨_, _, _, _, hok, -⟩
    cases hvalid.symm.trans hok
  | ok _ =>
    cases hid : idOf type id with
    | error e =>
      rw [patch_run, hvalid, hid]
      refine iff_of_true h ?_
      rintro ⟨_, _, _, _, -, hok, -⟩
      cases hid.symm.trans hok
    | ok uuid =>
      cases hget : w.store.get? type uuid with
      | none =>
        rw [patch_run, hvalid, hid]
        dsimp only
        rw [hget]
        refine iff_of_true h ?_
        rintro ⟨_, _, _, _, -, hok, hsome, -⟩
        cases hid.symm.trans hok
        cases hget.symm.trans hsome
      | some current =>
        rcases hrun : (d.patched current.row request.operations).run w with ⟨answer, w'⟩
        rw [patch_run, hvalid, hid]
        dsimp only
        rw [hget]
        dsimp only
        rw [hrun]
        cases answer with
        | error e =>
          refine (coherent_failed_iff hsound h hget hrun).trans (not_congr ?_)
          refine ⟨fun hother => ⟨uuid, current, e, w', hvalid, hid, hget, hrun, hother⟩, ?_⟩
          rintro ⟨_, _, _, _, -, hok, hsome, hfail, hother⟩
          cases hid.symm.trans hok
          cases hget.symm.trans hsome
          cases hrun.symm.trans hfail
          exact hother
        | ok _ =>
          obtain ⟨rfl, _, htrace⟩ := patched_trace hsound hget hrun
          have hwrites := htrace.writes.trans (concluded_writes d now type _ id w')
          have hkept := Writes.sound htrace.writes hsound
          refine iff_of_true (@Coherent.of_writes d type _ w.stock
            (d.concluded now type current.row.id id w').2.stock h hsound hwrites
            fun record hstored => ?_) ?_
          · exact coherent_concluded hrestamp hkept now id (htrace.stored rfl) record hstored
          · rintro ⟨_, _, _, _, -, hok, hsome, hfail, -⟩
            cases hid.symm.trans hok
            cases hget.symm.trans hsome
            cases hrun.symm.trans hfail

/-- A group that is deleted takes no other version with it. -/
theorem coherent_deleted_group (h : d.Coherent w.store) (uuid : Uuid) :
    d.Coherent (deleted .group uuid w.store) := by
  intro other key record hget
  by_cases hsame : other = .group ∧ key = uuid
  · obtain ⟨rfl, rfl⟩ := hsame
    rw [deleted, Tables.get?_delete_self] at hget
    cases hget
  · rw [deleted, Tables.get?_delete_of_not _ hsame] at hget
    exact h other key record hget

/-- Groups that a deleted user has left keep their versions, so what is left of their content has
to have these versions. -/
theorem coherent_deleted_user_iff (h : d.Coherent w.store) (uuid : Uuid) :
    d.Coherent (deleted .user uuid w.store) ↔
      ¬(w.store.has .user uuid = true ∧
        ∃ group, d.Alters .group group w.store (w.store.withoutMember uuid)) := by
  unfold deleted
  dsimp only
  split
  · next hthere =>
    constructor
    · rintro hcoherent ⟨-, group, old, new, hold, hnew, hne⟩
      obtain ⟨_, hstored, hrow⟩ := get?_group_withoutMember hnew
      cases hold.symm.trans hstored
      have hiff := etag_eq_stamp_iff (h _ _ old hold) (congrArg Row.etag hrow)
      exact hiff.mp (hcoherent _ _ new ((get?_group_deleted ..).trans hnew)) hne
    · intro hunaltered type key record hget
      cases type with
      | user =>
        rw [get?_user_withoutMember] at hget
        by_cases hkey : key = uuid
        · rw [hkey, Tables.get?_delete_self] at hget
          cases hget
        · rw [Tables.get?_delete_of_not _ fun hsame => hkey hsame.2] at hget
          exact h _ _ record hget
      | group =>
        rw [get?_group_deleted] at hget
        obtain ⟨old, hold, hrow⟩ := get?_group_withoutMember hget
        have hiff := etag_eq_stamp_iff (h _ _ old hold) (congrArg Row.etag hrow)
        exact hiff.mpr fun hne => hunaltered ⟨hthere, key, old, record, hold, hget, hne⟩
  · next hgone => exact iff_of_true h fun hboth => hgone hboth.1

/-- A deletion keeps versions coherent unless it takes a user out of a group. -/
theorem coherent_delete_iff (hsound : w.store.Sound w.draws) (h : d.Coherent w.store)
    (id : String) :
    d.Coherent ((delete type id).run w).2.store ↔ ¬d.Stale w (.delete type id) := by
  cases hid : idOf type id with
  | error e =>
    rw [delete_run, hid]
    refine iff_of_true h fun hstale => ?_
    cases type with
    | user =>
      obtain ⟨_, _, hok, -⟩ := hstale
      cases hid.symm.trans hok
    | group => exact hstale
  | ok uuid =>
    rw [store_delete hsound hid]
    cases type with
    | user =>
      refine (coherent_deleted_user_iff h uuid).trans (not_congr ⟨?_, ?_⟩)
      · rintro ⟨hthere, group, haltered⟩
        exact ⟨uuid, group, hid, hthere, haltered⟩
      · rintro ⟨_, group, hok, hthere, haltered⟩
        cases hid.symm.trans hok
        exact ⟨hthere, group, haltered⟩
    | group => exact iff_of_true (coherent_deleted_group h uuid) fun hstale => hstale

/-- Exactly the commands that leave a version stale break the coherence of versions. -/
theorem coherent_serve_iff (hrestamp : d.config.restampOnPatch = true)
    (hsound : w.store.Sound w.draws) (h : d.Coherent w.store) (now : Instant)
    (command : Command) :
    d.Coherent (d.serve now command w).2.store ↔ ¬d.Stale w command := by
  rw [serve_world]
  cases command with
  | create given resource =>
    exact iff_of_true (coherent_create hsound h now given resource) fun hstale => hstale
  | @replace type id resource ifMatch =>
    refine iff_of_true ?_ fun hstale => hstale
    cases hid : idOf type id with
    | error e =>
      dsimp only
      rw [replace_run, hid]
      exact h
    | ok uuid => exact coherent_replace hsound h now hid resource ifMatch
  | get type id => exact iff_of_true h fun hstale => hstale
  | delete type id => exact coherent_delete_iff hsound h id
  | patch type id request => exact coherent_patch_iff hrestamp hsound h now id request
  | search request scope => exact iff_of_true h fun hstale => hstale

end Directory

/-- With settings that ask for a new version after a patch, the versions of stored resources are
those of their content all along a history exactly when no command of it leaves a version stale:
no patch fails once it has changed content, and no user is deleted out of a group. -/
theorem versions_follow_content_iff (d : Directory) (hrestamp : d.config.restampOnPatch = true)
    (history : List (Instant × Command)) :
    (∀ done, done <+: history →
      d.Coherent (d.serveAll done (World.fresh Tables.empty)).store) ↔
    ∀ done now command, done ++ [(now, command)] <+: history →
      ¬d.Stale (d.serveAll done (World.fresh Tables.empty)) command := by
  have hsound : ∀ done, (d.serveAll done (World.fresh Tables.empty)).store.Sound
      (d.serveAll done (World.fresh Tables.empty)).draws :=
    fun done => Directory.serveAll_sound (Tables.sound_empty 0) done
  constructor
  · intro hcoherent done now command hdone
    have hbefore := hcoherent done ((List.prefix_append done _).trans hdone)
    have hafter := hcoherent _ hdone
    rw [Directory.serveAll_concat] at hafter
    exact (Directory.coherent_serve_iff hrestamp (hsound done) hbefore now command).mp hafter
  · intro hfresh done
    induction done using List.reverseRecOn with
    | nil =>
      intro _ type id record hget
      cases type <;> cases hget
    | append_singleton done entry ih =>
      intro hdone
      have hbefore := ih ((List.prefix_append done _).trans hdone)
      rw [Directory.serveAll_concat]
      exact (Directory.coherent_serve_iff hrestamp (hsound done) hbefore entry.1 entry.2).mpr
        (hfresh done entry.1 entry.2 hdone)

/-- A group that is renamed has the version of its new content. -/
theorem versions_follow_content_of_renamed_group :
    let d : Directory :=
      ⟨{ Config.standard with restampOnPatch := true }, Stamp.utf8 "salt", Filter.parse⟩
    let request : PatchRequest := .ofOperations [.replace "displayName" (.text "Crew")]
    let history : List (Instant × Command) :=
      [(.ofSeconds 0, @Command.create .group none (Group.named "Team")),
        (.ofSeconds 1, .patch .group (Uuid.numbered 1).toText request)]
    d.config.restampOnPatch = true ∧ ∀ done, done <+: history →
      d.Coherent (d.serveAll done (World.fresh Tables.empty)).store := by
  intro d request history
  refine ⟨rfl, (versions_follow_content_iff d rfl history).mpr ?_⟩
  rintro done now command ⟨rest, heq⟩
  rcases done with _ | ⟨first, _ | ⟨second, done⟩⟩ <;>
    simp only [history, List.nil_append, List.cons_append, List.cons.injEq, Prod.mk.injEq,
      List.append_assoc, List.append_eq_nil_iff, reduceCtorEq, and_false] at heq
  · obtain ⟨⟨rfl, rfl⟩, -⟩ := heq
    exact fun hstale => hstale
  · obtain ⟨rfl, ⟨rfl, rfl⟩, -⟩ := heq
    rintro ⟨uuid, current, error, after, -, hid, hget, hrun, -⟩
    have hkey : Directory.idOf .group (Uuid.numbered 1).toText = .ok (Uuid.numbered 1) := by
      rfl
    cases hkey.symm.trans hid
    have hpasses : ((d.serveAll (history.take 1) (World.fresh Tables.empty)).store.get? .group
        (Uuid.numbered 1)).all (fun current => ((d.patched current.row request.operations).run
          (d.serveAll (history.take 1) (World.fresh Tables.empty))).1.isOk) = true := by
      decide +kernel
    have hok := (Option.all_eq_true _ _).mp hpasses current hget
    have hfails : ((d.patched current.row request.operations).run
        (d.serveAll (history.take 1) (World.fresh Tables.empty))).1 = .error error :=
      congrArg Prod.fst hrun
    rw [hfails] at hok
    cases hok

/-- A patch that renames a group and then fails leaves it with the version of its old content. -/
theorem version_outlasts_content_of_failed_patch :
    let d : Directory :=
      ⟨{ Config.standard with restampOnPatch := true }, Stamp.utf8 "salt", Filter.parse⟩
    let request : PatchRequest :=
      .ofOperations [.replace "displayName" (.text "Crew"), .remove "id"]
    let history : List (Instant × Command) :=
      [(.ofSeconds 0, @Command.create .group none (Group.named "Team")),
        (.ofSeconds 1, .patch .group (Uuid.numbered 1).toText request)]
    d.config.restampOnPatch = true ∧
      ¬d.Coherent (d.serveAll history (World.fresh Tables.empty)).store := by
  intro d request history
  have hstale : ((d.serveAll history (World.fresh Tables.empty)).store.get? .group
      (Uuid.numbered 1)).any (fun record => record.row.etag ≠ d.stamp record) = true := by
    decide +kernel
  refine ⟨rfl, fun hcoherent => ?_⟩
  obtain ⟨record, hget, hne⟩ := (Option.any_eq_true _ _).mp hstale
  exact of_decide_eq_true hne (hcoherent .group _ record hget)

end ScimDirectory
