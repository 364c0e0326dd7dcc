import ScimDirectory.Proofs.Directory.ReadBack
import ScimDirectory.Proofs.Directory.Stamps

/-!
# Versions across patches

A resource is stored with the version that a patch would compute of its record. So where patches
compute versions, one that leaves the content of a resource leaves its version too.
-/

namespace ScimDirectory

/-- The version that a resource shows. -/
def Resource.version? : {type : ResourceType} → Resource type → Option String
  | .user, user => (User.metadata user).bind Meta.version
  | .group, group => (Group.metadata group).bind Meta.version

namespace Directory

variable {d : Directory} {type : ResourceType} {w after : World Tables} {now : Instant}

/-- The record under a key has the version that a patch would compute of it, and a resource shows
this version. -/
def Stamped (d : Directory) (w : World Tables) (key : Uuid) (shown : Resource type) : Prop :=
  ∃ record : Record type, w.store.get? type key = some record ∧
    record.row.etag = d.stamp record ∧ shown.version? = some record.row.etag

/-- Operations succeed on the record under a key, and leave its columns and its items with the
content that they had. -/
def Spares (d : Directory) (w : World Tables) (type : ResourceType) (key : Uuid)
    (operations : List Operation) : Prop :=
  ∃ (current left : Record type) (middle : World Tables), w.store.get? type key = some current ∧
    (d.patched current.row operations).run w = (.ok (), middle) ∧
    middle.store.get? type key = some left ∧ current.SameContent left

/-- The version of a record is never empty. -/
theorem stamp_ne_empty (d : Directory) (record : Record type) : d.stamp record ≠ "" := by
  cases type <;> exact EntityTag.header_ne_empty _

/-- What is shown of a record has its version, unless this is empty. -/
theorem version?_shownOver (d : Directory) (tables : Tables) {record : Record type}
    (h : record.row.etag = d.stamp record) :
    (d.shownOver tables record).version? = some record.row.etag := by
  have hversion : record.row.etag ≠ "" := h ▸ d.stamp_ne_empty record
  have hmetadata : (d.shownOver tables record).version? =
      (Row.metadata d.config.root record.row).version := by
    cases type <;> rfl
  rw [hmetadata, Row.metadata, if_neg hversion]

/-- A record of a submitted resource has its version from the start. -/
theorem stamped_recordOf {key : Uuid} {resource : Resource type} {created : Instant} {draw : Nat}
    (groups : List GroupRef)
    (hget : after.store.get? type key = some (d.recordOf resource key created now draw)) :
    d.Stamped after key (d.served resource key groups
      (d.metadataOf type key created now (d.recordOf resource key created now draw).row.etag)) := by
  refine ⟨_, hget, d.etag_recordOf .., ?_⟩
  cases type <;> rfl

/-- A row with a new time and a new version has the content that it had. -/
theorem sameContent_withRow_finished (d : Directory) (now : Instant) (record : Record type) :
    record.SameContent (record.withRow (d.finished now record)) where
  columns column := (congrFun (d.cell_finished now record) column).symm
  items _ := rfl

end Directory

/-- Versions survive storage. In any directory that can be reached, a creation or a replacement that
succeeds leaves a record with the version that a patch would compute of it, and shows this version.
Where patches compute versions, one that is taken and whose operations spare the content of such a
record can fail only by a hook, and it shows and stores the version that was there. -/
theorem stamps_survive_storage (d : Directory) (history : List (Instant × Command)) (now : Instant)
    {w : World Tables} (hreached : d.serveAll history (World.fresh Tables.empty) = w) :
    (∀ {type : ResourceType} (given : Option Uuid) (resource shown : Resource type)
      (after : World Tables), (d.create now given resource).run w = (.ok shown, after) →
      d.Stamped after (Directory.keyFor given w) shown) ∧
    (∀ {type : ResourceType} (id : String) (resource shown : Resource type)
      (ifMatch : Option String) (after : World Tables),
      (d.replace now id resource ifMatch).run w = (.ok shown, after) →
      ∃ key, Uuid.ofText? id = some key ∧ d.Stamped after key shown) ∧
    (d.config.restampOnPatch = true →
      ∀ {type : ResourceType} (id : String) (key : Uuid) (before : Resource type)
        (request : PatchRequest),
      request.validate = .ok () → Uuid.ofText? id = some key → d.Stamped w key before →
      d.Spares w type key request.operations →
      let run := (d.patch now type id request).run w
      ∃ shown : Resource type, run.1 = (Hook.run shown d.config.hooks).2.map (fun _ => shown) ∧
        d.Stamped run.2 key shown ∧ shown.version? = before.version?) := by
  have hsound : w.store.Sound w.draws :=
    hreached ▸ Directory.serveAll_sound (Tables.sound_empty 0) history
  refine ⟨?_, ?_, ?_⟩
  · intro type given resource shown after hrun
    obtain ⟨-, -, -, hget, rfl⟩ := Directory.create_eq_ok hsound hrun
    rw [Directory.newView_recordOf]
    exact Directory.stamped_recordOf _ hget
  · intro type id resource shown ifMatch after hrun
    obtain ⟨key, current, hkey, -, hshows⟩ := Directory.replace_eq_ok hsound hrun
    rw [hshows.view, Directory.shownOver_recordOf]
    exact ⟨key, hkey, Directory.stamped_recordOf _ hshows.stored⟩
  · intro hrestamp type id key before request hvalid hkey hstamped hspares
    obtain ⟨current, left, middle, hcurrent, hpatched, hleft, hsame⟩ := hspares
    obtain ⟨record, hrecord, hetag, hversion⟩ := hstamped
    cases hcurrent.symm.trans hrecord
    obtain ⟨found, hfound, hends, -, hget⟩ :=
      Directory.patch_of_patched hsound now hvalid hkey hcurrent hpatched
    cases hleft.symm.trans hfound
    have hnew : (left.withRow (d.finished now left)).row.etag =
        d.stamp (left.withRow (d.finished now left)) := d.etag_finished hrestamp now left
    have hkept : (left.withRow (d.finished now left)).row.etag = current.row.etag := by
      rw [hnew, hetag, d.stamp_congr hsame,
        d.stamp_congr (d.sameContent_withRow_finished now left)]
    have hshown := d.version?_shownOver (middle.store.put (d.finished now left)) hnew
    dsimp only
    rw [hends]
    exact ⟨_, rfl, ⟨_, hget, hnew, hshown⟩, hshown.trans ((congrArg some hkept).trans hversion.symm)⟩

/-- A group gets a member without a URL and is then given the same member again: its version is the
one that its creation has computed. -/
theorem stamps_survive_storage_of_member :
    let d : Directory :=
      ⟨{ Config.standard with restampOnPatch := true }, Stamp.utf8 "salt", Filter.parse⟩
    let key := Uuid.numbered 1
    let crew : Resource .group := { Group.named "crew" with members := [⟨"u1", none, none, none⟩] }
    let request : PatchRequest :=
      .ofOperations [⟨.add, some "members", .object [("value", .text "u1")]⟩]
    ∃ (first second : Resource .group) (created patched : World Tables),
      (d.create (.ofSeconds 0) none crew).run (World.fresh Tables.empty) = (.ok first, created) ∧
      d.Stamped created key first ∧
      (d.patch (.ofSeconds 1) .group key.toText request).run created = (.ok second, patched) ∧
      d.Stamped patched key second ∧ second.version? = first.version? := by
  intro d key crew request
  obtain ⟨run, hrun⟩ : ∃ run,
      (d.create (.ofSeconds 0) none crew).run (World.fresh Tables.empty) = run := ⟨_, rfl⟩
  have hpasses : run.1.isOk = true := by
    rw [← hrun]
    decide +kernel
  -- The versions are left out, so that no digest is computed.
  have hkeeps : ((run.2.store.get? .group key).any fun current =>
      ((d.patched current.row request.operations).run run.2).1.isOk &&
        (((d.patched current.row request.operations).run run.2).2.store.get? .group key).any
          fun left => decide (left.row.withEtag "" = current.row.withEtag "") &&
            decide (left.children = current.children)) = true := by
    rw [← hrun]
    decide +kernel
  obtain ⟨first, hfirst⟩ := eq_ok_mk_of_isOk hpasses
  have hreached : d.serveAll [(.ofSeconds 0, .create none crew)] (World.fresh Tables.empty) =
      run.2 :=
    (d.serve_world (.ofSeconds 0) (.create none crew) (World.fresh Tables.empty)).trans
      (congrArg Prod.snd hrun)
  have hspares : d.Spares run.2 .group key request.operations := by
    obtain ⟨current, hcurrent, hboth⟩ := (Option.any_eq_true _ _).mp hkeeps
    obtain ⟨hok, hany⟩ := Bool.and_eq_true_iff.mp hboth
    obtain ⟨left, hleft, hcontent⟩ := (Option.any_eq_true _ _).mp hany
    obtain ⟨hrow, hchildren⟩ := Bool.and_eq_true_iff.mp hcontent
    obtain ⟨_, hpatched⟩ := eq_ok_mk_of_isOk hok
    refine ⟨current, left, _, hcurrent, hpatched, hleft, fun column => ?_, fun relation => ?_⟩
    · rw [← Row.cell_withEtag current.row "", ← of_decide_eq_true hrow, Row.cell_withEtag]
    · rw [Record.items, ← of_decide_eq_true hchildren, Record.items]
  obtain ⟨hcreate, -, -⟩ := @stamps_survive_storage d [] (.ofSeconds 0) _ rfl
  obtain ⟨-, -, hpatch⟩ := stamps_survive_storage d _ (.ofSeconds 1) hreached
  have hstamped : d.Stamped run.2 key first := hcreate none crew first run.2 (hrun.trans hfirst)
  obtain ⟨second, hsecond, hstill, hversion⟩ :=
    hpatch rfl key.toText key first request rfl key.ofText?_toText hstamped hspares
  have hshown : ((d.patch (.ofSeconds 1) .group key.toText request).run run.2).1 = .ok second :=
    hsecond
  exact ⟨first, second, run.2, _, hrun.trans hfirst, hstamped, Prod.fst_eq_iff.mp hshown, hstill,
    hversion⟩

end ScimDirectory
