import ScimDirectory.Proofs.Directory.Patches
import ScimDirectory.Proofs.Directory.Views
import ScimDirectory.Proofs.Uuid

/-!
# Reading back what was written

What a write answers with is what is shown from then on, by any text of the key. After a creation or
a replacement this is what was submitted, and after a patch it is what the operations have left.
-/

namespace ScimDirectory

namespace Directory

variable {d : Directory} {type : ResourceType} {w after : World Tables} {now : Instant}

/-- A resource is shown under a key, by any text of this key, and showing it changes nothing. -/
def Returns (d : Directory) (w : World Tables) (key : Uuid) (resource : Resource type) : Prop :=
  ∀ text, Uuid.ofText? text = some key → (d.get type text).run w = (.ok resource, w)

/-- What a stored record is shown as is shown under its key. -/
theorem Shows.returns {key : Uuid} {record : Record type} {resource : Resource type}
    (h : d.Shows w key record resource) : d.Returns w key resource := by
  intro text htext
  rw [get_run, idOf_eq_ok.mpr htext]
  dsimp only
  rw [h.stored]
  dsimp only
  rw [d.shown_eq (h.sound.keys .group), h.view]

/-- A creation that succeeds has stored the record of a valid resource, and answers with the view of
a new one. -/
theorem create_eq_ok (hsound : w.store.Sound w.draws) {given : Option Uuid}
    {resource shown : Resource type}
    (h : (d.create now given resource).run w = (.ok shown, after)) :
    let record := d.recordOf resource (keyFor given w) now now w.draws
    validate resource = .ok () ∧ w.store.insert record = .ok (record, after.store) ∧
      after.store.Sound after.draws ∧
      after.store.get? type (keyFor given w) = some record ∧ shown = d.newView record := by
  intro record
  have hafter := (create_writes d now given resource w).sound hsound
  rw [h] at hafter
  rw [create_run] at h
  split at h
  · cases h
  · next hvalid =>
    split at h
    · cases h
    · next stored store hwrite =>
      obtain ⟨rfl, hstock⟩ := hooked_eq_ok h
      obtain ⟨rfl, -⟩ := Prod.mk.inj hstock
      have hdrawn := d.drawn_recordOf resource (keyFor given w) now now w.draws
      have hget := Tables.get?_insert hsound.toWellFormed hdrawn hwrite
      obtain ⟨-, -, -, -, hstored⟩ := Tables.insert_eq_ok hwrite
      obtain rfl : stored = record := hstored.trans (Tables.get?_eq_some hget).2
      rw [id_recordOf] at hget
      exact ⟨hvalid, hwrite, hafter, hget, rfl⟩

/-- A replacement that succeeds has found a record under the key, has stored that of the resource in
its place, and shows it. -/
theorem replace_eq_ok (hsound : w.store.Sound w.draws) {id : String} {ifMatch : Option String}
    {resource shown : Resource type}
    (h : (d.replace now id resource ifMatch).run w = (.ok shown, after)) :
    ∃ (key : Uuid) (current : Record type), Uuid.ofText? id = some key ∧
      w.store.get? type key = some current ∧
      d.Shows after key (d.recordOf resource key current.row.created now w.draws) shown := by
  cases hid : idOf type id with
  | error error =>
    rw [replace_run, hid] at h
    cases h
  | ok key =>
    have hafter := (replace_writes d now hid resource ifMatch w).sound hsound
    rw [h] at hafter
    rw [replace_run, hid] at h
    dsimp only at h
    split at h
    · cases h
    · split at h
      · cases h
      · next current hcurrent =>
        split at h
        · cases h
        · split at h
          · cases h
          · next stored store hwrite =>
            have hdrawn := d.drawn_recordOf resource key current.row.created now w.draws
            have hget := Tables.get?_replace hdrawn hwrite
            obtain ⟨-, -, -, -, hstored⟩ := Tables.replace_eq_ok hwrite
            obtain rfl := hstored.trans (Tables.get?_eq_some hget).2
            rw [id_recordOf] at hget
            have hkeys : ((store.rows .group).map Row.id).Nodup := (hsound.replace hdrawn hwrite).keys _
            unfold answered at h
            dsimp only at h
            rw [d.shown_eq hkeys] at h
            obtain ⟨rfl, hstock⟩ := hooked_eq_ok h
            obtain ⟨rfl, -⟩ := Prod.mk.inj hstock
            exact ⟨key, current, idOf_eq_ok.mp hid, hcurrent, hafter, hget, rfl⟩

/-- A key that no member item has the text of is in no group. -/
theorem spelling_eq_nil {tables : Tables} {user : Uuid}
    (h : ∀ item ∈ tables.itemsOf .members, item.value ≠ some user.toText) :
    spelling tables [user] = [] := by
  refine List.filter_eq_nil_iff.mpr fun group hmem hspells => ?_
  obtain ⟨row, -, rfl⟩ := Tables.mem_recordsInOrder.mp hmem
  rw [List.any_cons, List.any_nil, Bool.or_false, Record.spells, List.any_eq_true] at hspells
  obtain ⟨item, hitem, hvalue⟩ := hspells
  have hitems : (tables.record row).items .members = tables.ownedItems row.id .members :=
    @items_childrenOf .group ..
  rw [hitems] at hitem
  exact h item (List.mem_of_mem_filter hitem) (of_decide_eq_true hvalue)

/-- The record of a resource is shown as what was submitted. -/
theorem shownOver_recordOf (d : Directory) (tables : Tables) (resource : Resource type) (id : Uuid)
    (created now : Instant) (draw : Nat) :
    d.shownOver tables (d.recordOf resource id created now draw) =
      d.served resource id (groupRefs d.config.root (spelling tables [id]) id)
        (d.metadataOf type id created now (d.recordOf resource id created now draw).row.etag) := by
  rw [← metadata_recordOf]
  cases type with
  | user => exact userView_toRecord ..
  | group => exact groupView_toRecord ..

/-- A new record is shown as what was submitted, without groups. -/
theorem newView_recordOf (d : Directory) (resource : Resource type) (id : Uuid)
    (created now : Instant) (draw : Nat) :
    d.newView (d.recordOf resource id created now draw) = d.served resource id []
      (d.metadataOf type id created now (d.recordOf resource id created now draw).row.etag) := by
  rw [← metadata_recordOf]
  cases type with
  | user => exact userView_toRecord ..
  | group => exact groupView_toRecord ..

end Directory

/-- Nothing that is submitted is lost. In any directory that can be reached, what a creation or a
replacement answers with is what is shown from then on, and it is the submitted resource: with every
scalar and every component of the name, and with all items in their order, but without the password
and without a name that has no components, with the server's schemas, identifier, groups and metadata,
and with URLs for the members that had none. A new user is in no group unless a stored member already
has its key. What a patch answers with is shown from then on as well. -/
theorem writes_are_read_back (d : Directory) (history : List (Instant × Command)) (now : Instant)
    {w after : World Tables} (hreached : d.serveAll history (World.fresh Tables.empty) = w) :
    (∀ {type : ResourceType} (given : Option Uuid) (resource shown : Resource type),
      (d.create now given resource).run w = (.ok shown, after) →
      let key := Directory.keyFor given w
      (type = .user → ∀ item ∈ w.store.itemsOf .members, item.value ≠ some key.toText) →
      d.Returns after key shown ∧
      ∃ version, shown = d.served resource key [] (d.metadataOf type key now now version)) ∧
    (∀ {type : ResourceType} (id : String) (resource shown : Resource type) (ifMatch : Option String),
      (d.replace now id resource ifMatch).run w = (.ok shown, after) →
      ∃ (key : Uuid) (current : Record type), Uuid.ofText? id = some key ∧
        w.store.get? type key = some current ∧ d.Returns after key shown ∧
        ∃ version, shown = d.served resource key
          (Directory.groupRefs d.config.root (Directory.spelling after.store [key]) key)
          (d.metadataOf type key current.row.created now version)) ∧
    ∀ {type : ResourceType} (id : String) (request : PatchRequest) (shown : Resource type),
      (d.patch now type id request).run w = (.ok shown, after) →
      ∃ key, Uuid.ofText? id = some key ∧ d.Returns after key shown := by
  have hsound : w.store.Sound w.draws :=
    hreached ▸ Directory.serveAll_sound (Tables.sound_empty 0) history
  refine ⟨?_, ?_, ?_⟩
  · intro type given resource shown hrun key hnames
    obtain ⟨-, hwrite, hafter, hget, rfl⟩ := Directory.create_eq_ok hsound hrun
    refine ⟨?_, _, d.newView_recordOf ..⟩
    have hshown : d.Returns after key (d.shownOver after.store _) :=
      Directory.Shows.returns ⟨hafter, hget, rfl⟩
    rw [Directory.shownOver_recordOf] at hshown
    rw [Directory.newView_recordOf]
    cases type with
    | group => exact hshown
    | user =>
      have hmembers : after.store.itemsOf .members = w.store.itemsOf .members := by
        obtain ⟨-, -, -, hstore, -⟩ := Tables.insert_eq_ok hwrite
        have howner : Relation.members.owner ≠ .user := nofun
        rw [hstore, (d.drawn_recordOf ..).itemsOf_addItems, d.items_recordOf, if_neg howner,
          List.append_nil, Tables.itemsOf_put]
      rw [Directory.spelling_eq_nil (hmembers ▸ hnames rfl)] at hshown
      exact hshown
  · intro type id resource shown ifMatch hrun
    obtain ⟨key, current, hkey, hcurrent, hshows⟩ := Directory.replace_eq_ok hsound hrun
    exact ⟨key, current, hkey, hcurrent, hshows.returns, _,
      hshows.view.trans (d.shownOver_recordOf ..)⟩
  · intro type id request shown hrun
    obtain ⟨key, record, hkey, hshows⟩ := Directory.patch_eq_ok hsound hrun
    exact ⟨key, hkey, hshows.returns⟩

/-- A user who is in a group is replaced or patched, and another one is created: each time the answer
is what is shown under the key. -/
theorem writes_are_read_back_of_member :
    let d : Directory := ⟨.standard, [], Filter.parse⟩
    let key := Uuid.numbered 1
    let alice : Resource .user := { User.named "alice" with
      password := some "secret", name := some .empty
      values := fun c => if c = .emails then [.ofValue "a@x.org", .ofValue "b@x.org"] else [] }
    let bob : Resource .user := User.named "bob"
    let crew : Resource .group :=
      { Group.named "crew" with members := [⟨key.toText, none, none, none⟩] }
    let history := [(.ofSeconds 0, .create none alice), (.ofSeconds 1, .create none crew)]
    let request : PatchRequest := .ofOperations [.replace "title" (.text "captain")]
    ∃ w, d.serveAll history (World.fresh Tables.empty) = w ∧
      (∃ after version, d.Returns after (.numbered 3) (d.served bob (.numbered 3) []
          (d.metadataOf .user (.numbered 3) (.ofSeconds 2) (.ofSeconds 2) version)) ∧
        ((d.create (.ofSeconds 2) none bob).run w).2 = after) ∧
      (∃ after version, d.Returns after key (d.served alice key
          (Directory.groupRefs d.config.root (Directory.spelling after.store [key]) key)
          (d.metadataOf .user key (.ofSeconds 0) (.ofSeconds 2) version)) ∧
        ((d.replace (.ofSeconds 2) key.toText alice none).run w).2 = after) ∧
      ∃ (after : World Tables) (shown : Resource .user), d.Returns after key shown ∧
        (d.patch (.ofSeconds 2) .user key.toText request).run w = (.ok shown, after) := by
  intro d key alice bob crew history request
  obtain ⟨w, hw⟩ : ∃ w, d.serveAll history (World.fresh Tables.empty) = w := ⟨_, rfl⟩
  have hcreated : ((d.create (.ofSeconds 2) none bob).run w).1.isOk = true := by
    rw [← hw]
    decide +kernel
  have hreplaced : ((d.replace (.ofSeconds 2) key.toText alice none).run w).1.isOk = true := by
    rw [← hw]
    decide +kernel
  have hpatched : ((d.patch (.ofSeconds 2) .user key.toText request).run w).1.isOk = true := by
    rw [← hw]
    decide +kernel
  have hnames : ∀ item ∈ w.store.itemsOf .members,
      item.value ≠ some (Directory.keyFor none w).toText := by
    rw [← hw]
    decide +kernel
  have hkey : Directory.keyFor none w = .numbered 3 := by
    rw [← hw]
    decide +kernel
  have hstored : (w.store.get? .user key).map (·.row.created) = some (.ofSeconds 0) := by
    rw [← hw]
    decide +kernel
  obtain ⟨newcomer, hnewcomer⟩ := eq_ok_mk_of_isOk hcreated
  obtain ⟨other, hother⟩ := eq_ok_mk_of_isOk hreplaced
  obtain ⟨titled, htitled⟩ := eq_ok_mk_of_isOk hpatched
  refine ⟨w, hw, ?_, ?_, _, titled, ?_, htitled⟩
  · obtain ⟨hcreate, -, -⟩ := writes_are_read_back d history (.ofSeconds 2) hw
    obtain ⟨hreturns, version, hshown⟩ := hcreate none bob newcomer hnewcomer fun _ => hnames
    rw [hshown, hkey] at hreturns
    exact ⟨_, version, hreturns, rfl⟩
  · obtain ⟨-, hreplace, -⟩ := writes_are_read_back d history (.ofSeconds 2) hw
    obtain ⟨found, current, hfound, hcurrent, hreturns, version, hshown⟩ :=
      hreplace key.toText alice other none hother
    cases key.ofText?_toText.symm.trans hfound
    rw [hcurrent] at hstored
    have hmade : current.row.created = .ofSeconds 0 := Option.some.inj hstored
    rw [hshown, hmade] at hreturns
    exact ⟨_, version, hreturns, rfl⟩
  · obtain ⟨-, -, hpatch⟩ := writes_are_read_back d history (.ofSeconds 2) hw
    obtain ⟨found, hfound, hreturns⟩ := hpatch key.toText _ titled htitled
    cases key.ofText?_toText.symm.trans hfound
    exact hreturns

end ScimDirectory
