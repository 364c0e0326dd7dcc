import ScimDirectory.Proofs.Directory.Confinement
import ScimDirectory.Proofs.Directory.Derived

/-!
# Patches in one piece

A patch that is taken looks its resource up and applies its operations to the row, and once they
have succeeded nothing of it can fail but a hook: the row at hand gets its time and its version and
is stored. The answer is the view of what is then stored.
-/

namespace ScimDirectory

/-- A request is taken when it declares its schema, has operations, and no removal lacks a path. -/
theorem PatchRequest.validate_eq_ok {request : PatchRequest} :
    request.validate = .ok () ↔ request.schemas.contains schema = true ∧
      request.operations.isEmpty = false ∧
      (request.operations.any fun op => op.kind = .remove && op.path.isNone) = false := by
  unfold validate
  cases request.schemas.contains schema <;> cases request.operations.isEmpty <;>
    cases request.operations.any fun op => op.kind = .remove && op.path.isNone <;> simp

namespace Directory

variable {d : Directory} {type : ResourceType} {w w' : World Tables}

/-- A row that gets its time and its version is stored, since its key and its name are as they
were. -/
theorem update_finished (hsound : w.store.Sound w.draws) (now : Instant) {uuid : Uuid}
    {row : Row type} (hfind : w.store.find? type uuid = some row) :
    w.store.update (d.finished now (w.store.record row)) =
      .ok (d.finished now (w.store.record row),
        w.store.put (d.finished now (w.store.record row))) := by
  have hkey : (d.finished now (w.store.record row)).id = uuid :=
    (id_finished d now _).trans (Tables.id_of_find? hfind)
  exact hsound.toWellFormed.update_eq (hkey.symm ▸ hfind)
    (uniqueName?_finished d now (w.store.record row))

/-- A patch that succeeds ends with a row that got its time and its version, and with the verdict of
the hooks on what is shown of it. -/
theorem concluded_eq (hsound : w.store.Sound w.draws) (now : Instant) {uuid : Uuid} (id : String)
    {row : Row type} (hfind : w.store.find? type uuid = some row) :
    let record := (w.store.record row).withRow (d.finished now (w.store.record row))
    let store := w.store.put record.row
    d.concluded now type uuid id w = d.hooked (d.shownOver store record) { w with store } := by
  intro record store
  have hupdate := update_finished (d := d) hsound now hfind
  have hafter : store.Sound w.draws := hsound.update hupdate
  unfold concluded
  rw [Tables.get?_of_find? hfind]
  dsimp only
  rw [hupdate]
  change d.answered record { w with store } = _
  unfold answered
  dsimp only
  rw [d.shown_eq (hafter.keys .group)]

/-- A patch in one piece: the request is checked, the row is looked up, the operations are applied
to it, and the row that they leave gets its time and its version. -/
theorem patch_eq (hsound : w.store.Sound w.draws) (now : Instant) (id : String)
    (request : PatchRequest) :
    (d.patch now type id request).run w =
      match request.validate, (Uuid.ofText? id).bind (w.store.find? type) with
      | .error error, _ => (.error (.patch error), w)
      | .ok (), none => (.error (.notFound type.name id), w)
      | .ok (), some row =>
        match (Patch.applyAll d.setting request.operations).run (w, row) with
        | (.error error, middle, _) => (.error error, middle)
        | (.ok (), middle, after) =>
          let record := (middle.store.record after).withRow
            (d.finished now (middle.store.record after))
          let store := middle.store.put record.row
          d.hooked (d.shownOver store record) { middle with store } := by
  rw [patch_run]
  cases request.validate with
  | error error => rfl
  | ok _ =>
    cases hkey : Uuid.ofText? id with
    | none => rw [idOf_eq_error hkey]; rfl
    | some uuid =>
      rw [idOf_eq_ok.mpr hkey]
      dsimp only [Option.bind_some]
      cases hfind : w.store.find? type uuid with
      | none => rw [Tables.get?, hfind]; rfl
      | some row =>
        obtain rfl : row.id = uuid := Tables.id_of_find? hfind
        have htrace := Patch.applyAll_trace (d := d) hsound hfind request.operations
        have hpatched : (d.patched row request.operations).run w =
            (((Patch.applyAll d.setting request.operations).run (w, row)).1,
              ((Patch.applyAll d.setting request.operations).run (w, row)).2.1) := rfl
        rw [Tables.get?_of_find? hfind]
        dsimp only
        rw [Tables.record, hpatched]
        rcases hrun : (Patch.applyAll d.setting request.operations).run (w, row) with
          ⟨error | _, middle, after⟩
        · rfl
        · rw [hrun] at htrace
          exact concluded_eq (Writes.sound htrace.writes hsound) now id (htrace.stored rfl)

/-- Without hooks a patch succeeds exactly when the request is taken, the resource is there and its
operations succeed, and then the row at hand gets its time and its version. -/
theorem patch_eq_ok_iff (hhooks : d.config.hooks = []) (hsound : w.store.Sound w.draws)
    {now : Instant} {id : String} {request : PatchRequest} :
    (∃ shown, (d.patch now type id request).run w = (.ok shown, w')) ↔
      request.validate = .ok () ∧ ∃ (row after : Row type) (middle : World Tables),
        Uuid.ofText? id = some row.id ∧ w.store.find? type row.id = some row ∧
        (Patch.applyAll d.setting request.operations).run (w, row) = (.ok (), middle, after) ∧
        w' = { middle with
          store := middle.store.put (d.finished now (middle.store.record after)) } := by
  have hhooked (shown : Resource type) (w : World Tables) : d.hooked shown w = (.ok shown, w) := by
    rw [hooked, hhooks]
    simp only [Hook.run, List.append_nil]
    rfl
  rw [patch_eq hsound]
  constructor
  · rintro ⟨shown, hrun⟩
    split at hrun
    · cases hrun
    · cases hrun
    · next row hvalid hfound =>
      obtain ⟨uuid, hkey, hfind⟩ := Option.bind_eq_some_iff.mp hfound
      obtain rfl : row.id = uuid := Tables.id_of_find? hfind
      split at hrun
      · cases hrun
      · next middle after happlied =>
        dsimp only at hrun
        rw [hhooked] at hrun
        exact ⟨hvalid, row, after, middle, hkey, hfind, happlied, (congrArg Prod.snd hrun).symm⟩
  · rintro ⟨hvalid, row, after, middle, hkey, hfind, happlied, rfl⟩
    rw [hvalid, hkey, Option.bind_some, hfind]
    dsimp only
    rw [happlied]
    exact ⟨_, hhooked _ _⟩

/-- A resource is what the record under a key is shown as, in a sound store. -/
structure Shows (d : Directory) (w : World Tables) (key : Uuid) (record : Record type)
    (resource : Resource type) : Prop where
  /-- The store is sound. -/
  sound : w.store.Sound w.draws
  /-- The record is under the key. -/
  stored : w.store.get? type key = some record
  /-- The resource is the view of it. -/
  view : resource = d.shownOver w.store record

/-- Hooks that let a resource pass change neither it nor what is stored. -/
theorem hooked_eq_ok {shown resource : Resource type} {done after : World Tables}
    (h : d.hooked shown done = (.ok resource, after)) :
    resource = shown ∧ after.stock = done.stock := by
  obtain ⟨hanswer, rfl⟩ := Prod.mk.inj h
  obtain ⟨_, -, rfl⟩ := except_map_eq_ok.mp hanswer
  exact ⟨rfl, rfl⟩

/-- A patch whose operations succeed ends with the record that they have left, which gets its time and
its version, and with the verdict of the hooks on what is shown of it. -/
theorem patch_of_patched (hsound : w.store.Sound w.draws) (now : Instant) {id : String} {key : Uuid}
    {request : PatchRequest} {current : Record type} {middle : World Tables}
    (hvalid : request.validate = .ok ()) (hkey : Uuid.ofText? id = some key)
    (hcurrent : w.store.get? type key = some current)
    (hrun : (d.patched current.row request.operations).run w = (.ok (), middle)) :
    ∃ left : Record type, middle.store.get? type key = some left ∧
      let record := left.withRow (d.finished now left)
      let done := { middle with store := middle.store.put record.row }
      (d.patch now type id request).run w = d.hooked (d.shownOver done.store record) done ∧
        done.store.Sound done.draws ∧ done.store.get? type key = some record := by
  obtain ⟨rfl, row, htrace⟩ := patched_trace hsound hcurrent hrun
  have hmiddle := htrace.writes.sound hsound
  have hrow := htrace.stored rfl
  have hupdate := update_finished (d := d) hmiddle now hrow
  refine ⟨_, Tables.get?_of_find? hrow, ?_, hmiddle.update hupdate, ?_⟩
  · rw [patch_run, hvalid, idOf_eq_ok.mpr hkey]
    dsimp only
    rw [hcurrent]
    dsimp only
    rw [hrun]
    exact concluded_eq hmiddle now id hrow
  · have hid : (d.finished now (middle.store.record row)).id = current.row.id :=
      (id_finished d now _).trans (Tables.id_of_find? hrow)
    have hput := middle.store.get?_put (d.finished now (middle.store.record row))
    rw [record_finished, hid] at hput
    exact hput

/-- A patch that succeeds shows the record under the key as it is stored from then on. -/
theorem patch_eq_ok (hsound : w.store.Sound w.draws) {now : Instant} {id : String}
    {request : PatchRequest} {shown : Resource type}
    (h : (d.patch now type id request).run w = (.ok shown, w')) :
    ∃ (key : Uuid) (record : Record type), Uuid.ofText? id = some key ∧
      d.Shows w' key record shown := by
  have hpatch := h
  rw [patch_run] at h
  split at h
  · cases h
  · next hvalid =>
    split at h
    · cases h
    · next key hid =>
      split at h
      · cases h
      · next current hcurrent =>
        split at h
        · cases h
        · next middle hrun =>
          have hkey := idOf_eq_ok.mp hid
          obtain ⟨left, -, hends, hafter, hget⟩ :=
            patch_of_patched hsound now hvalid hkey hcurrent hrun
          obtain ⟨rfl, hstock⟩ := hooked_eq_ok (hends.symm.trans hpatch)
          obtain ⟨hstore, hdraws⟩ := Prod.mk.inj hstock
          rw [← hstore, ← hdraws] at hafter
          rw [← hstore] at hget
          exact ⟨key, _, hkey, hafter, hget, by rw [hstore]⟩

/-- What a patch ends with is the row at hand with a time and a version. -/
theorem finished_eq (d : Directory) (now : Instant) (record : Record type) :
    d.finished now record =
      (record.row.withLastModified now).withEtag (d.finished now record).etag := by
  unfold finished
  split <;> cases type <;> rfl

/-- Neither of them is in a column. -/
theorem cell_finished (d : Directory) (now : Instant) (record : Record type) :
    (d.finished now record).cell = record.row.cell := by
  rw [finished_eq, Row.cell_withEtag, Row.cell_withLastModified]

end Directory

end ScimDirectory
