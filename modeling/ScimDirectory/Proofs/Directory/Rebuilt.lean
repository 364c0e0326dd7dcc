import ScimDirectory.Proofs.Directory.ReadBack
import ScimDirectory.Proofs.Patch.Rebuilding

/-!
# Creating at once and creating by replacement

A resource that is created at once is stored as it is submitted. One that is created with nothing
but its name and then gets its attributes by a replacement passes through the paths, the decoding
and the columns of operations. Both are the same in the end.
-/

namespace ScimDirectory

namespace Tables

variable {type : ResourceType}

/-- A name that no row has is free for every row. -/
theorem checkName_of_new {tables : Tables} {a b : Row type} (hnew : tables.has type a.id = false)
    (hname : b.uniqueName? = a.uniqueName?) (h : tables.checkName a = .ok ()) :
    tables.checkName b = .ok () := by
  rw [checkName_eq_ok_iff, nameTaken] at h ⊢
  rw [hname]
  cases hunique : a.uniqueName? with
  | none => rfl
  | some name =>
    rw [hunique] at h
    refine List.any_eq_false.mpr fun other hmem htaken => List.any_eq_false.mp h other hmem ?_
    have hother : other.id ≠ a.id := by
      intro hid
      have hthere : tables.has type a.id = true :=
        has_iff.mpr (List.mem_map.mpr ⟨other, hmem, hid⟩)
      rw [hnew] at hthere
      cases hthere
    exact Bool.and_eq_true_iff.mpr ⟨decide_eq_true hother, (Bool.and_eq_true_iff.mp htaken).2⟩

end Tables

namespace Directory

variable {d : Directory} {type : ResourceType} {w : World Tables}

/-- The answer of a use that has written a resource: the resource, unless a hook fails on it. -/
def Answers (d : Directory) (answer : Except DirectoryError (Resource type)) : Prop :=
  ∃ shown, answer = (Hook.run shown d.config.hooks).2.map fun _ => shown

theorem answers_hooked (d : Directory) (resource : Resource type) (w : World Tables) :
    d.Answers (d.hooked resource w).1 := ⟨resource, rfl⟩

/-- Such an answer is a success where no hook ever fails. -/
theorem isOk_of_answers {answer : Except DirectoryError (Resource type)} (h : d.Answers answer)
    (hhooks : ∀ shown : Resource type, (Hook.run shown d.config.hooks).2 = .ok ()) :
    answer.isOk = true := by
  obtain ⟨shown, rfl⟩ := h
  rw [hhooks shown]
  rfl

/-- The columns of a record are those of the resource that it was made for. -/
theorem cell_recordOf (d : Directory) (resource : Resource type) (id : Uuid) (created now : Instant)
    (draw : Nat) :
    (d.recordOf resource id created now draw).row.cell = (Resource.content resource).cell := by
  funext column
  cases type <;> cases column <;> rfl

theorem uniqueName?_recordOf_bare (d : Directory) (resource : Resource type) (id key : Uuid)
    (created now earlier : Instant) (draw more : Nat) :
    (d.recordOf (Resource.bare resource) key earlier earlier more).row.uniqueName? =
      (d.recordOf resource id created now draw).row.uniqueName? := by
  refine Row.uniqueName?_congr ?_
  rw [cell_recordOf, cell_recordOf]
  cases type <;> rfl

/-- A resource with nothing but the name of a valid one is valid. -/
theorem validate_bare {resource : Resource type} (h : validate resource = .ok ()) :
    validate (Resource.bare resource) = .ok () := by
  cases type with
  | user =>
    change User.validate (User.named (User.userName resource)) = .ok ()
    simp only [User.validate, User.named, (User.validate_eq_ok h).1]
    rfl
  | group =>
    change Group.validate (Group.named (Group.displayName resource)) = .ok ()
    simp only [Group.validate, Group.named, (Group.validate_eq_ok h).1]
    rfl

/-- A resource has items in the relations only that are written for it. -/
theorem itemRows_of_not_written {resource : Resource type} {relation : Relation}
    (hnone : (Attribute.listed relation).written resource = none) (draw : Nat) (owner : Uuid) :
    d.itemRows resource draw owner relation = [] := by
  have hrows {α : Type} {toRow : α → ItemId → Uuid → ItemRow} {write : α → Json} {xs : List α}
      (h : Attribute.writtenList write xs = none) : rowsOf toRow draw owner xs = [] := by
    cases xs with
    | nil => rfl
    | cons x xs => cases h
  cases type <;> cases relation <;> first | rfl | exact hrows hnone

theorem itemRows_bare (resource : Resource type) (draw : Nat) (owner : Uuid) (relation : Relation) :
    d.itemRows (Resource.bare resource) draw owner relation = [] := by
  cases type <;> cases relation <;> rfl

/-- Where the record of a valid resource can be inserted, hooks decide what a creation answers. -/
theorem answers_create {now : Instant} {given : Option Uuid} {resource : Resource type}
    (hvalid : validate resource = .ok ()) {stored : Record type} {after : Tables}
    (hwrite : w.store.insert (d.recordOf resource (keyFor given w) now now w.draws) =
      .ok (stored, after)) :
    d.Answers ((d.create now given resource).run w).1 := by
  rw [create_run, hvalid]
  dsimp only
  rw [hwrite]
  exact d.answers_hooked _ _

/-- A resource whose name is free can be created under any new key with nothing but its name. -/
theorem insert_bare {tables : Tables} {resource : Resource type} {id key : Uuid} {now : Instant}
    {draw : Nat} {stored : Record type} {after : Tables}
    (hwrite : tables.insert (d.recordOf resource id now now draw) = .ok (stored, after))
    (hnew : tables.has type key = false) (earlier : Instant) (more : Nat) :
    ∃ stored after,
      tables.insert (d.recordOf (Resource.bare resource) key earlier earlier more) =
        .ok (stored, after) := by
  obtain ⟨-, hunused, hname, -, -⟩ := Tables.insert_eq_ok hwrite
  have hsame := d.uniqueName?_recordOf_bare resource id key now now earlier draw more
  refine Tables.insert_eq ?_ ?_ (Tables.checkName_of_new hunused hsame hname)
  · cases type <;> rfl
  · rw [id_recordOf]
    exact hnew

section

variable {resource : Resource type} {members : Members}
  (hmembers : (Resource.clientMembers resource).Rearranged members)

include hmembers

/-- An attribute of a resource is among the members that a client writes of it. -/
theorem key_mem_of_written {a : Attribute} (ha : a ∈ Attribute.ofType type) {json : Json}
    (hwritten : a.written resource = some json) : a.key ∈ members.map Prod.fst := by
  refine hmembers.keys.mem_iff.mp (List.mem_map.mpr ⟨(a.key, json), ?_, rfl⟩)
  rw [Resource.clientMembers_eq]
  exact Members.mem_present.mpr (List.mem_map.mpr ⟨a, ha, Prod.ext rfl hwritten⟩)

/-- A member that a client writes is for an attribute of the resource. -/
theorem exists_attribute_of_mem (member : String × Json) (hmem : member ∈ members) :
    ∃ a ∈ Attribute.ofType type, a.key = member.1 ∧
      ∃ json, a.written resource = some json ∧ json.Reordered member.2 := by
  obtain ⟨json, hjson, hvalue⟩ := hmembers.values member.1 member.2 hmem
  rw [Resource.clientMembers_eq] at hjson
  obtain ⟨a, ha, heq⟩ := List.mem_map.mp (Members.mem_present.mp hjson)
  obtain ⟨hkey, hwritten⟩ := Prod.mk.inj heq
  exact ⟨a, ha, hkey, json, hwritten, hvalue⟩

/-- What a resource with nothing but its name has in a column is what the resource has there, unless
a member is written for the column. -/
theorem column_agrees_or_written (c : Column) :
    (Resource.content (Resource.bare resource)).cell c = (Resource.content resource).cell c ∨
      (Part.column c).IsWritten type members := by
  rcases Resource.cell_content_bare resource c with hsame | hempty
  · exact .inl hsame
  · obtain ⟨a, ha, hcolumn⟩ := Attribute.exists_of_cell hempty
    cases hwritten : a.written resource with
    | none => exact .inl (hempty.trans (Attribute.cell_of_not_written ha hwritten hcolumn).symm)
    | some json => exact .inr ⟨a, ha, key_mem_of_written hmembers ha hwritten, hcolumn⟩

/-- It has no items, like the resource, unless a member is written for the relation. -/
theorem items_agree_or_written {relation : Relation} (hrelation : relation.owner = type)
    (draw : Nat) (owner : Uuid) :
    d.itemRows (Resource.bare resource) draw owner relation = d.itemRows resource 0 owner relation ∨
      (Part.items relation).IsWritten type members := by
  have ha := Attribute.listed_mem_ofType.mpr hrelation
  cases hwritten : (Attribute.listed relation).written resource with
  | none => exact .inl ((itemRows_bare ..).trans (itemRows_of_not_written hwritten ..).symm)
  | some json => exact .inr ⟨_, ha, key_mem_of_written hmembers ha hwritten, rfl⟩

/-- A creation with nothing but the name of a resource leaves a row that members of the resource
complete: its name is that of the resource, and each part agrees with the resource or has a member
that is written for it. -/
theorem completable_create {tables after : Tables} {draws more : Nat} (hsound : tables.Sound draws)
    {key : Uuid} {earlier : Instant} {stored : Record type}
    (hwrite : tables.insert (d.recordOf (Resource.bare resource) key earlier earlier more) =
      .ok (stored, after)) :
    Patch.Completable d resource members after
      (d.recordOf (Resource.bare resource) key earlier earlier more).row where
  userName := by
    rw [Part.Agrees, cell_recordOf]
    cases type <;> rfl
  parts := by
    intro part hpart
    cases part with
    | column c =>
      refine (column_agrees_or_written hmembers c).imp_left fun hsame => ?_
      rw [Part.Agrees, cell_recordOf]
      exact hsame
    | items r =>
      refine (items_agree_or_written (d := d) hmembers hpart more key).imp_left fun hsame => ?_
      have hrelation : r.owner = type := hpart
      have hdrawn := d.drawn_recordOf (Resource.bare resource) key earlier earlier more
      have howned := Tables.ownedItems_insert hsound.toWellFormed hdrawn hwrite key r
      rw [id_recordOf, if_pos ⟨hrelation, rfl⟩, items_recordOf, if_pos hrelation] at howned
      rw [Part.Agrees, id_recordOf, howned, hsame]

/-- One replacement by the members of a resource completes a row. -/
theorem exists_completed (hparser : d.parser.ReadsNames type) (hvalid : validate resource = .ok ())
    (hsound : w.store.Sound w.draws) {row : Row type}
    (hfind : w.store.find? type row.id = some row)
    (hrow : Patch.Completable d resource members w.store row) :
    ∃ w' after, (Patch.applyAll d.setting [⟨.replace, none, .object members⟩]).run (w, row) =
        (.ok (), w', after) ∧ after.id = row.id ∧
      ∀ part : Part, part.Of type → part.Agrees d resource w'.store after := by
  have hfills := Patch.applyMembers_fills (d := d) hparser hvalid
    (exists_attribute_of_mem hmembers) hsound hfind hrow.userName
  have htrace := Patch.applyAll_trace (d := d) hsound hfind [⟨.replace, none, .object members⟩]
  rcases hrun : (Patch.applyMembers d.setting (Patch.replaceAt d.setting) members).run (w, row) with
    ⟨answer, w', after⟩
  rw [hrun] at hfills
  obtain rfl : answer = .ok () := hfills.ok
  have hall : (Patch.applyAll d.setting [⟨.replace, none, .object members⟩]).run (w, row) =
      (.ok (), w', after) := run_bind_of_ok hrun _
  rw [hall] at htrace
  exact ⟨w', after, hall, htrace.same.id,
    fun part hpart => hfills.agrees part (hrow.parts part hpart)⟩

end

/-- A row of which each part agrees with a resource is, with a new time and a new version, the row
of a record with the content of the resource's. -/
theorem sameContent_finished {resource : Resource type} {tables : Tables} {row : Row type}
    (hagrees : ∀ part : Part, part.Of type → part.Agrees d resource tables row)
    (id : Uuid) (created now later : Instant) (draw : Nat) :
    (d.recordOf resource id created now draw).SameContent
      (tables.record (d.finished later (tables.record row))) where
  columns := by
    intro c
    rw [cell_recordOf, record_finished]
    have hcell : (d.finished later (tables.record row)).cell = row.cell :=
      cell_finished d later (tables.record row)
    exact ((congrFun hcell c).trans (hagrees (.column c) trivial)).symm
  items := by
    intro r
    have hid : (d.finished later (tables.record row)).id = row.id := id_finished d later _
    rw [items_recordOf, Tables.record, items_childrenOf, hid]
    split
    · next hrelation =>
      rw [d.map_cell_itemRows resource draw 0 id row.id]
      exact (hagrees (.items r) hrelation).symm
    · rfl

/-- A patch that replaces by the members of a resource makes a row that they complete the same as
what a creation of the resource stores, and gives it the version of that. -/
theorem patch_rebuilds {resource : Resource type} {members : Members}
    (hmembers : (Resource.clientMembers resource).Rearranged members)
    (hparser : d.parser.ReadsNames type) (hvalid : validate resource = .ok ())
    (hsound : w.store.Sound w.draws) {key : Uuid} {row : Row type}
    (hfind : w.store.find? type key = some row)
    (hrow : Patch.Completable d resource members w.store row) {later : Instant}
    {rebuilt : Except DirectoryError (Resource type) × World Tables}
    (hrebuilt : (d.patch later type key.toText
      (.ofOperations [⟨.replace, none, .object members⟩])).run w = rebuilt) :
    d.Answers rebuilt.1 ∧ ∃ record, rebuilt.2.store.get? type key = some record ∧
      (∀ id created now draw, (d.recordOf resource id created now draw).SameContent record) ∧
      (d.config.restampOnPatch = true → record.row.etag = d.stamp record) := by
  obtain rfl : row.id = key := Tables.id_of_find? hfind
  obtain ⟨w', after, happlied, hid, hagrees⟩ :=
    exists_completed hmembers hparser hvalid hsound hfind hrow
  let request : PatchRequest := .ofOperations [⟨.replace, none, .object members⟩]
  have hall : (Patch.applyAll d.setting request.operations).run (w, row) = (.ok (), w', after) :=
    happlied
  have hrequest : request.validate = .ok () :=
    PatchRequest.validate_eq_ok.mpr ⟨List.elem_eq_true_of_mem List.mem_cons_self, rfl, rfl⟩
  have hpatch := hrebuilt.symm.trans (patch_eq hsound later row.id.toText request)
  rw [hrequest, Uuid.ofText?_toText, Option.bind_some, hfind] at hpatch
  dsimp only at hpatch
  rw [hall] at hpatch
  let final := d.finished later (w'.store.record after)
  have hfinal : final.id = row.id := (id_finished d later _).trans hid
  refine ⟨hpatch ▸ d.answers_hooked _ _, w'.store.record final, ?_,
    fun id created now draw => sameContent_finished hagrees id created now later draw,
    fun hrestamp => ?_⟩
  · rw [hpatch, ← hfinal]
    exact Tables.get?_put w'.store final
  · rw [record_finished]
    exact d.etag_finished hrestamp later (w'.store.record after)

end Directory

/-- A creation and a replacement store the same. Whenever a resource could be created, it can be
created under any new key with nothing but its name, and one replacement without a path by all that
a client writes of it, in any order, then makes what is stored the same as the creation would have
stored: in every column, in the items of every relation and their order, and, where patches give a
new version, in the version. Only hooks can fail on the way. -/
theorem replacement_rebuilds_created {type : ResourceType} (d : Directory)
    (hparser : d.parser.ReadsNames type) (history : List (Instant × Command))
    (resource : Resource type) {value : Json}
    (hvalue : (Json.object (Resource.clientMembers resource)).Reordered value)
    (given fresh : Option Uuid) (now earlier later : Instant) :
    let w := d.serveAll history (World.fresh Tables.empty)
    let whole := (d.create now given resource).run w
    let key := Directory.keyFor fresh w
    let bare := (d.create earlier fresh (Resource.bare resource)).run w
    let rebuilt := (d.patch later type key.toText
      (.ofOperations [⟨.replace, none, value⟩])).run bare.2
    whole.1.isOk = true → w.store.has type key = false →
      d.Answers bare.1 ∧ d.Answers rebuilt.1 ∧ ∃ a b : Record type,
        whole.2.store.get? type (Directory.keyFor given w) = some a ∧
        rebuilt.2.store.get? type key = some b ∧ a.SameContent b ∧
        (d.config.restampOnPatch = true → a.row.etag = b.row.etag) := by
  intro w whole key bare rebuilt hwhole hnew
  have hsound : w.store.Sound w.draws :=
    Directory.serveAll_sound (Tables.sound_empty 0) history
  obtain ⟨members, rfl, hmembers⟩ := Members.rearranged_of_reordered hvalue
  obtain ⟨shown, hshown⟩ := eq_ok_mk_of_isOk hwhole
  obtain ⟨hvalid, hwrite, -, ha, -⟩ := Directory.create_eq_ok hsound hshown
  obtain ⟨storedBare, storeBare, hwriteBare⟩ :=
    Directory.insert_bare hwrite hnew earlier w.draws
  have hvalidBare := Directory.validate_bare hvalid
  have hstock : bare.2.stock = (storeBare, w.draws + 1) :=
    Directory.stock_create hvalidBare hwriteBare
  have hstoreBare : bare.2.store = storeBare := congrArg Prod.fst hstock
  have hsoundBare : bare.2.stock.1.Sound bare.2.stock.2 := by
    rw [hstock]
    exact hsound.insert (d.drawn_recordOf ..) hwriteBare
  have hfind := (Tables.find?_insert hwriteBare).1
  have hrow := Directory.completable_create hmembers hsound hwriteBare
  rw [← hstoreBare] at hfind hrow
  rw [d.id_recordOf] at hfind
  have hrebuilt : (d.patch later type key.toText
      (.ofOperations [⟨.replace, none, .object members⟩])).run bare.2 = rebuilt := rfl
  obtain ⟨hpatched, b, hb, hsame, hstamp⟩ :=
    Directory.patch_rebuilds hmembers hparser hvalid hsoundBare hfind hrow hrebuilt
  refine ⟨Directory.answers_create hvalidBare hwriteBare, hpatched, _, b, ha, hb, hsame ..,
    fun hrestamp => ?_⟩
  rw [d.etag_recordOf, hstamp hrestamp]
  exact d.stamp_congr (hsame ..)

/-- A user with a mail address, of whose attributes the replacement has the last one first. -/
theorem replacement_rebuilds_created_user_with_mail :
    let d : Directory :=
      ⟨{ Config.standard with restampOnPatch := true }, Stamp.utf8 "salt", Filter.parse⟩
    let user : Resource .user := { User.named "alice" with
      displayName := some "Alice"
      values := fun
        | .emails => [MultiValue.ofValue "a@example.org"]
        | _ => [] }
    let value : Json := .object (Resource.clientMembers user).reverse
    let w := d.serveAll [] (World.fresh Tables.empty)
    let whole := (d.create (.ofSeconds 0) none user).run w
    let fresh := some (Uuid.numbered 2)
    let key := Directory.keyFor fresh w
    let bare := (d.create (.ofSeconds 1) fresh (Resource.bare user)).run w
    let rebuilt := (d.patch (.ofSeconds 2) .user key.toText
      (.ofOperations [⟨.replace, none, value⟩])).run bare.2
    whole.1.isOk = true ∧ w.store.has .user key = false ∧ bare.1.isOk = true ∧
      rebuilt.1.isOk = true ∧ ∃ a b : Record .user,
        whole.2.store.get? .user (Directory.keyFor none w) = some a ∧
        rebuilt.2.store.get? .user key = some b ∧ a.SameContent b ∧ a.row.etag = b.row.etag := by
  intro d user value
  have hvalue : (Json.object (Resource.clientMembers user)).Reordered value :=
    .object rfl (List.forall₂_same.mpr fun _ _ => .refl _) (List.reverse_perm _).symm
  have hwhole : ((d.create (.ofSeconds 0) none user).run
      (d.serveAll [] (World.fresh Tables.empty))).1.isOk = true := by decide
  obtain ⟨hbare, hrebuilt, a, b, ha, hb, hsame, hetag⟩ :=
    replacement_rebuilds_created d (Filter.readsNames_parse .user) [] user hvalue none
      (some (Uuid.numbered 2)) (.ofSeconds 0) (.ofSeconds 1) (.ofSeconds 2) hwhole rfl
  exact ⟨hwhole, rfl, Directory.isOk_of_answers hbare fun _ => rfl,
    Directory.isOk_of_answers hrebuilt fun _ => rfl, a, b, ha, hb, hsame, hetag rfl⟩

end ScimDirectory
