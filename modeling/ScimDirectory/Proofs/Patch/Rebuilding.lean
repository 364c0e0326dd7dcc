import ScimDirectory.Proofs.Patch.Effects
import ScimDirectory.Proofs.Patch.Written

/-!
# Rebuilding a resource by replacements

A replacement of an attribute by the value that is written for it makes the columns and the items
of the attribute those of the resource it was written for, and leaves all others. So replacements
of all attributes that a resource has, in any order, make a resource that had none of them the same
as it.
-/

namespace ScimDirectory

/-- A part of what is stored for a resource. -/
inductive Part where
  /-- What is in one column. -/
  | column (column : Column)
  /-- The items of one relation. -/
  | items (relation : Relation)

/-- Whether resources of a type have a part. -/
def Part.Of (type : ResourceType) : Part → Prop
  | .column _ => True
  | .items r => r.owner = type

/-- Whether a part is stored for an attribute. -/
def Attribute.Covers (a : Attribute) : Part → Prop
  | .column c => c ∈ a.columns
  | .items r => a = .listed r

/-- Whether one of some members is written for a part. -/
def Part.IsWritten (type : ResourceType) (members : Members) (part : Part) : Prop :=
  ∃ a ∈ Attribute.ofType type, a.key ∈ members.map Prod.fst ∧ a.Covers part

/-- What is stored for a part is what a resource has there. -/
def Part.Agrees (d : Directory) {type : ResourceType} (resource : Resource type) (tables : Tables)
    (row : Row type) : Part → Prop
  | .column c => row.cell c = (Resource.content resource).cell c
  | .items r => (tables.ownedItems row.id r).map ItemRow.cell =
    (d.itemRows resource 0 row.id r).map ItemRow.cell

/-- The columns of item rows depend neither on their keys nor on their owner. -/
theorem Directory.map_cell_itemRows (d : Directory) {type : ResourceType} (resource : Resource type)
    (draw draw' : Nat) (owner owner' : Uuid) (relation : Relation) :
    (d.itemRows resource draw owner relation).map ItemRow.cell =
      (d.itemRows resource draw' owner' relation).map ItemRow.cell := by
  have hrows {α : Type} {toRow : α → ItemId → Uuid → ItemRow}
      (h : ∀ a id owner, (toRow a id owner).cell = (toRow a (.drawn 0 0) (Uuid.numbered 0)).cell)
      (xs : List α) : (rowsOf toRow draw owner xs).map ItemRow.cell =
        (rowsOf toRow draw' owner' xs).map ItemRow.cell :=
    (map_rowsOf h draw owner xs).trans (map_rowsOf h draw' owner' xs).symm
  cases type with
  | user =>
    cases relation with
    | values c => exact hrows (fun _ _ _ => by funext column; cases column <;> rfl) _
    | addresses => exact hrows (fun _ _ _ => by funext column; cases column <;> rfl) _
    | members => rfl
  | group =>
    cases relation with
    | members => exact hrows (fun _ _ _ => by funext column; cases column <;> rfl) _
    | _ => rfl

namespace Patch

variable {d : Directory} {type : ResourceType}

/-- Columns that take what another row has in them end with that, and the other columns stay. -/
theorem assigned_of_cells {row content : Row type} (hname : content.requiredName ≠ "")
    {updates : Updates} (h : ∀ update ∈ updates, content.cell update.1.column = some update.2) :
    ∃ new, assigned row updates = .ok new ∧ ∀ column,
      (row.cell column = content.cell column ∨ ∃ update ∈ updates, update.1.column = column) →
        new.cell column = content.cell column := by
  induction updates generalizing row with
  | nil => exact ⟨row, rfl, fun _ hcell => hcell.elim id fun ⟨_, hmem, _⟩ => nomatch hmem⟩
  | cons update updates ih =>
    obtain ⟨middle, hassign, hmiddle⟩ :=
      @Row.assign_cell type row content update.1.column update.2 (h update List.mem_cons_self) hname
    obtain ⟨new, hnew, hcells⟩ :=
      @ih middle fun update hmem => h update (List.mem_cons_of_mem _ hmem)
    refine ⟨new, ?_, fun column hcell => hcells column ?_⟩
    · rw [assigned, hassign]
      exact hnew
    · rw [hmiddle column]
      rcases hcell with hcell | ⟨other, hother, hcolumn⟩
      · exact .inl (by split <;> first | rfl | exact hcell)
      · rcases List.mem_cons.mp hother with rfl | hother
        · exact .inl (if_pos hcolumn.symm)
        · exact .inr ⟨other, hother, hcolumn⟩

/-- A step that succeeds and after which some parts agree with a resource, and all those that did
before it. -/
structure Fills (d : Directory) (resource : Resource type) (covered : Part → Prop)
    (w : World Tables) (row : Row type)
    (result : Except DirectoryError Unit × World Tables × Row type) : Prop where
  /-- The step succeeds. -/
  ok : result.1 = .ok ()
  /-- What agrees after it. -/
  agrees : ∀ part : Part, part.Agrees d resource w.store row ∨ covered part →
    part.Agrees d resource result.2.1.store result.2.2

/-- A row that members of a resource complete. -/
structure Completable (d : Directory) (resource : Resource type) (members : Members)
    (tables : Tables) (row : Row type) : Prop where
  /-- Its name is that of the resource. -/
  userName : (Part.column .userName).Agrees d resource tables row
  /-- Each part agrees with the resource, or a member is written for it. -/
  parts : ∀ part : Part, part.Of type →
    part.Agrees d resource tables row ∨ part.IsWritten type members

/-- A step covers what a larger one covers. -/
theorem Fills.mono {resource : Resource type} {w : World Tables} {row : Row type}
    {covered more : Part → Prop} {result : Except DirectoryError Unit × World Tables × Row type}
    (h : Fills d resource more w row result) (hle : ∀ part, covered part → more part) :
    Fills d resource covered w row result :=
  ⟨h.ok, fun part hpart => h.agrees part (hpart.imp_right (hle part))⟩

section

variable {resource : Resource type} {w : World Tables} {row : Row type}
  (hsound : w.store.Sound w.draws) (hfind : w.store.find? type row.id = some row)

include hsound hfind

/-- The rows of a resource take the place of the items of a relation. -/
theorem replaceItems_fills {relation : Relation} (hrelation : relation.owner = type) {value : Json}
    (hplan : replacements d.config.root row.id relation w.draws value =
      .ok (d.itemRows resource w.draws row.id relation)) :
    Fills d resource (· = .items relation) w row
      ((Step.lift (replaceItems d.setting.root row.id relation value)).run (w, row)) := by
  have hrun := replaceItems_run hsound (has_of_find? hfind hrelation) d.setting.root value
  have hplanned : replacements d.setting.root row.id relation w.draws value =
      .ok (d.itemRows resource w.draws row.id relation) := hplan
  rw [lift_run, hrun, hplanned]
  refine ⟨rfl, fun part hpart => ?_⟩
  have howners := (d.keys_of_itemRows resource w.draws row.id relation).2
  have howned : ∀ item : ItemRow, decide (item.owner = row.id) = true → item.owner = row.id :=
    fun _ => of_decide_eq_true
  cases part with
  | column c => exact hpart.resolve_right nofun
  | items r =>
    by_cases hr : r = relation
    · subst hr
      refine (congrArg (List.map ItemRow.cell) ?_).trans
        (d.map_cell_itemRows resource w.draws 0 row.id row.id r)
      refine (Tables.ownedItems_append_self howners).trans ?_
      rw [Tables.ownedItems_without_owner, List.nil_append]
    · have hkept := hpart.resolve_right fun heq => hr (Part.items.inj heq)
      have hne : ¬(row.id = row.id ∧ r = relation) := fun h => hr h.2
      refine (congrArg (List.map ItemRow.cell) ?_).trans hkept
      refine (Tables.ownedItems_append_of_ne howners hne).trans ?_
      exact Tables.ownedItems_without_of_ne howned hne

variable (huserName : (Part.column .userName).Agrees d resource w.store row)

include huserName

/-- Columns take what the resource has in them. -/
theorem setFields_fills (hvalid : Directory.validate resource = .ok ()) {updates : Updates}
    (h : ∀ update ∈ updates, (Resource.content resource).cell update.1.column = some update.2) :
    Fills d resource (fun part => ∃ field ∈ updates.map Prod.fst, part = .column field.column) w row
      ((setFields updates).run (w, row)) := by
  obtain ⟨new, hassigned, hcells⟩ :=
    @assigned_of_cells type row _ (Resource.requiredName_ne_empty hvalid) updates h
  obtain ⟨_, -, hrun⟩ := setFields_run updates w row
  have hid : new.id = row.id := (sameSystem_of_assigned hassigned).id
  have hkept : new.uniqueName? = row.uniqueName? :=
    Row.uniqueName?_congr ((hcells .userName (.inl huserName)).trans huserName.symm)
  have hstored : w.store.find? type new.id = some row := by
    rw [hid]
    exact hfind
  rw [hrun, hassigned]
  dsimp only
  rw [hsound.toWellFormed.update_eq hstored hkept]
  refine ⟨rfl, fun part hpart => ?_⟩
  cases part with
  | column c =>
    refine hcells c (hpart.imp id ?_)
    rintro ⟨_, hmem, heq⟩
    obtain ⟨update, hupdate, rfl⟩ := List.mem_map.mp hmem
    exact ⟨update, hupdate, (Part.column.inj heq).symm⟩
  | items r =>
    have hpart := hpart.resolve_right fun ⟨_, _, heq⟩ => nomatch heq
    simp only [Part.Agrees, Tables.ownedItems_put, hid]
    exact hpart

/-- The value that is written for a column is put into it. -/
theorem replaceField_fills (hvalid : Directory.validate resource = .ok ()) {field : Field}
    (ha : .single field ∈ Attribute.ofType type) {json value : Json}
    (hwritten : (Attribute.single field).written resource = some json)
    (h : json.Reordered value) :
    Fills d resource (Attribute.single field).Covers w row
      ((replaceAt d.setting (.field field) value).run (w, row)) := by
  obtain ⟨s, hcell, rfl⟩ := Attribute.writtenCell_eq_some.mp hwritten
  obtain rfl := Scalar.eq_of_reordered h
  have hscalar : scalar field s.toJson = .ok (some s) := scalar_eq ha List.mem_cons_self hcell
  have hcheck : (Step.check .patch (scalar field s.toJson) : Step Tables type _).run (w, row) =
      (.ok (some s), w, row) := by
    rw [hscalar]
    rfl
  have hrun : (replaceAt d.setting (.field field) s.toJson).run (w, row) =
      (setFields [(field, some s)]).run (w, row) := run_bind_of_ok hcheck _
  have hright : ∀ update ∈ [(field, some s)],
      (Resource.content resource).cell update.1.column = some update.2 := by
    intro update hmem
    rw [List.mem_singleton.mp hmem]
    exact hcell
  rw [hrun]
  refine (setFields_fills hsound hfind huserName hvalid hright).mono fun part hpart => ?_
  cases part with
  | column c => exact ⟨field, List.mem_cons_self, congrArg _ (List.mem_singleton.mp hpart)⟩
  | items r => cases hpart

end

/-- The value that is written for a name is put into its columns, and those of components that it
lacks are cleared. -/
theorem replaceName_fills {user : Resource .user} {w : World Tables} {row : Row .user}
    (hsound : w.store.Sound w.draws) (hfind : w.store.find? .user row.id = some row)
    (huserName : (Part.column .userName).Agrees d user w.store row)
    (hvalid : Directory.validate user = .ok ()) {json value : Json}
    (hwritten : Attribute.name.written user = some json) (h : json.Reordered value) :
    Fills d user Attribute.name.Covers w row
      ((replaceAt d.setting (.complex "name") value).run (w, row)) := by
  obtain ⟨name, hsome, rfl⟩ := Option.map_eq_some_iff.mp hwritten
  have hname : (Resource.content user : UserRow).name = name := by
    rw [Resource.content, User.toRow, hsome]
    rfl
  rw [← hname] at h
  obtain ⟨changes, hchanges, hnull, hright, huntouched⟩ := complexUpdates_name h
  let updates := overwrite (Attribute.name.fields.map fun field => (field, none)) changes
  have hcheck : (Step.check .patch (complexUpdates .user "name" value) :
      Step Tables .user _).run (w, row) = (.ok changes, w, row) := by
    rw [hchanges]
    rfl
  have hrun : (replaceAt d.setting (.complex "name") value).run (w, row) =
      (setFields updates).run (w, row) := by
    unfold replaceAt
    simp only [hnull, Attribute.complexFields_name]
    exact run_bind_of_ok hcheck _
  have hall : ∀ update ∈ updates,
      (Resource.content user).cell update.1.column = some update.2 := by
    intro update hmem
    rcases mem_overwrite hmem with hmem | ⟨hmem, hothers⟩
    · exact hright update hmem
    · obtain ⟨field, hfield, rfl⟩ := List.mem_map.mp hmem
      exact huntouched field hfield hothers
  have htouched : updates.map Prod.fst = Attribute.name.fields := by
    rw [map_fst_overwrite, List.map_map]
    exact List.map_id _
  rw [hrun]
  refine (setFields_fills hsound hfind huserName hvalid hall).mono fun part hpart => ?_
  rw [htouched]
  cases part with
  | column c =>
    obtain ⟨field, hfield, rfl⟩ := List.mem_map.mp hpart
    exact ⟨field, hfield, rfl⟩
  | items r => cases hpart

/-- The value that is written for an attribute makes it that of the resource. -/
theorem replaceAt_fills {resource : Resource type} {w : World Tables} {row : Row type}
    (hsound : w.store.Sound w.draws) (hfind : w.store.find? type row.id = some row)
    (huserName : (Part.column .userName).Agrees d resource w.store row)
    (hvalid : Directory.validate resource = .ok ()) {a : Attribute} (ha : a ∈ Attribute.ofType type)
    {json value : Json} (hwritten : a.written resource = some json) (h : json.Reordered value) :
    Fills d resource a.Covers w row ((replaceAt d.setting a.target value).run (w, row)) := by
  cases a with
  | single field => exact replaceField_fills hsound hfind huserName hvalid ha hwritten h
  | name =>
    cases type with
    | user => exact replaceName_fills hsound hfind huserName hvalid hwritten h
    | group => exact absurd ha (by decide)
  | listed relation =>
    have hplan := d.replacements_written hvalid hwritten h w.draws row.id
    have hrelation := Attribute.listed_mem_ofType.mp ha
    have howner : (owner : Step Tables type Uuid).run (w, row) = (.ok row.id, w, row) := rfl
    have hrun : (replaceAt d.setting (.items relation none none) value).run (w, row) =
        (Step.lift (replaceItems d.setting.root row.id relation value)).run (w, row) :=
      run_bind_of_ok howner _
    rw [Attribute.target, hrun]
    refine (replaceItems_fills hsound hfind hrelation hplan).mono fun part hpart => ?_
    cases part with
    | column c => cases hpart
    | items r => rw [Attribute.listed.inj hpart]

/-- Members that are written for a resource make the attributes that they name those of the
resource. -/
theorem applyMembers_fills {resource : Resource type} (hparser : d.parser.ReadsNames type)
    (hvalid : Directory.validate resource = .ok ()) {members : Members}
    (hwritten : ∀ member ∈ members, ∃ a ∈ Attribute.ofType type, a.key = member.1 ∧
      ∃ json, a.written resource = some json ∧ json.Reordered member.2)
    {w : World Tables} {row : Row type} (hsound : w.store.Sound w.draws)
    (hfind : w.store.find? type row.id = some row)
    (huserName : (Part.column .userName).Agrees d resource w.store row) :
    Fills d resource (Part.IsWritten type members) w row
      ((applyMembers d.setting (replaceAt d.setting) members).run (w, row)) := by
  induction members generalizing w row with
  | nil => exact ⟨rfl, fun part hpart => hpart.resolve_right fun ⟨_, _, hkey, _⟩ => nomatch hkey⟩
  | cons member members ih =>
    obtain ⟨key, value⟩ := member
    obtain ⟨a, ha, rfl, json, hjson, hvalue⟩ := hwritten _ List.mem_cons_self
    have hfirst := replaceAt_fills (d := d) hsound hfind huserName hvalid ha hjson hvalue
    have hcheck : (Step.check .patch (Target.ofPath d.setting.parser type a.key) :
        Step Tables type Target).run (w, row) = (.ok a.target, w, row) := by
      rw [show Target.ofPath d.setting.parser type a.key = _ from Attribute.ofPath_key hparser ha]
      rfl
    have hat : (applyAt d.setting (replaceAt d.setting) a.key value).run (w, row) =
        (replaceAt d.setting a.target value).run (w, row) := run_bind_of_ok hcheck _
    have htrace :=
      (applyAt_outcome (d := d) replaceAt_oneWrite hsound hfind a.key value).trace hfind
    rcases hrun : (replaceAt d.setting a.target value).run (w, row) with ⟨answer, w', after⟩
    rw [hrun] at hfirst hat
    rw [hat] at htrace
    obtain rfl : answer = .ok () := hfirst.ok
    have hafter : w'.store.find? type after.id = some after := by
      rw [htrace.same.id]
      exact htrace.stored rfl
    have hrest := ih (fun member hmem => hwritten member (List.mem_cons_of_mem _ hmem))
      (Directory.Writes.sound htrace.writes hsound) hafter (hfirst.agrees _ (.inl huserName))
    rw [applyMembers, run_bind_of_ok hat]
    refine ⟨hrest.ok, fun part hpart => hrest.agrees part ?_⟩
    rcases hpart with hpart | ⟨b, hb, hkey, hcovers⟩
    · exact .inl (hfirst.agrees part (.inl hpart))
    · rcases List.mem_cons.mp hkey with hsame | hkey
      · obtain rfl := List.inj_on_of_nodup_map (Attribute.nodup_keys type) hb ha hsame
        exact .inl (hfirst.agrees part (.inr hcovers))
      · exact .inr ⟨b, hb, hkey, hcovers⟩

end Patch

end ScimDirectory
