import ScimDirectory.Proofs.Patch.Steps
import ScimDirectory.Proofs.Store.Cells

/-!
# Effects of operations

What an operation at a path leaves in the tables, told by what the path points at: one column of
the row at hand, the columns of a complex attribute, or items of one relation. Each effect carries
the new contents, so that a property of what is stored can be followed through it. The column of
the name that a row must not lack is in no complex attribute.
-/

namespace ScimDirectory

/-- The column of the name that a row must not lack. -/
def Row.nameColumn : ResourceType → Column
  | .user => .userName
  | .group => .displayName

namespace Patch

/-- The updates by which a value changes items: of the sub-attribute that the path names, or of
those that an object names. -/
def itemChanges (relation : Relation) (sub : Option Field) (value : Json) :
    Except PatchError Updates :=
  match sub, value with
  | some field, value => (scalar field value).map fun content => [(field, content)]
  | none, .object members => itemUpdates relation members
  | none, _ => .error (.invalidValue relation.attributeName "expected an object")

/-- What an operation puts into a column. -/
def fieldContent (kind : OperationKind) (field : Field) (value : Json) :
    Except PatchError (Option Scalar) :=
  if kind = .remove then .ok none else scalar field value

section

variable {σ : Type} [Storage σ] {type : ResourceType}

/-- What an operation does with a value at a target. -/
def applyOf (setting : Setting) : OperationKind → Target → Json → Step σ type Unit
  | .add => addTo setting
  | .remove => fun target _ => removeAt target
  | .replace => replaceAt setting

/-- An operation with a path is applied at that path. -/
theorem apply_of_path (setting : Setting) {operation : Operation} {path : String}
    (hpath : operation.path = some path) :
    (apply setting operation : Step σ type Unit) =
      applyAt setting (applyOf setting operation.kind) path operation.value := by
  unfold apply
  cases operation.kind <;> simp only [add, remove, replace, applyValue, hpath, applyOf]

/-- An operation with a path is applied at what the path points at. -/
theorem apply_of_target {setting : Setting} {operation : Operation} {path : String}
    {target : Target} (hpath : operation.path = some path)
    (htarget : Target.ofPath setting.parser type path = .ok target) :
    (apply setting operation : Step σ type Unit) =
      applyOf setting operation.kind target operation.value := by
  rw [apply_of_path setting hpath, applyAt, htarget]
  rfl

end

section

variable {type : ResourceType}

/-- A dotted name stands for another column than the name that a row must not lack. -/
theorem column_ne_of_dotted {parent name : String} {field : Field}
    (h : (AttributeTable.ofType type).field? (parent ++ "." ++ name) = some field) :
    field.column ≠ Row.nameColumn type := by
  have hdotted : ∀ field ∈ (AttributeTable.ofType type).fields,
      '.' ∈ Text.lowerAscii field.name.toList → field.column ≠ Row.nameColumn type := by
    cases type <;> decide
  have hlisted : field ∈ (AttributeTable.ofType type).fields :=
    AttributeTable.mem_fields_of_mem_entries (AttributeTable.mem_entries_of_field h)
  refine hdotted field hlisted ?_
  rw [eq_of_beq (AttributeTable.sameLetters_of_field h)]
  simp [Text.lowerAscii]

/-- What an object says of a complex attribute leaves the name that a row must not lack. -/
theorem column_ne_of_complexUpdates {parent : String} {value : Json} {updates : Updates}
    (h : complexUpdates type parent value = .ok updates) :
    ∀ update ∈ updates, update.1.column ≠ Row.nameColumn type := by
  intro update hmem
  unfold complexUpdates at h
  split at h
  · obtain ⟨member, -, hupdate⟩ := exists_left_of_forall₂ (mapM_eq_ok_iff.mp h) hmem
    dsimp only [memberUpdate] at hupdate
    split at hupdate
    · cases hupdate
    · next hfield =>
      obtain ⟨_, -, rfl⟩ := except_map_eq_ok.mp hupdate
      exact column_ne_of_dotted hfield
  · cases h

/-- The columns of a complex attribute are others than the name that a row must not lack. -/
theorem column_ne_of_complexFields {parent : String} :
    ∀ field ∈ complexFields type parent, field.column ≠ Row.nameColumn type := by
  have hdotted : ∀ field ∈ (AttributeTable.ofType type).fields,
      (splitAtDot field.name).isSome → field.column ≠ Row.nameColumn type := by
    cases type <;> decide
  intro field hmem
  obtain ⟨hfield, hparent⟩ := List.mem_filter.mp hmem
  refine hdotted field hfield ?_
  cases hsplit : splitAtDot field.name with
  | none => rw [hsplit] at hparent; cases hparent
  | some parts => rfl

/-- Overwriting changes contents and no fields. -/
theorem map_fst_overwrite (updates changes : Updates) :
    (overwrite updates changes).map Prod.fst = updates.map Prod.fst := by
  induction changes generalizing updates with
  | nil => rfl
  | cons change changes ih =>
    rw [overwrite, List.foldl_cons]
    refine (ih _).trans ?_
    rw [List.map_map]
    refine List.map_congr_left fun update _ => ?_
    simp only [Function.comp_apply]
    split <;> rfl

end

/-- What an operation on the resource of a row leaves in the tables, by its kind, what its path
points at and its value. -/
inductive Effect (d : Directory) {type : ResourceType} (row : Row type) (tables : Tables) :
    OperationKind → Target → Json → Except DirectoryError Unit → Tables → Prop where
  /-- It is refused, and nothing changes. -/
  | refused {kind : OperationKind} {target : Target} {value : Json} {error : DirectoryError} :
    Effect d row tables kind target value (.error error) tables
  /-- A column has a new content. -/
  | field {kind : OperationKind} {field : Field} {value : Json} {content : Option Scalar}
      {new stored : Row type} {after : Tables} (hcontent : fieldContent kind field value = .ok content)
      (hassign : row.assign field.column content = .ok new)
      (hwrite : tables.update new = .ok (stored, after)) :
    Effect d row tables kind (.field field) value (.ok ()) after
  /-- Columns of a complex attribute have new contents. -/
  | complex {kind : OperationKind} {parent : String} {value : Json} {updates : Updates}
      {new stored : Row type} {after : Tables}
      (hcolumns : ∀ update ∈ updates, update.1.column ≠ Row.nameColumn type)
      (hassigned : assigned row updates = .ok new)
      (hwrite : tables.update new = .ok (stored, after)) :
    Effect d row tables kind (.complex parent) value (.ok ()) after
  /-- Items come to a relation. -/
  | added {relation : Relation} {value : Json} {draw : Nat} {fresh : List ItemRow}
      (hplan : additions d.config.root row.id relation draw value
        (tables.ownedItems row.id relation) = .ok fresh) :
    Effect d row tables .add (.items relation none none) value (.ok ())
      (tables.append relation fresh)
  /-- Other items take the place of a relation's. -/
  | reset {relation : Relation} {value : Json} {draw : Nat} {rows : List ItemRow}
      (hplan : replacements d.config.root row.id relation draw value = .ok rows) :
    Effect d row tables .replace (.items relation none none) value (.ok ())
      ((tables.without relation (·.owner = row.id)).append relation rows)
  /-- Items leave a relation: those that the filter picks, or all of them. -/
  | removed {relation : Relation} {filter : Option Predicate} {value : Json} :
    Effect d row tables .remove (.items relation filter none) value (.ok ())
      (tables.without relation fun item => item.owner = row.id ∧ filter.all (·.picks item))
  /-- The items that the filter picks are updated. -/
  | revised {kind : OperationKind} {relation : Relation} {filter : Predicate} {sub : Option Field}
      {value : Json} {updates : Updates} {changed : List ItemRow} (hkind : kind ≠ .remove)
      (hupdates : itemChanges relation sub value = .ok updates)
      (hpicked : (tables.ownedItems row.id relation).filter filter.picks ≠ [])
      (hchanged : changedItems relation updates
        ((tables.ownedItems row.id relation).filter filter.picks) = .ok changed) :
    Effect d row tables kind (.items relation (some filter) sub) value (.ok ())
      (tables.rewrite relation (revised row.id filter.picks updates))

section

variable {d : Directory} {type : ResourceType} {w : World Tables} {row : Row type}
  {kind : OperationKind} {target : Target} {value : Json}

/-- What is refused changes nothing. -/
theorem Effect.tables_eq {tables after : Tables} {error : DirectoryError}
    (h : Effect d row tables kind target value (.error error) after) : after = tables := by
  cases h
  rfl

/-- The effect of a step that ends in a result. -/
def HasEffect (d : Directory) (w : World Tables) (row : Row type) (kind : OperationKind)
    (target : Target) (value : Json)
    (result : Except DirectoryError Unit × World Tables × Row type) : Prop :=
  Effect d row w.store kind target value result.1 result.2.1.store

/-- A check that is not passed refuses the operation. -/
theorem check_effect {ε α : Type} {wrap : ε → DirectoryError} {answer : Except ε α}
    {f : α → Step Tables type Unit}
    (h : ∀ x, answer = .ok x → HasEffect d w row kind target value ((f x).run (w, row))) :
    HasEffect d w row kind target value ((Step.check wrap answer >>= f).run (w, row)) := by
  cases answer with
  | error e => exact .refused
  | ok x => exact h x rfl

/-- The owner is the resource whose row is at hand. -/
theorem owner_effect {f : Uuid → Step Tables type Unit}
    (h : HasEffect d w row kind target value ((f row.id).run (w, row))) :
    HasEffect d w row kind target value ((owner >>= f).run (w, row)) := h

/-- Writing columns is refused or leaves what the update of the row leaves. -/
theorem setFields_effect {updates : Updates}
    (h : ∀ {new stored after}, assigned row updates = .ok new →
      w.store.update new = .ok (stored, after) →
      Effect d row w.store kind target value (.ok ()) after) :
    HasEffect d w row kind target value ((setFields updates).run (w, row)) := by
  obtain ⟨_, -, hrun⟩ := setFields_run updates w row
  rw [hrun]
  cases hassigned : assigned row updates with
  | error e => exact .refused
  | ok new =>
    dsimp only
    cases hwrite : w.store.update new with
    | error e => exact .refused
    | ok written => exact h hassigned hwrite

/-- Writing one column is refused or leaves what the update of the row leaves. -/
theorem setField_effect {field : Field} {content : Option Scalar}
    (hcontent : fieldContent kind field value = .ok content) :
    HasEffect d w row kind (.field field) value
      ((setFields [(field, content)]).run (w, row)) := by
  refine setFields_effect fun hassigned hwrite => ?_
  rw [assigned] at hassigned
  split at hassigned
  · cases hassigned
  · next hassign =>
    cases hassigned
    exact .field hcontent hassign hwrite

/-- An action with a plan is refused or leaves what is planned. -/
theorem lift_effect {β : Type} {a : Action Tables Unit} {middle : World Tables}
    {plan : Except DirectoryError β} {commit : β → Tables}
    (hrun : a.run w = settled middle (plan.map commit)) (hstore : middle.store = w.store)
    (h : ∀ x, plan = .ok x → Effect d row w.store kind target value (.ok ()) (commit x)) :
    HasEffect d w row kind target value ((Step.lift a).run (w, row)) := by
  rw [lift_run, hrun]
  cases hplan : plan with
  | error e =>
    dsimp only [HasEffect, settled, Except.map]
    rw [hstore]
    exact .refused
  | ok x => exact h x hplan

variable (hsound : w.store.Sound w.draws) (hfind : w.store.find? type row.id = some row)
  {relation : Relation} (hrelation : relation.owner = type)

include hsound

theorem setItemField_effect (hkind : kind ≠ .remove) (filter : Predicate) (field : Field) :
    HasEffect d w row kind (.items relation (some filter) (some field)) value
      ((Step.lift (setItemField row.id relation filter field value)).run (w, row)) := by
  refine lift_effect (setItemField_run hsound filter field value) rfl fun item hplan => ?_
  obtain ⟨chosen, content, hpicked, hcontent, hchanged, -⟩ := adjusted_eq_ok hplan
  rw [← hpicked] at hchanged
  rw [rewrite_changedItems (hsound.unique relation) hchanged]
  refine .revised hkind ?_ (hpicked ▸ List.cons_ne_nil chosen []) hchanged
  rw [itemChanges, hcontent]
  rfl

theorem mergeItems_effect (hkind : kind ≠ .remove) (filter : Predicate) :
    HasEffect d w row kind (.items relation (some filter) none) value
      ((Step.lift (mergeItems row.id relation filter value)).run (w, row)) := by
  refine lift_effect (mergeItems_run hsound filter value) rfl fun changed hplan => ?_
  obtain ⟨members, updates, rfl, hupdates, hpicked, hchanged, -⟩ := merged_eq_ok hplan
  rw [rewrite_changedItems (hsound.unique relation) hchanged]
  exact .revised hkind hupdates hpicked hchanged

/-- Removing a target has one of the effects. -/
theorem removeAt_effect :
    HasEffect d w row .remove target value ((removeAt target).run (w, row)) := by
  unfold removeAt
  cases target with
  | field field => exact setField_effect rfl
  | complex parent =>
    refine setFields_effect fun hassigned hwrite => .complex ?_ hassigned hwrite
    exact List.forall_mem_map.mpr fun field hmem => column_ne_of_complexFields field hmem
  | items relation filter sub =>
    rcases filter with _ | filter <;> rcases sub with _ | sub
    · have hall : (w.store.without relation fun item => item.owner = row.id) =
          w.store.without relation fun item =>
            item.owner = row.id ∧ (none : Option Predicate).all (·.picks item) := by
        simp
      refine owner_effect ?_
      rw [deleteAllItems_run, hall]
      exact .removed
    · exact .refused
    · exact owner_effect (lift_effect (removeItems_run hsound filter) rfl fun _ _ => .removed)
    · exact .refused

include hfind

/-- Adding a value at a target has one of the effects. -/
theorem addTo_effect (hfits : target.Fits type) :
    HasEffect d w row .add target value ((addTo d.setting target value).run (w, row)) := by
  unfold addTo
  split
  · exact .refused
  · cases target with
    | field field => exact check_effect fun content hcontent => setField_effect hcontent
    | complex parent =>
      exact check_effect fun updates hupdates => setFields_effect fun hassigned hwrite =>
        .complex (column_ne_of_complexUpdates hupdates) hassigned hwrite
    | items relation filter sub =>
      rcases filter with _ | filter <;> rcases sub with _ | sub
      · exact owner_effect (lift_effect (addItems_run hsound (has_of_find? hfind hfits)
          d.setting.root value) rfl fun fresh hplan => .added hplan)
      · exact .refused
      · exact .refused
      · exact owner_effect (setItemField_effect hsound (by decide) filter sub)

/-- Putting a value in the place of a target has one of the effects. -/
theorem replaceAt_effect (hfits : target.Fits type) :
    HasEffect d w row .replace target value ((replaceAt d.setting target value).run (w, row)) := by
  unfold replaceAt
  cases target with
  | field field => exact check_effect fun content hcontent => setField_effect hcontent
  | complex parent =>
    have hcolumns : ∀ changes : Updates, ∀ update ∈ overwrite
        ((complexFields type parent).map fun field => (field, none)) changes,
          update.1.column ≠ Row.nameColumn type := by
      intro changes update hmem
      have hfield := List.mem_map_of_mem (f := Prod.fst) hmem
      rw [map_fst_overwrite, List.map_map] at hfield
      obtain ⟨field, hlisted, heq⟩ := List.mem_map.mp hfield
      exact heq ▸ column_ne_of_complexFields field hlisted
    by_cases hnull : value.isNull = true
    · simp only [hnull, if_true]
      exact setFields_effect fun hassigned hwrite => .complex (hcolumns _) hassigned hwrite
    · simp only [hnull]
      exact check_effect fun updates _ => setFields_effect fun hassigned hwrite =>
        .complex (hcolumns _) hassigned hwrite
  | items relation filter sub =>
    rcases filter with _ | filter <;> rcases sub with _ | sub
    · exact owner_effect (lift_effect (replaceItems_run hsound (has_of_find? hfind hfits)
        d.setting.root value) rfl fun rows hplan => .reset hplan)
    · exact .refused
    · exact owner_effect (mergeItems_effect hsound (by decide) filter)
    · exact owner_effect (setItemField_effect hsound (by decide) filter sub)

/-- An operation at a target of a stored resource has one of the effects. -/
theorem applyOf_effect (hfits : target.Fits type) :
    HasEffect d w row kind target value
      ((applyOf d.setting kind target value).run (w, row)) := by
  cases kind with
  | add => exact addTo_effect hsound hfind hfits
  | remove => exact removeAt_effect hsound
  | replace => exact replaceAt_effect hsound hfind hfits

end

end Patch

end ScimDirectory
