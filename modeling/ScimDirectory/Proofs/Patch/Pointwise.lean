import ScimDirectory.Proofs.Directory.EmptiedValues
import ScimDirectory.Proofs.Patch.Selections

/-!
# Updates of selected items

An operation at a path with a filter changes those items of a collection of which the filter holds
before it: it puts the members of an object into each of them, or a value into a sub-attribute of
the only one. The selected items are changed aside, checked along with the others, and written back
one after the other by their keys, and what is stored in the end is the collection changed item by
item. An operation that selects no item, or more than one where it needs a single one, fails.
-/

namespace ScimDirectory

/-- The items of an owner's relation of which a filter holds. -/
def Tables.selected (tables : Tables) (owner : Uuid) (relation : Relation) (expr : Expr) :
    List ItemRow :=
  (tables.ownedItems owner relation).filter
    fun item => expr.Holds (.ofItems relation) item.subject

namespace Patch

/-- The value of the last member of an object that names a field. Names that differ only in the case
of their letters name the same field. -/
def lastNamed (field : Field) (members : Members) : Option Json :=
  ((members.filter fun member => Text.sameLetters field.name member.1).getLast?).map Prod.snd

/-- An item with the members of an object put into it. -/
structure TakesMembers (relation : Relation) (members : Members) (item new : ItemRow) : Prop where
  /-- It has the same key. -/
  id : new.id = item.id
  /-- It has the same owner. -/
  owner : new.owner = item.owner
  /-- A sub-attribute that is named has the last value that is given for it. -/
  named : ∀ field ∈ (AttributeTable.ofItems relation).fields, ∀ value,
    lastNamed field members = some value →
      ∃ content, scalar field value = .ok content ∧ new.cell field.column = some content
  /-- Every other column has what it had. -/
  kept : ∀ column, (∀ field ∈ (AttributeTable.ofItems relation).fields, field.column = column →
    lastNamed field members = none) → new.cell column = item.cell column

/-- An item with a content put into the column of a sub-attribute. -/
structure TakesContent (field : Field) (content : Option Scalar) (item new : ItemRow) : Prop where
  /-- It has the same key. -/
  id : new.id = item.id
  /-- It has the same owner. -/
  owner : new.owner = item.owner
  /-- The column has the content. -/
  given : new.cell field.column = some content
  /-- Every other column has what it had. -/
  kept : ∀ column, column ≠ field.column → new.cell column = item.cell column

/-- Nothing but the items of which a filter holds has changed in a collection of the resource at
hand, and each of them has changed in a given way. -/
structure ChangesSelected {type : ResourceType} (relation : Relation) (expr : Expr)
    (change : ItemRow → ItemRow → Prop) (before after : World Tables × Row type) : Prop
    extends ChangesOnly relation before after where
  /-- Items are where they were, changed if they were selected and the same if not. -/
  items : List.Forall₂
    (fun item new => if expr.Holds (.ofItems relation) item.subject then change item new
      else new = item)
    (before.1.store.ownedItems before.2.id relation) (after.1.store.ownedItems before.2.id relation)

section

variable {relation : Relation} {field : Field}

/-- Sub-attributes of an item have columns of their own, and names that differ in their letters. -/
theorem eq_of_mem_fields {other : Field}
    (hfield : field ∈ (AttributeTable.ofItems relation).fields)
    (hother : other ∈ (AttributeTable.ofItems relation).fields)
    (h : field.column = other.column ∨ Text.sameLetters field.name other.name = true) :
    field = other := by
  have hall : ∀ relation, ∀ field ∈ (AttributeTable.ofItems relation).fields,
      ∀ other ∈ (AttributeTable.ofItems relation).fields,
        field.column = other.column ∨ Text.sameLetters field.name other.name = true →
          field = other := by
    rintro (_ | _ | _) <;> simp only [AttributeTable.ofItems] <;> decide
  exact hall relation field hfield other hother h

/-- A member of an object and the update that it stands for. -/
def Names (relation : Relation) (member : String × Json) (update : Field × Option Scalar) : Prop :=
  (AttributeTable.ofItems relation).field? member.1 = some update.1 ∧
    scalar update.1 member.2 = .ok update.2

theorem names_of_itemUpdates {members : Members} {updates : Updates}
    (h : itemUpdates relation members = .ok updates) :
    List.Forall₂ (Names relation) members updates := by
  refine (mapM_eq_ok_iff.mp h).imp fun member update hupdate => ?_
  dsimp only [memberUpdate] at hupdate
  split at hupdate
  · cases hupdate
  · next found hfound =>
    obtain ⟨content, hcontent, rfl⟩ := except_map_eq_ok.mp hupdate
    exact ⟨hfound, hcontent⟩

theorem Names.mem_fields {member : String × Json} {update : Field × Option Scalar}
    (h : Names relation member update) : update.1 ∈ (AttributeTable.ofItems relation).fields :=
  AttributeTable.mem_fields_of_mem_entries (AttributeTable.mem_entries_of_field h.1)

/-- A member names a field exactly when its update writes to the column of the field. -/
theorem Names.sameLetters_iff {member : String × Json} {update : Field × Option Scalar}
    (h : Names relation member update)
    (hfield : field ∈ (AttributeTable.ofItems relation).fields) :
    Text.sameLetters field.name member.1 = true ↔ update.1 = field := by
  have hletters := AttributeTable.sameLetters_of_field h.1
  constructor
  · intro hnamed
    refine eq_of_mem_fields h.mem_fields hfield (.inr (beq_iff_eq.mpr ?_))
    exact (eq_of_beq hletters).trans (eq_of_beq hnamed).symm
  · rintro rfl
    exact hletters

/-- The last of some members is one of the others, or the first one if none of the others is meant. -/
theorem lastNamed_cons (field : Field) (member : String × Json) (members : Members) :
    lastNamed field (member :: members) = (lastNamed field members).or
      (if Text.sameLetters field.name member.1 = true then some member.2 else none) := by
  unfold lastNamed
  rw [List.filter_cons]
  split
  · rw [List.getLast?_cons]
    cases (members.filter fun member => Text.sameLetters field.name member.1).getLast? <;> rfl
  · rw [Option.or_none]

/-- What members say last of a field is what their updates write last to its column. The induction
is on the members. -/
theorem lastContent_of_names {members : Members} {updates : Updates}
    (h : List.Forall₂ (Names relation) members updates)
    (hfield : field ∈ (AttributeTable.ofItems relation).fields) :
    Option.Rel (fun value content => scalar field value = .ok content) (lastNamed field members)
      (lastContent? field.column updates) := by
  induction h with
  | nil => exact .none
  | @cons member update members updates hfirst _ ih =>
    rw [lastNamed_cons, lastContent?]
    generalize lastNamed field members = last at ih ⊢
    generalize lastContent? field.column updates = written at ih ⊢
    cases ih with
    | some hlater => exact .some hlater
    | none =>
      by_cases hnamed : update.1 = field
      · subst hnamed
        rw [if_pos ((hfirst.sameLetters_iff hfield).mpr rfl), if_pos rfl]
        exact .some hfirst.2
      · have hcolumn : update.1.column ≠ field.column := fun heq =>
          hnamed (eq_of_mem_fields hfirst.mem_fields hfield (.inl heq))
        rw [if_neg (fun hsame => hnamed ((hfirst.sameLetters_iff hfield).mp hsame)),
          if_neg hcolumn]
        exact .none

/-- Updates write nothing to a column that none of their fields has. -/
theorem lastContent_eq_none {column : Column} {updates : Updates}
    (h : ∀ update ∈ updates, update.1.column ≠ column) : lastContent? column updates = none := by
  induction updates with
  | nil => rfl
  | cons update updates ih =>
    obtain ⟨hfirst, hrest⟩ := List.forall_mem_cons.mp h
    rw [lastContent?, ih hrest, if_neg hfirst]
    rfl

/-- The updates that an object stands for put its members into an item. -/
theorem takesMembers_of_assign {members : Members} {updates : Updates} {item new : ItemRow}
    (hupdates : itemUpdates relation members = .ok updates)
    (hassign : assignItemFields item updates = .ok new) :
    TakesMembers relation members item new where
  id := (keys_of_assignItemFields hassign).1
  owner := (keys_of_assignItemFields hassign).2
  named := by
    intro field hfield value hlast
    have hrel := lastContent_of_names (names_of_itemUpdates hupdates) hfield
    have hcell := cell_of_assignItemFields hassign field.column
    rw [hlast] at hrel
    generalize lastContent? field.column updates = written at hrel hcell
    cases hrel with
    | some hscalar => exact ⟨_, hscalar, hcell⟩
  kept := by
    intro column hnone
    have hnames := names_of_itemUpdates hupdates
    have hwritten : lastContent? column updates = none := by
      by_cases hmeant : ∃ update ∈ updates, update.1.column = column
      · obtain ⟨update, hmem, rfl⟩ := hmeant
        obtain ⟨member, -, hname⟩ := exists_left_of_forall₂ hnames hmem
        have hrel := lastContent_of_names hnames hname.mem_fields
        rw [hnone update.1 hname.mem_fields rfl] at hrel
        generalize lastContent? update.1.column updates = written at hrel ⊢
        cases hrel
        rfl
      · exact lastContent_eq_none fun update hmem hcolumn => hmeant ⟨update, hmem, hcolumn⟩
    rw [cell_of_assignItemFields hassign, hwritten, Option.none_or]

/-- One update puts its content into an item. -/
theorem takesContent_of_assign {content : Option Scalar} {item new : ItemRow}
    (hassign : assignItemFields item [(field, content)] = .ok new) :
    TakesContent field content item new where
  id := (keys_of_assignItemFields hassign).1
  owner := (keys_of_assignItemFields hassign).2
  given := by
    rw [cell_of_assignItemFields hassign, lastContent?, if_pos rfl]
    rfl
  kept := by
    intro column hne
    rw [cell_of_assignItemFields hassign, lastContent?, if_neg (Ne.symm hne)]
    rfl

end

section

variable {type : ResourceType} {w : World Tables} {row : Row type} {relation : Relation}
  {expr : Expr} {p : Predicate} {setting : Setting} {operation : Operation} {path attr : String}

/-- When what has become of the selected items is written, these are changed in their places, and
nothing else is. -/
theorem changesSelected_of_changed {updates : Updates} {changed : List ItemRow}
    {change : ItemRow → ItemRow → Prop} (hsound : w.store.Sound w.draws)
    (hfilter : Filter.compileItems relation expr = .ok p)
    (hchanged : changedItems relation updates
      ((w.store.ownedItems row.id relation).filter p.picks) = .ok changed)
    (hchange : ∀ {item new}, assignItemFields item updates = .ok new → change item new) :
    ChangesSelected relation expr change (w, row)
      ({ w with store := w.store.rewrite relation (overlay changed) }, row) := by
  rw [rewrite_changedItems (hsound.unique relation) hchanged]
  refine ⟨⟨rfl, fun _ => Tables.rows_mk_items .., fun _ _ hne =>
    ownedItems_revised_of_ne p.picks updates hne⟩, ?_⟩
  dsimp only
  rw [Tables.ownedItems_rewrite fun item => (keys_of_revised row.id p.picks updates item).2,
    if_pos rfl, List.forall₂_map_right_iff, List.forall₂_same]
  intro item hmem
  have howner : item.owner = row.id := (Tables.mem_ownedItems.mp hmem).2
  have hpicks : p.picks item = decide (expr.Holds (.ofItems relation) item.subject) := by
    rw [Filter.picks_compileItems hfilter]
  split
  · next hholds =>
    have hpicked : p.picks item = true := hpicks.trans (decide_eq_true hholds)
    rw [revised, if_pos ⟨howner, hpicked⟩]
    exact hchange (assignItemFields_updated hchanged (List.mem_filter.mpr ⟨hmem, hpicked⟩)).1
  · next hholds =>
    have hpassed : p.picks item = false := hpicks.trans (decide_eq_false hholds)
    exact if_neg fun hpicked => Bool.false_ne_true (hpassed.symm.trans hpicked.2)

/-- An action with a plan for the resource at hand either fails and leaves everything as it was, or
does what is planned. -/
theorem planned_cases {β : Type} (row : Row type) {a : Uuid → Action Tables Unit}
    {plan : Except DirectoryError β} {commit : β → Tables} (h : (a row.id).run w = settled w (plan.map commit)) :
    (∃ error, (owner >>= fun id => Step.lift (a id)).run (w, row) = (.error error, w, row)) ∨
      ∃ x, plan = .ok x ∧ (owner >>= fun id => Step.lift (a id)).run (w, row) =
        (.ok (), { w with store := commit x }, row) := by
  rw [owner_lift_run, h]
  cases plan with
  | error error => exact .inl ⟨error, rfl⟩
  | ok x => exact .inr ⟨x, rfl, rfl⟩

/-- An operation at a relation with a filter fails at once, or the filter has a predicate and the
path points at the items that it picks. -/
theorem target_cases (s : World Tables × Row type) {sub : Option String}
    (hoperation : operation.path = some path)
    (hpath : setting.parser .path path = .ok (.valuePath attr expr sub))
    (hattr : (AttributeTable.ofType type).resolve attr = .ok (.relation relation)) :
    (∃ error, (apply setting operation).run s = (.error error, s)) ∨
    ∃ p found, Filter.compileItems relation expr = .ok p ∧
      sub.mapM (Target.subField relation) = .ok found ∧
      Target.ofPath setting.parser type path = .ok (.items relation (some p) found) := by
  cases htarget : Target.ofPath setting.parser type path with
  | error error =>
    refine .inl ⟨.patch error, ?_⟩
    rw [apply_of_path setting hoperation, applyAt, htarget]
    rfl
  | ok target =>
    rw [Target.ofPath_of_relation hpath hattr] at htarget
    obtain ⟨filter, hfilter, h⟩ := except_bind_eq_ok.mp htarget
    obtain ⟨found, hfound, h⟩ := except_bind_eq_ok.mp h
    cases h
    rw [Option.mapM_some] at hfilter
    obtain ⟨p, hp, rfl⟩ := except_map_eq_ok.mp hfilter
    exact .inr ⟨p, found, except_mapError_eq_ok.mp hp, hfound, rfl⟩

/-- A sub-attribute that a path points at is one of the items. -/
theorem field_of_subField {name : String} {field : Field}
    (h : Target.subField relation name = .ok field) :
    (AttributeTable.ofItems relation).field? name = some field := by
  unfold Target.subField at h
  split at h
  · next hfound =>
    cases h
    exact hfound
  · cases h

/-- The predicate of a filter picks the selected items. -/
theorem filter_picks (hfilter : Filter.compileItems relation expr = .ok p) (owner : Uuid) :
    (w.store.ownedItems owner relation).filter p.picks =
      w.store.selected owner relation expr := by
  rw [Filter.picks_compileItems hfilter, Tables.selected]

/-- A replacement of selected items by an object fails and leaves everything as it was, or it puts
the members of the object, which are those of the items, into each of them. -/
theorem replace_selected_cases (setting : Setting) (row : Row type) {members : Members}
    (hsound : w.store.Sound w.draws) (hoperation : operation.path = some path)
    (hpath : setting.parser .path path = .ok (.valuePath attr expr none))
    (hattr : (AttributeTable.ofType type).resolve attr = .ok (.relation relation))
    (hkind : operation.kind = .replace) (hvalue : operation.value = .object members) :
    (∃ error, (apply setting operation).run (w, row) = (.error error, w, row)) ∨
      w.store.selected row.id relation expr ≠ [] ∧
        (∀ member ∈ members, ∃ field content,
          (AttributeTable.ofItems relation).field? member.1 = some field ∧
            scalar field member.2 = .ok content) ∧
        ChangesSelected relation expr (TakesMembers relation members) (w, row)
          ((apply setting operation).run (w, row)).2 := by
  obtain hrefused | ⟨p, found, hfilter, hfound, htarget⟩ :=
    target_cases (w, row) hoperation hpath hattr
  · exact .inl hrefused
  cases hfound
  have hmerge : (apply setting operation : Step Tables type Unit) =
      (owner >>= fun id => Step.lift (mergeItems id relation p operation.value)) := by
    rw [apply_of_target hoperation htarget, hkind]
    rfl
  rw [hmerge]
  obtain hrefused | ⟨changed, hplan, hrun⟩ := planned_cases row
    (a := fun id => mergeItems id relation p operation.value) (mergeItems_run hsound p operation.value)
  · exact .inl hrefused
  obtain ⟨_, updates, hobject, hupdates, hpicked, hchanged, -⟩ := merged_eq_ok hplan
  cases hvalue.symm.trans hobject
  refine .inr ⟨filter_picks hfilter row.id ▸ hpicked, fun member hmem => ?_, ?_⟩
  · obtain ⟨update, -, hname⟩ := exists_right_of_forall₂ (names_of_itemUpdates hupdates) hmem
    exact ⟨update.1, update.2, hname⟩
  · rw [hrun]
    exact changesSelected_of_changed hsound hfilter hchanged (takesMembers_of_assign hupdates)

/-- An addition or a replacement at a sub-attribute of selected items fails and leaves everything as
it was, or it puts the decoded value into that sub-attribute of the only one. -/
theorem set_selected_cases (setting : Setting) (row : Row type) {name : String}
    (hsound : w.store.Sound w.draws) (hoperation : operation.path = some path)
    (hpath : setting.parser .path path = .ok (.valuePath attr expr (some name)))
    (hattr : (AttributeTable.ofType type).resolve attr = .ok (.relation relation))
    (hkind : operation.kind ≠ .remove) :
    (∃ error, (apply setting operation).run (w, row) = (.error error, w, row)) ∨
      ∃ chosen field content, w.store.selected row.id relation expr = [chosen] ∧
        (AttributeTable.ofItems relation).field? name = some field ∧
        scalar field operation.value = .ok content ∧
        ChangesSelected relation expr (TakesContent field content) (w, row)
          ((apply setting operation).run (w, row)).2 := by
  obtain hrefused | ⟨p, found, hfilter, hfound, htarget⟩ :=
    target_cases (w, row) hoperation hpath hattr
  · exact .inl hrefused
  rw [Option.mapM_some] at hfound
  obtain ⟨field, hfield, rfl⟩ := except_map_eq_ok.mp hfound
  -- An addition also refuses a value that is `null`, before it looks at the items.
  have hset : (∃ error, (apply setting operation).run (w, row) = (.error error, w, row)) ∨
      (apply setting operation : Step Tables type Unit) =
        (owner >>= fun id => Step.lift (setItemField id relation p field operation.value)) := by
    rw [apply_of_target hoperation htarget]
    cases hop : operation.kind with
    | add =>
      dsimp only [applyOf, addTo]
      split
      · exact .inl ⟨_, rfl⟩
      · exact .inr rfl
    | replace => exact .inr rfl
    | remove => exact absurd hop hkind
  obtain hrefused | hset := hset
  · exact .inl hrefused
  rw [hset]
  obtain hrefused | ⟨item, hplan, hrun⟩ := planned_cases row
    (a := fun id => setItemField id relation p field operation.value)
    (setItemField_run hsound p field operation.value)
  · exact .inl hrefused
  obtain ⟨chosen, content, hpicked, hcontent, hchanged, -⟩ := adjusted_eq_ok hplan
  rw [← hpicked] at hchanged
  refine .inr ⟨chosen, field, content, filter_picks hfilter row.id ▸ hpicked,
    field_of_subField hfield, hcontent, ?_⟩
  rw [hrun]
  exact changesSelected_of_changed hsound hfilter hchanged takesContent_of_assign

end

end Patch

/-- At every point of every patch that is asked of a directory that can be reached, let an operation
name a relation with a filter. A replacement by an object, without a sub-attribute, that succeeds has
selected some items, and has put the members of the object into each of them; it fails when it
selects none. An addition or a replacement at a sub-attribute that succeeds has selected a single
item, and has put the decoded value into that sub-attribute of it; it fails when it selects none or
several. Either way nothing else changes, and nothing at all when the operation fails so. -/
theorem filtered_update_is_pointwise (d : Directory) (history : List (Instant × Command))
    {type : ResourceType} (row : Row type) (earlier : List Operation) (w : World Tables)
    (current : Row type) (operation : Operation) (path attr : String) (expr : Expr)
    (sub : Option String) (relation : Relation)
    (hfind : (d.serveAll history (World.fresh Tables.empty)).store.find? type row.id = some row)
    (hearlier : (Patch.applyAll d.setting earlier).run
      (d.serveAll history (World.fresh Tables.empty), row) = (.ok (), w, current))
    (hoperation : operation.path = some path)
    (hpath : d.parser .path path = .ok (.valuePath attr expr sub))
    (hattr : (AttributeTable.ofType type).resolve attr = .ok (.relation relation)) :
    let selected := w.store.selected current.id relation expr
    let result := (Patch.apply d.setting operation).run (w, current)
    (∀ members, operation.kind = .replace → sub = none → operation.value = .object members →
      (result.1 = .ok () → selected ≠ [] ∧
        (∀ member ∈ members, ∃ field content,
          (AttributeTable.ofItems relation).field? member.1 = some field ∧
            Patch.scalar field member.2 = .ok content) ∧
        Patch.ChangesSelected relation expr (Patch.TakesMembers relation members) (w, current)
          result.2) ∧
      (selected = [] → ∃ error, result = (.error error, w, current))) ∧
    ∀ name, operation.kind ≠ .remove → sub = some name →
      (result.1 = .ok () → ∃ chosen field content, selected = [chosen] ∧
        (AttributeTable.ofItems relation).field? name = some field ∧
        Patch.scalar field operation.value = .ok content ∧
        Patch.ChangesSelected relation expr (Patch.TakesContent field content) (w, current)
          result.2) ∧
      (selected.length ≠ 1 → ∃ error, result = (.error error, w, current)) := by
  intro selected result
  obtain ⟨hsound, -⟩ := Patch.sound_applyAll
    (Directory.serveAll_sound (Tables.sound_empty 0) history) hfind hearlier
  have hfailed {error : DirectoryError} (h : result = (.error error, w, current)) :
      result.1 ≠ .ok () := by
    rw [h]
    nofun
  constructor
  · rintro members hkind rfl hvalue
    obtain ⟨error, hrefused⟩ | hdone := Patch.replace_selected_cases d.setting
      current hsound hoperation hpath hattr hkind hvalue
    · exact ⟨fun hok => absurd hok (hfailed hrefused), fun _ => ⟨error, hrefused⟩⟩
    · exact ⟨fun _ => hdone, fun hnone => absurd hnone hdone.1⟩
  · rintro name hkind rfl
    obtain ⟨error, hrefused⟩ | hdone := Patch.set_selected_cases d.setting
      current hsound hoperation hpath hattr hkind
    · exact ⟨fun hok => absurd hok (hfailed hrefused), fun _ => ⟨error, hrefused⟩⟩
    · refine ⟨fun _ => hdone, fun hnone => ?_⟩
      obtain ⟨chosen, _, _, hone, -⟩ := hdone
      exact absurd (congrArg List.length hone) hnone

/-- Of three mail addresses the two for work are given another type and a display text, which is named
twice. A value is put into the one for home, but not into those for work. -/
theorem filtered_update_is_pointwise_of_three_mails :
    let d : Directory := ⟨.standard, [], Filter.parse⟩
    let mail (value type : String) : MultiValue :=
      { MultiValue.ofValue value with type := some type }
    let user : User := { User.named "alice" with
      values := fun c => if c = .emails then
        [mail "a@example.org" "work", mail "b@example.org" "home", mail "c@example.org" "Work"]
        else [] }
    let w := d.serveAll [(.ofSeconds 0, @Command.create .user none user)]
      (World.fresh Tables.empty)
    let typed (type : String) : Expr := .compare "type" .eq (.text type)
    let members : Members :=
      [("DISPLAY", .text "Old"), ("display", .text "New"), ("type", .text "other")]
    let merge : Operation := .replace "emails[type eq \"work\"]" (.object members)
    let set : Operation := .add "emails[type eq \"home\"].value" (.text "d@example.org")
    let setSeveral : Operation := .add "emails[type eq \"work\"].value" (.text "d@example.org")
    ∃ row : Row .user, w.store.find? .user (.numbered 1) = some row ∧
      let result (operation : Operation) := (Patch.apply d.setting operation).run (w, row)
      (result merge).1 = .ok () ∧
        Patch.ChangesSelected (.values .emails) (typed "work")
          (Patch.TakesMembers (.values .emails) members) (w, row) (result merge).2 ∧
        (result set).1 = .ok () ∧
        Patch.ChangesSelected (.values .emails) (typed "home")
          (Patch.TakesContent (.text "value" .value) (some (.text "d@example.org"))) (w, row)
          (result set).2 ∧
        ∃ error, result setSeveral = (.error error, w, row) := by
  intro d mail user w typed members merge set setSeveral
  have hw : d.serveAll [(.ofSeconds 0, @Command.create .user none user)]
    (World.fresh Tables.empty) = w := rfl
  have hattr : (AttributeTable.ofType .user).resolve "emails" = .ok (.relation (.values .emails)) := by
    decide +kernel
  have hmerged : d.parser .path "emails[type eq \"work\"]" =
      .ok (.valuePath "emails" (typed "work") none) := by decide +kernel
  have hset : d.parser .path "emails[type eq \"home\"].value" =
      .ok (.valuePath "emails" (typed "home") (some "value")) := by decide +kernel
  have hseveral : d.parser .path "emails[type eq \"work\"].value" =
      .ok (.valuePath "emails" (typed "work") (some "value")) := by decide +kernel
  have hruns : (w.store.find? .user (.numbered 1)).any (fun row =>
      ((Patch.apply d.setting merge).run (w, row)).1.isOk &&
        ((Patch.apply d.setting set).run (w, row)).1.isOk) = true := by
    rw [← hw]
    decide +kernel
  have hcount : (w.store.selected (.numbered 1) (.values .emails) (typed "work")).length = 2 := by
    rw [← hw]
    decide +kernel
  obtain ⟨row, hfind, hok⟩ := (Option.any_eq_true _ _).mp hruns
  obtain ⟨hmergedok, hsetok⟩ := Bool.and_eq_true_iff.mp hok
  obtain ⟨_, hmergedok⟩ := except_isOk_iff.mp hmergedok
  obtain ⟨_, hsetok⟩ := except_isOk_iff.mp hsetok
  have hid : Row.id row = Uuid.numbered 1 := Tables.id_of_find? hfind
  refine ⟨row, hfind, hmergedok, ?_, hsetok, ?_, ?_⟩
  · have hupdate := (filtered_update_is_pointwise d _ row [] w row merge _ _ _ _ _ (hid ▸ hfind) rfl
      rfl hmerged hattr).1 members rfl rfl rfl
    exact (hupdate.1 hmergedok).2.2
  · have hupdate := (filtered_update_is_pointwise d _ row [] w row set _ _ _ _ _ (hid ▸ hfind) rfl
      rfl hset hattr).2 "value" (by decide) rfl
    obtain ⟨_, _, _, -, hfield, hcontent, hchanges⟩ := hupdate.1 hsetok
    cases hfield
    cases hcontent
    exact hchanges
  · have hupdate := (filtered_update_is_pointwise d _ row [] w row setSeveral _ _ _ _ _
      (hid ▸ hfind) rfl rfl hseveral hattr).2 "value" (by decide) rfl
    refine hupdate.2 ?_
    rw [hid, hcount]
    decide

end ScimDirectory
