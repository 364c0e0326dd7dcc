import ScimDirectory.Proofs.Filter.Meaning
import ScimDirectory.Proofs.Predicate.Merging
import ScimDirectory.Proofs.Schema.Names
import ScimDirectory.Proofs.Traversal

/-!
# Compiled filters mean what they say

A place of a compiled filter answers on a view as its predicate does, and in the negative when it
has none. The meaning of a filter is carried through the compiler leaf by leaf and connective by
connective: on every view that shows the attributes of a table, the place of that table answers
without an error, and answers with the meaning of the filter.
-/

namespace ScimDirectory

open ScimDirectory.Filter

/-- The view shows a subject as far as a table can name its columns and relations. -/
structure RowView.Shows (view : RowView) (table : AttributeTable) (subject : Subject) : Prop where
  /-- Every column of the table is read as the subject has it. -/
  read : ∀ field, .field field ∈ table.entries →
    view.read field.column = .ok (subject.cell field.column)
  /-- Every relation of the table is loaded as the subject has it. -/
  items : ∀ relation, .relation relation ∈ table.entries →
    view.items relation = .ok (subject.items relation)

/-- A column that is there is read with its content. -/
theorem RowView.read_eq_ok (view : RowView) {column : Column} {cell : Option Scalar}
    (h : view.cell column = some cell) : view.read column = .ok cell := by
  rw [RowView.read, h]

/-- A user's row has every column that the attributes of a user name. -/
theorem UserRow.cell_isSome (row : UserRow) {field : Field}
    (h : .field field ∈ AttributeTable.user.entries) : (row.cell field.column).isSome := by
  simp only [AttributeTable.user, Relation.ofType, List.map_cons, List.map_nil, List.cons_append,
    List.nil_append, List.mem_cons, Entry.field.injEq, List.not_mem_nil, reduceCtorEq,
    or_false] at h
  rcases h with rfl | rfl | rfl | rfl | rfl | rfl | rfl | rfl | rfl | rfl | rfl | rfl | rfl | rfl |
    rfl | rfl | rfl | rfl <;> rfl

/-- A group's row has every column that the attributes of a group name. -/
theorem GroupRow.cell_isSome (row : GroupRow) {field : Field}
    (h : .field field ∈ AttributeTable.group.entries) : (row.cell field.column).isSome := by
  simp only [AttributeTable.group, Relation.ofType, List.map_cons, List.map_nil, List.cons_append,
    List.nil_append, List.mem_cons, Entry.field.injEq, List.not_mem_nil, reduceCtorEq,
    or_false] at h
  rcases h with rfl | rfl <;> rfl

/-- An item has every column that the sub-attributes of its relation name. -/
theorem ItemRow.cell_isSome (item : ItemRow) {relation : Relation} {field : Field}
    (h : .field field ∈ (AttributeTable.ofItems relation).entries) :
    (item.cell field.column).isSome := by
  cases relation <;>
    simp only [AttributeTable.ofItems, AttributeTable.value, AttributeTable.address,
      AttributeTable.member, List.mem_cons, Entry.field.injEq, List.not_mem_nil, or_false] at h
  · rcases h with rfl | rfl | rfl | rfl <;> rfl
  · rcases h with rfl | rfl | rfl | rfl | rfl | rfl | rfl | rfl <;> rfl
  · rcases h with rfl | rfl | rfl | rfl <;> rfl

/-- The sub-attributes of items are columns only. -/
theorem AttributeTable.not_relation_mem_ofItems (relation other : Relation) :
    .relation other ∉ (ofItems relation).entries := by
  cases relation <;> simp [ofItems, value, address, member]

/-- The view of a resource row shows the row with its items. -/
theorem Row.view_shows {type : ResourceType} (row : Row type) (items : Relation → List ItemRow) :
    (row.view items).Shows (.ofType type) (row.subject items) where
  read := by
    intro field hfield
    have hsome : (row.cell field.column).isSome := by
      cases type with
      | user => exact UserRow.cell_isSome row hfield
      | group => exact GroupRow.cell_isSome row hfield
    obtain ⟨cell, hcell⟩ := Option.isSome_iff_exists.mp hsome
    rw [RowView.read_eq_ok (row.view items) hcell]
    simp only [Row.subject, hcell, Option.join_some]
  items := fun _ _ => rfl

/-- The view of an item shows the item. -/
theorem ItemRow.view_shows (item : ItemRow) (relation : Relation) :
    item.view.Shows (.ofItems relation) item.subject where
  read := by
    intro field hfield
    obtain ⟨cell, hcell⟩ := Option.isSome_iff_exists.mp (item.cell_isSome hfield)
    rw [RowView.read_eq_ok item.view hcell]
    simp only [ItemRow.subject, hcell, Option.join_some]
  items := fun other hother =>
    absurd hother (AttributeTable.not_relation_mem_ofItems relation other)

/-- The answer of a place of a compiled filter. A place without a predicate matches nothing. -/
def Filter.answer (place : Option Predicate) (view : RowView) : Except StoreError Bool :=
  match place with
  | some p => p.evaluate view
  | none => .ok false

/-- A place of a compiled filter answers as the filter means, on every view that shows the
attributes of its table. -/
def Filter.Expresses (table : AttributeTable) (expr : Expr) (place : Option Predicate) : Prop :=
  ∀ view subject, view.Shows table subject →
    answer place view = .ok (decide (expr.Holds table subject))

namespace Filter

variable {field : Field} {attr : String} {test : Test} {p : Predicate}

/-- Folding case on both sides is comparing as the field does. -/
theorem comparedChars_foldsCase (field : Field) (s : String) :
    comparedChars field.foldsCase s = (field.compared s).toList := by
  by_cases h : field.matching = .ignoringCase
  · simp [comparedChars, Field.foldsCase, Field.compared, h]
  · simp [comparedChars, Field.foldsCase, Field.compared, h]

/-- An occurrence is tested as it is meant. -/
theorem occurrence_holds_eq (occurrence : Occurrence) (needle text : List Char) :
    occurrence.holds needle text = decide (occurrence.Places needle text) := by
  cases occurrence with
  | anywhere =>
    induction text with
    | nil => cases needle <;> simp [Occurrence.holds, Occurrence.Places, Text.occursIn]
    | cons c text ih =>
      have hrest : Text.occursIn needle text = decide (needle <:+: text) := ih
      simp only [Occurrence.holds, Occurrence.Places, Text.occursIn, hrest,
        List.infix_cons_iff, Bool.decide_or, ← List.isPrefixOf_iff_prefix, Bool.decide_eq_true]
  | atStart =>
    simp only [Occurrence.holds, Occurrence.Places, ← List.isPrefixOf_iff_prefix,
      Bool.decide_eq_true]
  | atEnd =>
    simp only [Occurrence.holds, Occurrence.Places, ← List.isSuffixOf_iff_suffix,
      Bool.decide_eq_true]

/-- Texts under the case rule of a field are equal as the field compares them. -/
theorem comparedChars_inj (field : Field) (s t : String) :
    comparedChars field.foldsCase t = comparedChars field.foldsCase s ↔
      field.compared t = field.compared s := by
  rw [comparedChars_foldsCase, comparedChars_foldsCase, String.toList_inj]

/-- The scalar that a literal stands for is met as the literal is. -/
theorem cellEquals_scalarOf {value : Literal} {scalar : Scalar}
    (h : scalarOf field attr value = .ok scalar) (cell : Option Scalar) :
    cellEquals field.foldsCase cell scalar = decide ((Test.equals value).Met field cell) := by
  rw [Bool.eq_iff_iff, decide_eq_true_iff]
  unfold scalarOf at h
  split at h
  all_goals cases h
  all_goals
    rcases cell with _ | ⟨t | b⟩
    all_goals simp [cellEquals, Test.Met, comparedChars_inj]

/-- A text occurs in a cell as the leaf means. -/
theorem cellHolds_eq (field : Field) (occurrence : Occurrence) (s : String)
    (cell : Option Scalar) :
    cellHolds occurrence field.foldsCase cell s =
      decide ((Test.occurs occurrence (.text s)).Met field cell) := by
  rw [Bool.eq_iff_iff, decide_eq_true_iff]
  rcases cell with _ | ⟨t | b⟩
  all_goals simp [cellHolds, Test.Met, occurrence_holds_eq, comparedChars_foldsCase]

/-- A column of truth values is present when it has a value, and one of texts when it has a value
other than the empty text. -/
theorem evaluate_presence (field : Field) {view : RowView} {cell : Option Scalar}
    (hread : view.read field.column = .ok cell) :
    (if field.isText then Predicate.presentText field.column
      else .notNull field.column).evaluate view = .ok (decide (Test.present.Met field cell)) := by
  have hcell : decide (Test.present.Met field cell) =
      (cell.isSome && (field.matching = .boolean || !(cellEquals false cell (.text "")))) := by
    rw [Bool.eq_iff_iff, decide_eq_true_iff]
    rcases cell with _ | ⟨t | b⟩
    all_goals simp [cellEquals, Test.Met, comparedChars, or_iff_not_imp_left]
  rw [hcell]
  by_cases hm : field.matching = .boolean
  · simp [Field.isText, hm, Predicate.evaluate, hread, Except.map]
  · simp only [Field.isText, hm, ne_eq, not_false_eq_true, decide_true, ite_true,
      Predicate.presentText, Predicate.evaluate, Predicate.evaluateAll, hread, Except.map]
    cases cell.isSome <;> cases cellEquals false cell (.text "") <;> rfl

/-- The condition of a leaf on a column answers as the leaf means. -/
theorem evaluate_condition (h : condition? field attr test = .ok p) {view : RowView}
    {cell : Option Scalar} (hread : view.read field.column = .ok cell) :
    p.evaluate view = .ok (decide (test.Met field cell)) := by
  unfold condition? at h
  split at h
  · cases h
  · cases test with
    | present =>
      cases h
      exact evaluate_presence field hread
    | equals value =>
      obtain ⟨scalar, hscalar, rfl⟩ := except_map_eq_ok.mp h
      rw [Predicate.evaluate, hread, Except.map, cellEquals_scalarOf hscalar]
    | occurs occurrence value =>
      dsimp only at h
      split at h
      · cases h
      · split at h
        · cases h
          rw [Predicate.evaluate, hread, Except.map, cellHolds_eq]
        · cases h

/-- The condition of a leaf on the items of a relation answers as the leaf means. No condition on
items reads a relation, so the items need none. -/
theorem evaluate_itemCondition {relation : Relation} (h : condition? field attr test = .ok p)
    (hfield : .field field ∈ (AttributeTable.ofItems relation).entries) {view : RowView}
    {subject : Subject} (hitems : view.items relation = .ok (subject.items relation)) :
    (Predicate.hasItemWhere relation p).evaluate view =
      .ok (decide (subject.SomeItem relation field test)) := by
  have heach (item : ItemRow) :
      p.evaluate item.view = .ok (decide (test.Met field (item.subject.cell field.column))) :=
    evaluate_condition h ((item.view_shows relation).read field hfield)
  rw [Predicate.evaluate, hitems]
  refine (anyWhere_eq_ok fun item _ => heach item).trans (congrArg Except.ok ?_)
  rw [Bool.eq_iff_iff, List.any_eq_true, decide_eq_true_iff]
  simp only [decide_eq_true_iff, Subject.SomeItem]

/-- The predicate of a leaf answers as the leaf means for what its attribute stands for. -/
theorem evaluate_testOn {table : AttributeTable} {resolved : Resolved}
    (h : testOn resolved attr test = .ok p) (hlists : table.Lists resolved) {view : RowView}
    {subject : Subject} (hshows : view.Shows table subject) :
    p.evaluate view = .ok (decide (subject.Meets test resolved)) := by
  cases resolved with
  | field field => exact evaluate_condition h (hshows.read field hlists)
  | itemField relation field =>
    obtain ⟨q, hq, rfl⟩ := except_map_eq_ok.mp h
    exact evaluate_itemCondition hq hlists.2 (hshows.items relation hlists.1)
  | relation relation =>
    have hitems := hshows.items relation hlists
    dsimp only [testOn] at h
    split at h
    · cases h
      rw [Predicate.evaluate, hitems]
      refine congrArg Except.ok ?_
      rw [Bool.eq_iff_iff, decide_eq_true_iff]
      simp [Subject.Meets]
    · next hpresent =>
      split at h
      · next field hfield =>
        obtain ⟨q, hq, rfl⟩ := except_map_eq_ok.mp h
        have hmeets : subject.Meets test (.relation relation) =
            subject.SomeItem relation field test := by
          unfold Subject.Meets
          cases test <;> simp_all
        simp only [hmeets]
        exact evaluate_itemCondition hq (AttributeTable.mem_entries_of_field hfield) hitems
      · cases h

/-- The place of a leaf answers as the leaf means: a table that lacks the attribute has no
predicate, and no row of it can meet the leaf. -/
theorem answer_testIn {table : AttributeTable} {place : Option Predicate}
    (h : testIn table attr test = .ok place) {view : RowView} {subject : Subject}
    (hshows : view.Shows table subject) :
    answer place view = .ok (decide (subject.MeetsLeaf table attr test)) := by
  unfold testIn at h
  cases hresolve : table.resolve attr with
  | ok resolved =>
    rw [hresolve] at h
    obtain ⟨p, hp, rfl⟩ := except_map_eq_ok.mp h
    have hmeets : subject.MeetsLeaf table attr test = subject.Meets test resolved := by
      rw [Subject.MeetsLeaf, hresolve]
    simp only [hmeets]
    exact evaluate_testOn hp (AttributeTable.lists_of_resolve hresolve) hshows
  | error error =>
    rw [hresolve] at h
    have hmeets : ¬subject.MeetsLeaf table attr test := by
      rw [Subject.MeetsLeaf, hresolve]
      exact not_false
    dsimp only at h
    split at h
    · cases h
      simp [answer, hmeets]
    · cases h

/-- A leaf is compiled table by table. -/
theorem forall₂_of_leaf {wanted others : List AttributeTable} {places : List (Option Predicate)}
    (h : leaf wanted others attr test = .ok places) :
    List.Forall₂ (fun table place => testIn table attr test = .ok place) wanted places := by
  obtain ⟨found, hfound, h⟩ := except_bind_eq_ok.mp h
  have heq : found = places := by
    split at h
    · split at h
      · cases h
      · exact Except.ok.inj h
    · exact Except.ok.inj h
  exact mapM_eq_ok_iff.mp (heq ▸ hfound)

/-- What connectives keep holds of all places of a filter when it holds of those of its leaves. The
induction is on the filter. -/
theorem forall₂_of_predicates {P : AttributeTable → Option Predicate → Prop}
    {wanted others : List AttributeTable}
    (hleaf : ∀ {attr test places}, leaf wanted others attr test = .ok places →
      List.Forall₂ P wanted places)
    (hcombine : ∀ {table place other} (connective : Connective), P table place → P table other →
      P table (combine connective place other))
    {expr : Expr} {places : List (Option Predicate)}
    (h : predicates wanted others expr = .ok places) : List.Forall₂ P wanted places := by
  induction expr generalizing places with
  | join connective lhs rhs ihl ihr =>
    obtain ⟨ps, hps, h⟩ := except_bind_eq_ok.mp h
    obtain ⟨qs, hqs, h⟩ := except_bind_eq_ok.mp h
    cases h
    refine forall₂_zipWith ?_ (ihl hps) (ihr hqs)
    exact fun _ _ _ hplace hother => hcombine connective hplace hother
  | compare attr comparison value =>
    cases comparison with
    | eq => exact hleaf h
    | ne | gt | ge | lt | le => cases h
  | search attr occurrence value => exact hleaf h
  | present attr => exact hleaf h
  | group negated inner => cases negated <;> cases h
  | path | valuePath => cases h

/-- Places joined by `and` answer like the conjunction of their answers. -/
theorem answer_combine_and {place other : Option Predicate} {view : RowView} {b c : Bool}
    (hb : answer place view = .ok b) (hc : answer other view = .ok c) :
    answer (combine .and place other) view = .ok (b && c) := by
  rcases place with _ | p <;> rcases other with _ | q
  all_goals simp only [answer, combine, Except.ok.injEq] at hb hc ⊢
  · simp [← hb]
  · simp [← hb]
  · simp [← hc]
  · rw [Predicate.evaluate_merge, hb]
    cases b
    · rfl
    · exact hc

/-- Places joined by `or` answer like the disjunction of their answers. -/
theorem answer_combine_or {place other : Option Predicate} {view : RowView} {b c : Bool}
    (hb : answer place view = .ok b) (hc : answer other view = .ok c) :
    answer (combine .or place other) view = .ok (b || c) := by
  rcases place with _ | p <;> rcases other with _ | q
  all_goals simp only [answer, combine, Option.or, Except.ok.injEq] at hb hc ⊢
  · simp [← hb, ← hc]
  · simpa [← hb] using hc
  · simpa [← hc] using hb
  · rw [Predicate.evaluate_merge, hb]
    cases b
    · exact hc
    · rfl

/-- Every place of a compiled filter answers as the filter means. -/
theorem predicates_express {wanted others : List AttributeTable} {expr : Expr}
    {places : List (Option Predicate)} (h : predicates wanted others expr = .ok places) :
    List.Forall₂ (fun table place => Expresses table expr place) wanted places := by
  have hleaf {attr : String} {test : Test} {places : List (Option Predicate)}
      (h : leaf wanted others attr test = .ok places) :
      List.Forall₂ (fun table place => ∀ view subject, view.Shows table subject →
        answer place view = .ok (decide (subject.MeetsLeaf table attr test))) wanted places :=
    (forall₂_of_leaf h).imp fun _ _ hplace _ _ hshows => answer_testIn hplace hshows
  induction expr generalizing places with
  | join connective lhs rhs ihl ihr =>
    obtain ⟨ps, hps, h⟩ := except_bind_eq_ok.mp h
    obtain ⟨qs, hqs, h⟩ := except_bind_eq_ok.mp h
    cases h
    refine forall₂_zipWith ?_ (ihl hps) (ihr hqs)
    intro table place other hplace hother view subject hshows
    have hb := hplace view subject hshows
    have hc := hother view subject hshows
    cases connective with
    | and =>
      rw [answer_combine_and hb hc, ← Bool.decide_and]
      rfl
    | or =>
      rw [answer_combine_or hb hc, ← Bool.decide_or]
      rfl
  | compare attr comparison value =>
    cases comparison with
    | eq => exact hleaf h
    | ne | gt | ge | lt | le => cases h
  | search attr occurrence value => exact hleaf h
  | present attr => exact hleaf h
  | group negated inner => cases negated <;> cases h
  | path | valuePath => cases h

end Filter

/-- Whether the rows of a resource type are wanted. -/
def ResourceType.wanted (wantUsers wantGroups : Bool) : ResourceType → Bool
  | .user => wantUsers
  | .group => wantGroups

/-- The place of a wanted resource type answers as the filter means. -/
theorem Filter.compile_expresses {expr : Expr} {wantUsers wantGroups : Bool}
    {compiled : Compiled} (h : compile expr wantUsers wantGroups = .ok compiled)
    {type : ResourceType} (hwanted : type.wanted wantUsers wantGroups = true) :
    Expresses (.ofType type) expr (compiled.ofType type) := by
  cases wantUsers <;> cases wantGroups
  · cases type <;> cases hwanted
  all_goals
    obtain ⟨places, hplaces, h⟩ := except_bind_eq_ok.mp h
    cases h
    have hexpress := predicates_express hplaces
  · cases type with
    | user => cases hwanted
    | group =>
      cases hexpress with
      | cons hgroup _ => exact hgroup
  · cases type with
    | user =>
      cases hexpress with
      | cons huser _ => exact huser
    | group => cases hwanted
  · cases hexpress with
    | cons huser hrest =>
      cases hrest with
      | cons hgroup _ =>
        cases type with
        | user => exact huser
        | group => exact hgroup

/-- A filter that compiles is answered for every wanted resource type as it means: a predicate
evaluates on every row, with whatever items are related to it, to the meaning of the filter and
never to an error, and where there is no predicate the filter holds of no row. -/
theorem compiled_filter_preserves_meaning {expr : Expr} {wantUsers wantGroups : Bool}
    {compiled : Compiled} (h : Filter.compile expr wantUsers wantGroups = .ok compiled)
    (type : ResourceType) (hwanted : type.wanted wantUsers wantGroups = true)
    (row : Row type) (items : Relation → List ItemRow) :
    match compiled.ofType type with
    | some p =>
      p.evaluate (row.view items) =
        .ok (decide (expr.Holds (.ofType type) (row.subject items)))
    | none => ¬expr.Holds (.ofType type) (row.subject items) := by
  have hanswer := Filter.compile_expresses h hwanted _ _ (row.view_shows items)
  cases hplace : compiled.ofType type with
  | some p => rwa [hplace] at hanswer
  | none =>
    rw [hplace] at hanswer
    exact of_decide_eq_false (Except.ok.inj hanswer).symm

/-- Of a user, `userName` and `emails.type` are compared and `members` is passed over; of a group,
the other way round. -/
theorem compiled_filter_preserves_meaning_of_alice :
    let expr : Expr := .join .or (.present "members")
      (.join .and (.compare "userName" .eq (.text "ALICE"))
        (.compare "emails.type" .eq (.text "work")))
    let byName : Predicate := .and [.equals .userName (.text "ALICE") true,
      .hasItemWhere (.values .emails) (.equals .type (.text "work") true)]
    let row : Row .user := UserRow.named .nil "Alice" (.ofSeconds 0)
    let items : Relation → List ItemRow := fun _ =>
      [{ ItemRow.blank (.drawn 0 0) .nil with type := some "Work" }]
    Filter.compile expr true true = .ok ⟨some byName, some (.hasItem .members)⟩ ∧
      ResourceType.user.wanted true true = true ∧
      byName.evaluate (row.view items) =
        .ok (decide (expr.Holds (.ofType .user) (row.subject items))) := by
  intro expr byName row items
  have hcompile : Filter.compile expr true true = .ok ⟨some byName, some (.hasItem .members)⟩ := rfl
  exact ⟨hcompile, rfl, compiled_filter_preserves_meaning hcompile .user rfl row items⟩

end ScimDirectory
