import ScimDirectory.Proofs.Filter.Preservation

/-!
# Barred columns

A filter may not name an attribute that is barred from filters. So where every attribute of a table
that is kept in a column is barred, no predicate of a filter for the rows of that table reads the
column: it answers alike whatever the column holds.
-/

namespace ScimDirectory

/-- Two views are alike but for a column. -/
structure RowView.AlikeBut (hidden : Column) (a b : RowView) : Prop where
  /-- They are of one table. -/
  table : a.table = b.table
  /-- The other columns hold the same. -/
  cell : ∀ column, column ≠ hidden → a.cell column = b.cell column
  /-- The items are the same. -/
  items : a.items = b.items

/-- A predicate that answers alike on views that are alike but for a column. -/
def Predicate.Ignores (hidden : Column) (p : Predicate) : Prop :=
  ∀ ⦃a b : RowView⦄, a.AlikeBut hidden b → p.evaluate a = p.evaluate b

/-- Whether all attributes of a table that are kept in a column are barred from filters. -/
def AttributeTable.Bars (table : AttributeTable) (hidden : Column) : Prop :=
  ∀ field ∈ table.fields, field.column = hidden → field.filterable = false

/-- The password is barred from filters. -/
theorem AttributeTable.bars_password (type : ResourceType) : (ofType type).Bars .password := by
  cases type <;> unfold Bars <;> decide

variable {hidden : Column}

theorem RowView.AlikeBut.read_eq {a b : RowView} (h : a.AlikeBut hidden b) {column : Column}
    (hne : column ≠ hidden) : a.read column = b.read column := by
  rw [read, read, h.table, h.cell column hne]

/-- Where there is no predicate, none reads anything. -/
theorem Predicate.ignores_of_mem_none : ∀ p ∈ (none : Option Predicate), p.Ignores hidden :=
  fun p hmem => absurd hmem (Option.not_mem_none p)

namespace Filter

variable {field : Field} {attr : String} {test : Test} {p : Predicate} {table : AttributeTable}

/-- A condition on a column may be tested wherever the column is known. -/
theorem ignores_condition (h : condition? field attr test = .ok p) (hne : field.column ≠ hidden) :
    p.Ignores hidden := by
  intro a b hab
  have hread := hab.read_eq hne
  unfold condition? at h
  split at h
  · cases h
  · cases test with
    | present =>
      cases h
      split <;> simp only [Predicate.presentText, Predicate.evaluate, Predicate.evaluateAll, hread]
    | equals value =>
      obtain ⟨scalar, -, rfl⟩ := except_map_eq_ok.mp h
      rw [Predicate.evaluate, Predicate.evaluate, hread]
    | occurs occurrence value =>
      dsimp only at h
      split at h
      · cases h
      · split at h
        · cases h
          rw [Predicate.evaluate, Predicate.evaluate, hread]
        · cases h

/-- A condition on items reads no column of the row that has them. -/
theorem ignores_hasItemWhere (relation : Relation) (p : Predicate) :
    (Predicate.hasItemWhere relation p).Ignores hidden := by
  intro a b hab
  rw [Predicate.evaluate, Predicate.evaluate, hab.items]

theorem ignores_hasItem (relation : Relation) :
    (Predicate.hasItem relation).Ignores hidden := by
  intro a b hab
  rw [Predicate.evaluate, Predicate.evaluate, hab.items]

theorem filterable_of_condition (h : condition? field attr test = .ok p) :
    field.filterable = true := by
  unfold condition? at h
  split at h
  · cases h
  · next hbarred => simpa using hbarred

theorem ignores_testOn (hbars : table.Bars hidden) {resolved : Resolved}
    (hlists : table.Lists resolved) (h : testOn resolved attr test = .ok p) :
    p.Ignores hidden := by
  cases resolved with
  | field field =>
    refine ignores_condition h fun hcolumn => ?_
    have hbarred := hbars field (AttributeTable.mem_fields_of_mem_entries hlists) hcolumn
    exact Bool.false_ne_true (hbarred.symm.trans (filterable_of_condition h))
  | itemField relation field =>
    obtain ⟨q, -, rfl⟩ := except_map_eq_ok.mp h
    exact ignores_hasItemWhere relation q
  | relation relation =>
    dsimp only [testOn] at h
    split at h
    · cases h
      exact ignores_hasItem relation
    · split at h
      · obtain ⟨q, -, rfl⟩ := except_map_eq_ok.mp h
        exact ignores_hasItemWhere relation q
      · cases h

theorem ignores_testIn (hbars : table.Bars hidden) {place : Option Predicate}
    (h : testIn table attr test = .ok place) : ∀ p ∈ place, p.Ignores hidden := by
  unfold testIn at h
  split at h
  · next resolved hresolve =>
    obtain ⟨q, hq, rfl⟩ := except_map_eq_ok.mp h
    rintro p ⟨⟩
    exact ignores_testOn hbars (AttributeTable.lists_of_resolve hresolve) hq
  · split at h <;> cases h
    exact Predicate.ignores_of_mem_none

theorem ignores_merge {q : Predicate} (connective : Connective) (hp : p.Ignores hidden)
    (hq : q.Ignores hidden) : (merge connective p q).Ignores hidden := by
  intro a b hab
  rw [Predicate.evaluate_merge, Predicate.evaluate_merge, hp hab, hq hab]

theorem ignores_combine (connective : Connective) {place other : Option Predicate}
    (hplace : ∀ p ∈ place, p.Ignores hidden) (hother : ∀ q ∈ other, q.Ignores hidden) :
    ∀ r ∈ combine connective place other, r.Ignores hidden := by
  rcases place with _ | p <;> rcases other with _ | q
  · cases connective <;> exact Predicate.ignores_of_mem_none
  · cases connective with
    | and => exact Predicate.ignores_of_mem_none
    | or => exact hother
  · cases connective with
    | and => exact Predicate.ignores_of_mem_none
    | or => exact hplace
  · rintro r ⟨⟩
    exact ignores_merge connective (hplace p rfl) (hother q rfl)

/-- No predicate of a filter reads a column that its table bars from filters. -/
theorem predicates_ignore {wanted others : List AttributeTable} {expr : Expr}
    {places : List (Option Predicate)} (h : predicates wanted others expr = .ok places) :
    List.Forall₂ (fun table place => table.Bars hidden → ∀ p ∈ place, p.Ignores hidden) wanted
      places := by
  refine forall₂_of_predicates (fun hleaf => ?_) (fun connective hplace hother hbars => ?_) h
  · exact (forall₂_of_leaf hleaf).imp fun _ _ hplace hbars => ignores_testIn hbars hplace
  · exact ignores_combine connective (hplace hbars) (hother hbars)

/-- No predicate of a compiled filter reads a column that its resource type bars from filters. -/
theorem compile_ignores {expr : Expr} {wantUsers wantGroups : Bool} {compiled : Compiled}
    (h : compile expr wantUsers wantGroups = .ok compiled) {type : ResourceType}
    (hbars : (AttributeTable.ofType type).Bars hidden) :
    ∀ p ∈ compiled.ofType type, p.Ignores hidden := by
  cases wantUsers <;> cases wantGroups
  · cases h
    cases type <;> exact Predicate.ignores_of_mem_none
  all_goals
    obtain ⟨places, hplaces, h⟩ := except_bind_eq_ok.mp h
    cases h
    have hignore := @predicates_ignore hidden _ _ _ _ hplaces
  · cases hignore with
    | cons hgroup =>
      cases type with
      | user => exact Predicate.ignores_of_mem_none
      | group => exact hgroup hbars
  · cases hignore with
    | cons huser =>
      cases type with
      | user => exact huser hbars
      | group => exact Predicate.ignores_of_mem_none
  · cases hignore with
    | cons huser hrest =>
      cases hrest with
      | cons hgroup =>
        cases type with
        | user => exact huser hbars
        | group => exact hgroup hbars

end Filter

end ScimDirectory
