import ScimDirectory.Proofs.Filter.Supported
import ScimDirectory.Proofs.Patch.Selections

/-!
# Filters for items

A filter for the items of a relation is refused for something that is wrong with the filter itself,
or has a predicate. The predicate reads no relation, since the sub-attributes of items are columns
only; so it can be tested on every item, and a query with it answers with the items of which the
filter holds.
-/

namespace ScimDirectory

open ScimDirectory.Filter

namespace Predicate

mutual

/-- The relations that a predicate reads. -/
def relations : Predicate → List Relation
  | .equals .. | .occurs .. | .notNull _ => []
  | .hasItem relation => [relation]
  | .hasItemWhere relation filter => relation :: relations filter
  | .and parts | .or parts => relationsOfAll parts
  | .not part => relations part

/-- The relations that some predicates read. -/
def relationsOfAll : List Predicate → List Relation
  | [] => []
  | p :: ps => relations p ++ relationsOfAll ps

end

theorem relationsOfAll_append (ps qs : List Predicate) :
    relationsOfAll (ps ++ qs) = relationsOfAll ps ++ relationsOfAll qs := by
  induction ps with
  | nil => rfl
  | cons p ps ih => rw [List.cons_append, relationsOfAll, ih, relationsOfAll, List.append_assoc]

/-- The parts of a predicate read what it reads. -/
theorem relationsOfAll_parts (connective : Connective) (p : Predicate) :
    relationsOfAll (parts connective p) = p.relations := by
  have hone (q : Predicate) : relationsOfAll [q] = q.relations := List.append_nil _
  cases connective <;> cases p <;> first | exact hone _ | simp only [parts, relations]

/-- Merged predicates read what both of them read. -/
theorem relations_merge (connective : Connective) (p q : Predicate) :
    (merge connective p q).relations = p.relations ++ q.relations := by
  cases connective <;>
    rw [merge, relations, relationsOfAll_append, relationsOfAll_parts, relationsOfAll_parts]

end Predicate

/-- What a literal is called that the values of a field can be compared with. -/
def Field.literalKind (field : Field) : String := if field.isText then "string" else "boolean"

/-- What a literal of the wrong kind is told. -/
def Field.wrongLiteral (field : Field) (attr : String) (value : Literal) : FilterError :=
  .invalidValue attr ("expected a " ++ field.literalKind ++ " literal, got " ++ value.kindName)

/-- The constructs of a filter that searches do not support, as messages call them. -/
def Expr.unsupported : Expr → List String
  | .join _ lhs rhs => lhs.unsupported ++ rhs.unsupported
  | .compare _ comparison _ =>
    if comparison = .eq then [] else ["the '" ++ comparison.operator ++ "' operator"]
  | .search .. | .present _ => []
  | .group negated _ => [if negated then "'not' expressions" else "parenthesized expressions"]
  | .path attr _ | .valuePath attr .. => ["the value filter on '" ++ attr ++ "'"]

/-- The errors of a filter itself, for a table of sub-attributes. -/
inductive Expr.Blames (table : AttributeTable) (expr : Expr) : FilterError → Prop where
  /-- It has a construct that is not supported. -/
  | construct {name : String} (hname : name ∈ expr.unsupported) :
      Blames table expr (.unimplemented name)
  /-- It names something that is not in the table. -/
  | lookup {attr : String} {test : Test} {error : LookupError} (hleaf : (attr, test) ∈ expr.leaves)
      (hresolve : table.resolve attr = .error error) : Blames table expr (.lookup error)
  /-- It compares a sub-attribute with a literal of another kind. -/
  | comparison {attr : String} {value : Literal} {field : Field}
      (hleaf : (attr, .equals value) ∈ expr.leaves)
      (hresolve : table.resolve attr = .ok (.field field))
      (hkind : value.kindName ≠ field.literalKind) :
      Blames table expr (field.wrongLiteral attr value)
  /-- It searches for something in truth values. -/
  | operator {attr : String} {occurrence : Occurrence} {value : Literal} {field : Field}
      (hleaf : (attr, .occurs occurrence value) ∈ expr.leaves)
      (hresolve : table.resolve attr = .ok (.field field)) (hkind : field.isText = false) :
      Blames table expr (.invalidOperator attr occurrence.operator)
  /-- It searches texts for a literal that is no text. -/
  | search {attr : String} {occurrence : Occurrence} {value : Literal} {field : Field}
      (hleaf : (attr, .occurs occurrence value) ∈ expr.leaves)
      (hresolve : table.resolve attr = .ok (.field field)) (htext : field.isText = true)
      (hkind : value.kindName ≠ field.literalKind) :
      Blames table expr (field.wrongLiteral attr value)

/-- An error of a part is one of the whole. -/
theorem Expr.Blames.mono {table : AttributeTable} {part whole : Expr} {error : FilterError}
    (h : part.Blames table error) (hleaves : part.leaves ⊆ whole.leaves)
    (hunsupported : part.unsupported ⊆ whole.unsupported) : whole.Blames table error := by
  cases h with
  | construct hname => exact .construct (hunsupported hname)
  | lookup hleaf hresolve => exact .lookup (hleaves hleaf) hresolve
  | comparison hleaf hresolve hkind => exact .comparison (hleaves hleaf) hresolve hkind
  | operator hleaf hresolve hkind => exact .operator (hleaves hleaf) hresolve hkind
  | search hleaf hresolve htext hkind => exact .search (hleaves hleaf) hresolve htext hkind

/-- What is not supported is told in other words than a filter without a predicate would be. -/
theorem Expr.not_mem_unsupported (expr : Expr) (rest : String) :
    "empty " ++ rest ∉ expr.unsupported := by
  have hne {s t : String} (h : s.toList.head? ≠ some 'e') (hs : s.toList ≠ []) :
      "empty " ++ rest ≠ s ++ t := by
    intro heq
    have hhead := congrArg (fun text : String => text.toList.head?) heq
    simp only [String.toList_append, List.head?_append_of_ne_nil _ hs] at hhead
    exact h hhead.symm
  induction expr with
  | join connective lhs rhs ihl ihr =>
    rw [unsupported, List.mem_append, not_or]
    exact ⟨ihl, ihr⟩
  | compare attr comparison value =>
    rw [unsupported]
    split
    · exact List.not_mem_nil
    · rw [List.mem_singleton, String.append_assoc]
      exact hne (by decide) (by decide)
  | search | present => exact List.not_mem_nil
  | group negated inner =>
    rw [unsupported, List.mem_singleton, ← String.append_empty (s := ite _ _ _)]
    cases negated <;> exact hne (by decide) (by decide)
  | path | valuePath =>
    rw [unsupported, List.mem_singleton, String.append_assoc]
    exact hne (by decide) (by decide)

namespace Filter

variable {relation : Relation} {expr : Expr} {field : Field} {attr : String} {test : Test}
  {p : Predicate} {error : FilterError}

/-- Filters may name every sub-attribute. -/
theorem filterable_of_mem_ofItems (h : .field field ∈ (AttributeTable.ofItems relation).entries) :
    field.filterable = true := by
  have hall : ∀ entry ∈ (AttributeTable.ofItems relation).entries,
      ∀ field, entry = .field field → field.filterable = true := by
    cases relation <;>
      simp [AttributeTable.ofItems, AttributeTable.value, AttributeTable.address,
        AttributeTable.member, Field.text, Field.exact, Field.boolean]
  exact hall _ h field rfl

/-- A name in a table of sub-attributes stands for a field, and a filter may name it. -/
theorem exists_field_of_resolve {resolved : Resolved}
    (h : (AttributeTable.ofItems relation).resolve attr = .ok resolved) :
    ∃ field, resolved = .field field ∧ field.filterable = true := by
  have hlists := AttributeTable.lists_of_resolve h
  cases resolved with
  | field field => exact ⟨field, rfl, filterable_of_mem_ofItems hlists⟩
  | relation other => exact absurd hlists (AttributeTable.not_relation_mem_ofItems relation other)
  | itemField other field =>
    exact absurd hlists.1 (AttributeTable.not_relation_mem_ofItems relation other)

/-- An attribute that is unknown is told with the name of the table. -/
theorem eq_unknownAttribute_of_resolve {table : AttributeTable} {error : LookupError}
    (h : table.resolve attr = .error error) (hunknown : error.isUnknownAttribute = true) :
    error = .unknownAttribute table.name attr := by
  unfold AttributeTable.resolve at h
  split at h
  · cases h
  · cases h
  · split at h
    · cases h
      rfl
    · split at h
      · split at h <;> cases h
        cases hunknown
      · cases h
        cases hunknown
      · split at h <;> cases h
        · cases hunknown
        · rfl

/-- A leaf for one table alone has the predicate of the table, or is refused. -/
theorem leaf_singleton (table : AttributeTable) (attr : String) (test : Test) :
    leaf [table] [] attr test =
      match testIn table attr test with
      | .ok (some p) => .ok [some p]
      | .ok none => .error (.lookup (.unknownAttribute table.name attr))
      | .error error => .error error := by
  unfold leaf
  cases h : testIn table attr test with
  | error error => simp [h, bind, Except.bind]
  | ok place => cases place <;> simp [h, bind, Except.bind, pure, Except.pure]

/-- A condition on a column reads no relation. -/
theorem relations_condition (h : condition? field attr test = .ok p) : p.relations = [] := by
  unfold condition? at h
  split at h
  · cases h
  · cases test with
    | present =>
      cases h
      split <;> rfl
    | equals value =>
      obtain ⟨_, -, rfl⟩ := except_map_eq_ok.mp h
      rfl
    | occurs occurrence value =>
      dsimp only at h
      split at h
      · cases h
      · split at h <;> cases h
        rfl

/-- What is asked of a field that filters may name is refused for its literal, or because only
texts are searched. -/
theorem blames_of_condition {table : AttributeTable} (hleaf : (attr, test) ∈ expr.leaves)
    (hresolve : table.resolve attr = .ok (.field field)) (hfilterable : field.filterable = true)
    (h : condition? field attr test = .error error) : expr.Blames table error := by
  obtain ⟨name, column, matching, filterable⟩ := field
  cases hfilterable
  cases test with
  | present => cases h
  | equals value =>
    have hscalar := except_map_eq_error.mp h
    unfold scalarOf at hscalar
    cases matching <;> cases value <;> cases hscalar
    all_goals
      exact .comparison hleaf hresolve (by simp [Literal.kindName, Field.literalKind, Field.isText])
  | occurs occurrence value =>
    cases matching with
    | boolean =>
      cases h
      exact .operator hleaf hresolve rfl
    | ignoringCase | exact =>
      cases value <;> cases h
      all_goals
        exact .search hleaf hresolve rfl
          (by simp [Literal.kindName, Field.literalKind, Field.isText])

/-- A leaf that has a predicate for items reads no relation. -/
theorem relations_of_leaf {places : List (Option Predicate)}
    (h : leaf [.ofItems relation] [] attr test = .ok places) :
    List.Forall₂ (fun (_ : AttributeTable) place => ∃ p, place = some p ∧ p.relations = [])
      [.ofItems relation] places := by
  rw [leaf_singleton] at h
  cases hresolve : (AttributeTable.ofItems relation).resolve attr with
  | ok resolved =>
    obtain ⟨field, rfl, -⟩ := exists_field_of_resolve hresolve
    cases hcondition : condition? field attr test <;>
      simp only [testIn, hresolve, testOn, hcondition, Except.map] at h <;> cases h
    exact .cons ⟨_, rfl, relations_condition hcondition⟩ .nil
  | error error =>
    cases hunknown : error.isUnknownAttribute <;>
      simp [testIn, hresolve, hunknown] at h

/-- A leaf that is refused for items is to blame. -/
theorem blames_of_leaf (hleaf : (attr, test) ∈ expr.leaves)
    (h : leaf [.ofItems relation] [] attr test = .error error) :
    expr.Blames (.ofItems relation) error := by
  rw [leaf_singleton] at h
  cases hresolve : (AttributeTable.ofItems relation).resolve attr with
  | ok resolved =>
    obtain ⟨field, rfl, hfilterable⟩ := exists_field_of_resolve hresolve
    cases hcondition : condition? field attr test <;>
      simp only [testIn, hresolve, testOn, hcondition, Except.map] at h <;> cases h
    exact blames_of_condition hleaf hresolve hfilterable hcondition
  | error other =>
    -- The error for a leaf that no table knows is that of the only table.
    have herror : error = .lookup other := by
      cases hunknown : other.isUnknownAttribute with
      | true =>
        rw [eq_unknownAttribute_of_resolve hresolve hunknown]
        simpa [testIn, hresolve, hunknown] using h.symm
      | false => simpa [testIn, hresolve, hunknown] using h.symm
    exact herror ▸ .lookup hleaf hresolve

/-- What is refused for items is to blame for it. The induction is on the filter, and the errors of
both sides of a connective are errors of the whole. -/
theorem blames_of_predicates (h : predicates [.ofItems relation] [] expr = .error error) :
    expr.Blames (.ofItems relation) error := by
  induction expr with
  | join connective lhs rhs ihl ihr =>
    rcases except_bind_eq_error.mp h with hl | ⟨_, -, h⟩
    · exact (ihl hl).mono (List.subset_append_left ..) (List.subset_append_left ..)
    · rcases except_bind_eq_error.mp h with hr | ⟨_, -, h⟩
      · exact (ihr hr).mono (List.subset_append_right ..) (List.subset_append_right ..)
      · cases h
  | compare attr comparison value =>
    cases comparison with
    | eq => exact blames_of_leaf List.mem_cons_self h
    | ne | gt | ge | lt | le =>
      cases h
      exact .construct List.mem_cons_self
  | search attr occurrence value => exact blames_of_leaf List.mem_cons_self h
  | present attr => exact blames_of_leaf List.mem_cons_self h
  | group negated inner =>
    cases negated <;> cases h
    all_goals exact .construct List.mem_cons_self
  | path | valuePath =>
    cases h
    exact .construct List.mem_cons_self

/-- A filter for items has one predicate, and it reads no relation. -/
theorem relations_of_predicates {places : List (Option Predicate)}
    (h : predicates [.ofItems relation] [] expr = .ok places) :
    ∃ p, places = [some p] ∧ p.relations = [] := by
  have hall : List.Forall₂ (fun _ place => ∃ p, place = some p ∧ p.relations = [])
      [AttributeTable.ofItems relation] places := by
    refine forall₂_of_predicates relations_of_leaf ?_ h
    rintro table _ _ connective ⟨p, rfl, hp⟩ ⟨q, rfl, hq⟩
    refine ⟨merge connective p q, by cases connective <;> rfl, ?_⟩
    rw [Predicate.relations_merge, hp, hq, List.append_nil]
  obtain ⟨_, _, ⟨p, rfl, hp⟩, hrest, rfl⟩ := List.forall₂_cons_left_iff.mp hall
  cases hrest
  exact ⟨p, rfl, hp⟩

/-- An error of a filter for items is one of the filter itself. -/
theorem predicates_of_compileItems_error (h : compileItems relation expr = .error error) :
    predicates [.ofItems relation] [] expr = .error error := by
  rcases except_bind_eq_error.mp h with h | ⟨places, hplaces, h⟩
  · exact h
  · obtain ⟨p, rfl, -⟩ := relations_of_predicates hplaces
    cases h

/-- The predicate of a filter for items reads no relation. -/
theorem relations_of_compileItems (h : compileItems relation expr = .ok p) : p.relations = [] := by
  obtain ⟨places, hplaces, h⟩ := except_bind_eq_ok.mp h
  obtain ⟨q, rfl, hq⟩ := relations_of_predicates hplaces
  cases h
  exact hq

end Filter

/-- A filter for the items of a relation is refused only for an error of the filter itself, and
never because it would have no predicate. Otherwise its predicate reads no relation, and whatever
the tables hold, a query with it does not fail: it answers with the items of the owner of which the
filter holds, in their order. -/
theorem item_filter_is_total_and_exact (relation : Relation) (expr : Expr) :
    match Filter.compileItems relation expr with
    | .error error =>
      expr.Blames (.ofItems relation) error ∧
        error ≠ .unimplemented ("empty " ++ relation.attributeName ++ " filter")
    | .ok p =>
      p.relations = [] ∧ ∀ (tables : Tables) (owner : Uuid),
        tables.queryItems relation owner (some p) =
          .ok ((tables.ownedItems owner relation).filter fun item =>
            expr.Holds (.ofItems relation) item.subject) := by
  cases h : Filter.compileItems relation expr with
  | error error =>
    have hblames := Filter.blames_of_predicates (Filter.predicates_of_compileItems_error h)
    refine ⟨hblames, ?_⟩
    rintro rfl
    cases hblames with
    | construct hname =>
      rw [String.append_assoc] at hname
      exact expr.not_mem_unsupported _ hname
  | ok p =>
    refine ⟨Filter.relations_of_compileItems h, fun tables owner => ?_⟩
    exact selectBy_eq_filter fun item _ => Filter.evaluate_compileItems h item

end ScimDirectory
