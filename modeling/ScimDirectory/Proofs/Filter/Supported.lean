import ScimDirectory.Proofs.Filter.Scopes

/-!
# Supported filters

Which filters are compiled is told without the compiler: by the constructs of the filter, by which
resource types have its attributes, and by whether what a leaf asks can be asked of what its
attribute stands for. A type that is not wanted counts only where a wanted one does not have an
attribute at all.
-/

namespace ScimDirectory

open ScimDirectory.Filter

/-- What some resource type satisfies, a user or a group does. -/
theorem ResourceType.exists_iff {p : ResourceType → Prop} : (∃ type, p type) ↔ p .user ∨ p .group :=
  ⟨fun | ⟨.user, h⟩ => .inl h | ⟨.group, h⟩ => .inr h,
    fun | .inl h => ⟨.user, h⟩ | .inr h => ⟨.group, h⟩⟩

/-- What every resource type satisfies, users and groups do. -/
theorem ResourceType.forall_iff {p : ResourceType → Prop} : (∀ type, p type) ↔ p .user ∧ p .group :=
  ⟨fun h => ⟨h _, h _⟩, fun h => fun | .user => h.1 | .group => h.2⟩

namespace Filter.Test

/-- What is asked of a field can be asked of its values: a truth value is only compared with a
truth value, and a text only with a text or searched for one. -/
def Suits (field : Field) : Test → Prop
  | present => True
  | equals (.bool _) => field.isText = false
  | equals (.text _) | occurs _ (.text _) => field.isText = true
  | equals _ | occurs .. => False

/-- What is asked of a field suits it, and the field may be named in a filter. -/
def Admits (field : Field) (test : Test) : Prop :=
  field.filterable = true ∧ test.Suits field

/-- What is asked of an attribute can be asked of what the attribute stands for. Of a whole relation
anything but presence is asked of the values of its items, and there have to be such values. -/
def WellTyped (test : Test) : Resolved → Prop
  | .field field | .itemField _ field => test.Admits field
  | .relation relation =>
    match test with
    | present => True
    | test => ∃ field ∈ (AttributeTable.ofItems relation).field? "value", test.Admits field

/-- A table can be tested for an attribute: either it does not have the attribute, or it has it and
what is asked is well typed. -/
def Fits (table : AttributeTable) (attr : String) (test : Test) : Prop :=
  match table.resolve attr with
  | .ok resolved => test.WellTyped resolved
  | .error error => error.isUnknownAttribute = true

end Filter.Test

/-- A filter is made of leaves and of connectives between them, and orders nothing. -/
def Expr.IsSupported : Expr → Prop
  | .join _ lhs rhs => lhs.IsSupported ∧ rhs.IsSupported
  | .compare _ comparison _ => comparison = .eq
  | .search .. | .present _ => True
  | .group .. | .path .. | .valuePath .. => False

/-- The attributes that the leaves of a filter name, each with what is asked of it. -/
def Expr.leaves : Expr → List (String × Test)
  | .join _ lhs rhs => lhs.leaves ++ rhs.leaves
  | .compare attr .eq value => [(attr, .equals value)]
  | .search attr occurrence value => [(attr, .occurs occurrence value)]
  | .present attr => [(attr, .present)]
  | .compare .. | .group .. | .path .. | .valuePath .. => []

/-- A filter can be asked of the wanted resource types. -/
structure Expr.IsAskable (expr : Expr) (wantUsers wantGroups : Bool) : Prop where
  /-- It has no other constructs than those that are supported. -/
  supported : expr.IsSupported
  /-- Every attribute that it names is known to a resource type, wanted or not. -/
  known : ∀ leaf ∈ expr.leaves, ∃ type resolved,
    (AttributeTable.ofType type).resolve leaf.1 = .ok resolved
  /-- A wanted type has the attribute of a leaf or does not know it at all. -/
  whole : ∀ leaf ∈ expr.leaves, ∀ type : ResourceType, type.wanted wantUsers wantGroups = true →
    ∀ error, (AttributeTable.ofType type).resolve leaf.1 = .error error →
      error.isUnknownAttribute = true
  /-- What a leaf asks of an attribute that a wanted type has is well typed there. -/
  wellTyped : ∀ leaf ∈ expr.leaves, ∀ type : ResourceType,
    type.wanted wantUsers wantGroups = true →
    ∀ resolved, (AttributeTable.ofType type).resolve leaf.1 = .ok resolved →
      leaf.2.WellTyped resolved

namespace Filter

variable {field : Field} {attr : String} {test : Test} {table : AttributeTable}

/-- A literal is a scalar of a field when a text meets a field of texts or a truth value one of
truth values. -/
theorem exists_scalarOf_iff (attr : String) {value : Literal} :
    (∃ scalar, scalarOf field attr value = .ok scalar) ↔ (Test.equals value).Suits field := by
  obtain ⟨name, column, matching, filterable⟩ := field
  cases matching <;> cases value <;> simp [scalarOf, Test.Suits, Field.isText]

/-- There is a condition on a field when the field admits the test. -/
theorem exists_condition_iff :
    (∃ p, condition? field attr test = .ok p) ↔ test.Admits field := by
  unfold condition? Test.Admits
  cases field.filterable with
  | false => simp
  | true =>
    simp only [Bool.not_true, Bool.false_eq_true, if_false, true_and]
    cases test with
    | present => simp [Test.Suits]
    | equals value => rw [← exists_scalarOf_iff attr, exists_except_map_eq_ok]
    | occurs occurrence value =>
      cases htext : field.isText <;> cases value <;> simp [Test.Suits, htext]

/-- There is a predicate for what an attribute stands for when the test is well typed there. -/
theorem exists_testOn_iff {resolved : Resolved} :
    (∃ p, testOn resolved attr test = .ok p) ↔ test.WellTyped resolved := by
  cases resolved with
  | field field => exact exists_condition_iff
  | itemField relation field => exact exists_except_map_eq_ok.trans exists_condition_iff
  | relation relation =>
    cases hvalue : (AttributeTable.ofItems relation).field? "value" with
    | none => cases test <;> simp [testOn, Test.WellTyped, hvalue]
    | some field =>
      cases test <;>
        simp [testOn, Test.WellTyped, hvalue, exists_except_map_eq_ok, exists_condition_iff]

/-- A table has a place for a leaf when it can be tested. -/
theorem exists_testIn_iff : (∃ place, testIn table attr test = .ok place) ↔ test.Fits table attr := by
  unfold testIn Test.Fits
  cases table.resolve attr with
  | ok resolved => exact exists_except_map_eq_ok.trans exists_testOn_iff
  | error error =>
    cases hunknown : error.isUnknownAttribute <;> simp [hunknown]

/-- No table has a predicate exactly when none of them knows the attribute. -/
theorem all_isNone_of_testIn {tables : List AttributeTable} {places : List (Option Predicate)}
    (h : List.Forall₂ (fun table place => testIn table attr test = .ok place) tables places) :
    places.all Option.isNone = !tables.any (knows attr) := by
  induction h with
  | nil => rfl
  | cons hplace _ ih => rw [List.all_cons, List.any_cons, isNone_of_testIn hplace, ih, Bool.not_or]

/-- A leaf has predicates when its attribute is known to some table and every wanted table can be
tested. -/
theorem exists_leaf_iff {first : AttributeTable} {rest others : List AttributeTable} :
    (∃ places, leaf (first :: rest) others attr test = .ok places) ↔
      (∃ table ∈ first :: rest ++ others, knows attr table = true) ∧
        ∀ table ∈ first :: rest, test.Fits table attr := by
  rw [← List.any_eq_true, List.any_append]
  constructor
  · rintro ⟨places, h⟩
    obtain ⟨hplaces, hknown⟩ := leaf_eq_ok.mp h
    rw [all_isNone_of_testIn hplaces, ← Bool.not_or, Bool.not_eq_false'] at hknown
    refine ⟨hknown, fun table htable => exists_testIn_iff.mp ?_⟩
    obtain ⟨place, -, hplace⟩ := exists_right_of_forall₂ hplaces htable
    exact ⟨place, hplace⟩
  · rintro ⟨hknown, hfits⟩
    obtain ⟨places, -, hplaces⟩ := exists_mapM_eq_ok fun table htable =>
      (exists_testIn_iff.mpr (hfits table htable)).imp fun _ hplace => ⟨hplace, hplace⟩
    refine ⟨places, leaf_eq_ok.mpr ⟨hplaces, ?_⟩⟩
    rw [all_isNone_of_testIn hplaces, ← Bool.not_or, hknown]
    rfl

/-- A filter has predicates when it is supported and each of its leaves has some. The induction is
on the filter. -/
theorem exists_predicates_iff {wanted others : List AttributeTable} {expr : Expr} :
    (∃ places, predicates wanted others expr = .ok places) ↔
      expr.IsSupported ∧
        ∀ asked ∈ expr.leaves, ∃ places, leaf wanted others asked.1 asked.2 = .ok places := by
  induction expr with
  | join connective lhs rhs ihl ihr =>
    rw [Expr.IsSupported, Expr.leaves, List.forall_mem_append, and_and_and_comm, ← ihl, ← ihr]
    constructor
    · rintro ⟨places, h⟩
      obtain ⟨ps, hps, h⟩ := except_bind_eq_ok.mp h
      obtain ⟨qs, hqs, -⟩ := except_bind_eq_ok.mp h
      exact ⟨⟨ps, hps⟩, qs, hqs⟩
    · rintro ⟨⟨ps, hps⟩, qs, hqs⟩
      exact ⟨_, except_bind_eq_ok.mpr ⟨ps, hps, except_bind_eq_ok.mpr ⟨qs, hqs, rfl⟩⟩⟩
  | compare attr comparison value =>
    cases comparison <;> simp [predicates, Expr.IsSupported, Expr.leaves]
  | search | present => simp [predicates, Expr.IsSupported, Expr.leaves]
  | group negated inner => cases negated <;> simp [predicates, Expr.IsSupported]
  | path | valuePath => simp [predicates, Expr.IsSupported]

/-- A filter has predicates when it is supported, and for each leaf some table knows the attribute
and every wanted one can be tested. -/
theorem exists_predicates_iff_fits {first : AttributeTable} {rest others : List AttributeTable}
    {expr : Expr} :
    (∃ places, predicates (first :: rest) others expr = .ok places) ↔
      expr.IsSupported ∧ ∀ asked ∈ expr.leaves,
        (∃ table ∈ first :: rest ++ others, knows asked.1 table = true) ∧
          ∀ table ∈ first :: rest, asked.2.Fits table asked.1 := by
  simp only [exists_predicates_iff, exists_leaf_iff]

/-- A filter is compiled when it is supported, and for each leaf some type knows the attribute and
the table of every wanted type can be tested. -/
theorem exists_compile_iff {expr : Expr} {wantUsers wantGroups : Bool}
    (hwanted : wantUsers = true ∨ wantGroups = true) :
    (∃ compiled, compile expr wantUsers wantGroups = .ok compiled) ↔
      expr.IsSupported ∧ ∀ asked ∈ expr.leaves,
        (∃ type : ResourceType, knows asked.1 (.ofType type) = true) ∧
          ∀ type : ResourceType, type.wanted wantUsers wantGroups = true →
            asked.2.Fits (.ofType type) asked.1 := by
  simp only [ResourceType.exists_iff, ResourceType.forall_iff]
  cases wantUsers <;> cases wantGroups
  · simp at hwanted
  all_goals
    refine exists_except_map_eq_ok.trans (exists_predicates_iff_fits.trans ?_)
    refine and_congr_right fun _ => forall₂_congr fun asked _ => ?_
  · simp [ResourceType.wanted, AttributeTable.ofType, or_comm]
  · simp [ResourceType.wanted, AttributeTable.ofType]
  · simp [ResourceType.wanted, AttributeTable.ofType]

/-- What fits a table is told apart by whether the table has the attribute. -/
theorem Test.fits_iff :
    test.Fits table attr ↔
      (∀ error, table.resolve attr = .error error → error.isUnknownAttribute = true) ∧
        ∀ resolved, table.resolve attr = .ok resolved → test.WellTyped resolved := by
  unfold Test.Fits
  cases table.resolve attr <;> simp

end Filter

/-- A filter is compiled for the wanted resource types exactly when it can be asked of them. -/
theorem filter_compiles_iff_askable (expr : Expr) {wantUsers wantGroups : Bool}
    (hwanted : wantUsers = true ∨ wantGroups = true) :
    (∃ compiled, compile expr wantUsers wantGroups = .ok compiled) ↔
      expr.IsAskable wantUsers wantGroups := by
  simp only [exists_compile_iff hwanted, knows, except_isOk_iff, Test.fits_iff]
  constructor
  · rintro ⟨hsupported, hleaves⟩
    exact ⟨hsupported, fun leaf hleaf => (hleaves leaf hleaf).1,
      fun leaf hleaf type htype => ((hleaves leaf hleaf).2 type htype).1,
      fun leaf hleaf type htype => ((hleaves leaf hleaf).2 type htype).2⟩
  · intro h
    exact ⟨h.supported, fun leaf hleaf => ⟨h.known leaf hleaf, fun type htype =>
      ⟨h.whole leaf hleaf type htype, h.wellTyped leaf hleaf type htype⟩⟩⟩

/-- Groups can be asked for members or for a user's name and mail, which they do not have; users
cannot be asked for a sub-attribute that mails do not have. -/
theorem filter_compiles_iff_askable_of_members :
    let expr : Expr := .join .or (.present "members")
      (.join .and (.compare "userName" .eq (.text "alice"))
        (.search "emails.type" .atStart (.text "w")))
    let other : Expr := .join .or (.present "members") (.present "emails.street")
    ((false = true ∨ true = true) ∧ expr.IsAskable false true) ∧
      (true = true ∨ false = true) ∧ ¬other.IsAskable true false := by
  intro expr other
  refine ⟨⟨.inr rfl, (filter_compiles_iff_askable expr (.inr rfl)).mp ⟨_, rfl⟩⟩, .inl rfl, ?_⟩
  intro h
  obtain ⟨compiled, hcompiled⟩ := (filter_compiles_iff_askable other (.inl rfl)).mpr h
  have hrefused : (compile other true false).isOk = false := by decide +kernel
  rw [hcompiled] at hrefused
  cases hrefused

end ScimDirectory
