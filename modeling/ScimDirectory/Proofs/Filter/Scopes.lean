import ScimDirectory.Proofs.Filter.Preservation

/-!
# Scopes of a filter

Compiled for two resource types at once, a filter has a predicate for each of them: the one that it
has when it is compiled for that type alone and the other type counts as not wanted. The rule for
unknown attributes looks at wanted and at other types in different ways, and both ways come to the
same: an attribute is refused when neither type has it.
-/

namespace ScimDirectory.Filter

variable {a b : AttributeTable} {attr : String} {test : Test}

/-- A table that can be tested has no predicate exactly when it lacks the attribute. -/
theorem isNone_of_testIn {table : AttributeTable} {p : Option Predicate}
    (h : testIn table attr test = .ok p) : p.isNone = !knows attr table := by
  unfold testIn at h
  unfold knows
  split at h
  · next hresolve =>
    obtain ⟨_, -, rfl⟩ := except_map_eq_ok.mp h
    rw [hresolve]
    rfl
  · next hresolve =>
    split at h
    · cases h
      rw [hresolve]
      rfl
    · cases h

/-- A leaf has predicates when every wanted table can be tested, and one of the wanted or of the
other tables has the attribute. -/
theorem leaf_eq_ok {first : AttributeTable} {rest others : List AttributeTable}
    {ps : List (Option Predicate)} :
    leaf (first :: rest) others attr test = .ok ps ↔
      List.Forall₂ (fun table p => testIn table attr test = .ok p) (first :: rest) ps ∧
        (ps.all Option.isNone && !others.any (knows attr)) = false := by
  rw [leaf, except_bind_eq_ok]
  constructor
  · rintro ⟨found, hfound, h⟩
    dsimp only at h
    split at h
    · cases h
    · next hknown =>
      cases h
      exact ⟨mapM_eq_ok_iff.mp hfound, eq_false_of_ne_true hknown⟩
  · rintro ⟨hall, hknown⟩
    exact ⟨ps, mapM_eq_ok_iff.mpr hall, if_neg (ne_true_of_eq_false hknown)⟩

/-- For one table a leaf has a predicate when the table can be tested and it or the other one has
the attribute. -/
theorem leaf_one_eq_ok {p : Option Predicate} :
    leaf [a] [b] attr test = .ok [p] ↔
      testIn a attr test = .ok p ∧ (knows attr a || knows attr b) = true := by
  rw [leaf_eq_ok]
  simp only [List.forall₂_cons, List.Forall₂.nil, and_true, List.all_cons, List.all_nil,
    List.any_cons, List.any_nil, Bool.and_true, Bool.or_false]
  refine and_congr_right fun hp => ?_
  rw [isNone_of_testIn hp, ← Bool.not_or, Bool.not_eq_false']

/-- For two tables a leaf has predicates when both can be tested and one of them has the
attribute. -/
theorem leaf_two_eq_ok {ps : List (Option Predicate)} :
    leaf [a, b] [] attr test = .ok ps ↔
      ∃ p q, ps = [p, q] ∧ testIn a attr test = .ok p ∧ testIn b attr test = .ok q ∧
        (knows attr a || knows attr b) = true := by
  rw [leaf_eq_ok]
  constructor
  · rintro ⟨_ | ⟨hp, _ | ⟨hq, _ | _⟩⟩, hknown⟩
    refine ⟨_, _, rfl, hp, hq, ?_⟩
    simpa [isNone_of_testIn hp, isNone_of_testIn hq, ← Bool.not_or] using hknown
  · rintro ⟨p, q, rfl, hp, hq, hknown⟩
    refine ⟨.cons hp (.cons hq .nil), ?_⟩
    simpa [isNone_of_testIn hp, isNone_of_testIn hq, ← Bool.not_or] using hknown

/-- A leaf has predicates for two tables when it has one for each of them. -/
theorem leaf_pair_eq_ok {ps : List (Option Predicate)} :
    leaf [a, b] [] attr test = .ok ps ↔
      ∃ p q, ps = [p, q] ∧ leaf [a] [b] attr test = .ok [p] ∧ leaf [b] [a] attr test = .ok [q] := by
  rw [leaf_two_eq_ok]
  refine exists_congr fun p => exists_congr fun q => and_congr_right fun _ => ?_
  rw [leaf_one_eq_ok, leaf_one_eq_ok, Bool.or_comm (knows attr b)]
  exact ⟨fun ⟨hp, hq, hknown⟩ => ⟨⟨hp, hknown⟩, hq, hknown⟩,
    fun ⟨⟨hp, hknown⟩, hq, _⟩ => ⟨hp, hq, hknown⟩⟩

/-- A filter has predicates for two tables when it has one for each of them. -/
theorem predicates_pair_eq_ok {expr : Expr} {ps : List (Option Predicate)} :
    predicates [a, b] [] expr = .ok ps ↔
      ∃ p q, ps = [p, q] ∧ predicates [a] [b] expr = .ok [p] ∧
        predicates [b] [a] expr = .ok [q] := by
  induction expr generalizing ps with
  | join connective lhs rhs ihl ihr =>
    constructor
    · intro h
      obtain ⟨ps, hps, h⟩ := except_bind_eq_ok.mp h
      obtain ⟨qs, hqs, h⟩ := except_bind_eq_ok.mp h
      cases h
      obtain ⟨p, p', rfl, hp, hp'⟩ := ihl.mp hps
      obtain ⟨q, q', rfl, hq, hq'⟩ := ihr.mp hqs
      refine ⟨_, _, rfl, ?_, ?_⟩
      · exact except_bind_eq_ok.mpr ⟨_, hp, except_bind_eq_ok.mpr ⟨_, hq, rfl⟩⟩
      · exact except_bind_eq_ok.mpr ⟨_, hp', except_bind_eq_ok.mpr ⟨_, hq', rfl⟩⟩
    · rintro ⟨r, r', rfl, hleft, hright⟩
      have hone : ∀ {a b : AttributeTable} {r}, predicates [a] [b] (.join connective lhs rhs) =
          .ok [r] → ∃ p q, predicates [a] [b] lhs = .ok [p] ∧ predicates [a] [b] rhs = .ok [q] ∧
            combine connective p q = r := by
        intro a b r h
        obtain ⟨ps, hps, h⟩ := except_bind_eq_ok.mp h
        obtain ⟨qs, hqs, h⟩ := except_bind_eq_ok.mp h
        obtain ⟨p, rfl⟩ := List.length_eq_one_iff.mp (predicates_express hps).length_eq.symm
        obtain ⟨q, rfl⟩ := List.length_eq_one_iff.mp (predicates_express hqs).length_eq.symm
        cases h
        exact ⟨p, q, hps, hqs, rfl⟩
      obtain ⟨p, q, hp, hq, rfl⟩ := hone hleft
      obtain ⟨p', q', hp', hq', rfl⟩ := hone hright
      exact except_bind_eq_ok.mpr ⟨_, ihl.mpr ⟨p, p', rfl, hp, hp'⟩,
        except_bind_eq_ok.mpr ⟨_, ihr.mpr ⟨q, q', rfl, hq, hq'⟩, rfl⟩⟩
  | compare attr comparison value =>
    cases comparison with
    | eq => exact leaf_pair_eq_ok
    | ne | gt | ge | lt | le => simp [predicates]
  | search attr occurrence value => exact leaf_pair_eq_ok
  | present attr => exact leaf_pair_eq_ok
  | group negated inner => cases negated <;> simp [predicates]
  | path | valuePath => simp [predicates]

/-- Compiled for users and groups, a filter has the predicate for users that it has when it is
compiled for users, and the predicate for groups that it has when it is compiled for groups. -/
theorem compile_all_eq_ok {expr : Expr} {compiled : Compiled} :
    compile expr true true = .ok compiled ↔
      ∃ users groups, compile expr true false = .ok users ∧ compile expr false true = .ok groups ∧
        compiled = ⟨users.users, groups.groups⟩ := by
  constructor
  · intro h
    obtain ⟨ps, hps, h⟩ := except_bind_eq_ok.mp h
    cases h
    obtain ⟨p, q, rfl, hp, hq⟩ := predicates_pair_eq_ok.mp hps
    exact ⟨⟨p, none⟩, ⟨none, q⟩, except_bind_eq_ok.mpr ⟨_, hp, rfl⟩,
      except_bind_eq_ok.mpr ⟨_, hq, rfl⟩, rfl⟩
  · rintro ⟨users, groups, husers, hgroups, rfl⟩
    obtain ⟨ps, hps, h⟩ := except_bind_eq_ok.mp husers
    obtain ⟨qs, hqs, h'⟩ := except_bind_eq_ok.mp hgroups
    cases h
    cases h'
    obtain ⟨p, rfl⟩ := List.length_eq_one_iff.mp (predicates_express hps).length_eq.symm
    obtain ⟨q, rfl⟩ := List.length_eq_one_iff.mp (predicates_express hqs).length_eq.symm
    exact except_bind_eq_ok.mpr ⟨_, predicates_pair_eq_ok.mpr ⟨p, q, rfl, hps, hqs⟩, rfl⟩

end ScimDirectory.Filter
