import ScimDirectory.Predicate.Evaluate
import ScimDirectory.Proofs.Traversal

/-!
# Selections

A selection keeps some of the elements that it is given, in their order: those that pass, when all
of them can be tested. Whether all can be tested does not depend on their order.
-/

namespace ScimDirectory

/-- A selection among elements that can all be tested keeps those that pass. -/
theorem selectBy_eq_filter {α : Type} {p : Predicate} {view : α → RowView} {test : α → Bool}
    {xs : List α} (h : ∀ x ∈ xs, p.evaluate (view x) = .ok (test x)) :
    selectBy p view xs = .ok (xs.filter test) := by
  induction xs with
  | nil => rfl
  | cons x xs ih =>
    rw [selectBy, h x List.mem_cons_self, List.filter_cons]
    simp only [ih fun y hy => h y (List.mem_cons_of_mem x hy)]
    rfl

/-- What is selected is some of what was given, in its order. -/
theorem selectBy_sublist {α : Type} {p : Predicate} {view : α → RowView} {xs kept : List α}
    (h : selectBy p view xs = .ok kept) : kept.Sublist xs := by
  induction xs generalizing kept with
  | nil =>
    cases h
    exact .slnil
  | cons x xs ih =>
    rw [selectBy] at h
    split at h
    · cases h
    · next keep _ =>
      obtain ⟨rest, hrest, rfl⟩ := except_map_eq_ok.mp h
      cases keep with
      | true => exact (ih hrest).cons_cons x
      | false => exact (ih hrest).cons x

/-- A selection that succeeds has tested every element. -/
theorem evaluate_of_selectBy {α : Type} {p : Predicate} {view : α → RowView} {xs kept : List α}
    (h : selectBy p view xs = .ok kept) : ∀ x ∈ xs, ∃ b, p.evaluate (view x) = .ok b := by
  induction xs generalizing kept with
  | nil => exact fun _ hmem => nomatch hmem
  | cons x xs ih =>
    rw [selectBy] at h
    split at h
    · cases h
    · next keep heval =>
      obtain ⟨rest, hrest, -⟩ := except_map_eq_ok.mp h
      exact List.forall_mem_cons.mpr ⟨⟨keep, heval⟩, ih hrest⟩

/-- A selection among the same elements in another order succeeds too, and keeps the same ones. -/
theorem selectBy_perm {α : Type} {p : Predicate} {view : α → RowView} {xs ys kept : List α}
    (hperm : xs.Perm ys) (h : selectBy p view xs = .ok kept) :
    ∃ kept', selectBy p view ys = .ok kept' ∧ kept.Perm kept' := by
  let test (x : α) : Bool := (p.evaluate (view x)).toOption.getD false
  have htest : ∀ x ∈ xs, p.evaluate (view x) = .ok (test x) := by
    intro x hmem
    obtain ⟨b, hb⟩ := evaluate_of_selectBy h x hmem
    simp only [test, hb]
    rfl
  rw [selectBy_eq_filter htest] at h
  cases h
  exact ⟨ys.filter test, selectBy_eq_filter fun y hmem => htest y (hperm.mem_iff.mpr hmem),
    hperm.filter test⟩

theorem selectWhere_sublist {α : Type} {predicate : Option Predicate} {view : α → RowView}
    {xs kept : List α} (h : selectWhere predicate view xs = .ok kept) : kept.Sublist xs := by
  cases predicate with
  | none =>
    cases h
    exact .refl xs
  | some p => exact selectBy_sublist h

theorem selectWhere_perm {α : Type} {predicate : Option Predicate} {view : α → RowView}
    {xs ys kept : List α} (hperm : xs.Perm ys) (h : selectWhere predicate view xs = .ok kept) :
    ∃ kept', selectWhere predicate view ys = .ok kept' ∧ kept.Perm kept' := by
  cases predicate with
  | none =>
    cases h
    exact ⟨ys, rfl, hperm⟩
  | some p => exact selectBy_perm hperm h

end ScimDirectory
