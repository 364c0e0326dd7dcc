import ScimDirectory.Proofs.Traversal
import ScimDirectory.Resource.Group
import ScimDirectory.Resource.User

/-!
# Valid resources

What a resource that passes its checks has: a name that is not blank, items with values, and at
most one preferred item in each collection.
-/

namespace ScimDirectory

/-- A check for two preferred items passes when at most one is. -/
theorem checkSinglePrimary_eq_ok {attr : String} {primary : List Bool} :
    checkSinglePrimary attr primary = .ok () ↔ primary.count true ≤ 1 := by
  unfold checkSinglePrimary
  split <;> simp <;> omega

/-- Items pass when each of them has a value. -/
theorem MultiValue.hasValue_of_checkValues {attr : String} {items : List MultiValue}
    (h : checkValues attr items = .ok ()) : ∀ item ∈ items, item.hasValue = true := by
  unfold checkValues at h
  split at h
  · next hall => exact List.all_eq_true.mp hall
  · cases h

/-- A user passes when the name is not blank and every collection passes. -/
theorem User.validate_eq_ok {user : User} (h : user.validate = .ok ()) :
    Text.allBlank user.userName = false ∧ (∀ c, user.checkCollection c = .ok ()) ∧
      (user.addresses.map Address.isPrimary).count true ≤ 1 := by
  unfold User.validate at h
  split at h
  · cases h
  · next hname =>
    obtain ⟨_, hcollections, haddresses⟩ := except_bind_eq_ok.mp h
    refine ⟨eq_false_of_ne_true hname, fun c => ?_, checkSinglePrimary_eq_ok.mp haddresses⟩
    exact ok_of_forM hcollections c (by cases c <;> decide)

/-- A collection passes when its items have values and at most one is the preferred one. -/
theorem User.checkCollection_eq_ok {user : User} {c : Collection}
    (h : user.checkCollection c = .ok ()) :
    MultiValue.checkValues c.attributeName (user.values c) = .ok () ∧
      ((user.values c).map MultiValue.isPrimary).count true ≤ 1 := by
  obtain ⟨_, hvalues, hprimary⟩ := except_bind_eq_ok.mp h
  exact ⟨hvalues, checkSinglePrimary_eq_ok.mp hprimary⟩

/-- A user whose items have values is not refused for a missing one. -/
theorem User.validate_ne_missingSub {user : User}
    (h : ∀ c, ∀ item ∈ user.values c, item.hasValue = true) (attr sub : String) :
    user.validate ≠ .error (.missingRequiredSub attr sub) := by
  have hprimary : ∀ {name : String} {marks : List Bool},
      checkSinglePrimary name marks ≠ .error (.missingRequiredSub attr sub) := by
    intro name marks hcheck
    unfold checkSinglePrimary at hcheck
    split at hcheck <;> cases hcheck
  intro hinvalid
  unfold validate at hinvalid
  split at hinvalid
  · cases hinvalid
  · rcases except_bind_eq_error.mp hinvalid with hcollections | ⟨_, -, haddresses⟩
    · obtain ⟨c, -, hcollection⟩ := error_of_forM hcollections
      have hvalues : MultiValue.checkValues c.attributeName (user.values c) = .ok () :=
        if_pos (List.all_eq_true.mpr (h c))
      unfold checkCollection at hcollection
      rw [hvalues] at hcollection
      exact hprimary hcollection
    · exact hprimary haddresses

/-- A group passes when the name is not blank and every member passes. -/
theorem Group.validate_eq_ok {group : Group} (h : group.validate = .ok ()) :
    Text.allBlank group.displayName = false ∧
      ∀ member ∈ group.members, member.validate = .ok () := by
  unfold Group.validate at h
  split at h
  · cases h
  · next hname => exact ⟨eq_false_of_ne_true hname, ok_of_forM h⟩

end ScimDirectory
