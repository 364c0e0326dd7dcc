import ScimDirectory.Proofs.Filter.Values

/-!
# What is accepted

Whatever is read as an expression is an expression of the grammar, with no more scopes open at once
than may be, and was read from a text with at least the ink of a least writing of it. The bound on
ink is met only if every name stood there as it is, and then the names keep the rule for names:
what is read as a name is checked before a schema prefix is taken from it.
-/

namespace ScimDirectory

open ScimDirectory.Filter

/-- The least ink of a writing. -/
def Expr.ink : Expr → Nat
  | compare attr comparison value =>
    Filter.ink attr.toList + Filter.ink comparison.operator.toList + value.ink
  | search attr occurrence value =>
    Filter.ink attr.toList + Filter.ink occurrence.operator.toList + value.ink
  | present attr => Filter.ink attr.toList + Filter.ink "pr".toList
  | join connective lhs rhs => lhs.ink + Filter.ink connective.keyword.toList + rhs.ink
  | group negated inner => (if negated then Filter.ink "not".toList else 0) + 2 + inner.ink
  | path attr sub => Filter.ink attr.toList + Filter.ink (subText sub).toList
  | valuePath attr filter sub =>
    Filter.ink attr.toList + 2 + filter.ink + Filter.ink (subText sub).toList

namespace Filter

variable {depth n m : Nat} {inValueFilter negated : Bool} {attr : String} {expr lhs rhs : Expr}
  {s rest : List Char}

/-- What the reading of a filter shows of it, given the ink of the text that it was read from. -/
structure Accepted (depth : Nat) (inValueFilter : Bool) (expr : Expr) (n : Nat) : Prop where
  /-- The grammar has it. -/
  shaped : expr.FilterShaped inValueFilter
  /-- It opens no more scopes than may be open at once. -/
  depth_le : expr.depth ≤ depth
  /-- The text had the ink of a least writing. -/
  ink_le : expr.ink ≤ n
  /-- If it had no more, then the names keep the rule. -/
  named : n ≤ expr.ink → expr.FilterNamed

/-- What the reading of a name in an operand shows of it. -/
structure Taken (attr : String) (n : Nat) : Prop where
  /-- The text had the ink of the name. -/
  ink_le : ink attr.toList ≤ n
  /-- If it had no more, then the name keeps the rule. -/
  named : n ≤ ink attr.toList → IsOperandName attr.toList

/-- More ink shows no less. -/
theorem Accepted.mono (h : Accepted depth inValueFilter expr n) (hle : n ≤ m) :
    Accepted depth inValueFilter expr m where
  shaped := h.shaped
  depth_le := h.depth_le
  ink_le := Nat.le_trans h.ink_le hle
  named hm := h.named (Nat.le_trans hle hm)

theorem Taken.apply {operator : Operator} {value : Literal} (h : Taken attr n)
    (hle : n + (ink operator.word.toList + value.ink) ≤ m) :
    Accepted depth inValueFilter (operator.apply attr value) m := by
  have hname := h.ink_le
  have hink : (operator.apply attr value).ink =
      ink attr.toList + ink operator.word.toList + value.ink := by
    cases operator <;> rfl
  have hnamed : (operator.apply attr value).FilterNamed ↔ IsOperandName attr.toList := by
    cases operator <;> rfl
  refine ⟨?_, ?_, by omega, fun hm => hnamed.mpr (h.named (by omega))⟩
  · cases operator <;> trivial
  · cases operator <;> exact Nat.zero_le depth

theorem Taken.present (h : Taken attr n) (hle : n + ink "pr".toList ≤ m) :
    Accepted depth inValueFilter (.present attr) m := by
  have hname := h.ink_le
  refine ⟨trivial, Nat.zero_le depth, ?_, fun hm => h.named ?_⟩
  · rw [Expr.ink]
    omega
  · rw [Expr.ink] at hm
    omega

theorem Taken.valuePath {k : Nat} (h : Taken attr n) (hfilter : Accepted depth true expr k)
    (hle : n + (2 + k) ≤ m) :
    Accepted (depth + 1) false (.valuePath attr expr none) m := by
  have hname := h.ink_le
  have hinner := hfilter.ink_le
  have hsub : ink (Expr.subText none).toList = 0 := rfl
  refine ⟨⟨rfl, rfl, hfilter.shaped⟩, Nat.succ_le_succ hfilter.depth_le, ?_, fun hm => ?_⟩
  · rw [Expr.ink]
    omega
  · rw [Expr.ink] at hm
    exact ⟨h.named (by omega), hfilter.named (by omega)⟩

theorem Accepted.group (h : Accepted depth inValueFilter expr n)
    (hle : (if negated then ink "not".toList else 0) + (2 + n) ≤ m) :
    Accepted (depth + 1) inValueFilter (.group negated expr) m := by
  have hinner := h.ink_le
  refine ⟨h.shaped, Nat.succ_le_succ h.depth_le, ?_, fun hm => h.named ?_⟩
  · rw [Expr.ink]
    omega
  · rw [Expr.ink] at hm
    omega

theorem Accepted.join {connective : Connective} {k : Nat}
    (hlhs : Accepted depth inValueFilter lhs n) (hrhs : Accepted depth inValueFilter rhs m)
    (hleft : connective.AdmitsLeft lhs) (hright : connective.AdmitsRight rhs)
    (hle : n + (ink connective.keyword.toList + m) ≤ k) :
    Accepted depth inValueFilter (.join connective lhs rhs) k := by
  have hl := hlhs.ink_le
  have hr := hrhs.ink_le
  refine ⟨⟨hleft, hright, hlhs.shaped, hrhs.shaped⟩, Nat.max_le.mpr ⟨hlhs.depth_le, hrhs.depth_le⟩,
    ?_, fun hm => ?_⟩
  · rw [Expr.ink]
    omega
  · rw [Expr.ink] at hm
    exact ⟨hlhs.named (by omega), hrhs.named (by omega)⟩

/-- A reader gives only expressions of which something is known by the ink that they took. -/
def Shows (P : Expr → Nat → Prop) (reader : Reader Expr) : Prop :=
  ∀ ⦃s expr rest⦄, reader s = .ok (expr, rest) → ∃ t, s = t ++ rest ∧ P expr (ink t)

section Chains

variable {connective : Connective} {operand : Reader Expr}

theorem admitsLeft_join (connective : Connective) (lhs rhs : Expr) :
    connective.AdmitsLeft (.join connective lhs rhs) := by
  cases connective with
  | and => exact fun h => nomatch h
  | or => trivial

theorem admitsLeft_of_admitsRight (h : connective.AdmitsRight expr) :
    connective.AdmitsLeft expr := by
  cases connective with
  | and =>
    intro hor
    have hnone : expr.connective? = none := h
    rw [hnone] at hor
    cases hor
  | or => trivial

/-- Further operands keep what is known of what came before them. The induction is on their
number, and what is known of the left side carries it. -/
theorem joined_shows
    (hoperand : Shows (fun expr n => Accepted depth inValueFilter expr n ∧
      connective.AdmitsRight expr) operand)
    {count : Nat} (hlhs : Accepted depth inValueFilter lhs n) (hleft : connective.AdmitsLeft lhs)
    (h : joined connective operand count lhs s = .ok (expr, rest)) :
    ∃ t, s = t ++ rest ∧ Accepted depth inValueFilter expr (n + ink t) ∧
      connective.AdmitsLeft expr := by
  induction count generalizing lhs s n with
  | zero =>
    cases h
    exact ⟨[], rfl, hlhs, hleft⟩
  | succ count ih =>
    unfold joined at h
    split at h
    · cases h
      exact ⟨[], rfl, hlhs, hleft⟩
    · next after hkeyword =>
      split at h
      · cases h
      · next rhs more hrhs =>
        obtain ⟨t, rfl, hword⟩ := ink_le_of_keyword?_eq_some hkeyword
        obtain ⟨t', rfl, haccepted, hright⟩ := hoperand hrhs
        have hjoined : Accepted depth inValueFilter (.join connective lhs rhs)
            (n + (ink t + ink t')) :=
          hlhs.join haccepted hleft hright (by omega)
        obtain ⟨t'', rfl, hresult, hchain⟩ := ih hjoined (admitsLeft_join _ _ _) h
        refine ⟨t ++ (t' ++ t''), ?_, hresult.mono ?_, hchain⟩
        · rw [List.append_assoc, List.append_assoc]
        · rw [ink_append, ink_append]
          omega

/-- A chain joins what its operands show. -/
theorem chain_shows
    (hoperand : Shows (fun expr n => Accepted depth inValueFilter expr n ∧
      connective.AdmitsRight expr) operand) :
    Shows (fun expr n => Accepted depth inValueFilter expr n ∧ connective.AdmitsLeft expr)
      (chain connective operand) := by
  intro s expr rest h
  unfold chain at h
  split at h
  · cases h
  · next lhs more hlhs =>
    obtain ⟨t, rfl, haccepted, hright⟩ := hoperand hlhs
    obtain ⟨t', rfl, hresult, hchain⟩ :=
      joined_shows hoperand haccepted (admitsLeft_of_admitsRight hright) h
    refine ⟨t ++ t', (List.append_assoc _ _ _).symm, ?_, hchain⟩
    rw [ink_append]
    exact hresult

/-- A disjunction joins conjunctions, which join operands. -/
theorem disjunction_shows
    (hoperand : Shows (fun expr n => Accepted depth inValueFilter expr n ∧
      expr.connective? = none) operand) :
    Shows (Accepted depth inValueFilter) (disjunction operand) := by
  intro s expr rest h
  have hconjunction : Shows (fun expr n => Accepted depth inValueFilter expr n ∧
      Connective.or.AdmitsRight expr) (chain .and operand) :=
    chain_shows hoperand
  obtain ⟨t, ht, haccepted, _⟩ := chain_shows hconjunction h
  exact ⟨t, ht, haccepted⟩

end Chains

section Operands

variable {scope : Scope}

/-- A scope lets in only filters with fewer open scopes. -/
def Narrows (depth : Nat) (scope : Scope) : Prop :=
  ∀ inValueFilter, Shows (fun expr n => ∃ inner, depth = inner + 1 ∧
    Accepted inner inValueFilter expr n) (scope.enter inValueFilter)

/-- A closing sign after blanks has ink. -/
theorem exists_of_skipBlanks_eq_cons {c : Char} (h : Text.skipBlanks s = c :: rest) :
    ∃ t, s = t ++ rest ∧ ink t = ink [c] := by
  obtain ⟨b, hb, hs⟩ := exists_blanks s
  refine ⟨b ++ [c], ?_, ?_⟩
  · rw [List.append_assoc, List.singleton_append, ← h]
    exact hs
  · rw [ink_append, hb.ink_eq_zero, Nat.zero_add]

theorem group_shows (hscope : Narrows depth scope)
    (h : group scope inValueFilter negated s = .ok (expr, rest)) :
    ∃ inner t k, expr = .group negated inner ∧ s = t ++ rest ∧ 1 + k ≤ ink t ∧
      ∃ d, depth = d + 1 ∧ Accepted d inValueFilter inner k := by
  unfold group at h
  split at h
  · cases h
  · next inner more hinner =>
    obtain ⟨t, rfl, d, hd, haccepted⟩ := hscope _ hinner
    split at h
    · next after hclose =>
      cases h
      obtain ⟨t', rfl, hink⟩ := exists_of_skipBlanks_eq_cons hclose
      refine ⟨inner, t ++ t', ink t, rfl, (List.append_assoc _ _ _).symm, ?_, d, hd, haccepted⟩
      have hsign : ink [')'] = 1 := by decide
      rw [ink_append]
      omega
    · cases h

theorem valueFilter_shows (hscope : Narrows depth scope)
    (h : valueFilter scope inValueFilter ('[' :: s) = .ok (expr, rest)) :
    inValueFilter = false ∧ ∃ t k, '[' :: s = t ++ rest ∧ 2 + k ≤ ink t ∧
      ∃ d, depth = d + 1 ∧ Accepted d true expr k := by
  unfold valueFilter at h
  split at h
  · cases h
  · next hinside =>
    refine ⟨Bool.eq_false_iff.mpr hinside, ?_⟩
    split at h
    · cases h
    · next inner more hinner =>
      obtain ⟨t, ht, d, hd, haccepted⟩ := hscope _ hinner
      split at h
      · next after hclose =>
        cases h
        obtain ⟨t', rfl, hink⟩ := exists_of_skipBlanks_eq_cons hclose
        have hs : s = t ++ (t' ++ rest) := ht
        refine ⟨'[' :: (t ++ t'), ink t, ?_, ?_, d, hd, haccepted⟩
        · rw [hs, List.cons_append, List.append_assoc]
        · have hopen : ink ('[' :: (t ++ t')) = 1 + ink (t ++ t') := ink_append ['['] _
          have hsign : ink [']'] = 1 := by decide
          rw [hopen, ink_append]
          omega
      · cases h

/-- The reading of a name shows that it keeps the rule if it took no more ink. -/
theorem name_shows (h : name s = .ok (attr, rest)) :
    ∃ t, s = t ++ rest ∧ ink attr.toList ≤ ink t ∧
      (ink t ≤ ink attr.toList → IsName attr.toList) := by
  obtain ⟨b, p, hb, rfl, hp, hname, _⟩ := name_eq_ok h
  have hprefix := ink_eq_length hp
  refine ⟨b ++ (p ++ attr.toList), ?_, ?_, ?_⟩
  · rw [List.append_assoc, List.append_assoc]
  all_goals rw [ink_append, ink_append, hb.ink_eq_zero]
  · omega
  · intro htight
    exact hname (List.eq_nil_of_length_eq_zero (by omega))

/-- A name that is read where no keyword of a negation is opens none. -/
theorem taken_of_name_eq_ok (h : name s = .ok (attr, rest)) (hnot : keyword? "not" s = none) :
    ∃ t, s = t ++ rest ∧ Taken attr (ink t) := by
  obtain ⟨b, p, hb, rfl, hp, hname, hrest⟩ := name_eq_ok h
  have hprefix := ink_eq_length hp
  refine ⟨b ++ (p ++ attr.toList), ?_, ?_, ?_⟩
  · rw [List.append_assoc, List.append_assoc]
  all_goals rw [ink_append, ink_append, hb.ink_eq_zero]
  · omega
  · intro htight
    have hnil : p = [] := List.eq_nil_of_length_eq_zero (by omega)
    subst hnil
    rw [List.nil_append, keyword?_blanks hb] at hnot
    exact ⟨hname rfl, (keyword?_not_eq_none_iff (hname rfl) hrest).mp hnot⟩

theorem afterName_shows (hscope : Narrows depth scope) (hname : Taken attr n)
    (h : afterName scope inValueFilter attr s = .ok (expr, rest)) :
    ∃ t, s = t ++ rest ∧ Accepted depth inValueFilter expr (n + ink t) ∧
      expr.connective? = none := by
  unfold afterName at h
  split at h
  · split at h
    · cases h
    · cases h
    · next filter _ _ hfilter =>
      cases h
      obtain ⟨rfl, t, k, ht, hink, d, rfl, haccepted⟩ := valueFilter_shows hscope hfilter
      exact ⟨t, ht, hname.valuePath haccepted (by omega), rfl⟩
  · split at h
    · next hpresent =>
      cases h
      obtain ⟨t, ht, hink⟩ := ink_le_of_keyword?_eq_some hpresent
      exact ⟨t, ht, hname.present (by omega), rfl⟩
    · obtain ⟨operator, value, t, rfl, ht, hink⟩ := condition_eq_ok h
      refine ⟨t, ht, hname.apply (by omega), ?_⟩
      cases operator <;> rfl

/-- An operand is no chain. -/
theorem operand_shows (hscope : Narrows depth scope) :
    Shows (fun expr n => Accepted depth inValueFilter expr n ∧ expr.connective? = none)
      (operand scope inValueFilter) := by
  intro s expr rest h
  obtain ⟨b, hb, hs⟩ := exists_blanks s
  unfold operand at h
  simp only at h
  generalize Text.skipBlanks s = u at h hs
  suffices ∃ t, u = t ++ rest ∧ Accepted depth inValueFilter expr (ink t) ∧
      expr.connective? = none by
    obtain ⟨t, ht, haccepted, hoperand⟩ := this
    refine ⟨b ++ t, ?_, haccepted.mono ?_, hoperand⟩
    · rw [List.append_assoc, ← ht]
      exact hs
    · rw [ink_append]
      omega
  split at h
  · next after hnot =>
    split at h
    · next inner hopen =>
      obtain ⟨t, rfl, hword⟩ := ink_le_of_keyword?_eq_some hnot
      obtain ⟨t', rfl, hsign⟩ := exists_of_skipBlanks_eq_cons hopen
      obtain ⟨inner, t'', k, rfl, rfl, hink, d, rfl, haccepted⟩ := group_shows hscope h
      refine ⟨t ++ (t' ++ t''), ?_, haccepted.group ?_, rfl⟩
      · rw [List.append_assoc, List.append_assoc]
      · have hparenthesis : ink ['('] = 1 := by decide
        rw [if_pos rfl, ink_append, ink_append]
        omega
    · cases h
  · next hnot =>
    split at h
    · next inner =>
      obtain ⟨inner, t, k, rfl, rfl, hink, d, rfl, haccepted⟩ := group_shows hscope h
      refine ⟨'(' :: t, rfl, haccepted.group ?_, rfl⟩
      have hparenthesis : ink ('(' :: t) = 1 + ink t := ink_append ['('] t
      rw [if_neg Bool.false_ne_true]
      omega
    · split at h
      · cases h
      · next attr after hname =>
        obtain ⟨t, rfl, htaken⟩ := taken_of_name_eq_ok hname hnot
        obtain ⟨t', rfl, haccepted, hoperand⟩ := afterName_shows hscope htaken h
        refine ⟨t ++ t', (List.append_assoc _ _ _).symm, ?_, hoperand⟩
        rw [ink_append]
        exact haccepted

end Operands

/-- What is read as a filter shows what is known of it. The induction is on the number of scopes
that may be open. -/
theorem filter_shows (depth : Nat) (inValueFilter : Bool) :
    Shows (Accepted depth inValueFilter) (filter depth inValueFilter) := by
  induction depth generalizing inValueFilter with
  | zero =>
    have hclosed : Narrows 0 none := fun _ _ _ _ h => nomatch h
    exact disjunction_shows (operand_shows hclosed)
  | succ depth ih =>
    have hopen : Narrows (depth + 1) (some (filter depth)) := by
      intro inside s expr rest h
      obtain ⟨t, ht, haccepted⟩ := ih inside h
      exact ⟨t, ht, depth, rfl, haccepted⟩
    exact disjunction_shows (operand_shows hopen)

theorem narrows_scopeOf (depth : Nat) : Narrows depth (scopeOf depth) := by
  intro inside s expr rest h
  cases depth with
  | zero => cases h
  | succ depth =>
    obtain ⟨t, ht, haccepted⟩ := filter_shows depth inside h
    exact ⟨t, ht, depth, rfl, haccepted⟩

/-- What the reading of an expression shows of it, given the ink of the text that it was read
from. -/
structure Shown (mode : Mode) (depth : Nat) (expr : Expr) (n : Nat) : Prop where
  /-- The grammar has it. -/
  shaped : expr.Shaped mode
  /-- It opens no more scopes than may be open at once. -/
  depth_le : expr.depth ≤ depth
  /-- The text had the ink of a least writing. -/
  ink_le : expr.ink ≤ n
  /-- If it had no more, then the names keep the rule. -/
  named : n ≤ expr.ink → expr.Named mode

/-- A value filter of a path takes the ink of its parts. -/
theorem Accepted.shown_valuePath {sub : Option String} {k j : Nat}
    (hfilter : Accepted depth true expr k) (hname : ink attr.toList ≤ n)
    (hkept : n ≤ ink attr.toList → IsName attr.toList) (hsub : ink (Expr.subText sub).toList ≤ j)
    (hsubKept : j ≤ ink (Expr.subText sub).toList → ∀ name ∈ sub, IsName name.toList)
    (hle : n + (2 + k + j) ≤ m) :
    Shown .path (depth + 1) (.valuePath attr expr sub) m := by
  have hinner := hfilter.ink_le
  refine ⟨hfilter.shaped, Nat.succ_le_succ hfilter.depth_le, ?_, fun hm => ?_⟩
  · rw [Expr.ink]
    omega
  · rw [Expr.ink] at hm
    exact ⟨hkept (by omega), hfilter.named (by omega), hsubKept (by omega)⟩

theorem ink_subText_some (sub : String) :
    ink (Expr.subText (some sub)).toList = 1 + ink sub.toList := by
  rw [Expr.subText, String.toList_append, ink_append]
  rfl

theorem path_shows (depth : Nat) : Shows (Shown .path depth) (path depth) := by
  intro s expr rest h
  unfold path at h
  split at h
  · cases h
  · next attr after hread =>
    obtain ⟨t, rfl, hname, hkept⟩ := name_shows hread
    split at h
    · split at h
      · cases h
      · next filter more hfilter =>
        obtain ⟨_, t', k, ht', hink, d, rfl, haccepted⟩ :=
          valueFilter_shows (narrows_scopeOf depth) hfilter
        obtain ⟨⟨sub, last⟩, hsub, hresult⟩ := except_map_eq_ok.mp h
        cases hresult
        obtain ⟨t'', rfl, hsubName, hsubKept⟩ := name_shows hsub
        have hdot : ink ('.' :: t'') = 1 + ink t'' := ink_append ['.'] t''
        refine ⟨t ++ (t' ++ '.' :: t''), ?_, ?_⟩
        · rw [ht', List.append_assoc, List.append_assoc]
          rfl
        · apply haccepted.shown_valuePath hname hkept (j := 1 + ink t'')
          · rw [ink_subText_some]
            omega
          · rw [ink_subText_some]
            rintro htight name ⟨⟩
            exact hsubKept (by omega)
          · rw [ink_append, ink_append, hdot]
            omega
      · next filter more _ hfilter =>
        cases h
        obtain ⟨_, t', k, ht', hink, d, rfl, haccepted⟩ :=
          valueFilter_shows (narrows_scopeOf depth) hfilter
        refine ⟨t ++ t', by rw [ht', List.append_assoc], ?_⟩
        apply haccepted.shown_valuePath hname hkept (Nat.le_refl _)
        · exact fun _ _ hsub => nomatch hsub
        · have hnone : ink (Expr.subText none).toList = 0 := rfl
          rw [ink_append]
          omega
    · cases h
      have hink : (Expr.path attr none).ink = ink attr.toList := rfl
      refine ⟨t, rfl, rfl, Nat.zero_le _, ?_, ?_⟩
      · rw [hink]
        exact hname
      · rw [hink]
        exact hkept

theorem expression_shows (limits : Limits) (mode : Mode) :
    Shows (Shown mode limits.maxDepth) (expression limits mode) := by
  intro s expr rest h
  cases mode with
  | filter =>
    obtain ⟨t, ht, haccepted⟩ := filter_shows limits.maxDepth false h
    exact ⟨t, ht, haccepted.shaped, haccepted.depth_le, haccepted.ink_le, haccepted.named⟩
  | path => exact path_shows limits.maxDepth h

/-- A text that is read as an expression shows what is known of it. -/
theorem shown_of_parseWithin {limits : Limits} {mode : Mode} {text : String}
    (h : parseWithin limits mode text = .ok expr) :
    Shown mode limits.maxDepth expr (ink text.toList) := by
  unfold parseWithin at h
  simp only at h
  split at h
  · cases h
  · split at h
    · cases h
    · rw [except_mapError_eq_ok] at h
      unfold whole at h
      split at h
      · cases h
      · next last rest hread =>
        obtain ⟨t, ht, hshown⟩ := expression_shows limits mode hread
        split at h
        · cases h
          have hle : ink t ≤ ink text.toList := by
            rw [ht, ink_append]
            exact Nat.le_add_right _ _
          exact ⟨hshown.shaped, hshown.depth_le, Nat.le_trans hshown.ink_le hle,
            fun htight => hshown.named (Nat.le_trans hle htight)⟩
        · cases h

end Filter
end ScimDirectory
