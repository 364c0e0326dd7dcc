import ScimDirectory.Proofs.Filter.Completeness

/-!
# Where reading stops

A reading that fails stops at a place of the text that it was given. It stops for one scope too many
only in a text with more characters than scopes could be open, because every scope takes a character
to open. So a text is never nested too deeply for a bound that is not less than its length.
-/

namespace ScimDirectory.Filter

variable {depth : Nat} {inValueFilter negated : Bool} {attr : String} {stop : Stop}
  {s t : List Char}

/-- What a stop tells of the characters that were read where so many scopes could be open. -/
def Stop.Within (depth : Nat) (s : List Char) : Stop → Prop
  | .fault _ place | .nestedValueFilter place => place <:+ s
  | .tooDeep => depth < s.length

/-- A reader stops within what it is given. -/
def StopsWithin {α : Type} (depth : Nat) (reader : Reader α) : Prop :=
  ∀ ⦃s stop⦄, reader s = .error stop → stop.Within depth s

/-- A stop within the end of a text is one within the text. -/
theorem Stop.Within.of_suffix (h : stop.Within depth t) (hsuffix : t <:+ s) :
    stop.Within depth s := by
  cases stop with
  | fault fault place => exact List.IsSuffix.trans h hsuffix
  | tooDeep => exact Nat.lt_of_lt_of_le h hsuffix.length_le
  | nestedValueFilter place => exact List.IsSuffix.trans h hsuffix

/-- A scope more may be open where it has taken a character. -/
theorem Stop.Within.cons {c : Char} (h : stop.Within depth s) (hsuffix : c :: s <:+ t) :
    stop.Within (depth + 1) t := by
  have hrest : s <:+ t := (List.suffix_cons c s).trans hsuffix
  cases stop with
  | fault fault place => exact List.IsSuffix.trans h hrest
  | tooDeep => exact Nat.lt_of_lt_of_le (Nat.succ_lt_succ h) hsuffix.length_le
  | nestedValueFilter place => exact List.IsSuffix.trans h hrest

theorem skipBlanks_suffix (s : List Char) : Text.skipBlanks s <:+ s :=
  List.dropWhile_suffix _

theorem keyword?_suffix {word : String} {rest : List Char} (h : keyword? word s = some rest) :
    rest <:+ s := by
  obtain ⟨t, rfl, -⟩ := ink_le_of_keyword?_eq_some h
  exact List.suffix_append t rest

theorem Shows.suffix {P : Expr → Nat → Prop} {reader : Reader Expr} (h : Shows P reader)
    {expr : Expr} {rest : List Char} (hread : reader s = .ok (expr, rest)) : rest <:+ s := by
  obtain ⟨t, rfl, -⟩ := h hread
  exact List.suffix_append t rest

section Words

variable (depth)

theorem name_stops : StopsWithin depth name := by
  intro s stop h
  unfold name at h
  simp only at h
  split at h
  · split at h
    · cases h
      exact skipBlanks_suffix s
    · cases h
  · cases h
    exact skipBlanks_suffix s

theorem stringBody_stops : StopsWithin depth stringBody := by
  have hmap : ∀ {f : List Char × List Char → List Char × List Char} {x} {stop : Stop},
      Except.map f x = .error stop → x = .error stop := by
    rintro f (_ | _) stop h <;> cases h
    rfl
  intro s stop h
  fun_induction stringBody s with
  | case1 =>
    cases h
    exact List.suffix_refl []
  | case2 rest => cases h
  | case3 =>
    cases h
    exact List.suffix_cons _ _
  | case4 c rest hunescape =>
    cases h
    exact List.suffix_cons _ _
  | case5 c rest d hunescape ih =>
    exact (ih (hmap h)).of_suffix ((List.suffix_cons _ _).trans (List.suffix_cons _ _))
  | case6 c rest hquote hlast hslash ih => exact (ih (hmap h)).of_suffix (List.suffix_cons _ _)

theorem literal_stops : StopsWithin depth literal := by
  intro s stop h
  refine Stop.Within.of_suffix ?_ (skipBlanks_suffix s)
  unfold literal at h
  split at h
  · next body hquote =>
    cases hbody : stringBody body with
    | error stop' =>
      rw [hbody] at h
      cases h
      exact (stringBody_stops depth hbody).of_suffix (hquote ▸ List.suffix_cons _ _)
    | ok read =>
      rw [hbody] at h
      cases h
  · split at h
    · cases h
    · cases h
    · cases h
    · split at h
      · unfold number at h
        simp only at h
        split at h
        · cases h
        · cases h
          exact List.suffix_refl _
      · cases h
        exact List.suffix_refl _

theorem condition_stops (attr : String) : StopsWithin depth (condition attr) := by
  intro s stop h
  refine Stop.Within.of_suffix ?_ (skipBlanks_suffix s)
  unfold condition at h
  simp only at h
  generalize Text.skipBlanks s = t at h ⊢
  split at h
  · cases hvalue : literal (t.dropWhile Text.isAsciiLetter) with
    | error stop' =>
      rw [hvalue] at h
      cases h
      exact (literal_stops depth hvalue).of_suffix (List.dropWhile_suffix _)
    | ok read =>
      rw [hvalue] at h
      cases h
  · split at h <;>
    · cases h
      exact List.suffix_refl t

end Words

section Chains

variable {connective : Connective} {operand : Reader Expr} {lhs : Expr}

/-- Further operands stop within what follows the first. The induction is on their number. -/
theorem joined_stops (hoperand : StopsWithin depth operand)
    (hsuffix : ∀ ⦃s expr rest⦄, operand s = .ok (expr, rest) → rest <:+ s) (count : Nat)
    (h : joined connective operand count lhs s = .error stop) : stop.Within depth s := by
  induction count generalizing lhs s with
  | zero => cases h
  | succ count ih =>
    unfold joined at h
    split at h
    · cases h
    · next after hkeyword =>
      have hafter : after <:+ s := keyword?_suffix hkeyword
      split at h
      · next hrhs =>
        cases h
        exact (hoperand hrhs).of_suffix hafter
      · next rhs rest hrhs => exact (ih h).of_suffix ((hsuffix hrhs).trans hafter)

theorem chain_stops (hoperand : StopsWithin depth operand)
    (hsuffix : ∀ ⦃s expr rest⦄, operand s = .ok (expr, rest) → rest <:+ s) :
    StopsWithin depth (chain connective operand) := by
  intro s stop h
  unfold chain at h
  split at h
  · next hlhs =>
    cases h
    exact hoperand hlhs
  · next lhs rest hlhs => exact (joined_stops hoperand hsuffix _ h).of_suffix (hsuffix hlhs)

end Chains

section Operands

variable {scope : Scope}

/-- The filter of a new scope stops within what follows the character that opens the scope. -/
def OpensWithin (depth : Nat) (scope : Scope) : Prop :=
  ∀ ⦃c s t inValueFilter stop⦄, c :: s <:+ t → scope.enter inValueFilter s = .error stop →
    stop.Within depth t

theorem group_stops (hscope : OpensWithin depth scope) (hnarrows : Narrows depth scope) {c : Char}
    (hopen : c :: s <:+ t) (h : group scope inValueFilter negated s = .error stop) :
    stop.Within depth t := by
  unfold group at h
  split at h
  · next hinner =>
    cases h
    exact hscope hopen hinner
  · next inner rest hinner =>
    split at h
    · cases h
    · cases h
      exact (skipBlanks_suffix rest).trans
        (((hnarrows _).suffix hinner).trans ((List.suffix_cons c s).trans hopen))

theorem valueFilter_stops (hscope : OpensWithin depth scope) (hnarrows : Narrows depth scope)
    (h : valueFilter scope inValueFilter ('[' :: s) = .error stop) :
    stop.Within depth ('[' :: s) := by
  unfold valueFilter at h
  split at h
  · cases h
    exact List.suffix_refl _
  · split at h
    · next hinner =>
      cases h
      exact hscope (List.suffix_refl _) hinner
    · next filter rest hinner =>
      split at h
      · cases h
      · cases h
        exact (skipBlanks_suffix rest).trans
          (((hnarrows _).suffix hinner).trans (List.suffix_cons '[' s))

theorem valueFilter_suffix (hnarrows : Narrows depth scope) {expr : Expr} {rest : List Char}
    (h : valueFilter scope inValueFilter ('[' :: s) = .ok (expr, rest)) : rest <:+ '[' :: s := by
  obtain ⟨-, t, -, ht, -⟩ := valueFilter_shows hnarrows h
  exact ht ▸ List.suffix_append t rest

theorem afterName_stops (hscope : OpensWithin depth scope) (hnarrows : Narrows depth scope) :
    StopsWithin depth (afterName scope inValueFilter attr) := by
  intro s stop h
  unfold afterName at h
  split at h
  · split at h
    · next hfilter =>
      cases h
      exact valueFilter_stops hscope hnarrows hfilter
    · next hfilter =>
      cases h
      exact valueFilter_suffix hnarrows hfilter
    · cases h
  · split at h
    · cases h
    · exact condition_stops depth attr h

theorem operand_stops (hscope : OpensWithin depth scope) (hnarrows : Narrows depth scope) :
    StopsWithin depth (operand scope inValueFilter) := by
  intro s stop h
  unfold operand at h
  simp only at h
  refine Stop.Within.of_suffix ?_ (skipBlanks_suffix s)
  generalize Text.skipBlanks s = u at h ⊢
  split at h
  · next after hnot =>
    have hafter := (skipBlanks_suffix after).trans (keyword?_suffix hnot)
    split at h
    · next inner hopen => exact group_stops hscope hnarrows (hopen ▸ hafter) h
    · cases h
      exact hafter
  · split at h
    · exact group_stops hscope hnarrows (List.suffix_refl _) h
    · split at h
      · next hname =>
        cases h
        exact name_stops depth hname
      · next attr rest hname =>
        obtain ⟨t, rfl, -⟩ := name_shows hname
        exact (afterName_stops hscope hnarrows h).of_suffix (List.suffix_append t rest)

end Operands

section Filters

theorem conjunctionAt_suffix {expr : Expr} {rest : List Char}
    (h : conjunctionAt depth inValueFilter s = .ok (expr, rest)) : rest <:+ s :=
  (chain_shows (operand_shows (narrows_scopeOf depth))).suffix h

theorem filter_stops_of_scope (hscope : OpensWithin depth (scopeOf depth)) :
    StopsWithin depth (filter depth inValueFilter) := by
  have hoperand : StopsWithin depth (operandAt depth inValueFilter) :=
    operand_stops hscope (narrows_scopeOf depth)
  have hconjunction : StopsWithin depth (conjunctionAt depth inValueFilter) :=
    chain_stops hoperand fun _ _ _ h => (operand_shows (narrows_scopeOf depth)).suffix h
  rw [filter_eq_chain]
  exact chain_stops hconjunction fun _ _ _ => conjunctionAt_suffix

/-- A scope is opened by a character, and no more scopes fit in it than characters follow. -/
theorem opensWithin_scopeOf (depth : Nat) : OpensWithin depth (scopeOf depth) := by
  induction depth with
  | zero =>
    intro c s t inside stop hopen h
    cases h
    exact Nat.lt_of_lt_of_le (Nat.succ_pos _) hopen.length_le
  | succ depth ih =>
    intro c s t inside stop hopen h
    have hinner : filter depth inside s = .error stop := h
    exact (filter_stops_of_scope ih hinner).cons hopen

theorem path_stops (depth : Nat) : StopsWithin depth (path depth) := by
  intro s stop h
  unfold path at h
  split at h
  · next hname =>
    cases h
    exact name_stops depth hname
  · next attr rest hname =>
    obtain ⟨t, rfl, -⟩ := name_shows hname
    refine Stop.Within.of_suffix ?_ (List.suffix_append t rest)
    split at h
    · split at h
      · next hfilter =>
        cases h
        exact valueFilter_stops (opensWithin_scopeOf depth) (narrows_scopeOf depth) hfilter
      · next filter last hfilter =>
        have hlast := valueFilter_suffix (narrows_scopeOf depth) hfilter
        cases hsub : name last with
        | error stop' =>
          rw [hsub] at h
          cases h
          exact (name_stops depth hsub).of_suffix ((List.suffix_cons _ _).trans hlast)
        | ok read =>
          rw [hsub] at h
          cases h
      · cases h
    · cases h

end Filters

variable {limits : Limits} {mode : Mode} {text : String}

theorem expression_stops (limits : Limits) (mode : Mode) :
    StopsWithin limits.maxDepth (expression limits mode) := by
  cases mode with
  | filter => exact filter_stops_of_scope (opensWithin_scopeOf limits.maxDepth)
  | path => exact path_stops limits.maxDepth

/-- The reading of a whole text stops within it. -/
theorem whole_stops (h : whole limits mode s = .error stop) : stop.Within limits.maxDepth s := by
  unfold whole at h
  split at h
  · next hread =>
    cases h
    exact expression_stops limits mode hread
  · next expr rest hread =>
    split at h
    · cases h
    · cases h
      exact (skipBlanks_suffix rest).trans ((expression_shows limits mode).suffix hread)

end ScimDirectory.Filter
