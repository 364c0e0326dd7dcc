import ScimDirectory.Proofs.Filter.Stops

/-!
# Limits

Reading under a bound on open scopes is reading without it, cut where a scope too many is opened. An
expression that is read without limits is read under limits exactly when it opens no more scopes at
once than may be open, and nothing else is read under limits.
-/

namespace ScimDirectory.Filter

/-- How a reading answers where only some results fit, given how it answers where all do. -/
inductive Cut {α : Type} (fits : α → Prop) (free : Except Stop α) : Except Stop α → Prop where
  /-- What is read fits. -/
  | same (h : ∀ a, free = .ok a → fits a) : Cut fits free free
  /-- What is read does not fit, if anything is. -/
  | deep (h : ∀ a, free = .ok a → ¬fits a) : Cut fits free (.error .tooDeep)

variable {depth wide : Nat} {inValueFilter negated : Bool} {attr : String} {s rest : List Char}

namespace Cut

variable {α β : Type} {fits : α → Prop} {fits' : β → Prop} {x y : Except Stop α}
  {f g : α → Except Stop β}

/-- Readings go on after each other as long as what is read fits. -/
theorem bind (h : Cut fits x y) (hsame : ∀ a, fits a → Cut fits' (f a) (g a))
    (hdeep : ∀ a b, ¬fits a → f a = .ok b → ¬fits' b) : Cut fits' (x.bind f) (y.bind g) := by
  cases h with
  | same h =>
    cases x with
    | error stop => exact .same fun _ hread => nomatch hread
    | ok a => exact hsame a (h a rfl)
  | deep h =>
    cases x with
    | error stop => exact .deep fun _ hread => nomatch hread
    | ok a => exact .deep fun b => hdeep a b (h a rfl)

/-- A reading may be followed by anything that keeps whether its result fits. -/
theorem followed (h : Cut fits x y) (hf : ∀ {a b}, f a = .ok b → (fits' b ↔ fits a)) :
    Cut fits' (x.bind f) (y.bind f) := by
  refine h.bind (fun a hfits => ?_) fun a b hfits hread => ?_
  · exact .same fun b hread => (hf hread).mpr hfits
  · exact mt (hf hread).mp hfits

/-- What is refused anyway is refused alike. -/
theorem error {stop : Stop} : Cut fits (.error stop) (.error stop) :=
  .same fun _ hread => nomatch hread

/-- What is read and fits is read. -/
theorem ok {a : α} (h : fits a) : Cut fits (.ok a) (.ok a) := by
  refine .same fun b hread => ?_
  cases hread
  exact h

end Cut

section Chains

variable {connective : Connective} {free operand : Reader Expr} {expr lhs : Expr}

theorem joined_succ (count : Nat) : joined connective operand (count + 1) lhs s =
    match keyword? connective.keyword s with
    | none => .ok (lhs, s)
    | some after => (operand after).bind fun (rhs, rest) =>
      joined connective operand count (.join connective lhs rhs) rest := by
  rw [joined]
  cases keyword? connective.keyword s with
  | none => rfl
  | some after => cases hrhs : operand after <;> simp only [hrhs, Except.bind]

/-- A chain is no less deep than its first operand. -/
theorem depth_le_of_joined {count : Nat}
    (h : joined connective operand count lhs s = .ok (expr, rest)) : lhs.depth ≤ expr.depth := by
  induction count generalizing lhs s with
  | zero =>
    cases h
    exact Nat.le_refl _
  | succ count ih =>
    rw [joined_succ] at h
    split at h
    · cases h
      exact Nat.le_refl _
    · obtain ⟨⟨rhs, after⟩, -, hjoined⟩ := except_bind_eq_ok.mp h
      exact Nat.le_trans (Nat.le_max_left _ _) (ih hjoined)

/-- Further operands are cut where one of them is. The induction is on their number. -/
theorem joined_cut (hoperand : ∀ s, Cut (·.1.depth ≤ depth) (free s) (operand s)) (count : Nat)
    (hlhs : lhs.depth ≤ depth) :
    Cut (·.1.depth ≤ depth) (joined connective free count lhs s)
      (joined connective operand count lhs s) := by
  induction count generalizing lhs s with
  | zero => exact .ok hlhs
  | succ count ih =>
    rw [joined_succ, joined_succ]
    cases keyword? connective.keyword s with
    | none => exact .ok hlhs
    | some after =>
      refine (hoperand after).bind (fun (rhs, rest) hrhs => ?_)
        fun (rhs, rest) (expr, _) hrhs hread => ?_
      · have hjoin : (Expr.join connective lhs rhs).depth ≤ depth := Nat.max_le.mpr ⟨hlhs, hrhs⟩
        exact ih hjoin
      · have hright := Nat.le_max_right lhs.depth rhs.depth
        have hjoined := depth_le_of_joined hread
        exact fun hfits => hrhs (Nat.le_trans hright (Nat.le_trans hjoined hfits))

theorem chain_eq_bind (operand : Reader Expr) : chain connective operand s =
    (operand s).bind fun (lhs, rest) => joined connective operand rest.length lhs rest := by
  unfold chain
  cases hlhs : operand s <;> simp only [Except.bind]

theorem chain_cut (hoperand : ∀ s, Cut (·.1.depth ≤ depth) (free s) (operand s)) (s : List Char) :
    Cut (·.1.depth ≤ depth) (chain connective free s) (chain connective operand s) := by
  rw [chain_eq_bind, chain_eq_bind]
  refine (hoperand s).bind (fun (lhs, rest) hlhs => joined_cut hoperand _ hlhs)
    fun (lhs, rest) (expr, _) hlhs hread => ?_
  have hjoined := depth_le_of_joined hread
  exact fun hfits => hlhs (Nat.le_trans hjoined hfits)

end Chains

section Operands

variable {free scope : Scope}

/-- How a scope is read where one more has to fit. -/
def ScopeCut (depth : Nat) (free scope : Scope) : Prop :=
  ∀ inValueFilter s, Cut (·.1.depth < depth) (free.enter inValueFilter s)
    (scope.enter inValueFilter s)

theorem group_eq_bind : group scope inValueFilter negated s =
    (scope.enter inValueFilter s).bind fun (inner, rest) =>
      match Text.skipBlanks rest with
      | ')' :: rest => .ok (.group negated inner, rest)
      | rest => .error (.fault .unclosedGroup rest) := by
  unfold group
  cases scope.enter inValueFilter s <;> rfl

theorem group_cut (hscope : ScopeCut depth free scope) :
    Cut (·.1.depth ≤ depth) (group free inValueFilter negated s)
      (group scope inValueFilter negated s) := by
  rw [group_eq_bind, group_eq_bind]
  refine (hscope inValueFilter s).followed fun hread => ?_
  dsimp only at hread
  split at hread
  · cases hread
    exact Nat.succ_le_iff
  · cases hread

theorem valueFilter_eq_bind : valueFilter scope false s =
    (scope.enter true (s.drop 1)).bind fun (filter, rest) =>
      match Text.skipBlanks rest with
      | ']' :: rest => .ok (filter, rest)
      | rest => .error (.fault .unclosedValueFilter rest) := by
  unfold valueFilter
  rw [if_neg Bool.false_ne_true]
  cases scope.enter true (s.drop 1) <;> rfl

theorem valueFilter_cut (hscope : ScopeCut depth free scope) :
    Cut (·.1.depth < depth) (valueFilter free inValueFilter s)
      (valueFilter scope inValueFilter s) := by
  cases inValueFilter with
  | true => exact .error
  | false =>
    rw [valueFilter_eq_bind, valueFilter_eq_bind]
    refine (hscope true (s.drop 1)).followed fun hread => ?_
    dsimp only at hread
    split at hread
    · cases hread
      exact Iff.rfl
    · cases hread

/-- A condition opens no scope. -/
theorem depth_of_condition {expr : Expr} (h : condition attr s = .ok (expr, rest)) :
    expr.depth = 0 := by
  obtain ⟨operator, value, _, rfl, -⟩ := condition_eq_ok h
  cases operator <;> rfl

theorem afterName_eq_bind : afterName scope inValueFilter attr ('[' :: s) =
    (valueFilter scope inValueFilter ('[' :: s)).bind fun
      | (_, '.' :: rest) => .error (.fault .subAttributeInFilter ('.' :: rest))
      | (filter, rest) => .ok (.valuePath attr filter none, rest) := by
  unfold afterName
  split
  · rcases valueFilter scope inValueFilter ('[' :: s) with stop | ⟨filter, rest⟩
    · rfl
    · dsimp only [Except.bind]
      split <;> simp_all
  · next hother => exact absurd rfl (hother s)

/-- Without a bracket an attribute is asked for presence or compared. -/
theorem afterName_of_plain (h : ∀ inner, s ≠ '[' :: inner) :
    afterName scope inValueFilter attr s =
      match keyword? "pr" s with
      | some rest => .ok (.present attr, rest)
      | none => condition attr s := by
  unfold afterName
  split
  · exact absurd rfl (h _)
  · rfl

theorem afterName_cut (hscope : ScopeCut depth free scope) :
    Cut (·.1.depth ≤ depth) (afterName free inValueFilter attr s)
      (afterName scope inValueFilter attr s) := by
  by_cases hopen : ∃ inner, s = '[' :: inner
  · obtain ⟨inner, rfl⟩ := hopen
    rw [afterName_eq_bind, afterName_eq_bind]
    refine (valueFilter_cut hscope).followed fun hread => ?_
    split at hread
    · cases hread
    · cases hread
      exact Nat.succ_le_iff
  · unfold afterName
    split
    · exact absurd ⟨_, rfl⟩ hopen
    · refine .same fun (expr, rest) hread => ?_
      split at hread
      · cases hread
        exact Nat.zero_le depth
      · rw [depth_of_condition hread]
        exact Nat.zero_le depth

/-- The word of a negation stands before a group. -/
theorem operand_of_negated {after inner : List Char}
    (hnot : keyword? "not" (Text.skipBlanks s) = some after)
    (hopen : Text.skipBlanks after = '(' :: inner) :
    operand scope inValueFilter s = group scope inValueFilter true inner := by
  unfold operand
  simp only [hnot, hopen]

/-- Without a group after it, it is a fault. -/
theorem operand_of_bareNegation {after : List Char}
    (hnot : keyword? "not" (Text.skipBlanks s) = some after)
    (hplain : ∀ inner, Text.skipBlanks after ≠ '(' :: inner) :
    operand scope inValueFilter s = .error (.fault .notWithoutGroup (Text.skipBlanks after)) := by
  unfold operand
  simp only [hnot]

/-- What is no negation is a group. -/
theorem operand_of_open {inner : List Char} (hnot : keyword? "not" (Text.skipBlanks s) = none)
    (hopen : Text.skipBlanks s = '(' :: inner) :
    operand scope inValueFilter s = group scope inValueFilter false inner := by
  rw [hopen] at hnot
  unfold operand
  simp only [hopen, hnot]

/-- What is neither begins with a name. -/
theorem operand_of_plain (hnot : keyword? "not" (Text.skipBlanks s) = none)
    (hplain : ∀ inner, Text.skipBlanks s ≠ '(' :: inner) : operand scope inValueFilter s =
      (name (Text.skipBlanks s)).bind fun read =>
        afterName scope inValueFilter read.1 read.2 := by
  unfold operand
  simp only [hnot]
  cases name (Text.skipBlanks s) <;> rfl

theorem operand_cut (hscope : ScopeCut depth free scope) (s : List Char) :
    Cut (·.1.depth ≤ depth) (operand free inValueFilter s) (operand scope inValueFilter s) := by
  unfold operand
  dsimp only
  split
  · split
    · exact group_cut hscope
    · exact .error
  · split
    · exact group_cut hscope
    · split
      · exact .error
      · exact afterName_cut hscope

end Operands

theorem filter_cut_of_scope (hscope : ScopeCut depth (scopeOf wide) (scopeOf depth))
    (inValueFilter : Bool) (s : List Char) :
    Cut (·.1.depth ≤ depth) (filter wide inValueFilter s) (filter depth inValueFilter s) := by
  rw [filter_eq_chain, filter_eq_chain]
  exact chain_cut (chain_cut (operand_cut hscope)) s

/-- A scope is cut where one more does not fit. The induction is on the number of scopes that may
be open. -/
theorem scopeCut_scopeOf (h : depth ≤ wide) : ScopeCut depth (scopeOf wide) (scopeOf depth) := by
  induction depth generalizing wide with
  | zero => exact fun _ _ => .deep fun _ _ => Nat.not_lt_zero _
  | succ depth ih =>
    cases wide with
    | zero => exact absurd h (Nat.not_succ_le_zero depth)
    | succ wide =>
      intro inValueFilter s
      have hinner := filter_cut_of_scope (ih (Nat.le_of_succ_le_succ h)) inValueFilter s
      simp only [Nat.lt_succ_iff]
      exact hinner

theorem path_eq_bind (hname : name s = .ok (attr, '[' :: rest)) : path depth s =
    (valueFilter (scopeOf depth) false ('[' :: rest)).bind fun
      | (filter, '.' :: rest) =>
        (name rest).map fun (sub, rest) => (.valuePath attr filter (some sub), rest)
      | (filter, rest) => .ok (.valuePath attr filter none, rest) := by
  unfold path
  rw [hname]
  dsimp only
  split
  · rcases valueFilter (scopeOf depth) false ('[' :: rest) with stop | ⟨filter, last⟩
    · rfl
    · dsimp only [Except.bind]
      split <;> simp_all
  · next hother => exact absurd rfl (hother rest)

/-- A path begins with a name. -/
theorem path_of_error {stop : Stop} (hname : name s = .error stop) :
    path depth s = .error stop := by
  unfold path
  rw [hname]

/-- Without a bracket after it, the name is the path. -/
theorem path_of_plain (hname : name s = .ok (attr, rest))
    (hplain : ∀ inner, rest ≠ '[' :: inner) : path depth s = .ok (.path attr none, rest) := by
  unfold path
  rw [hname]
  dsimp only
  split
  · exact absurd rfl (hplain _)
  · rfl

theorem path_cut (h : depth ≤ wide) (s : List Char) :
    Cut (·.1.depth ≤ depth) (path wide s) (path depth s) := by
  by_cases hopen : ∃ attr inner, name s = .ok (attr, '[' :: inner)
  · obtain ⟨attr, inner, hname⟩ := hopen
    rw [path_eq_bind hname, path_eq_bind hname]
    refine (valueFilter_cut (scopeCut_scopeOf h)).followed fun hread => ?_
    split at hread
    · obtain ⟨_, -, hsub⟩ := except_map_eq_ok.mp hread
      cases hsub
      exact Nat.succ_le_iff
    · cases hread
      exact Nat.succ_le_iff
  · unfold path
    split
    · exact .error
    · next attr rest hname =>
      split
      · exact absurd ⟨attr, _, hname⟩ hopen
      · exact .ok (Nat.zero_le depth)

variable {limits free : Limits}

theorem expression_cut (h : limits.maxDepth ≤ free.maxDepth) (mode : Mode) (s : List Char) :
    Cut (·.1.depth ≤ limits.maxDepth) (expression free mode s) (expression limits mode s) := by
  cases mode with
  | filter => exact filter_cut_of_scope (scopeCut_scopeOf h) false s
  | path => exact path_cut h s

theorem whole_eq_bind (limits : Limits) (mode : Mode) (s : List Char) : whole limits mode s =
    (expression limits mode s).bind fun (expr, rest) =>
      match Text.skipBlanks rest with
      | [] => .ok expr
      | rest => .error (.fault (.unexpectedInput (String.ofList rest)) rest) := by
  unfold whole
  cases expression limits mode s <;> rfl

theorem whole_cut (h : limits.maxDepth ≤ free.maxDepth) (mode : Mode) (s : List Char) :
    Cut (·.depth ≤ limits.maxDepth) (whole free mode s) (whole limits mode s) := by
  rw [whole_eq_bind, whole_eq_bind]
  refine (expression_cut h mode s).followed fun hread => ?_
  dsimp only at hread
  split at hread
  · cases hread
    exact Iff.rfl
  · cases hread

/-- Where a text cannot be nested too deeply, other limits only cut what is read. -/
theorem whole_cut_of_length_le (hfree : s.length ≤ free.maxDepth) (limits : Limits) (mode : Mode) :
    Cut (·.depth ≤ limits.maxDepth) (whole free mode s) (whole limits mode s) := by
  rcases Nat.le_total limits.maxDepth free.maxDepth with h | h
  · exact whole_cut h mode s
  · have hcut := whole_cut h mode s
    generalize hread : whole free mode s = read at hcut ⊢
    cases hcut with
    | same hfits => exact .same fun expr hexpr => Nat.le_trans (hfits expr hexpr) h
    | deep =>
      have hdeep : free.maxDepth < s.length := whole_stops hread
      exact absurd hfree (Nat.not_le.mpr hdeep)

/-- Limits that a text is too short to meet. -/
structure Limits.Idle (limits : Limits) (text : String) : Prop where
  /-- It is not too long. -/
  length_le : byteLength text.toList ≤ limits.maxLength
  /-- It has too few characters to be nested too deeply. -/
  depth_le : text.toList.length ≤ limits.maxDepth

variable {mode : Mode} {text : String} {expr : Expr}

theorem parseWithin_of_tooLong (h : limits.maxLength < byteLength text.toList) :
    parseWithin limits mode text =
      .error (.tooLong (byteLength text.toList) limits.maxLength) := by
  unfold parseWithin
  exact if_pos h

theorem parseWithin_of_length_le (h : byteLength text.toList ≤ limits.maxLength) :
    parseWithin limits mode text =
      if Text.allBlank text then .error (.fault .emptyExpression 0)
      else (whole limits mode text.toList).mapError (·.toError limits text.toList) := by
  unfold parseWithin
  exact if_neg (Nat.not_lt.mpr h)

/-- Reading a text that no limit is met by tells of no limit. -/
theorem Limits.Idle.not_limit (hfree : free.Idle text) :
    (∀ length max, parseWithin free mode text ≠ .error (.tooLong length max)) ∧
      ∀ max, parseWithin free mode text ≠ .error (.tooDeep max) := by
  rw [parseWithin_of_length_le hfree.length_le]
  split
  · exact ⟨fun _ _ h => (nomatch h), fun _ h => (nomatch h)⟩
  · cases hread : whole free mode text.toList with
    | ok expr => exact ⟨fun _ _ h => (nomatch h), fun _ h => (nomatch h)⟩
    | error stop =>
      cases stop with
      | fault => exact ⟨fun _ _ h => (nomatch h), fun _ h => (nomatch h)⟩
      | nestedValueFilter => exact ⟨fun _ _ h => (nomatch h), fun _ h => (nomatch h)⟩
      | tooDeep =>
        have hdeep : free.maxDepth < text.toList.length := whole_stops hread
        exact absurd hfree.depth_le (Nat.not_le.mpr hdeep)

/-- A text that is not too long is read under limits as it is read without them where that is not
nested too deeply, and is not read otherwise. -/
theorem parseWithin_of_idle (hfree : free.Idle text)
    (hlength : byteLength text.toList ≤ limits.maxLength) :
    match parseWithin free mode text with
    | .ok expr => parseWithin limits mode text =
        if expr.depth ≤ limits.maxDepth then .ok expr else .error (.tooDeep limits.maxDepth)
    | .error error => parseWithin limits mode text = .error error ∨
        parseWithin limits mode text = .error (.tooDeep limits.maxDepth) := by
  rw [parseWithin_of_length_le hfree.length_le, parseWithin_of_length_le hlength]
  by_cases hblank : Text.allBlank text
  · rw [if_pos hblank]
    exact .inl (if_pos hblank)
  rw [if_neg hblank, if_neg hblank]
  have hcut := whole_cut_of_length_le hfree.depth_le limits mode
  generalize hread : whole free mode text.toList = read at hcut ⊢
  generalize whole limits mode text.toList = limited at hcut ⊢
  cases hcut with
  | same hfits =>
    cases read with
    | ok expr => exact (if_pos (hfits expr rfl)).symm
    | error stop =>
      cases stop with
      | tooDeep => exact .inr rfl
      | fault => exact .inl rfl
      | nestedValueFilter => exact .inl rfl
  | deep hfits =>
    cases read with
    | ok expr => exact (if_neg (hfits expr rfl)).symm
    | error stop => exact .inr rfl

/-- Limits are exact. What a text is read as under limits that it is too short to meet decides how
it is read under any others: a text that is too long is refused for its length, and one that is not
is read as the same expression if that opens no more scopes at once than may be open, and refused
for its depth if it opens more. Nothing else is read, and what is read has the shape of the
grammar. -/
theorem limits_are_exact (free limits : Limits) (mode : Mode) (text : String)
    (hfree : free.Idle text) :
    ((∀ length max, parseWithin free mode text ≠ .error (.tooLong length max)) ∧
      ∀ max, parseWithin free mode text ≠ .error (.tooDeep max)) ∧
    (limits.maxLength < byteLength text.toList →
      parseWithin limits mode text =
        .error (.tooLong (byteLength text.toList) limits.maxLength)) ∧
    (byteLength text.toList ≤ limits.maxLength →
      match parseWithin free mode text with
      | .ok expr => parseWithin limits mode text =
          if expr.depth ≤ limits.maxDepth then .ok expr else .error (.tooDeep limits.maxDepth)
      | .error error => parseWithin limits mode text = .error error ∨
          parseWithin limits mode text = .error (.tooDeep limits.maxDepth)) ∧
    ∀ expr, parseWithin limits mode text = .ok expr → expr.Shaped mode :=
  ⟨hfree.not_limit, parseWithin_of_tooLong, parseWithin_of_idle hfree,
    fun _ hread => (shown_of_parseWithin hread).shaped⟩

/-- A negated group in a group is read where two scopes may be open, is nested too deeply where one
may be, and is too long for one byte less than it has. -/
theorem limits_are_exact_of_nested_groups :
    Limits.standard.Idle "(not (a pr))" ∧
    parseWithin ⟨12, 2⟩ .filter "(not (a pr))" =
      .ok (.group false (.group true (.present "a"))) ∧
    parseWithin ⟨12, 1⟩ .filter "(not (a pr))" = .error (.tooDeep 1) ∧
    parseWithin ⟨11, 2⟩ .filter "(not (a pr))" = .error (.tooLong 12 11) := by
  have hfree : Limits.standard.Idle "(not (a pr))" := ⟨by decide, by decide⟩
  have hread : parseWithin .standard .filter "(not (a pr))" =
      .ok (.group false (.group true (.present "a"))) := by
    rw [← except_toOption_eq_some]
    decide +kernel
  have hbytes : byteLength "(not (a pr))".toList = 12 := by decide
  have hexact := fun limits => limits_are_exact .standard limits .filter "(not (a pr))" hfree
  rw [hread, hbytes] at hexact
  have htwo := (hexact ⟨12, 2⟩).2.2.1 (Nat.le_refl 12)
  have hone := (hexact ⟨12, 1⟩).2.2.1 (Nat.le_refl 12)
  have hlong := (hexact ⟨11, 2⟩).2.1 (Nat.lt_succ_self 11)
  exact ⟨hfree, htwo.trans (if_pos (by decide)), hone.trans (if_neg (by decide)), hlong⟩

end ScimDirectory.Filter
