import ScimDirectory.Proofs.Filter.Acceptance

/-!
# Every writing is read

An expression of the grammar is read from each of its writings as exactly itself. A chain is read
operand by operand, and what is read of it so far is its left side, so the reading of a side is told
together with what may still follow it: an operand stands alone, a conjunction may go on, and a
disjunction goes on where no conjunction does.
-/

namespace ScimDirectory

namespace Filter

variable {depth : Nat} {inValueFilter : Bool} {connective : Connective} {operand : Reader Expr}
  {expr lhs rhs : Expr} {b b' s t k l r w rest : List Char} {attr : String}

/-- A reader leaves no more than it is given. -/
def Shrinks (reader : Reader Expr) : Prop :=
  ∀ ⦃s expr rest⦄, reader s = .ok (expr, rest) → rest.length ≤ s.length

theorem Shows.shrinks {P : Expr → Nat → Prop} {reader : Reader Expr} (h : Shows P reader) :
    Shrinks reader := by
  intro s expr rest hread
  obtain ⟨t, rfl, _⟩ := h hread
  rw [List.length_append]
  omega

theorem isWord_keyword (connective : Connective) : IsWord connective.keyword := by
  cases connective <;> decide

theorem length_lt_of_keyword?_eq_some (h : keyword? connective.keyword s = some rest) :
    rest.length < s.length := by
  obtain ⟨b, w, _, rfl, hw, _⟩ := keyword?_eq_some h
  have hword : 0 < w.length := by
    rw [hw.length_eq]
    exact List.length_pos_iff.mpr (isWord_keyword connective).nonempty
  rw [List.length_append, List.length_append]
  omega

theorem joined_of_keyword?_eq_none {count : Nat} (h : keyword? connective.keyword s = none) :
    joined connective operand count lhs s = .ok (lhs, s) := by
  cases count with
  | zero => rfl
  | succ count =>
    unfold joined
    rw [h]

theorem joined_of_keyword?_eq_some {count : Nat} (h : keyword? connective.keyword s = some t)
    (hrhs : operand t = .ok (rhs, rest)) :
    joined connective operand (count + 1) lhs s =
      joined connective operand count (.join connective lhs rhs) rest := by
  rw [joined, h]
  simp only [hrhs]

/-- The bound on further operands is none when it is the number of characters or more. -/
theorem joined_congr (hshrinks : Shrinks operand) {count count' : Nat}
    (hcount : s.length ≤ count) (hcount' : s.length ≤ count') :
    joined connective operand count lhs s = joined connective operand count' lhs s := by
  induction count generalizing count' lhs s with
  | zero =>
    cases hkeyword : keyword? connective.keyword s with
    | none =>
      rw [joined_of_keyword?_eq_none hkeyword, joined_of_keyword?_eq_none hkeyword]
    | some after =>
      have hlt := length_lt_of_keyword?_eq_some hkeyword
      omega
  | succ count ih =>
    cases hkeyword : keyword? connective.keyword s with
    | none =>
      rw [joined_of_keyword?_eq_none hkeyword, joined_of_keyword?_eq_none hkeyword]
    | some after =>
      have hlt := length_lt_of_keyword?_eq_some hkeyword
      cases count' with
      | zero => omega
      | succ count' =>
        cases hoperand : operand after with
        | error stop =>
          rw [joined, joined, hkeyword]
          simp only [hoperand]
        | ok read =>
          have hle := hshrinks hoperand
          rw [joined_of_keyword?_eq_some hkeyword hoperand,
            joined_of_keyword?_eq_some hkeyword hoperand]
          exact ih (by omega) (by omega)

/-- Reads what further operands follow a left side. -/
def more (connective : Connective) (operand : Reader Expr) (lhs : Expr) : Reader Expr := fun s =>
  joined connective operand s.length lhs s

theorem more_of_keyword?_eq_none (h : keyword? connective.keyword s = none) :
    more connective operand lhs s = .ok (lhs, s) :=
  joined_of_keyword?_eq_none h

/-- An operand after a keyword goes to the right side. -/
theorem more_append (hshrinks : Shrinks operand) (hb : Blanks b)
    (hw : InAnyCase connective.keyword w) (hs : Ends s) (hrhs : operand s = .ok (rhs, rest)) :
    more connective operand lhs (b ++ (w ++ s)) =
      more connective operand (.join connective lhs rhs) rest := by
  have hkeyword : keyword? connective.keyword (b ++ (w ++ s)) = some s :=
    keyword?_append (isWord_keyword connective) hb hw hs.not_continuesWord
  have hlt := length_lt_of_keyword?_eq_some hkeyword
  have hle := hshrinks hrhs
  obtain ⟨count, hcount⟩ : ∃ count, (b ++ (w ++ s)).length = count + 1 :=
    ⟨(b ++ (w ++ s)).length - 1, by omega⟩
  unfold more
  rw [hcount, joined_of_keyword?_eq_some hkeyword hrhs]
  exact joined_congr hshrinks (by omega) (Nat.le_refl _)

theorem chain_eq_more (h : operand s = .ok (lhs, rest)) :
    chain connective operand s = more connective operand lhs rest := by
  unfold chain
  rw [h]
  rfl

theorem chain_blanks (hoperand : ∀ s, operand (b ++ s) = operand s) (s : List Char) :
    chain connective operand (b ++ s) = chain connective operand s := by
  unfold chain
  rw [hoperand]

theorem operand_blanks {scope : Scope} (hb : Blanks b) (s : List Char) :
    Filter.operand scope inValueFilter (b ++ s) = Filter.operand scope inValueFilter s := by
  unfold Filter.operand
  rw [hb.skipBlanks_append]

/-- Reads an operand where a number of scopes may be open. -/
abbrev operandAt (depth : Nat) (inValueFilter : Bool) : Reader Expr :=
  Filter.operand (scopeOf depth) inValueFilter

/-- Reads a conjunction where a number of scopes may be open. -/
abbrev conjunctionAt (depth : Nat) (inValueFilter : Bool) : Reader Expr :=
  chain .and (operandAt depth inValueFilter)

theorem filter_eq_chain (depth : Nat) (inValueFilter : Bool) :
    filter depth inValueFilter = chain .or (conjunctionAt depth inValueFilter) := by
  cases depth <;> rfl

theorem conjunctionAt_blanks (hb : Blanks b) (s : List Char) :
    conjunctionAt depth inValueFilter (b ++ s) = conjunctionAt depth inValueFilter s :=
  chain_blanks (operand_blanks hb) s

theorem filter_blanks (hb : Blanks b) (s : List Char) :
    filter depth inValueFilter (b ++ s) = filter depth inValueFilter s := by
  rw [filter_eq_chain]
  exact chain_blanks (conjunctionAt_blanks hb) s

theorem operandAt_shrinks (depth : Nat) (inValueFilter : Bool) :
    Shrinks (operandAt depth inValueFilter) :=
  (operand_shows (narrows_scopeOf depth)).shrinks

theorem conjunctionAt_shrinks (depth : Nat) (inValueFilter : Bool) :
    Shrinks (conjunctionAt depth inValueFilter) := by
  have hshows : Shows (fun expr n => Accepted depth inValueFilter expr n ∧
      Connective.and.AdmitsLeft expr) (conjunctionAt depth inValueFilter) :=
    chain_shows (operand_shows (narrows_scopeOf depth))
  exact hshows.shrinks

/-- A filter is read from a text before whatever ends its last word: alone if it is an operand, as
the left side of a longer conjunction if it is no disjunction, and as the left side of a longer
disjunction anyway, if no conjunction goes on. -/
structure ReadFrom (depth : Nat) (inValueFilter : Bool) (expr : Expr) (t : List Char) : Prop where
  /-- An operand is read alone. -/
  operand : expr.connective? = none → ∀ k, Ends k →
    operandAt depth inValueFilter (t ++ k) = .ok (expr, k)
  /-- A conjunction may go on. -/
  conjunction : expr.connective? ≠ some .or → ∀ k, Ends k →
    conjunctionAt depth inValueFilter (t ++ k) =
      more .and (operandAt depth inValueFilter) expr k
  /-- A disjunction may go on. -/
  disjunction : ∀ k, Ends k → keyword? Connective.and.keyword k = none →
    filter depth inValueFilter (t ++ k) = more .or (conjunctionAt depth inValueFilter) expr k

/-- A conjunction is a disjunction of one. -/
theorem filter_of_conjunction
    (h : ∀ k, Ends k → conjunctionAt depth inValueFilter (t ++ k) =
      more .and (operandAt depth inValueFilter) expr k)
    (hk : Ends k) (hand : keyword? Connective.and.keyword k = none) :
    filter depth inValueFilter (t ++ k) = more .or (conjunctionAt depth inValueFilter) expr k := by
  have hread : conjunctionAt depth inValueFilter (t ++ k) = .ok (expr, k) := by
    rw [h k hk, more_of_keyword?_eq_none hand]
  rw [filter_eq_chain, chain_eq_more hread]

/-- An operand is a conjunction and a disjunction of one. -/
theorem ReadFrom.of_operand
    (h : ∀ k, Ends k → operandAt depth inValueFilter (t ++ k) = .ok (expr, k)) :
    ReadFrom depth inValueFilter expr t := by
  have hconjunction : ∀ k, Ends k → conjunctionAt depth inValueFilter (t ++ k) =
      more .and (operandAt depth inValueFilter) expr k := by
    intro k hk
    exact chain_eq_more (h k hk)
  refine ⟨fun _ => h, fun _ => hconjunction, fun k hk hand => ?_⟩
  exact filter_of_conjunction hconjunction hk hand

/-- A conjunction goes on with an operand. -/
theorem ReadFrom.and (hlhs : ReadFrom depth inValueFilter lhs l)
    (hrhs : ReadFrom depth inValueFilter rhs r) (hleft : lhs.connective? ≠ some .or)
    (hright : rhs.connective? = none) (hb : Spaced b) (hw : InAnyCase "and" w)
    (hb' : Spaced b') :
    ReadFrom depth inValueFilter (.join .and lhs rhs) (l ++ (b ++ (w ++ (b' ++ r)))) := by
  have hconjunction : ∀ k, Ends k →
      conjunctionAt depth inValueFilter (l ++ (b ++ (w ++ (b' ++ r))) ++ k) =
        more .and (operandAt depth inValueFilter) (.join .and lhs rhs) k := by
    intro k hk
    have hoperand : operandAt depth inValueFilter (b' ++ (r ++ k)) = .ok (rhs, k) := by
      rw [operandAt, operand_blanks hb'.blanks]
      exact hrhs.operand hright k hk
    simp only [List.append_assoc]
    rw [hlhs.conjunction hleft _ (hb.ends _)]
    exact more_append (operandAt_shrinks _ _) hb.blanks hw (hb'.ends _) hoperand
  refine ⟨(nomatch ·), fun _ => hconjunction, fun k hk hand => ?_⟩
  exact filter_of_conjunction hconjunction hk hand

/-- A disjunction goes on with a conjunction. -/
theorem ReadFrom.or (hlhs : ReadFrom depth inValueFilter lhs l)
    (hrhs : ReadFrom depth inValueFilter rhs r) (hright : rhs.connective? ≠ some .or)
    (hb : Spaced b) (hw : InAnyCase "or" w) (hb' : Spaced b') :
    ReadFrom depth inValueFilter (.join .or lhs rhs) (l ++ (b ++ (w ++ (b' ++ r)))) := by
  refine ⟨(nomatch ·), fun h => absurd rfl h, fun k hk hand => ?_⟩
  have hno : keyword? Connective.and.keyword (b ++ (w ++ (b' ++ (r ++ k)))) = none :=
    keyword?_of_other (isWord_keyword .and) (isWord_keyword .or) (by decide) hb.blanks hw _
  have hconjunction : conjunctionAt depth inValueFilter (b' ++ (r ++ k)) = .ok (rhs, k) := by
    rw [conjunctionAt_blanks hb'.blanks, hrhs.conjunction hright k hk,
      more_of_keyword?_eq_none hand]
  simp only [List.append_assoc]
  rw [hlhs.disjunction _ (hb.ends _) hno]
  exact more_append (conjunctionAt_shrinks _ _) hb.blanks hw (hb'.ends _) hconjunction

/-- A filter is read, after blanks, up to where its scope ends. -/
theorem ReadFrom.filter_append (h : ReadFrom depth inValueFilter expr t) (hb : Blanks b)
    (hk : Closes k) : filter depth inValueFilter (b ++ (t ++ k)) = .ok (expr, k) := by
  have hand : keyword? Connective.and.keyword k = none := hk.keyword?_eq_none (isWord_keyword .and)
  have hor : keyword? Connective.or.keyword k = none := hk.keyword?_eq_none (isWord_keyword .or)
  rw [filter_blanks hb, h.disjunction k hk.ends hand, more_of_keyword?_eq_none hor]

section Operands

variable {scope : Scope} {c : Char}

/-- A name where an operand stands is read as one. -/
theorem operand_name (hattr : IsOperandName attr.toList) (hrest : Ends rest) :
    Filter.operand scope inValueFilter (attr.toList ++ rest) =
      afterName scope inValueFilter attr rest := by
  obtain ⟨hname, hopens⟩ := hattr
  obtain ⟨c, chars, hchars, hstart⟩ := hname.starts
  have hskip : Text.skipBlanks (attr.toList ++ rest) = attr.toList ++ rest := by
    rw [hchars]
    exact skipBlanks_cons (isBlank_of_startsName hstart)
  have hread : name (attr.toList ++ rest) = .ok (attr, rest) := name_append hname .nil hrest
  have hnot : keyword? "not" (attr.toList ++ rest) = none :=
    (keyword?_not_eq_none_iff hname hrest).mpr hopens
  unfold Filter.operand
  rw [hskip]
  simp only [hnot]
  split
  · next hparenthesis =>
    rw [hchars] at hparenthesis
    cases hparenthesis
    cases hstart
  · rw [hread]

theorem afterName_spaced (hb : Spaced b) (s : List Char) :
    afterName scope inValueFilter attr (b ++ s) =
      match keyword? "pr" (b ++ s) with
      | some rest => .ok (.present attr, rest)
      | none => condition attr (b ++ s) := by
  obtain ⟨hne, hblanks⟩ := hb
  cases b with
  | nil => exact absurd rfl hne
  | cons c b =>
    have hblank := hblanks c List.mem_cons_self
    unfold afterName
    split
    · next hbracket =>
      cases hbracket
      cases hblank
    · rfl

theorem isWord_pr : IsWord "pr" := by decide

theorem operand_present (hattr : IsOperandName attr.toList) (hb : Spaced b)
    (hw : InAnyCase "pr" w) (hk : Ends k) :
    Filter.operand scope inValueFilter (attr.toList ++ (b ++ (w ++ k))) =
      .ok (.present attr, k) := by
  have hpresent : keyword? "pr" (b ++ (w ++ k)) = some k :=
    keyword?_append isWord_pr hb.blanks hw hk.not_continuesWord
  rw [operand_name hattr (hb.ends _), afterName_spaced hb, hpresent]

theorem operand_condition {operator : Operator} {value : Literal} {v : List Char}
    (hattr : IsOperandName attr.toList) (hb : Spaced b) (hw : InAnyCase operator.word w)
    (hb' : Spaced b') (hv : value.Written v) (hk : Ends k) :
    Filter.operand scope inValueFilter (attr.toList ++ (b ++ (w ++ (b' ++ (v ++ k))))) =
      .ok (operator.apply attr value, k) := by
  have hfirst : "pr".toList.head? ≠ operator.word.toList.head? := by
    rcases operator with comparison | occurrence
    · cases comparison <;> decide
    · cases occurrence <;> decide
  have hpresent : keyword? "pr" (b ++ (w ++ (b' ++ (v ++ k)))) = none :=
    keyword?_of_other isWord_pr operator.isWord_word hfirst hb.blanks hw _
  rw [operand_name hattr (hb.ends _), afterName_spaced hb, hpresent]
  exact condition_append hb.blanks hw hb' hv hk

/-- A filter is read up to the sign that closes its scope. -/
theorem ReadFrom.enter (h : ReadFrom depth inValueFilter expr t) (hb : Blanks b) (hb' : Blanks b')
    (hc : c = ')' ∨ c = ']') :
    (scopeOf (depth + 1)).enter inValueFilter (b ++ (t ++ (b' ++ c :: k))) =
      .ok (expr, b' ++ c :: k) :=
  h.filter_append hb (hb'.closes_append hc k)

theorem skipBlanks_append_cons (hb : Blanks b) (hc : Text.isBlank c = false) (s : List Char) :
    Text.skipBlanks (b ++ c :: s) = c :: s := by
  rw [hb.skipBlanks_append, skipBlanks_cons hc]

theorem ReadFrom.group {negated : Bool} (h : ReadFrom depth inValueFilter expr t)
    (hb : Blanks b) (hb' : Blanks b') :
    Filter.group (scopeOf (depth + 1)) inValueFilter negated (b ++ (t ++ (b' ++ ')' :: k))) =
      .ok (.group negated expr, k) := by
  unfold Filter.group
  rw [h.enter hb hb' (.inl rfl)]
  simp only
  rw [skipBlanks_append_cons hb' (by decide)]
  rfl

theorem ReadFrom.operand_group (h : ReadFrom depth inValueFilter expr t)
    (hb : Blanks b) (hb' : Blanks b') :
    operandAt (depth + 1) inValueFilter ('(' :: (b ++ (t ++ (b' ++ ')' :: k)))) =
      .ok (.group false expr, k) := by
  have hskip (s : List Char) : Text.skipBlanks ('(' :: s) = '(' :: s :=
    skipBlanks_cons (by decide)
  have hnot (s : List Char) : keyword? "not" ('(' :: s) = none := by
    apply keyword?_eq_none isWord_not
    intro c hc
    rw [hskip] at hc
    obtain rfl := Option.some.inj hc
    decide
  unfold operandAt Filter.operand
  rw [hskip]
  simp only [hnot]
  exact h.group hb hb'

theorem ReadFrom.operand_negation {a : List Char} (h : ReadFrom depth inValueFilter expr t)
    (hw : InAnyCase "not" w) (ha : Blanks a) (hb : Blanks b) (hb' : Blanks b') :
    operandAt (depth + 1) inValueFilter (w ++ (a ++ '(' :: (b ++ (t ++ (b' ++ ')' :: k))))) =
      .ok (.group true expr, k) := by
  have hends (s : List Char) : Ends (a ++ '(' :: s) := by
    cases a with
    | nil => rfl
    | cons c a => exact Spaced.ends ⟨List.cons_ne_nil c a, ha⟩ _
  have hnot (s : List Char) : keyword? "not" (w ++ (a ++ '(' :: s)) = some (a ++ '(' :: s) :=
    keyword?_append isWord_not .nil hw (hends s).not_continuesWord
  unfold operandAt Filter.operand
  rw [hw.skipBlanks_append isWord_not]
  simp only [hnot]
  rw [skipBlanks_append_cons ha (by decide)]
  exact h.group hb hb'

theorem ReadFrom.valueFilter (h : ReadFrom depth true expr t) (hb : Blanks b) (hb' : Blanks b') :
    Filter.valueFilter (scopeOf (depth + 1)) false ('[' :: (b ++ (t ++ (b' ++ ']' :: k)))) =
      .ok (expr, k) := by
  unfold Filter.valueFilter
  rw [if_neg Bool.false_ne_true, List.drop_succ_cons, List.drop_zero, h.enter hb hb' (.inr rfl)]
  simp only
  rw [skipBlanks_append_cons hb' (by decide)]
  rfl

theorem ReadFrom.operand_valuePath (h : ReadFrom depth true expr t)
    (hattr : IsOperandName attr.toList) (hb : Blanks b) (hb' : Blanks b') (hk : Ends k) :
    operandAt (depth + 1) false (attr.toList ++ '[' :: (b ++ (t ++ (b' ++ ']' :: k)))) =
      .ok (.valuePath attr expr none, k) := by
  rw [operandAt, operand_name hattr (ends_cons.mpr rfl)]
  unfold afterName
  simp only
  rw [h.valueFilter hb hb']
  cases k with
  | nil => rfl
  | cons c k =>
    have hdot : c ≠ '.' := by
      rintro rfl
      cases hk
    grind

end Operands

/-- A scope can be opened where one has to be. -/
theorem exists_inner_depth {n : Nat} (h : n + 1 ≤ depth) :
    ∃ inner, depth = inner + 1 ∧ n ≤ inner :=
  ⟨depth - 1, by omega, by omega⟩

/-- A filter of the grammar is read from every writing of it. The induction is on the writing, and
each case leaves open what follows it. -/
theorem readFrom_of_written (h : expr.Written t) (hshaped : expr.FilterShaped inValueFilter)
    (hnamed : expr.FilterNamed) (hdepth : expr.depth ≤ depth) :
    ReadFrom depth inValueFilter expr t := by
  induction h generalizing depth inValueFilter with
  | @compare _ comparison _ _ _ _ _ hb hw hb' hv =>
    apply ReadFrom.of_operand
    intro k hk
    have hword : InAnyCase (Operator.compare comparison).word _ := hw
    simp only [List.append_assoc]
    exact operand_condition hnamed hb hword hb' hv hk
  | @search _ occurrence _ _ _ _ _ hb hw hb' hv =>
    apply ReadFrom.of_operand
    intro k hk
    have hword : InAnyCase (Operator.search occurrence).word _ := hw
    simp only [List.append_assoc]
    exact operand_condition hnamed hb hword hb' hv hk
  | present hb hw =>
    apply ReadFrom.of_operand
    intro k hk
    simp only [List.append_assoc]
    exact operand_present hnamed hb hw hk
  | @join connective _ _ _ _ _ _ _ _ hb hw hb' _ ihl ihr =>
    obtain ⟨hleft, hright, hshapedl, hshapedr⟩ := hshaped
    obtain ⟨hnamedl, hnamedr⟩ := hnamed
    obtain ⟨hdepthl, hdepthr⟩ := Nat.max_le.mp hdepth
    have hlhs := ihl hshapedl hnamedl hdepthl
    have hrhs := ihr hshapedr hnamedr hdepthr
    cases connective with
    | and => exact hlhs.and hrhs hleft hright hb hw hb'
    | or => exact hlhs.or hrhs hright hb hw hb'
  | @group inner b t b' hb _ hb' ih =>
    apply ReadFrom.of_operand
    intro k _
    obtain ⟨inside, rfl, hinside⟩ := exists_inner_depth hdepth
    have hinner := ih hshaped hnamed hinside
    simp only [List.append_assoc, List.cons_append, List.nil_append]
    exact hinner.operand_group hb hb'
  | @negation inner w a b t b' hw ha hb _ hb' ih =>
    apply ReadFrom.of_operand
    intro k _
    obtain ⟨inside, rfl, hinside⟩ := exists_inner_depth hdepth
    have hinner := ih hshaped hnamed hinside
    simp only [List.append_assoc, List.cons_append, List.nil_append]
    exact hinner.operand_negation hw ha hb hb'
  | path => exact hshaped.elim
  | @valuePath attr filter sub b t b' hb _ hb' ih =>
    obtain ⟨rfl, rfl, hfilter⟩ := hshaped
    obtain ⟨hattr, hnamedf⟩ := hnamed
    apply ReadFrom.of_operand
    intro k hk
    obtain ⟨inside, rfl, hinside⟩ := exists_inner_depth hdepth
    have hinner := ih hfilter hnamedf hinside
    have hnone : (Expr.subText none).toList = [] := rfl
    simp only [hnone, List.append_assoc, List.cons_append, List.nil_append]
    exact hinner.operand_valuePath hattr hb hb' hk

/-- A path of the grammar is read from every writing of it. -/
theorem path_append (h : expr.Written t) (hcanonical : expr.Canonical .path)
    (hdepth : expr.depth ≤ depth) (hb : Blanks b) (hk : Blanks k) :
    path depth (b ++ (t ++ k)) = .ok (expr, k) := by
  obtain ⟨hshaped, hnamed⟩ := hcanonical
  cases h with
  | @path attr sub =>
    obtain rfl : sub = none := hshaped
    have hnone : (Expr.subText none).toList = [] := rfl
    have hname : name (b ++ (attr.toList ++ k)) = .ok (attr, k) := name_append hnamed hb hk.ends
    unfold Filter.path
    rw [hnone, List.append_nil, hname]
    simp only
    split
    · next =>
      have hblank := hk '[' List.mem_cons_self
      cases hblank
    · rfl
  | @valuePath attr filter sub b' t b'' hb' ht hb'' =>
    obtain ⟨hattr, hfilterNamed, hsub⟩ := hnamed
    obtain ⟨inside, rfl, hinside⟩ := exists_inner_depth hdepth
    have hinner := readFrom_of_written ht hshaped hfilterNamed hinside
    have hname (s : List Char) : name (b ++ (attr.toList ++ '[' :: s)) = .ok (attr, '[' :: s) :=
      name_append hattr hb (ends_cons.mpr rfl)
    unfold Filter.path
    simp only [List.append_assoc, List.cons_append, hname, hinner.valueFilter hb' hb'']
    cases sub with
    | none =>
      have hnone : (Expr.subText none).toList = [] := rfl
      rw [hnone, List.nil_append]
      split
      · next hread => cases hread
      · next hread =>
        cases hread
        have hblank := hk '.' List.mem_cons_self
        cases hblank
      · next hread =>
        cases hread
        rfl
    | some sub =>
      have hdot : (Expr.subText (some sub)).toList = '.' :: sub.toList := by
        rw [Expr.subText, String.toList_append]
        rfl
      have hsubRead : name (sub.toList ++ k) = .ok (sub, k) :=
        name_append (hsub sub rfl) .nil hk.ends
      rw [hdot, List.cons_append]
      simp only [hsubRead, Except.map]
  | _ => exact hshaped.elim

/-- An expression of the grammar is read from every writing of it, with blanks around it. -/
theorem expression_append {limits : Limits} {mode : Mode} (h : expr.Written t)
    (hcanonical : expr.Canonical mode) (hdepth : expr.depth ≤ limits.maxDepth) (hb : Blanks b)
    (hk : Blanks k) : expression limits mode (b ++ (t ++ k)) = .ok (expr, k) := by
  cases mode with
  | filter =>
    have hread := readFrom_of_written h hcanonical.shaped hcanonical.named hdepth
    exact hread.filter_append hb hk.closes
  | path => exact path_append h hcanonical hdepth hb hk

theorem ink_pos_of_mem {c : Char} (hmem : c ∈ s) (hc : Text.isBlank c = false) : 0 < ink s := by
  unfold ink
  rw [List.countP_pos_iff]
  exact ⟨c, hmem, by rw [hc]; rfl⟩

theorem InAnyCase.ink_pos {word : String} (hword : IsWord word) (hw : InAnyCase word w) :
    0 < ink w := by
  obtain ⟨c, chars, rfl, hletter, _⟩ := hw.exists_cons hword
  exact ink_pos_of_mem List.mem_cons_self (not_isBlank_of_letter hletter)

theorem IsName.ink_pos {name : List Char} (hname : IsName name) : 0 < ink name := by
  obtain ⟨c, chars, rfl, hstart⟩ := hname.starts
  exact ink_pos_of_mem List.mem_cons_self (isBlank_of_startsName hstart)

/-- No writing is blank. -/
theorem ink_pos_of_written {mode : Mode} (h : expr.Written t)
    (hcanonical : expr.Canonical mode) : 0 < ink t := by
  cases h with
  | @compare _ comparison _ _ _ _ _ _ hw =>
    have hword := hw.ink_pos (Operator.isWord_word (.compare comparison))
    simp only [ink_append]
    omega
  | @search _ occurrence _ _ _ _ _ _ hw =>
    have hword := hw.ink_pos (Operator.isWord_word (.search occurrence))
    simp only [ink_append]
    omega
  | present _ hw =>
    have hword := hw.ink_pos isWord_pr
    simp only [ink_append]
    omega
  | @join connective _ _ _ _ _ _ _ _ _ hw =>
    have hword := hw.ink_pos (isWord_keyword connective)
    simp only [ink_append]
    omega
  | group => exact ink_pos_of_mem List.mem_cons_self (by decide)
  | negation hw =>
    have hword := hw.ink_pos isWord_not
    simp only [ink_append]
    omega
  | @path attr sub =>
    cases mode with
    | filter => exact hcanonical.shaped.elim
    | path =>
      have hname : IsName attr.toList := hcanonical.named
      have hpos := hname.ink_pos
      simp only [ink_append]
      omega
  | valuePath =>
    exact ink_pos_of_mem (List.mem_append_right _ List.mem_cons_self) (by decide)

/-- A text that is a writing with blanks around it is read within the limits. -/
theorem parseWithin_of_written {limits : Limits} {mode : Mode} {text : String}
    {before after : List Char} (htext : text.toList = before ++ (t ++ after))
    (hbefore : Blanks before) (hwritten : expr.Written t) (hafter : Blanks after)
    (hcanonical : expr.Canonical mode) (hlength : byteLength text.toList ≤ limits.maxLength)
    (hdepth : expr.depth ≤ limits.maxDepth) : parseWithin limits mode text = .ok expr := by
  have hread : expression limits mode text.toList = .ok (expr, after) := by
    rw [htext]
    exact expression_append hwritten hcanonical hdepth hbefore hafter
  have hblank : Text.allBlank text = false := by
    rw [Bool.eq_false_iff]
    intro hblank
    have hblanks : Blanks text.toList := List.all_eq_true.mp hblank
    have hnone := hblanks.ink_eq_zero
    have hsome := ink_pos_of_written hwritten hcanonical
    rw [htext, ink_append, ink_append] at hnone
    omega
  have hwhole : whole limits mode text.toList = .ok expr := by
    unfold whole
    rw [hread]
    simp only [hafter.skipBlanks_eq_nil]
  unfold parseWithin
  simp only [hblank, hwhole, Except.mapError]
  rw [if_neg (Nat.not_lt.mpr hlength), if_neg Bool.false_ne_true]

/-- Every writing of an expression of the grammar that is within the limits is read as exactly that
expression. -/
theorem rendered_expression_is_read_back (limits : Limits) (mode : Mode) (expr : Expr)
    (text : String) (hcanonical : expr.Canonical mode) (hrendered : expr.Rendered text)
    (hlength : byteLength text.toList ≤ limits.maxLength) (hdepth : expr.depth ≤ limits.maxDepth) :
    parseWithin limits mode text = .ok expr := by
  obtain ⟨before, t, after, htext, hbefore, hwritten, hafter⟩ := hrendered
  exact parseWithin_of_written htext hbefore hwritten hafter hcanonical hlength hdepth

/-- A negated group is read with its keywords in any case and its blanks anywhere, beside names that
start like keywords, and so is a path with a value filter. -/
theorem rendered_expression_is_read_back_of_negated_group :
    parseWithin .standard .filter
        " NOT\t( emails[type EQ \"x\\\"y\\\\\" ] oR nota Co fALSE\u3000and  order pR)\n" =
      .ok (.group true (.join .or
        (.valuePath "emails" (.compare "type" .eq (.text "x\"y\\")) none)
        (.join .and (.search "nota" .anywhere (.bool false)) (.present "order")))) ∧
    parseWithin .standard .path "not-[ value eq NULL ].$ref " =
      .ok (.valuePath "not-" (.compare "value" .eq .null) (some "$ref")) := by
  have hspace : Spaced [' '] := by decide
  have hspaces : Spaced [' ', ' '] := by decide
  have hideographic : Spaced ['\u3000'] := by decide
  constructor
  · have hcompare := @Expr.Written.compare "type" .eq _ _ "EQ".toList _ _ hspace (by decide) hspace
      (.text "x\"y\\")
    have hmails := @Expr.Written.valuePath "emails" _ none [] _ _ .nil hcompare hspace.blanks
    have hsearch := @Expr.Written.search "nota" .anywhere _ _ "Co".toList _ _ hspace (by decide)
      hspace (@Literal.Written.bool false "fALSE".toList (by decide))
    have hpresent := @Expr.Written.present "order" _ "pR".toList hspace (by decide)
    have hand := @Expr.Written.join .and _ _ _ _ "and".toList _ _ hsearch hideographic (by decide)
      hspaces hpresent
    have hor := @Expr.Written.join .or _ _ _ _ "oR".toList _ _ hmails hspace (by decide) hspace hand
    have hgroup := @Expr.Written.negation _ "NOT".toList ['\t'] _ _ [] (by decide) (by decide)
      hspace.blanks hor .nil
    apply rendered_expression_is_read_back
    · decide
    · exact ⟨[' '], _, ['\n'], rfl, hspace.blanks, hgroup, by decide⟩
    · decide
    · decide
  · have hcompare := @Expr.Written.compare "value" .eq _ _ "eq".toList _ _ hspace (by decide) hspace
      (@Literal.Written.null "NULL".toList (by decide))
    have hvaluePath := @Expr.Written.valuePath "not-" _ (some "$ref") _ _ _ hspace.blanks hcompare
      hspace.blanks
    apply rendered_expression_is_read_back
    · decide
    · exact ⟨[], _, [' '], rfl, .nil, hvaluePath, hspace.blanks⟩
    · decide
    · decide

end Filter
end ScimDirectory
