import ScimDirectory.Proofs.Filter.Completeness

/-!
# Reading what is displayed

The text of an expression is a writing of it as long as no value needs a backslash, since a quote
within a value is escaped there and a backslash is not. Each backslash is ink that the text lacks, so
an expression with one is not read from its text; neither is one whose names do not keep the rule
for names, which a schema prefix hides from the reader of the first text.
-/

namespace ScimDirectory

open ScimDirectory.Filter

/-- The characters of a text that an expression compares with. -/
def Literal.chars : Literal → List Char
  | .text s => s.toList
  | _ => []

/-- The number of backslashes in the texts that an expression compares with. -/
def Expr.backslashes (expr : Expr) : Nat := (expr.literals.flatMap Literal.chars).count '\\'

namespace Filter

variable {expr lhs rhs : Expr} {value : Literal} {s : List Char}

/-- A text as it is displayed between quotes, with its quotes escaped. -/
def displayed (s : List Char) : List Char :=
  s.flatMap fun c => if c = '"' then ['\\', '"'] else [c]

theorem toList_quote (s : String) :
    (Literal.quote s).toList = '"' :: displayed s.toList ++ ['"'] :=
  String.toList_ofList

theorem displayed_cons (c : Char) (s : List Char) :
    displayed (c :: s) = displayed [c] ++ displayed s := by
  unfold displayed
  rw [← List.flatMap_append]
  rfl

theorem displayed_singleton (c : Char) :
    displayed [c] = if c = '"' then ['\\', '"'] else [c] := by
  unfold displayed
  rw [List.flatMap_cons, List.flatMap_nil, List.append_nil]

/-- What needs an escape, without a backslash, is escaped where it is displayed. -/
theorem displayed_eq_escaped (h : '\\' ∉ s) : displayed s = escaped s := by
  induction s with
  | nil => rfl
  | cons c s ih =>
    rw [List.mem_cons, not_or] at h
    obtain ⟨hc, hs⟩ := h
    rw [displayed_cons, escaped_cons, ih hs, displayed_singleton, escaped_singleton]
    by_cases hquote : c = '"'
    · subst hquote
      rfl
    · rw [if_neg hquote, if_neg (not_or.mpr ⟨hquote, Ne.symm hc⟩)]

/-- A text that is displayed lacks the ink that escapes of its backslashes would take. -/
theorem ink_displayed (s : List Char) :
    ink (displayed s) + s.count '\\' = ink (escaped s) := by
  induction s with
  | nil => rfl
  | cons c s ih =>
    have hfirst : ink (displayed [c]) + [c].count '\\' = ink (escaped [c]) := by
      rw [displayed_singleton, escaped_singleton]
      by_cases hquote : c = '"'
      · subst hquote
        rfl
      · by_cases hslash : c = '\\'
        · subst hslash
          rfl
        · have hnone : [c].count '\\' = 0 := by
            rw [List.count_eq_zero, List.mem_singleton]
            exact Ne.symm hslash
          rw [if_neg hquote, if_neg (not_or.mpr ⟨hquote, hslash⟩), hnone, Nat.add_zero]
    have hcount : (c :: s).count '\\' = [c].count '\\' + s.count '\\' := by
      rw [← List.count_append, List.singleton_append]
    rw [displayed_cons, escaped_cons, ink_append, ink_append, hcount]
    omega

/-- A value is displayed with the ink of a least writing, but for its backslashes. -/
theorem ink_literal (hnumber : ∀ x, value ≠ .number x) :
    ink value.toText.toList + value.chars.count '\\' = value.ink := by
  cases value with
  | text s =>
    have hdisplayed := ink_displayed s.toList
    have hquotes : ink ('"' :: displayed s.toList ++ ['"']) = 2 + ink (displayed s.toList) := by
      have hopen : ink ('"' :: displayed s.toList) = 1 + ink (displayed s.toList) :=
        ink_append ['"'] _
      have hclose : ink ['"'] = 1 := by decide
      rw [ink_append, hopen, hclose]
      omega
    rw [Literal.toText, toList_quote, hquotes, Literal.chars, Literal.ink]
    omega
  | bool b => rfl
  | number x => exact absurd rfl (hnumber x)
  | null => rfl

/-- A value without backslashes is displayed as one of its writings. -/
theorem written_literal (hnumber : ∀ x, value ≠ .number x) (hslash : '\\' ∉ value.chars) :
    value.Written value.toText.toList := by
  cases value with
  | text s =>
    have hplain : '\\' ∉ s.toList := hslash
    rw [Literal.toText, toList_quote, displayed_eq_escaped hplain]
    exact .text s
  | bool b => cases b <;> exact .bool (by decide)
  | number x => exact absurd rfl (hnumber x)
  | null => exact .null (by decide)

/-- There are no backslashes exactly when no text has one. -/
theorem backslashes_eq_zero_iff : expr.backslashes = 0 ↔ expr.BackslashFree := by
  unfold Expr.backslashes
  rw [List.count_eq_zero, List.mem_flatMap]
  constructor
  · intro h s hs hslash
    exact h ⟨.text s, hs, hslash⟩
  · rintro h ⟨value, hvalue, hslash⟩
    cases value with
    | text s => exact h s hvalue hslash
    | _ => cases hslash

section Parts

variable {operator : Operator} {connective : Connective} {attr : String}

theorem literals_apply : (operator.apply attr value).literals = [value] := by
  cases operator <;> rfl

theorem backslashes_apply :
    (operator.apply attr value).backslashes = value.chars.count '\\' := by
  unfold Expr.backslashes
  rw [literals_apply, List.flatMap_cons, List.flatMap_nil, List.append_nil]

theorem backslashes_join :
    (Expr.join connective lhs rhs).backslashes = lhs.backslashes + rhs.backslashes := by
  unfold Expr.backslashes
  rw [Expr.literals, List.flatMap_append, List.count_append]

theorem numberFree_apply : (operator.apply attr value).NumberFree ↔ ∀ x, value ≠ .number x := by
  unfold Expr.NumberFree
  rw [literals_apply]
  simp only [List.mem_singleton, ne_eq, eq_comm]

theorem numberFree_join :
    (Expr.join connective lhs rhs).NumberFree ↔ lhs.NumberFree ∧ rhs.NumberFree := by
  unfold Expr.NumberFree
  rw [Expr.literals]
  simp only [List.mem_append, not_or, forall_and]

theorem toList_condition : (operator.apply attr value).toText.toList =
    attr.toList ++ ([' '] ++ (operator.word.toList ++ ([' '] ++ value.toText.toList))) := by
  have htext : (operator.apply attr value).toText =
      attr ++ " " ++ operator.word ++ " " ++ value.toText := by
    cases operator <;> rfl
  have hspace : " ".toList = [' '] := rfl
  rw [htext]
  simp only [String.toList_append, List.append_assoc, hspace]

theorem toList_present :
    (Expr.present attr).toText.toList = attr.toList ++ ([' '] ++ "pr".toList) := by
  rw [Expr.toText, String.toList_append]
  rfl

theorem toList_join : (Expr.join connective lhs rhs).toText.toList =
    lhs.toText.toList ++ ([' '] ++ (connective.keyword.toList ++ ([' '] ++ rhs.toText.toList))) := by
  have hspace : " ".toList = [' '] := rfl
  rw [Expr.toText]
  simp only [String.toList_append, List.append_assoc, hspace]

theorem toList_group : (Expr.group false expr).toText.toList =
    '(' :: ([] ++ (expr.toText.toList ++ ([] ++ [')']))) := by
  rw [Expr.toText, String.toList_append, String.toList_append]
  rfl

theorem toList_negation : (Expr.group true expr).toText.toList =
    "not".toList ++ ([' '] ++ '(' :: ([] ++ (expr.toText.toList ++ ([] ++ [')'])))) := by
  rw [Expr.toText, String.toList_append, String.toList_append]
  rfl

theorem toList_path {sub : Option String} :
    (Expr.path attr sub).toText.toList = attr.toList ++ (Expr.subText sub).toList := by
  rw [Expr.toText, String.toList_append]

theorem toList_valuePath {sub : Option String} : (Expr.valuePath attr expr sub).toText.toList =
    attr.toList ++ '[' :: ([] ++ (expr.toText.toList ++ ([] ++ ']' :: (Expr.subText sub).toList))) := by
  have hopen : "[".toList = ['['] := rfl
  have hclose : "]".toList = [']'] := rfl
  rw [Expr.toText]
  simp only [String.toList_append, List.append_assoc, List.nil_append, List.cons_append, hopen,
    hclose]

theorem ink_space : ink [' '] = 0 := by decide

theorem ink_condition (operator : Operator) (hnumber : (operator.apply attr value).NumberFree) :
    ink (operator.apply attr value).toText.toList + (operator.apply attr value).backslashes =
      (operator.apply attr value).ink := by
  have hvalue := ink_literal (numberFree_apply.mp hnumber)
  have hink : (operator.apply attr value).ink =
      ink attr.toList + ink operator.word.toList + value.ink := by
    cases operator <;> rfl
  rw [toList_condition, backslashes_apply, hink]
  simp only [ink_append, ink_space]
  omega

/-- An expression without numbers is displayed with the ink of a least writing, but for its
backslashes. -/
theorem ink_toText (hnumber : expr.NumberFree) :
    ink expr.toText.toList + expr.backslashes = expr.ink := by
  have hparentheses (s : List Char) : ink ('(' :: ([] ++ (s ++ ([] ++ [')'])))) = 2 + ink s := by
    have hopen : ink ('(' :: (s ++ [')'])) = 1 + ink (s ++ [')']) := ink_append ['('] _
    have hclose : ink [')'] = 1 := by decide
    rw [List.nil_append, List.nil_append, hopen, ink_append, hclose]
    omega
  induction expr with
  | compare attr comparison value => exact ink_condition (.compare comparison) hnumber
  | search attr occurrence value => exact ink_condition (.search occurrence) hnumber
  | present attr =>
    have hnone : (Expr.present attr).backslashes = 0 := rfl
    rw [toList_present, hnone, Expr.ink, ink_append, ink_append, ink_space]
    omega
  | join connective lhs rhs ihl ihr =>
    obtain ⟨hl, hr⟩ := numberFree_join.mp hnumber
    have hlhs := ihl hl
    have hrhs := ihr hr
    rw [toList_join, backslashes_join, Expr.ink]
    simp only [ink_append, ink_space]
    omega
  | group negated inner ih =>
    have hinner := ih hnumber
    have hslashes : (Expr.group negated inner).backslashes = inner.backslashes := rfl
    cases negated with
    | false =>
      rw [toList_group, hparentheses, hslashes, Expr.ink, if_neg Bool.false_ne_true]
      omega
    | true =>
      rw [toList_negation, ink_append, ink_append, hparentheses, ink_space, hslashes, Expr.ink,
        if_pos rfl]
      omega
  | path attr sub =>
    have hnone : (Expr.path attr sub).backslashes = 0 := rfl
    rw [toList_path, hnone, Expr.ink, ink_append, Nat.add_zero]
  | valuePath attr filter sub ih =>
    have hfilter := ih hnumber
    have hslashes : (Expr.valuePath attr filter sub).backslashes = filter.backslashes := rfl
    have hopen (s : List Char) : ink ('[' :: s) = 1 + ink s := ink_append ['['] s
    have hclose (s : List Char) : ink (']' :: s) = 1 + ink s := ink_append [']'] s
    rw [toList_valuePath, hslashes, Expr.ink]
    simp only [List.nil_append, ink_append, hopen, hclose]
    omega

theorem written_condition (operator : Operator) (hnumber : (operator.apply attr value).NumberFree)
    (hslash : (operator.apply attr value).backslashes = 0) :
    (operator.apply attr value).Written (operator.apply attr value).toText.toList := by
  have hspace : Spaced [' '] := by decide
  have hfree : '\\' ∉ value.chars := by
    rw [backslashes_apply] at hslash
    exact List.count_eq_zero.mp hslash
  have hvalue : value.Written value.toText.toList :=
    written_literal (numberFree_apply.mp hnumber) hfree
  rw [toList_condition]
  rcases operator with comparison | occurrence
  · have hword : InAnyCase comparison.operator comparison.operator.toList := by
      cases comparison <;> decide
    exact .compare hspace hword hspace hvalue
  · have hword : InAnyCase occurrence.operator occurrence.operator.toList := by
      cases occurrence <;> decide
    exact .search hspace hword hspace hvalue

/-- An expression without numbers and backslashes is displayed as one of its writings. -/
theorem written_toText (hnumber : expr.NumberFree) (hslash : expr.backslashes = 0) :
    expr.Written expr.toText.toList := by
  have hspace : Spaced [' '] := by decide
  induction expr with
  | compare attr comparison value => exact written_condition (.compare comparison) hnumber hslash
  | search attr occurrence value => exact written_condition (.search occurrence) hnumber hslash
  | present attr =>
    rw [toList_present]
    exact .present hspace (by decide)
  | join connective lhs rhs ihl ihr =>
    obtain ⟨hl, hr⟩ := numberFree_join.mp hnumber
    rw [backslashes_join, Nat.add_eq_zero_iff] at hslash
    have hword : InAnyCase connective.keyword connective.keyword.toList := by
      cases connective <;> decide
    rw [toList_join]
    exact .join (ihl hl hslash.1) hspace hword hspace (ihr hr hslash.2)
  | group negated inner ih =>
    have hinner := ih hnumber hslash
    cases negated with
    | false =>
      rw [toList_group]
      exact .group .nil hinner .nil
    | true =>
      rw [toList_negation]
      exact .negation (by decide) hspace.blanks .nil hinner .nil
  | path attr sub =>
    rw [toList_path]
    exact .path
  | valuePath attr filter sub ih =>
    rw [toList_valuePath]
    exact .valuePath .nil (ih hnumber hslash) .nil

end Parts

/-- Whatever is read from the text of an expression as that expression has names that keep the rule
and no backslashes. -/
theorem named_of_toText_read_back {limits : Limits} {mode : Mode} (hnumber : expr.NumberFree)
    (h : parseWithin limits mode expr.toText = .ok expr) :
    expr.Named mode ∧ expr.BackslashFree := by
  have hshown := shown_of_parseWithin h
  have hdisplayed := ink_toText hnumber
  have hink := hshown.ink_le
  refine ⟨hshown.named (by omega), ?_⟩
  rw [← backslashes_eq_zero_iff]
  omega

/-- An expression without numbers that was read is read again from its text, whatever its length,
exactly when its names keep the rule for names and no text in it has a backslash. -/
theorem displayed_expression_is_read_back_iff (limits : Limits) (maxLength : Nat) (mode : Mode)
    (text : String) (expr : Expr) (hread : parseWithin limits mode text = .ok expr)
    (hnumber : expr.NumberFree) (hlength : byteLength expr.toText.toList ≤ maxLength) :
    parseWithin ⟨maxLength, limits.maxDepth⟩ mode expr.toText = .ok expr ↔
      expr.Named mode ∧ expr.BackslashFree := by
  constructor
  · exact named_of_toText_read_back hnumber
  · rintro ⟨hnamed, hfree⟩
    have hshown := shown_of_parseWithin hread
    have hwritten := written_toText hnumber (backslashes_eq_zero_iff.mpr hfree)
    have htext : expr.toText.toList = [] ++ (expr.toText.toList ++ []) := by
      rw [List.nil_append, List.append_nil]
    exact parseWithin_of_written htext .nil hwritten .nil ⟨hshown.shaped, hnamed⟩ hlength
      hshown.depth_le

/-- A quote in a text and a schema prefix of a name are read again from what is displayed of
them. -/
theorem displayed_expression_is_read_back_of_quote :
    let expr : Expr := .join .and (.compare "a" .eq (.text "\"b")) (.group true (.present "c"))
    parse .filter "urn:ietf:params:scim:schemas:core:2.0:User:a EQ \"\\\"b\" AND NOT(c PR)" =
        .ok expr ∧
      expr.NumberFree ∧ byteLength expr.toText.toList ≤ 64 ∧
      parseWithin ⟨64, 32⟩ .filter "a eq \"\\\"b\" and not (c pr)" = .ok expr := by
  intro expr
  have hread : parse .filter
      "urn:ietf:params:scim:schemas:core:2.0:User:a EQ \"\\\"b\" AND NOT(c PR)" = .ok expr := by
    rw [← except_toOption_eq_some]
    decide +kernel
  have hnumber : expr.NumberFree := by
    simp [expr, Expr.NumberFree, Expr.literals]
  have hfree : expr.BackslashFree := by
    rw [← backslashes_eq_zero_iff]
    decide
  have hlength : byteLength expr.toText.toList ≤ 64 := by decide
  have hagain :=
    displayed_expression_is_read_back_iff .standard 64 .filter _ expr hread hnumber hlength
  exact ⟨hread, hnumber, hlength, hagain.mpr ⟨by decide, hfree⟩⟩

/-- A backslash is displayed as it is, and then escapes the quote after it. A name that is displayed
without its schema prefix may be the keyword of a negation. Neither is read again, whatever the
limits. -/
theorem display_is_not_read_back_of_backslash_or_prefix :
    let quoted : Expr := .compare "a" .eq (.text "\\")
    let bare : Expr := .present "not"
    (parse .filter "a eq \"\\\\\"" = .ok quoted ∧ quoted.toText = "a eq \"\\\"" ∧
      ∀ limits, parseWithin limits .filter quoted.toText ≠ .ok quoted) ∧
    parse .filter "urn:ietf:params:scim:schemas:core:2.0:User:not pr" = .ok bare ∧
      bare.toText = "not pr" ∧
      ∀ limits, parseWithin limits .filter bare.toText ≠ .ok bare := by
  intro quoted bare
  refine ⟨⟨?_, by decide, ?_⟩, ?_, by decide, ?_⟩
  · rw [← except_toOption_eq_some]
    decide +kernel
  · intro limits hread
    have hnumber : quoted.NumberFree := by
      simp [quoted, Expr.NumberFree, Expr.literals]
    obtain ⟨_, hfree⟩ := named_of_toText_read_back hnumber hread
    exact hfree "\\" (List.mem_singleton_self _) (by decide)
  · rw [← except_toOption_eq_some]
    decide +kernel
  · intro limits hread
    have hnumber : bare.NumberFree := fun _ h => nomatch h
    obtain ⟨hnamed, _⟩ := named_of_toText_read_back hnumber hread
    revert hnamed
    decide

end Filter
end ScimDirectory
