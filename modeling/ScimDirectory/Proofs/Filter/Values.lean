import ScimDirectory.Proofs.Filter.Names
import ScimDirectory.Proofs.Traversal

/-!
# Reading values and conditions

A value is read from any writing of it, and so is an operator with its value. What was read took
at least as much ink as the value needs: an escape stands for one character, and the characters
that need an escape are told apart by nothing else.
-/

namespace ScimDirectory

open ScimDirectory.Filter

/-- The least ink of a writing. A number has writings of many kinds and counts for nothing. -/
def Literal.ink : Literal → Nat
  | .text s => 2 + Filter.ink (escaped s.toList)
  | .bool b => Filter.ink (Text.truth b).toList
  | .number _ => 0
  | .null => Filter.ink "null".toList

namespace Filter

/-- The word of an operator. -/
def Operator.word : Operator → String
  | compare comparison => comparison.operator
  | search occurrence => occurrence.operator

variable {b s t v w rest : List Char} {value : Literal} {attr word : String}

theorem escaped_cons (c : Char) (s : List Char) :
    escaped (c :: s) = escaped [c] ++ escaped s := by
  unfold escaped
  rw [← List.flatMap_append]
  rfl

theorem escaped_singleton (c : Char) :
    escaped [c] = if c = '"' ∨ c = '\\' then ['\\', c] else [c] := by
  unfold escaped
  rw [List.flatMap_cons, List.flatMap_nil, List.append_nil]

/-- An escaped text is read as the text. -/
theorem stringBody_escaped (s rest : List Char) :
    stringBody (escaped s ++ '"' :: rest) = .ok (s, rest) := by
  induction s with
  | nil => rfl
  | cons c s ih =>
    rw [escaped_cons, escaped_singleton]
    by_cases hescape : c = '"' ∨ c = '\\'
    · have hunescape : unescape? c = some c := by
        rcases hescape with rfl | rfl <;> rfl
      rw [if_pos hescape]
      simp only [List.cons_append, List.nil_append]
      rw [stringBody, hunescape]
      simp only [ih, Except.map]
    · rw [if_neg hescape]
      simp only [List.cons_append, List.nil_append]
      have hquote : c ≠ '"' := fun h => hescape (.inl h)
      have hslash : c ≠ '\\' := fun h => hescape (.inr h)
      rw [stringBody]
      · simp only [ih, Except.map]
      all_goals grind

/-- An escape has the ink of the character that it stands for, escaped itself. -/
theorem ink_escaped_le_of_unescape? {c d : Char} (h : unescape? c = some d) :
    ink (escaped [d]) ≤ ink ['\\', c] := by
  unfold unescape? at h
  split at h
  · next hself =>
    cases h
    rcases hself with rfl | rfl | rfl <;> decide
  · split at h
    · next hline => subst hline; cases h; decide
    · split at h
      · next htab => subst htab; cases h; decide
      · split at h
        · next hreturn => subst hreturn; cases h; decide
        · cases h

/-- What was read as a text took the ink of its escaped characters and of the closing quote. -/
theorem stringBody_eq_ok {chars : List Char} (h : stringBody s = .ok (chars, rest)) :
    ∃ t, s = t ++ rest ∧ ink (escaped chars) + 1 ≤ ink t := by
  fun_induction stringBody s generalizing chars with
  | case1 => cases h
  | case2 rest' =>
    cases h
    exact ⟨['"'], rfl, by decide⟩
  | case3 => cases h
  | case4 c s hunescape => cases h
  | case5 c s d hunescape ih =>
    obtain ⟨read, hbody, hread⟩ := except_map_eq_ok.mp h
    cases hread
    obtain ⟨t, ht, hink⟩ := ih hbody
    refine ⟨'\\' :: c :: t, by rw [ht]; rfl, ?_⟩
    have hescape := ink_escaped_le_of_unescape? hunescape
    have htaken : ink ('\\' :: c :: t) = ink ['\\', c] + ink t := ink_append ['\\', c] t
    rw [escaped_cons, ink_append, htaken]
    omega
  | case6 c s hquote hlast hslash ih =>
    obtain ⟨read, hbody, hread⟩ := except_map_eq_ok.mp h
    cases hread
    obtain ⟨t, ht, hink⟩ := ih hbody
    refine ⟨c :: t, by rw [ht]; rfl, ?_⟩
    have hplain : ¬(c = '"' ∨ c = '\\') := by
      rintro (rfl | rfl)
      · exact hquote rfl
      · cases s with
        | nil => exact hlast rfl rfl
        | cons d s => exact hslash d s rfl rfl
    have htaken : ink (c :: t) = ink [c] + ink t := ink_append [c] t
    rw [escaped_cons, escaped_singleton, if_neg hplain, ink_append, htaken]
    omega

theorem afterSign_suffix (s : List Char) : afterSign s <:+ s := by
  unfold afterSign
  split
  · exact List.suffix_cons _ _
  · exact List.suffix_cons _ _
  · exact List.suffix_refl s

/-- What follows a number ends the text. -/
theorem afterNumber_suffix (s : List Char) : afterNumber s <:+ s := by
  have hdigits (s : List Char) : (afterSign s).dropWhile Char.isDigit <:+ s :=
    (List.dropWhile_suffix _).trans (afterSign_suffix s)
  have hfraction {rest : List Char} (h : '.' :: rest <:+ s) : rest.dropWhile Char.isDigit <:+ s :=
    (List.dropWhile_suffix _).trans ((List.suffix_cons _ _).trans h)
  have hexponent {c : Char} {rest : List Char} (h : c :: rest <:+ s) :
      (afterSign rest).dropWhile Char.isDigit <:+ s :=
    (hdigits rest).trans ((List.suffix_cons _ _).trans h)
  unfold afterNumber
  simp only
  have hwhole := hdigits s
  generalize (afterSign s).dropWhile Char.isDigit = digits at hwhole ⊢
  split
  · next mark =>
    split at mark
    · exact hexponent (mark ▸ hfraction hwhole)
    · exact hexponent (mark ▸ hwhole)
  · next mark =>
    split at mark
    · exact hexponent (mark ▸ hfraction hwhole)
    · exact hexponent (mark ▸ hwhole)
  · split
    · exact hfraction hwhole
    · exact hwhole

/-- What was read as a number is one. -/
theorem number_eq_ok (h : number s = .ok (value, rest)) :
    ∃ t, s = t ++ rest ∧ ∃ x, value = .number x := by
  obtain ⟨t, ht⟩ := afterNumber_suffix s
  unfold number at h
  simp only at h
  split at h
  · next x _ =>
    cases h
    exact ⟨t, ht.symm, x, rfl⟩
  · cases h

theorem isWord_true : IsWord "true" := by decide

theorem isWord_false : IsWord "false" := by decide

theorem isWord_null : IsWord "null" := by decide

theorem not_startsNumber_of_letter {c : Char} (h : Text.isAsciiLetter c = true) :
    startsNumber c = false := by
  rw [Bool.eq_false_iff]
  intro hstart
  simp only [startsNumber, Bool.or_eq_true, beq_iff_eq, isDigit_iff] at hstart
  rcases hstart with (hdigit | rfl) | rfl
  · rw [isAsciiLetter_iff] at h
    omega
  · cases h
  · cases h

/-- A word where a value stands is read as a keyword. -/
theorem literal_word (hword : IsWord word) (hb : Blanks b) (hw : InAnyCase word w) :
    literal (b ++ (w ++ rest)) =
      match keyword? "true" (w ++ rest), keyword? "false" (w ++ rest),
        keyword? "null" (w ++ rest) with
      | some rest, _, _ => .ok (.bool true, rest)
      | _, some rest, _ => .ok (.bool false, rest)
      | _, _, some rest => .ok (.null, rest)
      | _, _, _ => .error (.fault .missingValue (w ++ rest)) := by
  have hskip : Text.skipBlanks (b ++ (w ++ rest)) = w ++ rest := by
    rw [hb.skipBlanks_append, hw.skipBlanks_append hword]
  obtain ⟨c, chars, rfl, hletter, _⟩ := hw.exists_cons hword
  have hnumber : ((c :: chars) ++ rest).head?.any startsNumber = false := by
    exact not_startsNumber_of_letter hletter
  unfold literal
  rw [hskip]
  split
  · next hquote =>
    cases hquote
    cases hletter
  · rw [hnumber]
    rfl

/-- A value is read, after blanks, from any writing of it. -/
theorem literal_append (hv : value.Written v) (hb : Blanks b) (hrest : Ends rest) :
    literal (b ++ (v ++ rest)) = .ok (value, rest) := by
  have hend := hrest.not_continuesWord
  cases hv with
  | text s =>
    have hskip : Text.skipBlanks (b ++ ('"' :: escaped s.toList ++ ['"'] ++ rest)) =
        '"' :: (escaped s.toList ++ '"' :: rest) := by
      rw [hb.skipBlanks_append, List.append_assoc]
      rfl
    unfold literal
    rw [hskip]
    simp only [stringBody_escaped, Except.map, String.ofList_toList]
  | null hw =>
    have htrue := keyword?_of_other isWord_true isWord_null (by decide) .nil hw rest
    have hfalse := keyword?_of_other isWord_false isWord_null (by decide) .nil hw rest
    have hnull := keyword?_append isWord_null .nil hw hend
    rw [List.nil_append] at htrue hfalse hnull
    rw [literal_word isWord_null hb hw, htrue, hfalse, hnull]
  | @bool truth _ hw =>
    cases truth with
    | true =>
      have htrue := keyword?_append isWord_true .nil hw hend
      rw [List.nil_append] at htrue
      rw [literal_word isWord_true hb hw, htrue]
    | false =>
      have htrue := keyword?_of_other isWord_true isWord_false (by decide) .nil hw rest
      have hfalse := keyword?_append isWord_false .nil hw hend
      rw [List.nil_append] at htrue hfalse
      rw [literal_word isWord_false hb hw, htrue, hfalse]

theorem ink_le_of_keyword?_eq_some (h : keyword? word s = some rest) :
    ∃ t, s = t ++ rest ∧ ink word.toList ≤ ink t := by
  obtain ⟨b, w, hb, rfl, hw, _⟩ := keyword?_eq_some h
  refine ⟨b ++ w, (List.append_assoc _ _ _).symm, ?_⟩
  rw [ink_append, hw.ink_eq]
  exact Nat.le_add_left _ _

/-- What was read as a value took the ink of it. -/
theorem literal_eq_ok (h : literal s = .ok (value, rest)) :
    ∃ t, s = t ++ rest ∧ value.ink ≤ ink t := by
  obtain ⟨b, hb, hs⟩ := exists_blanks s
  suffices ∃ t, Text.skipBlanks s = t ++ rest ∧ value.ink ≤ ink t by
    obtain ⟨t, ht, hink⟩ := this
    refine ⟨b ++ t, ?_, ?_⟩
    · rw [List.append_assoc, ← ht]
      exact hs
    · rw [ink_append]
      omega
  unfold literal at h
  split at h
  · next body hquote =>
    obtain ⟨⟨chars, after⟩, hbody, hread⟩ := except_map_eq_ok.mp h
    cases hread
    obtain ⟨t, ht, hink⟩ := stringBody_eq_ok hbody
    refine ⟨'"' :: t, by rw [hquote, ht]; rfl, ?_⟩
    have htaken : ink ('"' :: t) = 1 + ink t := ink_append ['"'] t
    rw [Literal.ink, String.toList_ofList, htaken]
    omega
  · split at h
    · next htrue => cases h; exact ink_le_of_keyword?_eq_some htrue
    · next hfalse _ => cases h; exact ink_le_of_keyword?_eq_some hfalse
    · next hnull _ _ => cases h; exact ink_le_of_keyword?_eq_some hnull
    · split at h
      · obtain ⟨t, ht, x, rfl⟩ := number_eq_ok h
        exact ⟨t, ht, Nat.zero_le _⟩
      · cases h

theorem Operator.isWord_word (operator : Operator) : IsWord operator.word := by
  rcases operator with comparison | occurrence
  · cases comparison <;> decide
  · cases occurrence <;> decide

/-- Its word names an operator, and no other word does. -/
theorem Operator.ofWord?_eq_some_iff {operator : Operator} :
    ofWord? word = some operator ↔ operator.word = word := by
  constructor
  · intro h
    unfold ofWord? at h
    split at h
    · next comparison hfound =>
      cases h
      have hsame := List.find?_some hfound
      exact beq_iff_eq.mp hsame
    · obtain ⟨occurrence, hfound, rfl⟩ := Option.map_eq_some_iff.mp h
      have hsame := List.find?_some hfound
      exact beq_iff_eq.mp hsame
  · rintro rfl
    rcases operator with comparison | occurrence
    · cases comparison <;> rfl
    · cases occurrence <;> rfl

/-- The letters of a word are taken as far as they go. -/
theorem span_isAsciiLetter (hw : ∀ c ∈ w, Text.isAsciiLetter c = true) (hrest : Ends rest) :
    (w ++ rest).takeWhile Text.isAsciiLetter = w ∧
      (w ++ rest).dropWhile Text.isAsciiLetter = rest := by
  rw [List.takeWhile_append_of_pos hw, List.dropWhile_append_of_pos hw]
  cases rest with
  | nil => exact ⟨List.append_nil w, rfl⟩
  | cons c rest =>
    have hletter : Text.isAsciiLetter c = false := by
      rw [Bool.eq_false_iff]
      intro hletter
      rw [ends_cons, isNameChar_of_letter hletter] at hrest
      cases hrest
    rw [List.takeWhile_cons, List.dropWhile_cons, hletter]
    exact ⟨List.append_nil w, rfl⟩

/-- An operator with its value is read from any writing of them. -/
theorem condition_append {operator : Operator} {b' : List Char} (hb : Blanks b)
    (hw : InAnyCase operator.word w) (hb' : Spaced b') (hv : value.Written v)
    (hrest : Ends rest) :
    condition attr (b ++ (w ++ (b' ++ (v ++ rest)))) = .ok (operator.apply attr value, rest) := by
  have hskip : Text.skipBlanks (b ++ (w ++ (b' ++ (v ++ rest)))) = w ++ (b' ++ (v ++ rest)) := by
    rw [hb.skipBlanks_append, hw.skipBlanks_append operator.isWord_word]
  obtain ⟨htake, hdrop⟩ :=
    span_isAsciiLetter (hw.letters operator.isWord_word) (hb'.ends (v ++ rest))
  have hoperator : Operator.ofWord? (String.ofList (Text.lowerAscii w)) = some operator := by
    rw [Operator.ofWord?_eq_some_iff, hw, String.ofList_toList]
  have hvalue : literal (b' ++ (v ++ rest)) = .ok (value, rest) :=
    literal_append hv hb'.blanks hrest
  unfold condition
  simp only [hskip, htake, hdrop, hoperator, hvalue, Except.map]

/-- What was read as an operator and a value took the ink of them. -/
theorem condition_eq_ok {expr : Expr} (h : condition attr s = .ok (expr, rest)) :
    ∃ operator value t, expr = Operator.apply operator attr value ∧ s = t ++ rest ∧
      ink operator.word.toList + value.ink ≤ ink t := by
  obtain ⟨b, hb, hs⟩ := exists_blanks s
  unfold condition at h
  simp only at h
  generalize Text.skipBlanks s = u at h hs
  split at h
  · next operator hoperator =>
    obtain ⟨⟨value, after⟩, hvalue, hread⟩ := except_map_eq_ok.mp h
    cases hread
    obtain ⟨t, ht, hink⟩ := literal_eq_ok hvalue
    refine ⟨operator, value, b ++ (u.takeWhile Text.isAsciiLetter ++ t), rfl, ?_, ?_⟩
    · rw [List.append_assoc, List.append_assoc, ← ht, List.takeWhile_append_dropWhile]
      exact hs
    · rw [Operator.ofWord?_eq_some_iff] at hoperator
      rw [hoperator, String.toList_ofList, ink_lowerAscii, ink_append, ink_append]
      omega
  · split at h <;> cases h

end Filter
end ScimDirectory
