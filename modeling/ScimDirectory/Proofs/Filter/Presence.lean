import ScimDirectory.Proofs.Filter.Cuts
import ScimDirectory.Proofs.Filter.Limits

/-!
# Names before `pr`

A name before `pr` is read as the presence of its attribute, also when it starts with the letters of
a keyword. The characters that go on a keyword are not all of those that go on a name, though: a
minus and a dollar sign are missing. So a name in which one of them follows the letters of `not` is
taken for a negation without its parenthesis, and no other name is taken for anything else.
-/

namespace ScimDirectory.Filter

/-- The letters of `not` stand at the front of a longer name, before a character that goes on a name
but not on a keyword. -/
def HidesNegation (name : List Char) : Prop :=
  ∃ p c rest, name = p ++ c :: rest ∧ InAnyCase "not" p ∧ (c = '-' ∨ c = '$')

variable {limits : Limits} {attr : String} {name s : List Char}

/-- A negation is opened by its own word, or hidden in a longer name. -/
theorem opensNegation_iff : OpensNegation name ↔ InAnyCase "not" name ∨ HidesNegation name := by
  constructor
  · rintro ⟨p, rest, rfl, hp, hrest⟩
    cases rest with
    | nil => exact .inl (by rwa [List.append_nil])
    | cons c rest => exact .inr ⟨p, c, rest, rfl, hp, hrest c rfl⟩
  · rintro (hword | ⟨p, c, rest, rfl, hp, hc⟩)
    · exact ⟨name, [], (List.append_nil name).symm, hword, fun _ h => nomatch h⟩
    · refine ⟨p, c :: rest, rfl, hp, fun d hd => ?_⟩
      obtain rfl := Option.some.inj hd
      exact hc

/-- What is read as a name up to its end, with nothing taken from it, keeps the rule for names. -/
theorem isName_of_name_eq_ok (h : Filter.name attr.toList = .ok (attr, [])) :
    IsName attr.toList := by
  obtain ⟨b, p, -, hsplit, -, hname, -⟩ := name_eq_ok h
  refine hname ?_
  have hlength := congrArg List.length hsplit
  simp only [List.length_append, List.length_nil] at hlength
  exact List.eq_nil_of_length_eq_zero (by omega)

/-- A name that is like no negation is read before `pr`, if the text is not too long. -/
theorem parseWithin_present (hname : IsOperandName attr.toList)
    (hlength : byteLength (attr ++ " pr").toList ≤ limits.maxLength) :
    parseWithin limits .filter (attr ++ " pr") = .ok (.present attr) := by
  have htext : (attr ++ " pr").toList =
      [] ++ ((attr.toList ++ ([' '] ++ "pr".toList)) ++ []) := by
    rw [String.toList_append, List.nil_append, List.append_nil]
    rfl
  have hwritten : (Expr.present attr).Written (attr.toList ++ ([' '] ++ "pr".toList)) :=
    .present (by decide) (by decide)
  exact parseWithin_of_written htext .nil hwritten .nil ⟨trivial, hname⟩ hlength (Nat.zero_le _)

/-- A sign on the word of a negation opens no group. -/
theorem operand_of_signedNegation {scope : Scope} {inValueFilter : Bool} {c : Char}
    {rest : List Char} (hnot : keyword? "not" (Text.skipBlanks s) = some (c :: rest))
    (hc : c = '-' ∨ c = '$') :
    operand scope inValueFilter s = .error (.fault .notWithoutGroup (c :: rest)) := by
  have hsign : Text.isBlank c = false ∧ c ≠ '(' := by rcases hc with rfl | rfl <;> decide
  have hkept : Text.skipBlanks (c :: rest) = c :: rest := skipBlanks_cons hsign.1
  have hplain (inner : List Char) : Text.skipBlanks (c :: rest) ≠ '(' :: inner := by
    rw [hkept]
    exact fun hgroup => hsign.2 (List.cons.inj hgroup).1
  rw [operand_of_bareNegation hnot hplain, hkept]

/-- Where the first operand is refused, the whole filter is. -/
theorem whole_of_operand {stop : Stop} (h : operandAt limits.maxDepth false s = .error stop) :
    whole limits .filter s = .error stop := by
  have hconjunction : conjunctionAt limits.maxDepth false s = .error stop := by
    rw [conjunctionAt, chain_eq_bind, h]
    rfl
  have hfilter : expression limits .filter s = .error stop := by
    rw [expression, filter_eq_chain, chain_eq_bind, hconjunction]
    rfl
  rw [whole_eq_bind, hfilter]
  rfl

/-- A name that hides a negation is taken for one without a parenthesis. -/
theorem parseWithin_hidden (hhides : HidesNegation attr.toList)
    (hlength : byteLength (attr ++ " pr").toList ≤ limits.maxLength) :
    parseWithin limits .filter (attr ++ " pr") = .error (.fault .notWithoutGroup 3) := by
  obtain ⟨p, c, rest, hsplit, hp, hc⟩ := hhides
  have hsign : Text.isBlank c = false ∧ continuesWord c = false := by
    rcases hc with rfl | rfl <;> decide
  have htext : (attr ++ " pr").toList = p ++ c :: (rest ++ " pr".toList) := by
    rw [String.toList_append, hsplit, List.append_assoc, List.cons_append]
  have hnot : keyword? "not" (Text.skipBlanks (attr ++ " pr").toList) =
      some (c :: (rest ++ " pr".toList)) := by
    rw [htext, hp.skipBlanks_append isWord_not]
    exact keyword?_append isWord_not .nil hp hsign.2
  have hread : whole limits .filter (attr ++ " pr").toList =
      .error (.fault .notWithoutGroup (c :: (rest ++ " pr".toList))) :=
    whole_of_operand (operand_of_signedNegation hnot hc)
  have hblank : Text.allBlank (attr ++ " pr") = false := by
    rw [Bool.eq_false_iff]
    intro hblank
    have hall : Blanks (attr ++ " pr").toList := List.all_eq_true.mp hblank
    have hsigned := hall c (htext ▸ List.mem_append_right p List.mem_cons_self)
    rw [hsign.1] at hsigned
    cases hsigned
  have hplace :
      byteLength (attr ++ " pr").toList - byteLength (c :: (rest ++ " pr".toList)) = 3 := by
    have hword : byteLength p = 3 := hp.byteLength_eq
    rw [htext, byteLength_append, hword]
    omega
  rw [parseWithin_of_length_le hlength, hblank, hread]
  simp only [Bool.false_eq_true, if_false, Except.mapError, Stop.toError, hplace]

/-- A name that was read before `pr` hides no negation, and the text was not too long. -/
theorem not_hidesNegation_of_parseWithin
    (hread : parseWithin limits .filter (attr ++ " pr") = .ok (.present attr)) :
    ¬HidesNegation attr.toList ∧ byteLength (attr ++ " pr").toList ≤ limits.maxLength := by
  have hlength : byteLength (attr ++ " pr").toList ≤ limits.maxLength := by
    apply Nat.le_of_not_lt
    intro hlong
    rw [parseWithin_of_tooLong hlong] at hread
    cases hread
  refine ⟨fun hhides => ?_, hlength⟩
  rw [parseWithin_hidden hhides hlength] at hread
  cases hread

/-- A text that is a name by itself, and not the word of a negation, is read before `pr` as the
presence of its attribute exactly when it hides no negation and the text is not too long. A name
that hides a negation is refused behind the letters of `not`. -/
theorem presence_is_read_iff (limits : Limits) (attr : String)
    (hname : Filter.name attr.toList = .ok (attr, [])) (hword : ¬InAnyCase "not" attr.toList) :
    (parseWithin limits .filter (attr ++ " pr") = .ok (.present attr) ↔
      ¬HidesNegation attr.toList ∧ byteLength (attr ++ " pr").toList ≤ limits.maxLength) ∧
    (HidesNegation attr.toList → byteLength (attr ++ " pr").toList ≤ limits.maxLength →
      parseWithin limits .filter (attr ++ " pr") = .error (.fault .notWithoutGroup 3)) := by
  refine ⟨⟨not_hidesNegation_of_parseWithin, fun ⟨hplain, hlength⟩ => ?_⟩, parseWithin_hidden⟩
  refine parseWithin_present ⟨isName_of_name_eq_ok hname, ?_⟩ hlength
  rw [opensNegation_iff]
  exact not_or.mpr ⟨hword, hplain⟩

/-- A name that goes on the letters of `not` with another letter is read, though a minus is in it
too. -/
theorem presence_is_read_iff_of_notes :
    Filter.name "Notes-1".toList = .ok ("Notes-1", []) ∧ ¬InAnyCase "not" "Notes-1".toList ∧
      parseWithin ⟨10, 0⟩ .filter "Notes-1 pr" = .ok (.present "Notes-1") := by
  have hname : Filter.name "Notes-1".toList = .ok ("Notes-1", []) := by
    rw [← except_toOption_eq_some]
    decide
  have hword : ¬InAnyCase "not" "Notes-1".toList := by decide
  have hoperand : IsOperandName "Notes-1".toList := by decide
  have hplain : ¬HidesNegation "Notes-1".toList := fun hhides =>
    hoperand.2 (opensNegation_iff.mpr (.inr hhides))
  have hread := (presence_is_read_iff ⟨10, 0⟩ "Notes-1" hname hword).1
  exact ⟨hname, hword, hread.mpr ⟨hplain, by decide⟩⟩

/-- A name that goes on the letters of `not` with a minus or a dollar sign is a name by itself and
is not read before `pr`, whatever the limits. -/
theorem presence_is_not_read_of_hidden_negation :
    (Filter.name "not-x".toList = .ok ("not-x", []) ∧ ¬InAnyCase "not" "not-x".toList ∧
      ∀ limits, parseWithin limits .filter "not-x pr" ≠ .ok (.present "not-x")) ∧
    (Filter.name "NOT$".toList = .ok ("NOT$", []) ∧ ¬InAnyCase "not" "NOT$".toList ∧
      ∀ limits, parseWithin limits .filter "NOT$ pr" ≠ .ok (.present "NOT$")) := by
  have hminus : HidesNegation "not-x".toList :=
    ⟨['n', 'o', 't'], '-', ['x'], by decide, by decide, .inl rfl⟩
  have hdollar : HidesNegation "NOT$".toList :=
    ⟨['N', 'O', 'T'], '$', [], by decide, by decide, .inr rfl⟩
  have htexts : "not-x pr" = "not-x" ++ " pr" ∧ "NOT$ pr" = "NOT$" ++ " pr" := by decide
  rw [htexts.1, htexts.2]
  refine ⟨⟨?_, by decide, ?_⟩, ?_, by decide, ?_⟩
  · rw [← except_toOption_eq_some]
    decide
  · exact fun limits hread => (not_hidesNegation_of_parseWithin hread).1 hminus
  · rw [← except_toOption_eq_some]
    decide
  · exact fun limits hread => (not_hidesNegation_of_parseWithin hread).1 hdollar

end ScimDirectory.Filter
