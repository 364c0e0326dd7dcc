import ScimDirectory.Proofs.Filter.LetterCase
import ScimDirectory.Proofs.Filter.Limits
import ScimDirectory.Proofs.Filter.SmallLetters

/-!
# Readings in small letters

The small form of a text is read like the text itself: as the same expression with its attribute
names in small letters, or with the same fault at the same place. The invariant is that a reading
stops outside of quotes, so what it leaves of the small form is the small form of what it leaves of
the text.
-/

namespace ScimDirectory

/-- The fault with the texts that it quotes in small letters. -/
def Fault.lowered : Fault → Fault
  | .unexpectedInput rest => .unexpectedInput (Text.lowered rest)
  | .unknownOperator word => .unknownOperator (Text.lowered word)
  | .malformedName name => .malformedName (Text.lowered name)
  | .invalidNumber text => .invalidNumber (Text.lowered text)
  | fault => fault

/-- The error with the texts that it quotes in small letters. -/
def SyntaxError.lowered : SyntaxError → SyntaxError
  | .fault f position => .fault f.lowered position
  | error => error

namespace Filter

variable {c : Char} {s rest : List Char}

/-- What is seen of a stop: its kind, with the texts that it quotes in small letters, and the number
of bytes that are left. -/
def Stop.seen : Stop → SyntaxError
  | .fault f place => .fault f.lowered (byteLength place)
  | .tooDeep => .tooDeep 0
  | .nestedValueFilter place => .nestedValueFilter (byteLength place)

/-- How a reading answers for the small form of a text, given how it answers for the text. -/
inductive Echoes {α β : Type} (low : α → β) :
    Except Stop (α × List Char) → Except Stop (β × List Char) → Prop where
  /-- It reads the same in small letters. -/
  | read (a : α) (rest : List Char) : Echoes low (.ok (a, rest)) (.ok (low a, small rest))
  /-- It stops in the same way at the same place. -/
  | stopped {stop stop' : Stop} (h : stop'.seen = stop.seen) :
    Echoes low (.error stop) (.error stop')

namespace Echoes

variable {α α' β β' : Type} {low : α → α'} {low' : β → β'} {x : Except Stop (α × List Char)}
  {y : Except Stop (α' × List Char)}

/-- A fault at a place of the text is one at the small form of the place. -/
theorem fault {fault fault' : Fault} (h : fault'.lowered = fault.lowered) (place : List Char) :
    Echoes low (.error (.fault fault place)) (.error (.fault fault' (small place))) := by
  refine .stopped ?_
  rw [Stop.seen, Stop.seen, h, byteLength_smallFrom]

/-- Readings that follow each other echo when both do. -/
theorem bind (h : Echoes low x y) {f : α × List Char → Except Stop (β × List Char)}
    {g : α' × List Char → Except Stop (β' × List Char)}
    (hfg : ∀ a rest, Echoes low' (f (a, rest)) (g (low a, small rest))) :
    Echoes low' (x.bind f) (y.bind g) := by
  cases h with
  | read a rest => exact hfg a rest
  | stopped h => exact .stopped h

/-- What is made of a reading echoes. -/
theorem map (h : Echoes low x y) {f : α → β} {g : α' → β'} (hfg : ∀ a, g (low a) = low' (f a)) :
    Echoes low' (x.map fun (a, rest) => (f a, rest)) (y.map fun (a, rest) => (g a, rest)) := by
  cases h with
  | read a rest =>
    dsimp only [Except.map]
    rw [hfg]
    exact .read (f a) rest
  | stopped h => exact .stopped h

/-- The text is read in small letters, or both readings stop. -/
theorem cases (h : Echoes low x y) :
    (∃ a rest, x = .ok (a, rest) ∧ y = .ok (low a, small rest)) ∨
      ∃ stop stop', x = .error stop ∧ y = .error stop' ∧ stop'.seen = stop.seen := by
  cases h with
  | read a rest => exact .inl ⟨a, rest, rfl, rfl⟩
  | stopped h => exact .inr ⟨_, _, rfl, rfl, h⟩

end Echoes

/-- Names are split alike in small letters. -/
theorem misplacedDot_lowerAscii (s : List Char) :
    misplacedDot (Text.lowerAscii s) = misplacedDot s := by
  have hdot {c : Char} : c.toLower = '.' ↔ c = '.' := toLower_eq_iff (by decide)
  fun_induction misplacedDot s with
  | case1 => rfl
  | case2 => rfl
  | case3 => rfl
  | case4 c rest hlast hdots ih =>
    rw [← ih]
    simp only [Text.lowerAscii, List.map_cons]
    rw [misplacedDot]
    · intro heq hnil
      exact hlast (hdot.mp heq) (List.map_eq_nil_iff.mp hnil)
    · intro more heq hcons
      obtain ⟨d, others, rfl, hd, -⟩ := List.map_eq_cons_iff.mp hcons
      exact hdots others (hdot.mp heq) (congrArg (· :: others) (hdot.mp hd))

theorem dropSchemas_lowerAscii (word : List Char) :
    dropSchemas (Text.lowerAscii word) = Text.lowerAscii (dropSchemas word) := by
  have hdrop (schema : List Char) : dropSchema? schema (Text.lowerAscii word) =
      (dropSchema? schema word).map Text.lowerAscii := by
    have hlength : (Text.lowerAscii word).length = word.length := List.length_map ..
    unfold dropSchema?
    rw [hlength, Text.lowerAscii_take_congr (Text.lowerAscii_lowerAscii word)]
    split
    · simp only [Option.map_some, Text.lowerAscii, List.map_drop]
    · rfl
  have hall : (dropSchema? · (Text.lowerAscii word)) =
      Option.map Text.lowerAscii ∘ (dropSchema? · word) := funext hdrop
  rw [dropSchemas, dropSchemas, hall, ← List.map_findSome?, Option.getD_map]

/-- A name is read in small letters. -/
theorem name_echoes (s : List Char) : Echoes Text.lowered (name s) (name (small s)) := by
  unfold name
  rw [skipBlanks_small]
  dsimp only
  rw [any_head?_small startsName_toLower, takeWhile_small isNameChar_toLower (by decide),
    dropWhile_small isNameChar_toLower (by decide), misplacedDot_lowerAscii]
  split
  · split
    · refine .fault ?_ _
      rw [Fault.lowered, Fault.lowered, Text.ofList_lowerAscii, Text.lowered_lowered]
    · rw [dropSchemas_lowerAscii, Text.ofList_lowerAscii]
      exact .read _ _
  · exact .fault rfl _

/-- A string is read as it is, whatever the letters after its closing quote. -/
theorem stringBody_echoes (s : List Char) :
    Echoes id (stringBody s) (stringBody (smallFrom true s)) := by
  fun_induction stringBody s with
  | case1 => exact .stopped rfl
  | case2 rest => exact .read [] rest
  | case3 => exact .stopped rfl
  | case4 c rest hescape =>
    simp only [smallFrom, stringBody, hescape]
    refine .stopped ?_
    simp only [Stop.seen, byteLength, List.foldr_cons]
    exact congrArg (fun length => SyntaxError.fault _ (c.utf8Size + length))
      (byteLength_smallFrom true rest)
  | case5 c rest d hescape ih =>
    simp only [smallFrom, stringBody, hescape]
    exact ih.map fun _ => rfl
  | case6 c rest hquote hend hescape ih =>
    have hslash : c ≠ '\\' := by
      rintro rfl
      cases rest with
      | nil => exact hend rfl rfl
      | cons d rest => exact hescape d rest rfl rfl
    have hsmall : smallFrom true (c :: rest) = c :: smallFrom true rest := by
      rw [smallFrom]
      · exact hquote
      · exact fun _ _ heq => absurd heq hslash
    have hbody (rest : List Char) : stringBody (c :: rest) =
        (stringBody rest).map fun read => (c :: read.1, read.2) := by
      rw [stringBody]
      · exact hquote
      · exact fun heq => absurd heq hslash
      · exact fun _ _ heq => absurd heq hslash
    rw [hsmall, hbody]
    exact ih.map fun _ => rfl

theorem number_echoes (s : List Char) : Echoes id (number s) (number (small s)) := by
  have htake {s t rest : List Char} (h : s = t ++ rest) : s.take (s.length - rest.length) = t := by
    subst h
    rw [List.length_append, Nat.add_sub_cancel, List.take_left]
  obtain ⟨hsmall, t, ht, hs⟩ := drops_afterNumber s
  have hsplit : small s = Text.lowerAscii t ++ afterNumber (small s) := by
    rw [hsmall, ← small_append ht, ← hs]
  unfold number
  dsimp only
  rw [htake hs, htake hsplit, Binary64.ofText?_lowerAscii]
  cases Binary64.ofText? t with
  | some x =>
    rw [hsmall]
    exact .read _ _
  | none =>
    refine .fault ?_ s
    rw [Fault.lowered, Fault.lowered, Text.ofList_lowerAscii, Text.lowered_lowered]

/-- A value that is no string is one of three words, or a number. -/
theorem literal_of_plain (h : ∀ rest, Text.skipBlanks s ≠ '"' :: rest) :
    literal s =
      match keyword? "true" (Text.skipBlanks s), keyword? "false" (Text.skipBlanks s),
        keyword? "null" (Text.skipBlanks s) with
      | some rest, _, _ => .ok (.bool true, rest)
      | _, some rest, _ => .ok (.bool false, rest)
      | _, _, some rest => .ok (.null, rest)
      | _, _, _ =>
        if (Text.skipBlanks s).head?.any startsNumber then number (Text.skipBlanks s)
        else .error (.fault .missingValue (Text.skipBlanks s)) := by
  unfold literal
  split
  · next rest heq => exact absurd heq (h rest)
  · rfl

/-- A value is read as it is. -/
theorem literal_echoes (s : List Char) : Echoes id (literal s) (literal (small s)) := by
  have hblanks := skipBlanks_small s
  obtain ⟨rest, hrest⟩ | ⟨hplain, hsmall⟩ := head_cases (c := '"') (by decide) (Text.skipBlanks s)
  · unfold literal
    rw [hblanks, hrest]
    exact (stringBody_echoes rest).map (f := fun value => Literal.text (String.ofList value))
      (g := fun value => Literal.text (String.ofList value)) fun _ => rfl
  · rw [← hblanks] at hsmall
    have hnumber (c : Char) : startsNumber c.toLower = startsNumber c := by
      rw [startsNumber, startsNumber, isDigit_toLower, toLower_beq (by decide),
        toLower_beq (by decide)]
    rw [literal_of_plain hplain, literal_of_plain hsmall, hblanks, keyword?_small (by decide),
      keyword?_small (by decide), keyword?_small (by decide), any_head?_small hnumber]
    cases keyword? "true" (Text.skipBlanks s) with
    | some rest => exact .read _ rest
    | none =>
      cases keyword? "false" (Text.skipBlanks s) with
      | some rest => exact .read _ rest
      | none =>
        cases keyword? "null" (Text.skipBlanks s) with
        | some rest => exact .read _ rest
        | none =>
          simp only [Option.map_none]
          split
          · exact number_echoes _
          · exact .fault rfl _

/-- A condition is read in small letters. -/
theorem condition_echoes (attr : String) (s : List Char) :
    Echoes Expr.lowered (condition attr s) (condition (Text.lowered attr) (small s)) := by
  unfold condition
  rw [skipBlanks_small]
  generalize Text.skipBlanks s = s
  dsimp only
  rw [takeWhile_small isAsciiLetter_toLower (by decide), Text.lowerAscii_lowerAscii,
    dropWhile_small isAsciiLetter_toLower (by decide)]
  cases Operator.ofWord? (String.ofList (Text.lowerAscii (s.takeWhile Text.isAsciiLetter))) with
  | some operator =>
    refine (literal_echoes _).map fun value => ?_
    cases operator <;> rfl
  | none =>
    have hempty : (Text.lowerAscii (s.takeWhile Text.isAsciiLetter)).isEmpty =
        (s.takeWhile Text.isAsciiLetter).isEmpty := List.isEmpty_map
    dsimp only
    rw [hempty]
    split
    · exact .fault rfl s
    · exact .fault rfl s

section Chains

variable {connective : Connective} {operand : Reader Expr}

theorem joined_echoes (hoperand : ∀ s, Echoes Expr.lowered (operand s) (operand (small s)))
    (count : Nat) (lhs : Expr) (s : List Char) :
    Echoes Expr.lowered (joined connective operand count lhs s)
      (joined connective operand count lhs.lowered (small s)) := by
  induction count generalizing lhs s with
  | zero => exact .read lhs s
  | succ count ih =>
    have hword : '"' ∉ connective.keyword.toList := by cases connective <;> decide
    rw [joined_succ, joined_succ, keyword?_small hword]
    cases keyword? connective.keyword s with
    | none => exact .read lhs s
    | some after =>
      exact (hoperand after).bind fun rhs rest => ih (.join connective lhs rhs) rest

theorem chain_echoes (hoperand : ∀ s, Echoes Expr.lowered (operand s) (operand (small s)))
    (s : List Char) :
    Echoes Expr.lowered (chain connective operand s) (chain connective operand (small s)) := by
  rw [chain_eq_bind, chain_eq_bind]
  refine (hoperand s).bind fun lhs rest => ?_
  dsimp only
  rw [length_small]
  exact joined_echoes hoperand rest.length lhs rest

end Chains

section Operands

variable {scope : Scope} {inValueFilter negated : Bool} {attr : String}

/-- The filters of a scope are read in small letters. -/
def ScopeEchoes (scope : Scope) : Prop :=
  ∀ inValueFilter s, Echoes Expr.lowered (scope.enter inValueFilter s)
    (scope.enter inValueFilter (small s))

theorem group_echoes (hscope : ScopeEchoes scope) (s : List Char) :
    Echoes Expr.lowered (group scope inValueFilter negated s)
      (group scope inValueFilter negated (small s)) := by
  rw [group_eq_bind, group_eq_bind]
  refine (hscope inValueFilter s).bind fun inner rest => ?_
  dsimp only
  rw [skipBlanks_small]
  generalize Text.skipBlanks rest = s
  obtain ⟨more, rfl⟩ | ⟨hplain, hsmall⟩ := head_cases (c := ')') (by decide) s
  · exact .read (Expr.group negated inner) more
  · split
    · exact absurd rfl (hplain _)
    · exact .fault rfl s

theorem valueFilter_echoes (hscope : ScopeEchoes scope) (s : List Char) :
    Echoes Expr.lowered (valueFilter scope inValueFilter ('[' :: s))
      (valueFilter scope inValueFilter ('[' :: small s)) := by
  cases inValueFilter with
  | true =>
    have hbytes := byteLength_smallFrom false ('[' :: s)
    exact .stopped (congrArg SyntaxError.nestedValueFilter hbytes)
  | false =>
    rw [valueFilter_eq_bind, valueFilter_eq_bind]
    refine (hscope true s).bind fun filter rest => ?_
    dsimp only
    rw [skipBlanks_small]
    generalize Text.skipBlanks rest = s
    obtain ⟨more, rfl⟩ | ⟨hplain, hsmall⟩ := head_cases (c := ']') (by decide) s
    · exact .read filter more
    · split
      · exact absurd rfl (hplain _)
      · exact .fault rfl s

theorem afterName_echoes (hscope : ScopeEchoes scope) (s : List Char) :
    Echoes Expr.lowered (afterName scope inValueFilter attr s)
      (afterName scope inValueFilter (Text.lowered attr) (small s)) := by
  obtain ⟨inner, rfl⟩ | ⟨hplain, hsmall⟩ := head_cases (c := '[') (by decide) s
  · have hsmall : small ('[' :: inner) = '[' :: small inner := rfl
    rw [hsmall, afterName_eq_bind, afterName_eq_bind]
    refine (valueFilter_echoes hscope inner).bind fun filter rest => ?_
    obtain ⟨more, rfl⟩ | ⟨hplain, hsmall⟩ := head_cases (c := '.') (by decide) rest
    · exact .fault rfl ('.' :: more)
    · split
      · next heq => exact absurd (Prod.mk.inj heq).2 (hplain _)
      · next heq =>
        cases heq
        exact .read (Expr.valuePath attr filter none) rest
  · rw [afterName_of_plain hplain, afterName_of_plain hsmall, keyword?_small (by decide)]
    cases keyword? "pr" s with
    | some rest => exact .read (Expr.present attr) rest
    | none => exact condition_echoes attr s

theorem operand_echoes (hscope : ScopeEchoes scope) (s : List Char) :
    Echoes Expr.lowered (operand scope inValueFilter s)
      (operand scope inValueFilter (small s)) := by
  have hblanks := skipBlanks_small s
  have hword : keyword? "not" (small (Text.skipBlanks s)) =
      (keyword? "not" (Text.skipBlanks s)).map small := keyword?_small (by decide) _
  rw [← hblanks] at hword
  cases hnot : keyword? "not" (Text.skipBlanks s) with
  | some after =>
    rw [hnot] at hword
    have hafter := skipBlanks_small after
    obtain ⟨inner, hinner⟩ | ⟨hplain, hsmall⟩ :=
      head_cases (c := '(') (by decide) (Text.skipBlanks after)
    · rw [operand_of_negated hnot hinner,
        operand_of_negated hword (hafter.trans (congrArg small hinner))]
      exact group_echoes hscope inner
    · rw [← hafter] at hsmall
      rw [operand_of_bareNegation hnot hplain, operand_of_bareNegation hword hsmall, hafter]
      exact .fault rfl _
  | none =>
    rw [hnot] at hword
    obtain ⟨inner, hinner⟩ | ⟨hplain, hsmall⟩ :=
      head_cases (c := '(') (by decide) (Text.skipBlanks s)
    · rw [operand_of_open hnot hinner,
        operand_of_open hword (hblanks.trans (congrArg small hinner))]
      exact group_echoes hscope inner
    · rw [← hblanks] at hsmall
      rw [operand_of_plain hnot hplain, operand_of_plain hword hsmall, hblanks]
      exact (name_echoes _).bind fun attr rest => afterName_echoes hscope rest

end Operands

theorem filter_echoes_of_scope {depth : Nat} (hscope : ScopeEchoes (scopeOf depth))
    (inValueFilter : Bool) (s : List Char) :
    Echoes Expr.lowered (filter depth inValueFilter s) (filter depth inValueFilter (small s)) := by
  rw [filter_eq_chain]
  exact chain_echoes (chain_echoes (operand_echoes hscope)) s

/-- Every scope is read in small letters. The induction is on the number of scopes that may be
open. -/
theorem scopeEchoes_scopeOf (depth : Nat) : ScopeEchoes (scopeOf depth) := by
  induction depth with
  | zero => exact fun _ _ => .stopped rfl
  | succ depth ih => exact filter_echoes_of_scope ih

theorem path_echoes (depth : Nat) (s : List Char) :
    Echoes Expr.lowered (path depth s) (path depth (small s)) := by
  obtain ⟨attr, rest, hname, hname'⟩ | ⟨stop, stop', hname, hname', hseen⟩ :=
    (name_echoes s).cases
  · obtain ⟨inner, rfl⟩ | ⟨hplain, hsmall⟩ := head_cases (c := '[') (by decide) rest
    · rw [path_eq_bind hname, path_eq_bind hname']
      refine (valueFilter_echoes (scopeEchoes_scopeOf depth) inner).bind fun filter rest => ?_
      obtain ⟨more, rfl⟩ | ⟨hplain, hsmall⟩ := head_cases (c := '.') (by decide) rest
      · exact (name_echoes more).map (f := fun sub => Expr.valuePath attr filter (some sub))
          (g := fun sub => Expr.valuePath (Text.lowered attr) filter.lowered (some sub))
          fun _ => rfl
      · split
        · next heq => exact absurd (Prod.mk.inj heq).2 (hplain _)
        · next heq =>
          cases heq
          exact .read (Expr.valuePath attr filter none) rest
    · rw [path_of_plain hname hplain, path_of_plain hname' hsmall]
      exact .read (Expr.path attr none) rest
  · rw [path_of_error hname, path_of_error hname']
    exact .stopped hseen

theorem expression_echoes (limits : Limits) (mode : Mode) (s : List Char) :
    Echoes Expr.lowered (expression limits mode s) (expression limits mode (small s)) := by
  cases mode with
  | filter => exact filter_echoes_of_scope (scopeEchoes_scopeOf _) false s
  | path => exact path_echoes _ s

/-- What nothing follows in a text, nothing follows in its small form. -/
theorem whole_small (limits : Limits) (mode : Mode) (s : List Char) :
    (whole limits mode (small s)).mapError Stop.seen =
      ((whole limits mode s).map Expr.lowered).mapError Stop.seen := by
  have hechoes := expression_echoes limits mode s
  rw [whole_eq_bind, whole_eq_bind]
  generalize expression limits mode s = x at hechoes ⊢
  generalize expression limits mode (small s) = y at hechoes ⊢
  cases hechoes with
  | stopped hseen => exact congrArg Except.error hseen
  | read expr rest =>
    dsimp only [Except.bind]
    rw [skipBlanks_small]
    generalize Text.skipBlanks rest = rest
    have hlength := length_small rest
    have hletters := lowerAscii_smallFrom false rest
    have hbytes := byteLength_smallFrom false rest
    cases rest with
    | nil => rfl
    | cons c rest =>
      split
      · next hnil => rw [hnil] at hlength; cases hlength
      · dsimp only [Except.map, Except.mapError, Stop.seen, Fault.lowered]
        rw [← Text.ofList_lowerAscii, ← Text.ofList_lowerAscii, hletters, hbytes]

/-- Stops that look the same in texts of one length are the same error. -/
theorem lowered_toError {stop stop' : Stop} (h : stop.seen = stop'.seen) {text text' : List Char}
    (hbytes : byteLength text = byteLength text') (limits : Limits) :
    (stop.toError limits text).lowered = (stop'.toError limits text').lowered := by
  cases stop <;> cases stop' <;> simp_all [Stop.seen, Stop.toError, SyntaxError.lowered]

/-- The texts differ at most in the letter case of what stands outside of quotes, as the names of
attributes and the schemas before them do. -/
def Respelled (text text' : String) : Prop := small text.toList = small text'.toList

instance (text text' : String) : Decidable (Respelled text text') :=
  inferInstanceAs (Decidable (_ = _))

namespace Respelled

variable {text text' : String} (h : Respelled text text')

include h

theorem lowerAscii_eq : Text.lowerAscii text.toList = Text.lowerAscii text'.toList := by
  rw [← lowerAscii_smallFrom false, ← lowerAscii_smallFrom false text'.toList]
  exact congrArg Text.lowerAscii h

theorem lowered_eq : Text.lowered text = Text.lowered text' :=
  congrArg String.ofList h.lowerAscii_eq

theorem byteLength_eq : byteLength text.toList = byteLength text'.toList := by
  rw [← byteLength_smallFrom false, ← byteLength_smallFrom false text'.toList]
  exact congrArg byteLength h

theorem allBlank_eq : Text.allBlank text = Text.allBlank text' := by
  have hall (s : List Char) : (Text.lowerAscii s).all Text.isBlank = s.all Text.isBlank := by
    rw [Text.lowerAscii, List.all_map]
    exact congrArg s.all (funext isBlank_toLower)
  rw [Text.allBlank, Text.allBlank, ← hall, h.lowerAscii_eq, hall]

/-- Such texts are read as expressions that differ in the letter case of names, or are refused for
the same fault at the same position. -/
theorem parseWithin_told (limits : Limits) (mode : Mode) :
    ((parseWithin limits mode text).map Expr.lowered).mapError SyntaxError.lowered =
      ((parseWithin limits mode text').map Expr.lowered).mapError SyntaxError.lowered := by
  have hwhole : ((whole limits mode text.toList).map Expr.lowered).mapError Stop.seen =
      ((whole limits mode text'.toList).map Expr.lowered).mapError Stop.seen := by
    rw [← whole_small, ← whole_small]
    exact congrArg (fun s => (whole limits mode s).mapError Stop.seen) h
  have htold (s : List Char) :
      (((whole limits mode s).mapError (·.toError limits s)).map Expr.lowered).mapError
          SyntaxError.lowered =
        ((whole limits mode s).map Expr.lowered).mapError fun stop =>
          (stop.toError limits s).lowered := by
    cases whole limits mode s <;> rfl
  unfold parseWithin
  dsimp only
  rw [h.byteLength_eq, h.allBlank_eq]
  split
  · rfl
  · split
    · rfl
    · rw [htold, htold]
      exact mapError_congr_of_seen hwhole fun _ _ hseen =>
        lowered_toError hseen h.byteLength_eq limits

end Respelled

end Filter
end ScimDirectory
