import ScimDirectory.Proofs.Filter.Walking

/-!
# Boundaries

Walking through a text by offsets gives what reading it gives, and every offset is a boundary. After
a chain the cursor may stand behind blanks that the reader has left, because it has looked for one
more keyword there; what is read next begins behind blanks anyway. So where an error tells a
position, the text can be cut there.
-/

namespace ScimDirectory

/-- The position that an error tells, if it tells one. -/
def SyntaxError.position? : SyntaxError → Option Nat
  | .fault _ position | .nestedValueFilter position => some position
  | .tooLong _ _ | .tooDeep _ => none

namespace Filter
namespace Walk

/-- An answer for another one, perhaps with the blanks skipped that follow what is read. -/
inductive Trimmed {α : Type} :
    Except Stop (α × List Char) → Except Stop (α × List Char) → Prop where
  /-- The answers are the same. -/
  | same (answer) : Trimmed answer answer
  /-- Blanks have been skipped. -/
  | skipped (a rest) : Trimmed (.ok (a, Text.skipBlanks rest)) (.ok (a, rest))

variable {limits : Limits} {text s t rest : List Char} {α β : Type} {walk : Walk α}
  {f : α → Walk β} {a : α} {answer : Except Stop (α × List Char)}

section Trimming

/-- A walk gives what a reader answers, but may have skipped blanks after it. -/
def Leads (limits : Limits) (text : List Char) {α : Type} (walk : Walk α) (s : List Char)
    (answer : Except Stop (α × List Char)) : Prop :=
  ∃ trimmed, Trimmed trimmed answer ∧ Reads limits text walk s trimmed

theorem Reads.leads (h : Reads limits text walk s answer) : Leads limits text walk s answer :=
  ⟨answer, .same answer, h⟩

theorem Leads.of_suffix (h : s <:+ text → Leads limits text walk s answer) :
    Leads limits text walk s answer := by
  by_cases hsuffix : s <:+ text
  · exact h hsuffix
  · exact Reads.leads fun _ hcursor => absurd hcursor.suffix hsuffix

theorem Leads.stopped {stop : Stop} (h : Leads limits text walk s (.error stop)) :
    Reads limits text (walk >>= f) s (.error stop) := by
  obtain ⟨trimmed, htrimmed, hreads⟩ := h
  cases htrimmed
  exact hreads.bind (g := fun _ => .error stop) fun _ _ hread => nomatch hread

theorem Reads.next_leads {answer : Except Stop (β × List Char)}
    (h : Reads limits text walk s (.ok (a, rest))) (hf : Leads limits text (f a) rest answer) :
    Leads limits text (walk >>= f) s answer := by
  obtain ⟨trimmed, htrimmed, hreads⟩ := hf
  exact ⟨trimmed, htrimmed, h.next hreads⟩

/-- What is read is followed by the same but for blanks. -/
theorem Leads.exists_last (h : Leads limits text walk s (.ok (a, rest))) :
    ∃ last, Text.skipBlanks last = Text.skipBlanks rest ∧ last.length ≤ rest.length ∧
      Reads limits text walk s (.ok (a, last)) := by
  obtain ⟨trimmed, htrimmed, hreads⟩ := h
  cases htrimmed with
  | same => exact ⟨rest, rfl, Nat.le_refl _, hreads⟩
  | skipped => exact ⟨_, skipBlanks_skipBlanks rest, (skipBlanks_suffix rest).length_le, hreads⟩

/-- A walk may go on from where the reader does or from behind the blanks there. -/
theorem Leads.bind {g : α × List Char → Except Stop (β × List Char)}
    (h : Leads limits text walk s answer)
    (hf : ∀ a rest last, answer = .ok (a, rest) → Text.skipBlanks last = Text.skipBlanks rest →
      last.length ≤ rest.length → Leads limits text (f a) last (g (a, rest))) :
    Leads limits text (walk >>= f) s (answer.bind g) := by
  cases answer with
  | error stop => exact h.stopped.leads
  | ok read =>
    obtain ⟨last, hsame, hlength, hreads⟩ := h.exists_last
    exact hreads.next_leads (hf read.1 read.2 last rfl hsame hlength)

/-- Where blanks are skipped next, it is no matter whether they have been. -/
theorem Leads.skipBlanks {g : α × List Char → Except Stop (β × List Char)}
    (h : Leads limits text walk s answer)
    (hf : ∀ a rest, Reads limits text (f a) (Text.skipBlanks rest) (g (a, rest))) :
    Reads limits text (do let a ← walk; skip text Text.isBlank; f a) s (answer.bind g) := by
  cases answer with
  | error stop => exact h.stopped
  | ok read =>
    obtain ⟨last, hsame, -, hreads⟩ := h.exists_last
    refine hreads.next (reads_skipBlanks.next ?_)
    rw [hsame]
    exact hf read.1 read.2

end Trimming

section Chains

variable {connective : Connective} {operand : Walk Expr} {reader : Reader Expr} {lhs : Expr}

/-- A chain ends behind blanks where no keyword follows them. -/
theorem leads_joined_of_none {count : Nat} (hkeyword : keyword? connective.keyword s = none)
    (hsame : Text.skipBlanks t = Text.skipBlanks s) :
    Leads limits text (joined text connective operand (count + 1) lhs) t (.ok (lhs, s)) := by
  have hnone : keyword? connective.keyword t = none := (keyword?_congr hsame).trans hkeyword
  exact ⟨_, .skipped lhs s, (reads_takeKeyword_of_none hnone hsame).no (reads_pure lhs)⟩

/-- Further operands are read by walking, perhaps from behind the blanks that the reader starts
with. The induction is on how many the reader allows; the loop allows enough, because a keyword
takes characters. -/
theorem leads_joined (hoperand : ∀ s, Leads limits text operand s (reader s))
    (hshrinks : Shrinks reader) {count bound : Nat} (hsame : Text.skipBlanks t = Text.skipBlanks s)
    (hcount : t.length ≤ count) (hbound : s.length ≤ bound) :
    Leads limits text (joined text connective operand (count + 1) lhs) t
      (Filter.joined connective reader bound lhs s) := by
  induction bound generalizing lhs s t count with
  | zero =>
    obtain rfl := List.eq_nil_of_length_eq_zero (Nat.le_zero.mp hbound)
    exact leads_joined_of_none (by cases connective <;> rfl) hsame
  | succ bound ih =>
    rw [joined_succ]
    cases hkeyword : keyword? connective.keyword s with
    | none => exact leads_joined_of_none hkeyword hsame
    | some after =>
      have htaken : keyword? connective.keyword t = some after :=
        (keyword?_congr hsame).trans hkeyword
      have hfewer := length_lt_of_keyword?_eq_some htaken
      have hafter := length_lt_of_keyword?_eq_some hkeyword
      -- From either start the keyword ends at the same place, where the operand begins.
      refine (reads_takeKeyword_of_some htaken).next_leads ?_
      refine (hoperand after).bind fun rhs rest last hrhs hlast hlength => ?_
      have hrest := hshrinks hrhs
      obtain ⟨count, rfl⟩ := Nat.exists_eq_add_of_lt (Nat.lt_of_lt_of_le hfewer hcount)
      exact ih hlast (by omega) (by omega)

theorem leads_chain (hoperand : ∀ s, Leads limits text operand s (reader s))
    (hshrinks : Shrinks reader) (s : List Char) :
    Leads limits text (chain text connective operand) s (Filter.chain connective reader s) := by
  refine .of_suffix fun hsuffix => ?_
  rw [chain_eq_bind]
  refine (hoperand s).bind fun lhs rest last hlhs hsame hlength => ?_
  have hrest := hshrinks hlhs
  have htext := length_le_of_suffix hsuffix
  exact leads_joined hoperand hshrinks hsame (by omega) (Nat.le_refl _)

end Chains

section Operands

variable {scope : Scope} {reader : Filter.Scope} {inValueFilter negated : Bool} {attr : String}

/-- A scope of walks gives what a scope of readers answers. -/
def Scope.Leads (limits : Limits) (text : List Char) (scope : Scope) (reader : Filter.Scope) :
    Prop :=
  ∀ inValueFilter s, Walk.Leads limits text (scope.enter limits inValueFilter) s
    (reader.enter inValueFilter s)

/-- A group is closed behind blanks, where the walk through its filter may have gone already. -/
theorem reads_group (hscope : scope.Leads limits text reader) :
    Reads limits text (group limits text scope inValueFilter negated) s
      (Filter.group reader inValueFilter negated s) := by
  rw [group_eq_bind]
  refine (hscope inValueFilter s).skipBlanks fun inner rest => ?_
  dsimp only
  generalize Text.skipBlanks rest = t
  split
  · exact (reads_take_of_pos rfl).yes (reads_pure _)
  · next hplain =>
    exact (reads_take_of_neg (any_head?_eq_false hplain)).no
      (reads_here.next (reads_fault .unclosedGroup t))

theorem reads_valueFilter (hscope : scope.Leads limits text reader) :
    Reads limits text (valueFilter limits text scope inValueFilter) ('[' :: s)
      (Filter.valueFilter reader inValueFilter ('[' :: s)) := by
  cases inValueFilter with
  | true => exact reads_here.next fun _ hcursor => .stop hcursor
  | false =>
    rw [valueFilter_eq_bind]
    refine (reads_advance '[' s).next ((hscope true s).skipBlanks fun filter rest => ?_)
    dsimp only
    generalize Text.skipBlanks rest = t
    split
    · exact (reads_take_of_pos rfl).yes (reads_pure _)
    · next hplain =>
      exact (reads_take_of_neg (any_head?_eq_false hplain)).no
        (reads_here.next (reads_fault .unclosedValueFilter t))

theorem condition_skipBlanks (attr : String) (s : List Char) :
    Filter.condition attr (Text.skipBlanks s) = Filter.condition attr s := by
  unfold Filter.condition
  rw [skipBlanks_skipBlanks]

theorem reads_afterName (hscope : scope.Leads limits text reader) (attr : String) (s : List Char) :
    Reads limits text (afterName limits text scope inValueFilter attr) s
      (Filter.afterName reader inValueFilter attr s) := by
  by_cases hopen : ∃ inner, s = '[' :: inner
  · obtain ⟨inner, rfl⟩ := hopen
    rw [afterName_eq_bind]
    refine (reads_sees rfl).yes ((reads_valueFilter hscope).bind fun filter rest _ => ?_)
    split
    · next hdot =>
      cases hdot
      exact (reads_sees rfl).yes (reads_here.next (reads_fault .subAttributeInFilter _))
    · next hplain hend =>
      cases hend
      exact (reads_sees (any_head?_eq_false hplain)).no (reads_pure _)
  · have hplain : ∀ inner, s = '[' :: inner → False := fun inner hs => hopen ⟨inner, hs⟩
    rw [afterName_of_plain hplain]
    refine (reads_sees (any_head?_eq_false hplain)).no ?_
    cases hpresent : keyword? "pr" s with
    | some rest => exact (reads_takeKeyword_of_some hpresent).yes (reads_pure _)
    | none =>
      refine (reads_takeKeyword_of_none hpresent rfl).no ?_
      rw [← condition_skipBlanks]
      exact reads_condition attr

theorem reads_operand (hscope : scope.Leads limits text reader) (s : List Char) :
    Reads limits text (operand limits text scope inValueFilter) s
      (Filter.operand reader inValueFilter s) := by
  refine reads_skipBlanks.next ?_
  cases hnot : keyword? "not" (Text.skipBlanks s) with
  | some after =>
    refine (reads_takeKeyword_of_some hnot).yes (reads_skipBlanks.next ?_)
    by_cases hopen : ∃ inner, Text.skipBlanks after = '(' :: inner
    · obtain ⟨inner, hopen⟩ := hopen
      rw [operand_of_negated hnot hopen, hopen]
      exact (reads_take_of_pos rfl).yes (reads_group hscope)
    · have hplain := not_exists.mp hopen
      rw [operand_of_bareNegation hnot hplain]
      exact (reads_take_of_neg (any_head?_eq_false hplain)).no
        (reads_here.next (reads_fault .notWithoutGroup _))
  | none =>
    refine (reads_takeKeyword_of_none hnot (skipBlanks_skipBlanks s)).no ?_
    by_cases hopen : ∃ inner, Text.skipBlanks s = '(' :: inner
    · obtain ⟨inner, hopen⟩ := hopen
      rw [operand_of_open hnot hopen, hopen]
      exact (reads_take_of_pos rfl).yes (reads_group hscope)
    · have hplain := not_exists.mp hopen
      rw [operand_of_plain hnot hplain]
      exact (reads_take_of_neg (any_head?_eq_false hplain)).no
        (reads_name.bind fun attr rest _ => reads_afterName hscope attr rest)

end Operands

section Texts

variable {depth : Nat} {inValueFilter : Bool} {mode : Mode}

theorem filter_eq_chain (depth : Nat) (inValueFilter : Bool) :
    filter limits text depth inValueFilter =
      chain text .or (chain text .and
        (operand limits text (scopeOf limits text depth) inValueFilter)) := by
  cases depth <;> rfl

theorem leads_filter_of_scope
    (hscope : (scopeOf limits text depth).Leads limits text (Filter.scopeOf depth))
    (inValueFilter : Bool) (s : List Char) :
    Leads limits text (filter limits text depth inValueFilter) s
      (Filter.filter depth inValueFilter s) := by
  rw [Filter.filter_eq_chain, filter_eq_chain]
  refine leads_chain (fun s => ?_) (conjunctionAt_shrinks depth inValueFilter) s
  exact leads_chain (fun s => (reads_operand hscope s).leads)
    (operandAt_shrinks depth inValueFilter) s

/-- Scopes are read by walking. The induction is on how many may be open. -/
theorem leads_scopeOf (depth : Nat) :
    (scopeOf limits text depth).Leads limits text (Filter.scopeOf depth) := by
  induction depth with
  | zero => exact fun _ _ => Reads.leads fun _ hcursor => .stop hcursor
  | succ depth ih => exact leads_filter_of_scope ih

theorem reads_path (depth : Nat) (s : List Char) :
    Reads limits text (path limits text depth) s (Filter.path depth s) := by
  have hname : Reads limits text (name text) s (Filter.name s) := reads_name
  cases hread : Filter.name s with
  | error stop =>
    rw [hread] at hname
    rw [path_of_error hread]
    exact hname.leads.stopped
  | ok read =>
    obtain ⟨attr, rest⟩ := read
    rw [hread] at hname
    refine hname.next ?_
    by_cases hopen : ∃ inner, rest = '[' :: inner
    · obtain ⟨inner, rfl⟩ := hopen
      rw [path_eq_bind hread]
      refine (reads_sees rfl).yes ((reads_valueFilter (leads_scopeOf depth)).bind ?_)
      intro filter rest _
      split
      · next hdot =>
        cases hdot
        exact (reads_take_of_pos rfl).yes (reads_name.map _)
      · next hplain hend =>
        cases hend
        exact (reads_take_of_neg (any_head?_eq_false hplain)).no (reads_pure _)
    · have hplain := not_exists.mp hopen
      rw [path_of_plain hread hplain]
      exact (reads_sees (any_head?_eq_false hplain)).no (reads_pure _)

theorem leads_expression (mode : Mode) (s : List Char) :
    Leads limits text (expression limits text mode) s (Filter.expression limits mode s) := by
  cases mode with
  | filter => exact leads_filter_of_scope (leads_scopeOf limits.maxDepth) false s
  | path => exact (reads_path limits.maxDepth s).leads

/-- A whole text is read by walking through it, and nothing is left of it then. -/
theorem reads_whole (mode : Mode) (s : List Char) :
    Reads limits text (whole limits text mode) s
      ((Filter.whole limits mode s).map fun expr => (expr, [])) := by
  rw [whole_eq_bind]
  change Reads limits text _ s ((·, []) <$> (Filter.expression limits mode s >>= _))
  rw [map_bind]
  refine (leads_expression mode s).skipBlanks fun expr rest => ?_
  refine .of_suffix fun hsuffix => reads_here.next ?_
  dsimp only
  generalize Text.skipBlanks rest = t at hsuffix ⊢
  cases t with
  | nil =>
    rw [if_neg fun hlt => (offset_lt_iff hsuffix).mp hlt rfl]
    exact reads_pure expr
  | cons c t =>
    rw [if_pos ((offset_lt_iff hsuffix).mpr (List.cons_ne_nil c t))]
    exact reads_remaining.next (reads_fault _ _)

end Texts
end Walk

variable {limits : Limits} {mode : Mode} {text : String} {p : Nat}

/-- Reading a text is walking through it, and the cursor is at boundaries all the time. -/
theorem exists_walk_parseWithin (limits : Limits) (mode : Mode) (text : String) :
    ∃ offsets, Walk.parseWithin limits mode text = some (parseWithin limits mode text, offsets) ∧
      ∀ p ∈ offsets, IsBoundary text.toList p := by
  unfold Walk.parseWithin parseWithin
  dsimp only
  split
  · exact ⟨[], rfl, fun _ h => nomatch h⟩
  split
  · exact ⟨[], rfl, fun _ h => nomatch h⟩
  have hstart : Cursor.StandsAt text.toList text.toList ⟨0, []⟩ :=
    ⟨List.suffix_refl _, (Nat.sub_self _).symm, fun _ h => nomatch h⟩
  have hwhole : Walk.Outcome limits text.toList
      ((whole limits mode text.toList).map fun expr => (expr, []))
      (Walk.whole limits text.toList mode ⟨0, []⟩) := Walk.reads_whole mode text.toList hstart
  generalize Walk.whole limits text.toList mode ⟨0, []⟩ = given at hwhole ⊢
  generalize whole limits mode text.toList = answer at hwhole ⊢
  cases answer with
  | ok expr =>
    cases hwhole with
    | read hcursor => exact ⟨_, rfl, hcursor.isBoundary⟩
  | error stop =>
    cases hwhole with
    | stop hcursor => exact ⟨_, rfl, hcursor.isBoundary⟩

/-- What tells a position tells a boundary. -/
theorem isBoundary_of_parseWithin {error : SyntaxError}
    (h : parseWithin limits mode text = .error error) (hposition : error.position? = some p) :
    IsBoundary text.toList p := by
  unfold parseWithin at h
  dsimp only at h
  split at h
  · cases h
    cases hposition
  split at h
  · cases h
    cases hposition
    exact ⟨[], text.toList, rfl, rfl⟩
  cases hread : whole limits mode text.toList with
  | ok expr =>
    rw [hread] at h
    cases h
  | error stop =>
    rw [hread] at h
    cases h
    have hwithin := whole_stops hread
    cases stop with
    | fault fault place =>
      cases hposition
      exact isBoundary_offset hwithin
    | tooDeep => cases hposition
    | nestedValueFilter place =>
      cases hposition
      exact isBoundary_offset hwithin

/-- Positions are boundaries of characters. A cursor that is moved through a text by numbers of
bytes is always at one, whatever the text, so the text can be cut wherever the walk cuts it, and the
walk gives what the text is read as. Where an error tells a position, that is the length in bytes of
what comes before it, and no more than the length of the text. -/
theorem positions_are_boundaries (limits : Limits) (mode : Mode) (text : String) :
    (∃ offsets,
      Walk.parseWithin limits mode text = some (parseWithin limits mode text, offsets) ∧
        ∀ p ∈ offsets, String.Pos.Raw.IsValid text ⟨p⟩) ∧
    ∀ error p, parseWithin limits mode text = .error error → error.position? = some p →
      ∃ front rest, text = front ++ rest ∧ p = front.utf8ByteSize ∧ p ≤ text.utf8ByteSize := by
  constructor
  · obtain ⟨offsets, hwalk, hoffsets⟩ := exists_walk_parseWithin limits mode text
    exact ⟨offsets, hwalk, fun p hmem => isBoundary_iff_isValid.mp (hoffsets p hmem)⟩
  · intro error p h hposition
    have hvalid := isBoundary_iff_isValid.mp (isBoundary_of_parseWithin h hposition)
    obtain ⟨front, rest, rfl, hend⟩ := String.Pos.Raw.isValid_iff_exists_append.mp hvalid
    have hbytes : p = front.utf8ByteSize := congrArg String.Pos.Raw.byteIdx hend
    refine ⟨front, rest, rfl, hbytes, ?_⟩
    rw [hbytes, String.utf8ByteSize_append]
    exact Nat.le_add_right _ _

/-- The fault of an escape stands behind a character of two bytes, and a position between the two
bytes is no boundary. -/
theorem positions_are_boundaries_of_escape :
    parseWithin .standard .filter "x eq \"ß\\q\"" = .error (.fault .invalidEscape 9) ∧
    ¬String.Pos.Raw.IsValid "x eq \"ß\\q\"" ⟨7⟩ ∧
    (∃ offsets, Walk.parseWithin .standard .filter "x eq \"ß\\q\"" =
        some (.error (.fault .invalidEscape 9), offsets) ∧
      ∀ p ∈ offsets, String.Pos.Raw.IsValid "x eq \"ß\\q\"" ⟨p⟩) ∧
    ∃ front rest, "x eq \"ß\\q\"" = front ++ rest ∧ 9 = front.utf8ByteSize ∧
      9 ≤ String.utf8ByteSize "x eq \"ß\\q\"" := by
  have hread : parseWithin .standard .filter "x eq \"ß\\q\"" =
      .error (.fault .invalidEscape 9) := by
    decide +kernel
  have hpositions := positions_are_boundaries .standard .filter "x eq \"ß\\q\""
  rw [hread] at hpositions
  exact ⟨hread, by decide +kernel, hpositions.1, hpositions.2 _ 9 rfl rfl⟩

end Filter
end ScimDirectory
