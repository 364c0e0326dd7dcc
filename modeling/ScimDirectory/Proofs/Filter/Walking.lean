import ScimDirectory.Proofs.Filter.Limits
import ScimDirectory.Proofs.Filter.SmallLetters
import ScimDirectory.Proofs.Filter.Walk
import Mathlib.Data.List.DropRight

/-!
# Walks and readers

A walk gives what a reader answers when it starts at the offset of what the reader is given: the
same value with the cursor at the offset of what follows, or the error of the same stop. Nothing is
cut off a boundary then, because the cursor stands where an end of the text begins, and so it stood
before. Words are told first, a keyword by the bytes that it is compared with.
-/

namespace ScimDirectory.Filter

/-- The cursor stands where these characters are left of the text, and has been at boundaries. -/
structure Cursor.StandsAt (text s : List Char) (cursor : Cursor) : Prop where
  /-- The characters end the text. -/
  suffix : s <:+ text
  /-- They begin where the cursor stands. -/
  position_eq : cursor.position = offset text s
  /-- The cursor has been at boundaries. -/
  passed : ∀ p ∈ cursor.passed, IsBoundary text p

/-- The cursor stands at a boundary, too. -/
theorem Cursor.StandsAt.isBoundary {text s : List Char} {cursor : Cursor}
    (h : cursor.StandsAt text s) : ∀ p ∈ cursor.position :: cursor.passed, IsBoundary text p := by
  rintro p (_ | ⟨_, hmem⟩)
  · exact h.position_eq ▸ isBoundary_offset h.suffix
  · exact h.passed p hmem

namespace Walk

/-- What a walk gives for what a reader answers. -/
inductive Outcome (limits : Limits) (text : List Char) {α : Type} :
    Except Stop (α × List Char) → Option (Except SyntaxError α × Cursor) → Prop where
  /-- The same value, with the cursor before what follows. -/
  | read {a rest cursor} (h : cursor.StandsAt text rest) :
    Outcome limits text (.ok (a, rest)) (some (.ok a, cursor))
  /-- The error of the stop, with the cursor anywhere. -/
  | stop {stop last cursor} (h : cursor.StandsAt text last) :
    Outcome limits text (.error stop) (some (.error (stop.toError limits text), cursor))

/-- Where these characters are left of the text, a walk gives what a reader answers. -/
def Reads (limits : Limits) (text : List Char) {α : Type} (walk : Walk α) (s : List Char)
    (answer : Except Stop (α × List Char)) : Prop :=
  ∀ ⦃cursor⦄, cursor.StandsAt text s → Outcome limits text answer (walk cursor)

variable {limits : Limits} {text s t rest : List Char} {α β : Type} {walk : Walk α}
  {f : α → Walk β} {a : α} {answer : Except Stop (α × List Char)}

section Rules

theorem reads_pure (a : α) : Reads limits text (pure a) s (.ok (a, s)) :=
  fun _ hcursor => .read hcursor

theorem reads_fault (fault : Fault) (place : List Char) :
    Reads limits text (throw (.fault fault (offset text place)) : Walk α) s
      (.error (.fault fault place)) :=
  fun _ hcursor => .stop hcursor

/-- A walk has to be followed only from an end of the text. -/
theorem Reads.of_suffix (h : s <:+ text → Reads limits text walk s answer) :
    Reads limits text walk s answer :=
  fun _ hcursor => h hcursor.suffix hcursor

/-- After a value the walk goes on where the reader does, and after a stop not at all. -/
theorem Reads.bind {g : α × List Char → Except Stop (β × List Char)}
    (h : Reads limits text walk s answer)
    (hf : ∀ a rest, answer = .ok (a, rest) → Reads limits text (f a) rest (g (a, rest))) :
    Reads limits text (walk >>= f) s (answer.bind g) := by
  intro cursor hcursor
  have hfirst := h hcursor
  have hbind : (walk >>= f) cursor = (walk cursor).bind fun (read, cursor') =>
      match read with
      | .ok a => f a cursor'
      | .error error => some (.error error, cursor') := by
    change (walk cursor).bind _ = _
    congr 1
    funext (read, cursor')
    cases read <;> rfl
  rw [hbind]
  generalize walk cursor = given at hfirst
  cases hfirst with
  | read hcursor' => exact hf _ _ rfl hcursor'
  | stop hcursor' => exact .stop hcursor'

theorem Reads.next {answer : Except Stop (β × List Char)}
    (h : Reads limits text walk s (.ok (a, rest))) (hf : Reads limits text (f a) rest answer) :
    Reads limits text (walk >>= f) s answer := by
  refine h.bind (g := fun _ => answer) fun _ _ hread => ?_
  cases hread
  exact hf

theorem Reads.map (h : Reads limits text walk s answer) (f : α → β) :
    Reads limits text (do return f (← walk)) s (answer.map fun (a, rest) => (f a, rest)) := by
  have hmap : (answer.map fun (a, rest) => (f a, rest)) =
      answer.bind fun (a, rest) => .ok (f a, rest) := by
    cases answer <;> rfl
  rw [hmap]
  exact h.bind fun a _ _ => reads_pure (f a)

section Tests

variable {test : Walk Bool} {walk' : Walk α}

theorem Reads.yes (h : Reads limits text test s (.ok (true, rest)))
    (hwalk : Reads limits text walk rest answer) :
    Reads limits text (do if ← test then walk else walk') s answer :=
  h.next hwalk

theorem Reads.no (h : Reads limits text test s (.ok (false, rest)))
    (hwalk : Reads limits text walk' rest answer) :
    Reads limits text (do if ← test then walk else walk') s answer :=
  h.next hwalk

end Tests

end Rules

section Steps

variable {accept : Char → Bool}

theorem reads_look {view : Nat → Option α} (h : s <:+ text → view (offset text s) = some a) :
    Reads limits text (look view) s (.ok (a, s)) := by
  intro cursor hcursor
  have hview : view cursor.position = some a := by
    rw [hcursor.position_eq]
    exact h hcursor.suffix
  rw [look, hview]
  exact .read hcursor

theorem reads_here : Reads limits text here s (.ok (offset text s, s)) :=
  reads_look fun _ => rfl

theorem reads_remaining : Reads limits text (remaining text) s (.ok (s, s)) := by
  refine reads_look fun hsuffix => ?_
  obtain ⟨front, hcut⟩ := exists_splitBytes?_offset hsuffix
  rw [hcut]
  rfl

theorem reads_since {word : List Char} (h : s <:+ text) (hsplit : s = word ++ rest) :
    Reads limits text (since text (offset text s)) rest (.ok (word, rest)) := by
  subst hsplit
  exact reads_look fun _ => slice?_offset h

/-- The cursor may be moved by the bytes of what comes next. -/
theorem reads_moveBy (front rest : List Char) :
    Reads limits text (moveBy (byteLength front)) (front ++ rest) (.ok ((), rest)) := by
  intro cursor hcursor
  refine .read ⟨(List.suffix_append front rest).trans hcursor.suffix, ?_, hcursor.isBoundary⟩
  rw [hcursor.position_eq, offset_of_append hcursor.suffix]

theorem reads_peek : Reads limits text (peek text) s (.ok (s.head?, s)) :=
  reads_remaining.next (reads_pure _)

theorem reads_advance (c : Char) (s : List Char) :
    Reads limits text (advance text) (c :: s) (.ok ((), s)) :=
  reads_peek.next (reads_moveBy [c] s)

theorem reads_sees {truth : Bool} (h : s.head?.any accept = truth) :
    Reads limits text (sees text accept) s (.ok (truth, s)) := by
  subst h
  exact reads_peek.next (reads_pure _)

/-- What does not begin with a character is not seen to. -/
theorem any_head?_eq_false {c : Char} (h : ∀ rest, s = c :: rest → False) :
    s.head?.any (· == c) = false := by
  cases s with
  | nil => rfl
  | cons d s =>
    rw [List.head?_cons, Option.any_some, beq_eq_false_iff_ne]
    rintro rfl
    exact h s rfl

theorem reads_take_of_pos {c : Char} (h : accept c = true) :
    Reads limits text (take text accept) (c :: s) (.ok (true, s)) := by
  have hsees : (c :: s).head?.any accept = true := h
  exact (reads_sees hsees).yes ((reads_advance c s).next (reads_pure true))

theorem reads_take_of_neg (h : s.head?.any accept = false) :
    Reads limits text (take text accept) s (.ok (false, s)) :=
  (reads_sees h).no (reads_pure false)

/-- The loop ends in time, because every pass but the last takes a character. -/
theorem reads_skipIn (accept : Char → Bool) {count : Nat} (h : s.length ≤ count) :
    Reads limits text (skipIn text accept (count + 1)) s (.ok ((), s.dropWhile accept)) := by
  induction s generalizing count with
  | nil => exact (reads_take_of_neg rfl).no (reads_pure ())
  | cons c s ih =>
    cases hc : accept c with
    | true =>
      obtain ⟨count, rfl⟩ := Nat.exists_eq_add_of_lt h
      rw [List.dropWhile_cons_of_pos hc]
      exact (reads_take_of_pos hc).yes (ih (Nat.le_add_right _ _))
    | false =>
      have hhead : (c :: s).head?.any accept = false := hc
      rw [List.dropWhile_cons_of_neg (Bool.eq_false_iff.mp hc)]
      exact (reads_take_of_neg hhead).no (reads_pure ())

/-- A loop over what is left of the text makes enough passes. -/
theorem length_le_of_suffix (h : s <:+ text) : s.length ≤ byteLength text :=
  Nat.le_trans h.length_le (length_le_byteLength text)

theorem reads_skip (accept : Char → Bool) :
    Reads limits text (skip text accept) s (.ok ((), s.dropWhile accept)) :=
  .of_suffix fun hsuffix => reads_skipIn accept (length_le_of_suffix hsuffix)

theorem reads_skipBlanks :
    Reads limits text (skip text Text.isBlank) s (.ok ((), Text.skipBlanks s)) :=
  reads_skip Text.isBlank

theorem skipBlanks_skipBlanks (s : List Char) :
    Text.skipBlanks (Text.skipBlanks s) = Text.skipBlanks s :=
  List.dropWhile_idempotent _ _

end Steps

section Keywords

variable {word : String}

theorem afterWord?_eq_some_iff : afterWord? word s = some rest ↔
    ∃ w, s = w ++ rest ∧ InAnyCase word w ∧ rest.head?.any continuesWord = false := by
  unfold afterWord?
  constructor
  · intro h
    split at h
    · cases h
    · next front last hcut =>
      split at h
      · next hread =>
        cases h
        exact ⟨front, (splitBytes?_eq_some_iff.mp hcut).1, hread.1, Bool.not_eq_true' _ ▸ hread.2⟩
      · cases h
  · rintro ⟨w, rfl, hw, hend⟩
    rw [← hw.byteLength_eq, splitBytes?_append]
    exact if_pos ⟨hw, hend ▸ rfl⟩

theorem keyword?_eq_some_iff : keyword? word s = some rest ↔
    ∃ w, Text.skipBlanks s = w ++ rest ∧ InAnyCase word w ∧
      rest.head?.any continuesWord = false := by
  unfold keyword?
  constructor
  · intro h
    dsimp only at h
    split at h
    · next hread =>
      cases h
      exact ⟨_, (List.take_append_drop _ _).symm, hread.1, Bool.not_eq_true' _ ▸ hread.2⟩
    · cases h
  · rintro ⟨w, hsplit, hw, hend⟩
    rw [hsplit, ← hw.length_eq]
    dsimp only
    rw [List.take_left, List.drop_left]
    exact if_pos ⟨hw, hend ▸ rfl⟩

/-- The bytes that a keyword is compared with are its characters. -/
theorem afterWord?_skipBlanks (word : String) (s : List Char) :
    afterWord? word (Text.skipBlanks s) = keyword? word s :=
  Option.ext fun _ => afterWord?_eq_some_iff.trans keyword?_eq_some_iff.symm

theorem keyword?_congr (h : Text.skipBlanks t = Text.skipBlanks s) :
    keyword? word t = keyword? word s := by
  rw [← afterWord?_skipBlanks, h, afterWord?_skipBlanks]

theorem reads_takeKeyword_of_some (h : keyword? word s = some rest) :
    Reads limits text (takeKeyword text word) s (.ok (true, rest)) := by
  obtain ⟨w, hsplit, hw, -⟩ := keyword?_eq_some_iff.mp h
  have hmove : Reads limits text (moveBy (byteLength word.toList)) (Text.skipBlanks s)
      (.ok ((), rest)) := by
    rw [hsplit, ← hw.byteLength_eq]
    exact reads_moveBy w rest
  refine reads_skipBlanks.next (reads_remaining.next ?_)
  rw [afterWord?_skipBlanks, h]
  exact hmove.next (reads_pure true)

/-- Blanks have been skipped also where no keyword follows them. -/
theorem reads_takeKeyword_of_none (h : keyword? word s = none) (ht : Text.skipBlanks s = t) :
    Reads limits text (takeKeyword text word) s (.ok (false, t)) := by
  subst ht
  refine reads_skipBlanks.next (reads_remaining.next ?_)
  rw [afterWord?_skipBlanks, h]
  exact reads_pure false

end Keywords

section Words

/-- A name is cut after the bytes of a prefix, because it takes one byte for every character. -/
theorem withoutPrefix?_eq {word : List Char} (h : ∀ c ∈ word, isNameChar c = true)
    (schemas : List (List Char)) :
    withoutPrefix? schemas word =
      some ((schemas.findSome? (dropSchema? · word)).getD word) := by
  induction schemas with
  | nil => rfl
  | cons schema schemas ih =>
    rw [withoutPrefix?, List.findSome?_cons]
    cases hdrop : dropSchema? schema word with
    | some rest =>
      obtain ⟨p, rfl, hsame, hne⟩ := dropSchema?_eq_some_iff.mp hdrop
      have hbytes : byteLength p = byteLength schema := by
        rw [← byteLength_lowerAscii, hsame, byteLength_lowerAscii]
      have hlonger : byteLength schema < byteLength (p ++ rest) := by
        have hpos := List.length_pos_iff.mpr hne
        have hrest := length_le_byteLength rest
        rw [byteLength_append, hbytes]
        omega
      rw [if_pos hlonger, ← hbytes, splitBytes?_append]
      exact if_pos hsame
    | none =>
      split
      · next hlonger =>
        -- The cut is one of characters, so what it finds would have been dropped.
        have hone : ∀ c ∈ word, c.utf8Size = 1 := fun c hc => utf8Size_of_isNameChar (h c hc)
        rw [byteLength_eq_length hone] at hlonger
        rw [splitBytes?_of_length_le hone (Nat.le_of_lt hlonger)]
        refine (if_neg fun hsame => ?_).trans ih
        have hrest : word.drop (byteLength schema) ≠ [] := by
          rw [Ne, List.drop_eq_nil_iff]
          exact Nat.not_le.mpr hlonger
        have hdropped : dropSchema? schema word = some (word.drop (byteLength schema)) :=
          dropSchema?_eq_some_iff.mpr ⟨_, (List.take_append_drop _ _).symm, hsame, hrest⟩
        rw [hdrop] at hdropped
        cases hdropped
      · exact ih

theorem reads_name : Reads limits text (name text) s (Filter.name s) := by
  unfold Filter.name
  dsimp only
  refine reads_skipBlanks.next (.of_suffix fun hsuffix => reads_here.next ?_)
  generalize Text.skipBlanks s = t at hsuffix ⊢
  cases hstart : t.head?.any startsName with
  | false => exact (reads_sees hstart).no (reads_fault .missingName t)
  | true =>
    refine (reads_sees hstart).yes ((reads_skip isNameChar).next ?_)
    refine (reads_since hsuffix List.takeWhile_append_dropWhile.symm).next ?_
    rw [if_pos rfl]
    cases misplacedDot (t.takeWhile isNameChar) with
    | true => exact reads_fault _ t
    | false =>
      have hchars : ∀ c ∈ t.takeWhile isNameChar, isNameChar c = true :=
        List.all_eq_true.mp List.all_takeWhile
      exact (reads_look fun _ => withoutPrefix?_eq hchars _).next (reads_pure _)

/-- The loop ends in time, because every pass but the last takes a character. -/
theorem reads_stringIn {count : Nat} (h : s.length ≤ count) :
    Reads limits text (stringIn text (count + 1)) s (stringBody s) := by
  fun_induction stringBody s generalizing count with
  | case1 => exact reads_peek.next (reads_here.next (reads_fault .unclosedString []))
  | case2 rest => exact reads_peek.next ((reads_advance '"' rest).next (reads_pure []))
  | case3 =>
    exact reads_peek.next ((reads_advance '\\' []).next
      (reads_peek.next (reads_here.next (reads_fault .invalidEscape []))))
  | case4 c rest hunescape =>
    refine reads_peek.next ((reads_advance '\\' (c :: rest)).next (reads_peek.next ?_))
    rw [List.head?_cons, Option.bind_some, hunescape]
    exact reads_here.next (reads_fault .invalidEscape (c :: rest))
  | case5 c rest d hunescape ih =>
    obtain ⟨count, rfl⟩ := Nat.exists_eq_add_of_lt h
    have hcount : rest.length ≤ (c :: rest).length + count := by
      rw [List.length_cons]
      omega
    refine reads_peek.next ((reads_advance '\\' (c :: rest)).next (reads_peek.next ?_))
    rw [List.head?_cons, Option.bind_some, hunescape]
    exact (reads_advance c rest).next ((ih hcount).map (d :: ·))
  | case6 c rest hquote hlast hslash ih =>
    obtain ⟨count, rfl⟩ := Nat.exists_eq_add_of_lt h
    refine reads_peek.next ?_
    dsimp only [List.head?_cons]
    split
    · next hnone => cases hnone
    · next hc =>
      cases hc
      exact absurd rfl hquote
    · next hc =>
      cases hc
      cases rest with
      | nil => exact absurd rfl (hlast rfl)
      | cons d rest => exact absurd rfl (hslash d rest rfl)
    · next hc =>
      cases hc
      exact (reads_advance c rest).next ((ih (Nat.le_add_right _ _)).map (c :: ·))

theorem reads_skipSign : Reads limits text (skipSign text) s (.ok ((), afterSign s)) := by
  unfold afterSign
  split
  · exact (reads_take_of_pos rfl).next (reads_pure ())
  · exact (reads_take_of_pos rfl).next (reads_pure ())
  · next hminus hplus =>
    refine (reads_take_of_neg ?_).next (reads_pure ())
    cases s with
    | nil => rfl
    | cons c s => simp_all

theorem reads_skipFraction : Reads limits text (skipFraction text) s (.ok ((), afterPoint s)) := by
  unfold afterPoint
  split
  · exact (reads_take_of_pos rfl).yes (reads_skip Char.isDigit)
  · next hpoint => exact (reads_take_of_neg (any_head?_eq_false hpoint)).no (reads_pure ())

theorem reads_skipExponent :
    Reads limits text (skipExponent text) s (.ok ((), afterExponent s)) := by
  unfold afterExponent
  split
  · exact (reads_take_of_pos rfl).yes (reads_skipSign.next (reads_skip Char.isDigit))
  · exact (reads_take_of_pos rfl).yes (reads_skipSign.next (reads_skip Char.isDigit))
  · next hsmall hcapital =>
    refine (reads_take_of_neg ?_).no (reads_pure ())
    cases s with
    | nil => rfl
    | cons c s => simp_all

theorem reads_number : Reads limits text (number text) s (Filter.number s) := by
  refine .of_suffix fun hsuffix => ?_
  obtain ⟨word, hsplit⟩ := afterNumber_suffix s
  have hword : s.take (s.length - (afterNumber s).length) = word := by
    have hlength := congrArg List.length hsplit
    rw [List.length_append] at hlength
    have htaken : s.length - (afterNumber s).length = word.length := by omega
    rw [htaken]
    exact (congrArg (List.take word.length) hsplit).symm.trans List.take_left
  unfold Filter.number
  dsimp only
  rw [hword]
  refine reads_here.next (reads_skipSign.next ((reads_skip Char.isDigit).next
    (reads_skipFraction.next (reads_skipExponent.next ?_))))
  refine (reads_since hsuffix hsplit.symm).next ?_
  cases Binary64.ofText? word with
  | some x => exact reads_pure _
  | none => exact reads_fault _ s

theorem reads_literal : Reads limits text (literal text) s (Filter.literal s) := by
  unfold Filter.literal
  refine reads_skipBlanks.next (.of_suffix fun hsuffix => ?_)
  have hbare := skipBlanks_skipBlanks s
  generalize Text.skipBlanks s = t at hbare hsuffix ⊢
  split
  · next rest =>
    have hrest := length_le_of_suffix ((List.suffix_cons '"' rest).trans hsuffix)
    exact (reads_take_of_pos rfl).yes ((reads_stringIn hrest).map _)
  · next hplain =>
    refine (reads_take_of_neg (any_head?_eq_false hplain)).no ?_
    cases htrue : keyword? "true" t with
    | some rest => exact (reads_takeKeyword_of_some htrue).yes (reads_pure _)
    | none =>
      refine (reads_takeKeyword_of_none htrue hbare).no ?_
      cases hfalse : keyword? "false" t with
      | some rest => exact (reads_takeKeyword_of_some hfalse).yes (reads_pure _)
      | none =>
        refine (reads_takeKeyword_of_none hfalse hbare).no ?_
        cases hnull : keyword? "null" t with
        | some rest => exact (reads_takeKeyword_of_some hnull).yes (reads_pure _)
        | none =>
          refine (reads_takeKeyword_of_none hnull hbare).no ((reads_sees rfl).next ?_)
          dsimp only
          split
          · exact reads_number
          · exact reads_here.next (reads_fault _ t)

theorem reads_condition (attr : String) :
    Reads limits text (condition text attr) s (Filter.condition attr s) := by
  unfold Filter.condition
  refine reads_skipBlanks.next (.of_suffix fun hsuffix => ?_)
  dsimp only
  generalize Text.skipBlanks s = t at hsuffix ⊢
  refine reads_here.next ((reads_skip Text.isAsciiLetter).next ?_)
  refine (reads_since hsuffix List.takeWhile_append_dropWhile.symm).next ?_
  cases Operator.ofWord? (String.ofList (Text.lowerAscii (t.takeWhile Text.isAsciiLetter))) with
  | some operator => exact reads_literal.map _
  | none =>
    dsimp only
    split
    · exact reads_fault _ t
    · exact reads_fault _ t

end Words

end Walk
end ScimDirectory.Filter
