import ScimDirectory.Text.Lowercase

/-!
# Lower case of a part of a text

The lower-case form of a text is that of its parts, each taken between what stands before and
after it. Between neighbours a part has as many characters in lower case as on its own. They are
the same ones exactly when every capital sigma of the part ends a word there just if it ends one
in the part alone.
-/

namespace ScimDirectory.Text

/-- The lower-case form of a part of a text between what stands before and after it. What stands
before is given from the nearest character outwards. -/
def lowercaseBetween (before part after : List Char) : List Char :=
  match part with
  | [] => []
  | c :: rest => lowercaseAt before c (rest ++ after) ++ lowercaseBetween (c :: before) rest after

/-- Nothing stands after the last part of a text. -/
theorem lowercaseFrom_eq (before s : List Char) :
    lowercaseFrom before s = lowercaseBetween before s [] := by
  induction s generalizing before with
  | nil => rfl
  | cons c rest ih => rw [lowercaseFrom, lowercaseBetween, ih, List.append_nil]

/-- Two parts in a row are each put in lower case next to the other. -/
theorem lowercaseBetween_append (before s t after : List Char) :
    lowercaseBetween before (s ++ t) after =
      lowercaseBetween before s (t ++ after) ++
        lowercaseBetween (s.reverse ++ before) t after := by
  induction s generalizing before with
  | nil => rfl
  | cons c rest ih =>
    rw [List.cons_append, lowercaseBetween, lowercaseBetween, ih, List.append_assoc,
      List.append_assoc, List.reverse_cons, List.append_assoc, List.singleton_append]

/-- The lower-case form of a text in terms of a part of it. -/
theorem toList_lowercase_of_append {s : String} {before part after : List Char}
    (h : s.toList = before ++ part ++ after) :
    (lowercase s).toList =
      lowercaseBetween [] before (part ++ after) ++ lowercaseBetween before.reverse part after ++
        lowercaseBetween (part.reverse ++ before.reverse) after [] := by
  rw [lowercase, String.toList_ofList, h, lowercaseFrom_eq, lowercaseBetween_append,
    lowercaseBetween_append]
  simp only [List.append_nil, List.reverse_append]

/-- The lower-case form of a text on its own. -/
theorem toList_lowercase (s : String) :
    (lowercase s).toList = lowercaseBetween [] s.toList [] := by
  rw [lowercase, String.toList_ofList, lowercaseFrom_eq]

/-- What stands around a character says nothing about the number of characters it becomes. -/
theorem length_lowercaseAt (before before' : List Char) (c : Char) (after after' : List Char) :
    (lowercaseAt before c after).length = (lowercaseAt before' c after').length := by
  unfold lowercaseAt
  split
  · split <;> split <;> rfl
  · rfl

/-- What stands around a part says nothing about the number of characters it becomes. -/
theorem length_lowercaseBetween (before before' part after after' : List Char) :
    (lowercaseBetween before part after).length =
      (lowercaseBetween before' part after').length := by
  induction part generalizing before before' with
  | nil => rfl
  | cons c rest ih =>
    rw [lowercaseBetween, lowercaseBetween, List.length_append, List.length_append,
      length_lowercaseAt before before' c _ (rest ++ after'), ih]

/-- Only a capital sigma looks at what stands around it, and only for whether it ends a word. -/
theorem lowercaseAt_eq_iff (before before' : List Char) (c : Char) (after after' : List Char) :
    lowercaseAt before c after = lowercaseAt before' c after' ↔
      (c = '\u03A3' → endsWord before after = endsWord before' after') := by
  unfold lowercaseAt
  by_cases hc : c = '\u03A3'
  · simp only [hc, if_true, true_implies]
    cases endsWord before after <;> cases endsWord before' after' <;> decide
  · simp [hc]

/-- A part has the same lower-case form between two pairs of neighbours when every capital sigma
of it ends a word between both or between neither. -/
theorem lowercaseBetween_eq_iff (before before' part after after' : List Char) :
    lowercaseBetween before part after = lowercaseBetween before' part after' ↔
      ∀ left right, part = left ++ '\u03A3' :: right →
        endsWord (left.reverse ++ before) (right ++ after) =
          endsWord (left.reverse ++ before') (right ++ after') := by
  induction part generalizing before before' with
  | nil => simp [lowercaseBetween]
  | cons c rest ih =>
    have hsplit : lowercaseBetween before (c :: rest) after =
          lowercaseBetween before' (c :: rest) after' ↔
        lowercaseAt before c (rest ++ after) = lowercaseAt before' c (rest ++ after') ∧
          lowercaseBetween (c :: before) rest after =
            lowercaseBetween (c :: before') rest after' := by
      -- The two forms of `c` are equally long, so the two sums are equal part by part.
      rw [lowercaseBetween, lowercaseBetween]
      exact ⟨fun h => List.append_inj h (length_lowercaseAt ..), fun ⟨hc, hrest⟩ => by
        rw [hc, hrest]⟩
    rw [hsplit, lowercaseAt_eq_iff, ih]
    constructor
    · rintro ⟨hc, hrest⟩ left right hpart
      cases left with
      | nil =>
        obtain ⟨rfl, rfl⟩ := List.cons.inj hpart
        exact hc rfl
      | cons d left =>
        obtain ⟨rfl, rfl⟩ := List.cons.inj hpart
        simpa using hrest left right rfl
    · intro h
      refine ⟨?_, fun left right hrest => ?_⟩
      · rintro rfl
        exact h [] rest rfl
      · simpa using h (c :: left) right (by rw [hrest, List.cons_append])

/-- Between its neighbours every capital sigma of a part ends a word just if it ends one in the
part alone. -/
def KeepsSigmas (before part after : List Char) : Prop :=
  ∀ left right, part = left ++ '\u03A3' :: right →
    endsWord (before ++ left).reverse (right ++ after) = endsWord left.reverse right

/-- A part has the lower-case form between its neighbours that it has alone exactly when they
change none of its capital sigmas. -/
theorem lowercaseBetween_eq_alone_iff (before part after : List Char) :
    lowercaseBetween before.reverse part after = lowercaseBetween [] part [] ↔
      KeepsSigmas before part after := by
  rw [lowercaseBetween_eq_iff]
  simp only [KeepsSigmas, List.reverse_append, List.append_nil]

/-- A part without a capital sigma is the same between any neighbours. -/
theorem keepsSigmas_of_notMem {part : List Char} (h : '\u03A3' ∉ part) (before after : List Char) :
    KeepsSigmas before part after := by
  rintro left right rfl
  simp at h

/-- Characters that start no cased letter do not change whether those before them do. -/
theorem startsCased_append (s : List Char) {t : List Char} (h : startsCased t = false) :
    startsCased (s ++ t) = startsCased s := by
  induction s with
  | nil => rw [List.nil_append, h]; rfl
  | cons c s ih =>
    cases hc : isCaseIgnorable c with
    | true =>
      simp only [startsCased, List.cons_append, List.dropWhile_cons, hc, if_true]
      exact ih
    | false => simp [startsCased, hc]

/-- A part that no cased letter touches on either side, case-ignorable characters aside, is the
same between its neighbours as alone. -/
theorem keepsSigmas_of_apart {before after : List Char} (part : List Char)
    (hbefore : startsCased before.reverse = false) (hafter : startsCased after = false) :
    KeepsSigmas before part after := by
  intro left right _
  rw [endsWord, endsWord, List.reverse_append, startsCased_append _ hbefore,
    startsCased_append _ hafter]

end ScimDirectory.Text
