import ScimDirectory.Filter.Parser

/-!
# Characters of the filter grammar

How the classes of characters lie to each other: what a name is made of is never blank, what goes
on a keyword goes on a name, and making letters small moves nothing into or out of the blanks. The
ink of a text is the number of its characters that are not blank; texts that are read as the same
words may differ in blanks, but not in ink.
-/

namespace ScimDirectory

namespace Filter

/-- Text that is blank. -/
def Blanks (s : List Char) : Prop := ∀ c ∈ s, Text.isBlank c = true

/-- Text that is blank and not empty. -/
def Spaced (s : List Char) : Prop := s ≠ [] ∧ Blanks s

/-- A word with its letters in any case. -/
def InAnyCase (word : String) (s : List Char) : Prop := Text.lowerAscii s = word.toList

instance : DecidablePred Blanks := fun _ => decidable_of_iff _ List.all_eq_true

instance : DecidablePred Spaced := fun _ => inferInstanceAs (Decidable (_ ∧ _))

instance (word : String) : DecidablePred (InAnyCase word) := fun s =>
  inferInstanceAs (Decidable (Text.lowerAscii s = word.toList))

/-- The number of characters that are not blank. -/
def ink (s : List Char) : Nat := s.countP fun c => !Text.isBlank c

/-- What follows a word does not go on it, not even as a name. -/
def Ends (s : List Char) : Prop := s.head?.any isNameChar = false

variable {c : Char} {s t rest : List Char} {word : String}

theorem isDigit_iff : c.isDigit = true ↔ 48 ≤ c.toNat ∧ c.toNat ≤ 57 :=
  (Bool.and_eq_true _ _).to_iff.trans (and_congr decide_eq_true_iff decide_eq_true_iff)

theorem isAsciiLetter_iff : Text.isAsciiLetter c = true ↔
    (65 ≤ c.toNat ∧ c.toNat ≤ 90) ∨ (97 ≤ c.toNat ∧ c.toNat ≤ 122) :=
  (Bool.or_eq_true _ _).to_iff.trans (or_congr decide_eq_true_iff
    ((Bool.and_eq_true _ _).to_iff.trans (and_congr decide_eq_true_iff decide_eq_true_iff)))

theorem isAsciiAlphanumeric_iff :
    Text.isAsciiAlphanumeric c = true ↔ Text.isAsciiLetter c = true ∨ c.isDigit = true :=
  (Bool.or_eq_true _ _).to_iff

theorem not_isBlank_of_alphanumeric (h : Text.isAsciiAlphanumeric c = true) :
    Text.isBlank c = false := by
  rw [isAsciiAlphanumeric_iff, isAsciiLetter_iff, isDigit_iff] at h
  simp only [Text.isBlank, Bool.or_eq_false_iff, Bool.and_eq_false_iff, decide_eq_false_iff_not,
    beq_eq_false_iff_ne]
  omega

theorem not_isBlank_of_letter (h : Text.isAsciiLetter c = true) : Text.isBlank c = false :=
  not_isBlank_of_alphanumeric (isAsciiAlphanumeric_iff.mpr (.inl h))

/-- A character of a name is not blank. -/
theorem not_isBlank_of_isNameChar (h : isNameChar c = true) : Text.isBlank c = false := by
  simp only [isNameChar, Bool.or_eq_true, beq_iff_eq] at h
  rcases h with ((((h | rfl) | rfl) | rfl) | rfl) | rfl
  · exact not_isBlank_of_alphanumeric h
  all_goals decide

/-- What goes on a word goes on a name. -/
theorem isNameChar_of_continuesWord (h : continuesWord c = true) : isNameChar c = true := by
  simp only [continuesWord, Bool.or_eq_true, beq_iff_eq] at h
  simp only [isNameChar, Bool.or_eq_true, beq_iff_eq]
  rcases h with ((h | h) | h) | h
  · exact .inl (.inl (.inl (.inl (.inl h))))
  · exact .inl (.inl (.inl (.inl (.inr h))))
  · exact .inl (.inl (.inr h))
  · exact .inl (.inr h)

/-- What goes on a name but not on a word. -/
theorem eq_of_isNameChar_of_not_continuesWord (h : isNameChar c = true)
    (hword : continuesWord c = false) : c = '-' ∨ c = '$' := by
  simp only [isNameChar, Bool.or_eq_true, beq_iff_eq] at h
  simp only [continuesWord, Bool.or_eq_false_iff, beq_eq_false_iff_ne] at hword
  obtain ⟨⟨⟨hletters, hunderscore⟩, hdot⟩, hcolon⟩ := hword
  rcases h with ((((h | h) | h) | h) | h) | h
  · rw [hletters] at h
    cases h
  · exact absurd h hunderscore
  · exact .inl h
  · exact absurd h hdot
  · exact absurd h hcolon
  · exact .inr h

theorem isNameChar_of_letter (h : Text.isAsciiLetter c = true) : isNameChar c = true := by
  unfold isNameChar
  simp only [isAsciiAlphanumeric_iff.mpr (.inl h), Bool.true_or]

theorem isNameChar_of_startsName (h : startsName c = true) : isNameChar c = true := by
  unfold startsName at h
  rcases Bool.or_eq_true _ _ ▸ h with hletter | hdollar
  · exact isNameChar_of_letter hletter
  · rw [beq_iff_eq] at hdollar
    subst hdollar
    decide

/-- The small form of a capital stands 32 places behind it. -/
theorem toNat_toLower (hlow : 65 ≤ c.toNat) (hhigh : c.toNat ≤ 90) :
    c.toLower.toNat = c.toNat + 32 := by
  have hupper : c.val ≥ 'A'.val ∧ c.val ≤ 'Z'.val := ⟨hlow, hhigh⟩
  have hsmall : c.toLower.val = c.val + ('a'.val - 'A'.val) := congrArg Char.val (dif_pos hupper)
  have hstep : ('a'.val - 'A'.val).toNat = 32 := rfl
  rw [Char.toNat, hsmall, UInt32.toNat_add, hstep]
  exact Nat.mod_eq_of_lt (show c.toNat + 32 < 2 ^ 32 by omega)

/-- What is not a capital is its own small form. -/
theorem toLower_eq_self (h : ¬(65 ≤ c.toNat ∧ c.toNat ≤ 90)) : c.toLower = c :=
  dif_neg h

/-- A small form is its own small form. -/
theorem toLower_toLower (c : Char) : c.toLower.toLower = c.toLower := by
  by_cases hupper : 65 ≤ c.toNat ∧ c.toNat ≤ 90
  · refine toLower_eq_self ?_
    rw [toNat_toLower hupper.1 hupper.2]
    omega
  · rw [toLower_eq_self hupper, toLower_eq_self hupper]

/-- A character is its own small form, or both are letters. -/
theorem toLower_eq_or (c : Char) :
    c.toLower = c ∨ Text.isAsciiLetter c = true ∧ Text.isAsciiLetter c.toLower = true := by
  by_cases hupper : 65 ≤ c.toNat ∧ c.toNat ≤ 90
  · refine .inr ⟨?_, ?_⟩
    · rw [isAsciiLetter_iff]
      omega
    · rw [isAsciiLetter_iff, toNat_toLower hupper.1 hupper.2]
      omega
  · exact .inl (toLower_eq_self hupper)

/-- Making a letter small makes no blank and removes none. -/
theorem isBlank_toLower (c : Char) : Text.isBlank c.toLower = Text.isBlank c := by
  rcases toLower_eq_or c with hsame | ⟨hletter, hsmall⟩
  · rw [hsame]
  · rw [not_isBlank_of_letter hletter, not_isBlank_of_letter hsmall]

/-- Making a letter small makes no letter and removes none. -/
theorem isAsciiLetter_toLower (c : Char) :
    Text.isAsciiLetter c.toLower = Text.isAsciiLetter c := by
  rcases toLower_eq_or c with hsame | ⟨hletter, hsmall⟩
  · rw [hsame]
  · rw [hletter, hsmall]

theorem isDigit_toLower (c : Char) : c.toLower.isDigit = c.isDigit := by
  have hnone {c : Char} (h : Text.isAsciiLetter c = true) : c.isDigit = false := by
    rw [isAsciiLetter_iff] at h
    rw [Bool.eq_false_iff, ne_eq, isDigit_iff]
    omega
  rcases toLower_eq_or c with hsame | ⟨hletter, hsmall⟩
  · rw [hsame]
  · rw [hnone hletter, hnone hsmall]

/-- A character that is no letter is the small form of itself only. -/
theorem toLower_eq_iff {p : Char} (hp : Text.isAsciiLetter p = false) : c.toLower = p ↔ c = p := by
  rcases toLower_eq_or c with hsame | ⟨hletter, hsmall⟩
  · rw [hsame]
  · refine iff_of_false ?_ ?_
    · rintro rfl
      rw [hsmall] at hp
      cases hp
    · rintro rfl
      rw [hletter] at hp
      cases hp

theorem toLower_beq {p : Char} (hp : Text.isAsciiLetter p = false) :
    (c.toLower == p) = (c == p) := by
  rw [Bool.eq_iff_iff, beq_iff_eq, beq_iff_eq, toLower_eq_iff hp]

theorem isAsciiAlphanumeric_toLower (c : Char) :
    Text.isAsciiAlphanumeric c.toLower = Text.isAsciiAlphanumeric c := by
  rw [Bool.eq_iff_iff, isAsciiAlphanumeric_iff, isAsciiAlphanumeric_iff, isAsciiLetter_toLower,
    isDigit_toLower]

/-- The classes of characters ignore letter case. -/
theorem startsName_toLower (c : Char) : startsName c.toLower = startsName c := by
  rw [startsName, startsName, isAsciiLetter_toLower, toLower_beq (by decide)]

theorem isNameChar_toLower (c : Char) : isNameChar c.toLower = isNameChar c := by
  unfold isNameChar
  rw [isAsciiAlphanumeric_toLower, toLower_beq (by decide), toLower_beq (by decide),
    toLower_beq (by decide), toLower_beq (by decide), toLower_beq (by decide)]

theorem continuesWord_toLower (c : Char) : continuesWord c.toLower = continuesWord c := by
  unfold continuesWord
  rw [isAsciiAlphanumeric_toLower, toLower_beq (by decide), toLower_beq (by decide),
    toLower_beq (by decide)]

/-- A letter takes one byte. -/
theorem utf8Size_of_letter (h : Text.isAsciiLetter c = true) : c.utf8Size = 1 := by
  rw [isAsciiLetter_iff] at h
  rw [Char.utf8Size_eq_one_iff]
  show c.toNat ≤ 127
  omega

theorem utf8Size_toLower (c : Char) : c.toLower.utf8Size = c.utf8Size := by
  rcases toLower_eq_or c with hsame | ⟨hletter, hsmall⟩
  · rw [hsame]
  · rw [utf8Size_of_letter hletter, utf8Size_of_letter hsmall]

section Blanks

variable {b : List Char}

theorem Blanks.nil : Blanks [] := fun _ h => nomatch h

theorem Blanks.skipBlanks_append (hb : Blanks b) (s : List Char) :
    Text.skipBlanks (b ++ s) = Text.skipBlanks s :=
  List.dropWhile_append_of_pos hb

theorem Blanks.skipBlanks_eq_nil (hb : Blanks b) : Text.skipBlanks b = [] := by
  have h := hb.skipBlanks_append []
  rw [List.append_nil] at h
  exact h

theorem skipBlanks_cons (h : Text.isBlank c = false) : Text.skipBlanks (c :: s) = c :: s :=
  List.dropWhile_cons_of_neg (by rw [h]; exact Bool.false_ne_true)

/-- What is skipped is blank. -/
theorem exists_blanks (s : List Char) : ∃ b, Blanks b ∧ s = b ++ Text.skipBlanks s := by
  refine ⟨s.takeWhile Text.isBlank, ?_, ?_⟩
  · intro c hc
    exact List.all_eq_true.mp List.all_takeWhile c hc
  · exact List.takeWhile_append_dropWhile.symm

theorem Spaced.blanks (hb : Spaced b) : Blanks b := hb.2

theorem Ends.nil : Ends [] := rfl

theorem ends_cons : Ends (c :: s) ↔ isNameChar c = false := Iff.rfl

/-- A blank ends a word, and so does the end of the text. -/
theorem Blanks.ends (hb : Blanks b) : Ends b := by
  cases b with
  | nil => exact .nil
  | cons c b =>
    rw [ends_cons, Bool.eq_false_iff]
    intro hname
    have hblank := hb c List.mem_cons_self
    rw [not_isBlank_of_isNameChar hname] at hblank
    cases hblank

theorem Spaced.ends (hb : Spaced b) (s : List Char) : Ends (b ++ s) := by
  obtain ⟨hne, hblanks⟩ := hb
  cases b with
  | nil => exact absurd rfl hne
  | cons c b =>
    have hend := hblanks.ends
    rw [ends_cons] at hend
    rw [List.cons_append, ends_cons, hend]

end Blanks

section Ink

@[simp] theorem ink_append (s t : List Char) : ink (s ++ t) = ink s + ink t :=
  List.countP_append

theorem Blanks.ink_eq_zero {b : List Char} (hb : Blanks b) : ink b = 0 := by
  unfold ink
  rw [List.countP_eq_zero]
  intro c hc
  rw [hb c hc]
  decide

/-- Every character of a name is ink. -/
theorem ink_eq_length (h : ∀ c ∈ s, isNameChar c = true) : ink s = s.length := by
  unfold ink
  rw [List.countP_eq_length]
  intro c hc
  rw [not_isBlank_of_isNameChar (h c hc)]
  rfl

theorem ink_lowerAscii (s : List Char) : ink (Text.lowerAscii s) = ink s := by
  unfold ink Text.lowerAscii
  rw [List.countP_map]
  apply List.countP_congr
  intro c _
  rw [Function.comp_apply, isBlank_toLower]

/-- A word has the same ink in any case. -/
theorem InAnyCase.ink_eq (h : InAnyCase word s) : ink s = ink word.toList := by
  rw [← h, ink_lowerAscii]

theorem InAnyCase.length_eq (h : InAnyCase word s) : s.length = word.toList.length := by
  rw [← h, Text.lowerAscii, List.length_map]

end Ink

end Filter
end ScimDirectory
