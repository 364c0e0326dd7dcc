import ScimDirectory.Proofs.Schema.LetterCase

/-!
# Numbers in small letters

The only letter in a decimal is that of its exponent, which may be small or not. So a decimal in
small letters is the same number.
-/

namespace ScimDirectory

namespace Binary64

open ScimDirectory.Filter

/-- Digits are their own small forms. -/
theorem lowerAscii_digits {digits : List Char} (h : digits.all Char.isDigit = true) :
    Text.lowerAscii digits = digits := by
  refine (List.map_congr_left fun c hc => ?_).trans (List.map_id digits)
  have hdigit := isDigit_iff.mp (List.all_eq_true.mp h c hc)
  exact toLower_eq_self (by omega)

theorem takeWhile_isDigit_lowerAscii (text : List Char) :
    (Text.lowerAscii text).takeWhile Char.isDigit = text.takeWhile Char.isDigit := by
  have hdigit : Char.isDigit ∘ Char.toLower = Char.isDigit := funext isDigit_toLower
  rw [Text.lowerAscii, List.takeWhile_map, hdigit]
  exact lowerAscii_digits List.all_takeWhile

theorem dropWhile_isDigit_lowerAscii (text : List Char) :
    (Text.lowerAscii text).dropWhile Char.isDigit =
      Text.lowerAscii (text.dropWhile Char.isDigit) := by
  have hdigit : Char.isDigit ∘ Char.toLower = Char.isDigit := funext isDigit_toLower
  rw [Text.lowerAscii, List.dropWhile_map, hdigit]
  rfl

theorem splitSign_lowerAscii (text : List Char) :
    splitSign (Text.lowerAscii text) =
      ((splitSign text).1, Text.lowerAscii (splitSign text).2) := by
  cases text with
  | nil => rfl
  | cons c rest =>
    by_cases hminus : c = '-'
    · subst hminus
      rfl
    · by_cases hplus : c = '+'
      · subst hplus
        rfl
      · have hplain {c : Char} {rest : List Char} (hminus : c ≠ '-') (hplus : c ≠ '+') :
            splitSign (c :: rest) = (false, c :: rest) := by
          rw [splitSign]
          · exact fun _ heq => hminus (List.cons.inj heq).1
          · exact fun _ heq => hplus (List.cons.inj heq).1
        rw [hplain hminus hplus]
        refine hplain ?_ ?_
        · rwa [ne_eq, toLower_eq_iff (by decide)]
        · rwa [ne_eq, toLower_eq_iff (by decide)]

/-- The letter of an exponent is one of two. -/
theorem toLower_eq_e_iff {c : Char} : c.toLower = 'e' ↔ c = 'e' ∨ c = 'E' := by
  constructor
  · intro h
    by_cases hupper : 65 ≤ c.toNat ∧ c.toNat ≤ 90
    · have hplace := congrArg Char.toNat h
      rw [toNat_toLower hupper.1 hupper.2] at hplace
      exact .inr (Char.toNat_inj.mp (Nat.add_right_cancel hplace))
    · rw [toLower_eq_self hupper] at h
      exact .inl h
  · rintro (rfl | rfl) <;> rfl

theorem exponent?_lowerAscii (text : List Char) :
    exponent? (Text.lowerAscii text) = exponent? text := by
  cases text with
  | nil => rfl
  | cons c rest =>
    have hletter : (c.toLower = 'e' ∨ c.toLower = 'E') ↔ c = 'e' ∨ c = 'E' := by
      rw [← toLower_eq_e_iff, toLower_toLower, toLower_eq_e_iff]
    have hdigits (digits : List Char) :
        (Text.lowerAscii digits).all Char.isDigit = digits.all Char.isDigit := by
      rw [Text.lowerAscii, List.all_map]
      exact congrArg (digits.all ·) (funext isDigit_toLower)
    have hsign := splitSign_lowerAscii rest
    have hempty (digits : List Char) : (Text.lowerAscii digits).isEmpty = digits.isEmpty :=
      List.isEmpty_map
    show exponent? (c.toLower :: Text.lowerAscii rest) = exponent? (c :: rest)
    unfold exponent?
    dsimp only
    rw [hsign]
    obtain ⟨negative, digits⟩ := splitSign rest
    simp only [hletter, hdigits, hempty]
    cases hall : digits.all Char.isDigit with
    | true => rw [lowerAscii_digits hall]
    | false => simp

/-- The digits behind a point, if there is one, and what follows them. -/
def splitFraction (text : List Char) : List Char × List Char :=
  match text with
  | '.' :: rest => (rest.takeWhile Char.isDigit, rest.dropWhile Char.isDigit)
  | _ => ([], text)

theorem splitFraction_lowerAscii (text : List Char) :
    splitFraction (Text.lowerAscii text) =
      ((splitFraction text).1, Text.lowerAscii (splitFraction text).2) := by
  cases text with
  | nil => rfl
  | cons c rest =>
    by_cases hpoint : c = '.'
    · subst hpoint
      exact Prod.ext (takeWhile_isDigit_lowerAscii rest) (dropWhile_isDigit_lowerAscii rest)
    · have hplain {c : Char} {rest : List Char} (hpoint : c ≠ '.') :
          splitFraction (c :: rest) = ([], c :: rest) := by
        rw [splitFraction]
        exact fun _ heq => hpoint (List.cons.inj heq).1
      rw [hplain hpoint]
      refine hplain ?_
      rwa [ne_eq, toLower_eq_iff (by decide)]

theorem ofText?_eq (text : List Char) :
    ofText? text =
      let (negative, unsigned) := splitSign text
      let whole := unsigned.takeWhile Char.isDigit
      let (fraction, rest) := splitFraction (unsigned.dropWhile Char.isDigit)
      if whole.isEmpty ∧ fraction.isEmpty then none
      else (exponent? rest).map fun exponent =>
        ofDecimal negative (Digits.value (whole ++ fraction))
          (exponent - Int.ofNat fraction.length) := rfl

/-- A decimal in small letters is the same number. -/
theorem ofText?_lowerAscii (text : List Char) :
    ofText? (Text.lowerAscii text) = ofText? text := by
  rw [ofText?_eq, ofText?_eq, splitSign_lowerAscii]
  dsimp only
  rw [takeWhile_isDigit_lowerAscii, dropWhile_isDigit_lowerAscii, splitFraction_lowerAscii]
  dsimp only
  rw [exponent?_lowerAscii]

end Binary64
end ScimDirectory
