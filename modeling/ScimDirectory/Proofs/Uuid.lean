import Mathlib.Data.List.Basic
import ScimDirectory.Uuid

/-!
# Identifiers and their texts

The hyphenated form of an identifier is read back as that identifier, although it may be written in
other ways too.
-/

namespace ScimDirectory.Uuid

theorem digit?_digitChar (d : Fin 16) : digit? (digitChar d) = some d := by
  revert d
  decide

theorem mapM_digit? (digits : List (Fin 16)) :
    (digits.map digitChar).mapM digit? = some digits := by
  induction digits with
  | nil => rfl
  | cons d digits ih => simp [List.mapM_cons, digit?_digitChar, ih]

/-- The digits of an identifier are read back without their hyphens. -/
theorem ofPlain?_digits (u : Uuid) : ofPlain? (u.digits.map digitChar) = some u := by
  rw [ofPlain?, mapM_digit?, Option.bind_some, ofDigits?, dif_pos u.length_digits]

theorem length_toChars (u : Uuid) : u.toChars.length = 36 := by
  simp [toChars, u.length_digits]

/-- The groups between the hyphens are the digits. -/
theorem ofHyphenated?_toChars (u : Uuid) : ofHyphenated? u.toChars = some u := by
  have hdigits := u.ofPlain?_digits
  have hlength : (u.digits.map digitChar).length = 32 := by rw [List.length_map, u.length_digits]
  have hparts : u.toChars = (u.digits.map digitChar).take 8 ++
      '-' :: ((u.digits.map digitChar).drop 8).take 4 ++
      '-' :: ((u.digits.map digitChar).drop 12).take 4 ++
      '-' :: ((u.digits.map digitChar).drop 16).take 4 ++
      '-' :: (u.digits.map digitChar).drop 20 := rfl
  generalize u.digits.map digitChar = cs at *
  have hsplit : ∀ m n, (cs.drop m).take n ++ cs.drop (m + n) = cs.drop m := by
    intro m n
    rw [← List.drop_drop, List.take_append_drop]
  have hjoined : cs.take 8 ++ ((cs.drop 8).take 4 ++ ((cs.drop 12).take 4 ++
      ((cs.drop 16).take 4 ++ cs.drop 20))) = cs := by
    rw [hsplit 16 4, hsplit 12 4, hsplit 8 4, List.take_append_drop]
  rw [ofHyphenated?, if_pos, ← hdigits]
  · refine congrArg ofPlain? (Eq.trans ?_ hjoined)
    rw [hparts]
    simp [List.drop_append, List.drop_take, hlength]
  · refine ⟨u.length_toChars, ?_⟩
    rw [hparts]
    simp [hlength]

/-- The text of an identifier is read back as the identifier. -/
theorem ofText?_toText (u : Uuid) : ofText? u.toText = some u := by
  rw [ofText?, toText, String.toList_ofList, ofChars?, if_neg, if_pos u.length_toChars,
    ofHyphenated?_toChars]
  rw [u.length_toChars]
  decide

theorem toText_injective : Function.Injective toText := by
  intro u v h
  have hread := congrArg ofText? h
  rw [ofText?_toText, ofText?_toText] at hread
  exact Option.some.inj hread

end ScimDirectory.Uuid
