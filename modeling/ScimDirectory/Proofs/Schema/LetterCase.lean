import ScimDirectory.Proofs.Filter.Characters
import ScimDirectory.Schema.Lookup

/-!
# Names in small letters

A name in small letters stands for what the name itself stands for, and is unknown in the same way:
tables look at names through their small letters only, before and after they are split at a dot.
-/

namespace ScimDirectory

namespace Text

/-- A text with every ASCII capital made small. -/
def lowered (s : String) : String := String.ofList (lowerAscii s.toList)

theorem lowerAscii_lowerAscii (s : List Char) : lowerAscii (lowerAscii s) = lowerAscii s := by
  rw [lowerAscii, lowerAscii, List.map_map]
  exact List.map_congr_left fun c _ => Filter.toLower_toLower c

/-- The first characters of texts with the same letters have the same letters. -/
theorem lowerAscii_take_congr {s t : List Char} (h : lowerAscii s = lowerAscii t) (n : Nat) :
    lowerAscii (s.take n) = lowerAscii (t.take n) := by
  unfold lowerAscii at *
  rw [List.map_take, List.map_take, h]

@[simp] theorem toList_lowered (s : String) : (lowered s).toList = lowerAscii s.toList :=
  String.toList_ofList

theorem ofList_lowerAscii (s : List Char) :
    String.ofList (lowerAscii s) = lowered (String.ofList s) := by
  rw [lowered, String.toList_ofList]

@[simp] theorem lowered_lowered (s : String) : lowered (lowered s) = lowered s := by
  rw [lowered, toList_lowered, lowerAscii_lowerAscii]
  rfl

@[simp] theorem lowered_append (s t : String) : lowered (s ++ t) = lowered s ++ lowered t := by
  rw [← String.toList_inj]
  simp only [toList_lowered, String.toList_append, lowerAscii, List.map_append]

@[simp] theorem sameLetters_lowered_right (a b : String) :
    sameLetters a (lowered b) = sameLetters a b := by
  rw [sameLetters, sameLetters, toList_lowered, lowerAscii_lowerAscii]

end Text

open Text

/-- A dot splits a text in small letters where it splits the text. -/
theorem splitAtDot_lowered (s : String) :
    splitAtDot (lowered s) = (splitAtDot s).map (Prod.map lowered lowered) := by
  have hdot : (fun c : Char => c != '.') ∘ Char.toLower = fun c => c != '.' := by
    funext c
    exact congrArg not (Filter.toLower_beq (by decide))
  unfold splitAtDot
  simp only [toList_lowered, lowerAscii, List.dropWhile_map, List.takeWhile_map, hdot]
  cases s.toList.dropWhile (· != '.') with
  | nil => rfl
  | cons dot rest => simp [lowered, lowerAscii]

/-- The error with what it names in small letters. -/
def LookupError.lowered : LookupError → LookupError
  | .unknownAttribute resource attr => .unknownAttribute resource (Text.lowered attr)
  | .unknownSubAttribute parent sub =>
    .unknownSubAttribute (Text.lowered parent) (Text.lowered sub)
  | .notMultiValued attr => .notMultiValued (Text.lowered attr)

@[simp] theorem LookupError.isUnknownAttribute_lowered (error : LookupError) :
    error.lowered.isUnknownAttribute = error.isUnknownAttribute := by
  cases error <;> rfl

namespace AttributeTable

variable (table : AttributeTable)

@[simp] theorem entry?_lowered (name : String) :
    table.entry? (lowered name) = table.entry? name := by
  simp only [ entry?, sameLetters_lowered_right]

@[simp] theorem field?_lowered (name : String) :
    table.field? (lowered name) = table.field? name := by
  rw [field?, field?, entry?_lowered]

/-- Whether a name is under a parent does not depend on the letter case of the parent. -/
@[simp] theorem isUnder_lowered (parent : String) : isUnder (lowered parent) = isUnder parent := by
  funext name
  simp only [isUnder, sameLetters_lowered_right]

@[simp] theorem isComplex_lowered (parent : String) :
    table.isComplex (lowered parent) = table.isComplex parent := by
  rw [isComplex, isComplex, isUnder_lowered]

/-- A name in small letters stands for what the name stands for, or for nothing in the same way. -/
theorem resolve_lowered (attr : String) :
    (table.resolve (lowered attr)).mapError LookupError.lowered =
      (table.resolve attr).mapError LookupError.lowered := by
  have hunknown : (LookupError.unknownAttribute table.name (lowered attr)).lowered =
      (LookupError.unknownAttribute table.name attr).lowered := by
    rw [LookupError.lowered, lowered_lowered]
    rfl
  unfold resolve
  rw [entry?_lowered, splitAtDot_lowered]
  cases table.entry? attr with
  | some entry => cases entry <;> rfl
  | none =>
    cases splitAtDot attr with
    | none => exact congrArg Except.error hunknown
    | some parts =>
      obtain ⟨parent, sub⟩ := parts
      simp only [Option.map_some, Prod.map_apply, entry?_lowered, field?_lowered, isComplex_lowered]
      cases table.entry? parent with
      | some entry =>
        cases entry with
        | field field => rfl
        | relation relation =>
          dsimp only
          cases (ofItems relation).field? sub with
          | some field => rfl
          | none => exact congrArg Except.error (by simp [LookupError.lowered])
      | none =>
        cases table.isComplex parent with
        | true => exact congrArg Except.error (by simp [LookupError.lowered])
        | false => exact congrArg Except.error hunknown

end AttributeTable
end ScimDirectory
