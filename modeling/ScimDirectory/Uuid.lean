import ScimDirectory.Text.AsciiCase

/-!
# Universally unique identifiers

A UUID is thirty-two hexadecimal digits. It is written in its hyphenated form and read from
four: hyphenated, plain, hyphenated between braces, and hyphenated after `urn:uuid:`. The case of
letters does not matter.
-/

namespace ScimDirectory

/-- Thirty-two hexadecimal digits, the most significant first. -/
structure Uuid where
  /-- The digits. -/
  digits : List (Fin 16)
  /-- There are thirty-two of them. -/
  length_digits : digits.length = 32
  deriving DecidableEq

namespace Uuid

/-- The character of a hexadecimal digit. -/
def digitChar (d : Fin 16) : Char :=
  Char.ofNat (if d.val < 10 then '0'.toNat + d.val else 'a'.toNat + (d.val - 10))

/-- The value of a hexadecimal digit. -/
def digit? (c : Char) : Option (Fin 16) :=
  if c.isDigit then some (Fin.ofNat 16 (c.toNat - '0'.toNat))
  else if 'a' ≤ c ∧ c ≤ 'f' then some (Fin.ofNat 16 (c.toNat - 'a'.toNat + 10))
  else if 'A' ≤ c ∧ c ≤ 'F' then some (Fin.ofNat 16 (c.toNat - 'A'.toNat + 10))
  else none

/-- The UUID of thirty-two digits. -/
def ofDigits? (digits : List (Fin 16)) : Option Uuid :=
  if h : digits.length = 32 then some ⟨digits, h⟩ else none

/-- The UUID of zeros. -/
def nil : Uuid := ⟨List.replicate 32 0, rfl⟩

/-- The characters of the hyphenated form: groups of 8, 4, 4, 4 and 12 digits. -/
def toChars (u : Uuid) : List Char :=
  let cs := u.digits.map digitChar
  cs.take 8 ++ '-' :: (cs.drop 8).take 4 ++ '-' :: (cs.drop 12).take 4 ++ '-' ::
    (cs.drop 16).take 4 ++ '-' :: cs.drop 20

/-- The hyphenated form. -/
def toText (u : Uuid) : String := String.ofList u.toChars

/-- Reads thirty-two digits and nothing else. -/
def ofPlain? (cs : List Char) : Option Uuid := (cs.mapM digit?).bind ofDigits?

/-- Reads digits with hyphens before the 9th, 13th, 17th and 21st. -/
def ofHyphenated? (cs : List Char) : Option Uuid :=
  if cs.length = 36 ∧ cs[8]? = some '-' ∧ cs[13]? = some '-' ∧ cs[18]? = some '-' ∧
      cs[23]? = some '-' then
    ofPlain? (cs.take 8 ++ (cs.drop 9).take 4 ++ (cs.drop 14).take 4 ++ (cs.drop 19).take 4 ++
      cs.drop 24)
  else none

/-- Reads any of the four forms. Their lengths tell them apart. -/
def ofChars? (cs : List Char) : Option Uuid :=
  if cs.length = 32 then ofPlain? cs
  else if cs.length = 36 then ofHyphenated? cs
  else if cs.length = 38 ∧ cs.head? = some '\x7b' ∧ cs.getLast? = some '\x7d' then
    ofHyphenated? (cs.drop 1).dropLast
  else if cs.length = 45 ∧ Text.lowerAscii (cs.take 9) = "urn:uuid:".toList then
    ofHyphenated? (cs.drop 9)
  else none

/-- Reads any of the four forms from a text. -/
def ofText? (s : String) : Option Uuid := ofChars? s.toList

/-- Whether the digits of one UUID come before or equal those of another. -/
def le (a b : Uuid) : Bool := !b.digits.lex a.digits fun x y => x.val < y.val

/-- A number in twelve hexadecimal digits, the least significant twelve if it has more. -/
def lowDigits (n : Nat) : List (Fin 16) :=
  (List.range 12).map fun i => Fin.ofNat 16 (n / Nat.pow 16 (11 - i))

/-- The version 4 identifier with a number in its last twelve digits and zeros elsewhere. -/
def numbered (n : Nat) : Uuid :=
  ⟨List.replicate 12 0 ++ [4, 0, 0, 0, 8, 0, 0, 0] ++ lowDigits n, by simp [lowDigits]⟩

end Uuid
end ScimDirectory
