/-!
# Letter case in ASCII

Attribute names, keywords and schema prefixes ignore the case of the 26 ASCII letters and
of no other.
-/

namespace ScimDirectory.Text

/-- The characters with every ASCII capital made small. -/
def lowerAscii (s : List Char) : List Char := s.map Char.toLower

/-- Whether two texts differ in nothing but the case of ASCII letters. -/
def sameLetters (a b : String) : Bool := lowerAscii a.toList == lowerAscii b.toList

/-- The letters `A` to `Z` and `a` to `z`. -/
def isAsciiLetter (c : Char) : Bool := c.isAlpha

/-- The ASCII letters and digits. -/
def isAsciiAlphanumeric (c : Char) : Bool := c.isAlphanum

end ScimDirectory.Text
