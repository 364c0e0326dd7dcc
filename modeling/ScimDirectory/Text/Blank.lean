/-!
# Blank characters

Trimming and skipping go by Unicode's `White_Space` property, which holds of more than the
blanks of ASCII: no-break spaces, the ideographic space and both line separators count.
-/

namespace ScimDirectory.Text

/-- Unicode `White_Space`. -/
def isBlank (c : Char) : Bool :=
  let n := c.toNat
  (0x9 ≤ n && n ≤ 0xD) || n == 0x20 || n == 0x85 || n == 0xA0 || n == 0x1680 ||
    (0x2000 ≤ n && n ≤ 0x200A) || n == 0x2028 || n == 0x2029 || n == 0x202F ||
    n == 0x205F || n == 0x3000

/-- What follows the leading blanks. -/
def skipBlanks (s : List Char) : List Char := s.dropWhile isBlank

/-- The characters between the leading and the trailing blanks. -/
def trim (s : List Char) : List Char := (skipBlanks (skipBlanks s).reverse).reverse

/-- The text between its leading and its trailing blanks. -/
def trimmed (s : String) : String := String.ofList (trim s.toList)

/-- Whether a text holds nothing but blanks. -/
def allBlank (s : String) : Bool := s.toList.all isBlank

end ScimDirectory.Text
