import ScimDirectory.Text.CaseProperties
import ScimDirectory.Text.CaseRuns

/-!
# Lower case

Comparisons that ignore case compare lower-case forms under the full mapping of Unicode.
Two of its rules reach past a single character: U+0130 becomes two characters, and a capital
sigma becomes a final sigma where it ends a word.
-/

namespace ScimDirectory.Text

/-- The lower-case form of one character out of context. -/
def lowercaseChar (c : Char) : List Char :=
  if c.toNat < 0x80 then [c.toLower]
  else if c = '\u0130' then ['i', '\u0307']
  else match caseRuns.findSome? (·.lower? c.toNat) with
    | some n => [Char.ofNat n]
    | none => [c]

/-- Whether a cased character comes first, case-ignorable ones aside. -/
def startsCased (s : List Char) : Bool :=
  match s.dropWhile isCaseIgnorable with
  | [] => false
  | c :: _ => isCased c

/-- Whether a place ends a word: a cased character stands before it and none after it. What
stands before is given from the nearest character outwards. -/
def endsWord (before after : List Char) : Bool := startsCased before && !startsCased after

/-- The lower-case form of a character between what stands before and after it. -/
def lowercaseAt (before : List Char) (c : Char) (after : List Char) : List Char :=
  if c = '\u03A3' then
    if endsWord before after then ['\u03C2'] else ['\u03C3']
  else lowercaseChar c

/-- The lower-case form of the characters after those in `before`, which is reversed. -/
def lowercaseFrom (before : List Char) : List Char → List Char
  | [] => []
  | c :: after => lowercaseAt before c after ++ lowercaseFrom (c :: before) after

/-- The lower-case form of a text. -/
def lowercase (s : String) : String := String.ofList (lowercaseFrom [] s.toList)

end ScimDirectory.Text
