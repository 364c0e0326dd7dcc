import ScimDirectory.Json.Numeral

/-!
# Reading JSON texts

A text holds one value, with any amount of space between its tokens. The members of an object
are put in the order of their names as they are read.
-/

namespace ScimDirectory.Json

/-- Reading from the front of a list of characters: the result and what follows it. -/
abbrev Reading (α : Type) := List Char → Option (α × List Char)

/-- The characters that may stand between the tokens of a text. -/
def isSpace (c : Char) : Bool := c == ' ' || c == '\n' || c == '\r' || c == '\t'

/-- What follows the space at the front. -/
def skipSpace (s : List Char) : List Char := s.dropWhile isSpace

/-- The value of a hexadecimal digit. -/
def hexDigit? (c : Char) : Option Nat :=
  if c.isDigit then some (c.toNat - '0'.toNat)
  else if 'a' ≤ c ∧ c ≤ 'f' then some (c.toNat - 'a'.toNat + 10)
  else if 'A' ≤ c ∧ c ≤ 'F' then some (c.toNat - 'A'.toNat + 10)
  else none

/-- Reads the four digits of a code unit. -/
def codeUnit : Reading Nat
  | a :: b :: c :: d :: rest => do
    let digits ← [a, b, c, d].mapM hexDigit?
    return (digits.foldl (fun n digit => 16 * n + digit) 0, rest)
  | _ => none

/-- Reads a character after `\u`: one code unit, or two that stand for one character together. -/
def codePoint : Reading Char := fun s => do
  let (unit, rest) ← codeUnit s
  if unit < 0xD800 ∨ 0xE000 ≤ unit then return (Char.ofNat unit, rest)
  else if unit < 0xDC00 then
    match rest with
    | '\\' :: 'u' :: rest => do
      let (low, rest) ← codeUnit rest
      if 0xDC00 ≤ low ∧ low < 0xE000 then
        return (Char.ofNat (0x10000 + (unit - 0xD800) * 0x400 + (low - 0xDC00)), rest)
      else none
    | _ => none
  else none

/-- The character that a letter after a backslash stands for. -/
def escaped? : Char → Option Char
  | '"' => some '"'
  | '\\' => some '\\'
  | '/' => some '/'
  | 'b' => some '\x08'
  | 'f' => some '\x0c'
  | 'n' => some '\n'
  | 'r' => some '\r'
  | 't' => some '\t'
  | _ => none

/-- Reads one character of a string, which is not its closing quote. -/
def stringChar : Reading Char
  | '\\' :: 'u' :: rest => codePoint rest
  | '\\' :: c :: rest => (escaped? c).map (·, rest)
  | c :: rest => if c.toNat < 0x20 ∨ c = '\\' then none else some (c, rest)
  | [] => none

/-- Reads a string of at most `count` characters after its opening quote. -/
def string : Nat → Reading (List Char)
  | 0, _ => none
  | _ + 1, '"' :: rest => some ([], rest)
  | count + 1, s => do
    let (c, rest) ← stringChar s
    let (cs, rest) ← string count rest
    return (c :: cs, rest)

/-- The characters that numbers are made of. -/
def isNumberChar (c : Char) : Bool :=
  c.isDigit || c == '-' || c == '+' || c == '.' || c == 'e' || c == 'E'

/-- Reads a number. -/
def number : Reading Json := fun s =>
  (numberOf? (s.takeWhile isNumberChar)).map (·, s.dropWhile isNumberChar)

/-- Reads a word that stands for a value. -/
def word (text : String) (json : Json) : Reading Json := fun s =>
  if text.toList.isPrefixOf s then some (json, s.drop text.toList.length) else none

mutual

/-- Reads a value in at most `fuel` steps. -/
def value : Nat → Reading Json
  | 0, _ => none
  | fuel + 1, s =>
    match skipSpace s with
    | '"' :: rest => (string fuel rest).map fun (cs, rest) => (.text (String.ofList cs), rest)
    | '[' :: rest =>
      match skipSpace rest with
      | ']' :: rest => some (.array [], rest)
      | rest => (elements fuel rest).map fun (values, rest) => (.array values, rest)
    | '\x7b' :: rest =>
      match skipSpace rest with
      | '\x7d' :: rest => some (.object [], rest)
      | rest => (entries fuel rest).map fun (members, rest) => (ofMembers members, rest)
    | 'n' :: rest => word "null" .null ('n' :: rest)
    | 't' :: rest => word "true" (.bool true) ('t' :: rest)
    | 'f' :: rest => word "false" (.bool false) ('f' :: rest)
    | rest => number rest

/-- Reads the elements of an array and its closing bracket. -/
def elements : Nat → Reading (List Json)
  | 0, _ => none
  | fuel + 1, s => do
    let (json, rest) ← value fuel s
    match skipSpace rest with
    | ',' :: rest => (elements fuel rest).map fun (values, rest) => (json :: values, rest)
    | ']' :: rest => some ([json], rest)
    | _ => none

/-- Reads the members of an object and its closing brace. -/
def entries : Nat → Reading (List (String × Json))
  | 0, _ => none
  | fuel + 1, s =>
    match skipSpace s with
    | '"' :: rest => do
      let (name, rest) ← string fuel rest
      match skipSpace rest with
      | ':' :: rest => do
        let (json, rest) ← value fuel rest
        let member := (String.ofList name, json)
        match skipSpace rest with
        | ',' :: rest => (entries fuel rest).map fun (members, rest) => (member :: members, rest)
        | '\x7d' :: rest => some ([member], rest)
        | _ => none
      | _ => none
    | _ => none

end

/-- Reads a text that holds one value and nothing else. Of two steps one takes a character, so twice
the length of the text bounds their number. -/
def ofText? (text : String) : Option Json :=
  let s := text.toList
  match value (2 * s.length + 2) s with
  | some (json, rest) => if (skipSpace rest).isEmpty then some json else none
  | none => none

end ScimDirectory.Json
