import ScimDirectory.Filter.Expr
import ScimDirectory.Filter.SyntaxError
import ScimDirectory.Schema.ResourceType
import ScimDirectory.Text.AsciiCase
import ScimDirectory.Text.Blank

/-!
# Words of the filter grammar

Names, keywords, operators and literals, each read from the front of a list of characters. A
reading that stops gives the characters from the place where it stopped, which is where the
fault is.
-/

namespace ScimDirectory.Filter

/-- Why and where reading stopped. -/
inductive Stop where
  /-- A fault where these characters begin. -/
  | fault (fault : Fault) (place : List Char)
  /-- One scope too many. -/
  | tooDeep
  /-- A value filter inside another one, where these characters begin. -/
  | nestedValueFilter (place : List Char)
  deriving DecidableEq

/-- Reading from the front of a list of characters: the result and what follows it. -/
abbrev Reader (α : Type) := List Char → Except Stop (α × List Char)

/-- The characters that may continue a keyword into a longer name. -/
def continuesWord (c : Char) : Bool :=
  Text.isAsciiAlphanumeric c || c == '_' || c == '.' || c == ':'

/-- What follows a keyword, blanks before it aside. The keyword may be in any letter case and
must not go on into a longer name. -/
def keyword? (word : String) (s : List Char) : Option (List Char) :=
  let s := Text.skipBlanks s
  let length := word.toList.length
  if Text.lowerAscii (s.take length) = word.toList ∧
      !(s.drop length).head?.any continuesWord then
    some (s.drop length)
  else none

/-- The characters that may start a name. -/
def startsName (c : Char) : Bool := Text.isAsciiLetter c || c == '$'

/-- The characters that a name is made of. -/
def isNameChar (c : Char) : Bool :=
  Text.isAsciiAlphanumeric c || c == '_' || c == '-' || c == '.' || c == ':' || c == '$'

/-- Whether two dots stand side by side, or a dot comes last. -/
def misplacedDot : List Char → Bool
  | [] => false
  | ['.'] => true
  | '.' :: '.' :: _ => true
  | _ :: rest => misplacedDot rest

/-- The rest of a name after a schema prefix, unless the prefix is all of it. -/
def dropSchema? (schema name : List Char) : Option (List Char) :=
  if schema.length < name.length ∧
      Text.lowerAscii (name.take schema.length) = Text.lowerAscii schema then
    some (name.drop schema.length)
  else none

/-- The schema of a resource type as a prefix of attribute names. -/
def schemaPrefix (type : ResourceType) : List Char := type.schema.toList ++ [':']

/-- A name without the prefix of a core schema. -/
def dropSchemas (name : List Char) : List Char :=
  ((ResourceType.all.map schemaPrefix).findSome? (dropSchema? · name)).getD name

/-- Reads an attribute name. -/
def name : Reader String := fun s =>
  let s := Text.skipBlanks s
  if s.head?.any startsName then
    let word := s.takeWhile isNameChar
    if misplacedDot word then .error (.fault (.malformedName (String.ofList word)) s)
    else .ok (String.ofList (dropSchemas word), s.dropWhile isNameChar)
  else .error (.fault .missingName s)

/-- The character that an escape stands for. -/
def unescape? (c : Char) : Option Char :=
  if c = '"' ∨ c = '\\' ∨ c = '/' then some c
  else if c = 'n' then some '\n'
  else if c = 't' then some '\t'
  else if c = 'r' then some '\r'
  else none

/-- Reads a string after its opening quote. -/
def stringBody : List Char → Except Stop (List Char × List Char)
  | [] => .error (.fault .unclosedString [])
  | '"' :: rest => .ok ([], rest)
  | ['\\'] => .error (.fault .invalidEscape [])
  | '\\' :: c :: rest =>
    match unescape? c with
    | none => .error (.fault .invalidEscape (c :: rest))
    | some d => (stringBody rest).map fun (value, rest) => (d :: value, rest)
  | c :: rest => (stringBody rest).map fun (value, rest) => (c :: value, rest)

/-- What follows an optional sign. -/
def afterSign : List Char → List Char
  | '-' :: rest | '+' :: rest => rest
  | s => s

/-- What follows the characters of a number: a sign, digits, a point with digits, and an
exponent, each as far as it is there. -/
def afterNumber (s : List Char) : List Char :=
  let s := (afterSign s).dropWhile Char.isDigit
  let s := match s with
    | '.' :: rest => rest.dropWhile Char.isDigit
    | s => s
  match s with
  | 'e' :: rest | 'E' :: rest => (afterSign rest).dropWhile Char.isDigit
  | s => s

/-- Reads a number. -/
def number : Reader Literal := fun s =>
  let rest := afterNumber s
  let text := s.take (s.length - rest.length)
  match Binary64.ofText? text with
  | some x => .ok (.number x, rest)
  | none => .error (.fault (.invalidNumber (String.ofList text)) s)

/-- Whether a character can start a number. -/
def startsNumber (c : Char) : Bool := c.isDigit || c == '-' || c == '+'

/-- Reads a value. -/
def literal : Reader Literal := fun s =>
  match Text.skipBlanks s with
  | '"' :: rest => (stringBody rest).map fun (value, rest) => (.text (String.ofList value), rest)
  | s =>
    match keyword? "true" s, keyword? "false" s, keyword? "null" s with
    | some rest, _, _ => .ok (.bool true, rest)
    | _, some rest, _ => .ok (.bool false, rest)
    | _, _, some rest => .ok (.null, rest)
    | _, _, _ =>
      if s.head?.any startsNumber then number s else .error (.fault .missingValue s)

/-- What an operator asks of an attribute and a value. -/
inductive Operator where
  /-- A comparison. -/
  | compare (comparison : Comparison)
  /-- A search. -/
  | search (occurrence : Occurrence)

/-- The operator of a word in small letters. -/
def Operator.ofWord? (word : String) : Option Operator :=
  match Comparison.ofOperator? word with
  | some comparison => some (.compare comparison)
  | none => (Occurrence.ofOperator? word).map .search

/-- The expression of an operator between an attribute and a value. -/
def Operator.apply (operator : Operator) (attr : String) (value : Literal) : Expr :=
  match operator with
  | compare comparison => .compare attr comparison value
  | search occurrence => .search attr occurrence value

/-- Reads an operator and a value after an attribute. -/
def condition (attr : String) : Reader Expr := fun s =>
  let s := Text.skipBlanks s
  let word := s.takeWhile Text.isAsciiLetter
  let lower := String.ofList (Text.lowerAscii word)
  match Operator.ofWord? lower with
  | some operator =>
    (literal (s.dropWhile Text.isAsciiLetter)).map fun (value, rest) =>
      (operator.apply attr value, rest)
  | none =>
    if word.isEmpty then .error (.fault .missingOperator s)
    else .error (.fault (.unknownOperator lower) s)

end ScimDirectory.Filter
