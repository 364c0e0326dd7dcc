import ScimDirectory.Proofs.Filter.Cuts

/-!
# Reading by offsets

The grammar once more, read by a cursor that stands at an offset of the text in bytes. Moving the
cursor is adding to a number and checks nothing, but a text is cut at offsets only where they lie
between characters: a walk that cuts it elsewhere gives nothing, and neither does a loop that goes
on after as many passes as the text has bytes. The cursor keeps the offsets where it has been.
-/

namespace ScimDirectory.Filter

/-- The place of a reading in a text. -/
structure Cursor where
  /-- The offset where it stands. -/
  position : Nat
  /-- The offsets where it has stood before, the last one first. -/
  passed : List Nat

/-- A reading that moves a cursor through a text. It gives nothing where the text cannot be cut. -/
abbrev Walk (α : Type) := ExceptT SyntaxError (StateT Cursor Option) α

namespace Walk

variable (limits : Limits) (text : List Char)

/-- Looks at the text from where the cursor stands. -/
def look {α : Type} (view : Nat → Option α) : Walk α := fun cursor =>
  (view cursor.position).map fun a => (.ok a, cursor)

/-- A loop that has made too many passes. -/
def endless {α : Type} : Walk α := fun _ => none

/-- How many passes of a loop are enough, when all but the last move the cursor. -/
def passes : Nat := byteLength text + 1

/-- Moves the cursor by a number of bytes. -/
def moveBy (n : Nat) : Walk Unit := fun cursor =>
  some (.ok (), ⟨cursor.position + n, cursor.position :: cursor.passed⟩)

/-- The offset where the cursor stands. -/
def here : Walk Nat := look some

/-- What follows the cursor. -/
def remaining : Walk (List Char) := look fun p => (splitBytes? p text).map Prod.snd

/-- What stands between an offset and the cursor. -/
def since (start : Nat) : Walk (List Char) := look (slice? text start)

/-- The next character. -/
def peek : Walk (Option Char) := do return (← remaining text).head?

/-- Moves over the next character, if there is one. -/
def advance : Walk Unit := do
  match ← peek text with
  | some c => moveBy c.utf8Size
  | none => return ()

/-- Whether a character of a kind comes next. -/
def sees (accept : Char → Bool) : Walk Bool := do return (← peek text).any accept

/-- Moves over a character of a kind, and tells whether it came next. -/
def take (accept : Char → Bool) : Walk Bool := do
  if ← sees text accept then
    advance text
    return true
  else return false

/-- Moves over characters of a kind in at most so many passes. -/
def skipIn (accept : Char → Bool) : Nat → Walk Unit
  | 0 => endless
  | count + 1 => do
    if ← take text accept then skipIn accept count else return ()

/-- Moves over characters of a kind. -/
def skip (accept : Char → Bool) : Walk Unit := skipIn text accept (passes text)

/-- What follows a keyword that comes next. It is compared with as many bytes of the text as it has,
if the text can be cut after them. -/
def afterWord? (word : String) (s : List Char) : Option (List Char) :=
  match splitBytes? (byteLength word.toList) s with
  | none => none
  | some (front, rest) =>
    if Text.lowerAscii front = word.toList ∧ !rest.head?.any continuesWord then some rest else none

/-- Moves over a keyword after blanks, and tells whether it came next. -/
def takeKeyword (word : String) : Walk Bool := do
  skip text Text.isBlank
  if (afterWord? word (← remaining text)).isSome then
    moveBy (byteLength word.toList)
    return true
  else return false

/-- What is left of a name without the first of the prefixes that it has and that is not all of it.
The name is cut after as many bytes as a prefix has, if it has more. -/
def withoutPrefix? : List (List Char) → List Char → Option (List Char)
  | [], word => some word
  | schema :: schemas, word =>
    if byteLength schema < byteLength word then do
      let (front, rest) ← splitBytes? (byteLength schema) word
      if Text.lowerAscii front = Text.lowerAscii schema then some rest
      else withoutPrefix? schemas word
    else withoutPrefix? schemas word

/-- Reads an attribute name. -/
def name : Walk String := do
  skip text Text.isBlank
  let start ← here
  if ← sees text startsName then
    skip text isNameChar
    let word ← since text start
    if misplacedDot word then throw (.fault (.malformedName (String.ofList word)) start)
    else
      let bare ← look fun _ => withoutPrefix? (ResourceType.all.map schemaPrefix) word
      return String.ofList bare
  else throw (.fault .missingName start)

/-- Reads a string after its opening quote in at most so many passes. -/
def stringIn : Nat → Walk (List Char)
  | 0 => endless
  | count + 1 => do
    match ← peek text with
    | none => throw (.fault .unclosedString (← here))
    | some '"' =>
      advance text
      return []
    | some '\\' =>
      advance text
      match (← peek text).bind unescape? with
      | none => throw (.fault .invalidEscape (← here))
      | some d =>
        advance text
        return d :: (← stringIn count)
    | some c =>
      advance text
      return c :: (← stringIn count)

/-- Moves over a sign, if there is one. -/
def skipSign : Walk Unit := do
  let _ ← take text fun c => c == '-' || c == '+'

/-- Moves over a point and digits, if there is a point. -/
def skipFraction : Walk Unit := do
  if ← take text (· == '.') then skip text Char.isDigit else return ()

/-- Moves over an exponent, if there is one. -/
def skipExponent : Walk Unit := do
  if ← take text fun c => c == 'e' || c == 'E' then
    skipSign text
    skip text Char.isDigit
  else return ()

/-- Reads a number. -/
def number : Walk Literal := do
  let start ← here
  skipSign text
  skip text Char.isDigit
  skipFraction text
  skipExponent text
  let word ← since text start
  match Binary64.ofText? word with
  | some x => return .number x
  | none => throw (.fault (.invalidNumber (String.ofList word)) start)

/-- Reads a value. -/
def literal : Walk Literal := do
  skip text Text.isBlank
  if ← take text (· == '"') then return .text (String.ofList (← stringIn text (passes text)))
  else if ← takeKeyword text "true" then return .bool true
  else if ← takeKeyword text "false" then return .bool false
  else if ← takeKeyword text "null" then return .null
  else if ← sees text startsNumber then number text
  else throw (.fault .missingValue (← here))

/-- Reads an operator and a value after an attribute. -/
def condition (attr : String) : Walk Expr := do
  skip text Text.isBlank
  let start ← here
  skip text Text.isAsciiLetter
  let word ← since text start
  let lower := String.ofList (Text.lowerAscii word)
  match Operator.ofWord? lower with
  | some operator => return operator.apply attr (← literal text)
  | none =>
    if word.isEmpty then throw (.fault .missingOperator start)
    else throw (.fault (.unknownOperator lower) start)

/-- Reads further operands in at most so many passes, and joins them to the left. -/
def joined (connective : Connective) (operand : Walk Expr) : Nat → Expr → Walk Expr
  | 0, _ => endless
  | count + 1, lhs => do
    if ← takeKeyword text connective.keyword then
      joined connective operand count (.join connective lhs (← operand))
    else return lhs

/-- Reads operands between keywords. -/
def chain (connective : Connective) (operand : Walk Expr) : Walk Expr := do
  joined text connective operand (passes text) (← operand)

/-- How the filter of a scope is read, given whether it is in a value filter; none when no scope
may be opened. -/
abbrev Scope := Option (Bool → Walk Expr)

/-- Reads the filter of a new scope. -/
def Scope.enter (scope : Scope) (inValueFilter : Bool) : Walk Expr :=
  match scope with
  | none => throw (.tooDeep limits.maxDepth)
  | some filter => filter inValueFilter

/-- Reads a group after its opening parenthesis. -/
def group (scope : Scope) (inValueFilter negated : Bool) : Walk Expr := do
  let inner ← scope.enter limits inValueFilter
  skip text Text.isBlank
  if ← take text (· == ')') then return .group negated inner
  else throw (.fault .unclosedGroup (← here))

/-- Reads a value filter from its opening bracket. -/
def valueFilter (scope : Scope) (inValueFilter : Bool) : Walk Expr := do
  if inValueFilter then throw (.nestedValueFilter (← here))
  else
    advance text
    let filter ← scope.enter limits true
    skip text Text.isBlank
    if ← take text (· == ']') then return filter
    else throw (.fault .unclosedValueFilter (← here))

/-- Reads what may follow an attribute in a filter. -/
def afterName (scope : Scope) (inValueFilter : Bool) (attr : String) : Walk Expr := do
  if ← sees text (· == '[') then
    let filter ← valueFilter limits text scope inValueFilter
    if ← sees text (· == '.') then throw (.fault .subAttributeInFilter (← here))
    else return .valuePath attr filter none
  else if ← takeKeyword text "pr" then return .present attr
  else condition text attr

/-- Reads an operand. -/
def operand (scope : Scope) (inValueFilter : Bool) : Walk Expr := do
  skip text Text.isBlank
  if ← takeKeyword text "not" then
    skip text Text.isBlank
    if ← take text (· == '(') then group limits text scope inValueFilter true
    else throw (.fault .notWithoutGroup (← here))
  else if ← take text (· == '(') then group limits text scope inValueFilter false
  else afterName limits text scope inValueFilter (← name text)

/-- Reads a filter in which at most `depth` scopes may be open at once. -/
def filter : Nat → Bool → Walk Expr
  | 0, inValueFilter => chain text .or (chain text .and (operand limits text none inValueFilter))
  | depth + 1, inValueFilter =>
    chain text .or (chain text .and (operand limits text (some (filter depth)) inValueFilter))

/-- The scope that a number of open scopes allows. -/
def scopeOf : Nat → Scope
  | 0 => none
  | depth + 1 => some (filter limits text depth)

/-- Reads a path. -/
def path (depth : Nat) : Walk Expr := do
  let attr ← name text
  if ← sees text (· == '[') then
    let filter ← valueFilter limits text (scopeOf limits text depth) false
    if ← take text (· == '.') then return .valuePath attr filter (some (← name text))
    else return .valuePath attr filter none
  else return .path attr none

/-- Reads an expression. -/
def expression : Mode → Walk Expr
  | .filter => filter limits text limits.maxDepth false
  | .path => path limits text limits.maxDepth

/-- Reads an expression that nothing follows. -/
def whole (mode : Mode) : Walk Expr := do
  let expr ← expression limits text mode
  skip text Text.isBlank
  let position ← here
  if position < byteLength text then
    throw (.fault (.unexpectedInput (String.ofList (← remaining text))) position)
  else return expr

/-- Reads a text within bounds as an expression, and gives the offsets where the cursor has been. -/
def parseWithin (limits : Limits) (mode : Mode) (text : String) :
    Option (Except SyntaxError Expr × List Nat) :=
  let s := text.toList
  if limits.maxLength < byteLength s then
    some (.error (.tooLong (byteLength s) limits.maxLength), [])
  else if Text.allBlank text then some (.error (.fault .emptyExpression 0), [])
  else
    (whole limits s mode ⟨0, []⟩).map fun (answer, cursor) =>
      (answer, cursor.position :: cursor.passed)

end Walk
end ScimDirectory.Filter
