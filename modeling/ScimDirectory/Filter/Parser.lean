import ScimDirectory.Filter.Scan

/-!
# The filter grammar

A filter is a disjunction of conjunctions of operands, and an operand is a group, a value filter
or a condition on an attribute. A path is an attribute, perhaps with a value filter and a
sub-attribute. Groups and value filters open a scope; the number of scopes that may be open at
once decreases inwards, and value filters do not nest.
-/

namespace ScimDirectory.Filter

/-- Reads further operands, each after a keyword, and joins them to the left. There are at most
`count` of them. -/
def joined (connective : Connective) (operand : Reader Expr) : Nat → Expr → Reader Expr
  | 0, lhs, s => .ok (lhs, s)
  | count + 1, lhs, s =>
    match keyword? connective.keyword s with
    | none => .ok (lhs, s)
    | some rest =>
      match operand rest with
      | .error stop => .error stop
      | .ok (rhs, rest) => joined connective operand count (.join connective lhs rhs) rest

/-- Reads operands between keywords. Each keyword takes characters, so their number bounds the
number of operands. -/
def chain (connective : Connective) (operand : Reader Expr) : Reader Expr := fun s =>
  match operand s with
  | .error stop => .error stop
  | .ok (lhs, rest) => joined connective operand rest.length lhs rest

/-- Reads a disjunction of conjunctions. -/
def disjunction (operand : Reader Expr) : Reader Expr := chain .or (chain .and operand)

/-- How the filter of a scope is read, given whether it is in a value filter; none when no scope
may be opened. -/
abbrev Scope := Option (Bool → Reader Expr)

/-- Reads the filter of a new scope. -/
def Scope.enter (scope : Scope) (inValueFilter : Bool) : Reader Expr := fun s =>
  match scope with
  | none => .error .tooDeep
  | some filter => filter inValueFilter s

/-- Reads a group after its opening parenthesis. -/
def group (scope : Scope) (inValueFilter negated : Bool) : Reader Expr := fun s =>
  match scope.enter inValueFilter s with
  | .error stop => .error stop
  | .ok (inner, rest) =>
    match Text.skipBlanks rest with
    | ')' :: rest => .ok (.group negated inner, rest)
    | rest => .error (.fault .unclosedGroup rest)

/-- Reads a value filter from its opening bracket. -/
def valueFilter (scope : Scope) (inValueFilter : Bool) : Reader Expr := fun s =>
  if inValueFilter then .error (.nestedValueFilter s)
  else
    match scope.enter true (s.drop 1) with
    | .error stop => .error stop
    | .ok (filter, rest) =>
      match Text.skipBlanks rest with
      | ']' :: rest => .ok (filter, rest)
      | rest => .error (.fault .unclosedValueFilter rest)

/-- Reads what may follow an attribute in a filter. -/
def afterName (scope : Scope) (inValueFilter : Bool) (attr : String) : Reader Expr := fun s =>
  match s with
  | '[' :: _ =>
    match valueFilter scope inValueFilter s with
    | .error stop => .error stop
    | .ok (_, '.' :: rest) => .error (.fault .subAttributeInFilter ('.' :: rest))
    | .ok (filter, rest) => .ok (.valuePath attr filter none, rest)
  | s =>
    match keyword? "pr" s with
    | some rest => .ok (.present attr, rest)
    | none => condition attr s

/-- Reads an operand. -/
def operand (scope : Scope) (inValueFilter : Bool) : Reader Expr := fun s =>
  let s := Text.skipBlanks s
  match keyword? "not" s with
  | some rest =>
    match Text.skipBlanks rest with
    | '(' :: inner => group scope inValueFilter true inner
    | rest => .error (.fault .notWithoutGroup rest)
  | none =>
    match s with
    | '(' :: inner => group scope inValueFilter false inner
    | s =>
      match name s with
      | .error stop => .error stop
      | .ok (attr, rest) => afterName scope inValueFilter attr rest

/-- Reads a filter in which at most `depth` scopes may be open at once. -/
def filter : Nat → Bool → Reader Expr
  | 0, inValueFilter => disjunction (operand none inValueFilter)
  | depth + 1, inValueFilter => disjunction (operand (some (filter depth)) inValueFilter)

/-- The scope that a number of open scopes allows. -/
def scopeOf : Nat → Scope
  | 0 => none
  | depth + 1 => some (filter depth)

/-- Reads a path. -/
def path (depth : Nat) : Reader Expr := fun s =>
  match name s with
  | .error stop => .error stop
  | .ok (attr, rest) =>
    match rest with
    | '[' :: _ =>
      match valueFilter (scopeOf depth) false rest with
      | .error stop => .error stop
      | .ok (filter, '.' :: rest) =>
        (name rest).map fun (sub, rest) => (.valuePath attr filter (some sub), rest)
      | .ok (filter, rest) => .ok (.valuePath attr filter none, rest)
    | rest => .ok (.path attr none, rest)

/-- What a text is read as. -/
inductive Mode where
  /-- The filter of a search. -/
  | filter
  /-- The path of an operation. -/
  | path
  deriving DecidableEq

/-- Bounds on the texts that are read. -/
structure Limits where
  /-- The greatest length in bytes. -/
  maxLength : Nat
  /-- The greatest number of scopes open at once. -/
  maxDepth : Nat

/-- The bounds that hold unless others are given. -/
def Limits.standard : Limits := ⟨4096, 32⟩

/-- The length of characters in bytes. -/
def byteLength (s : List Char) : Nat := s.foldr (fun c length => c.utf8Size + length) 0

/-- The error of a stop within a text, whose position is the length of what comes before the
place of the stop. -/
def Stop.toError (limits : Limits) (text : List Char) : Stop → SyntaxError
  | fault f place => .fault f (byteLength text - byteLength place)
  | tooDeep => .tooDeep limits.maxDepth
  | nestedValueFilter place => .nestedValueFilter (byteLength text - byteLength place)

/-- Reads an expression. -/
def expression (limits : Limits) : Mode → Reader Expr
  | .filter => filter limits.maxDepth false
  | .path => path limits.maxDepth

/-- Reads an expression that nothing follows. -/
def whole (limits : Limits) (mode : Mode) (s : List Char) : Except Stop Expr :=
  match expression limits mode s with
  | .error stop => .error stop
  | .ok (expr, rest) =>
    match Text.skipBlanks rest with
    | [] => .ok expr
    | rest => .error (.fault (.unexpectedInput (String.ofList rest)) rest)

/-- Reads a text within bounds as an expression. -/
def parseWithin (limits : Limits) (mode : Mode) (text : String) : Except SyntaxError Expr :=
  let s := text.toList
  if limits.maxLength < byteLength s then .error (.tooLong (byteLength s) limits.maxLength)
  else if Text.allBlank text then .error (.fault .emptyExpression 0)
  else (whole limits mode s).mapError (·.toError limits s)

/-- Reads a text as an expression. -/
def parse (mode : Mode) (text : String) : Except SyntaxError Expr :=
  parseWithin .standard mode text

/-- A way to read texts as expressions. -/
abbrev Parser := Mode → String → Except SyntaxError Expr

/-- A parser that knows the answers to some texts and leaves the others to another parser. -/
def Parser.knowing (answers : List (String × Expr)) (parser : Parser) : Parser := fun mode text =>
  match answers.lookup text with
  | some expr => .ok expr
  | none => parser mode text

end ScimDirectory.Filter
