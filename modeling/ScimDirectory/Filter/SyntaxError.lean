/-!
# Syntax errors

Why a text is not a filter or a path, and where. Positions and lengths count the bytes of the
text in UTF-8.
-/

namespace ScimDirectory

/-- What is wrong at a place of a text. -/
inductive Fault where
  /-- The text holds nothing but blanks. -/
  | emptyExpression
  /-- Something follows the expression. -/
  | unexpectedInput (rest : String)
  /-- No parenthesis follows `not`. -/
  | notWithoutGroup
  /-- A group is not closed. -/
  | unclosedGroup
  /-- A value filter is not closed. -/
  | unclosedValueFilter
  /-- A sub-attribute follows a value filter outside a path. -/
  | subAttributeInFilter
  /-- No operator follows the attribute. -/
  | missingOperator
  /-- A word that is no operator follows the attribute. -/
  | unknownOperator (word : String)
  /-- No attribute name stands where one has to. -/
  | missingName
  /-- The dots of an attribute name are misplaced. -/
  | malformedName (name : String)
  /-- No value follows the operator. -/
  | missingValue
  /-- A string is not closed. -/
  | unclosedString
  /-- A backslash in a string stands before no character that it escapes. -/
  | invalidEscape
  /-- A number has no digits where it has to. -/
  | invalidNumber (text : String)
  /-- The expression is no path. -/
  | notAPath
  deriving DecidableEq

/-- The wording of a fault. -/
def Fault.message : Fault → String
  | .emptyExpression => "Empty expression"
  | .unexpectedInput rest => "Unexpected input: '" ++ rest ++ "'"
  | .notWithoutGroup => "Expected '(' after 'not'"
  | .unclosedGroup => "Expected ')' to close grouped expression"
  | .unclosedValueFilter => "Expected ']' to close value filter"
  | .subAttributeInFilter => "A sub-attribute after a value filter is only valid in a PATCH path"
  | .missingOperator => "Expected operator"
  | .unknownOperator word => "Unknown operator: '" ++ word ++ "'"
  | .missingName => "Expected attribute name"
  | .malformedName name => "Malformed attribute name: '" ++ name ++ "'"
  | .missingValue => "Expected value (string, boolean, number, or null)"
  | .unclosedString => "Unterminated string"
  | .invalidEscape => "Invalid escape sequence"
  | .invalidNumber text => "Invalid number: '" ++ text ++ "'"
  | .notAPath => "expected an attribute path"

/-- Why a text is not an expression. -/
inductive SyntaxError where
  /-- A fault at a position. -/
  | fault (fault : Fault) (position : Nat)
  /-- The text is longer than a text may be. -/
  | tooLong (length max : Nat)
  /-- Parentheses and brackets are nested more deeply than they may be. -/
  | tooDeep (max : Nat)
  /-- A value filter stands inside another one. -/
  | nestedValueFilter (position : Nat)
  deriving DecidableEq

/-- The wording of the error. -/
def SyntaxError.message : SyntaxError → String
  | .fault f position => f.message ++ " at position " ++ toString position
  | .tooLong length max =>
    "filter exceeds maximum length (" ++ toString length ++ " bytes, max " ++ toString max ++ ")"
  | .tooDeep max => "filter exceeds maximum nesting depth (" ++ toString max ++ ")"
  | .nestedValueFilter position =>
    "nested value filters are not supported (position " ++ toString position ++ ")"

end ScimDirectory
