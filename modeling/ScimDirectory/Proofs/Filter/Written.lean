import ScimDirectory.Filter.Parser
import ScimDirectory.Proofs.Filter.Characters

/-!
# Expressions and their writings

Which expressions the grammar has, and how they may be written. An expression of the grammar has
its chains nested to the left, with conjunctions inside disjunctions, and its names keep the rule
for names. A writing of it leaves open the case of the letters of operators and keywords and how
many blanks stand between its words; of the characters of a text, the quotes and the backslashes
are escaped.
-/

namespace ScimDirectory

namespace Filter

/-- The rule for attribute names. -/
structure IsName (name : List Char) : Prop where
  /-- A name starts with a letter or a dollar sign. -/
  starts : ∃ c rest, name = c :: rest ∧ startsName c = true
  /-- Letters, digits and a few signs make it up. -/
  chars : ∀ c ∈ name, isNameChar c = true
  /-- It does not end in a dot. -/
  notDotLast : name.getLast? ≠ some '.'
  /-- No two dots stand side by side. -/
  notDotTwice : ¬['.', '.'] <:+: name
  /-- It has no schema prefix, unless it is nothing else. -/
  bare : ∀ type p rest, name = p ++ rest →
    Text.lowerAscii p = Text.lowerAscii (schemaPrefix type) → rest = []

/-- A name that a reader of operands takes for the keyword of a negation: the word itself, or the
word before one of the two characters that go on a name but not on a keyword. -/
def OpensNegation (name : List Char) : Prop :=
  ∃ p rest, name = p ++ rest ∧ InAnyCase "not" p ∧ ∀ c, rest.head? = some c → c = '-' ∨ c = '$'

/-- The rule for names where an operand may stand. -/
def IsOperandName (name : List Char) : Prop := IsName name ∧ ¬OpensNegation name

/-- A text as it stands between quotes, with its quotes and backslashes escaped. -/
def escaped (s : List Char) : List Char :=
  s.flatMap fun c => if c = '"' ∨ c = '\\' then ['\\', c] else [c]

end Filter

open ScimDirectory.Filter

/-- A writing of a value. Numbers have none here. -/
inductive Literal.Written : Literal → List Char → Prop where
  /-- A text between quotes. -/
  | text (s : String) : Written (.text s) ('"' :: escaped s.toList ++ ['"'])
  /-- A truth value as its word. -/
  | bool {b : Bool} {w : List Char} : InAnyCase (Text.truth b) w → Written (.bool b) w
  /-- The value `null` as its word. -/
  | null {w : List Char} : InAnyCase "null" w → Written .null w

/-- The connective that an expression joins its sides with, if it does. -/
def Expr.connective? : Expr → Option Connective
  | join connective _ _ => some connective
  | _ => none

/-- What may stand to the right of a connective without parentheses. A chain nests to the left, so
no chain of the same connective stands there. -/
def Connective.AdmitsRight : Connective → Expr → Prop
  | .and, rhs => rhs.connective? = none
  | .or, rhs => rhs.connective? ≠ some .or

/-- What may stand to the left of a connective without parentheses. -/
def Connective.AdmitsLeft : Connective → Expr → Prop
  | .and, lhs => lhs.connective? ≠ some .or
  | .or, _ => True

instance : (connective : Connective) → DecidablePred connective.AdmitsRight
  | .and => fun rhs => inferInstanceAs (Decidable (rhs.connective? = none))
  | .or => fun rhs => inferInstanceAs (Decidable (rhs.connective? ≠ some .or))

instance : (connective : Connective) → DecidablePred connective.AdmitsLeft
  | .and => fun lhs => inferInstanceAs (Decidable (lhs.connective? ≠ some .or))
  | .or => fun _ => inferInstanceAs (Decidable True)

namespace Expr

/-- The filters of the grammar, given whether they are in a value filter. -/
def FilterShaped (inValueFilter : Bool) : Expr → Prop
  | compare .. | search .. | present _ => True
  | join connective lhs rhs =>
    connective.AdmitsLeft lhs ∧ connective.AdmitsRight rhs ∧ lhs.FilterShaped inValueFilter ∧
      rhs.FilterShaped inValueFilter
  | group _ inner => inner.FilterShaped inValueFilter
  | path .. => False
  | valuePath _ filter sub => inValueFilter = false ∧ sub = none ∧ filter.FilterShaped true

instance decidableFilterShaped : (inValueFilter : Bool) → (expr : Expr) →
    Decidable (expr.FilterShaped inValueFilter)
  | _, compare .. => isTrue trivial
  | _, search .. => isTrue trivial
  | _, present _ => isTrue trivial
  | inValueFilter, join _ lhs rhs =>
    have := decidableFilterShaped inValueFilter lhs
    have := decidableFilterShaped inValueFilter rhs
    inferInstanceAs (Decidable (_ ∧ _ ∧ _ ∧ _))
  | inValueFilter, group _ inner => decidableFilterShaped inValueFilter inner
  | _, path .. => isFalse id
  | _, valuePath _ filter _ =>
    have := decidableFilterShaped true filter
    inferInstanceAs (Decidable (_ ∧ _ ∧ _))

/-- The expressions of the grammar. -/
def Shaped : Mode → Expr → Prop
  | .filter, expr => expr.FilterShaped false
  | .path, path _ sub => sub = none
  | .path, valuePath _ filter _ => filter.FilterShaped true
  | .path, _ => False

instance : (mode : Mode) → DecidablePred (Shaped mode)
  | .filter, expr => decidableFilterShaped false expr
  | .path, path _ sub => inferInstanceAs (Decidable (sub = none))
  | .path, valuePath _ filter _ => decidableFilterShaped true filter
  | .path, compare .. => isFalse id
  | .path, search .. => isFalse id
  | .path, present _ => isFalse id
  | .path, join .. => isFalse id
  | .path, group .. => isFalse id

/-- The names of a filter keep the rule for names where an operand may stand. -/
def FilterNamed : Expr → Prop
  | compare attr .. | search attr .. | present attr | path attr _ => IsOperandName attr.toList
  | join _ lhs rhs => lhs.FilterNamed ∧ rhs.FilterNamed
  | group _ inner => inner.FilterNamed
  | valuePath attr filter _ => IsOperandName attr.toList ∧ filter.FilterNamed

/-- The names of an expression keep the rule for names. No operand stands where a path has its own
names, so these may be like the keyword of a negation. -/
def Named : Mode → Expr → Prop
  | .path, path attr _ => IsName attr.toList
  | .path, valuePath attr filter sub =>
    IsName attr.toList ∧ filter.FilterNamed ∧ ∀ name ∈ sub, IsName name.toList
  | _, expr => expr.FilterNamed

/-- The values that an expression compares with. -/
def literals : Expr → List Literal
  | compare _ _ value | search _ _ value => [value]
  | present _ | path .. => []
  | join _ lhs rhs => lhs.literals ++ rhs.literals
  | group _ inner => inner.literals
  | valuePath _ filter _ => filter.literals

/-- No value of an expression is a number. -/
def NumberFree (expr : Expr) : Prop := ∀ x, .number x ∉ expr.literals

/-- No text that an expression compares with has a backslash. -/
def BackslashFree (expr : Expr) : Prop := ∀ s, .text s ∈ expr.literals → '\\' ∉ s.toList

/-- The greatest number of scopes that are open at once. -/
def depth : Expr → Nat
  | compare .. | search .. | present _ | path .. => 0
  | join _ lhs rhs => max lhs.depth rhs.depth
  | group _ inner => inner.depth + 1
  | valuePath _ filter _ => filter.depth + 1

/-- An expression of the grammar whose names keep the rule for names. -/
structure Canonical (mode : Mode) (expr : Expr) : Prop where
  /-- The grammar has it. -/
  shaped : expr.Shaped mode
  /-- Its names keep the rule. -/
  named : expr.Named mode

/-- A writing of an expression. Blanks are needed where two words meet, are free inside parentheses
and brackets and before those of a negation, and have no place before a bracket or a
sub-attribute. -/
inductive Written : Expr → List Char → Prop where
  /-- A comparison. -/
  | compare {attr : String} {comparison : Comparison} {value : Literal} {b w b' v : List Char} :
    Spaced b → InAnyCase comparison.operator w → Spaced b' → value.Written v →
    Written (.compare attr comparison value) (attr.toList ++ (b ++ (w ++ (b' ++ v))))
  /-- A search. -/
  | search {attr : String} {occurrence : Occurrence} {value : Literal} {b w b' v : List Char} :
    Spaced b → InAnyCase occurrence.operator w → Spaced b' → value.Written v →
    Written (.search attr occurrence value) (attr.toList ++ (b ++ (w ++ (b' ++ v))))
  /-- A test for presence. -/
  | present {attr : String} {b w : List Char} : Spaced b → InAnyCase "pr" w →
    Written (.present attr) (attr.toList ++ (b ++ w))
  /-- Two sides of a connective. -/
  | join {connective : Connective} {lhs rhs : Expr} {l b w b' r : List Char} :
    Written lhs l → Spaced b → InAnyCase connective.keyword w → Spaced b' → Written rhs r →
    Written (.join connective lhs rhs) (l ++ (b ++ (w ++ (b' ++ r))))
  /-- A group. -/
  | group {inner : Expr} {b t b' : List Char} : Blanks b → Written inner t → Blanks b' →
    Written (.group false inner) ('(' :: (b ++ (t ++ (b' ++ [')']))))
  /-- A negated group. -/
  | negation {inner : Expr} {w a b t b' : List Char} : InAnyCase "not" w → Blanks a → Blanks b →
    Written inner t → Blanks b' →
    Written (.group true inner) (w ++ (a ++ '(' :: (b ++ (t ++ (b' ++ [')'])))))
  /-- An attribute, and perhaps a sub-attribute. -/
  | path {attr : String} {sub : Option String} :
    Written (.path attr sub) (attr.toList ++ (subText sub).toList)
  /-- The items of an attribute that satisfy a filter, and perhaps a sub-attribute of them. -/
  | valuePath {attr : String} {filter : Expr} {sub : Option String} {b t b' : List Char} :
    Blanks b → Written filter t → Blanks b' →
    Written (.valuePath attr filter sub)
      (attr.toList ++ '[' :: (b ++ (t ++ (b' ++ ']' :: (subText sub).toList))))

/-- A text that is a writing of an expression, perhaps with blanks around it. -/
def Rendered (expr : Expr) (text : String) : Prop :=
  ∃ before t after, text.toList = before ++ (t ++ after) ∧ Blanks before ∧ expr.Written t ∧
    Blanks after

end Expr
end ScimDirectory
