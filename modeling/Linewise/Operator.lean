import Linewise.Token.Basic

/-!
# Binary operators

Each operator has a spelling, a precedence from 1 to 12 of which the higher
binds tighter, a side to which it groups, and a sublanguage in which its right
operand is read.
-/

namespace Linewise

inductive Operator where
  | annotate
  | asType
  | toBound
  | byStep
  | power
  | multiply
  | divide
  | remainder
  | add
  | subtract
  | lessThan
  | lessThanOrEqual
  | greaterThan
  | greaterThanOrEqual
  | equal
  | notEqual
  | isPattern
  | and
  | or
  | apply
deriving DecidableEq

/-- The side to which operators of one precedence group. -/
inductive Associativity where
  | left
  | right
deriving DecidableEq

inductive Sublanguage where
  | expression
  | pattern
  | type
deriving DecidableEq

namespace Operator

def all : List Operator :=
  [.annotate, .asType, .toBound, .byStep, .power, .multiply, .divide, .remainder, .add,
    .subtract, .lessThan, .lessThanOrEqual, .greaterThan, .greaterThanOrEqual, .equal,
    .notEqual, .isPattern, .and, .or, .apply]

def spelling : Operator -> String
  | .annotate => "::"
  | .asType => "as"
  | .toBound => "to"
  | .byStep => "by"
  | .power => "^"
  | .multiply => "*"
  | .divide => "/"
  | .remainder => "%"
  | .add => "+"
  | .subtract => "-"
  | .lessThan => "<"
  | .lessThanOrEqual => "<="
  | .greaterThan => ">"
  | .greaterThanOrEqual => ">="
  | .equal => "="
  | .notEqual => "/="
  | .isPattern => "is"
  | .and => "and"
  | .or => "or"
  | .apply => "."

def precedence : Operator -> Nat
  | .annotate => 12
  | .asType => 11
  | .toBound => 10
  | .byStep => 9
  | .power => 8
  | .multiply => 7
  | .divide => 7
  | .remainder => 7
  | .add => 6
  | .subtract => 6
  | .lessThan => 5
  | .lessThanOrEqual => 5
  | .greaterThan => 5
  | .greaterThanOrEqual => 5
  | .equal => 5
  | .notEqual => 5
  | .isPattern => 4
  | .and => 3
  | .or => 2
  | .apply => 1

def associativity : Operator -> Associativity
  | .power => .right
  | _ => .left

def left (_ : Operator) : Sublanguage := .expression

def right : Operator -> Sublanguage
  | .annotate => .type
  | .asType => .type
  | .isPattern => .pattern
  | _ => .expression

/-- The lowest precedence that an operator in the right operand may have. -/
def rightPrecedence (operator : Operator) : Nat :=
  match operator.associativity with
  | .left => operator.precedence + 1
  | .right => operator.precedence

def tag : Operator -> String
  | .annotate => "annotate_expression"
  | .asType => "as_expression"
  | .toBound => "to_expression"
  | .byStep => "by_expression"
  | .power => "power_expression"
  | .multiply => "multiply_expression"
  | .divide => "divide_expression"
  | .remainder => "remainder_expression"
  | .add => "add_expression"
  | .subtract => "subtract_expression"
  | .lessThan => "less_than_expression"
  | .lessThanOrEqual => "less_than_or_equal_expression"
  | .greaterThan => "greater_than_expression"
  | .greaterThanOrEqual => "greater_than_or_equal_expression"
  | .equal => "equal_expression"
  | .notEqual => "not_equal_expression"
  | .isPattern => "is_expression"
  | .and => "and_expression"
  | .or => "or_expression"
  | .apply => "apply_expression"

def ofSpelling? (spelling : String) : Option Operator :=
  all.find? (fun operator => operator.spelling == spelling)

end Operator

/-- The operator that a token spells.  A word counts only as a lowercase name. -/
def Token.operator? (token : Token) : Option Operator :=
  match token.kind with
  | .lowercaseName =>
      if token.isOperatorWord then Operator.ofSpelling? token.value else none
  | kind =>
      match kind.spelling? with
      | some spelling => Operator.ofSpelling? spelling
      | none => none

end Linewise
