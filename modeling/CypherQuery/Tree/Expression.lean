import CypherQuery.Number.Binary64
import CypherQuery.Text.Name

/-! # Expressions

An `Expression` is what a query computes or demands: literals, references, property lookups,
function calls, conditions and their connectives. A value that is only known when a query runs is a
parameter; a `Literal` is for what belongs to the query itself. -/

namespace CypherQuery

/-- A constant written into the text of a query. -/
inductive Literal where
  /-- The absent value. -/
  | null
  /-- A truth value. -/
  | boolean (value : Bool)
  /-- A signed integer of 64 bits. -/
  | integer (value : Int64)
  /-- A floating-point number. -/
  | float (value : Binary64)
  /-- A string. -/
  | string (text : String)
  deriving DecidableEq, Repr

/-- The ways to compare two values. -/
inductive Comparison where
  /-- The values are equal. -/
  | equal
  /-- The values are different. -/
  | notEqual
  /-- The first value is smaller. -/
  | less
  /-- The first value is not greater. -/
  | lessOrEqual
  /-- The first value is greater. -/
  | greater
  /-- The first value is not smaller. -/
  | greaterOrEqual
  /-- The first text starts with the second. -/
  | startsWith
  /-- The first text ends with the second. -/
  | endsWith
  /-- The first text contains the second. -/
  | contains
  /-- The first text matches the second, a regular expression. -/
  | matchesRegex
  deriving DecidableEq, Repr

/-- The connectives of two conditions. -/
inductive Connective where
  /-- Both conditions hold. -/
  | and
  /-- At least one condition holds. -/
  | or
  /-- Exactly one condition holds. -/
  | xor
  deriving DecidableEq, Repr

/-- The operators with one operand. -/
inductive UnaryOperator where
  /-- The condition does not hold. -/
  | not
  /-- The value is absent. -/
  | isNull
  /-- The value is present. -/
  | isNotNull
  deriving DecidableEq, Repr

/-- Any operator. -/
inductive Operator where
  /-- A comparison of two values. -/
  | comparison (op : Comparison)
  /-- A connective of two conditions. -/
  | logical (op : Connective)
  /-- An operator with one operand. -/
  | unary (op : UnaryOperator)
  deriving DecidableEq, Repr

/-- An expression. Operands are held as they are: only `nested` writes parentheses. -/
inductive Expression where
  /-- A constant. -/
  | literal (value : Literal)
  /-- A reference to a bound parameter. -/
  | parameter (name : String)
  /-- A reference to a variable. -/
  | variable (name : String)
  /-- The property of a subject under a key. -/
  | property (subject : Expression) (key : String)
  /-- A call of a function, perhaps on distinct values only. -/
  | call (function : String) (distinct : Bool) (arguments : List Expression)
  /-- The star that stands for everything. -/
  | asterisk
  /-- A comparison of two operands. -/
  | comparison (op : Comparison) (left right : Expression)
  /-- A combination of two conditions. -/
  | logical (op : Connective) (left right : Expression)
  /-- An operator applied to one operand. -/
  | unary (op : UnaryOperator) (operand : Expression)
  /-- An expression in parentheses. -/
  | nested (inner : Expression)
  /-- An expression under a new name. -/
  | aliased (inner : Expression) (newName : String)
  deriving Repr

namespace Literal

/-- The literal that a bare word stands for, in any letter case: `null`, `true` or `false`. -/
def ofWord? (word : String) : Option Literal :=
  let upper := Name.upperCase word
  if upper = "TRUE" then some (.boolean true)
  else if upper = "FALSE" then some (.boolean false)
  else if upper = "NULL" then some .null
  else none

/-- Equality of literals as values: floating-point numbers are compared by `Binary64.sameNumber`. -/
def sameValue : Literal → Literal → Bool
  | .float x, .float y => x.sameNumber y
  | a, b => a == b

end Literal

/-- A comparison as it is written. -/
def Comparison.word : Comparison → String
  | .equal => "="
  | .notEqual => "<>"
  | .less => "<"
  | .lessOrEqual => "<="
  | .greater => ">"
  | .greaterOrEqual => ">="
  | .startsWith => "STARTS WITH"
  | .endsWith => "ENDS WITH"
  | .contains => "CONTAINS"
  | .matchesRegex => "=~"

/-- A connective as it is written. -/
def Connective.word : Connective → String
  | .and => "AND"
  | .or => "OR"
  | .xor => "XOR"

namespace UnaryOperator

/-- A unary operator as it is written. -/
def word : UnaryOperator → String
  | .not => "NOT"
  | .isNull => "IS NULL"
  | .isNotNull => "IS NOT NULL"

/-- Whether the operator is written in front of its operand. -/
def precedesOperand : UnaryOperator → Bool
  | .not => true
  | .isNull | .isNotNull => false

end UnaryOperator

/-- An operator as it is written. -/
def Operator.word : Operator → String
  | .comparison op => op.word
  | .logical op => op.word
  | .unary op => op.word

namespace Expression

/-- Whether the expression combines two conditions with the connective `op`. -/
def isLogical (op : Connective) : Expression → Bool
  | .logical own _ _ => own == op
  | _ => false

/-- The name of the parameter that the expression is, if it is a `parameter`. -/
def parameterName? : Expression → Option String
  | .parameter name => some name
  | _ => none

/-! ## Equality

Two expressions are the `same` if they are built alike from literals with the same values. This
is not reflexive: a literal that is not a number differs from itself. -/

mutual

/-- Whether two expressions are built alike from literals with the same values,
`Literal.sameValue`. -/
def same : Expression → Expression → Bool
  | .literal a, .literal b => a.sameValue b
  | .parameter a, .parameter b => a == b
  | .variable a, .variable b => a == b
  | .property a key, .property b key' => a.same b && key == key'
  | .call f distinct as, .call g distinct' bs => f == g && distinct == distinct' && sameAll as bs
  | .asterisk, .asterisk => true
  | .comparison op a b, .comparison op' a' b' => op == op' && a.same a' && b.same b'
  | .logical op a b, .logical op' a' b' => op == op' && a.same a' && b.same b'
  | .unary op a, .unary op' b => op == op' && a.same b
  | .nested a, .nested b => a.same b
  | .aliased a name, .aliased b name' => a.same b && name == name'
  | _, _ => false

/-- Whether two lists hold the same expressions in the same order, each by `same`. -/
def sameAll : List Expression → List Expression → Bool
  | [], [] => true
  | a :: as, b :: bs => a.same b && sameAll as bs
  | _, _ => false

end

end Expression

end CypherQuery
