/-
  Operators: what a call applies.

  An operator has a name, a kind, a rule for how many operands it takes, and a form that says
  how a call of it is written. The builtin operators are definitions here; functions and
  identifiers are made by name. Operators read from outside may combine the four parts freely.
-/
import RowExpr.Kind

namespace RowExpr

/-- How many operands an operator takes. -/
inductive OperandCount where
  | exactly (count : UInt64)
  | atLeast (count : UInt64)
deriving DecidableEq, Repr, Inhabited

namespace OperandCount

def accepts : OperandCount → Nat → Bool
  | exactly n, count => count == n.toNat
  | atLeast n, count => n.toNat ≤ count

def text : OperandCount → String
  | exactly n => "exactly " ++ toString n
  | atLeast n => "at least " ++ toString n

end OperandCount

/-- How a call is written. -/
inductive CallForm where
  /-- The name and the operands in parentheses: `name(a, b)`. -/
  | applied
  /-- The bare name when there are no operands, such as `CURRENT_DATE`. -/
  | bare
deriving DecidableEq, Repr, Inhabited

/-- An operator or function that a call applies. -/
structure Operator where
  name : String
  kind : Kind
  operands : OperandCount
  form : CallForm
deriving DecidableEq, Repr, Inhabited

namespace Operator

/-- A builtin operator of a fixed number of operands. -/
def fixed (name : String) (kind : Kind) (count : UInt64) : Operator :=
  ⟨name, kind, .exactly count, .applied⟩

def equals : Operator := fixed "=" .equals 2

def notEquals : Operator := fixed "<>" .notEquals 2

def lessThan : Operator := fixed "<" .lessThan 2

def greaterThan : Operator := fixed ">" .greaterThan 2

def and : Operator := ⟨"AND", .and, .atLeast 2, .applied⟩

def or : Operator := ⟨"OR", .or, .atLeast 2, .applied⟩

def not : Operator := fixed "NOT" .not 1

def isNull : Operator := fixed "IS NULL" .isNull 1

def isNotNull : Operator := fixed "IS NOT NULL" .isNotNull 1

def plus : Operator := fixed "+" .plus 2

def minus : Operator := fixed "-" .minus 2

def times : Operator := fixed "*" .times 2

/-- The operators whose result type follows from their operands. -/
def builtins : List Operator :=
  [equals, notEquals, lessThan, greaterThan, and, or, not, isNull, isNotNull, plus, minus,
    times]

/-- A function known by name only. -/
def function (name : String) (operands : OperandCount) : Operator :=
  ⟨name, .otherFunction, operands, .applied⟩

/-- A function without operands, written without parentheses. -/
def identifier (name : String) : Operator :=
  ⟨name, .otherFunction, .exactly 0, .bare⟩

end Operator
end RowExpr
