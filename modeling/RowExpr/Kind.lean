/-
  Kinds of row expressions: a tag that tells what a node is without looking inside it.

  Every node has one; a call has the kind of its operator. The codes are the positions in
  `Kind.all` and are stored outside the process, so the order of the constructors is fixed.
-/
namespace RowExpr

/-- What an expression node or an operator is. -/
inductive Kind where
  | literal
  | inputRef
  | correlVariable
  | fieldAccess
  | equals
  | notEquals
  | lessThan
  | greaterThan
  | and
  | or
  | not
  | isNull
  | isNotNull
  | plus
  | minus
  | times
  | otherFunction
deriving DecidableEq, Repr, Inhabited

namespace Kind

/-- All kinds, in the order of their codes. -/
def all : List Kind :=
  [literal, inputRef, correlVariable, fieldAccess, equals, notEquals, lessThan, greaterThan,
    and, or, not, isNull, isNotNull, plus, minus, times, otherFunction]

/-- The stable number of a kind. -/
def code (kind : Kind) : Nat := all.idxOf kind

/-- Upper-case name, words joined by underscores. -/
def name : Kind → String
  | literal => "LITERAL"
  | inputRef => "INPUT_REF"
  | correlVariable => "CORREL_VARIABLE"
  | fieldAccess => "FIELD_ACCESS"
  | equals => "EQUALS"
  | notEquals => "NOT_EQUALS"
  | lessThan => "LESS_THAN"
  | greaterThan => "GREATER_THAN"
  | and => "AND"
  | or => "OR"
  | not => "NOT"
  | isNull => "IS_NULL"
  | isNotNull => "IS_NOT_NULL"
  | plus => "PLUS"
  | minus => "MINUS"
  | times => "TIMES"
  | otherFunction => "OTHER_FUNCTION"

def isComparison : Kind → Bool
  | equals | notEquals | lessThan | greaterThan => true
  | _ => false

def isLogical : Kind → Bool
  | and | or | not => true
  | _ => false

def isNullTest : Kind → Bool
  | isNull | isNotNull => true
  | _ => false

def isArithmetic : Kind → Bool
  | plus | minus | times => true
  | _ => false

theorem mem_all (kind : Kind) : kind ∈ all := by
  cases kind <;> decide

/-- No kind is in two of the four classes. -/
theorem classes_disjoint (kind : Kind) :
    [kind.isComparison, kind.isLogical, kind.isNullTest, kind.isArithmetic].count true ≤ 1 := by
  cases kind <;> decide

theorem isNullTest_eq_false {kind : Kind}
    (h : kind.isComparison = true ∨ kind.isLogical = true) : kind.isNullTest = false := by
  have hone := kind.classes_disjoint
  grind

/-- Arithmetic is in none of the classes whose calls are truth values. -/
theorem eq_false_of_isArithmetic {kind : Kind} (h : kind.isArithmetic = true) :
    kind.isNullTest = false ∧ (kind.isComparison || kind.isLogical) = false := by
  have hone := kind.classes_disjoint
  grind

end Kind
end RowExpr
