/-
  JSON form of operators and their parts.

  An operator is a record of its name, its kind, its operand count and its form. Any
  combination of the four can be read, also one that no operator of this library has.
-/
import RowExpr.Json.Decoder
import RowExpr.Json.Value
import RowExpr.Operator

namespace RowExpr

open Json

/-! ## Kinds -/

namespace Kind

/-- The word for a kind in JSON. -/
def label : Kind → String
  | literal => "Literal"
  | inputRef => "InputRef"
  | correlVariable => "CorrelVariable"
  | fieldAccess => "FieldAccess"
  | equals => "Equals"
  | notEquals => "NotEquals"
  | lessThan => "LessThan"
  | greaterThan => "GreaterThan"
  | and => "And"
  | or => "Or"
  | not => "Not"
  | isNull => "IsNull"
  | isNotNull => "IsNotNull"
  | plus => "Plus"
  | minus => "Minus"
  | times => "Times"
  | otherFunction => "OtherFunction"

def toJson (kind : Kind) : Json := .string kind.label

def decode (levels : Nat) (reading : Reading) : Decoded Kind :=
  Variant.decode (all.map fun kind => .constant kind.label kind) levels reading

end Kind

/-! ## Operand counts and forms -/

namespace OperandCount

def toJson : OperandCount → Json
  | exactly n => .object [("Exactly", .integer n.toNat)]
  | atLeast n => .object [("AtLeast", .integer n.toNat)]

def decode (levels : Nat) (reading : Reading) : Decoded OperandCount :=
  Variant.decode
    [.withContent "Exactly" fun content => exactly <$> content.asUInt64,
      .withContent "AtLeast" fun content => atLeast <$> content.asUInt64] levels reading

end OperandCount

namespace CallForm

/-- The word for a form in JSON. -/
def label : CallForm → String
  | applied => "Function"
  | bare => "FunctionId"

def toJson (form : CallForm) : Json := .string form.label

def decode (levels : Nat) (reading : Reading) : Decoded CallForm :=
  Variant.decode ([applied, bare].map fun form => .constant form.label form) levels reading

end CallForm

/-! ## Operators -/

namespace Operator

def toJson (op : Operator) : Json :=
  .object [("name", .string op.name), ("kind", op.kind.toJson),
    ("operands", op.operands.toJson), ("syntax", op.form.toJson)]

/-- What is known of an operator while its record is read. -/
structure Parts where
  name : Option String := none
  kind : Option Kind := none
  operands : Option OperandCount := none
  form : Option CallForm := none

/-- What is expected where an operator is read. -/
def recordName : String := "struct SqlOperator"

def decode (levels : Nat) : Reading → Decoded Operator :=
  record recordName levels
    (fun members => do
      let parts ← foldMembers (fun (parts : Parts) key value => match key with
        | "name" => do
          return { parts with name := ← fill key parts.name value.asString }
        | "kind" => do
          return { parts with kind := ← fill key parts.kind (Kind.decode (levels - 1) value) }
        | "operands" => do
          return { parts with
            operands := ← fill key parts.operands (OperandCount.decode (levels - 1) value) }
        | "syntax" => do
          return { parts with form := ← fill key parts.form (CallForm.decode (levels - 1) value) }
        | _ => do
          value.skip
          return parts) {} members
      return ⟨← require "name" parts.name, ← require "kind" parts.kind,
        ← require "operands" parts.operands, ← require "syntax" parts.form⟩)
    (fun items => do
      let expected := recordName ++ " with 4 elements"
      let (name, items) ← nextItem Reading.asString 0 expected items
      let (kind, items) ← nextItem (Kind.decode (levels - 1)) 1 expected items
      let (operands, items) ← nextItem (OperandCount.decode (levels - 1)) 2 expected items
      let (form, items) ← nextItem (CallForm.decode (levels - 1)) 3 expected items
      noMoreItems items
      return ⟨name, kind, operands, form⟩)

end Operator
end RowExpr
