/-
  Errors and their wording.

  Each error is a cause with its facts. Types are kept as types and written out only in the
  message.
-/
import RowExpr.CorrelationId
import RowExpr.DataType
import RowExpr.Json.Fault
import RowExpr.Operator

namespace RowExpr

/-- An argument that an operation cannot work with. -/
inductive BadArgument where
  /-- A field access without an expression to read from. -/
  | noReference
  /-- A field access without a field. -/
  | noField
  | notDecimal (text : String)
  | operandCount (operator : Operator) (given : Nat)
  /-- The result type of a call does not follow from its operator and operands. -/
  | noResultType (operator : Operator)
  /-- A new reference for a node that is no field access. -/
  | notFieldAccess (kind : Kind) (digest : String)
  /-- A replacement for a correlation variable that has no fields. -/
  | scalarReplacement (id : CorrelationId) (digest : String) (type : DataType)
deriving DecidableEq

/-- Why an operation failed. -/
inductive Error where
  | invalidArgument (cause : BadArgument)
  /-- The row type has no field of that name. -/
  | fieldNotFound (rowType : DataType) (field : String)
  /-- A field was asked of a type that is not a row. -/
  | notRow (type : DataType) (field : String)
  /-- The row type has `count` fields, too few for the ordinal. -/
  | outOfRange (index : UInt64) (count : Nat) (rowType : DataType)
  /-- Settings with a cache bound of zero. -/
  | zeroCacheBound
  /-- There is no such settings file. -/
  | configMissing
  /-- The settings file is not text. -/
  | configNotText
  | configFault (fault : Json.Fault)

def BadArgument.message : BadArgument → String
  | noReference => "field access requires a reference expression"
  | noField => "field access requires a field"
  | notDecimal text => "'" ++ text ++ "' is not a decimal literal"
  | operandCount operator given =>
    "operator '" ++ operator.name ++ "' takes " ++ operator.operands.text ++ " operands, got "
      ++ toString given
  | noResultType operator =>
    "cannot derive the result type of '" ++ operator.name
      ++ "'; supply it with make_call_with_type"
  | notFieldAccess kind digest =>
    "cannot replace the reference expression of " ++ kind.name ++ " node '" ++ digest ++ "'"
  | scalarReplacement id digest type =>
    "replacement for " ++ id.name ++ " must be row-typed, got '" ++ digest ++ "' of type '"
      ++ type.text ++ "'"

/-- Without the place in the text. -/
def Json.Fault.message : Json.Fault → String
  | malformed => "malformed JSON"
  | mismatch cause => cause.message

def Error.message : Error → String
  | invalidArgument cause => "invalid argument: " ++ cause.message
  | fieldNotFound rowType field =>
    "Type '" ++ rowType.text ++ "' has no field '" ++ field ++ "'"
  | notRow type field =>
    "cannot access field '" ++ field ++ "' of non-row type '" ++ type.text ++ "'"
  | outOfRange index count rowType =>
    "ordinal " ++ toString index ++ " out of range for '" ++ rowType.text ++ "' with "
      ++ toString count ++ " fields"
  | zeroCacheBound => "invalid rex config: max_cache_entries must be > 0"
  | configMissing => "failed to read rex config: no such file"
  | configNotText => "failed to read rex config: the file is not UTF-8 text"
  | configFault fault => "failed to parse rex config: " ++ fault.message

end RowExpr
