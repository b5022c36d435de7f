/-
  JSON form of the values of literals: the variant, and its content where it has any.
-/
import RowExpr.Json.Decoder
import RowExpr.Json.Value
import RowExpr.Literal

namespace RowExpr.Literal

open Json

def toJson : Literal → Json
  | null => .string "Null"
  | boolean b => .object [("Boolean", .bool b)]
  | integer n => .object [("Integer", .integer n.toInt)]
  | decimal spelling => .object [("Decimal", .string spelling)]
  | string s => .object [("String", .string s)]

/-- The spelling of a decimal is taken as it is. -/
def decode (levels : Nat) (reading : Reading) : Decoded Literal :=
  Variant.decode
    [.constant "Null" null,
      .withContent "Boolean" fun content => boolean <$> content.asBool,
      .withContent "Integer" fun content => integer <$> content.asInt64,
      .withContent "Decimal" fun content => decimal <$> content.asString,
      .withContent "String" fun content => string <$> content.asString] levels reading

end RowExpr.Literal
