/-
  Values of literals and how they are written.

  The type of a literal is kept beside its value, so a null value is one value for all types;
  its text names the type (`Literal.text`).
-/
import RowExpr.DataType

namespace RowExpr

/-- Value of a literal. -/
inductive Literal where
  | null
  | boolean (value : Bool)
  | integer (value : Int64)
  /-- An exact decimal, kept as it was spelled. -/
  | decimal (spelling : String)
  | string (value : String)
deriving DecidableEq, Repr, Inhabited

namespace Literal

/-- A text with each single quote written twice. -/
def doubleQuotes : List Char → List Char
  | [] => []
  | c :: cs => if c = '\'' then '\'' :: '\'' :: doubleQuotes cs else c :: doubleQuotes cs

/-- Text of a value of the given type: numbers and truth values as they are read, strings in
    single quotes, null with the name of its scalar type. -/
def text (value : Literal) (type : DataType) : String :=
  match value with
  | null => match type.scalarName? with
    | some name => "null:" ++ name.name
    | none => "null"
  | boolean true => "true"
  | boolean false => "false"
  | integer n => toString n
  | decimal spelling => spelling
  | string s => "'" ++ String.ofList (doubleQuotes s.toList) ++ "'"

end Literal
end RowExpr
