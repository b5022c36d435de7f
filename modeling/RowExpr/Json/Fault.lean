/-
  What can be wrong with a JSON text that is read for a purpose.

  Either the text is malformed, or it is JSON that does not fit (`Mismatch`). A mismatch is a
  cause with its facts; `Mismatch.message` is its wording.
-/
import RowExpr.Json.Number
import RowExpr.Text.Quoted

namespace RowExpr.Json

/-- What stands in the text where something else was expected. -/
inductive Found where
  | null
  | bool (value : Bool)
  | number (value : Number)
  | string (value : String)
  | sequence
  | map
  /-- The bare name of a variant that has content. -/
  | bareVariant

namespace Found

/-- Within accents. -/
def accented (s : String) : String :=
  let accent := String.singleton '\x60'
  accent ++ s ++ accent

def text : Found → String
  | null => "null"
  | bool true => "boolean " ++ accented "true"
  | bool false => "boolean " ++ accented "false"
  | number (.integer n) => "integer " ++ accented (toString n)
  | number (.float f) => "floating point " ++ accented (floatText f)
  | string s => "string " ++ Text.quoted s
  | sequence => "sequence"
  | map => "map"
  | bareVariant => "unit variant"

end Found

/-- A way in which JSON does not fit its purpose. -/
inductive Mismatch where
  | type (found : Found) (expected : String)
  | value (found : Found) (expected : String)
  | length (found : Nat) (expected : String)
  | unknownVariant (name : String) (known : List String)
  | unknownField (name : String) (known : List String)
  | duplicateField (name : String)
  | missingField (name : String)

namespace Mismatch

/-- The names that would have fitted. -/
def oneOf (known : List String) : String :=
  match known with
  | [a] => Found.accented a
  | [a, b] => Found.accented a ++ " or " ++ Found.accented b
  | known => "one of " ++ ", ".intercalate (known.map Found.accented)

def message : Mismatch → String
  | type found expected => "invalid type: " ++ found.text ++ ", expected " ++ expected
  | value found expected => "invalid value: " ++ found.text ++ ", expected " ++ expected
  | length found expected => "invalid length " ++ toString found ++ ", expected " ++ expected
  | unknownVariant name known =>
    "unknown variant " ++ Found.accented name ++ ", expected " ++ oneOf known
  | unknownField name known =>
    "unknown field " ++ Found.accented name ++ ", expected " ++ oneOf known
  | duplicateField name => "duplicate field " ++ Found.accented name
  | missingField name => "missing field " ++ Found.accented name

end Mismatch

/-- Why a JSON text was not accepted. -/
inductive Fault where
  /-- The text is not JSON, or nests too deeply, or has a shape that no purpose allows. -/
  | malformed
  | mismatch (cause : Mismatch)

end RowExpr.Json
