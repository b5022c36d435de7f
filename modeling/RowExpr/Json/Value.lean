/-
  JSON values and their compact text.

  Only what this library writes: integers, strings, truth values, null, arrays, and objects
  whose members keep their order. The text has no spaces. In strings the quote, the backslash
  and the control characters are escaped; all else stands as it is.
-/
namespace RowExpr

/-- A JSON value. -/
inductive Json where
  | null
  | bool (value : Bool)
  | integer (value : Int)
  | string (value : String)
  | array (items : List Json)
  | object (members : List (String × Json))
deriving Inhabited

namespace Json

/-- A lower-case hexadecimal digit. -/
def hexDigit (n : Nat) : Char := Nat.digitChar n

/-- How a character is written within a string. -/
def escape (c : Char) : List Char :=
  match c with
  | '"' => ['\\', '"']
  | '\\' => ['\\', '\\']
  | '\x08' => ['\\', 'b']
  | '\t' => ['\\', 't']
  | '\n' => ['\\', 'n']
  | '\x0c' => ['\\', 'f']
  | '\r' => ['\\', 'r']
  | c =>
    if c.toNat < 0x20 then
      ['\\', 'u', '0', '0', hexDigit (c.toNat / 16), hexDigit (c.toNat % 16)]
    else [c]

/-- A string in quotes. -/
def stringText (s : String) : List Char := '"' :: s.toList.flatMap escape ++ ['"']

mutual

/-- The characters of the compact text. -/
def chars : Json → List Char
  | .null => "null".toList
  | .bool true => "true".toList
  | .bool false => "false".toList
  | .integer n => (toString n).toList
  | .string s => stringText s
  | .array items => '[' :: itemsChars items ++ [']']
  | .object members => '\x7b' :: membersChars members ++ ['\x7d']
termination_by structural json => json

/-- Items with commas between them. -/
def itemsChars : List Json → List Char
  | [] => []
  | [item] => item.chars
  | item :: items => item.chars ++ ',' :: itemsChars items
termination_by structural items => items

/-- Members with commas between them. -/
def membersChars : List (String × Json) → List Char
  | [] => []
  | [(key, value)] => stringText key ++ ':' :: value.chars
  | (key, value) :: members =>
    stringText key ++ ':' :: value.chars ++ ',' :: membersChars members
termination_by structural members => members

end

/-- The compact text. -/
def text (json : Json) : String := String.ofList json.chars

end Json
end RowExpr
