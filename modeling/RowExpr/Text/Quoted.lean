/-
  Strings in messages: in double quotes, with everything that a reader could not see or would
  misread written as an escape.
-/
import RowExpr.Text.Invisible

namespace RowExpr.Text

/-- How a character is written between quotes: the quote, the backslash, the tab, the line
    ends and the null by a letter, other characters that cannot be seen by their number. -/
def quoteChar (c : Char) : List Char :=
  match c with
  | '"' => ['\\', '"']
  | '\\' => ['\\', '\\']
  | '\t' => ['\\', 't']
  | '\n' => ['\\', 'n']
  | '\r' => ['\\', 'r']
  | '\x00' => ['\\', '0']
  | c =>
    if isInvisible c then
      '\\' :: 'u' :: '\x7b' :: Nat.toDigits 16 c.toNat ++ ['\x7d']
    else [c]

/-- A string between quotes. -/
def quoted (s : String) : String :=
  String.ofList ('"' :: s.toList.flatMap quoteChar ++ ['"'])

end RowExpr.Text
