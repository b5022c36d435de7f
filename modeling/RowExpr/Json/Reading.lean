/-
  JSON text as far as it can be read.

  A reader of JSON meets the text from left to right and reports the first thing that is
  wrong, be it the grammar of JSON or the wish of the reader. `Reading` makes this a function
  on trees: it is the tree of the text up to the place where the text stops being JSON, and
  `broken` stands there. Whoever looks at the parts of a reading in order, and reports
  malformed text on meeting `broken`, reports what comes first in the text.

  A list of items or members that does not close properly ends in `broken`, so one without it
  was closed. A member can break off in two places: before its key, which is `none` then, and
  behind it. The two differ to a reader that does not know the key.
-/
import RowExpr.Json.Token

namespace RowExpr.Json

/-- A JSON text as far as it can be read. -/
inductive Reading where
  | null
  | bool (value : Bool)
  | number (numeral : Numeral)
  | string (pieces : List Piece)
  | array (items : List Reading)
  | object (members : List (Option (List Piece) × Reading))
  /-- The text is not JSON from here on. -/
  | broken
deriving Inhabited

namespace Reading

mutual

/-- A value at the head of the tokens, and the tokens behind it. Behind `broken` there are
    none. The number bounds the depth of the recursion. -/
def value : Nat → List Token → Reading × List Token
  | _, .null :: rest => (.null, rest)
  | _, .bool b :: rest => (.bool b, rest)
  | _, .number n :: rest => (.number n, rest)
  | _, .string pieces :: rest => (.string pieces, rest)
  | _, .openBracket :: .closeBracket :: rest => (.array [], rest)
  | bound + 1, .openBracket :: rest =>
    let (items, rest) := items bound rest
    (.array items, rest)
  | _, .openBrace :: .closeBrace :: rest => (.object [], rest)
  | bound + 1, .openBrace :: rest =>
    let (members, rest) := members bound rest
    (.object members, rest)
  | _, _ => (.broken, [])
termination_by structural bound => bound

/-- One or more items up to the closing bracket, and the tokens behind it. -/
def items : Nat → List Token → List Reading × List Token
  | 0, _ => ([.broken], [])
  | bound + 1, tokens =>
    let (item, rest) := value bound tokens
    match rest with
    | .comma :: rest =>
      let (more, rest) := items bound rest
      (item :: more, rest)
    | .closeBracket :: rest => ([item], rest)
    | _ => ([item, .broken], [])
termination_by structural bound => bound

/-- One or more members up to the closing brace, and the tokens behind it. -/
def members : Nat → List Token → List (Option (List Piece) × Reading) × List Token
  | bound + 1, .string key :: .colon :: rest =>
    let (item, rest) := value bound rest
    match rest with
    | .comma :: rest =>
      let (more, rest) := members bound rest
      ((some key, item) :: more, rest)
    | .closeBrace :: rest => ([(some key, item)], rest)
    | _ => ([(some key, item), (none, .broken)], [])
  | _, .string key :: _ => ([(some key, .broken)], [])
  | _, _ => ([(none, .broken)], [])
termination_by structural bound => bound

end

/-- The reading of a text, and the tokens behind it. A bound of two steps for each token is
    never met. -/
def ofText (text : String) : Reading × List Token :=
  let tokens := lex text
  value (2 * tokens.length + 2) tokens

mutual

/-- Whether the text of this reading is JSON throughout. -/
def isWhole : Reading → Bool
  | .array items => allWhole items
  | .object members => allMembersWhole members
  | .broken => false
  | _ => true
termination_by structural reading => reading

/-- Whether all items are JSON throughout. -/
def allWhole : List Reading → Bool
  | [] => true
  | item :: items => item.isWhole && allWhole items
termination_by structural items => items

/-- Whether all members have keys, and values that are JSON throughout. -/
def allMembersWhole : List (Option (List Piece) × Reading) → Bool
  | [] => true
  | (key, value) :: members => key.isSome && value.isWhole && allMembersWhole members
termination_by structural members => members

end

end Reading
end RowExpr.Json
