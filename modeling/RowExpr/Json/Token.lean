/-
  Tokens of JSON text.

  `lex` cuts a text into tokens, one character at a time. It never fails: the first character
  that no token can go on with gives the token `invalid`, and the text behind it is not looked
  at. Blanks (space, tab, line feed, carriage return) separate tokens and are dropped.

  Strings are kept as pieces, because an escape may stand for half of a character: whether the
  halves pair up matters only to a reader that wants the text (`Piece.text?`). Numbers are kept
  as spelled; whether they are in range matters only to a reader that wants the number.
-/
namespace RowExpr.Json

/-! ## Tokens -/

/-- A part of a string: a character, or one 16-bit unit given by its number. -/
inductive Piece where
  | char (c : Char)
  | unit (n : Nat)
deriving DecidableEq, Repr

/-- A number as spelled: the digits of its parts, empty where a part is missing. -/
structure Numeral where
  negative : Bool := false
  whole : List Char := []
  fraction : List Char := []
  exponentNegative : Bool := false
  exponent : List Char := []
deriving DecidableEq, Repr

/-- A token of JSON text. -/
inductive Token where
  | openBrace
  | closeBrace
  | openBracket
  | closeBracket
  | colon
  | comma
  | null
  | bool (value : Bool)
  | number (numeral : Numeral)
  | string (pieces : List Piece)
  /-- From here on the text is not JSON. -/
  | invalid
deriving DecidableEq, Repr

/-! ## Strings -/

/-- A unit that opens a pair. -/
def isHighHalf (n : Nat) : Bool := 0xD800 ≤ n && n < 0xDC00

/-- A unit that closes a pair. -/
def isLowHalf (n : Nat) : Bool := 0xDC00 ≤ n && n < 0xE000

/-- The characters of a string, unless half of a pair stands alone in it. -/
def Piece.chars? : List Piece → Option (List Char)
  | [] => some []
  | .char c :: rest => (c :: ·) <$> chars? rest
  | .unit high :: .unit low :: rest =>
    if isHighHalf high then
      if isLowHalf low then
        (Char.ofNat (0x10000 + (high - 0xD800) * 0x400 + (low - 0xDC00)) :: ·) <$> chars? rest
      else none
    else if isLowHalf high then none
    else (Char.ofNat high :: ·) <$> chars? (.unit low :: rest)
  | .unit n :: rest =>
    if isHighHalf n || isLowHalf n then none else (Char.ofNat n :: ·) <$> chars? rest

/-- The text of a string, unless half of a pair stands alone in it. -/
def Piece.text? (pieces : List Piece) : Option String := String.ofList <$> chars? pieces

/-! ## The lexer -/

/-- The part of a number that was read last. -/
inductive NumberPart where
  | sign
  /-- A whole part that is a single zero; no digit may follow it. -/
  | zero
  | whole
  | point
  | fraction
  | exponentMark
  | exponentSign
  | exponent
deriving DecidableEq, Repr

/-- A number may end behind a digit only. -/
def NumberPart.isComplete : NumberPart → Bool
  | zero | whole | fraction | exponent => true
  | sign | point | exponentMark | exponentSign => false

/-- Where in a token the lexer stands. -/
inductive Mode where
  | between
  /-- In a word; `rest` is to follow, and then the word means `token`. -/
  | word (rest : List Char) (token : Token)
  | number (part : NumberPart) (numeral : Numeral)
  /-- In a string; the pieces so far, latest first. -/
  | string (pieces : List Piece)
  /-- Behind a backslash. -/
  | escape (pieces : List Piece)
  /-- In a numbered escape, with this many digits to come and this value so far. -/
  | unit (pieces : List Piece) (left : Nat) (value : Nat)
  /-- Behind the token `invalid`. -/
  | stopped

/-- The token `invalid`, and no look at what follows. -/
def stop : List Token × Mode := ([.invalid], .stopped)

/-- Start the token that begins with `c`. -/
def start (c : Char) : List Token × Mode :=
  match c with
  | ' ' | '\t' | '\n' | '\r' => ([], .between)
  | '\x7b' => ([.openBrace], .between)
  | '\x7d' => ([.closeBrace], .between)
  | '[' => ([.openBracket], .between)
  | ']' => ([.closeBracket], .between)
  | ':' => ([.colon], .between)
  | ',' => ([.comma], .between)
  | 'n' => ([], .word ['u', 'l', 'l'] .null)
  | 't' => ([], .word ['r', 'u', 'e'] (.bool true))
  | 'f' => ([], .word ['a', 'l', 's', 'e'] (.bool false))
  | '"' => ([], .string [])
  | '-' => ([], .number .sign { negative := true })
  | '0' => ([], .number .zero { whole := ['0'] })
  | c => if c.isDigit then ([], .number .whole { whole := [c] }) else stop

/-- Go on with a number at `c`, or end it and start the next token. -/
def number (part : NumberPart) (n : Numeral) (c : Char) : List Token × Mode :=
  let wholeDigit := { n with whole := n.whole ++ [c] }
  let fractionDigit := { n with fraction := n.fraction ++ [c] }
  let exponentDigit := { n with exponent := n.exponent ++ [c] }
  let isMark := c == 'e' || c == 'E'
  match part with
  | .sign =>
    if c == '0' then ([], .number .zero wholeDigit)
    else if c.isDigit then ([], .number .whole wholeDigit)
    else stop
  | .zero =>
    if c.isDigit then stop
    else if c == '.' then ([], .number .point n)
    else if isMark then ([], .number .exponentMark n)
    else finishNumber
  | .whole =>
    if c.isDigit then ([], .number .whole wholeDigit)
    else if c == '.' then ([], .number .point n)
    else if isMark then ([], .number .exponentMark n)
    else finishNumber
  | .point => if c.isDigit then ([], .number .fraction fractionDigit) else stop
  | .fraction =>
    if c.isDigit then ([], .number .fraction fractionDigit)
    else if isMark then ([], .number .exponentMark n)
    else finishNumber
  | .exponentMark =>
    if c == '+' then ([], .number .exponentSign n)
    else if c == '-' then ([], .number .exponentSign { n with exponentNegative := true })
    else if c.isDigit then ([], .number .exponent exponentDigit)
    else stop
  | .exponentSign => if c.isDigit then ([], .number .exponent exponentDigit) else stop
  | .exponent => if c.isDigit then ([], .number .exponent exponentDigit) else finishNumber
where
  finishNumber : List Token × Mode :=
    let (tokens, mode) := start c
    (.number n :: tokens, mode)

/-- The character that a one-letter escape stands for. -/
def unescape? (c : Char) : Option Char :=
  match c with
  | '"' => some '"'
  | '\\' => some '\\'
  | '/' => some '/'
  | 'b' => some '\x08'
  | 'f' => some '\x0c'
  | 'n' => some '\n'
  | 'r' => some '\r'
  | 't' => some '\t'
  | _ => none

/-- The value of a hexadecimal digit of either case. -/
def hexValue? (c : Char) : Option Nat :=
  if c.isDigit then some (c.toNat - '0'.toNat)
  else if 'a' ≤ c ∧ c ≤ 'f' then some (c.toNat - 'a'.toNat + 10)
  else if 'A' ≤ c ∧ c ≤ 'F' then some (c.toNat - 'A'.toNat + 10)
  else none

/-- One character: the tokens that end at it, and where the lexer stands behind it. -/
def step (mode : Mode) (c : Char) : List Token × Mode :=
  match mode with
  | .between => start c
  | .word [] _ => stop
  | .word [last] token => if c = last then ([token], .between) else stop
  | .word (next :: rest) token => if c = next then ([], .word rest token) else stop
  | .number part n => number part n c
  | .string pieces =>
    if c = '"' then ([.string pieces.reverse], .between)
    else if c = '\\' then ([], .escape pieces)
    else if c.toNat < 0x20 then stop
    else ([], .string (.char c :: pieces))
  | .escape pieces =>
    if c = 'u' then ([], .unit pieces 4 0)
    else match unescape? c with
      | some e => ([], .string (.char e :: pieces))
      | none => stop
  | .unit pieces left value =>
    match hexValue? c with
    | some digit =>
      if left ≤ 1 then ([], .string (.unit (16 * value + digit) :: pieces))
      else ([], .unit pieces (left - 1) (16 * value + digit))
    | none => stop
  | .stopped => ([], .stopped)

/-- The tokens that end with the text. -/
def finish : Mode → List Token
  | .between | .stopped => []
  | .number part n => if part.isComplete then [.number n] else [.invalid]
  | _ => [.invalid]

/-- The tokens of a text that goes on from `mode`. -/
def lexFrom (mode : Mode) : List Char → List Token
  | [] => finish mode
  | c :: cs => (step mode c).1 ++ lexFrom (step mode c).2 cs

/-- The tokens of a text. -/
def lex (text : String) : List Token := lexFrom .between text.toList

end RowExpr.Json
