/-
  The numbers that JSON numerals stand for, and the text of a floating-point number.

  A numeral without point and exponent is an integer if it fits 64 bits. All others are
  floating point: as many digits as 64 bits hold make a whole number, which is then multiplied
  or divided by a power of ten. A numeral too large for that stands for no number.
-/
import RowExpr.Digits
import RowExpr.Decimal.Shortest
import RowExpr.Json.Token

namespace RowExpr.Json

/-- A number, as told apart by readers. -/
inductive Number where
  | integer (value : Int)
  | float (value : Float)
deriving Inhabited

/-! ## From numerals -/

/-- Digits taken into a 64-bit number as long as they fit, and the digits left over. -/
def takeDigits (significand : Nat) : List Char → Nat × List Char
  | [] => (significand, [])
  | c :: cs =>
    let next := 10 * significand + digitValue c
    if next < UInt64.size then takeDigits next cs else (significand, c :: cs)

/-- The nearest double to a whole number of 64 bits. -/
def wholeFloat (significand : Nat) : Float := (UInt64.ofNat significand).toFloat

def tenTo (n : Nat) : Float := Float.ofScientific 1 false n

/-- A number divided by a power of ten, in steps that a double can hold. -/
def divideByTenTo (f : Float) (n : Nat) : Float :=
  if n ≤ 308 then f / tenTo n
  else if f == 0 then f
  else divideByTenTo (f / tenTo 308) (n - 308)
termination_by n

/-- A whole number times a power of ten, if a double can hold it. -/
def scale? (significand : Nat) (exponent : Int) : Option Float :=
  let f := wholeFloat significand
  if exponent < 0 then some (divideByTenTo f (-exponent).toNat)
  else if exponent ≤ 308 then
    let product := f * tenTo exponent.toNat
    if product.isInf then none else some product
  else if f == 0 then some f
  else none

/-- The largest exponent that is counted with. -/
def exponentLimit : Nat := UInt32.size / 2 - 1

/-- The size of a floating-point numeral, if a double can hold it. -/
def Numeral.magnitude? (n : Numeral) : Option Float :=
  let (significand, dropped) := takeDigits 0 n.whole
  let (significand, rest) := takeDigits significand n.fraction
  let shift : Int := dropped.length - (n.fraction.length - rest.length : Nat)
  let exponent := digitsValue n.exponent
  if exponentLimit < exponent then
    if significand ≠ 0 ∧ ¬ n.exponentNegative then none else some 0
  else if n.exponentNegative then scale? significand (shift - exponent)
  else scale? significand (shift + exponent)

/-- The number that a numeral stands for, if there is one. A zero with a minus sign, and an
    integer beyond 64 bits, is floating point. -/
def Numeral.number? (n : Numeral) : Option Number :=
  let value := digitsValue n.whole
  let isInteger := n.fraction.isEmpty && n.exponent.isEmpty
  if isInteger && !n.negative && value < UInt64.size then some (.integer value)
  else if isInteger && n.negative && 0 < value && value ≤ UInt64.size / 2 then
    some (.integer (-value))
  else n.magnitude?.map fun f => .float (if n.negative then -f else f)

/-! ## Text of floating-point numbers -/

/-- The exponent of a decimal, always with its sign. -/
def exponentText (exponent : Int) : List Char :=
  'e' :: (if 0 ≤ exponent then '+' else '-') :: Nat.toDigits 10 exponent.natAbs

/-- Where the point of a positive decimal goes: positional notation if the point falls among
    the first sixteen digits or at most four zeros before them, else one digit before the
    point and an exponent. A positional number always has a point and a digit behind it. -/
def decimalText (digits : Nat) (exponent : Int) : List Char :=
  let ds := Nat.toDigits 10 digits
  let zeros (n : Int) : List Char := List.replicate n.toNat '0'
  let point : Int := ds.length + exponent
  if 0 ≤ exponent ∧ point ≤ 16 then ds ++ zeros exponent ++ ['.', '0']
  else if 0 < point ∧ point ≤ 16 then ds.take point.toNat ++ '.' :: ds.drop point.toNat
  else if -5 < point ∧ point ≤ 0 then '0' :: '.' :: zeros (-point) ++ ds
  else
    match ds with
    | [] => []
    | [d] => d :: exponentText (point - 1)
    | d :: more => d :: '.' :: more ++ exponentText (point - 1)

/-- The shortest text that reads back as the number. -/
def floatText (f : Float) : String :=
  let bits := f.toBits
  let magnitude := bits % (1 <<< 63)
  let sign := if magnitude = bits then "" else "-"
  if magnitude = 0 then sign ++ "0.0"
  else
    let shortest := (Decimal.Rounding.ofBits magnitude).shortest
    sign ++ String.ofList (decimalText shortest.digits shortest.exponent)

/-- An integer as it is, a floating-point number in its shortest form. -/
def Number.text : Number → String
  | .integer n => toString n
  | .float f => floatText f

end RowExpr.Json
