/-
  The shortest decimal that reads back as a given binary floating-point number.

  A double with positive value is `m · 2^q`. The reals that round to it form an interval
  around it, whose ends belong to it iff `m` is even. Of all decimals `d · 10^k` in the
  interval, the one with the largest `k` has the fewest digits, and of two with the same `k`
  the nearer is taken. All of this is exact arithmetic on natural numbers.
-/
namespace RowExpr

/-- A decimal `digits · 10^exponent`. -/
structure Decimal where
  digits : Nat
  exponent : Int
deriving DecidableEq, Repr

namespace Decimal

/-- A positive double and the interval that rounds to it, in units of `2^exponent`. -/
structure Rounding where
  below : Nat
  value : Nat
  above : Nat
  exponent : Int
  /-- Whether the ends of the interval round to the value. -/
  closed : Bool

/-- The rounding interval of a positive double, from its bits. Below a power of two the gap
    to the next double is half as wide as above it. -/
def Rounding.ofBits (bits : UInt64) : Rounding :=
  let biased := (bits.toNat >>> 52) % 2048
  let stored := bits.toNat % (1 <<< 52)
  let m := if biased = 0 then stored else stored + (1 <<< 52)
  let q : Int := if biased = 0 then -1074 else (biased : Int) - 1075
  let below := if stored = 0 ∧ 1 < biased then 4 * m - 1 else 4 * m - 2
  ⟨below, 4 * m, 4 * m + 2, q - 2, m % 2 = 0⟩

/-- The decimal nearest to the value among those with this exponent that round to it. -/
def Rounding.nearest? (r : Rounding) (exponent : Int) : Option Decimal :=
  -- one step of the decimal grid, and one unit of the interval, over a common denominator
  let grid := Nat.pow 10 exponent.toNat * Nat.pow 2 (-r.exponent).toNat
  let unit := Nat.pow 2 r.exponent.toNat * Nat.pow 10 (-exponent).toNat
  let rounds (d : Nat) : Bool :=
    if r.closed then r.below * unit ≤ d * grid && d * grid ≤ r.above * unit
    else r.below * unit < d * grid && d * grid < r.above * unit
  let low := r.value * unit / grid
  let rest := r.value * unit % grid
  let lowNearer := 2 * rest < grid || (2 * rest == grid && low % 2 == 0)
  match rounds low, rounds (low + 1) with
  | false, false => none
  | true, false => some ⟨low, exponent⟩
  | false, true => some ⟨low + 1, exponent⟩
  | true, true => some ⟨if lowNearer then low else low + 1, exponent⟩

/-- The shortest decimal that rounds to the value, looking at exponents downwards from 309,
    above which every double is smaller than one step. -/
def Rounding.shortest (r : Rounding) : Decimal :=
  ((List.range 700).findSome? fun (i : Nat) => r.nearest? (309 - Int.ofNat i)).getD ⟨0, 0⟩

end Decimal
end RowExpr
