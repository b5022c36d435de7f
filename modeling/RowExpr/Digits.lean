/-
  Runs of ASCII decimal digits: what counts as one, and the number it spells.
-/
namespace RowExpr

/-- One or more ASCII digits. -/
def isDigits (cs : List Char) : Bool := !cs.isEmpty && cs.all Char.isDigit

/-- The number that a digit adds at its place. -/
def digitValue (c : Char) : Nat := c.toNat - '0'.toNat

/-- The number spelled by a run of digits, most significant first; leading zeros add nothing. -/
def digitsValue (cs : List Char) : Nat :=
  cs.foldl (fun value c => 10 * value + digitValue c) 0

/-- Text of an exact decimal: an optional minus, digits, and optionally a point and digits. -/
def isDecimalText (text : String) : Bool :=
  let unsigned := match text.toList with
    | '-' :: rest => rest
    | cs => cs
  let whole := unsigned.takeWhile (· != '.')
  match unsigned.dropWhile (· != '.') with
  | [] => isDigits whole
  | _ :: fraction => isDigits whole && isDigits fraction

theorem isDigits_iff {cs : List Char} :
    isDigits cs = true ↔ cs ≠ [] ∧ ∀ c ∈ cs, c.isDigit = true := by
  simp [isDigits]

theorem digitsValue_append_singleton (cs : List Char) (c : Char) :
    digitsValue (cs ++ [c]) = 10 * digitsValue cs + digitValue c := by
  simp [digitsValue]

/-! ## Numbers in decimal -/

theorem isDigits_toDigits (n : Nat) : isDigits (Nat.toDigits 10 n) = true :=
  isDigits_iff.mpr ⟨Nat.toDigits_ne_nil,
    fun _ hc => Nat.isDigit_of_mem_toDigits (by decide) (by decide) hc⟩

theorem digitsValue_toDigits (n : Nat) : digitsValue (Nat.toDigits 10 n) = n := by
  have hvalue : digitsValue (Nat.toDigits 10 n) = Nat.ofDigitChars 10 (Nat.toDigits 10 n) 0 :=
    (Nat.ofDigitChars_eq_foldl ..).symm
  rw [hvalue, Nat.ofDigitChars_ten_toDigits]

end RowExpr
