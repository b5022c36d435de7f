/-
  Identifiers of correlation variables and the names they are written with.

  A correlation variable stands for the current row of an enclosing query block. Its name is
  `$cor` followed by its ordinal in decimal (`name`). `ofName?` reads a name back; it also
  takes spellings that `name` does not write: one plus sign and any number of leading zeros.
-/
import RowExpr.Digits

namespace RowExpr

/-- Identifier of a correlation variable. -/
structure CorrelationId where
  ordinal : UInt32
deriving DecidableEq, Repr, Inhabited

namespace CorrelationId

/-- Identifiers are ordered by their ordinals. -/
instance : LE CorrelationId := ⟨fun a b => a.ordinal ≤ b.ordinal⟩

instance (a b : CorrelationId) : Decidable (a ≤ b) :=
  inferInstanceAs (Decidable (a.ordinal ≤ b.ordinal))

/-- What the name of every correlation variable starts with. -/
def marker : String := "$cor"

def name (id : CorrelationId) : String := marker ++ toString id.ordinal.toNat

/-- A 32-bit ordinal from its digits, unless they spell a larger number. -/
def ofDigits? (digits : List Char) : Option CorrelationId :=
  if isDigits digits && digitsValue digits < UInt32.size then
    some ⟨UInt32.ofNat (digitsValue digits)⟩
  else none

/-- Read a variable name: the marker, at most one plus sign, and a 32-bit ordinal. -/
def ofName? (name : String) : Option CorrelationId :=
  match name.toList with
  | '$' :: 'c' :: 'o' :: 'r' :: '+' :: digits => ofDigits? digits
  | '$' :: 'c' :: 'o' :: 'r' :: digits => ofDigits? digits
  | _ => none

end CorrelationId
end RowExpr
