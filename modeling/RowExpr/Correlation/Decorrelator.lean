/-
  Decorrelation: reading the fields of an enclosing row from another expression.

  A decorrelator replaces each field access directly over its variable by an access to the
  first field of the same name of the replacement, whose ordinal and type it takes over.
  `apply` leaves an access alone, with a warning, if the replacement has no such field;
  `decorrelate` refuses the whole expression in that case. Bare occurrences of the variable
  stay, and the replacement itself is not looked into.
-/
import RowExpr.Correlation.Fields
import RowExpr.Error
import RowExpr.Expr.Replace

namespace RowExpr

/-- What is read in place of a correlation variable, and how many accesses were replaced so
    far. -/
structure Decorrelator where
  target : CorrelationId
  replacement : Expr
  /-- The fields of the replacement. -/
  row : Row
  row_eq : replacement.type = .row row
  replaced : Nat := 0

namespace Decorrelator

/-- A decorrelator that has replaced nothing yet; the replacement must be a row. -/
def ofReplacement (target : CorrelationId) (replacement : Expr) : Except Error Decorrelator :=
  match h : replacement.type with
  | .row row => .ok { target, replacement, row, row_eq := h }
  | .scalar _ _ =>
    .error (.invalidArgument (.scalarReplacement target replacement.digest replacement.type))

/-- The first field of the replacement with this name, in the same case. -/
def field? (d : Decorrelator) (name : String) : Option Field := d.row.field? name true

/-- The access that takes the place of `node`, if it is one to be replaced and the replacement
    has the field. -/
def answer (d : Decorrelator) (node : Expr) : SessionM (Option Expr) :=
  match node.fieldThrough? d.target with
  | none => return none
  | some read => match d.field? read.name with
    | some field => return some (← Session.place (.access d.replacement field))
    | none => do
      Session.warn (.noSuchField node.digest d.replacement.type)
      return none

/-- Replace what can be replaced. -/
def apply (d : Decorrelator) (e : Expr) : SessionM (Expr × Decorrelator) := do
  let (new, count) ← e.replaceCounting d.answer
  return (new, { d with replaced := d.replaced + count })

/-- The first field read through the variable that the replacement lacks. -/
def missing? (d : Decorrelator) (e : Expr) : Option Field :=
  (e.correlatedFields d.target).find? fun field => (d.field? field.name).isNone

/-- Replace every access over the variable, if the replacement has all their fields. -/
def decorrelate (d : Decorrelator) (e : Expr) : SessionM (Except Error Expr × Decorrelator) :=
  match d.missing? e with
  | some field => return (.error (.fieldNotFound d.replacement.type field.name), d)
  | none => do
    let (new, d) ← d.apply e
    return (.ok new, d)

theorem decorrelate_of_missing {d : Decorrelator} {e : Expr} {field : Field} (s : Session)
    (h : d.missing? e = some field) :
    (d.decorrelate e).run s = ((.error (.fieldNotFound d.replacement.type field.name), d), s) := by
  unfold decorrelate
  rw [h]
  rfl

end Decorrelator
end RowExpr
