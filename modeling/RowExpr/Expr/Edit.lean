/-
  Nodes made from other nodes: the same node over other children.

  Nodes do not change, so each of these makes a new one.
-/
import RowExpr.Error
import RowExpr.Session

namespace RowExpr

/-- A field access from parts that may be missing; the reference is asked for first. -/
def Content.accessOf {α : Type} (reference : Option α) (field : Option Field) :
    Except Error (Content α) :=
  match reference, field with
  | none, _ => .error (.invalidArgument .noReference)
  | some _, none => .error (.invalidArgument .noField)
  | some reference, some field => .ok (.access reference field)

namespace Expr

/-- The operands of a call replaced, its operator and type kept. -/
def withOperands? (e : Expr) (operands : List Expr) : Option (Content Expr) :=
  match e.content with
  | .call operator _ type => some (.call operator operands type)
  | _ => none

/-- The reference of a field access replaced, its field kept. -/
def withReference? (e : Expr) (reference : Expr) : Option (Content Expr) :=
  match e.content with
  | .access _ field => some (.access reference field)
  | _ => none

/-- What a node of the kind of field accesses says with its reference replaced. A call can
    be of that kind too; it has no reference and stays as it is. -/
def replaceReference (e : Expr) (reference : Expr) : Except Error (Content Expr) :=
  if e.kind = .fieldAccess then .ok ((e.withReference? reference).getD e.content)
  else .error (.invalidArgument (.notFieldAccess e.kind e.digest))

end Expr
end RowExpr
