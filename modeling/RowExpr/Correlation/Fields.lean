/-
  What an expression reads from enclosing query blocks.
-/
import RowExpr.Expr.Walk
import RowExpr.FirstSeen

namespace RowExpr.Expr

/-- The identifier, if the node is a correlation variable. -/
def correlation? (e : Expr) : Option CorrelationId :=
  match e.content with
  | .correlation id _ => some id
  | _ => none

/-- The field, if the node is a field access directly over variable `id`. -/
def fieldThrough? (id : CorrelationId) (e : Expr) : Option Field :=
  match e.content with
  | .access reference field => if reference.correlation? = some id then some field else none
  | _ => none

/-- The correlation variables that occur, each once, in the order of the walk. -/
def correlationIds (e : Expr) : List CorrelationId :=
  firstSeenBy (fun found => found) (e.walk.filterMap correlation?)

/-- The fields read directly through variable `id`, one for each digest, in the order of the
    walk. -/
def correlatedFields (e : Expr) (id : CorrelationId) : List Field :=
  (firstSeenBy Expr.digest (e.walk.filter fun node => (node.fieldThrough? id).isSome)).filterMap
    (fieldThrough? id)

end RowExpr.Expr
