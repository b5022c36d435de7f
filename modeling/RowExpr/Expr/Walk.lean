/-
  Walks over an expression as a tree, in pre-order: a node before its children, children left
  to right. A subtree that hangs under several parents is met once per parent.

  `Expr.walk` lists the nodes met; `Expr.outline` lists them with their depths.
-/
import RowExpr.Expr.Basic

namespace RowExpr

mutual

/-- The nodes of an expression, in pre-order. -/
def Expr.walk : Expr → List Expr
  | e@⟨_, _, .call _ operands _⟩ => e :: Expr.walkAll operands
  | e@⟨_, _, .access reference _⟩ => e :: reference.walk
  | e => [e]
termination_by structural e => e

/-- The nodes of several expressions, one expression after the other. -/
def Expr.walkAll : List Expr → List Expr
  | [] => []
  | e :: es => e.walk ++ Expr.walkAll es
termination_by structural es => es

end

mutual

/-- The nodes of an expression in pre-order, each with its depth below `depth`. -/
def Expr.outline (depth : Nat) : Expr → List (Nat × Expr)
  | e@⟨_, _, .call _ operands _⟩ => (depth, e) :: Expr.outlineAll (depth + 1) operands
  | e@⟨_, _, .access reference _⟩ => (depth, e) :: reference.outline (depth + 1)
  | e => [(depth, e)]
termination_by structural e => e

/-- The outlines of several expressions at one depth, one after the other. -/
def Expr.outlineAll (depth : Nat) : List Expr → List (Nat × Expr)
  | [] => []
  | e :: es => e.outline depth ++ Expr.outlineAll depth es
termination_by structural es => es

end

mutual

/-- An outline without its depths is the walk. -/
theorem Expr.outline_map_snd (depth : Nat) :
    (e : Expr) → (e.outline depth).map Prod.snd = e.walk
  | ⟨_, _, .call _ operands _⟩ => by
    simp [Expr.outline, Expr.walk, Expr.outlineAll_map_snd (depth + 1) operands]
  | ⟨_, _, .access reference _⟩ => by
    simp [Expr.outline, Expr.walk, Expr.outline_map_snd (depth + 1) reference]
  | ⟨_, _, .literal _ _⟩ => rfl
  | ⟨_, _, .inputRef _ _⟩ => rfl
  | ⟨_, _, .correlation _ _⟩ => rfl
termination_by structural e => e

theorem Expr.outlineAll_map_snd (depth : Nat) :
    (es : List Expr) → (Expr.outlineAll depth es).map Prod.snd = Expr.walkAll es
  | [] => rfl
  | e :: es => by
    simp [Expr.outlineAll, Expr.walkAll, Expr.outline_map_snd depth e,
      Expr.outlineAll_map_snd depth es]
termination_by structural es => es

end

end RowExpr
