/-
  Replacing parts of expressions.

  `Expr.replace f` offers every node to `f`, parents first. Where `f` answers with a node, that
  node stands in the result and nothing below is looked at. Elsewhere the children are worked
  through; if each of them comes back as the same object the node itself is kept, otherwise a
  new node is placed over the new children. Parts that do not change are therefore shared with
  the input, and an `f` that never answers gives the input back (`replace_of_silent`).

  `Expr.replaceLeaves` is the case of a function on leaves.
-/
import RowExpr.Session

namespace RowExpr

/-- A session in which an expression is worked through, and how many nodes were replaced. -/
structure Pass where
  session : Session
  replaced : Nat := 0

/-- A step of such a pass. -/
abbrev PassM := StateM Pass

namespace Pass

/-- Run a computation of the session within the pass. -/
def lift {α : Type} (x : SessionM α) : PassM α :=
  modifyGet fun p => let (a, s) := x.run p.session; (a, { p with session := s })

/-- Note that a node was replaced. -/
def count : PassM Unit :=
  modify fun p => { p with replaced := p.replaced + 1 }

end Pass

namespace Expr

/-- Whether two lists hold the same objects. -/
def sameAll (as bs : List Expr) : Bool := as.map Expr.id == bs.map Expr.id

/-- The node that `f` answers with, or else the outcome of `descend`. -/
def offer (f : Expr → SessionM (Option Expr)) (e : Expr) (descend : PassM Expr) : PassM Expr := do
  match ← Pass.lift (f e) with
  | some new =>
    Pass.count
    return new
  | none => descend

end Expr

mutual

/-- Replace the topmost nodes for which `f` has an answer; keep what does not change. -/
def Expr.replace (f : Expr → SessionM (Option Expr)) : Expr → PassM Expr
  | e@⟨_, _, .call operator operands type⟩ => Expr.offer f e do
    let new ← Expr.replaceAll f operands
    if Expr.sameAll new operands then return e
    else Pass.lift (Session.place (.call operator new type))
  | e@⟨_, _, .access reference field⟩ => Expr.offer f e do
    let new ← reference.replace f
    if new.same reference then return e
    else Pass.lift (Session.place (.access new field))
  | e => Expr.offer f e (return e)
termination_by structural e => e

/-- Work through several expressions, left to right. -/
def Expr.replaceAll (f : Expr → SessionM (Option Expr)) : List Expr → PassM (List Expr)
  | [] => return []
  | e :: es => do
    let new ← e.replace f
    let rest ← Expr.replaceAll f es
    return new :: rest
termination_by structural es => es

end

/-! ## Where nothing is replaced -/

theorem Expr.sameAll_cons (a b : Expr) (as bs : List Expr) :
    Expr.sameAll (a :: as) (b :: bs) = (a.same b && Expr.sameAll as bs) := rfl

theorem Expr.sameAll_singleton (a b : Expr) : Expr.sameAll [a] [b] = a.same b :=
  Bool.and_true (a.same b)

theorem Expr.sameAll_self (es : List Expr) : Expr.sameAll es es = true := by
  simp [Expr.sameAll]

/-- A function that has no answer for any node, and raises no warning. -/
def Silent (f : Expr → SessionM (Option Expr)) : Prop :=
  ∀ e s, (f e).run s = (none, s)

theorem Expr.offer_of_silent {f : Expr → SessionM (Option Expr)} (h : Silent f) (e : Expr)
    (descend : PassM Expr) (p : Pass) : (Expr.offer f e descend).run p = descend.run p := by
  have hl : (Pass.lift (f e)).run p = (none, p) := by
    show (((f e).run p.session).1, { p with session := ((f e).run p.session).2 }) = _
    rw [h e p.session]
  simp only [Expr.offer, run_bind, hl]

mutual

/-- Where `f` is silent everywhere the very input comes back, and nothing is counted. -/
theorem Expr.replace_of_silent {f : Expr → SessionM (Option Expr)} (h : Silent f) :
    (e : Expr) → (p : Pass) → (e.replace f).run p = (e, p)
  | ⟨_, _, .call _ operands _⟩, p => by
    rw [Expr.replace, Expr.offer_of_silent h]
    simp only [run_bind, run_pure, Expr.replaceAll_of_silent h operands p, Expr.sameAll_self,
      if_true]
  | ⟨_, _, .access reference _⟩, p => by
    rw [Expr.replace, Expr.offer_of_silent h]
    simp only [run_bind, run_pure, Expr.replace_of_silent h reference p, Expr.same,
      beq_self_eq_true, if_true]
  | ⟨_, _, .literal _ _⟩, p => Expr.offer_of_silent h _ _ p
  | ⟨_, _, .inputRef _ _⟩, p => Expr.offer_of_silent h _ _ p
  | ⟨_, _, .correlation _ _⟩, p => Expr.offer_of_silent h _ _ p
termination_by structural e => e

theorem Expr.replaceAll_of_silent {f : Expr → SessionM (Option Expr)} (h : Silent f) :
    (es : List Expr) → (p : Pass) → (Expr.replaceAll f es).run p = (es, p)
  | [], _ => rfl
  | e :: es, p => by
    rw [Expr.replaceAll]
    simp only [run_bind, run_pure, Expr.replace_of_silent h e p, Expr.replaceAll_of_silent h es p]
termination_by structural es => es

end

/-! ## Passes over an expression -/

namespace Expr

/-- The result of `replace`, and how many nodes were replaced. -/
def replaceCounting (f : Expr → SessionM (Option Expr)) (e : Expr) : SessionM (Expr × Nat) :=
  modifyGet fun s =>
    let (new, pass) := (e.replace f).run { session := s }
    ((new, pass.replaced), pass.session)

/-- Replace the leaves for which `f` has an answer. -/
def replaceLeaves (f : Expr → Option Expr) (e : Expr) : SessionM (Expr × Nat) :=
  e.replaceCounting fun node => return if node.isLeaf then f node else none

end Expr
end RowExpr
