/-
  The state that building expressions and replacing parts of them passes along.

  A session hands out node identities, each once, and collects the warnings raised on the
  way, oldest first. Everything that makes a node does so through `Session.place`.
-/
import RowExpr.Expr.Basic

namespace RowExpr

/-! ## Running stateful computations -/

theorem run_bind {σ α β : Type} (x : StateM σ α) (f : α → StateM σ β) (s : σ) :
    (x >>= f).run s = (f (x.run s).1).run (x.run s).2 := rfl

theorem run_pure {σ α : Type} (a : α) (s : σ) : (pure a : StateM σ α).run s = (a, s) := rfl

/-! ## Warnings -/

/-- Something that went otherwise than the caller may expect, without being an error. -/
inductive Warning where
  /-- A digest cache met its bound for the first time. -/
  | cacheFull (capacity : Nat)
  /-- A field access was left as it is: the replacement has no field of that name. -/
  | noSuchField (digest : String) (replacement : DataType)
deriving DecidableEq

namespace Warning

def message : Warning → String
  | cacheFull _ => "digest cache full, new expressions are no longer shared"
  | noSuchField _ _ => "replacement has no such field, access left unchanged"

/-- The facts a warning carries, each with its name. -/
def details : Warning → List (String × String)
  | cacheFull capacity => [("capacity", toString capacity)]
  | noSuchField digest replacement => [("digest", digest), ("replacement", replacement.text)]

end Warning

/-! ## Sessions -/

/-- The identity that the next node gets, and the warnings so far. -/
structure Session where
  next : NodeId := 0
  warnings : List Warning := []
deriving Inhabited

/-- A computation that may make nodes and raise warnings. -/
abbrev SessionM := StateM Session

namespace Session

/-- An identity that no node has yet. -/
def fresh : SessionM NodeId :=
  modifyGet fun s => (s.next, { s with next := s.next + 1 })

/-- A new node. -/
def place (content : Content Expr) : SessionM Expr := do
  return Expr.place (← fresh) content

/-- A new node that says the same as `e`. -/
def copy (e : Expr) : SessionM Expr := place e.content

def warn (warning : Warning) : SessionM Unit :=
  modify fun s => { s with warnings := s.warnings ++ [warning] }

theorem place_run (content : Content Expr) (s : Session) :
    (place content).run s = (Expr.place s.next content, { s with next := s.next + 1 }) := rfl

end Session
end RowExpr
