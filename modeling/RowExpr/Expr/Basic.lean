/-
  Row expressions.

  An expression is a graph of nodes. `Content` is what one node says, over children of any
  type; `Expr` ties the knot and adds to each node

  * an identity: two nodes are the same object exactly when their identities agree. A node is
    placed once, under a number nobody else has, and never changes afterwards, so a subtree
    can hang under many parents;
  * its digest: the canonical text of the expression. `Expr.place` computes it from the
    digests of the children, and nothing else makes a node.

  Equality of expressions (`==`) is equality of digests, whatever the identities and types.
-/
import RowExpr.CorrelationId
import RowExpr.Literal
import RowExpr.Operator
import RowExpr.StableHash

namespace RowExpr

/-- What one node of an expression says, over children of type `α`. -/
inductive Content (α : Type) where
  | literal (value : Literal) (type : DataType)
  /-- Field number `index` of the input row. -/
  | inputRef (index : UInt64) (type : DataType)
  /-- The current row of an enclosing query block. -/
  | correlation (id : CorrelationId) (type : DataType)
  | call (operator : Operator) (operands : List α) (type : DataType)
  /-- Field `field` of the row that `reference` stands for. -/
  | access (reference : α) (field : Field)

namespace Content

/-- The kind of the node; a call has the kind of its operator. -/
def kind {α : Type} : Content α → Kind
  | literal _ _ => .literal
  | inputRef _ _ => .inputRef
  | correlation _ _ => .correlVariable
  | call operator _ _ => operator.kind
  | access _ _ => .fieldAccess

/-- The static type of the node; a field access has the type of its field. -/
def type {α : Type} : Content α → DataType
  | literal _ type => type
  | inputRef _ type => type
  | correlation _ type => type
  | call _ _ type => type
  | access _ field => field.type

/-- The children, left to right. -/
def children {α : Type} : Content α → List α
  | call _ operands _ => operands
  | access reference _ => [reference]
  | _ => []

/-- The canonical text of the node, given that of its children. -/
def digest {α : Type} (digestOf : α → String) : Content α → String
  | literal value type => value.text type
  | inputRef index _ => "$" ++ toString index
  | correlation id _ => id.name
  | call operator operands _ =>
    if operator.form = .bare ∧ operands.isEmpty then operator.name
    else operator.name ++ "(" ++ ", ".intercalate (operands.map digestOf) ++ ")"
  | access reference field => digestOf reference ++ "." ++ field.name

/-- Act on the children, left to right, and keep the rest. -/
def mapM {m : Type → Type} [Monad m] {α β : Type} (f : α → m β) : Content α → m (Content β)
  | literal value type => return literal value type
  | inputRef index type => return inputRef index type
  | correlation id type => return correlation id type
  | call operator operands type => return call operator (← operands.mapM f) type
  | access reference field => return access (← f reference) field

end Content

/-- The identity of a node. -/
abbrev NodeId := Nat

/-- A row expression: the node at its root. -/
structure Expr where
  id : NodeId
  digest : String
  content : Content Expr

namespace Expr

/-- The node with the given identity and content; its digest is computed here. -/
def place (id : NodeId) (content : Content Expr) : Expr :=
  ⟨id, content.digest Expr.digest, content⟩

instance : Inhabited Expr := ⟨place 0 (.literal .null default)⟩

def kind (e : Expr) : Kind := e.content.kind

def type (e : Expr) : DataType := e.content.type

/-- The children, left to right. -/
def children (e : Expr) : List Expr := e.content.children

/-- Whether two nodes are one object. -/
def same (a b : Expr) : Bool := a.id == b.id

/-- Expressions are compared by their canonical text. -/
instance : BEq Expr := ⟨fun a b => a.digest == b.digest⟩

instance : Hashable Expr := ⟨fun e => hash e.digest⟩

/-- Stable key of an expression: the hash of its digest, a colon, and the text of its type. -/
def key (e : Expr) : UInt64 :=
  (((StableHash.start.write e.digest).write ":").write e.type.text).state

/-- Whether the node has no children to descend into: a literal, an input reference or a
    correlation variable. -/
def isLeaf (e : Expr) : Bool :=
  match e.content with
  | .call _ _ _ | .access _ _ => false
  | _ => true

theorem beq_iff {a b : Expr} : (a == b) = true ↔ a.digest = b.digest := by
  show (a.digest == b.digest) = true ↔ _
  exact beq_iff_eq

theorem digest_place (id : NodeId) (content : Content Expr) :
    (place id content).digest = content.digest Expr.digest := rfl

/-- The key is the hash of the joined text. -/
theorem key_eq (e : Expr) : e.key = StableHash.ofText (e.digest ++ ":" ++ e.type.text) := by
  simp [key, StableHash.ofText, StableHash.write_append]

end Expr
end RowExpr
