/-
  Commands to a workbench.

  A workbench (`RowExpr.Workbench.Basic`) has numbered slots. Commands name nodes,
  decorrelators and caches by the numbers of the slots that hold them; command number `k`
  fills slot `k`.
-/
import RowExpr.Builder
import RowExpr.Correlation.Decorrelator
import RowExpr.Expr.Edit

namespace RowExpr

/-- The number of a slot. -/
abbrev SlotId := Nat

/-- A command to a workbench. -/
inductive Command where
  /-- Keep a type. -/
  | keepType (type : DataType)
  /-- Have the builder make a node. -/
  | make (request : Request SlotId)
  /-- Place a node without asking the builder. -/
  | place (content : Content SlotId)
  /-- Place a field access from parts that may be missing. -/
  | placeAccess (reference : Option SlotId) (field : Option Field)
  /-- Hold the same object in one more slot. -/
  | share (node : SlotId)
  /-- Place a new node that says the same. -/
  | copy (node : SlotId)
  /-- Empty a slot that holds a node. -/
  | drop (node : SlotId)
  /-- Hold a child. -/
  | operand (node : SlotId) (position : Nat)
  | withOperands (node : SlotId) (operands : List SlotId)
  | withReference (node reference : SlotId)
  /-- Put a field access over another reference into the slot of the first. -/
  | replaceReference (node reference : SlotId)
  /-- Replace leaves by their digests; of several rules the first counts. -/
  | replaceLeaves (node : SlotId) (rules : List (String × SlotId))
  | makeDecorrelator (target : CorrelationId) (replacement : SlotId)
  /-- Replace what can be replaced. -/
  | apply (decorrelator node : SlotId)
  /-- Replace everything, or fail. -/
  | decorrelate (decorrelator node : SlotId)
  | makeCache (capacity : Nat)
  /-- Copy a cache, the builder's if no slot is named. -/
  | copyCache (cache : Option SlotId)
  | clearCache (cache : SlotId)
  /-- Look a node up, in the builder's cache if no slot is named. -/
  | lookUp (cache : Option SlotId) (digest : String) (type : DataType)
  /-- Intern a new node that says the same. -/
  | internCopy (cache node : SlotId)
  /-- Intern the object itself. -/
  | intern (cache node : SlotId)

end RowExpr
