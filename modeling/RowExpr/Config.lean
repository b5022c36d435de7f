/-
  Settings of a builder.
-/
namespace RowExpr

/-- How a builder looks up fields and shares nodes. -/
structure Config where
  /-- Whether field names are matched with regard to case. -/
  caseSensitive : Bool := true
  /-- Whether expressions of equal digest and type become one node. -/
  shareCommonSubexpressions : Bool := true
  /-- How many shared nodes are kept at most. -/
  maxCacheEntries : UInt64 := 65536
deriving DecidableEq, Repr, Inhabited

namespace Config

/-- A bound of zero is not allowed. -/
def isValid (config : Config) : Bool := config.maxCacheEntries != 0

theorem isValid_default : ({} : Config).isValid = true := by decide

end Config
end RowExpr
