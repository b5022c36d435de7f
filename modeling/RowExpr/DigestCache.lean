/-
  Interning of expressions by digest and type.

  A digest does not always tell the type (`$0` reads the same over an INTEGER and over a
  VARCHAR column), so nodes are shared only when both agree. The cache keeps the first node
  seen of each digest and type, up to a bound; beyond it, new nodes are handed back without
  being kept, and a warning is raised the first time that happens.
-/
import RowExpr.Session

namespace RowExpr

/-- The cached nodes of one digest, of pairwise different types, oldest first. -/
structure Bucket where
  digest : String
  nodes : List Expr

/-- The first node seen of each digest and type, at most `capacity` of them. -/
structure DigestCache where
  /-- In the order in which the digests were first cached. -/
  buckets : List Bucket := []
  /-- How many nodes are cached. -/
  size : Nat := 0
  capacity : Nat
  /-- Whether a node was turned away since the cache was last empty. -/
  overflowed : Bool := false
deriving Inhabited

namespace DigestCache

def ofCapacity (capacity : Nat) : DigestCache := { capacity }

/-- The cached node of this digest and type. -/
def get? (cache : DigestCache) (digest : String) (type : DataType) : Option Expr := do
  let bucket ← cache.buckets.find? (·.digest = digest)
  bucket.nodes.find? (·.type = type)

/-- Whether a node of this digest is cached, of whatever type. -/
def contains (cache : DigestCache) (digest : String) : Bool :=
  cache.buckets.any (·.digest = digest)

/-- The cached digests, each once, in the order in which they were first cached. -/
def digests (cache : DigestCache) : List String := cache.buckets.map Bucket.digest

def isEmpty (cache : DigestCache) : Bool := cache.size == 0

/-- Put a node behind those of its digest. -/
def addTo (node : Expr) : List Bucket → List Bucket
  | [] => [⟨node.digest, [node]⟩]
  | b :: bs =>
    if b.digest = node.digest then { b with nodes := b.nodes ++ [node] } :: bs
    else b :: addTo node bs

/-- Cache a node that is not cached yet, if there is room, and hand it back. -/
def insert (cache : DigestCache) (node : Expr) : SessionM (Expr × DigestCache) := do
  if cache.size < cache.capacity then
    return (node, { cache with buckets := addTo node cache.buckets, size := cache.size + 1 })
  else
    unless cache.overflowed do
      Session.warn (.cacheFull cache.capacity)
    return (node, { cache with overflowed := true })

/-- The cached node of the same digest and type; failing that, `node` itself, cached if there
    is room. -/
def intern (cache : DigestCache) (node : Expr) : SessionM (Expr × DigestCache) :=
  match cache.get? node.digest node.type with
  | some known => return (known, cache)
  | none => cache.insert node

/-- The empty cache of the same bound. -/
def clear (cache : DigestCache) : DigestCache := ofCapacity cache.capacity

theorem intern_of_get? {cache : DigestCache} {node known : Expr} (s : Session)
    (h : cache.get? node.digest node.type = some known) :
    (cache.intern node).run s = ((known, cache), s) := by
  unfold intern
  rw [h]
  rfl

end DigestCache
end RowExpr
