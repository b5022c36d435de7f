/-
  What a digest cache remembers.

  A cache tells nodes apart by their signature, the digest together with the type.
  `intern_cases` says all that interning can do to a cache and a session. `Holds` abstracts a
  cache to the list of the nodes it keeps, and `Remembers` ties a cache to everything that was
  passed to it: it keeps the first node of each signature, as many as there is room for, and
  interning one more node keeps that so (`remembers_intern`).
-/
import RowExpr.DigestCache
import RowExpr.Proofs.FirstSeen

namespace RowExpr

/-- What nodes are told apart by. -/
def Expr.signature (e : Expr) : String × DataType := (e.digest, e.type)

/-- The signature of a node that says this. -/
def Content.signature (content : Content Expr) : String × DataType :=
  (content.digest Expr.digest, content.type)

theorem Expr.signature_place (id : NodeId) (content : Content Expr) :
    (Expr.place id content).signature = content.signature := rfl

/-- The first node of a list with a given signature has it. -/
theorem signature_of_find? {nodes : List Expr} {signature : String × DataType} {e : Expr}
    (h : nodes.find? (·.signature = signature) = some e) : e.signature = signature := by
  simpa using List.find?_some h

theorem find?_signature_eq_none {nodes : List Expr} {signature : String × DataType} :
    nodes.find? (·.signature = signature) = none ↔ signature ∉ nodes.map Expr.signature := by
  rw [List.find?_eq_none, List.mem_map]
  simp

namespace DigestCache

/-! ## Looking up behind an insertion -/

/-- A node put behind those of its digest is found last, under its own signature. -/
theorem find?_addTo (node : Expr) (digest : String) (type : DataType) (buckets : List Bucket) :
    ((addTo node buckets).find? (·.digest = digest)).bind
        (fun bucket => bucket.nodes.find? (·.type = type)) =
      ((buckets.find? (·.digest = digest)).bind
        (fun bucket => bucket.nodes.find? (·.type = type))).or
        (if node.signature = (digest, type) then some node else none) := by
  induction buckets with
  | nil =>
    by_cases hd : node.digest = digest <;> by_cases ht : node.type = type <;>
      simp [addTo, Expr.signature, hd, ht]
  | cons b bs ih =>
    unfold addTo
    by_cases hb : b.digest = node.digest
    · rw [if_pos hb]
      by_cases hd : b.digest = digest
      · have hn : node.digest = digest := hb ▸ hd
        by_cases ht : node.type = type <;>
          simp [hd, hn, ht, Expr.signature, List.find?_append]
      · have hn : node.digest ≠ digest := fun h => hd (hb.trans h)
        simp [hd, hn, Expr.signature]
    · rw [if_neg hb]
      by_cases hd : b.digest = digest
      · have hn : node.digest ≠ digest := fun h => hb (hd.trans h.symm)
        simp [hd, hn, Expr.signature]
      · simpa [hd] using ih

theorem get?_addTo (cache : DigestCache) (node : Expr) (size : Nat) (digest : String)
    (type : DataType) :
    get? { cache with buckets := addTo node cache.buckets, size } digest type =
      (cache.get? digest type).or
        (if node.signature = (digest, type) then some node else none) :=
  find?_addTo node digest type cache.buckets

/-! ## All that interning can do -/

/-- Interning hits, or keeps the node, or turns it away; the last raises a warning unless the
    cache has raised it before. -/
theorem intern_cases (cache : DigestCache) (node : Expr) (s : Session) :
    (∃ known, cache.get? node.digest node.type = some known ∧
      (cache.intern node).run s = ((known, cache), s)) ∨
    (cache.get? node.digest node.type = none ∧ cache.size < cache.capacity ∧
      (cache.intern node).run s =
        ((node, { cache with buckets := addTo node cache.buckets, size := cache.size + 1 }),
          s)) ∨
    (cache.get? node.digest node.type = none ∧ cache.capacity ≤ cache.size ∧
      (cache.intern node).run s =
        ((node, { cache with overflowed := true }),
          if cache.overflowed then s
          else { s with warnings := s.warnings ++ [.cacheFull cache.capacity] })) := by
  cases hget : cache.get? node.digest node.type with
  | some known => exact Or.inl ⟨known, rfl, intern_of_get? s hget⟩
  | none =>
    have hrun : (cache.intern node).run s = (cache.insert node).run s := by
      unfold intern
      rw [hget]
    right
    rw [hrun]
    unfold insert
    by_cases hroom : cache.size < cache.capacity
    · left
      rw [if_pos hroom]
      exact ⟨rfl, hroom, rfl⟩
    · right
      rw [if_neg hroom]
      refine ⟨rfl, by omega, ?_⟩
      by_cases hover : cache.overflowed
      · rw [if_pos hover, if_pos hover]
        rfl
      · rw [if_neg hover, if_neg hover]
        rfl

/-- Interning answers with the node that is found, or with the node itself. -/
theorem intern_answer (cache : DigestCache) (node : Expr) (s : Session) :
    ((cache.intern node).run s).1.1 = (cache.get? node.digest node.type).getD node := by
  rcases intern_cases cache node s with
    ⟨known, hhit, hrun⟩ | ⟨hmiss, -, hrun⟩ | ⟨hmiss, -, hrun⟩
  · rw [hrun, hhit]
    rfl
  · rw [hrun, hmiss]
    rfl
  · rw [hrun, hmiss]
    rfl

/-! ## The nodes a cache keeps -/

/-- The cache keeps these nodes, in this order of coming. -/
structure Holds (cache : DigestCache) (kept : List Expr) : Prop where
  get?_eq : ∀ digest type,
    cache.get? digest type = kept.find? (·.signature = (digest, type))
  size_eq : cache.size = kept.length

theorem holds_ofCapacity (capacity : Nat) : (ofCapacity capacity).Holds [] :=
  ⟨fun _ _ => rfl, rfl⟩

theorem Holds.addTo {cache : DigestCache} {kept : List Expr} (h : cache.Holds kept)
    (node : Expr) :
    Holds { cache with buckets := addTo node cache.buckets, size := cache.size + 1 }
      (kept ++ [node]) := by
  constructor
  · intro digest type
    rw [get?_addTo, h.get?_eq, List.find?_append]
    by_cases hn : node.signature = (digest, type) <;> simp [hn]
  · rw [List.length_append, ← h.size_eq]
    rfl

/-- The first node of each signature among those passed, as many as there is room for. -/
def kept (capacity : Nat) (passed : List Expr) : List Expr :=
  (firstSeenBy Expr.signature passed).take capacity

theorem kept_concat (capacity : Nat) (passed : List Expr) (node : Expr) :
    kept capacity (passed ++ [node]) =
      if node.signature ∈ (kept capacity passed).map Expr.signature ∨
          capacity ≤ (kept capacity passed).length
      then kept capacity passed else kept capacity passed ++ [node] := by
  unfold kept
  rw [take_firstSeenBy_concat]
  congr

/-- The cache keeps the first node of each signature passed to it, as far as it has room. -/
def Remembers (cache : DigestCache) (passed : List Expr) : Prop :=
  cache.Holds (kept cache.capacity passed)

theorem remembers_ofCapacity (capacity : Nat) : (ofCapacity capacity).Remembers [] := by
  have h : kept capacity [] = [] := List.take_nil
  show (ofCapacity capacity).Holds (kept capacity [])
  rw [h]
  exact holds_ofCapacity capacity

/-- What a cache that was passed `passed` answers with: the node it keeps of the same
    signature, or else `node` itself. -/
def answer (capacity : Nat) (passed : List Expr) (node : Expr) : Expr :=
  ((kept capacity passed).find? (·.signature = node.signature)).getD node

/-- Whatever the cache answers with has the digest and the type asked for. -/
theorem signature_answer (capacity : Nat) (passed : List Expr) (node : Expr) :
    (answer capacity passed node).signature = node.signature := by
  unfold answer
  cases h : (kept capacity passed).find? (·.signature = node.signature) with
  | some known => exact signature_of_find? h
  | none => rfl

/-- A node that is not among those kept is answered with itself. -/
theorem answer_of_not_mem {capacity : Nat} {passed : List Expr} {node : Expr}
    (h : node.signature ∉ (kept capacity passed).map Expr.signature) :
    answer capacity passed node = node := by
  unfold answer
  rw [find?_signature_eq_none.mpr h]
  rfl

/-- The answer is the node itself or one that was passed before. -/
theorem answer_eq_or_mem (capacity : Nat) (passed : List Expr) (node : Expr) :
    answer capacity passed node = node ∨ answer capacity passed node ∈ passed := by
  unfold answer
  cases h : (kept capacity passed).find? (·.signature = node.signature) with
  | some known =>
    have hkept : known ∈ kept capacity passed := List.mem_of_find?_eq_some h
    exact Or.inr (mem_of_mem_firstSeenBy (List.mem_of_mem_take hkept))
  | none => exact Or.inl rfl

/-- To what is kept, the answer is as good as the node. -/
theorem kept_concat_answer (capacity : Nat) (passed : List Expr) (node : Expr) :
    kept capacity (passed ++ [answer capacity passed node]) = kept capacity (passed ++ [node]) := by
  rw [kept_concat, kept_concat, signature_answer]
  by_cases h : node.signature ∈ (kept capacity passed).map Expr.signature
  · rw [if_pos (Or.inl h), if_pos (Or.inl h)]
  · rw [answer_of_not_mem h]

namespace Remembers

variable {cache : DigestCache} {passed : List Expr}

theorem get?_eq (h : cache.Remembers passed) (node : Expr) :
    cache.get? node.digest node.type =
      (kept cache.capacity passed).find? (·.signature = node.signature) :=
  Holds.get?_eq h node.digest node.type

/-- A node that is found adds nothing to those kept. -/
theorem kept_of_hit (h : cache.Remembers passed) {node known : Expr}
    (hhit : cache.get? node.digest node.type = some known) :
    kept cache.capacity (passed ++ [node]) = kept cache.capacity passed := by
  rw [h.get?_eq] at hhit
  have hknown : node.signature ∈ (kept cache.capacity passed).map Expr.signature :=
    List.mem_map.mpr ⟨known, List.mem_of_find?_eq_some hhit, signature_of_find? hhit⟩
  rw [kept_concat, if_pos (Or.inl hknown)]

/-- A new node is one more of them while there is room. -/
theorem kept_of_room (h : cache.Remembers passed) {node : Expr}
    (hmiss : cache.get? node.digest node.type = none) (hroom : cache.size < cache.capacity) :
    kept cache.capacity (passed ++ [node]) = kept cache.capacity passed ++ [node] := by
  rw [h.get?_eq, find?_signature_eq_none] at hmiss
  have hspace : ¬ cache.capacity ≤ (kept cache.capacity passed).length := by
    rw [← Holds.size_eq h]
    omega
  rw [kept_concat, if_neg (not_or.mpr ⟨hmiss, hspace⟩)]

/-- Nothing is added to as many as there is room for. -/
theorem kept_of_full (h : cache.Remembers passed) (node : Expr)
    (hfull : cache.capacity ≤ cache.size) :
    kept cache.capacity (passed ++ [node]) = kept cache.capacity passed := by
  rw [Holds.size_eq h] at hfull
  rw [kept_concat, if_pos (Or.inr hfull)]

/-- A hit leaves the cache as it is. -/
theorem concat_of_hit (h : cache.Remembers passed) {node known : Expr}
    (hhit : cache.get? node.digest node.type = some known) :
    cache.Remembers (passed ++ [node]) := by
  unfold Remembers
  rw [h.kept_of_hit hhit]
  exact h

/-- A new node is kept while there is room. -/
theorem concat_of_room (h : cache.Remembers passed) {node : Expr}
    (hmiss : cache.get? node.digest node.type = none) (hroom : cache.size < cache.capacity) :
    Remembers { cache with buckets := DigestCache.addTo node cache.buckets, size := cache.size + 1 }
      (passed ++ [node]) := by
  show Holds _ (kept cache.capacity (passed ++ [node]))
  rw [h.kept_of_room hmiss hroom]
  exact Holds.addTo h node

/-- A full cache keeps what it has. -/
theorem concat_of_full (h : cache.Remembers passed) (node : Expr)
    (hfull : cache.capacity ≤ cache.size) :
    Remembers { cache with overflowed := true } (passed ++ [node]) := by
  show Holds _ (kept cache.capacity (passed ++ [node]))
  rw [h.kept_of_full node hfull]
  have hholds : cache.Holds (kept cache.capacity passed) := h
  exact ⟨hholds.get?_eq, hholds.size_eq⟩

end Remembers

/-- Interning answers as the history says, makes no node, and keeps the cache remembering. -/
theorem remembers_intern {cache : DigestCache} {passed : List Expr} (h : cache.Remembers passed)
    (node : Expr) (s : Session) :
    ∃ cache' s', (cache.intern node).run s = ((answer cache.capacity passed node, cache'), s') ∧
      s'.next = s.next ∧ cache'.capacity = cache.capacity ∧
      cache'.Remembers (passed ++ [node]) := by
  unfold answer
  rw [← h.get?_eq]
  rcases intern_cases cache node s with
    ⟨known, hhit, hrun⟩ | ⟨hmiss, hroom, hrun⟩ | ⟨hmiss, hfull, hrun⟩
  · rw [hhit]
    exact ⟨cache, s, hrun, rfl, rfl, h.concat_of_hit hhit⟩
  · rw [hmiss]
    exact ⟨_, s, hrun, rfl, rfl, h.concat_of_room hmiss hroom⟩
  · rw [hmiss]
    refine ⟨_, _, hrun, ?_, rfl, h.concat_of_full node hfull⟩
    split <;> rfl

end DigestCache
end RowExpr
