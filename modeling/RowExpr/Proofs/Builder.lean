/-
  What a builder hands out.

  `make_run` is the one law of `Builder.make`: a request that is not refused uses up one
  identity, and `handOut` is what comes back, the new node or an earlier one of the same
  digest and type. `HasMade` ties a builder to the nodes it has handed out and is kept by it.

  `Shared` says of a list of nodes that objects and signatures correspond one to one and that
  no child is missing. As long as there is room for all signatures, handing out one more node
  keeps it (`Shared.concat`), and everything below the nodes is among them (`mem_of_mem_walkAll`).
-/
import RowExpr.Expr.Walk
import RowExpr.Proofs.Request

namespace RowExpr

namespace Builder

/-- The builder has handed out these nodes, and remembers them if it shares nodes. -/
structure HasMade (builder : Builder) (made : List Expr) : Prop where
  capacity_eq : builder.cache.capacity = builder.config.maxCacheEntries.toNat
  remembers : builder.config.shareCommonSubexpressions = true → builder.cache.Remembers made

theorem hasMade_start (config : Config) : (start config).HasMade [] :=
  ⟨rfl, fun _ => DigestCache.remembers_ofCapacity _⟩

/-- What comes back for a new node, once the nodes `made` were handed out. -/
def handOut (config : Config) (made : List Expr) (node : Expr) : Expr :=
  if config.shareCommonSubexpressions then
    DigestCache.answer config.maxCacheEntries.toNat made node
  else node

theorem signature_handOut (config : Config) (made : List Expr) (node : Expr) :
    (handOut config made node).signature = node.signature := by
  unfold handOut
  split
  · exact DigestCache.signature_answer _ made node
  · rfl

/-- What comes back is the new node or one that was handed out before. -/
theorem handOut_eq_or_mem (config : Config) (made : List Expr) (node : Expr) :
    handOut config made node = node ∨ handOut config made node ∈ made := by
  unfold handOut
  split
  · exact DigestCache.answer_eq_or_mem _ made node
  · exact Or.inl rfl

variable {builder : Builder} {made : List Expr}

/-- A new node is registered as the builder's history says. -/
theorem register_run (h : builder.HasMade made) (content : Content Expr) (s : Session) :
    ∃ builder' s', (builder.register content).run s =
        ((handOut builder.config made (Expr.place s.next content), builder'), s') ∧
      s'.next = s.next + 1 ∧ builder'.config = builder.config ∧
      builder'.HasMade (made ++ [handOut builder.config made (Expr.place s.next content)]) := by
  unfold handOut
  by_cases hshare : builder.config.shareCommonSubexpressions = true
  · rw [if_pos hshare, ← h.capacity_eq]
    obtain ⟨cache, s', hrun, hnext, hcap, hremembers⟩ := DigestCache.remembers_intern
      (h.remembers hshare) (Expr.place s.next content) { s with next := s.next + 1 }
    refine ⟨{ builder with cache }, s', ?_, hnext, rfl, ?_, fun _ => ?_⟩
    · unfold register
      rw [run_bind, Session.place_run, if_pos hshare, run_bind, hrun]
      rfl
    · rw [← h.capacity_eq]
      exact hcap
    · show DigestCache.Holds _ _
      rw [hcap, DigestCache.kept_concat_answer, ← hcap]
      exact hremembers
  · rw [if_neg hshare]
    refine ⟨builder, { s with next := s.next + 1 }, ?_, rfl, rfl, h.capacity_eq,
      fun hs => absurd hs hshare⟩
    unfold register
    rw [run_bind, Session.place_run, if_neg hshare]
    rfl

/-- A request that is accepted gets the node that is registered for its content. -/
theorem make_ok {builder : Builder} {request : Request Expr} {content : Content Expr}
    (s : Session) (h : request.content builder.config.caseSensitive = .ok content) :
    (builder.make request).run s =
      ((.ok ((builder.register content).run s).1.1, ((builder.register content).run s).1.2),
        ((builder.register content).run s).2) := by
  unfold make
  rw [h]
  rfl

/-- A request that is accepted gets the node that the builder hands out for its content. -/
theorem make_run (h : builder.HasMade made) {request : Request Expr} {content : Content Expr}
    (hc : request.content builder.config.caseSensitive = .ok content) (s : Session) :
    ∃ builder' s', (builder.make request).run s =
        ((.ok (handOut builder.config made (Expr.place s.next content)), builder'), s') ∧
      s'.next = s.next + 1 ∧ builder'.config = builder.config ∧
      builder'.HasMade (made ++ [handOut builder.config made (Expr.place s.next content)]) := by
  obtain ⟨builder', s', hrun, hrest⟩ := register_run h content s
  refine ⟨builder', s', ?_, hrest⟩
  rw [make_ok s hc, hrun]

end Builder

/-! ## Maximal sharing -/

/-- Among these nodes no child is missing, and neither two of one identity nor two of one
    digest and type differ; identities from `next` on are free. -/
structure Shared (made : List Expr) (next : NodeId) : Prop where
  closed : ∀ e ∈ made, ∀ child ∈ e.children, child ∈ made
  fresh : ∀ e ∈ made, e.id < next
  eq_of_id : ∀ x ∈ made, ∀ y ∈ made, x.id = y.id → x = y
  eq_of_signature : ∀ x ∈ made, ∀ y ∈ made, x.signature = y.signature → x = y

/-- A key that tells the nodes of a list apart tells one more node apart whose key is new. -/
theorem eq_of_key_concat {β : Type} {key : Expr → β} {made : List Expr} {e : Expr}
    (h : ∀ x ∈ made, ∀ y ∈ made, key x = key y → x = y) (hnew : ∀ x ∈ made, key x ≠ key e) :
    ∀ x ∈ made ++ [e], ∀ y ∈ made ++ [e], key x = key y → x = y := by
  intro x hx y hy heq
  rcases List.mem_append.mp hx with hx | hx <;> rcases List.mem_append.mp hy with hy | hy
  · exact h x hx y hy heq
  · rw [List.mem_singleton.mp hy] at heq
    exact absurd heq (hnew x hx)
  · rw [List.mem_singleton.mp hx] at heq
    exact absurd heq.symm (hnew y hy)
  · rw [List.mem_singleton.mp hx, List.mem_singleton.mp hy]

namespace Shared

variable {made : List Expr} {next : NodeId}

theorem nil (next : NodeId) : Shared [] next := by
  constructor <;> simp

/-- Handing out a node that is there already changes nothing. -/
theorem concat_of_mem (h : Shared made next) {e : Expr} (he : e ∈ made) :
    Shared (made ++ [e]) (next + 1) := by
  have hmem {x : Expr} (hx : x ∈ made ++ [e]) : x ∈ made := by
    rcases List.mem_append.mp hx with hx | hx
    · exact hx
    · rw [List.mem_singleton.mp hx]
      exact he
  constructor
  · intro x hx child hchild
    exact List.mem_append_left _ (h.closed x (hmem hx) child hchild)
  · intro x hx
    exact Nat.lt_succ_of_lt (h.fresh x (hmem hx))
  · intro x hx y hy
    exact h.eq_of_id x (hmem hx) y (hmem hy)
  · intro x hx y hy
    exact h.eq_of_signature x (hmem hx) y (hmem hy)

/-- A new node of a new signature, over nodes that are there, can be added. -/
theorem concat_of_new (h : Shared made next) {content : Content Expr}
    (hchildren : ∀ child ∈ content.children, child ∈ made)
    (hnew : content.signature ∉ made.map Expr.signature) :
    Shared (made ++ [Expr.place next content]) (next + 1) := by
  constructor
  · intro x hx child hchild
    apply List.mem_append_left
    rcases List.mem_append.mp hx with hx | hx
    · exact h.closed x hx child hchild
    · rw [List.mem_singleton.mp hx] at hchild
      exact hchildren child hchild
  · intro x hx
    rcases List.mem_append.mp hx with hx | hx
    · exact Nat.lt_succ_of_lt (h.fresh x hx)
    · rw [List.mem_singleton.mp hx]
      exact Nat.lt_succ_self next
  · exact eq_of_key_concat h.eq_of_id fun x hx => Nat.ne_of_lt (h.fresh x hx)
  · refine eq_of_key_concat h.eq_of_signature fun x hx heq => hnew ?_
    rw [← Expr.signature_place next content, ← heq]
    exact List.mem_map_of_mem hx

/-- Handing out one more node keeps all shared, as long as every signature so far is kept. -/
theorem concat (h : Shared made next) {config : Config}
    (hshare : config.shareCommonSubexpressions = true)
    (hroom : (firstSeenBy Expr.signature made).length ≤ config.maxCacheEntries.toNat)
    {content : Content Expr} (hchildren : ∀ child ∈ content.children, child ∈ made) :
    Shared (made ++ [Builder.handOut config made (Expr.place next content)]) (next + 1) := by
  unfold Builder.handOut DigestCache.answer DigestCache.kept
  rw [if_pos hshare, List.take_of_length_le hroom]
  -- nothing is cut off, so a signature that is not found is new to all of `made`
  cases hfind : (firstSeenBy Expr.signature made).find?
      (·.signature = (Expr.place next content).signature) with
  | some known =>
    exact h.concat_of_mem (mem_of_mem_firstSeenBy (List.mem_of_find?_eq_some hfind))
  | none =>
    rw [find?_signature_eq_none, key_mem_firstSeenBy] at hfind
    exact h.concat_of_new hchildren hfind

end Shared

/-! ## Below the nodes handed out -/

mutual

/-- Among nodes of which no child is missing are all nodes of their walks. -/
theorem mem_of_mem_walk {made : List Expr}
    (hclosed : ∀ e ∈ made, ∀ child ∈ e.children, child ∈ made) :
    (e : Expr) → e ∈ made → ∀ x ∈ e.walk, x ∈ made
  | ⟨id, digest, .call operator operands type⟩, he, x, hx => by
    rw [Expr.walk, List.mem_cons] at hx
    rcases hx with rfl | hx
    · exact he
    · exact mem_of_mem_walkAll hclosed operands (hclosed _ he) x hx
  | ⟨id, digest, .access reference field⟩, he, x, hx => by
    rw [Expr.walk, List.mem_cons] at hx
    rcases hx with rfl | hx
    · exact he
    · exact mem_of_mem_walk hclosed reference (hclosed _ he _ List.mem_cons_self) x hx
  | ⟨_, _, .literal _ _⟩, he, _, hx => List.mem_singleton.mp hx ▸ he
  | ⟨_, _, .inputRef _ _⟩, he, _, hx => List.mem_singleton.mp hx ▸ he
  | ⟨_, _, .correlation _ _⟩, he, _, hx => List.mem_singleton.mp hx ▸ he
termination_by structural e => e

theorem mem_of_mem_walkAll {made : List Expr}
    (hclosed : ∀ e ∈ made, ∀ child ∈ e.children, child ∈ made) :
    (es : List Expr) → (∀ e ∈ es, e ∈ made) → ∀ x ∈ Expr.walkAll es, x ∈ made
  | [], _, _, hx => by simp [Expr.walkAll] at hx
  | e :: es, hes, x, hx => by
    rw [Expr.walkAll, List.mem_append] at hx
    rcases hx with hx | hx
    · exact mem_of_mem_walk hclosed e (hes e List.mem_cons_self) x hx
    · exact mem_of_mem_walkAll hclosed es (fun y hy => hes y (List.mem_cons_of_mem e hy)) x hx
termination_by structural es => es

end

/-- Of nodes that are shared, and all nodes below them, two are one object exactly when their
    digests and their types agree. -/
theorem Shared.same_iff {made : List Expr} {next : NodeId} (h : Shared made next) {x y : Expr}
    (hx : x ∈ Expr.walkAll made) (hy : y ∈ Expr.walkAll made) :
    x.same y = true ↔ x.digest = y.digest ∧ x.type = y.type := by
  have hx' := mem_of_mem_walkAll h.closed made (fun _ he => he) x hx
  have hy' := mem_of_mem_walkAll h.closed made (fun _ he => he) y hy
  constructor
  · intro hsame
    rw [h.eq_of_id x hx' y hy' (beq_iff_eq.mp hsame)]
    exact ⟨rfl, rfl⟩
  · rintro ⟨hd, ht⟩
    rw [h.eq_of_signature x hx' y hy' (Prod.ext hd ht)]
    exact beq_self_eq_true y.id

end RowExpr
