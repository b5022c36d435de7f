/-
  Nodes as they are placed.

  An expression is `Placed` below a number when all its nodes have smaller identities and carry
  the digest that rendering them from scratch gives. A node placed over such nodes is one of
  them (`placed_place`).

  `Yields n x Q` is what a computation keeps: once the identities below `n` are handed out it
  takes none back, and its answer satisfies `Q` by then. The laws below say of everything that
  makes nodes within a session, the builder, replacing and decorrelating, that placed nodes
  in give placed nodes out.
-/
import RowExpr.Correlation.Decorrelator
import RowExpr.Proofs.Request
import RowExpr.Proofs.Tree

namespace RowExpr

/-- All nodes of the expression have identities below `next` and digests that are up to date. -/
structure Expr.Placed (next : NodeId) (e : Expr) : Prop where
  taken : ∀ x ∈ e.walk, x.id < next
  rendered : ∀ x ∈ e.walk, x.digest = x.render

namespace Expr.Placed

variable {n m : NodeId} {e : Expr}

theorem mono (h : e.Placed n) (hnm : n ≤ m) : e.Placed m :=
  ⟨fun x hx => Nat.lt_of_lt_of_le (h.taken x hx) hnm, h.rendered⟩

theorem of_mem_walk (h : e.Placed n) {x : Expr} (hx : x ∈ e.walk) : x.Placed n :=
  ⟨fun y hy => h.taken y (mem_walk_trans hx hy), fun y hy => h.rendered y (mem_walk_trans hx hy)⟩

theorem child (h : e.Placed n) {c : Expr} (hc : c ∈ e.children) : c.Placed n :=
  h.of_mem_walk (mem_walk_of_child hc (self_mem_walk c))

end Expr.Placed

/-- A new node over placed nodes is placed: its digest is computed from theirs. -/
theorem Expr.placed_place {n : NodeId} {content : Content Expr}
    (h : ∀ c ∈ content.children, c.Placed n) : (Expr.place n content).Placed (n + 1) := by
  constructor
  · intro x hx
    rcases mem_walk.mp hx with rfl | ⟨c, hc, hx⟩
    · exact Nat.lt_succ_self n
    · exact Nat.lt_succ_of_lt ((h c hc).taken x hx)
  · intro x hx
    rcases mem_walk.mp hx with rfl | ⟨c, hc, hx⟩
    · rw [Expr.digest_place, Expr.render_eq]
      exact Content.digest_congr fun c hc => (h c hc).rendered c (self_mem_walk c)
    · exact (h c hc).rendered x hx

/-! ## What a computation keeps -/

/-- A state that hands out identities: the next one, and what must hold of a state. -/
class Numbered (σ : Type) where
  next : σ → NodeId
  Good : σ → Prop

instance : Numbered Session := ⟨Session.next, fun _ => True⟩

instance : Numbered Pass := ⟨fun p => p.session.next, fun _ => True⟩

/-- From a good state in which the identities below `n` are handed out, `x` comes to a good
    state, takes no identity back, and answers with something that satisfies `Q` there. -/
def Yields {σ α : Type} [Numbered σ] (n : NodeId) (x : StateM σ α) (Q : NodeId → α → Prop) :
    Prop :=
  ∀ s, Numbered.Good s → n ≤ Numbered.next s →
    Numbered.Good (x.run s).2 ∧ Numbered.next s ≤ Numbered.next (x.run s).2 ∧
      Q (Numbered.next (x.run s).2) (x.run s).1

section Rules

variable {σ α β : Type} [Numbered σ] {n : NodeId}

theorem Yields.pure {a : α} {Q : NodeId → α → Prop} (h : ∀ m, n ≤ m → Q m a) :
    Yields n (Pure.pure a : StateM σ α) Q :=
  fun _ hgood hn => ⟨hgood, Nat.le_refl _, h _ hn⟩

theorem Yields.bind {x : StateM σ α} {f : α → StateM σ β} {Q : NodeId → α → Prop}
    {R : NodeId → β → Prop} (hx : Yields n x Q)
    (hf : ∀ a m, n ≤ m → Q m a → Yields m (f a) R) : Yields n (x >>= f) R := by
  intro s hgood hn
  obtain ⟨hgood', hnext, hQ⟩ := hx s hgood hn
  obtain ⟨hgood'', hnext', hR⟩ :=
    hf _ _ (Nat.le_trans hn hnext) hQ (x.run s).2 hgood' (Nat.le_refl _)
  exact ⟨hgood'', Nat.le_trans hnext hnext', hR⟩

theorem Yields.later {x : StateM σ α} {Q : NodeId → α → Prop} {m : NodeId} (hx : Yields n x Q)
    (hnm : n ≤ m) : Yields m x Q :=
  fun s hgood hm => hx s hgood (Nat.le_trans hnm hm)

end Rules

/-! ## Placing, building and interning -/

variable {n : NodeId}

theorem Session.place_yields {content : Content Expr} (h : ∀ c ∈ content.children, c.Placed n) :
    Yields n (Session.place content) fun m e => e.Placed m := by
  intro s _ hn
  rw [Session.place_run]
  exact ⟨trivial, Nat.le_succ _, Expr.placed_place fun c hc => (h c hc).mono hn⟩

theorem Session.copy_yields {e : Expr} (h : e.Placed n) :
    Yields n (Session.copy e) fun m copy => copy.Placed m :=
  Session.place_yields fun _ hc => h.child hc

theorem Session.warn_yields (warning : Warning) :
    Yields n (Session.warn warning) fun _ _ => True :=
  fun s _ _ => ⟨trivial, Nat.le_refl s.next, trivial⟩

namespace DigestCache

/-- The nodes in a cache, bucket by bucket. -/
def nodes (cache : DigestCache) : List Expr := cache.buckets.flatMap Bucket.nodes

theorem mem_nodes_of_get? {cache : DigestCache} {digest : String} {type : DataType} {e : Expr}
    (h : cache.get? digest type = some e) : e ∈ cache.nodes := by
  obtain ⟨bucket, hbucket, he⟩ := Option.bind_eq_some_iff.mp h
  exact List.mem_flatMap.mpr
    ⟨bucket, List.mem_of_find?_eq_some hbucket, List.mem_of_find?_eq_some he⟩

/-- Putting a node behind those of its digest adds it to the cached nodes. -/
theorem addTo_perm (node : Expr) (buckets : List Bucket) :
    ((addTo node buckets).flatMap Bucket.nodes).Perm (buckets.flatMap Bucket.nodes ++ [node]) := by
  induction buckets with
  | nil => exact List.Perm.refl [node]
  | cons b bs ih =>
    unfold addTo
    split
    · rw [List.flatMap_cons, List.flatMap_cons, List.append_assoc, List.append_assoc]
      exact List.perm_append_comm.append_left b.nodes
    · rw [List.flatMap_cons, List.flatMap_cons, List.append_assoc]
      exact ih.append_left b.nodes

theorem mem_addTo {node x : Expr} {buckets : List Bucket}
    (h : x ∈ (addTo node buckets).flatMap Bucket.nodes) :
    x = node ∨ x ∈ buckets.flatMap Bucket.nodes := by
  rw [(addTo_perm node buckets).mem_iff, List.mem_append, List.mem_singleton] at h
  exact h.symm

/-- All cached nodes are placed. -/
def Placed (n : NodeId) (cache : DigestCache) : Prop := ∀ e ∈ cache.nodes, e.Placed n

theorem Placed.mono {cache : DigestCache} {m : NodeId} (h : cache.Placed n) (hnm : n ≤ m) :
    cache.Placed m :=
  fun e he => (h e he).mono hnm

theorem placed_ofCapacity (capacity : Nat) : (ofCapacity capacity).Placed n :=
  fun _ he => nomatch he

theorem intern_yields {cache : DigestCache} {node : Expr} (hcache : cache.Placed n)
    (hnode : node.Placed n) :
    Yields n (cache.intern node) fun m r => r.1.Placed m ∧ r.2.Placed m := by
  intro s _ hn
  rcases intern_cases cache node s with
    ⟨known, hhit, hrun⟩ | ⟨-, -, hrun⟩ | ⟨-, -, hrun⟩
  · rw [hrun]
    exact ⟨trivial, Nat.le_refl _, (hcache known (mem_nodes_of_get? hhit)).mono hn,
      hcache.mono hn⟩
  · rw [hrun]
    refine ⟨trivial, Nat.le_refl _, hnode.mono hn, fun x hx => ?_⟩
    rcases mem_addTo hx with rfl | hx
    · exact hnode.mono hn
    · exact (hcache x hx).mono hn
  · -- only a warning may come in; the cached nodes and the next identity stay
    rw [hrun]
    have hnext : Numbered.next (if cache.overflowed then s else
        { s with warnings := s.warnings ++ [.cacheFull cache.capacity] }) = s.next := by
      split <;> rfl
    rw [hnext]
    exact ⟨trivial, Nat.le_refl _, hnode.mono hn, fun x hx => (hcache x hx).mono hn⟩

end DigestCache

theorem Builder.register_yields {builder : Builder} {content : Content Expr}
    (hcache : builder.cache.Placed n) (h : ∀ c ∈ content.children, c.Placed n) :
    Yields n (builder.register content) fun m r => r.1.Placed m ∧ r.2.cache.Placed m := by
  refine (Session.place_yields h).bind fun node m hnm hnode => ?_
  split
  · refine (DigestCache.intern_yields (hcache.mono hnm) hnode).bind fun r k hmk hr => ?_
    exact Yields.pure fun k' hk => ⟨hr.1.mono hk, hr.2.mono hk⟩
  · exact Yields.pure fun k hmk => ⟨hnode.mono hmk, hcache.mono (Nat.le_trans hnm hmk)⟩

/-- Asked for something over placed nodes, a builder whose cached nodes are placed hands out a
    placed node and keeps its cached nodes so. -/
theorem Builder.make_yields {builder : Builder} {request : Request Expr}
    (hcache : builder.cache.Placed n) (h : ∀ c ∈ request.nodes, c.Placed n) :
    Yields n (builder.make request) fun m r =>
      (∀ e, r.1 = .ok e → e.Placed m) ∧ r.2.cache.Placed m := by
  unfold Builder.make
  split
  · exact Yields.pure fun m hm => ⟨fun _ he => (nomatch he), hcache.mono hm⟩
  · rename_i content hc
    rw [← Request.children_of_content hc] at h
    refine (Builder.register_yields hcache h).bind fun r m hnm hr => ?_
    refine Yields.pure fun k hk => ⟨fun e he => ?_, hr.2.mono hk⟩
    cases he
    exact hr.1.mono hk

/-! ## Replacing -/

theorem Pass.lift_yields {α : Type} {x : SessionM α} {Q : NodeId → α → Prop}
    (h : Yields n x Q) : Yields n (Pass.lift x) Q :=
  fun p _ hn => h p.session trivial hn

theorem Pass.count_yields : Yields n Pass.count fun _ _ => True :=
  fun p _ _ => ⟨trivial, Nat.le_refl p.session.next, trivial⟩

/-- Offered placed nodes, `f` answers with placed nodes, from `n` on. -/
def KeepsPlaced (n : NodeId) (f : Expr → SessionM (Option Expr)) : Prop :=
  ∀ e m, n ≤ m → e.Placed m → Yields m (f e) fun k answer => ∀ new, answer = some new → new.Placed k

namespace Expr

variable {f : Expr → SessionM (Option Expr)}

theorem offer_yields (hf : KeepsPlaced n f) {e : Expr} {m : NodeId} (hnm : n ≤ m)
    (he : e.Placed m) {descend : PassM Expr}
    (hdescend : ∀ k, m ≤ k → Yields k descend fun k' new => new.Placed k') :
    Yields m (offer f e descend) fun k new => new.Placed k := by
  refine (Pass.lift_yields (hf e m hnm he)).bind fun answer k hmk hanswer => ?_
  cases answer with
  | none => exact hdescend k hmk
  | some new =>
    refine Pass.count_yields.bind fun _ k' hkk' _ => ?_
    exact Yields.pure fun k'' hk => (hanswer new rfl).mono (Nat.le_trans hkk' hk)

theorem replaceAll_yields {es : List Expr}
    (h : ∀ e ∈ es, ∀ m, n ≤ m → e.Placed m → Yields m (e.replace f) fun k new => new.Placed k)
    {m : NodeId} (hnm : n ≤ m) (hes : ∀ e ∈ es, e.Placed m) :
    Yields m (replaceAll f es) fun k news => ∀ new ∈ news, new.Placed k := by
  induction es generalizing m with
  | nil => exact Yields.pure fun _ _ => List.forall_mem_nil _
  | cons e es ih =>
    rw [replaceAll]
    refine (h e List.mem_cons_self m hnm (hes e List.mem_cons_self)).bind
      fun new k hmk hnew => ?_
    have hrest := ih (fun x hx => h x (List.mem_cons_of_mem e hx)) (Nat.le_trans hnm hmk)
      fun x hx => (hes x (List.mem_cons_of_mem e hx)).mono hmk
    refine hrest.bind fun news k' hkk' hnews => Yields.pure fun k'' hk x hx => ?_
    rcases List.mem_cons.mp hx with rfl | hx
    · exact hnew.mono (Nat.le_trans hkk' hk)
    · exact (hnews x hx).mono hk

/-- Replacing parts of a placed expression by placed nodes gives a placed expression. -/
theorem replace_yields (hf : KeepsPlaced n f) (e : Expr) :
    ∀ m, n ≤ m → e.Placed m → Yields m (e.replace f) fun k new => new.Placed k := by
  induction e using Expr.induction with
  | step e ih =>
    intro m hnm he
    obtain ⟨id, digest, content⟩ := e
    cases content with
    | call operator operands type =>
      rw [replace]
      refine offer_yields hf hnm he fun k hmk => ?_
      have hall := replaceAll_yields ih (Nat.le_trans hnm hmk)
        fun c hc => (he.child hc).mono hmk
      refine hall.bind fun news k' hkk' hnews => ?_
      split
      · exact Yields.pure fun k'' hk => he.mono (Nat.le_trans hmk (Nat.le_trans hkk' hk))
      · exact Pass.lift_yields (Session.place_yields hnews)
    | access reference field =>
      rw [replace]
      refine offer_yields hf hnm he fun k hmk => ?_
      have hone := ih reference List.mem_cons_self k (Nat.le_trans hnm hmk)
        ((he.child List.mem_cons_self).mono hmk)
      refine hone.bind fun new k' hkk' hnew => ?_
      split
      · exact Yields.pure fun k'' hk => he.mono (Nat.le_trans hmk (Nat.le_trans hkk' hk))
      · refine Pass.lift_yields (Session.place_yields fun c hc => ?_)
        rw [List.mem_singleton.mp hc]
        exact hnew
    | literal value type =>
      exact offer_yields hf hnm he fun k hmk => Yields.pure fun k' hk =>
        he.mono (Nat.le_trans hmk hk)
    | inputRef index type =>
      exact offer_yields hf hnm he fun k hmk => Yields.pure fun k' hk =>
        he.mono (Nat.le_trans hmk hk)
    | correlation id type =>
      exact offer_yields hf hnm he fun k hmk => Yields.pure fun k' hk =>
        he.mono (Nat.le_trans hmk hk)

theorem replaceCounting_yields (hf : KeepsPlaced n f) {e : Expr} (he : e.Placed n) :
    Yields n (e.replaceCounting f) fun m r => r.1.Placed m :=
  fun s _ hn => replace_yields hf e n (Nat.le_refl n) he { session := s } trivial hn

theorem replaceLeaves_yields {g : Expr → Option Expr}
    (hg : ∀ x new, g x = some new → new.Placed n) {e : Expr} (he : e.Placed n) :
    Yields n (e.replaceLeaves g) fun m r => r.1.Placed m := by
  refine replaceCounting_yields (fun x m hnm _ => Yields.pure fun k hk new hnew => ?_) he
  split at hnew
  · exact (hg x new hnew).mono (Nat.le_trans hnm hk)
  · cases hnew

end Expr

/-! ## Decorrelating -/

namespace Decorrelator

theorem answer_keepsPlaced {d : Decorrelator} (hd : d.replacement.Placed n) :
    KeepsPlaced n d.answer := by
  intro e m hnm _
  unfold answer
  split
  · exact Yields.pure fun _ _ _ h => nomatch h
  · split
    · rename_i field _
      have hplace : Yields m (Session.place (.access d.replacement field)) fun k new =>
          new.Placed k := by
        refine Session.place_yields fun c hc => ?_
        rw [List.mem_singleton.mp hc]
        exact hd.mono hnm
      refine hplace.bind fun new k _ hnew => Yields.pure fun k' hk x hx => ?_
      cases hx
      exact hnew.mono hk
    · refine (Session.warn_yields _).bind fun _ k _ _ => ?_
      exact Yields.pure fun _ _ _ h => nomatch h

theorem apply_yields {d : Decorrelator} {e : Expr} (hd : d.replacement.Placed n)
    (he : e.Placed n) :
    Yields n (d.apply e) fun m r => r.1.Placed m ∧ r.2.replacement = d.replacement := by
  refine (Expr.replaceCounting_yields (answer_keepsPlaced hd) he).bind fun r m _ hr => ?_
  exact Yields.pure fun k hk => ⟨hr.mono hk, rfl⟩

theorem decorrelate_yields {d : Decorrelator} {e : Expr} (hd : d.replacement.Placed n)
    (he : e.Placed n) :
    Yields n (d.decorrelate e) fun m r =>
      (∀ new, r.1 = .ok new → new.Placed m) ∧ r.2.replacement = d.replacement := by
  unfold decorrelate
  split
  · exact Yields.pure fun _ _ => ⟨fun _ h => (nomatch h), rfl⟩
  · refine (apply_yields hd he).bind fun r m _ hr => Yields.pure fun k hk => ⟨fun new h => ?_, hr.2⟩
    cases h
    exact hr.1.mono hk

end Decorrelator
end RowExpr
