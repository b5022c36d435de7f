/-
  The buckets of a digest cache, and what its queries say of them.

  A cache has a bucket of nodes for each digest, counts its nodes, and knows whether it turned one
  away. `WellFormed` says how these parts belong together. An empty cache is well-formed, and
  interning keeps it so (`WellFormed.intern`): a node comes into a bucket only if a search has
  found none of its type there. Of a well-formed cache all queries say the same, namely which
  nodes are cached (`WellFormed.get?_eq_some_iff` and the lemmas behind it).

  `cachesAfter` keeps any number of caches side by side, made new or as clones of others. Each of
  them is a cache behind calls of its own, those to its original included (`cachesAfter_eq`), so
  what holds of caches behind calls holds of clones (`queries_agree_after`).
-/
import RowExpr.Proofs.CacheHistory

namespace RowExpr

/-- A bucket holds nodes of its digest only, at least one, and of each type at most one. -/
structure Bucket.WellFormed (bucket : Bucket) : Prop where
  ne_nil : bucket.nodes ≠ []
  digest_eq : ∀ e ∈ bucket.nodes, e.digest = bucket.digest
  types_nodup : (bucket.nodes.map Expr.type).Nodup

theorem Bucket.wellFormed_single (node : Expr) : (Bucket.mk node.digest [node]).WellFormed where
  ne_nil := List.cons_ne_nil node []
  digest_eq := fun _ he => List.mem_singleton.mp he ▸ rfl
  types_nodup := List.nodup_singleton node.type

/-- A node of its digest and of a type that it has not can be put into a bucket. -/
theorem Bucket.WellFormed.concat {bucket : Bucket} (h : bucket.WellFormed) {node : Expr}
    (hdigest : bucket.digest = node.digest) (hnew : node.type ∉ bucket.nodes.map Expr.type) :
    Bucket.WellFormed { bucket with nodes := bucket.nodes ++ [node] } := by
  constructor
  · exact List.append_ne_nil_of_right_ne_nil _ (List.cons_ne_nil node [])
  · intro e he
    rcases List.mem_append.mp he with he | he
    · exact h.digest_eq e he
    · rw [List.mem_singleton.mp he]
      exact hdigest.symm
  · rw [List.map_append, List.map_singleton, List.nodup_append]
    refine ⟨h.types_nodup, List.nodup_singleton node.type, fun t ht u hu heq => hnew ?_⟩
    rwa [← List.mem_singleton.mp hu, ← heq]

namespace DigestCache

/-! ## Well-formed caches -/

/-- Each digest has one bucket, each bucket is well-formed, the nodes in them are counted and are
    no more than there is room for; a node was turned away only if there is no room left. -/
structure WellFormed (cache : DigestCache) : Prop where
  buckets : ∀ bucket ∈ cache.buckets, bucket.WellFormed
  digests_nodup : cache.digests.Nodup
  size_eq : cache.size = cache.nodes.length
  size_le : cache.size ≤ cache.capacity
  full_of_overflowed : cache.overflowed = true → cache.size = cache.capacity

theorem wellFormed_ofCapacity (capacity : Nat) : (ofCapacity capacity).WellFormed where
  buckets := fun _ hbucket => nomatch hbucket
  digests_nodup := List.nodup_nil
  size_eq := rfl
  size_le := Nat.zero_le capacity
  full_of_overflowed := fun h => nomatch h

namespace WellFormed

variable {cache : DigestCache}

theorem digest_eq (h : cache.WellFormed) {bucket : Bucket} (hbucket : bucket ∈ cache.buckets)
    {e : Expr} (he : e ∈ bucket.nodes) : e.digest = bucket.digest :=
  (h.buckets bucket hbucket).digest_eq e he

/-- A search finds exactly the cached node of the digest and the type searched for. -/
theorem get?_eq_some_iff (h : cache.WellFormed) {digest : String} {type : DataType} {e : Expr} :
    cache.get? digest type = some e ↔ e ∈ cache.nodes ∧ e.digest = digest ∧ e.type = type := by
  constructor
  · intro hget
    obtain ⟨bucket, hfind, hfound⟩ := Option.bind_eq_some_iff.mp hget
    obtain ⟨hbucket, hdigest⟩ := (find?_key_eq_some_iff h.digests_nodup).mp hfind
    obtain ⟨he, htype⟩ :=
      (find?_key_eq_some_iff (h.buckets bucket hbucket).types_nodup).mp hfound
    exact ⟨mem_nodes_of_get? hget, (h.digest_eq hbucket he).trans hdigest, htype⟩
  · rintro ⟨hmem, hdigest, htype⟩
    obtain ⟨bucket, hbucket, he⟩ := List.mem_flatMap.mp hmem
    have hown : bucket.digest = digest := (h.digest_eq hbucket he).symm.trans hdigest
    exact Option.bind_eq_some_iff.mpr ⟨bucket,
      (find?_key_eq_some_iff h.digests_nodup).mpr ⟨hbucket, hown⟩,
      (find?_key_eq_some_iff (h.buckets bucket hbucket).types_nodup).mpr ⟨he, htype⟩⟩

/-- A digest is known exactly if a node of it is found for some type. -/
theorem contains_iff_get? (h : cache.WellFormed) {digest : String} :
    cache.contains digest = true ↔ ∃ type e, cache.get? digest type = some e := by
  unfold contains
  rw [List.any_eq_true]
  constructor
  · rintro ⟨bucket, hbucket, hdigest⟩
    obtain ⟨e, he⟩ := List.exists_mem_of_ne_nil _ (h.buckets bucket hbucket).ne_nil
    have hmem : e ∈ cache.nodes := List.mem_flatMap.mpr ⟨bucket, hbucket, he⟩
    have hown := (h.digest_eq hbucket he).trans (of_decide_eq_true hdigest)
    exact ⟨e.type, e, h.get?_eq_some_iff.mpr ⟨hmem, hown, rfl⟩⟩
  · rintro ⟨type, e, hget⟩
    obtain ⟨hmem, rfl, -⟩ := h.get?_eq_some_iff.mp hget
    obtain ⟨bucket, hbucket, he⟩ := List.mem_flatMap.mp hmem
    exact ⟨bucket, hbucket, decide_eq_true (h.digest_eq hbucket he).symm⟩

/-- A cache is empty exactly if no search can find a node. -/
theorem isEmpty_iff (h : cache.WellFormed) :
    cache.isEmpty = true ↔ ∀ digest type, cache.get? digest type = none := by
  unfold isEmpty
  rw [h.size_eq, beq_iff_eq, List.length_eq_zero_iff]
  constructor
  · intro hnone digest type
    rw [Option.eq_none_iff_forall_ne_some]
    intro e hget
    have hmem := (h.get?_eq_some_iff.mp hget).1
    rw [hnone] at hmem
    cases hmem
  · intro hnone
    refine List.eq_nil_iff_forall_not_mem.mpr fun e he => ?_
    have hget := h.get?_eq_some_iff.mpr ⟨he, rfl, rfl⟩
    rw [hnone] at hget
    cases hget

end WellFormed

/-- A digest is known exactly if it is listed. -/
theorem contains_iff_mem_digests (cache : DigestCache) (digest : String) :
    cache.contains digest = true ↔ digest ∈ cache.digests := by
  simp [contains, digests]

/-! ## Interning -/

/-- A node put into its bucket brings in its digest, behind the others, if that is new. -/
theorem digests_addTo (node : Expr) (buckets : List Bucket) :
    (addTo node buckets).map Bucket.digest =
      if node.digest ∈ buckets.map Bucket.digest then buckets.map Bucket.digest
      else buckets.map Bucket.digest ++ [node.digest] := by
  induction buckets with
  | nil => rfl
  | cons b bs ih =>
    unfold addTo
    by_cases hb : b.digest = node.digest
    · rw [if_pos hb, List.map_cons, List.map_cons, if_pos (hb ▸ List.mem_cons_self)]
    · have hmem : node.digest ∈ b.digest :: bs.map Bucket.digest ↔
          node.digest ∈ bs.map Bucket.digest := by
        rw [List.mem_cons]
        exact or_iff_right fun heq => hb heq.symm
      rw [if_neg hb, List.map_cons, List.map_cons, ih]
      by_cases hold : node.digest ∈ bs.map Bucket.digest
      · rw [if_pos hold, if_pos (hmem.mpr hold)]
      · rw [if_neg hold, if_neg (hold ∘ hmem.mp), List.cons_append]

/-- A node of a type that the bucket of its digest has not can be put into it. -/
theorem wellFormed_addTo {node : Expr} {buckets : List Bucket}
    (h : ∀ bucket ∈ buckets, bucket.WellFormed)
    (hnew : ∀ bucket ∈ buckets, bucket.digest = node.digest →
      node.type ∉ bucket.nodes.map Expr.type) :
    ∀ bucket ∈ addTo node buckets, bucket.WellFormed := by
  induction buckets with
  | nil => exact List.forall_mem_singleton.mpr (Bucket.wellFormed_single node)
  | cons b bs ih =>
    rw [List.forall_mem_cons] at h hnew
    unfold addTo
    split
    · rename_i hb
      exact List.forall_mem_cons.mpr ⟨h.1.concat hb (hnew.1 hb), h.2⟩
    · exact List.forall_mem_cons.mpr ⟨h.1, ih h.2 hnew.2⟩

namespace WellFormed

variable {cache : DigestCache}

/-- Where no node is found of its digest and type, a node can be added if there is room. -/
theorem concat (h : cache.WellFormed) {node : Expr}
    (hmiss : cache.get? node.digest node.type = none) (hroom : cache.size < cache.capacity) :
    WellFormed
      { cache with buckets := addTo node cache.buckets, size := cache.size + 1 } := by
  constructor
  · refine wellFormed_addTo h.buckets fun bucket hbucket hdigest htype => ?_
    obtain ⟨e, he, heq⟩ := List.mem_map.mp htype
    have hmem : e ∈ cache.nodes := List.mem_flatMap.mpr ⟨bucket, hbucket, he⟩
    have hown := (h.digest_eq hbucket he).trans hdigest
    have hget := h.get?_eq_some_iff.mpr ⟨hmem, hown, heq⟩
    rw [hmiss] at hget
    cases hget
  · show ((addTo node cache.buckets).map Bucket.digest).Nodup
    have hold : (cache.buckets.map Bucket.digest).Nodup := h.digests_nodup
    rw [digests_addTo]
    split
    · exact hold
    · rename_i hdigest
      rw [List.nodup_append]
      refine ⟨hold, List.nodup_singleton node.digest, fun d hd d' hd' heq => hdigest ?_⟩
      rwa [← List.mem_singleton.mp hd', ← heq]
  · have hlength := (addTo_perm node cache.buckets).length_eq
    have hsize : cache.size = (cache.buckets.flatMap Bucket.nodes).length := h.size_eq
    rw [List.length_append, List.length_singleton, ← hsize] at hlength
    exact hlength.symm
  · exact hroom
  · intro hover
    have hfull := h.full_of_overflowed hover
    omega

/-- Interning keeps a cache well-formed, whatever comes of it. -/
theorem intern (h : cache.WellFormed) (node : Expr) (s : Session) :
    ((cache.intern node).run s).1.2.WellFormed := by
  rcases intern_cases cache node s with
    ⟨known, -, hrun⟩ | ⟨hmiss, hroom, hrun⟩ | ⟨-, hfull, hrun⟩
  · rw [hrun]
    exact h
  · rw [hrun]
    exact h.concat hmiss hroom
  · rw [hrun]
    exact ⟨h.buckets, h.digests_nodup, h.size_eq, h.size_le,
      fun _ => Nat.le_antisymm h.size_le hfull⟩

/-- A cached node is the answer exactly for the nodes of its digest and type. -/
theorem intern_eq_iff (h : cache.WellFormed) {e : Expr} (he : e ∈ cache.nodes) (node : Expr)
    (s : Session) :
    ((cache.intern node).run s).1.1 = e ↔ e.digest = node.digest ∧ e.type = node.type := by
  have hfound : cache.get? node.digest node.type = some e ↔
      e.digest = node.digest ∧ e.type = node.type :=
    h.get?_eq_some_iff.trans (and_iff_right he)
  rw [intern_answer]
  cases hget : cache.get? node.digest node.type with
  | some known =>
    rw [hget, Option.some_inj] at hfound
    exact hfound
  | none =>
    rw [hget] at hfound
    constructor
    · rintro rfl
      exact ⟨rfl, rfl⟩
    · intro hsame
      cases hfound.mpr hsame

end WellFormed

/-! ## Histories -/

/-- Behind any calls a cache is well-formed. -/
theorem wellFormed_after (capacity : Nat) (calls : List Call) :
    (after capacity calls).WellFormed := by
  induction calls using List.reverseRecOn with
  | nil => exact wellFormed_ofCapacity capacity
  | append_singleton calls call ih =>
    rw [after_concat]
    cases hobject : call.object? with
    | some node =>
      obtain ⟨s, hrun⟩ := Call.run_of_object? (after capacity calls) hobject
      rw [hrun]
      exact ih.intern node s
    | none =>
      cases call with
      | clear => exact wellFormed_ofCapacity _
      | internNew _ _ | intern _ _ => cases hobject

/-- The digests of some nodes, each once, in the order of the nodes. -/
def digestsOf (nodes : List Expr) : List String :=
  firstSeenBy (fun digest => digest) (nodes.map Expr.digest)

theorem digestsOf_concat (nodes : List Expr) (node : Expr) :
    digestsOf (nodes ++ [node]) =
      if node.digest ∈ digestsOf nodes then digestsOf nodes
      else digestsOf nodes ++ [node.digest] := by
  have hmem := key_mem_firstSeenBy (fun digest => digest) (nodes.map Expr.digest) node.digest
  rw [List.map_id', List.map_id'] at hmem
  unfold digestsOf
  rw [List.map_append, List.map_singleton, firstSeenBy_concat, List.map_id']
  exact if_congr hmem.symm rfl rfl

/-- Interning one more node lists the digests as the history says. -/
theorem digests_intern {cache : DigestCache} {objects : List Expr}
    (hremembers : cache.Remembers objects)
    (h : cache.digests = digestsOf (kept cache.capacity objects)) (node : Expr) (s : Session) :
    ((cache.intern node).run s).1.2.digests =
      digestsOf (kept cache.capacity (objects ++ [node])) := by
  rcases intern_cases cache node s with
    ⟨known, hhit, hrun⟩ | ⟨hmiss, hroom, hrun⟩ | ⟨-, hfull, hrun⟩
  · rw [hrun, hremembers.kept_of_hit hhit]
    exact h
  · rw [hrun, hremembers.kept_of_room hmiss hroom, digestsOf_concat, ← h]
    exact digests_addTo node cache.buckets
  · rw [hrun, hremembers.kept_of_full node hfull]
    exact h

/-- Behind any calls the digests are listed in the order in which they were first cached. -/
theorem digests_after (capacity : Nat) (calls : List Call) :
    (after capacity calls).digests = digestsOf (kept capacity (passed calls)) := by
  induction calls using List.reverseRecOn with
  | nil =>
    have hnone : kept capacity (passed []) = [] := List.take_nil
    rw [hnone]
    rfl
  | append_singleton calls call ih =>
    obtain ⟨hcapacity, hstores⟩ := stores_after capacity calls
    rw [after_concat]
    cases hobject : call.object? with
    | some node =>
      obtain ⟨s, hrun⟩ := Call.run_of_object? (after capacity calls) hobject
      have hdigests := digests_intern hstores.remembers (by rwa [hcapacity]) node s
      rw [hrun, passed_concat_object hobject]
      rw [hcapacity] at hdigests
      exact hdigests
    | none =>
      cases call with
      | clear =>
        have hnone : kept capacity [] = [] := List.take_nil
        rw [passed_concat_clear, hnone]
        rfl
      | internNew _ _ | intern _ _ => cases hobject

/-! ## Caches side by side -/

/-- Something that is done with caches, which are named by their places: a new one, a call to
    one, or a clone of one. -/
inductive Event where
  | new (capacity : Nat)
  | ask (place : Nat) (call : Call)
  | clone (place : Nat)

/-- The caches behind one event; a new one and a clone come behind the others. -/
def Event.run (caches : List DigestCache) : Event → List DigestCache
  | new capacity => caches ++ [ofCapacity capacity]
  | ask place call => caches.modify place fun cache => (call.run cache).2
  | clone place => caches ++ caches[place]?.toList

/-- The caches behind events, oldest first. -/
def cachesAfter (events : List Event) : List DigestCache := events.foldl Event.run []

/-- What a cache has been through: its bound, and the calls to it, or to what it was cloned from
    before that. -/
structure Past where
  capacity : Nat
  calls : List Call

/-- What the caches have been through behind one event. -/
def Event.record (pasts : List Past) : Event → List Past
  | new capacity => pasts ++ [⟨capacity, []⟩]
  | ask place call => pasts.modify place fun past => { past with calls := past.calls ++ [call] }
  | clone place => pasts ++ pasts[place]?.toList

def pastsAfter (events : List Event) : List Past := events.foldl Event.record []

/-- The cache that has been through this. -/
def Past.cache (past : Past) : DigestCache := after past.capacity past.calls

theorem map_modify {α β : Type} {f : α → β} {g : α → α} {g' : β → β}
    (h : ∀ a, f (g a) = g' (f a)) (place : Nat) (xs : List α) :
    (xs.modify place g).map f = (xs.map f).modify place g' := by
  refine List.ext_getElem? fun i => ?_
  rw [List.getElem?_map, List.getElem?_modify, List.getElem?_modify, List.getElem?_map]
  cases xs[i]? with
  | none => rfl
  | some x =>
    by_cases hi : place = i <;> simp [hi, h]

/-- An event does to caches what it adds to their pasts. -/
theorem Event.run_map (pasts : List Past) (event : Event) :
    Event.run (pasts.map Past.cache) event = (Event.record pasts event).map Past.cache := by
  cases event with
  | new capacity =>
    show _ ++ [_] = List.map Past.cache (pasts ++ [_])
    rw [List.map_append]
    rfl
  | ask place call =>
    have hask (past : Past) : Past.cache { past with calls := past.calls ++ [call] } =
        (call.run past.cache).2 := after_concat past.capacity past.calls call
    exact (map_modify hask place pasts).symm
  | clone place =>
    show _ ++ (pasts.map Past.cache)[place]?.toList = (pasts ++ pasts[place]?.toList).map Past.cache
    rw [List.map_append, List.getElem?_map, Option.toList_map]

/-- Each cache is what its own past makes of it. -/
theorem cachesAfter_eq (events : List Event) :
    cachesAfter events = (pastsAfter events).map Past.cache := by
  unfold cachesAfter pastsAfter
  rw [← List.foldl_hom (List.map Past.cache) Event.run_map]
  rfl

/-- Each of any number of caches, made new or as clones, is well-formed behind any calls, and its
    queries agree: a search finds exactly the cached node of its digest and type; a digest is known
    exactly if a node of it is found, and exactly if it is listed; each is listed once, in the
    order in which the first node of it was cached; the cache is empty exactly if nothing can be
    found. -/
theorem queries_agree_after (events : List Event) {place : Nat} {cache : DigestCache}
    (h : (cachesAfter events)[place]? = some cache) :
    cache.WellFormed ∧
    (∀ digest type e, cache.get? digest type = some e ↔
      e ∈ cache.nodes ∧ e.digest = digest ∧ e.type = type) ∧
    (∀ digest, cache.contains digest = true ↔ ∃ type e, cache.get? digest type = some e) ∧
    (∀ digest, cache.contains digest = true ↔ digest ∈ cache.digests) ∧
    (cache.digests.Nodup ∧ ∃ past, (pastsAfter events)[place]? = some past ∧
      past.capacity = cache.capacity ∧
      cache.digests = digestsOf (kept past.capacity (passed past.calls))) ∧
    (cache.isEmpty = true ↔ ∀ digest type, cache.get? digest type = none) := by
  rw [cachesAfter_eq, List.getElem?_map, Option.map_eq_some_iff] at h
  obtain ⟨past, hpast, rfl⟩ := h
  have hformed : past.cache.WellFormed := wellFormed_after past.capacity past.calls
  have hcapacity : past.cache.capacity = past.capacity :=
    (stores_after past.capacity past.calls).1
  have hdigests := digests_after past.capacity past.calls
  exact ⟨hformed, fun _ _ _ => hformed.get?_eq_some_iff, fun _ => hformed.contains_iff_get?,
    contains_iff_mem_digests past.cache,
    ⟨hformed.digests_nodup, past, hpast, hcapacity.symm, hdigests⟩, hformed.isEmpty_iff⟩

/-- A clone goes on by itself: it has room left when its original has none, and caches a decimal
    under a digest that in the original is an integer's, too. -/
theorem queries_agree_after_clone :
    let column : Content Expr := .inputRef 0 (.notNull .integer)
    let one : Content Expr := .literal (.integer 1) (.notNull .integer)
    let dec : Content Expr := .literal (.decimal "1") (.notNull .decimal)
    let events : List Event := [.new 2, .ask 0 (.internNew column {}), .clone 0,
      .ask 0 (.internNew one { next := 1 }), .ask 0 (.internNew dec { next := 2 }),
      .ask 1 (.internNew dec { next := 3 })]
    let cache : DigestCache :=
      { buckets := [⟨"$0", [.place 0 column]⟩, ⟨"1", [.place 3 dec]⟩], size := 2, capacity := 2 }
    (cachesAfter events)[1]? = some cache ∧ cache.WellFormed ∧
      cache.get? "1" (.notNull .decimal) = some (.place 3 dec) ∧
      (∃ type e, cache.get? "1" type = some e) ∧ cache.digests.Nodup ∧
      ¬ (∀ digest type, cache.get? digest type = none) := by
  intro column one dec events cache
  have hcache : (cachesAfter events)[1]? = some cache := rfl
  obtain ⟨hformed, hget, hfound, -, ⟨hnodup, -⟩, hempty⟩ := queries_agree_after events hcache
  have hcached : Expr.place 3 dec ∈ cache.nodes := List.mem_cons_of_mem _ List.mem_cons_self
  exact ⟨hcache, hformed, (hget _ _ _).mpr ⟨hcached, rfl, rfl⟩, (hfound "1").mp rfl, hnodup,
    fun hnone => Bool.false_ne_true (hempty.mpr hnone)⟩

end DigestCache
end RowExpr
