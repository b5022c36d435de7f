/-
  What a digest cache holds and answers after any calls.

  `DigestCache.after` is an empty cache of some bound behind a list of calls, each made in
  whatever session. `passed` lists the objects passed since the cache was last cleared. `Stores`
  says of a cache that its nodes are the first objects passed; interning one more object keeps
  this so (`Stores.intern`), hence all calls do (`stores_after`). `nodes_after` reads off which
  nodes are cached, how many they are and what the next call answers.
-/
import Mathlib.Data.List.DropRight
import RowExpr.Proofs.Placed

namespace RowExpr.DigestCache

/-! ## Histories -/

/-- A call to a cache, and the session in which it is made. -/
inductive Call where
  /-- Intern a new node that says this. -/
  | internNew (content : Content Expr) (session : Session)
  /-- Intern an object. -/
  | intern (node : Expr) (session : Session)
  | clear

/-- The object that is passed, if any; what is new is the next node of the session. -/
def Call.object? : Call → Option Expr
  | internNew content session => some (.place session.next content)
  | intern node _ => some node
  | clear => none

/-- What a call answers, and the cache behind it. -/
def Call.run (cache : DigestCache) : Call → Option Expr × DigestCache
  | internNew content session =>
    Prod.map some id ((Session.place content >>= cache.intern).run session).1
  | intern node session => Prod.map some id ((cache.intern node).run session).1
  | clear => (none, cache.clear)

/-- The cache behind calls, oldest first. -/
def after (capacity : Nat) (calls : List Call) : DigestCache :=
  calls.foldl (fun cache call => (call.run cache).2) (ofCapacity capacity)

/-- The objects passed since the cache was last cleared, oldest first. -/
def passed (calls : List Call) : List Expr :=
  (calls.rtakeWhile fun call => call.object?.isSome).filterMap Call.object?

theorem after_concat (capacity : Nat) (calls : List Call) (call : Call) :
    after capacity (calls ++ [call]) = (call.run (after capacity calls)).2 := by
  simp [after, List.foldl_append]

theorem passed_concat_object {calls : List Call} {call : Call} {node : Expr}
    (h : call.object? = some node) : passed (calls ++ [call]) = passed calls ++ [node] := by
  simp [passed, List.filterMap_append, h]

theorem passed_concat_clear (calls : List Call) : passed (calls ++ [.clear]) = [] := by
  simp [passed, Call.object?]

/-- Whatever passes an object interns it, in some session. -/
theorem Call.run_of_object? {call : Call} {node : Expr} (cache : DigestCache)
    (h : call.object? = some node) :
    ∃ s, call.run cache = Prod.map some id ((cache.intern node).run s).1 := by
  cases call with
  | internNew content session =>
    cases h
    exact ⟨_, rfl⟩
  | intern _ session =>
    cases h
    exact ⟨session, rfl⟩
  | clear => cases h

/-! ## One call -/

/-- The cached nodes are the first objects passed of each signature, as many as there is room
    for, and are found under it. -/
structure Stores (cache : DigestCache) (objects : List Expr) : Prop where
  remembers : cache.Remembers objects
  nodes_perm : cache.nodes.Perm (kept cache.capacity objects)

theorem stores_ofCapacity (capacity : Nat) : (ofCapacity capacity).Stores [] where
  remembers := remembers_ofCapacity capacity
  nodes_perm := by
    have h : kept capacity [] = [] := List.take_nil
    show ([] : List Expr).Perm (kept capacity [])
    rw [h]

/-- Interning answers as the history says, and stores one more object. -/
theorem Stores.intern {cache : DigestCache} {objects : List Expr} (h : cache.Stores objects)
    (node : Expr) (s : Session) :
    ∃ cache', ((cache.intern node).run s).1 = (answer cache.capacity objects node, cache') ∧
      cache'.capacity = cache.capacity ∧ cache'.Stores (objects ++ [node]) := by
  obtain ⟨cache', s', hrun, -, hcapacity, hremembers⟩ := remembers_intern h.remembers node s
  refine ⟨cache', congrArg Prod.fst hrun, hcapacity, hremembers, ?_⟩
  rw [hcapacity]
  rcases intern_cases cache node s with
    ⟨known, hhit, hcase⟩ | ⟨hmiss, hroom, hcase⟩ | ⟨-, hfull, hcase⟩
  · obtain rfl : cache = cache' := congrArg (·.1.2) (hcase.symm.trans hrun)
    rw [h.remembers.kept_of_hit hhit]
    exact h.nodes_perm
  · obtain rfl : _ = cache' := congrArg (·.1.2) (hcase.symm.trans hrun)
    rw [h.remembers.kept_of_room hmiss hroom]
    exact (addTo_perm node cache.buckets).trans (h.nodes_perm.append_right [node])
  · obtain rfl : _ = cache' := congrArg (·.1.2) (hcase.symm.trans hrun)
    rw [h.remembers.kept_of_full node hfull]
    exact h.nodes_perm

/-! ## All calls -/

/-- Behind any calls a cache has its bound and stores what was passed since it was cleared. -/
theorem stores_after (capacity : Nat) (calls : List Call) :
    (after capacity calls).capacity = capacity ∧
      (after capacity calls).Stores (passed calls) := by
  induction calls using List.reverseRecOn with
  | nil => exact ⟨rfl, stores_ofCapacity capacity⟩
  | append_singleton calls call ih =>
    obtain ⟨hcapacity, hstores⟩ := ih
    rw [after_concat]
    cases hobject : call.object? with
    | some node =>
      obtain ⟨s, hrun⟩ := Call.run_of_object? (after capacity calls) hobject
      obtain ⟨cache', hintern, hcapacity', hstores'⟩ := hstores.intern node s
      rw [hrun, hintern, passed_concat_object hobject]
      exact ⟨hcapacity'.trans hcapacity, hstores'⟩
    | none =>
      cases call with
      | clear =>
        rw [passed_concat_clear]
        show (ofCapacity _).capacity = capacity ∧ (ofCapacity _).Stores []
        rw [hcapacity]
        exact ⟨rfl, stores_ofCapacity capacity⟩
      | internNew _ _ | intern _ _ => cases hobject

/-- The digests and types passed since the cache was last cleared, each once, in the order in
    which they were first passed. -/
def pairs (calls : List Call) : List (String × DataType) :=
  firstSeenBy (fun pair => pair) ((passed calls).map Expr.signature)

theorem map_signature_kept (capacity : Nat) (calls : List Call) :
    (kept capacity (passed calls)).map Expr.signature = (pairs calls).take capacity := by
  unfold kept pairs
  rw [List.map_take, map_firstSeenBy]

/-- A kept node is the first object passed with its digest and type. -/
theorem find?_of_mem_kept {capacity : Nat} {objects : List Expr} {node : Expr}
    (h : node ∈ kept capacity objects) :
    objects.find? (·.signature = node.signature) = some node :=
  find?_key_of_mem_firstSeenBy (List.mem_of_mem_take h)

/-- A node with the digest and the type of one that is kept is answered with the first object
    passed with these. -/
theorem answer_of_mem {capacity : Nat} {objects : List Expr} {node : Expr}
    (h : node.signature ∈ (kept capacity objects).map Expr.signature) :
    ∃ first, objects.find? (·.signature = node.signature) = some first ∧
      answer capacity objects node = first := by
  unfold answer
  cases hfind : (kept capacity objects).find? (·.signature = node.signature) with
  | none => exact absurd h (find?_signature_eq_none.mp hfind)
  | some first =>
    have hfirst := find?_of_mem_kept (List.mem_of_find?_eq_some hfind)
    rw [signature_of_find? hfind] at hfirst
    exact ⟨first, hfirst, rfl⟩

/-- One more call is answered from what was passed since the cache was last cleared. -/
theorem run_after (capacity : Nat) (calls : List Call) {call : Call} {node : Expr}
    (h : call.object? = some node) :
    (call.run (after capacity calls)).1 = some (answer capacity (passed calls) node) := by
  obtain ⟨hcapacity, hstores⟩ := stores_after capacity calls
  obtain ⟨s, hrun⟩ := Call.run_of_object? (after capacity calls) h
  obtain ⟨cache', hintern, -⟩ := hstores.intern node s
  rw [hrun, hintern, hcapacity]
  rfl

/-- Behind any calls to an empty cache of any bound, 0 included, the cached nodes are, for each of
    the first pairs of a digest and a type passed since the cache was last cleared, the first
    object passed with it, as many as the bound allows; this is their number. An object with one
    of these pairs is answered with that first object, any other with itself. -/
theorem nodes_after (capacity : Nat) (calls : List Call) :
    ((after capacity calls).nodes.map some).Perm
      (((pairs calls).take capacity).map fun pair =>
        (passed calls).find? (·.signature = pair)) ∧
    (after capacity calls).size = min capacity (pairs calls).length ∧
    ∀ (call : Call) (node : Expr), call.object? = some node →
      (node.signature ∈ (pairs calls).take capacity → ∃ first,
        (passed calls).find? (·.signature = node.signature) = some first ∧
          (call.run (after capacity calls)).1 = some first) ∧
      (node.signature ∉ (pairs calls).take capacity →
        (call.run (after capacity calls)).1 = some node) := by
  obtain ⟨hcapacity, hstores⟩ := stores_after capacity calls
  refine ⟨?_, ?_, fun call node hobject => ?_⟩
  · have hfirst : (kept capacity (passed calls)).map some =
        ((pairs calls).take capacity).map fun pair =>
          (passed calls).find? (·.signature = pair) := by
      rw [← map_signature_kept, List.map_map]
      exact List.map_congr_left fun node hnode => (find?_of_mem_kept hnode).symm
    have hperm := hstores.nodes_perm.map some
    rw [hcapacity, hfirst] at hperm
    exact hperm
  · rw [Holds.size_eq hstores.remembers, hcapacity, ← List.length_take, ← map_signature_kept,
      List.length_map]
  · rw [run_after capacity calls hobject, ← map_signature_kept]
    constructor
    · intro hknown
      obtain ⟨first, hfirst, hanswer⟩ := answer_of_mem hknown
      exact ⟨first, hfirst, congrArg some hanswer⟩
    · intro hnew
      rw [answer_of_not_mem hnew]

/-- Two nodes of one digest fill a cache for two: what was passed before it was cleared is
    forgotten, and a third node is not shared. -/
theorem nodes_after_cleared :
    let one : Content Expr := .literal (.integer 1) (.notNull .integer)
    let dec : Content Expr := .literal (.decimal "1") (.notNull .decimal)
    let column : Content Expr := .inputRef 0 (.notNull .integer)
    let calls : List Call := [.intern (.place 0 one) { next := 1 }, .clear,
      .internNew dec { next := 1 }, .internNew one { next := 2 }, .internNew column { next := 3 },
      .intern (.place 0 one) { next := 4 }]
    let cache := after 2 calls
    (cache.nodes.map some).Perm [some (.place 1 dec), some (.place 2 one)] ∧ cache.size = 2 ∧
      ((Call.intern (.place 0 one) { next := 4 }).run cache).1 = some (.place 2 one) ∧
      ((Call.internNew column { next := 4 }).run cache).1 = some (.place 4 column) := by
  intro one dec column calls cache
  obtain ⟨hnodes, hsize, hanswer⟩ := nodes_after 2 calls
  obtain ⟨first, hfirst, hknown⟩ :=
    (hanswer (.intern (.place 0 one) { next := 4 }) _ rfl).1 (by decide)
  have hnew := (hanswer (.internNew column { next := 4 }) _ rfl).2 (by decide)
  have hsecond : (passed calls).find? (·.signature = (Expr.place 0 one).signature) =
      some (.place 2 one) := rfl
  rw [hsecond] at hfirst
  exact ⟨hnodes, hsize, hfirst ▸ hknown, hnew⟩

end RowExpr.DigestCache
