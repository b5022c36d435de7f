/-
  When a full cache warns.

  A cache warns when it turns a node away for the first time, and its `overflowed` keeps that in mind
  until the cache is cleared. Interning keeps in step with the history: a cache has turned a node
  away exactly if more pairs of a digest and a type were passed than it has room for
  (`Overflows.intern`, `overflowed_after`). A call raises the warning exactly if it is the one that
  sets the mark (`Call.raised_eq`), so one of them does in a stretch of calls that passes too many
  pairs, namely the one that passes the first pair too many, and none in other stretches
  (`raised_after`, `raisedBy_after`).

  A clone has the past of its original, and the calls to a builder that shares nodes are calls to its
  cache (`Builder.cache_after`, `Builder.raised_make`), so `cacheFull_raised_once` speaks of them,
  too.
-/
import RowExpr.Proofs.Buckets
import RowExpr.Proofs.History

namespace RowExpr

/-- The warnings that a computation raises in a session. -/
def Session.raised {α : Type} (s : Session) (x : SessionM α) : List Warning :=
  (x.run s).2.warnings.drop s.warnings.length

theorem Session.raised_of_warnings {α : Type} {s : Session} {x : SessionM α}
    {warnings : List Warning} (h : (x.run s).2.warnings = s.warnings ++ warnings) :
    s.raised x = warnings := by
  unfold raised
  rw [h, List.drop_left]

namespace DigestCache

/-! ## One call -/

/-- The warnings that a call to a cache raises. -/
def Call.raised (cache : DigestCache) : Call → List Warning
  | internNew content session => session.raised (Session.place content >>= cache.intern)
  | intern node session => session.raised (cache.intern node)
  | clear => []

/-- Interning raises the warning exactly if it turns the node away and none was turned away before,
    and takes no earlier warning back. -/
theorem warnings_intern (cache : DigestCache) (node : Expr) (s : Session) :
    ((cache.intern node).run s).2.warnings = s.warnings ++
      if cache.overflowed = false ∧ ((cache.intern node).run s).1.2.overflowed = true
      then [.cacheFull cache.capacity] else [] := by
  rcases intern_cases cache node s with
    ⟨known, -, hrun⟩ | ⟨-, -, hrun⟩ | ⟨-, -, hrun⟩
  all_goals
    rw [hrun]
    cases cache.overflowed <;> simp

/-- A call raises the warning exactly if no node was turned away before it and one was behind it. -/
theorem Call.raised_eq (cache : DigestCache) (call : Call) :
    call.raised cache =
      if cache.overflowed = false ∧ (call.run cache).2.overflowed = true
      then [.cacheFull cache.capacity] else [] := by
  cases call with
  | internNew content session =>
    exact Session.raised_of_warnings
      (warnings_intern cache (.place session.next content) { session with next := session.next + 1 })
  | intern node session => exact Session.raised_of_warnings (warnings_intern cache node session)
  | clear => exact (if_neg fun h => Bool.false_ne_true h.2).symm

/-! ## The mark and the history -/

/-- A node was turned away exactly if the objects have more digests and types than there is room
    for. -/
def Overflows (cache : DigestCache) (objects : List Expr) : Prop :=
  cache.overflowed = true ↔ cache.capacity < (firstSeenBy Expr.signature objects).length

/-- Interning one more object keeps the mark in step. -/
theorem Overflows.intern {cache : DigestCache} {objects : List Expr}
    (hremembers : cache.Remembers objects) (h : cache.Overflows objects) (node : Expr)
    (s : Session) : ((cache.intern node).run s).1.2.Overflows (objects ++ [node]) := by
  have hsize : cache.size = min cache.capacity (firstSeenBy Expr.signature objects).length :=
    (Holds.size_eq hremembers).trans List.length_take
  have hmore := length_firstSeenBy_le_append Expr.signature objects [node]
  have hseen := key_mem_firstSeenBy Expr.signature objects node.signature
  unfold Overflows at h ⊢
  rcases intern_cases cache node s with
    ⟨known, hhit, hrun⟩ | ⟨hmiss, hroom, hrun⟩ | ⟨hmiss, hfull, hrun⟩
  · -- the node's pair was passed before
    rw [hremembers.get?_eq] at hhit
    have hknown : node.signature ∈ objects.map Expr.signature := by
      rw [← hseen, ← signature_of_find? hhit]
      exact List.mem_map_of_mem (List.mem_of_mem_take (List.mem_of_find?_eq_some hhit))
    rw [hrun, firstSeenBy_concat, if_pos hknown]
    exact h
  · -- one more pair at most, and there is room for it
    have hone : (firstSeenBy Expr.signature (objects ++ [node])).length ≤
        (firstSeenBy Expr.signature objects).length + 1 := by
      rw [firstSeenBy_concat]
      split
      · exact Nat.le_succ _
      · exact Nat.le_of_eq List.length_append
    rw [hrun]
    show cache.overflowed = true ↔
      cache.capacity < (firstSeenBy Expr.signature (objects ++ [node])).length
    rw [h]
    omega
  · -- all pairs that there is room for are taken, and the node's is none of them
    rw [hrun]
    show true = true ↔ cache.capacity < (firstSeenBy Expr.signature (objects ++ [node])).length
    rw [hremembers.get?_eq, find?_signature_eq_none] at hmiss
    refine iff_of_true rfl ?_
    by_cases hexact : (firstSeenBy Expr.signature objects).length ≤ cache.capacity
    · have hnew : node.signature ∉ objects.map Expr.signature := by
        rwa [kept, List.take_of_length_le hexact, hseen] at hmiss
      rw [firstSeenBy_concat, if_neg hnew, List.length_append, List.length_singleton]
      omega
    · omega

theorem length_pairs (calls : List Call) :
    (pairs calls).length = (firstSeenBy Expr.signature (passed calls)).length := by
  unfold pairs
  rw [← map_firstSeenBy, List.length_map]

/-- Behind any calls a node was turned away since the cache was last cleared exactly if more pairs
    were passed since then than there is room for. -/
theorem overflowed_after (capacity : Nat) (calls : List Call) :
    (after capacity calls).overflowed = true ↔ capacity < (pairs calls).length := by
  have hoverflows : (after capacity calls).Overflows (passed calls) := by
    induction calls using List.reverseRecOn with
    | nil => exact iff_of_false Bool.false_ne_true (Nat.not_lt_zero capacity)
    | append_singleton calls call ih =>
      rw [after_concat]
      cases hobject : call.object? with
      | some node =>
        obtain ⟨s, hrun⟩ := Call.run_of_object? (after capacity calls) hobject
        rw [hrun, passed_concat_object hobject]
        exact ih.intern (stores_after capacity calls).2.remembers node s
      | none =>
        cases call with
        | clear =>
          rw [passed_concat_clear]
          exact iff_of_false Bool.false_ne_true (Nat.not_lt_zero _)
        | internNew _ _ | intern _ _ => cases hobject
  rw [length_pairs]
  unfold Overflows at hoverflows
  rwa [(stores_after capacity calls).1] at hoverflows

/-! ## All calls -/

theorem passed_append {before stretch : List Call}
    (h : ∀ call ∈ stretch, call.object?.isSome = true) :
    passed (before ++ stretch) = passed before ++ stretch.filterMap Call.object? := by
  induction stretch using List.reverseRecOn with
  | nil => rw [List.append_nil, List.filterMap_nil, List.append_nil]
  | append_singleton stretch call ih =>
    obtain ⟨node, hobject⟩ := Option.isSome_iff_exists.mp
      (h call (List.mem_append_right stretch List.mem_cons_self))
    have hrest := ih fun c hc => h c (List.mem_append_left [call] hc)
    rw [← List.append_assoc, passed_concat_object hobject, hrest, List.filterMap_append,
      List.append_assoc]
    simp [hobject]

/-- As long as the cache is not cleared, no pair is forgotten. -/
theorem length_pairs_le_append (before : List Call) {stretch : List Call}
    (h : ∀ call ∈ stretch, call.object?.isSome = true) :
    (pairs before).length ≤ (pairs (before ++ stretch)).length := by
  rw [length_pairs, length_pairs, passed_append h]
  exact length_firstSeenBy_le_append _ _ _

/-- A call adds one pair at most. -/
theorem length_pairs_concat_le (calls : List Call) (call : Call) :
    (pairs (calls ++ [call])).length ≤ (pairs calls).length + 1 := by
  rw [length_pairs, length_pairs]
  cases hobject : call.object? with
  | some node =>
    rw [passed_concat_object hobject, firstSeenBy_concat]
    split
    · exact Nat.le_succ _
    · exact Nat.le_of_eq List.length_append
  | none =>
    cases call with
    | clear =>
      rw [passed_concat_clear]
      exact Nat.zero_le _
    | internNew _ _ | intern _ _ => cases hobject

/-- The call that raises the warning is the one that brings the pairs above the bound. -/
theorem raised_after (capacity : Nat) (calls : List Call) (call : Call) :
    call.raised (after capacity calls) =
      if (pairs calls).length ≤ capacity ∧ capacity < (pairs (calls ++ [call])).length
      then [.cacheFull capacity] else [] := by
  have hbefore : (after capacity calls).overflowed = false ↔ (pairs calls).length ≤ capacity := by
    rw [← Bool.not_eq_true, overflowed_after, Nat.not_lt]
  rw [Call.raised_eq, ← after_concat, (stores_after capacity calls).1]
  exact if_congr (and_congr hbefore (overflowed_after capacity _)) rfl rfl

/-- The warnings that calls raise, each made to the cache behind those before it. -/
def raisedBy (cache : DigestCache) : List Call → List Warning
  | [] => []
  | call :: calls => call.raised cache ++ raisedBy (call.run cache).2 calls

theorem raisedBy_singleton (cache : DigestCache) (call : Call) :
    raisedBy cache [call] = call.raised cache := List.append_nil _

theorem raisedBy_append (capacity : Nat) (before stretch later : List Call) :
    raisedBy (after capacity before) (stretch ++ later) =
      raisedBy (after capacity before) stretch ++
        raisedBy (after capacity (before ++ stretch)) later := by
  induction stretch generalizing before with
  | nil =>
    rw [List.append_nil]
    rfl
  | cons call stretch ih =>
    rw [List.cons_append, raisedBy, raisedBy, ← after_concat, ih, List.append_assoc,
      List.append_assoc]
    rfl

/-- Calls that do not clear the cache raise the warning once if they bring the pairs above the
    bound, and not at all otherwise. -/
theorem raisedBy_after (capacity : Nat) (before : List Call) {stretch : List Call}
    (h : ∀ call ∈ stretch, call.object?.isSome = true) :
    raisedBy (after capacity before) stretch =
      if (pairs before).length ≤ capacity ∧ capacity < (pairs (before ++ stretch)).length
      then [.cacheFull capacity] else [] := by
  induction stretch using List.reverseRecOn with
  | nil =>
    rw [List.append_nil, if_neg (by omega)]
    rfl
  | append_singleton stretch call ih =>
    have hinit : ∀ c ∈ stretch, c.object?.isSome = true :=
      fun c hc => h c (List.mem_append_left [call] hc)
    have hlast : ∀ c ∈ [call], c.object?.isSome = true :=
      fun c hc => h c (List.mem_append_right stretch hc)
    have hmore := length_pairs_le_append before hinit
    have hmore' := length_pairs_le_append (before ++ stretch) hlast
    rw [raisedBy_append, ih hinit, raisedBy_singleton, raised_after, ← List.append_assoc]
    -- the bound is passed in the calls before, or by the last one, or not at all
    by_cases hfull : capacity < (pairs (before ++ stretch)).length
    · have hlate : ¬ ((pairs (before ++ stretch)).length ≤ capacity ∧
          capacity < (pairs (before ++ stretch ++ [call])).length) := by omega
      rw [if_neg hlate, List.append_nil]
      exact if_congr (by omega) rfl rfl
    · have hearly : ¬ ((pairs before).length ≤ capacity ∧
          capacity < (pairs (before ++ stretch)).length) := by omega
      rw [if_neg hearly, List.nil_append]
      exact if_congr (by omega) rfl rfl

/-- The warnings raised since the cache was last cleared. -/
def sinceCleared (capacity : Nat) (calls : List Call) : List Warning :=
  raisedBy (after capacity (calls.rdropWhile fun call => call.object?.isSome))
    (calls.rtakeWhile fun call => call.object?.isSome)

theorem sinceCleared_eq (capacity : Nat) (calls : List Call) :
    sinceCleared capacity calls =
      if capacity < (pairs calls).length then [.cacheFull capacity] else [] := by
  let passes (call : Call) : Bool := call.object?.isSome
  have hboth : calls.rdropWhile passes ++ calls.rtakeWhile passes = calls :=
    List.rdropWhile_append_rtakeWhile
  have hnone : (pairs (calls.rdropWhile passes)).length = 0 := by
    have hstop : (calls.rdropWhile passes).rtakeWhile passes = [] :=
      List.rtakeWhile_eq_nil_iff.mpr fun hne => List.rdropWhile_last_not passes calls hne
    rw [length_pairs, passed, hstop]
    rfl
  have hlast : ∀ call ∈ calls.rtakeWhile passes, call.object?.isSome = true :=
    fun _ hcall => List.mem_rtakeWhile_imp (p := passes) hcall
  have hraised := raisedBy_after capacity (calls.rdropWhile passes) hlast
  rw [hboth, hnone] at hraised
  exact hraised.trans (if_congr (and_iff_right (Nat.zero_le capacity)) rfl rfl)

/-! ## Clones -/

/-- The warnings that an event raises. -/
def Event.raised (caches : List DigestCache) : Event → List Warning
  | ask place call => caches[place]?.elim [] call.raised
  | new _ | clone _ => []

/-- What is not a call that clears the cache at a place adds calls to its past that do not either,
    or none. -/
theorem Event.record_at {pasts : List Past} {place : Nat} {past : Past}
    (h : pasts[place]? = some past) {event : Event} (hevent : event ≠ .ask place .clear) :
    ∃ more : List Call, (∀ call ∈ more, call.object?.isSome = true) ∧
      (event.record pasts)[place]? = some { past with calls := past.calls ++ more } := by
  have hplace : place < pasts.length := (List.getElem?_eq_some_iff.mp h).1
  have hnothing : ∀ call ∈ ([] : List Call), call.object?.isSome = true := List.forall_mem_nil _
  have hsame : some past = some { past with calls := past.calls ++ [] } := by
    rw [List.append_nil]
  cases event with
  | new _ | clone _ =>
    refine ⟨[], hnothing, ?_⟩
    rw [← hsame, ← h]
    exact List.getElem?_append_left hplace
  | ask other call =>
    have hrecord : ((Event.ask other call).record pasts)[place]? =
        some (if other = place then { past with calls := past.calls ++ [call] } else past) := by
      show (pasts.modify other _)[place]? = _
      rw [List.getElem?_modify, h]
      rfl
    by_cases hother : other = place
    · refine ⟨[call], List.forall_mem_singleton.mpr ?_, ?_⟩
      · cases call with
        | clear => exact absurd (hother ▸ rfl) hevent
        | internNew _ _ | intern _ _ => rfl
      · rw [hrecord, if_pos hother]
    · refine ⟨[], hnothing, ?_⟩
      rw [hrecord, if_neg hother]
      exact hsame

/-- So do any events among which the cache at that place is not cleared. -/
theorem foldl_record_at {pasts : List Past} {place : Nat} {past : Past}
    (h : pasts[place]? = some past) {events : List Event}
    (hevents : ∀ event ∈ events, event ≠ .ask place .clear) :
    ∃ more : List Call, (∀ call ∈ more, call.object?.isSome = true) ∧
      (events.foldl Event.record pasts)[place]? =
        some { past with calls := past.calls ++ more } := by
  induction events generalizing pasts past with
  | nil =>
    refine ⟨[], List.forall_mem_nil _, ?_⟩
    rw [List.append_nil]
    exact h
  | cons event events ih =>
    rw [List.forall_mem_cons] at hevents
    obtain ⟨more, hmore, hevent⟩ := Event.record_at h hevents.1
    obtain ⟨more', hmore', hrest⟩ := ih hevent hevents.2
    refine ⟨more ++ more', List.forall_mem_append.mpr ⟨hmore, hmore'⟩, ?_⟩
    rw [List.foldl_cons, hrest, List.append_assoc]

/-- The caches behind events are what their pasts make of them. -/
theorem foldl_run_map (pasts : List Past) (events : List Event) :
    events.foldl Event.run (pasts.map Past.cache) =
      (events.foldl Event.record pasts).map Past.cache :=
  List.foldl_hom (List.map Past.cache) Event.run_map

/-- A clone of a cache that has warned since it was cleared does not warn until it is cleared
    itself, whatever becomes of the other caches. -/
theorem clone_raises_nothing {pasts : List Past} {place : Nat} {past : Past}
    (h : pasts[place]? = some past) (hwarned : sinceCleared past.capacity past.calls ≠ [])
    {later : List Event} (hlater : ∀ event ∈ later, event ≠ .ask pasts.length .clear)
    (call : Call) :
    (Event.ask pasts.length call).raised
      ((Event.clone place :: later).foldl Event.run (pasts.map Past.cache)) = [] := by
  have hfull : past.capacity < (pairs past.calls).length := by
    rw [sinceCleared_eq] at hwarned
    by_contra hroom
    exact hwarned (if_neg hroom)
  have hclone : (Event.record pasts (.clone place))[pasts.length]? = some past := by
    show (pasts ++ pasts[place]?.toList)[pasts.length]? = _
    rw [h, List.getElem?_append_right (Nat.le_refl _), Nat.sub_self]
    rfl
  obtain ⟨more, hmore, hpast⟩ := foldl_record_at hclone hlater
  have hkept := length_pairs_le_append past.calls hmore
  rw [foldl_run_map, List.foldl_cons, Event.raised, List.getElem?_map, hpast]
  show call.raised (after past.capacity (past.calls ++ more)) = []
  rw [raised_after, if_neg (by omega)]

end DigestCache

/-! ## Builders -/

namespace Builder

/-- The calls to its cache that calls to a builder that shares nodes come to: what is asked for and
    not refused is interned as a new node. -/
def internings (config : Config) (calls : List Call) : List DigestCache.Call :=
  calls.filterMap fun call =>
    (call.request.content config.caseSensitive).toOption.map fun content =>
      .internNew content call.session

theorem object?_of_mem_internings (config : Config) (calls : List Call) :
    ∀ call ∈ internings config calls, call.object?.isSome = true := by
  intro call hcall
  obtain ⟨asked, -, hasked⟩ := List.mem_filterMap.mp hcall
  obtain ⟨content, -, rfl⟩ := Option.map_eq_some_iff.mp hasked
  rfl

theorem internings_concat (config : Config) (calls : List Call) (call : Call) :
    internings config (calls ++ [call]) = internings config calls ++ internings config [call] :=
  List.filterMap_append

theorem internings_error {config : Config} {call : Call} {cause : Error}
    (h : call.request.content config.caseSensitive = .error cause) :
    internings config [call] = [] := by
  simp [internings, h, Except.toOption]

theorem internings_ok {config : Config} {call : Call} {content : Content Expr}
    (h : call.request.content config.caseSensitive = .ok content) :
    internings config [call] = [.internNew content call.session] := by
  simp [internings, h, Except.toOption]

/-- A builder that shares nodes registers one by interning it. -/
theorem register_sharing {builder : Builder}
    (hshare : builder.config.shareCommonSubexpressions = true) (content : Content Expr)
    (s : Session) :
    (builder.register content).run s =
      ((((Session.place content >>= builder.cache.intern).run s).1.1,
        { builder with cache := ((Session.place content >>= builder.cache.intern).run s).1.2 }),
        ((Session.place content >>= builder.cache.intern).run s).2) := by
  unfold register
  rw [run_bind, if_pos hshare]
  rfl

/-- The warnings that calls raise, each made to the builder behind those before it. -/
def raisedBy (builder : Builder) : List Call → List Warning
  | [] => []
  | call :: calls =>
    call.session.raised (builder.make call.request) ++
      raisedBy ((builder.make call.request).run call.session).1.2 calls

section Sharing

variable {config : Config} (hshare : config.shareCommonSubexpressions = true)

include hshare

/-- The cache of a builder is the cache behind what was interned. -/
theorem cache_after (calls : List Call) :
    (after config calls).cache =
      DigestCache.after config.maxCacheEntries.toNat (internings config calls) := by
  induction calls using List.reverseRecOn with
  | nil => rfl
  | append_singleton calls call ih =>
    have hconfig : (after config calls).config = config := (exists_made config calls).1
    rw [after_concat, internings_concat]
    cases hc : call.request.content config.caseSensitive with
    | error cause =>
      rw [internings_error hc, List.append_nil]
      rw [← hconfig] at hc
      rw [make_error call.session hc]
      exact ih
    | ok content =>
      rw [internings_ok hc, DigestCache.after_concat, ← ih]
      rw [← hconfig] at hc hshare
      rw [make_ok call.session hc, register_sharing hshare]
      rfl

/-- A builder raises what its cache raises. -/
theorem raised_make (calls : List Call) (call : Call) :
    call.session.raised ((after config calls).make call.request) =
      DigestCache.raisedBy (after config calls).cache (internings config [call]) := by
  have hconfig : (after config calls).config = config := (exists_made config calls).1
  cases hc : call.request.content config.caseSensitive with
  | error cause =>
    rw [internings_error hc]
    rw [← hconfig] at hc
    unfold Session.raised
    rw [make_error call.session hc]
    exact List.drop_length
  | ok content =>
    rw [internings_ok hc]
    rw [← hconfig] at hc hshare
    unfold Session.raised
    rw [make_ok call.session hc, register_sharing hshare]
    exact (List.append_nil _).symm

/-- So do all calls to it together. -/
theorem raisedBy_eq (before calls : List Call) :
    raisedBy (after config before) calls =
      DigestCache.raisedBy
        (DigestCache.after config.maxCacheEntries.toNat (internings config before))
        (internings config calls) := by
  induction calls generalizing before with
  | nil => rfl
  | cons call calls ih =>
    have hcons : internings config (call :: calls) =
        internings config [call] ++ internings config calls :=
      List.filterMap_append (l := [call])
    rw [raisedBy, raised_make hshare, ← after_concat, ih, cache_after hshare, internings_concat,
      hcons, DigestCache.raisedBy_append]

/-- The request that raises the warning is the one that brings the pairs above the bound. -/
theorem raised_make_eq (calls : List Call) (call : Call) :
    call.session.raised ((after config calls).make call.request) =
      if (DigestCache.pairs (internings config calls)).length ≤ config.maxCacheEntries.toNat ∧
        config.maxCacheEntries.toNat <
          (DigestCache.pairs (internings config (calls ++ [call]))).length
      then [.cacheFull config.maxCacheEntries.toNat] else [] := by
  rw [raised_make hshare, cache_after hshare, internings_concat]
  exact DigestCache.raisedBy_after _ _ (object?_of_mem_internings config [call])

end Sharing

/-- A request adds one pair at most. -/
theorem length_pairs_internings_le (config : Config) (calls : List Call) (call : Call) :
    (DigestCache.pairs (internings config (calls ++ [call]))).length ≤
      (DigestCache.pairs (internings config calls)).length + 1 := by
  rw [internings_concat]
  cases hc : call.request.content config.caseSensitive with
  | error cause =>
    rw [internings_error hc, List.append_nil]
    exact Nat.le_succ _
  | ok content =>
    rw [internings_ok hc]
    exact DigestCache.length_pairs_concat_le _ _

end Builder

namespace DigestCache

/-- The warning that a cache is full is raised by the very call that passes the first pair of a
    digest and a type too many since the cache was cleared: once, if there is such a call, and not
    at all otherwise. A clone of a cache that has warned does not warn before it is cleared itself.
    The cache of a builder that shares nodes is one of these caches, and the builder warns when it
    does. -/
theorem cacheFull_raised_once :
    (∀ (capacity : Nat) (calls : List Call) (call : Call),
      call.raised (after capacity calls) =
        if (pairs calls).length = capacity ∧ (pairs (calls ++ [call])).length = capacity + 1
        then [.cacheFull capacity] else []) ∧
    (∀ (capacity : Nat) (calls : List Call),
      sinceCleared capacity calls =
        if capacity < (pairs calls).length then [.cacheFull capacity] else []) ∧
    (∀ (pasts : List Past) (place : Nat) (past : Past) (later : List Event) (call : Call),
      pasts[place]? = some past → sinceCleared past.capacity past.calls ≠ [] →
      (∀ event ∈ later, event ≠ .ask pasts.length .clear) →
        (Event.ask pasts.length call).raised
          ((Event.clone place :: later).foldl Event.run (pasts.map Past.cache)) = []) ∧
    ∀ (config : Config) (calls : List Builder.Call),
      config.shareCommonSubexpressions = true →
        let interned := Builder.internings config calls
        let bound := config.maxCacheEntries.toNat
        (Builder.after config calls).cache = after bound interned ∧
        Builder.raisedBy (.start config) calls =
          (if bound < (pairs interned).length then [.cacheFull bound] else []) ∧
        ∀ call : Builder.Call,
          call.session.raised ((Builder.after config calls).make call.request) =
            if (pairs interned).length = bound ∧
              (pairs (Builder.internings config (calls ++ [call]))).length = bound + 1
            then [.cacheFull bound] else [] := by
  refine ⟨fun capacity calls call => ?_, sinceCleared_eq, ?_, fun config calls hshare => ?_⟩
  · have hone := length_pairs_concat_le calls call
    rw [raised_after]
    exact if_congr (by omega) rfl rfl
  · intro pasts place past later call hpast hwarned hlater
    exact clone_raises_nothing hpast hwarned hlater call
  · refine ⟨Builder.cache_after hshare calls, ?_, fun call => ?_⟩
    · have hall := raisedBy_after config.maxCacheEntries.toNat []
        (Builder.object?_of_mem_internings config calls)
      exact (Builder.raisedBy_eq hshare [] calls).trans
        (hall.trans (if_congr (and_iff_right (Nat.zero_le _)) rfl rfl))
    · have hone := Builder.length_pairs_internings_le config calls call
      rw [Builder.raised_make_eq hshare]
      exact if_congr (by omega) rfl rfl

/-- A cache for one node: a second node of its pair passes, another pair is one too many, and a
    clone made then stays silent though its original is cleared. A builder warns at its second
    literal, and a refused request does not count. -/
theorem cacheFull_raised_once_single :
    let column : Content Expr := .inputRef 0 (.notNull .integer)
    let one : Content Expr := .literal (.integer 1) (.notNull .integer)
    let dec : Content Expr := .literal (.decimal "1") (.notNull .decimal)
    let calls : List Call := [.internNew dec {}, .clear, .internNew column { next := 1 },
      .intern (.place 0 column) { next := 2 }]
    let warned : List Call := calls ++ [.internNew one { next := 2 }]
    let config : Config := { maxCacheEntries := 1 }
    let asked : List Builder.Call := [⟨{}, .integer 1⟩, ⟨{ next := 1 }, .decimal "1."⟩,
      ⟨{ next := 1 }, .integer 1⟩]
    sinceCleared 1 calls = [] ∧
      (Call.internNew one { next := 2 }).raised (after 1 calls) = [.cacheFull 1] ∧
      sinceCleared 1 warned = [.cacheFull 1] ∧
      (Event.ask 1 (.internNew dec { next := 3 })).raised
        ([Event.clone 0, .ask 0 .clear].foldl Event.run [after 1 warned]) = [] ∧
      Builder.raisedBy (.start config) asked = [] ∧
      Session.raised { next := 2 } ((Builder.after config asked).make (.decimal "1")) =
        [.cacheFull 1] := by
  intro column one dec calls warned config asked
  obtain ⟨hmoment, hstretch, hclone, hbuilder⟩ := cacheFull_raised_once
  obtain ⟨-, hall, hcall⟩ := hbuilder config asked rfl
  have hwarned : sinceCleared 1 warned = [.cacheFull 1] := (hstretch 1 warned).trans rfl
  have hsilent : ∀ event ∈ [Event.ask 0 Call.clear], event ≠ .ask 1 .clear := by
    rw [List.forall_mem_singleton]
    intro h
    cases h
  exact ⟨(hstretch 1 calls).trans rfl, (hmoment 1 calls _).trans rfl, hwarned,
    hclone [⟨1, warned⟩] 0 ⟨1, warned⟩ [.ask 0 .clear] _ rfl (by simp [hwarned]) hsilent,
    hall.trans rfl, (hcall ⟨{ next := 2 }, .decimal "1"⟩).trans rfl⟩

end DigestCache
end RowExpr
