/-
  What runs reach.

  A run is any number of commands to a workbench and of shuttles put through its nodes. A
  shuttle may answer any node it is offered with a `Draft`, a node at hand or new nodes over
  such; everywhere else it works as `Expr.replace` does.

  A workbench is `Sound` when all nodes held in slots, by decorrelators and in caches are
  placed. Each command keeps it so (`perform_keeps`), and each shuttle (`shuttle_sound`), hence
  each run (`sound_of_reached`). `digest_eq_render_of_reached` reads off that no digest is ever
  out of date, at any depth.
-/
import RowExpr.Proofs.Placed
import RowExpr.Proofs.Workbench

namespace RowExpr

/-! ## Drafts -/

/-- What is to stand in place of a node: a node at hand, or a new node over such. -/
inductive Draft where
  | given (e : Expr)
  | made (content : Content Draft)

mutual

/-- Carry out a draft: the new nodes are placed, operands first, left to right. -/
def Draft.build : Draft → SessionM Expr
  | .given e => return e
  | .made (.call operator operands type) => do
    let operands ← Draft.buildAll operands
    Session.place (.call operator operands type)
  | .made (.access reference field) => do
    let reference ← reference.build
    Session.place (.access reference field)
  | .made (.literal value type) => Session.place (.literal value type)
  | .made (.inputRef index type) => Session.place (.inputRef index type)
  | .made (.correlation id type) => Session.place (.correlation id type)
termination_by structural draft => draft

def Draft.buildAll : List Draft → SessionM (List Expr)
  | [] => return []
  | draft :: drafts => do
    let e ← draft.build
    let rest ← Draft.buildAll drafts
    return e :: rest
termination_by structural drafts => drafts

end

mutual

/-- The nodes at hand that a draft uses. -/
def Draft.givens : Draft → List Expr
  | .given e => [e]
  | .made (.call _ operands _) => Draft.givensAll operands
  | .made (.access reference _) => reference.givens
  | .made _ => []
termination_by structural draft => draft

def Draft.givensAll : List Draft → List Expr
  | [] => []
  | draft :: drafts => draft.givens ++ Draft.givensAll drafts
termination_by structural drafts => drafts

end

mutual

/-- What is built from placed nodes is placed. -/
theorem Draft.build_yields {n : NodeId} :
    (draft : Draft) → (∀ g ∈ draft.givens, g.Placed n) →
      Yields n draft.build fun m e => e.Placed m
  | .given e, h => Yields.pure fun m hnm => (h e List.mem_cons_self).mono hnm
  | .made (.call operator operands type), h => by
    rw [Draft.build]
    exact (Draft.buildAll_yields operands h).bind fun _ _ _ hes => Session.place_yields hes
  | .made (.access reference field), h => by
    rw [Draft.build]
    refine (Draft.build_yields reference h).bind fun e m _ he => Session.place_yields ?_
    intro c hc
    rw [List.mem_singleton.mp hc]
    exact he
  | .made (.literal _ _), _ => Session.place_yields fun _ hc => nomatch hc
  | .made (.inputRef _ _), _ => Session.place_yields fun _ hc => nomatch hc
  | .made (.correlation _ _), _ => Session.place_yields fun _ hc => nomatch hc
termination_by structural draft => draft

theorem Draft.buildAll_yields {n : NodeId} :
    (drafts : List Draft) → (∀ g ∈ Draft.givensAll drafts, g.Placed n) →
      Yields n (Draft.buildAll drafts) fun m es => ∀ e ∈ es, e.Placed m
  | [], _ => Yields.pure fun _ _ => List.forall_mem_nil _
  | draft :: drafts, h => by
    rw [Draft.buildAll]
    refine (Draft.build_yields draft fun g hg => h g (List.mem_append_left _ hg)).bind
      fun e m hnm he => ?_
    have hrest := Draft.buildAll_yields drafts fun g hg => h g (List.mem_append_right _ hg)
    refine (hrest.later hnm).bind fun es k hmk hes => Yields.pure fun k' hk x hx => ?_
    rcases List.mem_cons.mp hx with rfl | hx
    · exact he.mono (Nat.le_trans hmk hk)
    · exact (hes x hx).mono hk
termination_by structural drafts => drafts

end

/-- Answer the nodes that there is a draft for with what it builds. -/
def Draft.handler (draftFor : Expr → Option Draft) (e : Expr) : SessionM (Option Expr) :=
  match draftFor e with
  | some draft => do return some (← draft.build)
  | none => return none

theorem Draft.handler_keepsPlaced {n : NodeId} {draftFor : Expr → Option Draft}
    (h : ∀ e draft, draftFor e = some draft → ∀ g ∈ draft.givens, g ∈ e.walk ∨ g.Placed n) :
    KeepsPlaced n (Draft.handler draftFor) := by
  intro e m hnm he
  unfold Draft.handler
  split
  · rename_i draft hdraft
    have hgivens : ∀ g ∈ draft.givens, g.Placed m := by
      intro g hg
      rcases h e draft hdraft g hg with hwalk | hplaced
      · exact he.of_mem_walk hwalk
      · exact hplaced.mono hnm
    refine (draft.build_yields hgivens).bind fun new k _ hnew => ?_
    refine Yields.pure fun k' hk x hx => ?_
    cases hx
    exact hnew.mono hk
  · exact Yields.pure fun _ _ _ hx => nomatch hx

/-! ## Sound workbenches -/

/-- The nodes that a slot holds on to. -/
def Slot.exprs : Slot → List Expr
  | .node e => [e]
  | .decorrelator d => [d.replacement]
  | .cache kept => kept.nodes
  | .empty | .type _ => []

theorem Slot.placed_node {n : NodeId} {e : Expr} (h : e.Placed n) :
    ∀ x ∈ (Slot.node e).exprs, x.Placed n := by
  intro x hx
  rw [List.mem_singleton.mp hx]
  exact h

theorem Slot.placed_decorrelator {n : NodeId} {d : Decorrelator} (h : d.replacement.Placed n) :
    ∀ x ∈ (Slot.decorrelator d).exprs, x.Placed n := by
  intro x hx
  rw [List.mem_singleton.mp hx]
  exact h

theorem Slot.placed_cache {n : NodeId} {cache : DigestCache} (h : cache.Placed n) :
    ∀ x ∈ (Slot.cache cache).exprs, x.Placed n := h

theorem Slot.placed_empty (n : NodeId) : ∀ x ∈ Slot.empty.exprs, x.Placed n :=
  fun _ hx => nomatch hx

namespace Workbench

/-- The nodes held in slots, by decorrelators, and in caches, the builder's among them. -/
def held (bench : Workbench) : List Expr :=
  bench.slots.flatMap Slot.exprs ++ bench.builder.cache.nodes

/-- All nodes held are placed. -/
def Sound (bench : Workbench) : Prop := ∀ e ∈ bench.held, e.Placed bench.session.next

instance : Numbered Workbench := ⟨fun bench => bench.session.next, Sound⟩

/-- The nodes in the slots and in the builder's cache, one part at a time. -/
theorem sound_iff {bench : Workbench} :
    bench.Sound ↔ (∀ held ∈ bench.slots, ∀ e ∈ held.exprs, e.Placed bench.session.next) ∧
      bench.builder.cache.Placed bench.session.next := by
  simp only [Sound, held, List.mem_append, List.mem_flatMap]
  constructor
  · intro h
    exact ⟨fun slot hslot e he => h e (Or.inl ⟨slot, hslot, he⟩), fun e he => h e (Or.inr he)⟩
  · rintro ⟨hslots, hcache⟩ e (⟨slot, hslot, he⟩ | he)
    · exact hslots slot hslot e he
    · exact hcache e he

theorem Sound.slot {bench : Workbench} (h : bench.Sound) {slot : SlotId} {content : Slot}
    (hslot : bench.slots[slot]? = some content) :
    ∀ e ∈ content.exprs, e.Placed bench.session.next :=
  (sound_iff.mp h).1 content (List.mem_of_getElem? hslot)

theorem Sound.node {bench : Workbench} (h : bench.Sound) {slot : SlotId} {e : Expr}
    (he : bench.node? slot = some e) : e.Placed bench.session.next := by
  unfold node? at he
  split at he
  · rename_i hslot
    cases he
    exact h.slot hslot e List.mem_cons_self
  · cases he

theorem Sound.decorrelator {bench : Workbench} (h : bench.Sound) {slot : SlotId}
    {d : Decorrelator} (hd : bench.decorrelator? slot = some d) :
    d.replacement.Placed bench.session.next := by
  unfold decorrelator? at hd
  split at hd
  · rename_i hslot
    cases hd
    exact h.slot hslot _ List.mem_cons_self
  · cases hd

theorem Sound.cache {bench : Workbench} (h : bench.Sound) {slot : SlotId} {cache : DigestCache}
    (hc : bench.cache? slot = some cache) : cache.Placed bench.session.next := by
  unfold cache? at hc
  split at hc
  · rename_i hslot
    cases hc
    exact h.slot hslot
  · cases hc

theorem Sound.cacheOrBuilders {bench : Workbench} (h : bench.Sound) {slot : Option SlotId}
    {cache : DigestCache} (hc : bench.cacheOrBuilders? slot = some cache) :
    cache.Placed bench.session.next := by
  cases slot with
  | some slot => exact h.cache hc
  | none =>
    cases hc
    exact (sound_iff.mp h).2

/-- One more slot over placed nodes, and a later session, keep a workbench sound. -/
theorem Sound.concat {bench : Workbench} (h : bench.Sound) {content : Slot} {session : Session}
    (hnext : bench.session.next ≤ session.next)
    (hcontent : ∀ e ∈ content.exprs, e.Placed session.next) :
    Sound { bench with session, slots := bench.slots ++ [content] } := by
  obtain ⟨hslots, hcache⟩ := sound_iff.mp h
  refine sound_iff.mpr ⟨fun slot hslot e he => ?_, hcache.mono hnext⟩
  rcases List.mem_append.mp hslot with hslot | hslot
  · exact (hslots slot hslot e he).mono hnext
  · rw [List.mem_singleton.mp hslot] at he
    exact hcontent e he

theorem sound_start (config : Config) : (start (.start config)).Sound := fun _ he => nomatch he

/-! ## Parts of commands -/

/-- `Yields` for a part of a command, which may also be refused. -/
def Keeps {α : Type} (n : NodeId) (x : BenchM α) (Q : NodeId → α → Prop) : Prop :=
  Yields n x.run fun m r => ∀ a, r = .ok a → Q m a

variable {α β : Type} {n : NodeId}

theorem Keeps.pure {a : α} {Q : NodeId → α → Prop} (h : ∀ m, n ≤ m → Q m a) :
    Keeps n (Pure.pure a : BenchM α) Q :=
  fun bench hgood hn => ⟨hgood, Nat.le_refl bench.session.next, fun _ hb => by
    cases hb
    exact h _ hn⟩

theorem Keeps.bind {x : BenchM α} {f : α → BenchM β} {Q : NodeId → α → Prop}
    {R : NodeId → β → Prop} (hx : Keeps n x Q)
    (hf : ∀ a m, n ≤ m → Q m a → Keeps m (f a) R) : Keeps n (x >>= f) R := by
  intro bench hgood hn
  obtain ⟨hgood', hnext, hQ⟩ := hx bench hgood hn
  have hrun : ((x >>= f).run : StateM Workbench _).run bench = _ := bench_bind_run x f bench
  rw [hrun]
  cases hres : x.run bench with
  | mk result after =>
    have hres' : (x.run : StateM Workbench _).run bench = (result, after) := hres
    rw [hres'] at hgood' hnext hQ
    cases result with
    | error refusal => exact ⟨hgood', hnext, fun _ hb => nomatch hb⟩
    | ok a =>
      obtain ⟨hgood'', hnext', hR⟩ :=
        hf a _ (Nat.le_trans hn hnext) (hQ a rfl) after hgood' (Nat.le_refl _)
      exact ⟨hgood'', Nat.le_trans hnext hnext', hR⟩

/-- A part that only looks for something keeps what is known of all that can be found. -/
theorem keeps_of_foundOr {x : BenchM α} {find : Workbench → Option α} {Q : NodeId → α → Prop}
    (hrun : ∀ bench, (x.run : StateM Workbench _).run bench = foundOr (find bench) bench)
    (h : ∀ bench : Workbench, bench.Sound → n ≤ bench.session.next →
      ∀ a, find bench = some a → Q bench.session.next a) : Keeps n x Q := by
  intro bench hgood hn
  rw [hrun]
  cases hfind : find bench with
  | none => exact ⟨hgood, Nat.le_refl bench.session.next, fun _ hb => nomatch hb⟩
  | some a =>
    refine ⟨hgood, Nat.le_refl bench.session.next, fun b hb => ?_⟩
    cases hb
    exact h bench hgood hn a hfind

theorem need_keeps {find : Workbench → Option α} {Q : NodeId → α → Prop}
    (h : ∀ bench : Workbench, bench.Sound → n ≤ bench.session.next →
      ∀ a, find bench = some a → Q bench.session.next a) : Keeps n (need find) Q :=
  keeps_of_foundOr (need_run find) h

theorem node_keeps (slot : SlotId) : Keeps n (node slot) fun m e => e.Placed m :=
  need_keeps fun _ hgood _ _ he => hgood.node he

theorem decorrelator_keeps (slot : SlotId) :
    Keeps n (decorrelator slot) fun m d => d.replacement.Placed m :=
  need_keeps fun _ hgood _ _ hd => hgood.decorrelator hd

theorem cache_keeps (slot : SlotId) : Keeps n (cache slot) fun m cache => cache.Placed m :=
  need_keeps fun _ hgood _ _ hc => hgood.cache hc

theorem cacheOrBuilders_keeps (slot : Option SlotId) :
    Keeps n (cacheOrBuilders slot) fun m cache => cache.Placed m :=
  need_keeps fun _ hgood _ _ hc => hgood.cacheOrBuilders hc

theorem get_keeps :
    Keeps n (get : BenchM Workbench) fun m bench => bench.builder.cache.Placed m := by
  intro bench hgood _
  refine ⟨hgood, Nat.le_refl bench.session.next, fun b hb => ?_⟩
  cases hb
  exact (sound_iff.mp hgood).2

theorem inSession_keeps {x : SessionM α} {Q : NodeId → α → Prop} (h : Yields n x Q) :
    Keeps n (inSession x) Q := by
  intro bench hgood hn
  obtain ⟨-, hnext, hQ⟩ := h bench.session trivial hn
  refine ⟨fun e he => (hgood e he).mono hnext, hnext, fun b hb => ?_⟩
  cases hb
  exact hQ

theorem check_keeps (result : Except Error α) :
    Keeps n (check result) fun _ a => result = .ok a := by
  cases result with
  | ok a => exact Keeps.pure fun _ _ => rfl
  | error cause =>
    exact fun bench hgood _ =>
      ⟨hgood, Nat.le_refl bench.session.next, fun _ hb => nomatch hb⟩

theorem setSlot_keeps {slot : SlotId} {content : Slot} (h : ∀ e ∈ content.exprs, e.Placed n) :
    Keeps n (setSlot slot content) fun _ _ => True := by
  intro bench hgood hn
  obtain ⟨hslots, hcache⟩ := sound_iff.mp hgood
  refine ⟨sound_iff.mpr ⟨fun held hheld e he => ?_, hcache⟩, Nat.le_refl _, fun _ _ => trivial⟩
  rcases List.mem_or_eq_of_mem_set hheld with hheld | rfl
  · exact hslots held hheld e he
  · exact (h e he).mono hn

theorem setBuilder_keeps {builder : Builder} (h : builder.cache.Placed n) :
    Keeps n (modify fun bench => { bench with builder } : BenchM Unit) fun _ _ => True := by
  intro bench hgood hn
  obtain ⟨hslots, -⟩ := sound_iff.mp hgood
  exact ⟨sound_iff.mpr ⟨hslots, h.mono hn⟩, Nat.le_refl _, fun _ _ => trivial⟩

theorem mapM_keeps {γ : Type} {f : γ → BenchM α} {Q : NodeId → α → Prop}
    (hmono : ∀ m k a, m ≤ k → Q m a → Q k a) (h : ∀ c m, n ≤ m → Keeps m (f c) Q)
    (cs : List γ) : Keeps n (cs.mapM f) fun m as => ∀ a ∈ as, Q m a := by
  induction cs generalizing n with
  | nil => exact Keeps.pure fun _ _ => List.forall_mem_nil _
  | cons c cs ih =>
    rw [List.mapM_cons]
    refine (h c n (Nat.le_refl n)).bind fun a m hnm ha => ?_
    have hrest := ih fun c' k hk => h c' k (Nat.le_trans hnm hk)
    refine hrest.bind fun as k hmk has => Keeps.pure fun k' hk x hx => ?_
    rcases List.mem_cons.mp hx with rfl | hx
    · exact hmono m k' x (Nat.le_trans hmk hk) ha
    · exact hmono k k' x hk (has x hx)

theorem nodes_keeps (slots : List SlotId) :
    Keeps n (slots.mapM node) fun m es => ∀ e ∈ es, e.Placed m :=
  mapM_keeps (fun _ _ _ hmk h => h.mono hmk) (fun slot _ _ => node_keeps slot) slots

theorem content_mapM_keeps (content : Content SlotId) :
    Keeps n (content.mapM node) fun m resolved => ∀ c ∈ resolved.children, c.Placed m := by
  cases content with
  | call operator operands type =>
    refine (nodes_keeps operands).bind fun es m _ hes => Keeps.pure fun k hk c hc => ?_
    exact (hes c hc).mono hk
  | access reference field =>
    refine (node_keeps reference).bind fun e m _ he => Keeps.pure fun k hk c hc => ?_
    rw [List.mem_singleton.mp hc]
    exact he.mono hk
  | literal value type => exact Keeps.pure fun _ _ _ hc => nomatch hc
  | inputRef index type => exact Keeps.pure fun _ _ _ hc => nomatch hc
  | correlation id type => exact Keeps.pure fun _ _ _ hc => nomatch hc

theorem request_mapM_keeps (request : Request SlotId) :
    Keeps n (request.mapM node) fun m resolved => ∀ c ∈ resolved.nodes, c.Placed m := by
  refine keeps_of_foundOr (request_mapM_node_run request)
    fun bench hgood _ resolved hfind c hc => ?_
  obtain ⟨slot, hslot⟩ := Request.exists_of_mem_nodes hfind hc
  exact hgood.node hslot

/-! ## Commands -/

/-- The slot that a command fills holds placed nodes only. -/
def Fills (m : NodeId) (r : Slot × Reply) : Prop := ∀ e ∈ r.1.exprs, e.Placed m

theorem fills_none (m : NodeId) (reply : Reply) : Fills m (.empty, reply) := Slot.placed_empty m

theorem produce_keeps {e : Expr} (h : e.Placed n) : Keeps n (produce e) Fills :=
  Keeps.pure fun _ hnm => Slot.placed_node (h.mono hnm)

theorem place_keeps {content : Content Expr} (h : ∀ c ∈ content.children, c.Placed n) :
    Keeps n (do produce (← inSession (Session.place content))) Fills :=
  (inSession_keeps (Session.place_yields h)).bind fun _ _ _ he => produce_keeps he

theorem placeIfGiven_keeps {content : Option (Content Expr)}
    (h : ∀ given, content = some given → ∀ c ∈ given.children, c.Placed n) :
    Keeps n (placeIfGiven content) Fills := by
  cases content with
  | none => exact Keeps.pure fun m _ => fills_none m _
  | some given => exact place_keeps (h given rfl)

theorem internInto_keeps {slot : SlotId} {cache : DigestCache} {e : Expr}
    (hcache : cache.Placed n) (he : e.Placed n) : Keeps n (internInto slot cache e) Fills := by
  refine (inSession_keeps (DigestCache.intern_yields hcache he)).bind fun r m _ hr => ?_
  refine (setSlot_keeps (Slot.placed_cache hr.2)).bind fun _ k hmk _ => ?_
  exact produce_keeps (hr.1.mono hmk)

theorem children_of_withOperands? {e : Expr} {operands : List Expr} {content : Content Expr}
    (h : e.withOperands? operands = some content) : content.children = operands := by
  unfold Expr.withOperands? at h
  split at h <;> cases h
  rfl

theorem children_of_withReference? {e reference : Expr} {content : Content Expr}
    (h : e.withReference? reference = some content) : content.children = [reference] := by
  unfold Expr.withReference? at h
  split at h <;> cases h
  rfl

theorem placed_of_replaceReference {e reference : Expr} {content : Content Expr}
    (h : e.replaceReference reference = .ok content) (he : e.Placed n)
    (hreference : reference.Placed n) : ∀ c ∈ content.children, c.Placed n := by
  unfold Expr.replaceReference at h
  split at h
  · cases h
    cases hwith : e.withReference? reference with
    | none => exact fun c hc => he.child hc
    | some content =>
      intro c hc
      rw [Option.getD_some, children_of_withReference? hwith] at hc
      rw [List.mem_singleton.mp hc]
      exact hreference
  · cases h

theorem placed_of_accessOf {reference : Option Expr} {field : Option Field}
    {content : Content Expr} (h : Content.accessOf reference field = .ok content)
    (hreference : ∀ e, reference = some e → e.Placed n) : ∀ c ∈ content.children, c.Placed n := by
  unfold Content.accessOf at h
  split at h
  · cases h
  · cases h
  · cases h
    intro c hc
    rw [List.mem_singleton.mp hc]
    exact hreference _ rfl

/-- Whatever the command, what it puts into slots, decorrelators and caches is placed. -/
theorem perform_keeps (command : Command) : Keeps n (perform command) Fills := by
  cases command with
  | keepType type => exact Keeps.pure fun _ _ _ he => nomatch he
  | make request =>
    refine (request_mapM_keeps request).bind fun resolved m _ hnodes => ?_
    refine get_keeps.bind fun bench k hmk hcache => ?_
    have hnodes' : ∀ c ∈ resolved.nodes, c.Placed k := fun c hc => (hnodes c hc).mono hmk
    refine (inSession_keeps (Builder.make_yields hcache hnodes')).bind fun r l _ hr => ?_
    refine (setBuilder_keeps hr.2).bind fun _ l' hl _ => ?_
    refine (check_keeps r.1).bind fun e l'' hl' he => ?_
    exact produce_keeps ((hr.1 e he).mono (Nat.le_trans hl hl'))
  | place content =>
    exact (content_mapM_keeps content).bind fun _ _ _ hc => place_keeps hc
  | placeAccess reference field =>
    have hmap : Keeps n (reference.mapM node) fun m found => ∀ e, found = some e → e.Placed m := by
      cases reference with
      | none => exact Keeps.pure fun _ _ _ he => nomatch he
      | some slot =>
        refine (node_keeps slot).bind fun e m _ he => Keeps.pure fun k hk x hx => ?_
        cases hx
        exact he.mono hk
    refine hmap.bind fun found m _ hfound => (check_keeps _).bind fun content k hmk hc => ?_
    exact place_keeps (placed_of_accessOf hc fun e he => (hfound e he).mono hmk)
  | share slot => exact (node_keeps slot).bind fun _ _ _ he => produce_keeps he
  | copy slot =>
    refine (node_keeps slot).bind fun e m _ he => ?_
    exact (inSession_keeps (Session.copy_yields he)).bind fun _ _ _ hcopy => produce_keeps hcopy
  | drop slot =>
    refine (node_keeps slot).bind fun _ m _ _ => ?_
    refine (setSlot_keeps (Slot.placed_empty m)).bind fun _ k _ _ => ?_
    exact Keeps.pure fun k' _ => fills_none k' _
  | operand slot position =>
    refine (node_keeps slot).bind fun e m _ he => ?_
    have hneed : Keeps m (need fun _ => e.children[position]?) fun k c => c.Placed k :=
      need_keeps fun _ _ hm c hc => (he.child (List.mem_of_getElem? hc)).mono hm
    exact hneed.bind fun _ _ _ hc => produce_keeps hc
  | withOperands slot operands =>
    refine (node_keeps slot).bind fun e m _ _ => (nodes_keeps operands).bind fun es k _ hes => ?_
    refine placeIfGiven_keeps fun content hc c hmem => hes c ?_
    rwa [← children_of_withOperands? hc]
  | withReference slot reference =>
    refine (node_keeps slot).bind fun e m _ _ => (node_keeps reference).bind fun r k _ hr => ?_
    refine placeIfGiven_keeps fun content hc c hmem => ?_
    rw [children_of_withReference? hc] at hmem
    rw [List.mem_singleton.mp hmem]
    exact hr
  | replaceReference slot reference =>
    refine (node_keeps slot).bind fun e m _ he => (node_keeps reference).bind fun r k hmk hr => ?_
    refine (check_keeps _).bind fun content l hkl hc => ?_
    have hplaced := placed_of_replaceReference hc (he.mono (Nat.le_trans hmk hkl)) (hr.mono hkl)
    refine (inSession_keeps (Session.place_yields hplaced)).bind fun new l' _ hnew => ?_
    refine (setSlot_keeps (Slot.placed_node hnew)).bind fun _ _ _ _ => ?_
    exact Keeps.pure fun k' _ => fills_none k' _
  | replaceLeaves slot rules =>
    refine (node_keeps slot).bind fun e m _ he => ?_
    have hrules : Keeps m (rules.mapM fun rule => do return (rule.1, ← node rule.2))
        fun k found => ∀ rule ∈ found, Expr.Placed k rule.2 := by
      refine mapM_keeps (fun _ _ _ hmk h => h.mono hmk) (fun rule k _ => ?_) rules
      exact (node_keeps rule.2).bind fun new l _ hnew => Keeps.pure fun l' hl => hnew.mono hl
    refine hrules.bind fun found k hmk hfound => ?_
    have hlookup : ∀ leaf new, found.lookup (Expr.digest leaf) = some new → new.Placed k := by
      intro leaf new hnew
      obtain ⟨before, behind, hmem, -⟩ := List.lookup_eq_some_iff.mp hnew
      refine hfound (leaf.digest, new) ?_
      rw [hmem]
      exact List.mem_append_right before List.mem_cons_self
    refine (inSession_keeps (Expr.replaceLeaves_yields hlookup (he.mono hmk))).bind
      fun r l _ hr => Keeps.pure fun l' hl => Slot.placed_node (hr.mono hl)
  | makeDecorrelator target replacement =>
    refine (node_keeps replacement).bind fun e m _ he => (check_keeps _).bind fun d k hmk hd => ?_
    have hreplacement : d.replacement = e := by
      unfold Decorrelator.ofReplacement at hd
      split at hd <;> cases hd
      rfl
    refine Keeps.pure fun l hkl => Slot.placed_decorrelator ?_
    rw [hreplacement]
    exact he.mono (Nat.le_trans hmk hkl)
  | apply slot target =>
    refine (decorrelator_keeps slot).bind fun d m _ hd => ?_
    refine (node_keeps target).bind fun e k hmk he => ?_
    refine (inSession_keeps (Decorrelator.apply_yields (hd.mono hmk) he)).bind fun r l hkl hr => ?_
    have hreplacement : r.2.replacement.Placed l := by
      rw [hr.2]
      exact hd.mono (Nat.le_trans hmk hkl)
    refine (setSlot_keeps (Slot.placed_decorrelator hreplacement)).bind fun _ _ hl _ => ?_
    exact produce_keeps (hr.1.mono hl)
  | decorrelate slot target =>
    refine (decorrelator_keeps slot).bind fun d m _ hd => ?_
    refine (node_keeps target).bind fun e k hmk he => ?_
    refine (inSession_keeps (Decorrelator.decorrelate_yields (hd.mono hmk) he)).bind
      fun r l hkl hr => ?_
    have hreplacement : r.2.replacement.Placed l := by
      rw [hr.2]
      exact hd.mono (Nat.le_trans hmk hkl)
    refine (setSlot_keeps (Slot.placed_decorrelator hreplacement)).bind fun _ l' hl _ => ?_
    refine (check_keeps _).bind fun new l'' hl' hnew => ?_
    exact produce_keeps ((hr.1 new hnew).mono (Nat.le_trans hl hl'))
  | makeCache capacity => exact Keeps.pure fun _ _ => DigestCache.placed_ofCapacity capacity
  | copyCache slot =>
    exact (cacheOrBuilders_keeps slot).bind fun _ _ _ hc => Keeps.pure fun _ hk => hc.mono hk
  | clearCache slot =>
    refine (cache_keeps slot).bind fun cache m _ _ => ?_
    have hempty : cache.clear.Placed m := DigestCache.placed_ofCapacity cache.capacity
    refine (setSlot_keeps (Slot.placed_cache hempty)).bind fun _ _ _ _ => ?_
    exact Keeps.pure fun k' _ => fills_none k' _
  | lookUp slot digest type =>
    refine (cacheOrBuilders_keeps slot).bind fun cache m _ hcache => ?_
    split
    · rename_i e he
      exact produce_keeps (hcache e (DigestCache.mem_nodes_of_get? he))
    · exact Keeps.pure fun k' _ => fills_none k' _
  | internCopy slot target =>
    refine (cache_keeps slot).bind fun cache m _ hc => (node_keeps target).bind fun e k hmk he => ?_
    refine (inSession_keeps (Session.copy_yields he)).bind fun copy l hkl hcopy => ?_
    exact internInto_keeps (hc.mono (Nat.le_trans hmk hkl)) hcopy
  | intern slot target =>
    refine (cache_keeps slot).bind fun cache m _ hc => (node_keeps target).bind fun e k hmk he => ?_
    exact internInto_keeps (hc.mono hmk) he

/-! ## Runs -/

theorem exec_sound {bench : Workbench} (h : bench.Sound) (command : Command) :
    (exec command bench).2.Sound := by
  obtain ⟨hafter, -, hfills⟩ := perform_keeps command bench h (Nat.le_refl _)
  unfold exec
  cases hres : (perform command).run bench with
  | mk result after =>
    have hres' : ((perform command).run : StateM Workbench _).run bench = (result, after) := hres
    rw [hres'] at hafter hfills
    have hsound : after.Sound := hafter
    cases result with
    | error refusal => exact hsound.concat (Nat.le_refl _) (Slot.placed_empty _)
    | ok filled => exact hsound.concat (Nat.le_refl _) (hfills filled rfl)

/-- Put a shuttle through the node of a slot; the next slot gets what comes out. -/
def shuttle (draftFor : Expr → Option Draft) (slot : SlotId) (bench : Workbench) : Workbench :=
  match bench.node? slot with
  | none => skip bench
  | some e =>
    let ((new, _), session) := (e.replaceCounting (Draft.handler draftFor)).run bench.session
    { bench with session, slots := bench.slots ++ [.node new] }

/-- The drafts use parts of the node offered and of the nodes held only. -/
def DraftsFrom (bench : Workbench) (draftFor : Expr → Option Draft) : Prop :=
  ∀ e draft, draftFor e = some draft →
    ∀ g ∈ draft.givens, g ∈ e.walk ∨ g ∈ Expr.walkAll bench.held

theorem shuttle_sound {bench : Workbench} (h : bench.Sound) {draftFor : Expr → Option Draft}
    (hdrafts : DraftsFrom bench draftFor) (slot : SlotId) :
    (shuttle draftFor slot bench).Sound := by
  have hkeeps : KeepsPlaced bench.session.next (Draft.handler draftFor) := by
    refine Draft.handler_keepsPlaced fun e draft hdraft g hg => ?_
    refine (hdrafts e draft hdraft g hg).imp_right fun hheld => ?_
    obtain ⟨x, hx, hgx⟩ := Expr.mem_walkAll.mp hheld
    exact (h x hx).of_mem_walk hgx
  unfold shuttle
  split
  · exact h.concat (Nat.le_refl _) (Slot.placed_empty _)
  · rename_i e he
    obtain ⟨-, hnext, hnew⟩ :=
      Expr.replaceCounting_yields hkeeps (h.node he) bench.session trivial (Nat.le_refl _)
    exact h.concat hnext (Slot.placed_node hnew)

/-- The workbenches that runs lead to, from a new builder with the given settings. -/
inductive Reached (config : Config) : Workbench → Prop
  | start : Reached config (start (.start config))
  | command {bench : Workbench} (h : Reached config bench) (command : Command) :
    Reached config (exec command bench).2
  | shuttle {bench : Workbench} (h : Reached config bench) {draftFor : Expr → Option Draft}
    (hdrafts : DraftsFrom bench draftFor) (slot : SlotId) :
    Reached config (shuttle draftFor slot bench)

/-- Scripts are runs. -/
theorem Reached.run {config : Config} {bench : Workbench} (h : Reached config bench)
    (script : List Command) : Reached config (run script bench).2 := by
  induction script generalizing bench with
  | nil => exact h
  | cons command script ih => exact ih (h.command command)

theorem sound_of_reached {config : Config} {bench : Workbench} (h : Reached config bench) :
    bench.Sound := by
  induction h with
  | start => exact sound_start config
  | command h command ih => exact exec_sound ih command
  | shuttle h hdrafts slot ih => exact shuttle_sound ih hdrafts slot

/-- Behind every run, every node at any depth of what is held in slots, by decorrelators and in
    caches carries the digest that rendering it from scratch gives, and a field access has the
    type of its field. -/
theorem digest_eq_render_of_reached {config : Config} {bench : Workbench}
    (h : Reached config bench) {e x : Expr} (he : e ∈ bench.held) (hx : x ∈ e.walk) :
    x.digest = x.render ∧
      ∀ reference field, x.content = .access reference field → x.type = field.type := by
  refine ⟨(sound_of_reached h e he).rendered x hx, fun reference field hcontent => ?_⟩
  unfold Expr.type
  rw [hcontent]
  rfl

/-- A field access is put over another variable while a null test holds the old one, and a
    shuttle then renames the variable under the test: all three texts are right. -/
theorem digest_eq_render_of_reached_dept :
    let dept := DataType.ofColumns [("deptno", .notNull .integer)]
    let script : List Command := [.make (.correlation ⟨0⟩ dept), .make (.field 0 "deptno"),
      .make (.call .isNull [1]), .make (.correlation ⟨1⟩ dept), .replaceReference 1 3]
    let rename (e : Expr) := if e.digest = "$cor0" then
      some (Draft.made (.correlation ⟨7⟩ dept)) else none
    let bench := shuttle rename 2 (run script (start (.start {}))).2
    [bench.node? 1, bench.node? 2, bench.node? 5].map (Option.map Expr.digest) =
        [some "$cor1.deptno", some "IS NULL($cor0.deptno)", some "IS NULL($cor7.deptno)"] ∧
      ∀ e ∈ bench.held, ∀ x ∈ e.walk, x.digest = x.render ∧
        ∀ reference field, x.content = .access reference field → x.type = field.type := by
  intro dept script rename bench
  have hdrafts : DraftsFrom (run script (start (.start {}))).2 rename := by
    intro e draft hdraft g hg
    simp only [rename] at hdraft
    split at hdraft <;> cases hdraft
    cases hg
  have hreached : Reached {} bench := (Reached.start.run script).shuttle hdrafts 2
  exact ⟨by decide, fun e he x hx => digest_eq_render_of_reached hreached he hx⟩

end Workbench
end RowExpr
