/-
  Requests on a workbench.

  `exec_make` is the run equation of a request over slots. From it there are three outcomes: a
  slot is empty (`exec_make_none`), the builder refuses (`exec_make_error`), or the slot is
  filled with what the builder hands out (`exec_make_ok`). `nodes` lists what is in the slots,
  `obtained` what answers brought.
-/
import RowExpr.Proofs.Builder
import RowExpr.Workbench.Basic

namespace RowExpr.Workbench

/-! ## Carrying out a request -/

theorem bench_bind_run {α β : Type} (x : BenchM α) (f : α → BenchM β) (bench : Workbench) :
    (x >>= f).run bench =
      match x.run bench with
      | (.ok a, after) => (f a).run after
      | (.error refusal, after) => (.error refusal, after) := by
  show (match x.run bench with
    | (result, after) => (ExceptT.bindCont f result) after) = _
  rcases x.run bench with ⟨_ | _, _⟩ <;> rfl

theorem get_run (bench : Workbench) : (get : BenchM Workbench).run bench = (.ok bench, bench) :=
  rfl

theorem modify_run (f : Workbench → Workbench) (bench : Workbench) :
    (modify f : BenchM Unit).run bench = (.ok (), f bench) := rfl

theorem inSession_run {α : Type} (x : SessionM α) (bench : Workbench) :
    (inSession x).run bench =
      (.ok (x.run bench.session).1, { bench with session := (x.run bench.session).2 }) := rfl

/-- An answer that leaves the workbench as it is: what was found, or a refusal. -/
def foundOr {α : Type} (found : Option α) (bench : Workbench) : Except Refusal α × Workbench :=
  match found with
  | some a => (.ok a, bench)
  | none => (.error .noSuchSlot, bench)

theorem need_run {α : Type} (find : Workbench → Option α) (bench : Workbench) :
    (need find).run bench = foundOr (find bench) bench := by
  unfold need
  rw [bench_bind_run, get_run]
  cases h : find bench <;> simp only [h] <;> rfl

theorem node_run (slot : SlotId) (bench : Workbench) :
    (node slot).run bench = foundOr (bench.node? slot) bench :=
  need_run (fun bench => bench.node? slot) bench

theorem mapM_node_run (slots : List SlotId) (bench : Workbench) :
    (slots.mapM node).run bench = foundOr (slots.mapM bench.node?) bench := by
  induction slots with
  | nil => rfl
  | cons slot slots ih =>
    rw [List.mapM_cons, List.mapM_cons, bench_bind_run, node_run]
    cases bench.node? slot with
    | none => rfl
    | some e =>
      simp only [foundOr]
      rw [bench_bind_run, ih]
      cases slots.mapM bench.node? <;> rfl

theorem request_mapM_node_run (request : Request SlotId) (bench : Workbench) :
    (request.mapM node).run bench = foundOr (request.mapM bench.node?) bench := by
  cases request with
  | call operator operands =>
    simp only [Request.mapM]
    rw [bench_bind_run, mapM_node_run]
    cases operands.mapM bench.node? <;> rfl
  | typedCall operator operands type =>
    simp only [Request.mapM]
    rw [bench_bind_run, mapM_node_run]
    cases operands.mapM bench.node? <;> rfl
  | field reference name =>
    simp only [Request.mapM]
    rw [bench_bind_run, node_run]
    cases bench.node? reference <;> rfl
  | fieldAt reference index =>
    simp only [Request.mapM]
    rw [bench_bind_run, node_run]
    cases bench.node? reference <;> rfl
  | _ => rfl

/-- A request over slots is refused if a slot is empty; otherwise the builder is asked. -/
theorem exec_make (request : Request SlotId) (bench : Workbench) :
    exec (.make request) bench =
      match request.mapM bench.node? with
      | none => (.error .noSuchSlot, skip bench)
      | some resolved =>
        match (bench.builder.make resolved).run bench.session with
        | ((.ok e, builder), session) =>
          (.ok (.node e), { builder, session, slots := bench.slots ++ [.node e] })
        | ((.error cause, builder), session) =>
          (.error (.error cause), { builder, session, slots := bench.slots ++ [.empty] }) := by
  have hrun : (perform (.make request)).run bench =
      match request.mapM bench.node? with
      | none => (.error .noSuchSlot, bench)
      | some resolved =>
        match (bench.builder.make resolved).run bench.session with
        | ((.ok e, builder), session) =>
          (.ok (.node e, .node e), { bench with builder, session })
        | ((.error cause, builder), session) =>
          (.error (.error cause), { bench with builder, session }) := by
    simp only [perform]
    rw [bench_bind_run, request_mapM_node_run]
    cases request.mapM bench.node? with
    | none => rfl
    | some resolved =>
      simp only [foundOr]
      rw [bench_bind_run, get_run]
      simp only
      rw [bench_bind_run, inSession_run]
      simp only
      rw [bench_bind_run, modify_run]
      rcases (bench.builder.make resolved).run bench.session with ⟨⟨_ | _, _⟩, _⟩ <;> rfl
  unfold exec
  rw [hrun]
  cases request.mapM bench.node? with
  | none => rfl
  | some resolved =>
    simp only
    rcases (bench.builder.make resolved).run bench.session with ⟨⟨_ | _, _⟩, _⟩ <;> rfl

theorem exec_make_none {request : Request SlotId} {bench : Workbench}
    (h : request.mapM bench.node? = none) :
    exec (.make request) bench = (.error .noSuchSlot, skip bench) := by
  rw [exec_make, h]

/-- A request that the builder refuses leaves nothing behind but an empty slot. -/
theorem exec_make_error {request : Request SlotId} {bench : Workbench}
    {resolved : Request Expr} {cause : Error} (h : request.mapM bench.node? = some resolved)
    (hc : resolved.content bench.builder.config.caseSensitive = .error cause) :
    exec (.make request) bench = (.error (.error cause), skip bench) := by
  rw [exec_make, h]
  simp only
  rw [Builder.make_error bench.session hc]
  rfl

/-! ## The nodes on a workbench -/

/-- The node that an answer brings. -/
def nodeOf? : Except Refusal Reply → Option Expr
  | .ok (.node e) => some e
  | _ => none

/-- The nodes that answers bring, in order. -/
def obtained (answers : List (Except Refusal Reply)) : List Expr := answers.filterMap nodeOf?

theorem obtained_run_cons {command : Command} {bench after : Workbench}
    {answer : Except Refusal Reply} (h : exec command bench = (answer, after))
    (script : List Command) :
    obtained (run (command :: script) bench).1 =
      obtained [answer] ++ obtained (run script after).1 := by
  rw [run, h]
  unfold obtained
  rw [← List.filterMap_append]
  rfl

/-- The node that a slot holds. -/
def heldIn? : Slot → Option Expr
  | .node e => some e
  | _ => none

/-- The nodes in slots, in order. -/
def nodes (bench : Workbench) : List Expr := bench.slots.filterMap heldIn?

theorem node?_eq_bind (bench : Workbench) (slot : SlotId) :
    bench.node? slot = bench.slots[slot]?.bind heldIn? := by
  unfold node?
  cases bench.slots[slot]? with
  | none => rfl
  | some held => cases held <;> rfl

theorem mem_nodes_of_node? {bench : Workbench} {slot : SlotId} {e : Expr}
    (h : bench.node? slot = some e) : e ∈ bench.nodes := by
  rw [node?_eq_bind] at h
  obtain ⟨held, hheld, he⟩ := Option.bind_eq_some_iff.mp h
  exact List.mem_filterMap.mpr ⟨held, List.mem_of_getElem? hheld, he⟩

theorem nodes_skip (bench : Workbench) : (skip bench).nodes = bench.nodes := by
  simp [nodes, skip, heldIn?]

/-- A request that is accepted fills its slot with what the builder hands out, over nodes that
    are on the workbench. -/
theorem exec_make_ok {request : Request SlotId} {bench : Workbench} {resolved : Request Expr}
    {content : Content Expr} (hmade : bench.builder.HasMade bench.nodes)
    (h : request.mapM bench.node? = some resolved)
    (hc : resolved.content bench.builder.config.caseSensitive = .ok content) :
    ∃ e after, e = Builder.handOut bench.builder.config bench.nodes
        (Expr.place bench.session.next content) ∧
      exec (.make request) bench = (.ok (.node e), after) ∧
      after.slots = bench.slots ++ [.node e] ∧
      after.session.next = bench.session.next + 1 ∧
      after.builder.config = bench.builder.config ∧
      after.builder.HasMade (bench.nodes ++ [e]) := by
  obtain ⟨builder, session, hrun, hnext, hconfig, hafter⟩ :=
    Builder.make_run hmade hc bench.session
  refine ⟨_, { builder, session, slots := bench.slots ++ [.node _] }, rfl, ?_, rfl, hnext,
    hconfig, hafter⟩
  rw [exec_make, h]
  simp only
  rw [hrun]

theorem nodes_concat {bench after : Workbench} {e : Expr}
    (h : after.slots = bench.slots ++ [.node e]) : after.nodes = bench.nodes ++ [e] := by
  unfold nodes
  rw [h, List.filterMap_append]
  rfl

theorem children_mem_nodes {request : Request SlotId} {bench : Workbench}
    {resolved : Request Expr} {content : Content Expr} {caseSensitive : Bool}
    (h : request.mapM bench.node? = some resolved)
    (hc : resolved.content caseSensitive = .ok content) :
    ∀ child ∈ content.children, child ∈ bench.nodes := by
  intro child hchild
  rw [Request.children_of_content hc] at hchild
  obtain ⟨slot, hslot⟩ := Request.exists_of_mem_nodes h hchild
  exact mem_nodes_of_node? hslot

/-- One more request brings nothing, or what the builder hands out for what it asks for over nodes
    that are on the workbench. -/
theorem exec_make_obtained {bench : Workbench} (hmade : bench.builder.HasMade bench.nodes)
    (request : Request SlotId) :
    ∃ answer after, exec (.make request) bench = (answer, after) ∧
      after.nodes = bench.nodes ++ obtained [answer] ∧
      after.builder.config = bench.builder.config ∧ after.builder.HasMade after.nodes ∧
      (obtained [answer] = [] ∧ after.session = bench.session ∨
        ∃ (resolved : Request Expr) (content : Content Expr),
          resolved.content bench.builder.config.caseSensitive = .ok content ∧
          (∀ child ∈ content.children, child ∈ bench.nodes) ∧
          obtained [answer] = [Builder.handOut bench.builder.config bench.nodes
            (Expr.place bench.session.next content)] ∧
          after.session.next = bench.session.next + 1) := by
  have hskip (refusal : Refusal) :
      (skip bench).nodes = bench.nodes ++ obtained [.error refusal] ∧
        (skip bench).builder.HasMade (skip bench).nodes := by
    rw [nodes_skip]
    exact ⟨(List.append_nil bench.nodes).symm, hmade⟩
  cases h : request.mapM bench.node? with
  | none =>
    obtain ⟨hnodes, hmade'⟩ := hskip .noSuchSlot
    exact ⟨_, _, exec_make_none h, hnodes, rfl, hmade', Or.inl ⟨rfl, rfl⟩⟩
  | some resolved =>
    cases hc : resolved.content bench.builder.config.caseSensitive with
    | error cause =>
      obtain ⟨hnodes, hmade'⟩ := hskip (.error cause)
      exact ⟨_, _, exec_make_error h hc, hnodes, rfl, hmade', Or.inl ⟨rfl, rfl⟩⟩
    | ok content =>
      obtain ⟨e, after, rfl, hexec, hslots, hnext, hconfig, hafter⟩ := exec_make_ok hmade h hc
      rw [← nodes_concat hslots] at hafter
      exact ⟨_, after, hexec, nodes_concat hslots, hconfig, hafter,
        Or.inr ⟨resolved, content, hc, children_mem_nodes h hc, rfl, hnext⟩⟩

end RowExpr.Workbench
