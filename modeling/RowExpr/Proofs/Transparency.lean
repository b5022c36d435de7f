/-
  Sharing cannot be told from digests, types and errors.

  Two workbenches are alike when they hold nodes of the same digests and types in the same
  slots and look up names the same way, whatever they share. `exec_make_alike` is the step:
  alike workbenches give the same answer to a request, up to the object, and stay alike.
  `ask_sharing_transparent` compares a sharing builder with one that shares nothing over a script.
-/
import RowExpr.Proofs.Sharing

namespace RowExpr.Workbench

/-- Two answers that bring nodes of the same digest and type, or are the same refusal. -/
inductive SameAnswer : Except Refusal Reply → Except Refusal Reply → Prop where
  | node {a b : Expr} (digest_eq : a.digest = b.digest) (type_eq : a.type = b.type) :
    SameAnswer (.ok (.node a)) (.ok (.node b))
  | refusal (refusal : Refusal) : SameAnswer (.error refusal) (.error refusal)

/-- The digest and the type of the node that a slot holds. -/
def signatureIn? (held : Slot) : Option (String × DataType) := (heldIn? held).map Expr.signature

/-- The workbenches hold nodes of the same digests and types and read names the same way. -/
structure Alike (bench other : Workbench) : Prop where
  made : bench.builder.HasMade bench.nodes
  made' : other.builder.HasMade other.nodes
  caseSensitive_eq :
    bench.builder.config.caseSensitive = other.builder.config.caseSensitive
  slots_eq : bench.slots.map signatureIn? = other.slots.map signatureIn?

theorem signature_node? (bench : Workbench) (slot : SlotId) :
    (bench.node? slot).map Expr.signature =
      ((bench.slots.map signatureIn?)[slot]?).bind id := by
  rw [node?_eq_bind, List.getElem?_map]
  cases bench.slots[slot]? <;> rfl

theorem Alike.node? {bench other : Workbench} (h : Alike bench other) (slot : SlotId) :
    (bench.node? slot).map Expr.signature = (other.node? slot).map Expr.signature := by
  rw [signature_node?, signature_node?, h.slots_eq]

theorem Alike.skip {bench other : Workbench} (h : Alike bench other) :
    Alike (skip bench) (skip other) := by
  refine ⟨?_, ?_, h.caseSensitive_eq, ?_⟩
  · rw [nodes_skip]
    exact h.made
  · rw [nodes_skip]
    exact h.made'
  · unfold Workbench.skip
    rw [List.map_append, List.map_append, h.slots_eq]

/-- Filling the next slots with nodes of the same digest and type keeps workbenches alike. -/
theorem Alike.concat {bench other after after' : Workbench} (h : Alike bench other) {a b : Expr}
    (hslots : after.slots = bench.slots ++ [.node a])
    (hslots' : after'.slots = other.slots ++ [.node b]) (hab : a.signature = b.signature)
    (hconfig : after.builder.config = bench.builder.config)
    (hconfig' : after'.builder.config = other.builder.config)
    (hmade : after.builder.HasMade (bench.nodes ++ [a]))
    (hmade' : after'.builder.HasMade (other.nodes ++ [b])) : Alike after after' := by
  refine ⟨?_, ?_, ?_, ?_⟩
  · rw [nodes_concat hslots]
    exact hmade
  · rw [nodes_concat hslots']
    exact hmade'
  · rw [hconfig, hconfig', h.caseSensitive_eq]
  · have hlast : signatureIn? (.node a) = signatureIn? (.node b) := congrArg some hab
    rw [hslots, hslots', List.map_append, List.map_append, h.slots_eq, List.map_singleton,
      List.map_singleton, hlast]

/-- Alike workbenches answer a request alike and stay alike. -/
theorem exec_make_alike {bench other : Workbench} (h : Alike bench other)
    (request : Request SlotId) :
    SameAnswer (exec (.make request) bench).1 (exec (.make request) other).1 ∧
      Alike (exec (.make request) bench).2 (exec (.make request) other).2 := by
  -- the resolved requests may name other objects, but come to the same
  have houtcome := Request.outcome_congr other.builder.config.caseSensitive h.node? request
  cases hr : request.mapM bench.node? with
  | none => cases hr' : request.mapM other.node? with
    | none =>
      rw [exec_make_none hr, exec_make_none hr']
      exact ⟨.refusal _, h.skip⟩
    | some resolved' => simp [hr, hr'] at houtcome
  | some resolved => cases hr' : request.mapM other.node? with
    | none => simp [hr, hr'] at houtcome
    | some resolved' =>
      have hsame : resolved.outcome other.builder.config.caseSensitive =
          resolved'.outcome other.builder.config.caseSensitive := by
        simpa [hr, hr'] using houtcome
      unfold Request.outcome at hsame
      cases hc' : resolved'.content other.builder.config.caseSensitive with
      | error cause =>
        rw [hc'] at hsame
        have hc := map_eq_error_iff.mp hsame
        rw [← h.caseSensitive_eq] at hc
        rw [exec_make_error hr hc, exec_make_error hr' hc']
        exact ⟨.refusal _, h.skip⟩
      | ok content' =>
        rw [hc'] at hsame
        obtain ⟨content, hc, hsignature⟩ := map_eq_ok_iff.mp hsame
        rw [← h.caseSensitive_eq] at hc
        obtain ⟨a, after, ha, hexec, hslots, -, hconfig, hmade⟩ := exec_make_ok h.made hr hc
        obtain ⟨b, after', hb, hexec', hslots', -, hconfig', hmade'⟩ :=
          exec_make_ok h.made' hr' hc'
        have hab : a.signature = b.signature := by
          rw [ha, hb, Builder.signature_handOut, Builder.signature_handOut,
            Expr.signature_place, Expr.signature_place]
          exact hsignature
        rw [hexec, hexec']
        exact ⟨.node (congrArg Prod.fst hab) (congrArg Prod.snd hab),
          h.concat hslots hslots' hab hconfig hconfig' hmade hmade'⟩

/-- Alike workbenches answer a script of requests alike. -/
theorem run_alike (requests : List (Request SlotId)) {bench other : Workbench}
    (h : Alike bench other) :
    List.Forall₂ SameAnswer (run (requests.map .make) bench).1
      (run (requests.map .make) other).1 := by
  induction requests generalizing bench other with
  | nil => exact .nil
  | cons request requests ih =>
    obtain ⟨hanswer, halike⟩ := exec_make_alike h request
    exact .cons hanswer (ih halike)

/-- Whether a builder shares nodes cannot be told from its answers: at each request of a script
    both fail with the same error, or both give a node of the same digest and type. -/
theorem ask_sharing_transparent (config : Config) (session session' : Session)
    (requests : List (Request SlotId)) :
    List.Forall₂ SameAnswer
      (ask { config with shareCommonSubexpressions := true } session requests)
      (ask { config with shareCommonSubexpressions := false } session' requests) :=
  run_alike requests ⟨Builder.hasMade_start _, Builder.hasMade_start _, rfl, rfl⟩

end RowExpr.Workbench
