/-
  Replacing a reference where a node is held.

  `exec_replaceReference` is the run equation of the command. What it puts into the slot is an
  object of its own: nothing else that is held has it at any depth, and nothing else has changed
  (`detached_renewed`).

  The command asks for the kind of the node, and a call has the kind of its operator. So a call
  can pass for a field access: then nothing is replaced, and nothing is refused.
  `replacesReference_iff` says that nothing else can go wrong.
-/
import RowExpr.Proofs.Reached

namespace RowExpr

/-! ## Nodes of the kind of field accesses -/

namespace Expr

variable {e : Expr}

theorem replaceReference_of_access {old : Expr} {field : Field}
    (h : e.content = .access old field) (reference : Expr) :
    e.replaceReference reference = .ok (.access reference field) := by
  have hkind : e.kind = .fieldAccess := by
    unfold kind
    rw [h]
    rfl
  unfold replaceReference withReference?
  rw [if_pos hkind, h]
  rfl

theorem replaceReference_of_kind_ne (h : e.kind ≠ .fieldAccess) (reference : Expr) :
    e.replaceReference reference = .error (.invalidArgument (.notFieldAccess e.kind e.digest)) :=
  if_neg h

/-- What has the kind of field accesses without being one stays as it is, and is not refused. -/
theorem replaceReference_of_isAccess_eq_false (hkind : e.kind = .fieldAccess)
    (h : e.isAccess = false) (reference : Expr) :
    e.replaceReference reference = .ok e.content := by
  unfold replaceReference withReference?
  rw [if_pos hkind]
  split
  · rename_i old field hcontent
    rw [isAccess_iff.mpr ⟨old, field, hcontent⟩] at h
    cases h
  · rfl

end Expr

namespace Workbench

/-! ## Carrying out the command -/

variable {bench : Workbench} {slot other : SlotId} {e reference : Expr}

/-- A new node in a slot that held another one; the next slot stays empty. -/
def renewed (bench : Workbench) (slot : SlotId) (content : Content Expr) : Workbench :=
  { bench with
    session := { bench.session with next := bench.session.next + 1 }
    slots := bench.slots.set slot (.node (.place bench.session.next content)) ++ [.empty] }

/-- A new node over the new reference is placed, or the command is refused. -/
theorem exec_replaceReference (he : bench.node? slot = some e)
    (hreference : bench.node? other = some reference) :
    exec (.replaceReference slot other) bench =
      match e.replaceReference reference with
      | .ok content =>
        (.ok (.node (.place bench.session.next content)), bench.renewed slot content)
      | .error cause => (.error (.error cause), skip bench) := by
  have hrun : (perform (.replaceReference slot other)).run bench =
      match e.replaceReference reference with
      | .ok content =>
        (.ok (.empty, .node (.place bench.session.next content)),
          { bench with
            session := { bench.session with next := bench.session.next + 1 }
            slots := bench.slots.set slot (.node (.place bench.session.next content)) })
      | .error cause => (.error (.error cause), bench) := by
    simp only [perform]
    rw [bench_bind_run, node_run, he]
    simp only [foundOr]
    rw [bench_bind_run, node_run, hreference]
    simp only [foundOr]
    cases e.replaceReference reference <;> rfl
  unfold exec
  rw [hrun]
  cases e.replaceReference reference <;> rfl

/-! ## What else is held -/

/-- The nodes that are held in other slots, by decorrelators, and in caches. -/
def heldElsewhere (bench : Workbench) (slot : SlotId) : List Expr :=
  (bench.slots.eraseIdx slot).flatMap Slot.exprs ++ bench.builder.cache.nodes

theorem mem_held_of_mem_heldElsewhere {x : Expr} (h : x ∈ bench.heldElsewhere slot) :
    x ∈ bench.held := by
  rcases List.mem_append.mp h with hslots | hcache
  · obtain ⟨content, hcontent, hx⟩ := List.mem_flatMap.mp hslots
    exact List.mem_append_left _
      (List.mem_flatMap.mpr ⟨content, List.mem_of_mem_eraseIdx hcontent, hx⟩)
  · exact List.mem_append_right _ hcache

theorem lt_length_of_node? (he : bench.node? slot = some e) : slot < bench.slots.length := by
  rw [node?_eq_bind] at he
  obtain ⟨content, hcontent, -⟩ := Option.bind_eq_some_iff.mp he
  exact (List.getElem?_eq_some_iff.mp hcontent).1

theorem heldElsewhere_renewed (hslot : slot < bench.slots.length) (content : Content Expr) :
    (bench.renewed slot content).heldElsewhere slot = bench.heldElsewhere slot := by
  have hlength : slot < (bench.slots.set slot
      (.node (.place bench.session.next content))).length := by
    rw [List.length_set]
    exact hslot
  have hslots : (bench.renewed slot content).slots.eraseIdx slot =
      bench.slots.eraseIdx slot ++ [.empty] := by
    unfold renewed
    rw [List.eraseIdx_append_of_lt_length hlength, List.eraseIdx_set_eq]
  unfold heldElsewhere
  rw [hslots, List.flatMap_append]
  show _ ++ [] ++ _ = _
  rw [List.append_nil]
  rfl

/-- `after` is `bench` with a new object in one slot: no part of the object and nothing that is
    held elsewhere has it at any depth, and nothing but the slot has changed. -/
structure Detached (bench after : Workbench) (slot : SlotId) (new : Expr) : Prop where
  held : after.node? slot = some new
  apart : ∀ x ∈ Expr.walkAll (new.children ++ after.heldElsewhere slot), x.same new = false
  slots : after.slots = bench.slots.set slot (.node new) ++ [.empty]
  builder : after.builder = bench.builder
  warnings : after.session.warnings = bench.session.warnings

/-- A new node over placed nodes is an object of its own. -/
theorem detached_renewed (h : bench.Sound) (he : bench.node? slot = some e)
    {content : Content Expr} (hchildren : ∀ c ∈ content.children, c.Placed bench.session.next) :
    Detached bench (bench.renewed slot content) slot (.place bench.session.next content) where
  held := by
    have hslot := lt_length_of_node? he
    unfold node? renewed
    rw [List.getElem?_append_left (by rw [List.length_set]; exact hslot),
      List.getElem?_set_self hslot]
  apart := by
    -- whatever is held was placed before, so its identity is below that of the new node
    intro x hx
    obtain ⟨root, hroot, hx⟩ := Expr.mem_walkAll.mp hx
    have hplaced : root.Placed bench.session.next := by
      rw [heldElsewhere_renewed (lt_length_of_node? he), List.mem_append] at hroot
      rcases hroot with hchild | hheld
      · exact hchildren root hchild
      · exact h root (mem_held_of_mem_heldElsewhere hheld)
    exact beq_eq_false_iff_ne.mpr (Nat.ne_of_lt (hplaced.taken x hx))
  slots := rfl
  builder := rfl
  warnings := rfl

/-- A command that is not refused leaves a new object in the slot. -/
theorem exists_detached (h : bench.Sound) (he : bench.node? slot = some e)
    (hreference : bench.node? other = some reference) {content : Content Expr}
    (hc : e.replaceReference reference = .ok content) :
    ∃ new after, exec (.replaceReference slot other) bench = (.ok (.node new), after) ∧
      new = .place bench.session.next content ∧ Detached bench after slot new := by
  have hexec := exec_replaceReference he hreference
  rw [hc] at hexec
  exact ⟨_, _, hexec, rfl,
    detached_renewed h he (placed_of_replaceReference hc (h.node he) (h.node hreference))⟩

/-! ## When the reference is replaced -/

/-- The command puts the field access over the new reference, as an object of its own; what is no
    field access is refused and stays where it is. -/
def ReplacesReference (bench : Workbench) (slot other : SlotId) (e reference : Expr) : Prop :=
  match e.content with
  | .access _ field => ∃ new after,
      exec (.replaceReference slot other) bench = (.ok (.node new), after) ∧
      new.content = .access reference field ∧
      new.digest = reference.digest ++ "." ++ field.name ∧ new.type = e.type ∧
      Detached bench after slot new
  | _ => exec (.replaceReference slot other) bench =
      (.error (.error (.invalidArgument (.notFieldAccess e.kind e.digest))), skip bench)

theorem replacesReference_of_isAccess (h : bench.Sound) (he : bench.node? slot = some e)
    (hreference : bench.node? other = some reference) (haccess : e.isAccess = true) :
    ReplacesReference bench slot other e reference := by
  obtain ⟨old, field, hcontent⟩ := Expr.isAccess_iff.mp haccess
  obtain ⟨new, after, hexec, rfl, hdetached⟩ :=
    exists_detached h he hreference (Expr.replaceReference_of_access hcontent reference)
  have htype : e.type = field.type := by
    unfold Expr.type
    rw [hcontent]
    rfl
  unfold ReplacesReference
  rw [hcontent]
  exact ⟨_, after, hexec, rfl, rfl, htype.symm, hdetached⟩

theorem replacesReference_iff_refused (h : e.isAccess = false) :
    ReplacesReference bench slot other e reference ↔
      exec (.replaceReference slot other) bench =
        (.error (.error (.invalidArgument (.notFieldAccess e.kind e.digest))), skip bench) := by
  unfold ReplacesReference
  split
  · rename_i old field hcontent
    rw [Expr.isAccess_iff.mpr ⟨old, field, hcontent⟩] at h
    cases h
  · exact Iff.rfl

/-- Behind every run, for all nodes in slots, also where both are one object or one is part of the
    other: the reference is replaced in field accesses and the rest is refused, unless a call has
    the kind of field accesses. Such a call is not refused; its slot gets an object of its own
    that says the same. -/
theorem replacesReference_iff {config : Config} (h : Reached config bench)
    (he : bench.node? slot = some e) (hreference : bench.node? other = some reference) :
    (ReplacesReference bench slot other e reference ↔
      (e.kind = .fieldAccess → e.isAccess = true)) ∧
      (e.kind = .fieldAccess → e.isAccess = false → ∃ copy after,
        exec (.replaceReference slot other) bench = (.ok (.node copy), after) ∧
          copy.content = e.content ∧ Detached bench after slot copy) := by
  have hsound := sound_of_reached h
  have hcopy (hkind : e.kind = .fieldAccess) (hnone : e.isAccess = false) : ∃ copy after,
      exec (.replaceReference slot other) bench = (.ok (.node copy), after) ∧
        copy.content = e.content ∧ Detached bench after slot copy := by
    obtain ⟨copy, after, hexec, rfl, hdetached⟩ := exists_detached hsound he hreference
      (Expr.replaceReference_of_isAccess_eq_false hkind hnone reference)
    exact ⟨_, after, hexec, rfl, hdetached⟩
  refine ⟨?_, hcopy⟩
  cases haccess : e.isAccess with
  | true =>
    exact iff_of_true (replacesReference_of_isAccess hsound he hreference haccess) fun _ => rfl
  | false =>
    rw [replacesReference_iff_refused haccess]
    by_cases hkind : e.kind = .fieldAccess
    · refine iff_of_false (fun hrefused => ?_) fun hall => nomatch hall hkind
      obtain ⟨copy, after, hexec, -⟩ := hcopy hkind haccess
      rw [hexec] at hrefused
      cases hrefused
    · have hexec := exec_replaceReference he hreference
      rw [Expr.replaceReference_of_kind_ne hkind reference] at hexec
      exact iff_of_true hexec fun hall => absurd hall hkind

/-- A field access that a null test and a second slot hold: it is put over the test, over itself,
    and over the variable that it reads from. The variable itself is refused. -/
theorem replacesReference_iff_dept :
    let dept := DataType.ofColumns [("deptno", .notNull .integer)]
    let script : List Command := [.make (.correlation ⟨0⟩ dept), .make (.field 0 "deptno"),
      .make (.call .isNull [1]), .share 1]
    let bench := (run script (start (.start {}))).2
    let cor := Expr.place 0 (.correlation ⟨0⟩ dept)
    let deptno := Expr.place 1 (.access cor ⟨"deptno", 0, .notNull .integer⟩)
    let test := Expr.place 2 (.call .isNull [deptno] (.notNull .boolean))
    bench.slots.flatMap Slot.exprs = [cor, deptno, test, deptno] ∧
      ReplacesReference bench 1 2 deptno test ∧ ReplacesReference bench 1 3 deptno deptno ∧
      ReplacesReference bench 1 0 deptno cor ∧ ReplacesReference bench 0 1 cor deptno := by
  intro dept script bench cor deptno test
  have hreached : Reached {} bench := Reached.start.run script
  exact ⟨rfl, (replacesReference_iff hreached rfl rfl).1.mpr fun _ => rfl,
    (replacesReference_iff hreached rfl rfl).1.mpr fun _ => rfl,
    (replacesReference_iff hreached rfl rfl).1.mpr fun _ => rfl,
    (replacesReference_iff hreached rfl rfl).1.mpr fun h => nomatch h⟩

/-- A call of an operator that has the kind of field accesses is neither put over the literal nor
    refused: a copy of it takes its place. -/
theorem not_replacesReference_call :
    let operator : Operator := ⟨"f", .fieldAccess, .exactly 1, .applied⟩
    let script : List Command :=
      [.make (.integer 1), .make (.typedCall operator [0] (.notNull .integer))]
    let bench := (run script (start (.start {}))).2
    let one := Expr.place 0 (.literal (.integer 1) (.notNull .integer))
    let call := Expr.place 1 (.call operator [one] (.notNull .integer))
    Reached {} bench ∧ bench.node? 0 = some one ∧ bench.node? 1 = some call ∧
      (exec (.replaceReference 1 0) bench).1 = .ok (.node (.place 2 call.content)) ∧
      ¬ ReplacesReference bench 1 0 call one := by
  intro operator script bench one call
  have hanswer : (exec (.replaceReference 1 0) bench).1 = .ok (.node (.place 2 call.content)) :=
    rfl
  refine ⟨Reached.start.run script, rfl, rfl, hanswer, fun h => ?_⟩
  have hrefused : (exec (.replaceReference 1 0) bench).1 =
      .error (.error (.invalidArgument (.notFieldAccess .fieldAccess "f(1)"))) :=
    congrArg Prod.fst h
  rw [hanswer] at hrefused
  cases hrefused

end Workbench
end RowExpr
