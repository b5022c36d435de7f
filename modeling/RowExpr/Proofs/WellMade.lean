/-
  What a builder makes is well made.

  A request is checked before its node is made, so the node that it asks for is well made: a
  call has a number of operands that its operator takes, a field access reads a field that there
  is, and a literal has the type of its value (`wellMade_of_content`). The node that comes back
  need not be the one that was checked. It is that one or one that was handed out before, so
  what holds of every node that is asked for stays true of all on the workbench
  (`exec_make_forall`), and so of all that come back (`run_forall`).
-/
import RowExpr.Proofs.Sharing
import RowExpr.Proofs.Tree
import RowExpr.Proofs.Words

namespace RowExpr

/-! ## Well-made nodes -/

/-- The type that a literal of this value has: an integer is an INTEGER exactly when it fits 32
    bits, and a decimal is written as one. Of a null it is any scalar type that allows null. -/
def Literal.HasType (value : Literal) (type : DataType) : Prop :=
  match value with
  | .null => ∃ name, type = .nullable name
  | .boolean _ => type = .notNull .boolean
  | .integer n =>
    type = .notNull
      (if -2147483648 ≤ n.toInt ∧ n.toInt ≤ 2147483647 then .integer else .bigint)
  | .decimal spelling => IsNumber spelling.toList ∧ type = .notNull .decimal
  | .string _ => type = .notNull .varchar

/-- What one node says is well made: a call has a number of operands that its operator takes, an
    access reads a field of the row that its reference is, and a literal has the type of its
    value. -/
def Content.WellMade : Content Expr → Prop
  | .literal value type => value.HasType type
  | .call operator operands _ => operator.operands.accepts operands.length = true
  | .access reference field => ∃ row, reference.type = .row row ∧ field ∈ row
  | .inputRef _ _ | .correlation _ _ => True

/-- All nodes of the expression, at any depth, are well made. -/
def Expr.WellMade (e : Expr) : Prop := ∀ x ∈ e.walk, x.content.WellMade

/-- A well-made node over well-made expressions makes one. -/
theorem Expr.wellMade_place (id : NodeId) {content : Content Expr} (h : content.WellMade)
    (hchildren : ∀ c ∈ content.children, c.WellMade) : (Expr.place id content).WellMade :=
  forall_walk_iff.mpr ⟨h, hchildren⟩

namespace Request

theorem hasType_integer (n : Int64) : (Literal.integer n).HasType (integerType n) := by
  have hmin : Int32.minValue.toInt = -2147483648 := rfl
  have hmax : Int32.maxValue.toInt = 2147483647 := rfl
  show integerType n =
    .notNull (if -2147483648 ≤ n.toInt ∧ n.toInt ≤ 2147483647 then .integer else .bigint)
  unfold integerType
  rw [hmin, hmax]
  split <;> rfl

/-- What an accepted request asks for is well made, whatever nodes it names. -/
theorem wellMade_of_content {caseSensitive : Bool} {request : Request Expr}
    {content : Content Expr} (h : request.content caseSensitive = .ok content) :
    content.WellMade := by
  cases request with
  | inputRef rowType index =>
    obtain ⟨_, _, _, _, rfl⟩ := content_inputRef.mp h
    trivial
  | integer value =>
    cases h
    exact hasType_integer value
  | decimal text =>
    obtain ⟨htext, rfl⟩ := content_decimal.mp h
    exact ⟨isNumber_decimal htext, rfl⟩
  | boolean value =>
    cases h
    rfl
  | string value =>
    cases h
    rfl
  | null name =>
    cases h
    exact ⟨name, rfl⟩
  | correlation id rowType =>
    cases h
    trivial
  | call operator operands =>
    obtain ⟨hcount, _, _, rfl⟩ := content_call.mp h
    exact hcount
  | typedCall operator operands type =>
    obtain ⟨hcount, rfl⟩ := content_typedCall.mp h
    exact hcount
  | field reference name =>
    obtain ⟨row, found, hrow, hfound, rfl⟩ := content_field.mp h
    exact ⟨row, hrow, List.mem_of_find?_eq_some hfound⟩
  | fieldAt reference index =>
    obtain ⟨row, found, hrow, hfound, rfl⟩ := content_fieldAt.mp h
    exact ⟨row, hrow, List.mem_of_getElem? hfound⟩

end Request

/-! ## Whatever comes back -/

namespace Workbench

/-- `P` holds of the node of every accepted request over nodes of which it holds. -/
def HoldsOfAsked (P : Expr → Prop) : Prop :=
  ∀ (caseSensitive : Bool) (request : Request Expr) (content : Content Expr) (id : NodeId),
    request.content caseSensitive = .ok content → (∀ c ∈ content.children, P c) →
      P (.place id content)

variable {P : Expr → Prop}

/-- One more request keeps `P` on the workbench: what it brings is what it asks for, over nodes
    that are there, or is one of these. -/
theorem exec_make_forall (hP : HoldsOfAsked P) {bench : Workbench}
    (hmade : bench.builder.HasMade bench.nodes) (hnodes : ∀ e ∈ bench.nodes, P e)
    (request : Request SlotId) :
    ∃ answer after, exec (.make request) bench = (answer, after) ∧
      (∀ e ∈ obtained [answer], P e) ∧ (∀ e ∈ after.nodes, P e) ∧
      after.builder.HasMade after.nodes := by
  obtain ⟨answer, after, hexec, hafter, -, hmade', hcase⟩ := exec_make_obtained hmade request
  have hanswer : ∀ e ∈ obtained [answer], P e := by
    rcases hcase with ⟨hnone, -⟩ | ⟨resolved, content, hc, hchildren, hone, -⟩
    · rw [hnone]
      exact List.forall_mem_nil P
    · rw [hone, List.forall_mem_singleton]
      rcases Builder.handOut_eq_or_mem bench.builder.config bench.nodes
        (.place bench.session.next content) with heq | hold
      · rw [heq]
        exact hP _ _ _ _ hc fun c hmem => hnodes c (hchildren c hmem)
      · exact hnodes _ hold
  refine ⟨answer, after, hexec, hanswer, ?_, hmade'⟩
  rw [hafter]
  exact List.forall_mem_append.mpr ⟨hnodes, hanswer⟩

/-- What holds of the nodes asked for holds of all nodes that a script brings, old ones that come
    back in place of new ones included. -/
theorem run_forall (hP : HoldsOfAsked P) (requests : List (Request SlotId))
    {bench : Workbench} (hmade : bench.builder.HasMade bench.nodes)
    (hnodes : ∀ e ∈ bench.nodes, P e) :
    ∀ e ∈ obtained (run (requests.map .make) bench).1, P e := by
  induction requests generalizing bench with
  | nil => exact fun _ he => nomatch he
  | cons request requests ih =>
    obtain ⟨answer, after, hexec, hanswer, hnodes', hmade'⟩ :=
      exec_make_forall hP hmade hnodes request
    rw [List.map_cons, obtained_run_cons hexec]
    exact List.forall_mem_append.mpr ⟨hanswer, ih hmade' hnodes'⟩

theorem holdsOfAsked_wellMade : HoldsOfAsked Expr.WellMade :=
  fun _ _ _ id hc hchildren => Expr.wellMade_place id (Request.wellMade_of_content hc) hchildren

/-- Whatever its settings and whatever it is asked for, all nodes that a builder hands out, and all
    nodes below them, are well made. -/
theorem wellMade_of_obtained (config : Config) (session : Session)
    (requests : List (Request SlotId)) {e : Expr}
    (he : e ∈ Expr.walkAll (obtained (ask config session requests))) : e.content.WellMade := by
  obtain ⟨node, hnode, hwalk⟩ := Expr.mem_walkAll.mp he
  have hmade : (Builder.start config).HasMade [] := Builder.hasMade_start config
  exact run_forall holdsOfAsked_wellMade requests hmade (List.forall_mem_nil _) node hnode e hwalk

/-- Two fields of one name are read by position: the second read brings back the first node, and
    that one is tested for null. -/
theorem wellMade_of_obtained_twins :
    let twins := DataType.ofColumns [("a", .notNull .integer), ("a", .notNull .integer)]
    let requests : List (Request SlotId) := [.correlation ⟨0⟩ twins, .fieldAt 0 0, .fieldAt 0 1,
      .call .isNull [2], .integer 2147483648, .decimal "-0.5"]
    let cor := Expr.place 0 (.correlation ⟨0⟩ twins)
    let first := Expr.place 1 (.access cor ⟨"a", 0, .notNull .integer⟩)
    let test := Expr.place 3 (.call .isNull [first] (.notNull .boolean))
    let large := Expr.place 4 (.literal (.integer 2147483648) (.notNull .bigint))
    let half := Expr.place 5 (.literal (.decimal "-0.5") (.notNull .decimal))
    obtained (ask {} {} requests) = [cor, first, first, test, large, half] ∧
      first.content.WellMade ∧ test.content.WellMade ∧ large.content.WellMade ∧
      half.content.WellMade := by
  intro twins requests cor first test large half
  have hmade : obtained (ask {} {} requests) = [cor, first, first, test, large, half] := by
    subst requests half large test first cor twins
    rfl
  have hwellMade {e : Expr} (he : e ∈ Expr.walkAll [cor, first, first, test, large, half]) :
      e.content.WellMade := by
    rw [← hmade] at he
    exact wellMade_of_obtained {} {} requests he
  have hroot {e : Expr} (he : e ∈ [cor, first, first, test, large, half]) :
      e ∈ Expr.walkAll [cor, first, first, test, large, half] :=
    Expr.mem_walkAll.mpr ⟨e, he, e.self_mem_walk⟩
  exact ⟨hmade, hwellMade (hroot (by simp)), hwellMade (hroot (by simp)),
    hwellMade (hroot (by simp)), hwellMade (hroot (by simp))⟩

end Workbench
end RowExpr
