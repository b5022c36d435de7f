/-
  When the node that comes back is the one that was asked for.

  A sharing builder compares digests and types only, so it may answer with a node that was
  asked for earlier and says something else. `make_after_iff` is the law: an answer has a
  property of the request exactly when what was first asked for with its digest and type has
  it. `field_read_iff` and `call_made_iff` are its cases for fields and calls;
  `field_read_elsewhere` and `call_made_elsewhere` show both going wrong.
-/
import RowExpr.Proofs.History

namespace RowExpr

/-! ## What is asked for -/

namespace Content

/-- A field access that reads this field, of a row of this type. -/
def Reads (field : Field) (rowType : DataType) (content : Content Expr) : Prop :=
  ∃ reference, content = .access reference field ∧ reference.type = rowType

/-- A call of this operator to operands of the same digests and types as these. -/
def Calls (operator : Operator) (operands : List Expr) (content : Content Expr) : Prop :=
  ∃ given type, content = .call operator given type ∧
    given.map Expr.signature = operands.map Expr.signature

end Content

namespace Request

/-- The node and its field that a request for a field means, if there is that field. -/
def found? (caseSensitive : Bool) : Request Expr → Option (Expr × Field)
  | field reference name => do
    let row ← reference.type.row?
    return (reference, ← row.field? name caseSensitive)
  | fieldAt reference index => do
    let row ← reference.type.row?
    return (reference, ← row.fieldAt? index)
  | _ => none

/-- The operator and the operands of a request for a call. -/
def applied? : Request Expr → Option (Operator × List Expr)
  | call operator operands => some (operator, operands)
  | typedCall operator operands _ => some (operator, operands)
  | _ => none

/-- A request for a field that there is is accepted, and asks for an access of it. -/
theorem content_of_found? {caseSensitive : Bool} {request : Request Expr} {reference : Expr}
    {found : Field} (h : request.found? caseSensitive = some (reference, found)) :
    request.content caseSensitive = .ok (.access reference found) := by
  cases request with
  | field reference' name =>
    obtain ⟨row, hrow, hfound⟩ := Option.bind_eq_some_iff.mp h
    obtain ⟨found', hfound', heq⟩ := Option.bind_eq_some_iff.mp hfound
    cases heq
    exact content_field.mpr ⟨row, found, DataType.row?_eq_some_iff.mp hrow, hfound', rfl⟩
  | fieldAt reference' index =>
    obtain ⟨row, hrow, hfound⟩ := Option.bind_eq_some_iff.mp h
    obtain ⟨found', hfound', heq⟩ := Option.bind_eq_some_iff.mp hfound
    cases heq
    exact content_fieldAt.mpr ⟨row, found, DataType.row?_eq_some_iff.mp hrow, hfound', rfl⟩
  | _ => simp [found?] at h

/-- A request for a call asks for a call of that operator to those operands. -/
theorem content_of_applied? {caseSensitive : Bool} {request : Request Expr}
    {operator : Operator} {operands : List Expr} {content : Content Expr}
    (h : request.applied? = some (operator, operands))
    (hc : request.content caseSensitive = .ok content) : content.Calls operator operands := by
  cases request with
  | call operator' operands' =>
    obtain ⟨-, type, -, rfl⟩ := content_call.mp hc
    cases h
    exact ⟨operands, type, rfl, rfl⟩
  | typedCall operator' operands' type =>
    obtain ⟨-, rfl⟩ := content_typedCall.mp hc
    cases h
    exact ⟨operands, type, rfl, rfl⟩
  | _ => simp [applied?] at h

end Request

/-- Fields made from columns carry the number of their column. -/
theorem Row.index_number {start : Nat} {columns : List (String × DataType)} {i : Nat}
    {field : Field} (h : (Row.number start columns)[i]? = some field) :
    field.index = UInt64.ofNat (start + i) := by
  induction columns generalizing start i with
  | nil => simp [Row.number] at h
  | cons column columns ih =>
    cases i with
    | zero =>
      rw [Row.number, List.getElem?_cons_zero] at h
      cases h
      rfl
    | succ i =>
      rw [Row.number, List.getElem?_cons_succ] at h
      rw [ih h, Nat.add_right_comm, Nat.add_assoc]

theorem Row.index_fieldAt? {columns : List (String × DataType)} {index : UInt64}
    {field : Field} (h : (Row.number 0 columns).fieldAt? index = some field) :
    field.index = index := by
  have hindex := Row.index_number h
  rw [hindex, Nat.zero_add, UInt64.ofNat_toNat]

namespace Builder

/-- An answer has a property of what the request asks for exactly when nothing is remembered
    under its digest and type, or what was first asked for with them has the property too. -/
theorem make_after_iff (config : Config) (calls : List Call) {request : Request Expr}
    {content : Content Expr} (hc : request.content config.caseSensitive = .ok content)
    (session : Session) {P : Content Expr → Prop} (hP : P content) :
    ∃ node, (((after config calls).make request).run session).1.1 = .ok node ∧
      node.signature = content.signature ∧
      (P node.content ↔ (config.shareCommonSubexpressions = true →
        ∀ first, firstAsked? config calls content.signature = some first → P first)) := by
  obtain ⟨node, hrun, hsignature, hcontent⟩ := make_after config calls hc session
  refine ⟨node, hrun, hsignature, ?_⟩
  rw [hcontent]
  by_cases hshare : config.shareCommonSubexpressions = true
  · rw [if_pos hshare]
    cases hfirst : firstAsked? config calls content.signature with
    | none => exact ⟨fun _ _ first h => by simp at h, fun _ => hP⟩
    | some first =>
      refine ⟨fun h _ first' hfirst' => ?_, fun h => h hshare first rfl⟩
      cases hfirst'
      exact h
  · rw [if_neg hshare]
    exact ⟨fun _ hs => absurd hs hshare, fun _ => hP⟩

/-! ## Fields -/

/-- A request for a field that there is gets a node, behind any calls; a field found by its
    position in a row made from columns is the one of that ordinal. The node reads the field
    exactly when what was first asked for with its digest and type, if that is remembered,
    reads it of a row of the same type. -/
theorem field_read_iff (config : Config) (calls : List Call) (session : Session)
    {request : Request Expr} {reference : Expr} {field : Field}
    (h : request.found? config.caseSensitive = some (reference, field)) :
    (∃ node, (((after config calls).make request).run session).1.1 = .ok node ∧
      (node.content.Reads field reference.type ↔
        (config.shareCommonSubexpressions = true → ∀ first,
          firstAsked? config calls (reference.digest ++ "." ++ field.name, field.type) =
            some first → first.Reads field reference.type))) ∧
    ∀ columns index, reference.type = .ofColumns columns →
      request = .fieldAt reference index → field.index = index := by
  constructor
  · obtain ⟨node, hrun, -, hiff⟩ := make_after_iff config calls (Request.content_of_found? h)
      session (P := Content.Reads field reference.type) ⟨reference, rfl, rfl⟩
    exact ⟨node, hrun, hiff⟩
  · rintro columns index htype rfl
    obtain ⟨row, hrow, hfound⟩ := Option.bind_eq_some_iff.mp h
    obtain ⟨found, hfound', heq⟩ := Option.bind_eq_some_iff.mp hfound
    cases heq
    rw [htype] at hrow
    cases hrow
    exact Row.index_fieldAt? hfound'

/-- A correlation variable is taken again for a row of another layout: its field is read. -/
theorem field_read_other_layout :
    let dept := DataType.ofColumns [("deptno", .notNull .integer)]
    let emp := DataType.ofColumns [("name", .notNull .varchar), ("deptno", .notNull .bigint)]
    let cor := Expr.place 0 (.correlation ⟨0⟩ dept)
    let cor' := Expr.place 2 (.correlation ⟨0⟩ emp)
    let calls : List Call := [⟨{}, .correlation ⟨0⟩ dept⟩, ⟨{ next := 1 }, .field cor "deptno"⟩,
      ⟨{ next := 2 }, .correlation ⟨0⟩ emp⟩]
    ∃ node, (((after {} calls).make (.field cor' "deptno")).run { next := 3 }).1.1 = .ok node ∧
      node.content.Reads ⟨"deptno", 1, .notNull .bigint⟩ emp := by
  intro dept emp cor cor' calls
  have hfound : (Request.field cor' "deptno").found? true =
      some (cor', ⟨"deptno", 1, .notNull .bigint⟩) := rfl
  have hfirst : firstAsked? {} calls ("$cor0.deptno", .notNull .bigint) = none := rfl
  obtain ⟨⟨node, hrun, hiff⟩, -⟩ := field_read_iff {} calls { next := 3 } hfound
  refine ⟨node, hrun, hiff.mpr fun _ first h => ?_⟩
  have hnone := hfirst.symm.trans h
  cases hnone

/-- Two columns have one name and one type: the second, asked for by its position after the
    first was, comes back as the first. -/
theorem field_read_elsewhere :
    let row := DataType.ofColumns [("a", .notNull .integer), ("a", .notNull .integer)]
    let cor := Expr.place 0 (.correlation ⟨0⟩ row)
    let calls : List Call := [⟨{}, .correlation ⟨0⟩ row⟩, ⟨{ next := 1 }, .fieldAt cor 0⟩]
    let request := Request.fieldAt cor 1
    request.found? true = some (cor, ⟨"a", 1, .notNull .integer⟩) ∧
      ∃ node, (((after {} calls).make request).run { next := 2 }).1.1 = .ok node ∧
        node.content = .access cor ⟨"a", 0, .notNull .integer⟩ ∧
        ¬ node.content.Reads ⟨"a", 1, .notNull .integer⟩ row := by
  intro row cor calls request
  refine ⟨rfl, Expr.place 1 (.access cor ⟨"a", 0, .notNull .integer⟩), rfl, rfl, ?_⟩
  rintro ⟨reference, heq, -⟩
  have hindex : (0 : UInt64) = 1 := congrArg (·.index) (Content.access.inj heq).2
  exact absurd hindex (by decide)

/-! ## Calls -/

/-- A node that comes back for a call, behind any calls, applies the operator to operands of
    the digests and types given exactly when what was first asked for with its digest and
    type, if that is remembered, does. -/
theorem call_made_iff (config : Config) (calls : List Call) (session : Session)
    {request : Request Expr} {operator : Operator} {operands : List Expr} {node : Expr}
    (h : request.applied? = some (operator, operands))
    (hrun : (((after config calls).make request).run session).1.1 = .ok node) :
    node.content.Calls operator operands ↔
      (config.shareCommonSubexpressions = true → ∀ first,
        firstAsked? config calls node.signature = some first →
          first.Calls operator operands) := by
  cases hc : request.content config.caseSensitive with
  | error cause =>
    have hconfig := (exists_made config calls).1
    rw [← hconfig] at hc
    rw [make_error session hc] at hrun
    cases hrun
  | ok content =>
    obtain ⟨node', hrun', hsignature, hiff⟩ := make_after_iff config calls hc session
      (P := Content.Calls operator operands) (Request.content_of_applied? h hc)
    have hnode : node' = node := Except.ok.inj (hrun'.symm.trans hrun)
    rw [← hnode, hsignature]
    exact hiff

/-- A null test is asked for again over another node of the same digest and type. -/
theorem call_made_again :
    let dept := DataType.ofColumns [("deptno", .notNull .integer)]
    let a := Expr.place 0 (.inputRef 0 (.notNull .integer))
    let a' := Expr.place 7 (.inputRef 0 (.notNull .integer))
    let calls : List Call := [⟨{}, .inputRef dept 0⟩, ⟨{ next := 1 }, .call .isNull [a]⟩]
    let node := Expr.place 1 (.call .isNull [a] (.notNull .boolean))
    (((after {} calls).make (.call .isNull [a'])).run { next := 8 }).1.1 = .ok node ∧
      node.content.Calls .isNull [a'] := by
  intro dept a a' calls node
  have hrun : (((after {} calls).make (.call .isNull [a'])).run { next := 8 }).1.1 = .ok node :=
    rfl
  have hfirst : firstAsked? {} calls node.signature =
      some (.call .isNull [a] (.notNull .boolean)) := rfl
  refine ⟨hrun, (call_made_iff {} calls { next := 8 } rfl hrun).mpr fun _ first h => ?_⟩
  cases hfirst.symm.trans h
  exact ⟨[a], .notNull .boolean, rfl, rfl⟩

/-- A null test over a column of another type, asked for after one over an integer column, comes
    back as the test of the integer column. -/
theorem call_made_elsewhere :
    let ints := DataType.ofColumns [("a", .notNull .integer)]
    let texts := DataType.ofColumns [("b", .nullable .varchar)]
    let a := Expr.place 0 (.inputRef 0 (.notNull .integer))
    let b := Expr.place 2 (.inputRef 0 (.nullable .varchar))
    let calls : List Call := [⟨{}, .inputRef ints 0⟩, ⟨{ next := 1 }, .call .isNull [a]⟩,
      ⟨{ next := 2 }, .inputRef texts 0⟩]
    let request := Request.call .isNull [b]
    ∃ node, (((after {} calls).make request).run { next := 3 }).1.1 = .ok node ∧
      node.content = .call .isNull [a] (.notNull .boolean) ∧
      ¬ node.content.Calls .isNull [b] := by
  intro ints texts a b calls request
  refine ⟨Expr.place 1 (.call .isNull [a] (.notNull .boolean)), rfl, rfl, ?_⟩
  rintro ⟨given, type, heq, hsignatures⟩
  obtain ⟨-, hgiven, -⟩ := Content.call.inj heq
  rw [← hgiven] at hsignatures
  have htypes := congrArg (List.map Prod.snd) hsignatures
  exact absurd htypes (by decide)

end Builder

end RowExpr
