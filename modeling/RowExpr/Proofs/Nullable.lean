/-
  When the type of a call allows null.

  A node comes back with the type its request asks for, shared or not (`type_of_make`), so
  whether the node of a call may be null is a matter of the rule for its type. Null tests are
  never null. Comparisons and logical operators may be null exactly if an operand may. For
  arithmetic the same holds as long as the first operand is no row: arithmetic takes over its
  type, and a row type stays as it is, without null (`row_sum_not_null`).
-/
import RowExpr.Proofs.History

namespace RowExpr

/-! ## The rule -/

namespace Request

/-- Some operand may be null. -/
def SomeNullable (operands : List Expr) : Prop :=
  ∃ operand ∈ operands, operand.type.isNullable = true

variable {operator : Operator} {operands : List Expr} {type : DataType}

theorem any_isNullable_iff :
    (operands.any fun operand => operand.type.isNullable) = true ↔ SomeNullable operands :=
  List.any_eq_true

theorem callType?_nullTest (hkind : operator.kind.isNullTest = true)
    (h : callType? operator operands = some type) : type = .notNull .boolean := by
  unfold callType? at h
  rw [if_pos hkind] at h
  exact (Option.some_inj.mp h).symm

theorem callType?_boolean
    (hkind : operator.kind.isComparison = true ∨ operator.kind.isLogical = true)
    (h : callType? operator operands = some type) :
    type = .scalar .boolean (operands.any fun operand => operand.type.isNullable) := by
  unfold callType? at h
  rw [Kind.isNullTest_eq_false hkind, if_neg Bool.false_ne_true,
    if_pos (Bool.or_eq_true_iff.mpr hkind)] at h
  exact (Option.some_inj.mp h).symm

theorem callType?_arithmetic (hkind : operator.kind.isArithmetic = true)
    (h : callType? operator operands = some type) :
    ∃ first ∈ operands.head?, type =
      first.type.withNullability (operands.any fun operand => operand.type.isNullable) := by
  obtain ⟨hnullTest, hboolean⟩ := Kind.eq_false_of_isArithmetic hkind
  unfold callType? at h
  rw [hnullTest, hboolean, if_neg Bool.false_ne_true, if_neg Bool.false_ne_true, if_pos hkind] at h
  obtain ⟨first, hfirst, htype⟩ := Option.map_eq_some_iff.mp h
  exact ⟨first, hfirst, htype.symm⟩

end Request

/-! ## The types of nodes that come back -/

/-- What is cached under a type has it. -/
theorem DigestCache.type_of_get? {cache : DigestCache} {digest : String} {type : DataType}
    {known : Expr} (h : cache.get? digest type = some known) : known.type = type := by
  obtain ⟨bucket, -, hfound⟩ := Option.bind_eq_some_iff.mp h
  simpa using List.find?_some hfound

theorem DigestCache.type_intern (cache : DigestCache) (node : Expr) (s : Session) :
    ((cache.intern node).run s).1.1.type = node.type := by
  rw [intern_answer]
  cases hget : cache.get? node.digest node.type with
  | some known => exact type_of_get? hget
  | none => rfl

namespace Builder

/-- A node is handed back as a node of its type, whatever is cached. -/
theorem type_register (builder : Builder) (content : Content Expr) (s : Session) :
    ((builder.register content).run s).1.1.type = content.type := by
  unfold register
  rw [run_bind, Session.place_run]
  split
  · exact DigestCache.type_intern builder.cache (Expr.place s.next content) _
  · rfl

/-- The node of a call has the type of the rule. -/
theorem type_of_make {builder : Builder} {s : Session} {operator : Operator}
    {operands : List Expr} {e : Expr}
    (h : ((builder.make (.call operator operands)).run s).1.1 = .ok e) :
    Request.callType? operator operands = some e.type := by
  cases hc : (Request.call operator operands).content builder.config.caseSensitive with
  | error cause =>
    rw [make_error s hc] at h
    cases h
  | ok content =>
    rw [make_ok s hc] at h
    obtain ⟨-, type, htype, rfl⟩ := Request.content_call.mp hc
    obtain rfl := Except.ok.inj h
    rw [htype]
    exact congrArg some (type_register builder (.call operator operands type) s).symm

/-- A null test is never null. A comparison or a logical operator may be null exactly if some
    operand may. So may arithmetic if its first operand is no row; if it is one, so is the
    result, which then is never null, even where an operand may be. -/
theorem call_nullable_iff {builder : Builder} {s : Session} {operator : Operator}
    {operands : List Expr} {e : Expr}
    (h : ((builder.make (.call operator operands)).run s).1.1 = .ok e) :
    (operator.kind.isNullTest = true → e.type.isNullable = false) ∧
    (operator.kind.isComparison = true ∨ operator.kind.isLogical = true →
      (e.type.isNullable = true ↔ Request.SomeNullable operands)) ∧
    (operator.kind.isArithmetic = true → ∃ first ∈ operands.head?,
      (first.type.isRow = true → e.type = first.type) ∧
      ((e.type.isNullable = true ↔ Request.SomeNullable operands) ↔
        first.type.isRow = false ∨ ¬ Request.SomeNullable operands)) := by
  have htype := type_of_make h
  refine ⟨fun hkind => ?_, fun hkind => ?_, fun hkind => ?_⟩
  · rw [Request.callType?_nullTest hkind htype]
    rfl
  · rw [Request.callType?_boolean hkind htype]
    exact Request.any_isNullable_iff
  · obtain ⟨first, hfirst, he⟩ := Request.callType?_arithmetic hkind htype
    refine ⟨first, hfirst, fun hrow => ?_, ?_⟩
    · obtain ⟨row, hfields⟩ := Option.isSome_iff_exists.mp hrow
      rw [he, DataType.row?_eq_some_iff.mp hfields]
      rfl
    · rw [he, DataType.isNullable_withNullability_iff, Request.any_isNullable_iff]
      cases first.type.isRow <;> by_cases hsome : Request.SomeNullable operands <;> simp [hsome]

/-- A number and a column that may be null: so may their sum, and the comparison with it, but
    not the test whether it is null. -/
theorem call_nullable_column :
    let row := DataType.ofColumns [("deptno", .nullable .integer)]
    let dept := Expr.place 0 (.inputRef 0 (.nullable .integer))
    let ten := Expr.place 1 (.literal (.integer 10) (.notNull .integer))
    let sum := Expr.place 2 (.call .plus [ten, dept] (.nullable .integer))
    let compared := Expr.place 3 (.call .equals [ten, sum] (.nullable .boolean))
    let test := Expr.place 3 (.call .isNull [sum] (.notNull .boolean))
    let calls : List Call := [⟨{}, .inputRef row 0⟩, ⟨{ next := 1 }, .integer 10⟩,
      ⟨{ next := 2 }, .call .plus [ten, dept]⟩]
    let make := fun request => (((after {} calls).make request).run { next := 3 }).1.1
    make (.call .plus [ten, dept]) = .ok sum ∧ sum.type.isNullable = true ∧
      make (.call .equals [ten, sum]) = .ok compared ∧ compared.type.isNullable = true ∧
      make (.call .isNull [sum]) = .ok test ∧ test.type.isNullable = false := by
  intro row dept ten sum compared test calls make
  have hsum : make (.call .plus [ten, dept]) = .ok sum := rfl
  have hcompared : make (.call .equals [ten, sum]) = .ok compared := rfl
  have htest : make (.call .isNull [sum]) = .ok test := rfl
  obtain ⟨first, hfirst, -, hiff⟩ := (call_nullable_iff hsum).2.2 rfl
  obtain rfl := Option.some_inj.mp hfirst
  have hnullable : sum.type.isNullable = true :=
    (hiff.mpr (Or.inl rfl)).mpr ⟨dept, List.mem_cons_of_mem _ List.mem_cons_self, rfl⟩
  refine ⟨hsum, hnullable, hcompared, ?_, htest, (call_nullable_iff htest).1 rfl⟩
  exact ((call_nullable_iff hcompared).2.1 (Or.inl rfl)).mpr
    ⟨sum, List.mem_cons_of_mem _ List.mem_cons_self, hnullable⟩

/-- A row and a column that may be null: their sum has the row's type, which excludes null, and
    a comparison with the sum excludes it too. -/
theorem row_sum_not_null :
    let row := DataType.ofColumns [("deptno", .nullable .integer)]
    let cor := Expr.place 0 (.correlation ⟨0⟩ row)
    let dept := Expr.place 1 (.inputRef 0 (.nullable .integer))
    let one := Expr.place 2 (.literal (.integer 1) (.notNull .integer))
    let calls : List Call := [⟨{}, .correlation ⟨0⟩ row⟩, ⟨{ next := 1 }, .inputRef row 0⟩,
      ⟨{ next := 2 }, .integer 1⟩]
    let make := fun request => (((after {} calls).make request).run { next := 3 }).1.1
    ∃ sum compared, make (.call .plus [cor, dept]) = .ok sum ∧ dept.type.isNullable = true ∧
      sum.type = row ∧ sum.type.isNullable = false ∧
      make (.call .equals [sum, one]) = .ok compared ∧ compared.type = .notNull .boolean :=
  ⟨_, _, rfl, rfl, rfl, rfl, rfl, rfl⟩

end Builder
end RowExpr
