/-
  Which calls still have the type of the rule once an expression is decorrelated.

  The type of a comparison, a logical operator, a null test or an arithmetic operator follows from
  the types of the operands. A call is `Typed` if it has that type; calls of other operators may
  have any.

  An access over the variable takes over the type of the field it is to read, while a call
  above it is put over the new operands with the type it had. `decorrelate_typed_iff` says when
  that is still right: the rule must give the same for the types after as for those before.
  This holds where every field read through the variable has the same type in the replacement
  (`decorrelate_typed_of_same_types`), and not otherwise: a comparison typed NOT NULL can end
  up with a nullable operand (`decorrelate_untyped`).
-/
import RowExpr.Proofs.Request
import RowExpr.Proofs.Resolved

namespace RowExpr

/-- Whether the type of a call of this kind follows from its operands. -/
def Kind.isRuled (kind : Kind) : Bool :=
  kind.isComparison || kind.isLogical || kind.isNullTest || kind.isArithmetic

namespace Expr

/-- A call of a ruled kind has the type that follows from its operands; other nodes are typed as
    they are. -/
def Typed (x : Expr) : Prop :=
  ∀ operator operands type, x.content = .call operator operands type →
    operator.kind.isRuled = true → Request.callType? operator operands = some type

/-- All calls in the expression are typed, at any depth. -/
def AllTyped (e : Expr) : Prop := ∀ x ∈ e.walk, x.Typed

/-- What is said of a node if it is a call is said of the call that it is. -/
theorem forall_call_iff {P : Operator → List Expr → DataType → Prop} {x : Expr}
    {operator : Operator} {operands : List Expr} {type : DataType}
    (h : x.content = .call operator operands type) :
    (∀ operator' operands' type', x.content = .call operator' operands' type' →
      P operator' operands' type') ↔ P operator operands type := by
  constructor
  · intro hx
    exact hx operator operands type h
  · intro hp operator' operands' type' h'
    cases h.symm.trans h'
    exact hp

theorem typed_call_iff {x : Expr} {operator : Operator} {operands : List Expr} {type : DataType}
    (h : x.content = .call operator operands type) :
    x.Typed ↔
      (operator.kind.isRuled = true → Request.callType? operator operands = some type) :=
  forall_call_iff h

instance (x : Expr) : Decidable x.Typed :=
  match hcontent : x.content with
  | .call _ _ _ => decidable_of_iff _ (typed_call_iff hcontent).symm
  | .literal _ _ | .inputRef _ _ | .correlation _ _ | .access _ _ =>
    .isTrue fun _ _ _ hcall => nomatch hcontent.symm.trans hcall

instance (e : Expr) : Decidable e.AllTyped :=
  inferInstanceAs (Decidable (∀ x ∈ e.walk, x.Typed))

end Expr

namespace Decorrelator

variable {d : Decorrelator}

/-- The type that stands in place of that of `e`: of an access to be replaced, the type of the
    field to be read; otherwise the same. -/
def typeAfter (d : Decorrelator) (e : Expr) : DataType :=
  match d.fieldFor? e with
  | some found => found.type
  | none => e.type

theorem Substituted.type_eq_typeAfter {e new : Expr} (h : d.Substituted e new) :
    new.type = d.typeAfter e := by
  unfold typeAfter
  cases hfield : d.fieldFor? e with
  | some found => exact h.type_of_fieldFor? hfield
  | none => exact h.type_eq hfield

theorem types_eq_typesAfter {es news : List Expr} (h : List.Forall₂ d.Substituted es news) :
    news.map Expr.type = es.map d.typeAfter := by
  induction h with
  | nil => rfl
  | cons hfirst _ ih => rw [List.map_cons, List.map_cons, hfirst.type_eq_typeAfter, ih]

/-- If `x` is a call of a ruled kind, the rule gives for the types after what it gives for those
    before. -/
def KeepsRule (d : Decorrelator) (x : Expr) : Prop :=
  ∀ operator operands type, x.content = .call operator operands type →
    operator.kind.isRuled = true →
      Request.typeOver? operator.kind (operands.map d.typeAfter) =
        Request.callType? operator operands

theorem keepsRule_call_iff {x : Expr} {operator : Operator} {operands : List Expr}
    {type : DataType} (h : x.content = .call operator operands type) :
    d.KeepsRule x ↔ (operator.kind.isRuled = true →
      Request.typeOver? operator.kind (operands.map d.typeAfter) =
        Request.callType? operator operands) :=
  Expr.forall_call_iff h

instance (x : Expr) : Decidable (d.KeepsRule x) :=
  match hcontent : x.content with
  | .call _ _ _ => decidable_of_iff _ (keepsRule_call_iff hcontent).symm
  | .literal _ _ | .inputRef _ _ | .correlation _ _ | .access _ _ =>
    .isTrue fun _ _ _ hcall => nomatch hcontent.symm.trans hcall

/-- Of a node that stays: what stands for it is typed exactly when the rule gives the same. -/
theorem Substituted.typed_iff {x x' : Expr} (h : d.Substituted x x')
    (hnot : d.fieldFor? x = none) (hx : x.Typed) : x'.Typed ↔ d.KeepsRule x := by
  have hover := h.content_over hnot
  generalize hcontent : x.content = content, hcontent' : x'.content = content' at hover
  cases hover with
  | call operator type hoperands =>
    rw [Expr.typed_call_iff hcontent] at hx
    rw [Expr.typed_call_iff hcontent', keepsRule_call_iff hcontent]
    refine forall_congr' fun hruled => ?_
    rw [Request.callType?_eq, types_eq_typesAfter hoperands, hx hruled]
  | literal _ _ | inputRef _ _ | correlation _ _ | access _ _ =>
    exact iff_of_true (fun _ _ _ hcall => nomatch hcontent'.symm.trans hcall)
      fun _ _ _ hcall => nomatch hcontent.symm.trans hcall

/-- The access that takes a replaced one's place has no calls but those of the replacement. -/
theorem replaced_allTyped (hreplacement : d.replacement.AllTyped) (id : NodeId) (found : Field) :
    (Expr.place id (.access d.replacement found)).AllTyped := by
  unfold Expr.AllTyped
  refine Expr.forall_walk_iff.mpr ⟨fun _ _ _ hcall => (nomatch hcall), fun c hc => ?_⟩
  rw [List.mem_singleton.mp hc]
  exact hreplacement

/-- There are no calls in an access to be replaced. -/
theorem keepsRule_of_fieldFor? {e : Expr} {found : Field} (h : d.fieldFor? e = some found) :
    ∀ x ∈ e.walk, d.KeepsRule x := by
  obtain ⟨reference, read, type, hcontent, hvariable, hwalk⟩ := walk_of_fieldFor? h
  rw [hwalk, List.forall_mem_cons, List.forall_mem_singleton]
  exact ⟨fun _ _ _ hcall => (nomatch hcontent.symm.trans hcall),
    fun _ _ _ hcall => nomatch hvariable.symm.trans hcall⟩

theorem Substituted.allTyped_iff (hreplacement : d.replacement.AllTyped) {e new : Expr}
    (h : d.Substituted e new) (he : e.AllTyped) : new.AllTyped ↔ ∀ x ∈ e.walk, d.KeepsRule x :=
  h.forall_walk_iff
    (fun _ _ found hfound id =>
      ⟨replaced_allTyped hreplacement id found, keepsRule_of_fieldFor? hfound⟩)
    fun x hx hnot _ hx' => hx'.typed_iff hnot (he x hx)

/-! ## Decorrelating -/

/-- If all calls of the expression and of the replacement are typed, then all those of a
    decorrelated expression are exactly when the rule gives, for each call of a ruled kind, the
    same type over its operands afterwards as over those before. -/
theorem decorrelate_typed_iff {e new : Expr} {d' : Decorrelator} {s s' : Session}
    (htaken : ∀ x ∈ e.walk, x.id < s.next) (hreplacement : d.replacement.AllTyped)
    (he : e.AllTyped) (hrun : (d.decorrelate e).run s = ((.ok new, d'), s')) :
    new.AllTyped ↔ ∀ x ∈ e.walk, ∀ operator operands type,
      x.content = .call operator operands type → operator.kind.isRuled = true →
        Request.typeOver? operator.kind (operands.map d.typeAfter) =
          Request.callType? operator operands :=
  (substituted_of_decorrelate htaken hrun).allTyped_iff hreplacement he

/-- Where every field is read instead of one of its own type, all calls stay typed. -/
theorem decorrelate_typed_of_same_types {e new : Expr} {d' : Decorrelator} {s s' : Session}
    (htaken : ∀ x ∈ e.walk, x.id < s.next) (hreplacement : d.replacement.AllTyped)
    (he : e.AllTyped) (hrun : (d.decorrelate e).run s = ((.ok new, d'), s'))
    (hsame : ∀ x ∈ e.walk, ∀ found, d.fieldFor? x = some found → found.type = x.type) :
    new.AllTyped := by
  refine ((substituted_of_decorrelate htaken hrun).allTyped_iff hreplacement he).mpr ?_
  intro x hx operator operands type hcontent _
  have hafter : operands.map d.typeAfter = operands.map Expr.type := by
    refine List.map_congr_left fun c hc => ?_
    have hwalk : c ∈ e.walk := Expr.mem_walk_trans hx
      (Expr.mem_walk_of_child (Expr.mem_children_of_call hcontent hc) c.self_mem_walk)
    unfold typeAfter
    cases hfield : d.fieldFor? c with
    | some found => exact hsame c hwalk found hfield
    | none => rfl
  rw [hafter, Request.callType?_eq]

/-- A comparison with a nullable column stays nullable when the other side becomes so too, and
    a null test of that side stays NOT NULL. -/
theorem decorrelate_typed_nullable :
    let old := DataType.ofColumns [("deptno", .notNull .integer)]
    let row := Row.number 0 [("dname", .notNull .varchar), ("deptno", .nullable .bigint)]
    let read := Expr.place 1 (.access
      (Expr.place 0 (.correlation ⟨0⟩ old)) ⟨"deptno", 0, .notNull .integer⟩)
    let input := Expr.place 2 (.inputRef 1 (.nullable .integer))
    let e := Expr.place 5 (.call .or
      [Expr.place 3 (.call .equals [input, read] (.nullable .boolean)),
        Expr.place 4 (.call .isNull [read] (.notNull .boolean))] (.nullable .boolean))
    let d : Decorrelator := ⟨⟨0⟩, Expr.place 6 (.correlation ⟨1⟩ (.row row)), row, rfl, 0⟩
    (∀ x ∈ e.walk, x.id < 7) ∧ d.replacement.AllTyped ∧ e.AllTyped ∧
      ∃ new d' s', (d.decorrelate e).run { next := 7 } = ((.ok new, d'), s') ∧
        new.digest = "OR(=($1, $cor1.deptno), IS NULL($cor1.deptno))" ∧ new.AllTyped := by
  intro old row read input e d
  have htaken : ∀ x ∈ e.walk, x.id < ({ next := 7 } : Session).next := by decide
  have hreplacement : d.replacement.AllTyped := by decide
  have he : e.AllTyped := by decide
  have hkeeps : ∀ x ∈ e.walk, d.KeepsRule x := by decide
  exact ⟨htaken, hreplacement, he, _, _, _, rfl, rfl,
    (decorrelate_typed_iff htaken hreplacement he rfl).mpr hkeeps⟩

/-- A comparison of two NOT NULL sides, of which one becomes nullable: it keeps the type
    BOOLEAN NOT NULL, where the rule gives BOOLEAN. -/
theorem decorrelate_untyped :
    let old := DataType.ofColumns [("deptno", .notNull .integer)]
    let row := Row.number 0 [("deptno", .nullable .integer)]
    let read := Expr.place 1 (.access
      (Expr.place 0 (.correlation ⟨0⟩ old)) ⟨"deptno", 0, .notNull .integer⟩)
    let input := Expr.place 2 (.inputRef 0 (.notNull .integer))
    let e := Expr.place 3 (.call .equals [input, read] (.notNull .boolean))
    let d : Decorrelator := ⟨⟨0⟩, Expr.place 4 (.correlation ⟨1⟩ (.row row)), row, rfl, 0⟩
    d.replacement.AllTyped ∧ e.AllTyped ∧
      ∃ new d' s', (d.decorrelate e).run { next := 5 } = ((.ok new, d'), s') ∧
        (∃ read', new.content = .call .equals [input, read'] (.notNull .boolean) ∧
          read'.type = .nullable .integer ∧
          Request.callType? .equals [input, read'] = some (.nullable .boolean)) ∧
        ¬ new.AllTyped := by
  intro old row read input e d
  refine ⟨by decide, by decide, _, _, _, rfl, ⟨_, rfl, rfl, rfl⟩, ?_⟩
  decide

end Decorrelator
end RowExpr
