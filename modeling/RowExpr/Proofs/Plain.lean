/-
  Plain expressions and their texts.

  An expression is `Plain` when all names in it can be read: its operators are builtin, or their
  names are identifiers, and so are the names of its fields. What a builder makes over plain
  expressions is plain if the names in it are such (`Request.plain_of_content`).

  The text of a plain expression closes what it opens (`Expr.Plain.passes`): strings double the
  quotes in them, and outside strings there are no parentheses and commas but those of calls.
-/
import RowExpr.Proofs.Operands
import RowExpr.Proofs.Request
import RowExpr.Proofs.Tree
import RowExpr.Proofs.Words

namespace RowExpr

open Operands

/-! ## Plain expressions -/

/-- A builtin operator, or one whose name is an identifier; if it can be written without
    parentheses it must not look like a truth value. -/
def Operator.Readable (operator : Operator) : Prop :=
  operator ∈ builtins ∨ isIdentifier operator.name = true ∧
    (operator.form = .bare → operator.name ≠ "true" ∧ operator.name ≠ "false")

/-- What one node of a plain expression says. A null is of a scalar type, and a decimal is
    written as one. -/
def Content.Readable {α : Type} : Content α → Prop
  | .literal .null type => type.isRow = false
  | .literal (.decimal spelling) _ => isDecimalText spelling = true
  | .call operator _ _ => operator.Readable
  | .access _ field => isIdentifier field.name = true
  | _ => True

/-- All nodes of the expression are readable, and carry the digest that follows from those of
    their children. -/
def Expr.Plain (e : Expr) : Prop :=
  ∀ x ∈ e.walk, x.content.Readable ∧ x.digest = x.content.digest Expr.digest

instance (operator : Operator) : Decidable operator.Readable :=
  inferInstanceAs (Decidable (_ ∨ _ ∧ (_ → _)))

instance {α : Type} (content : Content α) : Decidable content.Readable :=
  match content with
  | .literal .null type => inferInstanceAs (Decidable (type.isRow = false))
  | .literal (.decimal spelling) _ => inferInstanceAs (Decidable (isDecimalText spelling = true))
  | .call operator _ _ => inferInstanceAs (Decidable operator.Readable)
  | .access _ field => inferInstanceAs (Decidable (isIdentifier field.name = true))
  | .literal (.boolean _) _ | .literal (.integer _) _ | .literal (.string _) _
  | .inputRef _ _ | .correlation _ _ => .isTrue trivial

instance (e : Expr) : Decidable e.Plain := inferInstanceAs (Decidable (∀ x ∈ e.walk, _ ∧ _))

namespace Expr.Plain

variable {e c : Expr}

theorem readable (h : e.Plain) : e.content.Readable := (h e e.self_mem_walk).1

theorem digest_eq (h : e.Plain) : e.digest = e.content.digest Expr.digest :=
  (h e e.self_mem_walk).2

theorem child (h : e.Plain) (hc : c ∈ e.children) : c.Plain :=
  fun x hx => h x (mem_walk_of_child hc hx)

end Expr.Plain

/-- A readable node over plain expressions makes a plain expression. -/
theorem Expr.plain_place (id : NodeId) {content : Content Expr} (h : content.Readable)
    (hchildren : ∀ c ∈ content.children, c.Plain) : (Expr.place id content).Plain := by
  intro x hx
  rcases mem_walk.mp hx with rfl | ⟨c, hc, hx⟩
  · exact ⟨h, rfl⟩
  · exact hchildren c hc x hx

/-- The names that a node carries: an operator's and a field's. -/
def Content.NamesReadable {α : Type} : Content α → Prop
  | .call operator _ _ => operator.Readable
  | .access _ field => isIdentifier field.name = true
  | _ => True

/-- What is made for an accepted request, over plain expressions, is plain if its names are
    readable: nulls made so are scalar, and decimals are checked. -/
theorem Request.plain_of_content {caseSensitive : Bool} {request : Request Expr}
    {content : Content Expr} (h : request.content caseSensitive = .ok content)
    (hnodes : ∀ c ∈ request.nodes, c.Plain) (hnames : content.NamesReadable) (id : NodeId) :
    (Expr.place id content).Plain := by
  refine Expr.plain_place id ?_ fun c hc => hnodes c (children_of_content h ▸ hc)
  cases request with
  | decimal text =>
    obtain ⟨htext, rfl⟩ := content_decimal.mp h
    exact htext
  | inputRef rowType index =>
    obtain ⟨_, _, _, _, rfl⟩ := content_inputRef.mp h
    exact hnames
  | call operator operands =>
    obtain ⟨_, _, _, rfl⟩ := content_call.mp h
    exact hnames
  | typedCall operator operands type =>
    obtain ⟨_, rfl⟩ := content_typedCall.mp h
    exact hnames
  | field reference name =>
    obtain ⟨_, _, _, _, rfl⟩ := content_field.mp h
    exact hnames
  | fieldAt reference index =>
    obtain ⟨_, _, _, _, rfl⟩ := content_fieldAt.mp h
    exact hnames
  | null name => cases h; rfl
  | integer value => cases h; trivial
  | boolean value => cases h; trivial
  | string value => cases h; trivial
  | correlation cor rowType => cases h; trivial

/-- Whether a call of the operator over the operands is written as the bare name. -/
abbrev Operator.Bare {α : Type} (operator : Operator) (operands : List α) : Prop :=
  operator.form = .bare ∧ operands.isEmpty = true

/-! ## The texts of nodes -/

theorem isOrdinary_of_isWordChar {c : Char} (h : isWordChar c = true) : isOrdinary c = true := by
  refine isOrdinary_iff.mpr ⟨?_, ?_, ?_, ?_⟩ <;> rintro rfl <;> revert h <;> decide

namespace Operator

theorem ordinary_name {operator : Operator} (h : operator.Readable) :
    ∀ c ∈ operator.name.toList, isOrdinary c = true := by
  rcases h with hbuiltin | ⟨hname, -⟩
  · have hall : ∀ builtin ∈ builtins, builtin.name.toList.all isOrdinary = true := by decide
    exact List.all_eq_true.mp (hall operator hbuiltin)
  · exact fun c hc => isOrdinary_of_isWordChar ((isIdentifier_iff.mp hname).2 c hc)

/-- An operator that is written without parentheses is called as an identifier. -/
theorem isIdentifier_name {operator : Operator} (h : operator.Readable)
    (hform : operator.form = .bare) : isIdentifier operator.name = true ∧
      operator.name ≠ "true" ∧ operator.name ≠ "false" := by
  rcases h with hbuiltin | ⟨hname, hnot⟩
  · have hall : ∀ builtin ∈ builtins, builtin.form ≠ .bare := by decide
    exact absurd hform (hall operator hbuiltin)
  · exact ⟨hname, hnot hform⟩

end Operator

namespace Content

variable {α : Type} {digestOf : α → String}

theorem toList_inputRef (index : UInt64) (type : DataType) :
    ((Content.inputRef index type).digest digestOf).toList = '$' :: index.toNat.repr.toList := by
  show ("$" ++ index.toNat.repr).toList = _
  rw [String.toList_append]
  rfl

theorem toList_correlation (id : CorrelationId) (type : DataType) :
    ((Content.correlation id type).digest digestOf).toList =
      '$' :: 'c' :: 'o' :: 'r' :: id.ordinal.toNat.repr.toList := by
  show ("$cor" ++ id.ordinal.toNat.repr).toList = _
  rw [String.toList_append]
  rfl

theorem toList_string (value : String) (type : DataType) :
    ((Content.literal (.string value) type).digest digestOf).toList =
      '\'' :: Literal.doubleQuotes value.toList ++ ['\''] := by
  have hinner : (String.ofList (Literal.doubleQuotes value.toList)).toList =
      Literal.doubleQuotes value.toList := String.toList_ofList
  show ("'" ++ String.ofList (Literal.doubleQuotes value.toList) ++ "'").toList = _
  rw [String.toList_append, String.toList_append, hinner]
  rfl

theorem toList_access (reference : α) (field : Field) :
    ((Content.access reference field).digest digestOf).toList =
      (digestOf reference).toList ++ '.' :: field.name.toList := by
  show (digestOf reference ++ "." ++ field.name).toList = _
  rw [String.toList_append, String.toList_append, List.append_assoc]
  rfl

theorem toList_bare {operator : Operator} {operands : List α} (type : DataType)
    (h : operator.Bare operands) :
    ((Content.call operator operands type).digest digestOf).toList = operator.name.toList := by
  simp only [digest, if_pos h]

theorem toList_applied {operator : Operator} {operands : List α} (type : DataType)
    (h : ¬ operator.Bare operands) :
    ((Content.call operator operands type).digest digestOf).toList =
      operator.name.toList ++ ('(' :: [',', ' '].intercalate
        (operands.map fun operand => (digestOf operand).toList) ++ [')']) := by
  simp only [digest, if_neg h]
  rw [String.toList_append, String.toList_append, String.toList_append,
    String.toList_intercalate, List.map_map, List.append_assoc, List.append_assoc]
  rfl

theorem passes_literal {value : Literal} {type : DataType}
    (h : (Content.literal value type : Content α).Readable) :
    Passes 0 ((Content.literal value type).digest digestOf).toList := by
  have hnumber {text : List Char} (h : IsNumber text) : Passes 0 text := by
    refine Passes.of_ordinary fun c hc => ?_
    rcases h.mem c hc with rfl | rfl | hdigit
    · decide
    · decide
    · exact isOrdinary_of_isWordChar (isWordChar_of_isDigit hdigit)
  cases value with
  | null =>
    cases type with
    | row fields => cases h
    | scalar name nullable =>
      have htext : ("null:" ++ name.name).toList.all isOrdinary = true := by
        cases name <;> decide
      exact Passes.of_ordinary (List.all_eq_true.mp htext)
  | boolean value =>
    have htexts : "true".toList.all isOrdinary = true ∧ "false".toList.all isOrdinary = true := by
      decide
    cases value with
    | true => exact Passes.of_ordinary (List.all_eq_true.mp htexts.1)
    | false => exact Passes.of_ordinary (List.all_eq_true.mp htexts.2)
  | integer n => exact hnumber (isNumber_integer n)
  | decimal spelling => exact hnumber (isNumber_decimal h)
  | string value =>
    rw [toList_string]
    exact Passes.quoted value.toList

/-- The digest of a readable node closes what it opens if the digests of its children do. -/
theorem passes_digest {content : Content α} (h : content.Readable)
    (hchildren : ∀ c ∈ content.children, Passes 0 (digestOf c).toList) :
    Passes 0 (content.digest digestOf).toList := by
  have hdigits (n : Nat) : ∀ c ∈ n.repr.toList, isOrdinary c = true :=
    fun c hc => isOrdinary_of_isWordChar (isWordChar_of_isDigits (isDigits_repr n) c hc)
  cases content with
  | literal value type => exact passes_literal h
  | inputRef index type =>
    rw [toList_inputRef]
    exact Passes.of_ordinary (List.forall_mem_cons.mpr ⟨by decide, hdigits _⟩)
  | correlation id type =>
    have hmarker : Passes 0 ['$', 'c', 'o', 'r'] :=
      Passes.of_ordinary (List.all_eq_true.mp (by decide))
    rw [toList_correlation]
    exact hmarker.append (Passes.of_ordinary (hdigits _))
  | call operator operands type =>
    have hname := Passes.of_ordinary (Operator.ordinary_name h)
    by_cases hbare : operator.Bare operands
    · rw [toList_bare type hbare]
      exact hname
    · have hall : ∀ text ∈ operands.map fun operand => (digestOf operand).toList, Passes 0 text :=
        List.forall_mem_map.mpr hchildren
      rw [toList_applied type hbare]
      exact hname.append (passes_intercalate hall).parenthesized
  | access reference field =>
    have hname := (isIdentifier_iff.mp h).2
    rw [toList_access]
    refine (hchildren reference List.mem_cons_self).append (Passes.of_ordinary ?_)
    exact List.forall_mem_cons.mpr ⟨by decide, fun c hc => isOrdinary_of_isWordChar (hname c hc)⟩

end Content

/-- Digests of plain expressions close what they open. -/
theorem Expr.Plain.passes {e : Expr} (h : e.Plain) : Passes 0 e.digest.toList := by
  induction e using Expr.induction with
  | step e ih =>
    rw [h.digest_eq]
    exact Content.passes_digest h.readable fun c hc => ih c hc (h.child hc)

end RowExpr
