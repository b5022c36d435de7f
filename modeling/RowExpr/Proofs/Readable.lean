/-
  Digests are uniquely readable.

  Two expressions are of the `SameShape` when their trees agree apart from types, from the
  ordinals of fields, and from whether a number is kept as an integer or as a decimal. Of plain
  expressions that is what their digests say, no more and no less (`digest_eq_iff_sameShape`).

  What stands last in a digest says what the node is: `Reading.ofText` looks at the last word
  and at the character before it. The parts are then read back, a call's operands by the commas
  outside parentheses and quotes.
-/
import Mathlib.Data.List.Forall2
import RowExpr.Proofs.Plain

namespace RowExpr

open Operands

/-! ## Expressions of one shape -/

/-- One value, or an integer and a decimal that is spelled like it. -/
inductive Literal.Alike : Literal → Literal → Prop
  | same (value : Literal) : Alike value value
  | integerDecimal (n : Int64) : Alike (.integer n) (.decimal (toString n))
  | decimalInteger (n : Int64) : Alike (.decimal (toString n)) (.integer n)

/-- The trees agree at every position: in the variant of the node, in its ordinal, identifier,
    literal or name, and in the number of operands. -/
inductive SameShape : Expr → Expr → Prop
  | literal {e f : Expr} {value value' : Literal} {type type' : DataType}
    (he : e.content = .literal value type) (hf : f.content = .literal value' type')
    (hvalue : value.Alike value') (htext : value.text type = value'.text type') : SameShape e f
  | inputRef {e f : Expr} {index : UInt64} {type type' : DataType}
    (he : e.content = .inputRef index type) (hf : f.content = .inputRef index type') :
    SameShape e f
  | correlation {e f : Expr} {id : CorrelationId} {type type' : DataType}
    (he : e.content = .correlation id type) (hf : f.content = .correlation id type') :
    SameShape e f
  | call {e f : Expr} {operator operator' : Operator} {operands operands' : List Expr}
    {type type' : DataType} (he : e.content = .call operator operands type)
    (hf : f.content = .call operator' operands' type') (hname : operator.name = operator'.name)
    (hbare : operator.Bare operands ↔ operator'.Bare operands')
    (h : List.Forall₂ SameShape operands operands') : SameShape e f
  | access {e f reference reference' : Expr} {field field' : Field}
    (he : e.content = .access reference field) (hf : f.content = .access reference' field')
    (hname : field.name = field'.name) (h : SameShape reference reference') : SameShape e f

/-! ## What stands last -/

/-- What a text can be read as if it is the text of a literal. -/
inductive LiteralReading where
  | null
  | boolean
  | number
  | string
deriving DecidableEq

/-- What a text can be read as. -/
inductive Reading where
  | literal (literal : LiteralReading)
  | inputRef
  | correlation
  | call (bare : Bool)
  | access
deriving DecidableEq

def Literal.reading : Literal → LiteralReading
  | null => .null
  | boolean _ => .boolean
  | integer _ | decimal _ => .number
  | string _ => .string

def Content.reading {α : Type} : Content α → Reading
  | .literal value _ => .literal value.reading
  | .inputRef _ _ => .inputRef
  | .correlation _ _ => .correlation
  | .call operator operands _ => .call (operator.Bare operands)
  | .access _ _ => .access

namespace Reading

/-- What a text is that ends in `word`, and in `before` ahead of it. -/
def ofEnd (before : Option Char) (word : List Char) : Reading :=
  match before, word.head?.map Char.isDigit with
  | some '$', some true => .inputRef
  | some '$', _ => .correlation
  | some '.', some false => .access
  | some ':', _ => .literal .null
  | some '\'', _ => .literal .string
  | some ')', _ => .call false
  | none, some false =>
    if word = ['t', 'r', 'u', 'e'] ∨ word = ['f', 'a', 'l', 's', 'e'] then .literal .boolean
    else .call true
  | _, _ => .literal .number

/-- What a text is, from its end. -/
def ofText (text : List Char) : Reading := ofEnd (beforeWord text).getLast? (lastWord text)

theorem ofText_append {front word : List Char}
    (hfront : ∀ c ∈ front.getLast?, isWordChar c = false)
    (hword : ∀ c ∈ word, isWordChar c = true) :
    ofText (front ++ word) = ofEnd front.getLast? word := by
  unfold ofText
  rw [beforeWord_append hfront hword, lastWord_append hfront hword]

/-- A text that ends in a word behind some other character. -/
theorem ofText_behind (front : List Char) {c : Char} {word : List Char}
    (hc : isWordChar c = false) (hword : ∀ c ∈ word, isWordChar c = true) :
    ofText (front ++ c :: word) = ofEnd (some c) word := by
  have hlast : (front ++ [c]).getLast? = some c := List.getLast?_concat
  have hfront : ∀ x ∈ (front ++ [c]).getLast?, isWordChar x = false := by
    intro x hx
    rw [hlast] at hx
    cases hx
    exact hc
  have happend := ofText_append hfront hword
  rw [List.append_assoc, List.singleton_append, hlast] at happend
  exact happend

theorem ofText_number {text : List Char} (h : IsNumber text) : ofText text = .literal .number := by
  obtain ⟨front, word, rfl, hword, hlast⟩ := h.exists_end
  have hhead := head?_of_isDigits hword
  have hfront : ∀ c ∈ front.getLast?, isWordChar c = false := by
    intro c hc
    rcases hlast with hlast | hlast | hlast <;> rw [hlast] at hc <;> cases hc <;> decide
  rw [ofText_append hfront (isWordChar_of_isDigits hword)]
  unfold ofEnd
  rcases hlast with hlast | hlast | hlast <;> rw [hlast, hhead] <;> rfl

/-- A text that ends in something that is no word. -/
theorem ofText_concat (front : List Char) {c : Char} (hc : isWordChar c = false) :
    ofText (front ++ [c]) = ofEnd (some c) [] :=
  ofText_behind front hc fun _ hx => nomatch hx

end Reading

namespace Content

variable {α : Type} {digestOf : α → String}

theorem ofText_literal {value : Literal} {type : DataType}
    (h : (Content.literal value type : Content α).Readable) :
    Reading.ofText ((Content.literal value type).digest digestOf).toList =
      .literal value.reading := by
  cases value with
  | null =>
    cases type with
    | row fields => cases h
    | scalar name nullable =>
      show Reading.ofText ("null:" ++ name.name).toList = .literal .null
      cases name <;> decide
  | boolean value =>
    have hboth : Reading.ofText "true".toList = .literal .boolean ∧
        Reading.ofText "false".toList = .literal .boolean := by decide
    cases value with
    | true => exact hboth.1
    | false => exact hboth.2
  | integer n => exact Reading.ofText_number (isNumber_integer n)
  | decimal spelling => exact Reading.ofText_number (isNumber_decimal h)
  | string value =>
    rw [toList_string]
    exact Reading.ofText_concat _ (by decide)

theorem ofText_call {operator : Operator} {operands : List α} {type : DataType}
    (h : operator.Readable) :
    Reading.ofText ((Content.call operator operands type).digest digestOf).toList =
      .call (operator.Bare operands) := by
  by_cases hbare : operator.Bare operands
  · obtain ⟨hname, htrue, hfalse⟩ := Operator.isIdentifier_name h hbare.1
    obtain ⟨hhead, hword⟩ := isIdentifier_iff.mp hname
    have hnot :
        ¬ (operator.name.toList = "true".toList ∨ operator.name.toList = "false".toList) := by
      rw [String.toList_inj, String.toList_inj]
      exact not_or.mpr ⟨htrue, hfalse⟩
    have hfront : ∀ c ∈ ([] : List Char).getLast?, isWordChar c = false := fun _ hc => nomatch hc
    rw [toList_bare type hbare, decide_eq_true hbare]
    refine (Reading.ofText_append hfront hword).trans ?_
    unfold Reading.ofEnd
    rw [hhead]
    exact if_neg hnot
  · rw [toList_applied type hbare, ← List.append_assoc, Reading.ofText_concat _ (by decide),
      decide_eq_false hbare]
    rfl

/-- What a readable node is can be seen from the end of its digest. -/
theorem ofText_digest {content : Content α} (h : content.Readable) :
    Reading.ofText (content.digest digestOf).toList = content.reading := by
  cases content with
  | literal value type => exact ofText_literal h
  | inputRef index type =>
    have hdigits := isDigits_repr index.toNat
    have hend := Reading.ofText_behind [] (c := '$') (by decide) (isWordChar_of_isDigits hdigits)
    rw [toList_inputRef]
    refine hend.trans ?_
    unfold Reading.ofEnd
    rw [head?_of_isDigits hdigits]
    rfl
  | correlation id type =>
    have hdigits := isDigits_repr id.ordinal.toNat
    have hword : ∀ c ∈ 'c' :: 'o' :: 'r' :: id.ordinal.toNat.repr.toList, isWordChar c = true := by
      rw [List.forall_mem_cons, List.forall_mem_cons, List.forall_mem_cons]
      exact ⟨by decide, by decide, by decide, isWordChar_of_isDigits hdigits⟩
    rw [toList_correlation]
    exact Reading.ofText_behind [] (c := '$') (by decide) hword
  | call operator operands type => exact ofText_call h
  | access reference field =>
    obtain ⟨hhead, hword⟩ := isIdentifier_iff.mp h
    rw [toList_access, Reading.ofText_behind _ (by decide) hword]
    unfold Reading.ofEnd
    rw [hhead]
    rfl

theorem digest_ne_nil {content : Content α} (h : content.Readable) :
    (content.digest digestOf).toList ≠ [] := by
  intro hnil
  have hreading : content.reading = .literal .number :=
    (ofText_digest h).symm.trans (congrArg Reading.ofText hnil)
  -- the empty text reads as a number, and no number is empty
  cases content with
  | literal value type =>
    cases value with
    | integer n => exact (isNumber_integer n).ne_nil hnil
    | decimal spelling => exact (isNumber_decimal h).ne_nil hnil
    | _ => cases hreading
  | _ => cases hreading

end Content

theorem Expr.Plain.ne_nil {e : Expr} (h : e.Plain) : e.digest.toList ≠ [] := by
  rw [h.digest_eq]
  exact Content.digest_ne_nil h.readable

theorem Expr.Plain.child_passes {e c : Expr} (h : e.Plain) (hc : c ∈ e.children) :
    Passes 0 c.digest.toList ∧ c.digest.toList ≠ [] :=
  ⟨(h.child hc).passes, (h.child hc).ne_nil⟩

theorem Expr.Plain.reading_eq {e f : Expr} (he : e.Plain) (hf : f.Plain)
    (h : e.digest = f.digest) : e.content.reading = f.content.reading := by
  rw [← Content.ofText_digest he.readable, ← Content.ofText_digest hf.readable, ← he.digest_eq,
    ← hf.digest_eq, h]

/-! ## Reading the parts back -/

theorem Literal.doubleQuotes_inj {cs ds : List Char} (h : doubleQuotes cs = doubleQuotes ds) :
    cs = ds := by
  induction cs generalizing ds with
  | nil =>
    cases ds with
    | nil => rfl
    | cons d ds =>
      unfold doubleQuotes at h
      split at h <;> cases h
  | cons c cs ih =>
    cases ds with
    | nil =>
      unfold doubleQuotes at h
      split at h <;> cases h
    | cons d ds =>
      unfold doubleQuotes at h
      split at h <;> split at h
      · rename_i hc hd
        have hrest := ih (List.cons.inj (List.cons.inj h).2).2
        rw [hc, hd, hrest]
      · rename_i hd
        exact absurd (List.cons.inj h).1.symm hd
      · rename_i hc _
        exact absurd (List.cons.inj h).1 hc
      · obtain ⟨hfirst, hrest⟩ := List.cons.inj h
        rw [hfirst, ih hrest]

/-- Literals that read alike and have one text have one value, up to how a number is kept. -/
theorem Literal.alike_of_text_eq {value value' : Literal} {type type' : DataType}
    (hreading : value.reading = value'.reading) (h : value.text type = value'.text type') :
    value.Alike value' := by
  cases value with
  | null =>
    cases value' with
    | null => exact .same _
    | _ => cases hreading
  | boolean b =>
    cases value' with
    | boolean b' =>
      have htexts : "true" ≠ "false" := by decide
      cases b <;> cases b'
      · exact .same _
      · exact absurd h.symm htexts
      · exact absurd h htexts
      · exact .same _
    | _ => cases hreading
  | integer n =>
    cases value' with
    | integer m =>
      obtain rfl : n = m := Int64.toInt_inj.mp (repr_int_inj h)
      exact .same _
    | decimal spelling =>
      obtain rfl : toString n = spelling := h
      exact .integerDecimal n
    | _ => cases hreading
  | decimal spelling =>
    cases value' with
    | integer m =>
      obtain rfl : spelling = toString m := h
      exact .decimalInteger m
    | decimal spelling' =>
      obtain rfl : spelling = spelling' := h
      exact .same _
    | _ => cases hreading
  | string s =>
    cases value' with
    | string s' =>
      have htext : ((Content.literal (.string s) type).digest Expr.digest).toList =
          ((Content.literal (.string s') type').digest Expr.digest).toList :=
        congrArg String.toList h
      rw [Content.toList_string, Content.toList_string] at htext
      have hinner := List.append_cancel_right (List.cons.inj htext).2
      rw [String.toList_inj.mp (doubleQuotes_inj hinner)]
      exact .same _
    | _ => cases hreading

namespace Content

variable {α : Type} {digestOf : α → String}

theorem index_eq_of_digest_eq {index index' : UInt64} {type type' : DataType}
    (h : (Content.inputRef index type).digest digestOf =
      (Content.inputRef index' type').digest digestOf) : index = index' := by
  have htext := congrArg String.toList h
  rw [toList_inputRef, toList_inputRef] at htext
  have hdigits := String.toList_inj.mp (List.cons.inj htext).2
  exact UInt64.toNat_inj.mp (repr_nat_inj hdigits)

theorem id_eq_of_digest_eq {id id' : CorrelationId} {type type' : DataType}
    (h : (Content.correlation id type).digest digestOf =
      (Content.correlation id' type').digest digestOf) : id = id' := by
  have htext := congrArg String.toList h
  rw [toList_correlation, toList_correlation] at htext
  have hdigits : id.ordinal.toNat.repr.toList = id'.ordinal.toNat.repr.toList :=
    congrArg (List.drop 4) htext
  have hordinal := UInt32.toNat_inj.mp (repr_nat_inj (String.toList_inj.mp hdigits))
  exact congrArg CorrelationId.mk hordinal

theorem access_eq_of_digest_eq {reference reference' : α} {field field' : Field}
    (hname : isIdentifier field.name = true) (hname' : isIdentifier field'.name = true)
    (h : (Content.access reference field).digest digestOf =
      (Content.access reference' field').digest digestOf) :
    digestOf reference = digestOf reference' ∧ field.name = field'.name := by
  have hpoint (text : List Char) : ∀ c ∈ (text ++ ['.']).getLast?, isWordChar c = false := by
    intro c hc
    rw [List.getLast?_concat] at hc
    cases hc
    decide
  have hword := (isIdentifier_iff.mp hname).2
  have hword' := (isIdentifier_iff.mp hname').2
  have htext := congrArg String.toList h
  rw [toList_access, toList_access, List.append_cons (digestOf reference).toList,
    List.append_cons (digestOf reference').toList] at htext
  have hlast := congrArg lastWord htext
  have hbefore := congrArg beforeWord htext
  rw [lastWord_append (hpoint _) hword, lastWord_append (hpoint _) hword'] at hlast
  rw [beforeWord_append (hpoint _) hword, beforeWord_append (hpoint _) hword'] at hbefore
  exact ⟨String.toList_inj.mp (List.append_cancel_right hbefore), String.toList_inj.mp hlast⟩

theorem applied_eq_of_digest_eq {operator operator' : Operator} {operands operands' : List α}
    {type type' : DataType} (hname : operator.Readable) (hname' : operator'.Readable)
    (hbare : ¬ operator.Bare operands) (hbare' : ¬ operator'.Bare operands')
    (hpasses : ∀ c ∈ operands, Passes 0 (digestOf c).toList ∧ (digestOf c).toList ≠ [])
    (hpasses' : ∀ c ∈ operands', Passes 0 (digestOf c).toList ∧ (digestOf c).toList ≠ [])
    (h : (Content.call operator operands type).digest digestOf =
      (Content.call operator' operands' type').digest digestOf) :
    operator.name = operator'.name ∧ operands.map digestOf = operands'.map digestOf := by
  have htext := congrArg String.toList h
  rw [toList_applied type hbare, toList_applied type' hbare'] at htext
  -- no operator has a parenthesis in its name
  have hopen {operator : Operator} (h : operator.Readable) (rest : List Char) :
      (operator.name.toList ++ '(' :: rest).takeWhile (· ≠ '(') = operator.name.toList := by
    have hall : ∀ c ∈ operator.name.toList, decide (c ≠ '(') = true :=
      fun c hc => decide_eq_true (isOrdinary_iff.mp (Operator.ordinary_name h c hc)).1
    rw [List.takeWhile_append_of_pos hall, List.takeWhile_cons_of_neg (by decide), List.append_nil]
  have hfirst := congrArg (List.takeWhile (· ≠ '(')) htext
  rw [List.cons_append, List.cons_append, hopen hname, hopen hname'] at hfirst
  rw [hfirst] at htext
  have hinner := List.append_cancel_right (List.cons.inj (List.append_cancel_left htext)).2
  have htexts := intercalate_inj (List.forall_mem_map.mpr hpasses)
    (List.forall_mem_map.mpr hpasses') hinner
  refine ⟨String.toList_inj.mp hfirst, ?_⟩
  have hdigests := congrArg (List.map String.ofList) htexts
  simpa only [List.map_map, Function.comp_def, String.ofList_toList] using hdigests

end Content

/-! ## Digests and shapes -/

section Forward

variable {e f : Expr}

/-- Calls with one digest have one shape if that is so of their operands. -/
theorem sameShape_of_call {operator operator' : Operator} {operands operands' : List Expr}
    {type type' : DataType} (he : e.Plain) (hf : f.Plain)
    (hce : e.content = .call operator operands type)
    (hcf : f.content = .call operator' operands' type')
    (hbare : operator.Bare operands ↔ operator'.Bare operands')
    (htext : (Content.call operator operands type).digest Expr.digest =
      (Content.call operator' operands' type').digest Expr.digest)
    (hoperands : ∀ c ∈ operands, ∀ c' ∈ operands', c.digest = c'.digest → SameShape c c') :
    SameShape e f := by
  have hreadable := he.readable
  have hreadable' := hf.readable
  rw [hce] at hreadable
  rw [hcf] at hreadable'
  by_cases hb : operator.Bare operands
  · have hb' := hbare.mp hb
    have hname := congrArg String.toList htext
    rw [Content.toList_bare type hb, Content.toList_bare type' hb'] at hname
    have hnone := List.isEmpty_iff.mp hb.2
    have hnone' := List.isEmpty_iff.mp hb'.2
    refine .call hce hcf (String.toList_inj.mp hname) hbare ?_
    rw [hnone, hnone']
    exact .nil
  · have hb' := (not_congr hbare).mp hb
    obtain ⟨hname, hdigests⟩ := Content.applied_eq_of_digest_eq hreadable hreadable' hb hb'
      (fun c hc => he.child_passes (Expr.mem_children_of_call hce hc))
      (fun c hc => hf.child_passes (Expr.mem_children_of_call hcf hc)) htext
    exact .call hce hcf hname hbare
      (forall₂_imp_of_mem (map_eq_map_iff.mp hdigests) hoperands)

/-- Accesses with one digest have one shape if that is so of their references. -/
theorem sameShape_of_access {reference reference' : Expr} {field field' : Field} (he : e.Plain)
    (hf : f.Plain) (hce : e.content = .access reference field)
    (hcf : f.content = .access reference' field')
    (htext : (Content.access reference field).digest Expr.digest =
      (Content.access reference' field').digest Expr.digest)
    (hreference : reference.digest = reference'.digest → SameShape reference reference') :
    SameShape e f := by
  have hreadable := he.readable
  have hreadable' := hf.readable
  rw [hce] at hreadable
  rw [hcf] at hreadable'
  obtain ⟨hdigest, hname⟩ := Content.access_eq_of_digest_eq hreadable hreadable' htext
  exact .access hce hcf hname (hreference hdigest)

/-- Plain expressions with one digest have one shape: by induction on the first, the end of the
    digest says which variant both are, and the digests of their children are read back. -/
theorem sameShape_of_digest_eq (he : e.Plain) (hf : f.Plain) (h : e.digest = f.digest) :
    SameShape e f := by
  induction e using Expr.induction generalizing f with
  | step e ih =>
    have hreading := he.reading_eq hf h
    have htext : e.content.digest Expr.digest = f.content.digest Expr.digest := by
      rw [← he.digest_eq, ← hf.digest_eq, h]
    cases hce : e.content with
    | literal value type =>
      cases hcf : f.content with
      | literal value' type' =>
        rw [hce, hcf] at hreading htext
        have hvalue := Literal.alike_of_text_eq (Reading.literal.inj hreading) htext
        exact .literal hce hcf hvalue htext
      | _ =>
        rw [hce, hcf] at hreading
        cases hreading
    | inputRef index type =>
      cases hcf : f.content with
      | inputRef index' type' =>
        rw [hce, hcf] at htext
        obtain rfl := Content.index_eq_of_digest_eq htext
        exact .inputRef hce hcf
      | _ =>
        rw [hce, hcf] at hreading
        cases hreading
    | correlation id type =>
      cases hcf : f.content with
      | correlation id' type' =>
        rw [hce, hcf] at htext
        obtain rfl := Content.id_eq_of_digest_eq htext
        exact .correlation hce hcf
      | _ =>
        rw [hce, hcf] at hreading
        cases hreading
    | call operator operands type =>
      cases hcf : f.content with
      | call operator' operands' type' =>
        rw [hce, hcf] at hreading htext
        have hbare := decide_eq_decide.mp (Reading.call.inj hreading)
        refine sameShape_of_call he hf hce hcf hbare htext fun c hc c' hc' => ?_
        have hchild := Expr.mem_children_of_call hce hc
        have hchild' := Expr.mem_children_of_call hcf hc'
        exact ih c hchild (he.child hchild) (hf.child hchild')
      | _ =>
        rw [hce, hcf] at hreading
        cases hreading
    | access reference field =>
      cases hcf : f.content with
      | access reference' field' =>
        rw [hce, hcf] at htext
        have hchild := Expr.mem_children_of_access hce
        have hchild' := Expr.mem_children_of_access hcf
        exact sameShape_of_access he hf hce hcf htext
          (ih reference hchild (he.child hchild) (hf.child hchild'))
      | _ =>
        rw [hce, hcf] at hreading
        cases hreading

end Forward

theorem Operator.bare_congr {α β : Type} {operator : Operator} {operands : List α}
    {operands' : List β} (h : operands.length = operands'.length) :
    operator.Bare operands ↔ operator.Bare operands' := by
  simp only [Operator.Bare, List.isEmpty_iff_length_eq_zero, h]

/-- The children of nodes of one shape are so, one by one. -/
theorem SameShape.children {e f : Expr} (h : SameShape e f) :
    List.Forall₂ SameShape e.children f.children := by
  unfold Expr.children
  cases h with
  | literal he hf _ _ | inputRef he hf | correlation he hf =>
    rw [he, hf]
    exact .nil
  | call he hf _ _ hoperands =>
    rw [he, hf]
    exact hoperands
  | access he hf _ hreference =>
    rw [he, hf]
    exact .cons hreference .nil

/-- Two nodes that say the same as nodes of one shape, over children of the same digests, have one
    digest. -/
theorem SameShape.digest_eq {R : Expr → Expr → Prop} {e f : Expr} {content content' : Content Expr}
    (h : SameShape e f) (he : Content.Over R e.content content)
    (hf : Content.Over R f.content content')
    (hchildren : content.children.map Expr.digest = content'.children.map Expr.digest) :
    content.digest Expr.digest = content'.digest Expr.digest := by
  cases h with
  | literal hce hcf _ htext =>
    rw [hce] at he
    rw [hcf] at hf
    cases he
    cases hf
    exact htext
  | inputRef hce hcf | correlation hce hcf =>
    rw [hce] at he
    rw [hcf] at hf
    cases he
    cases hf
    rfl
  | @call _ _ operator operator' operands operands' _ _ hce hcf hname hbare _ =>
    rw [hce] at he
    rw [hcf] at hf
    cases he with
    | @call _ news _ _ hnews =>
      cases hf with
      | @call _ news' _ _ hnews' =>
        rw [Operator.bare_congr hnews.length_eq, Operator.bare_congr hnews'.length_eq] at hbare
        have hdigests : news.map Expr.digest = news'.map Expr.digest := hchildren
        simp only [Content.digest, hname, hdigests, hbare]
  | access hce hcf hname _ =>
    rw [hce] at he
    rw [hcf] at hf
    cases he
    cases hf
    obtain ⟨hdigest, -⟩ := List.cons.inj hchildren
    simp only [Content.digest, hname, hdigest]

theorem digest_eq_of_sameShape {e f : Expr} (he : e.Plain) (hf : f.Plain) (h : SameShape e f) :
    e.digest = f.digest := by
  induction e using Expr.induction generalizing f with
  | step e ih =>
    have hchildren : List.Forall₂ (fun c c' => c.digest = c'.digest) e.children f.children :=
      forall₂_imp_of_mem h.children fun c hc c' hc' => ih c hc (he.child hc) (hf.child hc')
    rw [he.digest_eq, hf.digest_eq]
    exact h.digest_eq (R := fun _ _ => True) (.refl fun _ _ => trivial) (.refl fun _ _ => trivial)
      (map_eq_map_iff.mpr hchildren)

/-- Two plain expressions have one digest exactly when their trees have one shape. -/
theorem digest_eq_iff_sameShape {e f : Expr} (he : e.Plain) (hf : f.Plain) :
    e.digest = f.digest ↔ SameShape e f :=
  ⟨sameShape_of_digest_eq he hf, digest_eq_of_sameShape he hf⟩

/-- A string with all that separates operands in it, a negative number beside a difference, and
    accesses over accesses; the second expression has other types, and columns ahead of those
    read. -/
theorem digest_eq_iff_sameShape_separators :
    let string := Expr.place 0 (.literal (.string "it's), (") (.notNull .varchar))
    let build (id : NodeId) (five : Literal) (ahead : List (String × DataType)) (type : DataType) :=
      let index := UInt64.ofNat ahead.length
      let address := DataType.ofColumns (ahead ++ [("city", type)])
      let row := DataType.ofColumns (ahead ++ [("address", address)])
      let input := Expr.place (id + 1) (.inputRef 3 type)
      let number := Expr.place (id + 2) (.literal five (.notNull .decimal))
      let difference := Expr.place (id + 3) (.call .minus [input, number] type)
      let today := Expr.place (id + 4) (.call (.identifier "today") [] type)
      let home := Expr.place (id + 6) (.access
        (Expr.place (id + 5) (.correlation ⟨0⟩ row)) ⟨"address", index, address⟩)
      let city := Expr.place (id + 7) (.access home ⟨"city", index, type⟩)
      Expr.place (id + 8)
        (.call (.function "f" (.atLeast 1)) [string, difference, today, city] type)
    let e := build 0 (.integer (-5)) [] (.notNull .integer)
    let f := build 10 (.decimal "-5") [("zip", .notNull .bigint)] (.nullable .varchar)
    e.Plain ∧ f.Plain ∧ e.digest = "f('it''s), (', -($3, -5), today, $cor0.address.city)" ∧
      SameShape e f := by
  intro string build e f
  have he : e.Plain := by decide
  have hf : f.Plain := by decide
  have hdigest : e.digest = f.digest := by decide
  exact ⟨he, hf, by decide, (digest_eq_iff_sameShape he hf).mp hdigest⟩

end RowExpr
