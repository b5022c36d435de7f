/-
  Decorrelating equal expressions.

  A decorrelator goes by the identifiers of variables and by the names of fields; the types and
  ordinals in an expression, and which parts of it are shared, make no difference. Expressions of
  one shape therefore have as many accesses to be replaced (`length_hits_eq`), and what comes of
  them has one digest (`Substituted.digest_eq`). Plain expressions that are equal have one shape,
  so equal results come of them (`apply_congr`).
-/
import RowExpr.Proofs.Readable
import RowExpr.Proofs.Substitution

namespace RowExpr

/-! ## What a decorrelator looks at -/

namespace SameShape

variable {e f : Expr}

theorem correlation?_eq (h : SameShape e f) : e.correlation? = f.correlation? := by
  unfold Expr.correlation?
  cases h with
  | literal he hf _ _ | inputRef he hf | correlation he hf | call he hf _ _ _ | access he hf _ _ =>
    rw [he, hf]

/-- One shape, one answer: an access over the variable is to read the same field. -/
theorem fieldFor?_eq (h : SameShape e f) (d : Decorrelator) : d.fieldFor? e = d.fieldFor? f := by
  unfold Decorrelator.fieldFor? Expr.fieldThrough?
  cases h with
  | access he hf hname hreference =>
    rw [he, hf]
    simp only [hreference.correlation?_eq]
    split
    · simp [hname]
    · rfl
  | literal he hf _ _ | inputRef he hf | correlation he hf | call he hf _ _ _ =>
    rw [he, hf]

end SameShape

namespace Decorrelator

variable {d : Decorrelator}

theorem length_hits_eq {e f : Expr} (h : SameShape e f) :
    (d.hits e).length = (d.hits f).length := by
  induction e using Expr.induction generalizing f with
  | step e ih =>
    have hchildren : List.Forall₂ (fun c c' => (d.hits c).length = (d.hits c').length)
        e.children f.children := forall₂_imp_of_mem h.children fun c hc _ _ => ih c hc
    have hlengths := map_eq_map_iff.mpr hchildren
    rw [hits_eq e, hits_eq f, h.fieldFor?_eq d]
    simp only [List.length_append, List.length_flatMap, hlengths]
    split <;> rfl

/-- Two lists whose members become related one by one, as they correspond to those of two others. -/
theorem forall₂_of_square {α : Type} {R S T : α → α → Prop} {as bs as' bs' : List α}
    (h : List.Forall₂ R as bs) (has : List.Forall₂ S as as') (hbs : List.Forall₂ S bs bs')
    (heach : ∀ a ∈ as, ∀ b ∈ bs, R a b → ∀ a' b', S a a' → S b b' → T a' b') :
    List.Forall₂ T as' bs' := by
  induction h generalizing as' bs' with
  | nil =>
    cases has
    cases hbs
    exact .nil
  | @cons a b as bs hfirst _ ih =>
    obtain ⟨a', as', ha, hrest, rfl⟩ := List.forall₂_cons_left_iff.mp has
    obtain ⟨b', bs', hb, hrest', rfl⟩ := List.forall₂_cons_left_iff.mp hbs
    refine .cons (heach a List.mem_cons_self b List.mem_cons_self hfirst a' b' ha hb) ?_
    exact ih hrest hrest' fun x hx y hy => heach x (List.mem_cons_of_mem a hx) y
      (List.mem_cons_of_mem b hy)

/-- What comes of expressions of one shape has one digest. -/
theorem Substituted.digest_eq {e f e' f' : Expr} (hnew : d.Substituted e e')
    (hnew' : d.Substituted f f') (he : e.Plain) (hf : f.Plain) (h : SameShape e f) :
    e'.digest = f'.digest := by
  induction e using Expr.induction generalizing f e' f' with
  | step e ih =>
    cases hfield : d.fieldFor? e with
    | some found =>
      obtain ⟨id, rfl⟩ := hnew.eq_place hfield
      obtain ⟨id', rfl⟩ := hnew'.eq_place ((h.fieldFor?_eq d).symm.trans hfield)
      rfl
    | none =>
      have hover := hnew.content_over hfield
      have hover' := hnew'.content_over ((h.fieldFor?_eq d).symm.trans hfield)
      have hchildren := forall₂_of_square h.children hover.children hover'.children
        fun c hc g hg hcg c' g' hc' hg' => ih c hc hc' hg' (he.child hc) (hf.child hg) hcg
      rw [hnew.digest_eq_content he.digest_eq, hnew'.digest_eq_content hf.digest_eq]
      exact h.digest_eq hover hover' (map_eq_map_iff.mpr hchildren)

/-- Equal plain expressions, whatever their types and whatever they share, become equal under a
    decorrelator, and its count grows by the same number: the accesses to be replaced in either. -/
theorem apply_congr (d : Decorrelator) {a b : Expr} (ha : a.Plain) (hb : b.Plain)
    (h : (a == b) = true) {s t : Session} (hs : ∀ x ∈ a.walk, x.id < s.next)
    (ht : ∀ x ∈ b.walk, x.id < t.next) (m : Nat) :
    ∃ a' b' s' t',
      (d.apply a).run s = ((a', { d with replaced := d.replaced + (d.hits a).length }), s') ∧
      ({ d with replaced := m }.apply b).run t =
        ((b', { d with replaced := m + (d.hits a).length }), t') ∧
      (a' == b') = true := by
  have hshape := sameShape_of_digest_eq ha hb (Expr.beq_iff.mp h)
  obtain ⟨a', s', hrun, hsubstituted⟩ := apply_from d d.replaced hs
  obtain ⟨b', t', hrun', hsubstituted'⟩ := apply_from d m ht
  rw [← length_hits_eq hshape] at hrun'
  have hdigest := hsubstituted.digest_eq hsubstituted' ha hb hshape
  exact ⟨a', b', s', t', hrun, hrun', Expr.beq_iff.mpr hdigest⟩

/-- A sum of one access to itself, and one of two accesses with other types over another layout;
    the replacement is an input reference. -/
theorem apply_congr_layouts :
    let old := DataType.ofColumns [("deptno", .notNull .integer)]
    let other := DataType.ofColumns [("zip", .notNull .varchar), ("deptno", .nullable .bigint)]
    let read := Expr.place 1 (.access (Expr.place 0 (.correlation ⟨0⟩ old))
      ⟨"deptno", 0, .notNull .integer⟩)
    let a := Expr.place 2 (.call .plus [read, read] (.notNull .integer))
    let again (id : NodeId) := Expr.place (id + 1) (.access
      (Expr.place id (.correlation ⟨0⟩ other)) ⟨"deptno", 1, .nullable .bigint⟩)
    let b := Expr.place 7 (.call .plus [again 3, again 5] (.nullable .bigint))
    let row := Row.number 0 [("deptno", .notNull .integer)]
    let d : Decorrelator := ⟨⟨0⟩, Expr.place 8 (.inputRef 0 (.row row)), row, rfl, 4⟩
    a.Plain ∧ b.Plain ∧ (a == b) = true ∧ (∀ x ∈ a.walk, x.id < 9) ∧ (∀ x ∈ b.walk, x.id < 9) ∧
      ∃ a' b' s' t', (d.apply a).run { next := 9 } = ((a', { d with replaced := 6 }), s') ∧
        ({ d with replaced := 0 }.apply b).run { next := 9 } =
          ((b', { d with replaced := 2 }), t') ∧ (a' == b') = true := by
  intro old other read a again b row d
  have ha : a.Plain := by decide
  have hb : b.Plain := by decide
  have h : (a == b) = true := by decide
  have hs : ∀ x ∈ a.walk, x.id < ({ next := 9 } : Session).next := by decide
  have ht : ∀ x ∈ b.walk, x.id < ({ next := 9 } : Session).next := by decide
  exact ⟨ha, hb, h, hs, ht, apply_congr d ha hb h hs ht 0⟩

end Decorrelator

end RowExpr
