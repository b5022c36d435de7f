/-
  Decorrelating by two variables, in either order.

  Where neither variable occurs in what is read in place of the other, the two passes do not get in
  each other's way: each finds the same accesses to replace before and after the other
  (`Substituted.length_hits_eq`), and at every position the results say the same
  (`Substituted.twins`). They are not the same objects, since each pass makes its own; `Twins`
  relates expressions that say the same at every position.
-/
import RowExpr.Proofs.Repeated

namespace RowExpr

/-! ## Expressions that say the same -/

/-- The two have one digest, one variant, and there the same value, ordinal, variable, operator,
    field and type, and so have their children, one by one; which objects they are is left open. -/
inductive Expr.Twins : Expr → Expr → Prop
  | intro {a b : Expr} (digest_eq : a.digest = b.digest)
    (content : Content.Over Expr.Twins a.content b.content) : Expr.Twins a b

namespace Expr.Twins

theorem digest_eq {a b : Expr} (h : Twins a b) : a.digest = b.digest := by
  obtain ⟨hdigest, -⟩ := h
  exact hdigest

theorem refl (e : Expr) : Twins e e := by
  induction e using Expr.induction with
  | step e ih => exact .intro rfl (.refl ih)

theorem symm {a b : Expr} (h : Twins a b) : Twins b a := by
  induction a using Expr.induction generalizing b with
  | step a ih =>
    obtain ⟨hdigest, hcontent⟩ := h
    exact .intro hdigest.symm (hcontent.symm fun c hc c' => ih c hc)

/-- The same content, placed twice. -/
theorem place (id id' : NodeId) (content : Content Expr) :
    Twins (Expr.place id content) (Expr.place id' content) :=
  .intro rfl (.refl fun c _ => refl c)

/-- At every position the two have nodes that say the same. -/
theorem at? {a b x : Expr} {path : List Nat} (h : Twins a b) (hx : a.at? path = some x) :
    ∃ y, b.at? path = some y ∧ Twins x y := by
  induction path generalizing a b with
  | nil =>
    obtain rfl : a = x := Option.some_inj.mp hx
    exact ⟨b, rfl, h⟩
  | cons i path ih =>
    obtain ⟨-, hcontent⟩ := h
    obtain ⟨c, hc, hx⟩ := Option.bind_eq_some_iff.mp hx
    obtain ⟨c', hc', hchild⟩ := getElem?_of_forall₂ hcontent.children hc
    rw [at?_cons, show b.children[i]? = some c' from hc']
    exact ih hchild hx

end Expr.Twins

namespace Decorrelator

variable {d d₁ d₂ : Decorrelator} {e : Expr}

/-- A node that neither of two passes replaces has its children replaced by the one, then the
    other. -/
theorem Substituted.content_over_twice {m n : Expr} (h : d₁.Substituted e m)
    (h' : d₂.Substituted m n) (hnot : d₁.fieldFor? e = none) (hnot' : d₂.fieldFor? e = none) :
    Content.Over (fun c c' => ∃ x, d₁.Substituted c x ∧ d₂.Substituted x c') e.content n.content :=
  (h.content_over hnot).comp (h'.content_over ((h.fieldFor?_eq hnot d₂).trans hnot'))

theorem hits_eq_nil_of_notMem (h : d.target ∉ e.correlationIds) : d.hits e = [] := by
  refine List.filter_eq_nil_iff.mpr fun x hx => ?_
  rw [fieldFor?_eq_none (Expr.fieldThrough?_eq_none_of_notMem h hx)]
  exact Bool.false_ne_true

/-- An access to be replaced for one variable is not over another. -/
theorem target_notMem_of_fieldFor? {found : Field} (hfound : d₁.fieldFor? e = some found)
    (hne : d₁.target ≠ d₂.target) : d₂.target ∉ e.correlationIds := by
  rw [mem_correlationIds_of_fieldFor? hfound]
  exact hne.symm

/-- An access replaced for the first variable is left alone for the second, before and after. -/
theorem Substituted.twins_of_fieldFor? {a a' b b' : Expr} {found : Field}
    (hfound : d₁.fieldFor? e = some found) (hne : d₁.target ≠ d₂.target)
    (hfree : d₂.target ∉ d₁.replacement.correlationIds) (ha : d₁.Substituted e a)
    (ha' : d₂.Substituted a a') (hb : d₂.Substituted e b) (hb' : d₁.Substituted b b') :
    Expr.Twins a' b' := by
  obtain ⟨id, rfl⟩ := ha.eq_place hfound
  obtain rfl := ha'.eq_of_hits_nil
    (hits_eq_nil_of_notMem fun hmem => hfree (mem_correlationIds_access.mp hmem))
  obtain rfl := hb.eq_of_hits_nil
    (hits_eq_nil_of_notMem (target_notMem_of_fieldFor? hfound hne))
  obtain ⟨id', rfl⟩ := hb'.eq_place hfound
  exact .place id id' _

/-- In either order the results say the same: by induction on the expression, where a node that
    neither pass replaces says the same throughout, over children that do. -/
theorem Substituted.twins {a a' b b' : Expr} (h : ∀ x ∈ e.walk, x.digest = x.render)
    (hne : d₁.target ≠ d₂.target) (hfree₁ : d₁.target ∉ d₂.replacement.correlationIds)
    (hfree₂ : d₂.target ∉ d₁.replacement.correlationIds) (ha : d₁.Substituted e a)
    (ha' : d₂.Substituted a a') (hb : d₂.Substituted e b) (hb' : d₁.Substituted b b') :
    Expr.Twins a' b' := by
  induction e using Expr.induction generalizing a a' b b' with
  | step e ih =>
    cases hfield₁ : d₁.fieldFor? e with
    | some found => exact twins_of_fieldFor? hfield₁ hne hfree₂ ha ha' hb hb'
    | none =>
      cases hfield₂ : d₂.fieldFor? e with
      | some found => exact (twins_of_fieldFor? hfield₂ hne.symm hfree₁ hb hb' ha ha').symm
      | none =>
        have htwins : Content.Over Expr.Twins a'.content b'.content := by
          refine (ha.content_over_twice ha' hfield₁ hfield₂).span
            (hb.content_over_twice hb' hfield₂ hfield₁) ?_
          rintro c hc x y ⟨x', hx', hx⟩ ⟨y', hy', hy⟩
          exact ih c hc (fun z hz => h z (Expr.mem_walk_of_child hc hz)) hx' hx hy' hy
        have hdigest := Expr.digest_eq_of_rendered h
        have ha'digest := ha'.digest_eq_content (ha.digest_eq_content hdigest)
        have hb'digest := hb'.digest_eq_content (hb.digest_eq_content hdigest)
        refine .intro ?_ htwins
        rw [ha'digest, hb'digest]
        exact htwins.digest_eq fun _ _ _ htwin => htwin.digest_eq

/-! ## What is found to be replaced -/

theorem length_hits (d : Decorrelator) (e : Expr) :
    (d.hits e).length = (e.walk.filterMap d.fieldFor?).length := by
  rw [List.length_filterMap_eq_countP, hits, List.countP_eq_length_filter]

/-- As many accesses are to be replaced for one variable after a pass for another as before. -/
theorem Substituted.length_hits_eq {new : Expr} (h : d₂.Substituted e new)
    (hne : d₁.target ≠ d₂.target) (hfree : d₁.target ∉ d₂.replacement.correlationIds) :
    (d₁.hits new).length = (d₁.hits e).length := by
  have hnone {x : Expr} (hx : d₁.target ∉ x.correlationIds) :
      x.walk.filterMap d₁.fieldFor? = [] :=
    List.filterMap_eq_nil_iff.mpr fun y hy =>
      fieldFor?_eq_none (Expr.fieldThrough?_eq_none_of_notMem hx hy)
  rw [length_hits, length_hits, h.filterMap_walk]
  · intro x _ found hfound id
    rw [hnone (target_notMem_of_fieldFor? hfound hne.symm)]
    exact hnone fun hmem => hfree (mem_correlationIds_access.mp hmem)
  · intro x _ hnot x' hx'
    exact hx'.fieldFor?_eq hnot d₁

/-! ## Two passes -/

/-- One order: the second pass counts what it would have counted in the input. -/
theorem apply_then_apply {n : NodeId} (he : e.Placed n) (h₁ : d₁.replacement.Placed n)
    (hne : d₁.target ≠ d₂.target) (hfree : d₂.target ∉ d₁.replacement.correlationIds)
    {s : Session} (hs : n ≤ s.next) (m₁ m₂ : Nat) :
    ∃ a s' a' s'',
      ({ d₁ with replaced := m₁ }.apply e).run s =
        ((a, { d₁ with replaced := m₁ + (d₁.hits e).length }), s') ∧
      ({ d₂ with replaced := m₂ }.apply a).run s' =
        ((a', { d₂ with replaced := m₂ + (d₂.hits e).length }), s'') ∧
      d₁.Substituted e a ∧ d₂.Substituted a a' := by
  obtain ⟨a, s', hrun, ha⟩ := apply_from d₁ m₁ (he.mono hs).taken
  obtain ⟨-, -, hplaced, -⟩ :=
    apply_yields (d := { d₁ with replaced := m₁ }) h₁ he s trivial hs
  rw [hrun] at hplaced
  obtain ⟨a', s'', hrun', ha'⟩ := apply_from d₂ m₂ hplaced.taken
  rw [ha.length_hits_eq hne.symm hfree] at hrun'
  exact ⟨a, s', a', s'', hrun, hrun', ha, ha'⟩

/-- Two decorrelators for different variables, neither of which occurs in the replacement of the
    other, come to expressions that say the same at every position in whichever order they are
    applied, in whatever sessions, and each counts the same accesses in either order, whatever it
    counted before: those to be replaced in the expression that both start from. -/
theorem apply_comm {n : NodeId} (he : e.Placed n) (h₁ : d₁.replacement.Placed n)
    (h₂ : d₂.replacement.Placed n) (hne : d₁.target ≠ d₂.target)
    (hfree₁ : d₁.target ∉ d₂.replacement.correlationIds)
    (hfree₂ : d₂.target ∉ d₁.replacement.correlationIds) {s t : Session} (hs : n ≤ s.next)
    (ht : n ≤ t.next) (m₁ m₂ : Nat) :
    ∃ a s' a' s'' b t' b' t'',
      (d₁.apply e).run s = ((a, { d₁ with replaced := d₁.replaced + (d₁.hits e).length }), s') ∧
      (d₂.apply a).run s' =
        ((a', { d₂ with replaced := d₂.replaced + (d₂.hits e).length }), s'') ∧
      ({ d₂ with replaced := m₂ }.apply e).run t =
        ((b, { d₂ with replaced := m₂ + (d₂.hits e).length }), t') ∧
      ({ d₁ with replaced := m₁ }.apply b).run t' =
        ((b', { d₁ with replaced := m₁ + (d₁.hits e).length }), t'') ∧
      Expr.Twins a' b' := by
  obtain ⟨a, s', a', s'', hrun₁, hrun₂, ha, ha'⟩ :=
    apply_then_apply he h₁ hne hfree₂ hs d₁.replaced d₂.replaced
  obtain ⟨b, t', b', t'', hrun₂', hrun₁', hb, hb'⟩ :=
    apply_then_apply he h₂ hne.symm hfree₁ ht m₂ m₁
  exact ⟨a, s', a', s'', b, t', b', t'', hrun₁, hrun₂, hrun₂', hrun₁',
    ha.twins he.rendered hne hfree₁ hfree₂ ha' hb hb'⟩

/-- Variables 0 and 1, read from variables 2 and 3. An access below another one, whose field is
    missing for variable 0, holds nothing up. -/
theorem apply_comm_two_blocks :
    let address := DataType.ofColumns [("city", .notNull .varchar)]
    let old := DataType.ofColumns [("address", address), ("deptno", .notNull .integer)]
    let cor := Expr.place 0 (.correlation ⟨0⟩ old)
    let dept := Expr.place 1 (.access cor ⟨"deptno", 1, .notNull .integer⟩)
    let city := Expr.place 3 (.access
      (Expr.place 2 (.access cor ⟨"address", 0, address⟩)) ⟨"city", 0, .notNull .varchar⟩)
    let place := Expr.place 5 (.access
      (Expr.place 4 (.correlation ⟨1⟩ old)) ⟨"address", 0, address⟩)
    let compared := Expr.place 7 (.call .equals
      [Expr.place 6 (.access place ⟨"city", 0, .notNull .varchar⟩), city] (.notNull .boolean))
    let e := Expr.place 9 (.call .and
      [compared, Expr.place 8 (.call .equals [dept, dept] (.notNull .boolean))] (.notNull .boolean))
    let row₁ := Row.number 0 [("deptno", .notNull .bigint)]
    let row₂ := Row.number 0 [("loc", .notNull .varchar), ("address", address)]
    let d₁ : Decorrelator := ⟨⟨0⟩, Expr.place 10 (.correlation ⟨2⟩ (.row row₁)), row₁, rfl, 0⟩
    let d₂ : Decorrelator := ⟨⟨1⟩, Expr.place 11 (.correlation ⟨3⟩ (.row row₂)), row₂, rfl, 5⟩
    e.Placed 12 ∧ ∃ a s' a' s'' b t' b' t'',
      (d₁.apply e).run { next := 20 } = ((a, { d₁ with replaced := 2 }), s') ∧
      (d₂.apply a).run s' = ((a', { d₂ with replaced := 6 }), s'') ∧
      (d₂.apply e).run { next := 30 } = ((b, { d₂ with replaced := 6 }), t') ∧
      (d₁.apply b).run t' = ((b', { d₁ with replaced := 2 }), t'') ∧
      Expr.Twins a' b' ∧ ∃ x y, a'.at? [0, 0] = some x ∧ b'.at? [0, 0] = some y ∧
        Expr.Twins x y ∧ y.digest = "$cor3.address.city" := by
  intro address old cor dept city place compared e row₁ row₂ d₁ d₂
  have he : e.Placed 12 := ⟨by decide, by decide⟩
  have h₁ : d₁.replacement.Placed 12 := ⟨by decide, by decide⟩
  have h₂ : d₂.replacement.Placed 12 := ⟨by decide, by decide⟩
  have hs : 12 ≤ ({ next := 20 } : Session).next := by decide
  have ht : 12 ≤ ({ next := 30 } : Session).next := by decide
  obtain ⟨a, s', a', s'', b, t', b', t'', hrun₁, hrun₂, hrun₂', hrun₁', htwins⟩ :=
    apply_comm he h₁ h₂ (by decide) (by decide) (by decide) hs ht 0 5
  refine ⟨he, a, s', a', s'', b, t', b', t'', hrun₁, hrun₂, hrun₂', hrun₁', htwins, ?_⟩
  have hread : (((d₂.apply ((d₁.apply e).run { next := 20 }).1.1).run
      ((d₁.apply e).run { next := 20 }).2).1.1.at? [0, 0]).map Expr.digest =
        some "$cor3.address.city" := by
    decide +kernel
  rw [hrun₁, hrun₂] at hread
  obtain ⟨x, hx, hdigest⟩ := Option.map_eq_some_iff.mp hread
  obtain ⟨y, hy, hsame⟩ := htwins.at? hx
  exact ⟨x, y, hx, hy, hsame, hsame.digest_eq.symm.trans hdigest⟩

end Decorrelator
end RowExpr
