/-
  Decorrelating what is decorrelated.

  Where no access is to be replaced, a pass gives back the object it was given, whatever the
  session, and raises one warning for each access to a missing field (`replace_of_hits_nil`). If the
  variable does not occur in the replacement, this is so of what a pass comes to: neither in the
  copies of the replacement nor in the nodes above them is anything to be replaced
  (`Substituted.hits_eq_nil`), and the accesses to missing fields are the objects they were
  (`Substituted.misses_eq`). So a second pass changes nothing (`apply_again`).
-/
import RowExpr.Proofs.Remaining

namespace RowExpr

/-! ## Where a variable does not occur -/

theorem Expr.fieldThrough?_eq_none_of_notMem {e x : Expr} {v : CorrelationId}
    (h : v ∉ e.correlationIds) (hx : x ∈ e.walk) : x.fieldThrough? v = none := by
  cases hread : x.fieldThrough? v with
  | none => rfl
  | some read =>
    obtain ⟨reference, hcontent, hid⟩ := Decorrelator.fieldThrough?_eq_some hread
    have hreference : reference ∈ e.walk :=
      mem_walk_trans hx (mem_walk_of_child (mem_children_of_access hcontent) (self_mem_walk _))
    exact absurd (mem_correlationIds.mpr ⟨reference, hreference, hid⟩) h

namespace Decorrelator

variable {d : Decorrelator} {e new : Expr}

theorem fieldFor?_eq_none {x : Expr} (h : x.fieldThrough? d.target = none) :
    d.fieldFor? x = none := by
  rw [fieldFor?, h]
  rfl

/-- Whatever is put in for an access reads nothing through a variable that does not occur in the
    replacement. -/
theorem fieldThrough?_access_eq_none {v : CorrelationId} (h : v ∉ d.replacement.correlationIds)
    {id : NodeId} {found : Field} {y : Expr}
    (hy : y ∈ (Expr.place id (.access d.replacement found)).walk) : y.fieldThrough? v = none :=
  Expr.fieldThrough?_eq_none_of_notMem (fun hmem => h (mem_correlationIds_access.mp hmem)) hy

/-- If the variable does not occur in the replacement, nothing is left to be replaced. -/
theorem Substituted.hits_eq_nil (h : d.Substituted e new)
    (hfree : d.target ∉ d.replacement.correlationIds) : d.hits new = [] := by
  have hnone : ∀ y ∈ new.walk, d.fieldFor? y = none := by
    refine (h.forall_walk_iff (Q := fun _ => True) (fun x _ found _ id => ?_)
      fun x _ hnot x' hx' => ?_).mpr fun _ _ => trivial
    · exact ⟨fun y hy => fieldFor?_eq_none (fieldThrough?_access_eq_none hfree hy),
        fun _ _ => trivial⟩
    · refine iff_of_true ?_ trivial
      rwa [fieldFor?, hx'.fieldThrough?_eq hnot]
  exact List.filter_eq_nil_iff.mpr fun y hy => by rw [hnone y hy]; exact Bool.false_ne_true

/-- And the accesses to missing fields are those there were, as the same objects. -/
theorem Substituted.misses_eq (h : d.Substituted e new)
    (hfree : d.target ∉ d.replacement.correlationIds) : d.misses new = d.misses e := by
  unfold misses
  rw [← List.filterMap_eq_filter]
  refine h.filterMap_walk (fun x _ found hfound id => ?_) fun x _ hnot x' hx' => ?_
  · rw [List.filterMap_eq_filter]
    refine Eq.trans ?_ (of_fieldFor? hfound).2.symm
    refine List.filter_eq_nil_iff.mpr fun y hy => ?_
    rw [not_lacks_of_fieldThrough?_none (fieldThrough?_access_eq_none hfree hy)]
    exact Bool.false_ne_true
  · have hlacks : d.lacks x' = d.lacks x := by
      simp only [lacks, fieldFor?, hx'.fieldThrough?_eq hnot]
    cases hx : d.lacks x with
    | false => simp [Option.guard, hlacks, hx]
    | true =>
      -- an access over the variable has nothing below it that could be replaced
      obtain ⟨read, hread, -⟩ := lacks_iff.mp hx
      obtain ⟨reference, hcontent, hid⟩ := fieldThrough?_eq_some hread
      have hone : x.children = [reference] := congrArg Content.children hcontent
      have hhits : d.hits x = [] := by
        rw [hits_of_fieldFor?_none hnot, hone, List.flatMap_singleton, (hits_of_correlation? hid).1]
      rw [hx'.eq_of_hits_nil hhits]

/-! ## A pass that has nothing to replace -/

/-- The pass once warnings about these nodes were raised. -/
def warned (d : Decorrelator) (nodes : List Expr) (p : Pass) : Pass :=
  { p with session := { p.session with
      warnings := p.session.warnings ++ nodes.map d.warning } }

theorem warned_nil (p : Pass) : d.warned [] p = p := by
  simp [warned]

theorem warned_append (nodes others : List Expr) (p : Pass) :
    d.warned (nodes ++ others) p = d.warned others (d.warned nodes p) := by
  simp [warned]

/-- The warnings about a node and then about its children are those about all in it. -/
theorem warned_misses (p : Pass) :
    d.warned (d.misses e) p = d.warned (e.children.flatMap d.misses) (d.note e p) := by
  have hnote : d.note e p = d.warned (if d.lacks e then [e] else []) p := by
    unfold note
    split
    · rfl
    · exact (warned_nil p).symm
  rw [misses_eq, warned_append, hnote]

theorem replaceAll_of_hits_nil {es : List Expr}
    (h : ∀ e ∈ es, ∀ p, (e.replace d.answer).run p = (e, d.warned (d.misses e) p)) (p : Pass) :
    (Expr.replaceAll d.answer es).run p = (es, d.warned (es.flatMap d.misses) p) := by
  induction es generalizing p with
  | nil => rw [Expr.replaceAll, run_pure, List.flatMap_nil, warned_nil]
  | cons e es ih =>
    rw [Expr.replaceAll, List.flatMap_cons, warned_append]
    simp only [run_bind, run_pure, h e List.mem_cons_self,
      ih fun x hx => h x (List.mem_cons_of_mem e hx)]

/-- Where nothing is to be replaced the very input comes back, and only warnings come in. -/
theorem replace_of_hits_nil (hnone : d.hits e = []) (p : Pass) :
    (e.replace d.answer).run p = (e, d.warned (d.misses e) p) := by
  induction e using Expr.induction generalizing p with
  | step e ih =>
    rw [hits_eq, List.append_eq_nil_iff, List.flatMap_eq_nil_iff] at hnone
    obtain ⟨hself, hbelow⟩ := hnone
    have hnot : d.fieldFor? e = none := by
      by_contra hsome
      rw [if_pos (Option.isSome_iff_ne_none.mpr hsome)] at hself
      cases hself
    have hchildren := replaceAll_of_hits_nil fun c hc p => ih c hc (hbelow c hc) p
    rw [warned_misses]
    obtain ⟨id, digest, content⟩ := e
    cases content with
    | call operator operands type =>
      have hoperands : (Expr.replaceAll d.answer operands).run
          (d.note ⟨id, digest, .call operator operands type⟩ p) = _ := hchildren _
      rw [Expr.replace, offer_run, hnot]
      simp only [run_bind, run_pure, hoperands, Expr.children, Content.children, Expr.sameAll_self,
        if_true]
    | access reference field =>
      have hone : (reference.replace d.answer).run
          (d.note ⟨id, digest, .access reference field⟩ p) = _ :=
        ih reference List.mem_cons_self (hbelow reference List.mem_cons_self) _
      rw [Expr.replace, offer_run, hnot]
      simp only [run_bind, run_pure, hone, Expr.children, Content.children, List.flatMap_singleton,
        Expr.same, beq_self_eq_true, if_true]
    | literal _ _ | inputRef _ _ | correlation _ _ =>
      refine (offer_run d _ _ p).trans ?_
      rw [hnot]
      exact congrArg (Prod.mk _) (warned_nil _).symm

/-- Then the count stays as well. -/
theorem apply_of_hits_nil (hnone : d.hits e = []) (s : Session) :
    (d.apply e).run s =
      ((e, d), { s with warnings := s.warnings ++ (d.misses e).map d.warning }) := by
  have hrun : (d.apply e).run s =
      let r := (e.replace d.answer).run { session := s }
      ((r.1, { d with replaced := d.replaced + r.2.replaced }), r.2.session) := rfl
  rw [hrun, replace_of_hits_nil hnone]
  rfl

theorem missing?_eq_none (hnone : d.misses e = []) : d.missing? e = none := by
  refine List.find?_eq_none.mpr fun field hfield => ?_
  obtain ⟨x, hx, hread⟩ := List.mem_filterMap.mp hfield
  have hwalk : x ∈ e.walk := (List.mem_filter.mp (mem_of_mem_firstSeenBy hx)).1
  rw [← lacks_of_fieldThrough? hread]
  exact List.filter_eq_nil_iff.mp hnone x hwalk

/-! ## Decorrelating twice -/

section Again

variable (h : d.Substituted e new) (hfree : d.target ∉ d.replacement.correlationIds)
include h hfree

/-- Whatever was counted before. -/
theorem Substituted.apply_run (n : Nat) (t : Session) :
    ({ d with replaced := n }.apply new).run t = ((new, { d with replaced := n }),
      { t with warnings := t.warnings ++ (d.misses e).map d.warning }) := by
  rw [← h.misses_eq hfree]
  exact apply_of_hits_nil (d := { d with replaced := n }) (h.hits_eq_nil hfree) t

theorem Substituted.decorrelate_run (hnone : d.misses e = []) (n : Nat) (t : Session) :
    ({ d with replaced := n }.decorrelate new).run t =
      ((.ok new, { d with replaced := n }), t) := by
  have hmissing : { d with replaced := n }.missing? new = none :=
    missing?_eq_none ((h.misses_eq hfree).trans hnone)
  rw [decorrelate_of_missing?_none hmissing, h.apply_run hfree, hnone, List.map_nil,
    List.append_nil]

end Again

/-- If the variable does not occur in the replacement, applying a decorrelator to what it came to
    gives the same object and counts nothing, in whatever session; it warns again of the accesses
    to missing fields, which are still in place. If it did not refuse an expression, it does not
    refuse the result, which comes back as the same object, without a warning. -/
theorem apply_again (hfree : d.target ∉ d.replacement.correlationIds) {s : Session}
    (he : e.Placed s.next) :
    (∃ new d' s', (d.apply e).run s = ((new, d'), s') ∧ ∀ t, (d'.apply new).run t =
      ((new, d'), { t with warnings := t.warnings ++ (d.misses e).map d.warning })) ∧
    ∀ new d' s', (d.decorrelate e).run s = ((.ok new, d'), s') →
      ∀ t, (d'.decorrelate new).run t = ((.ok new, d'), t) := by
  obtain ⟨new, s', hrun, hnew⟩ := apply_from d d.replaced he.taken
  refine ⟨⟨new, _, s', hrun, hnew.apply_run hfree _⟩, fun new' d' s'' hok t => ?_⟩
  obtain ⟨hanswer, -⟩ := Prod.mk.inj (hrun.symm.trans (decorrelate_ok hok))
  obtain ⟨rfl, rfl⟩ := Prod.mk.inj hanswer
  exact hnew.decorrelate_run hfree (misses_eq_nil_of_decorrelate he.rendered hok) _ t

/-- The replacement reads another variable. A sum of one access to itself is not refused; beside it
    an access below another one, whose field is missing, is left in place twice. -/
theorem apply_again_nested :
    let address := DataType.ofColumns [("city", .notNull .varchar)]
    let old := DataType.ofColumns [("address", address), ("deptno", .notNull .integer)]
    let row := Row.number 0 [("deptno", .notNull .bigint)]
    let cor := Expr.place 0 (.correlation ⟨0⟩ old)
    let dept := Expr.place 1 (.access cor ⟨"deptno", 1, .notNull .integer⟩)
    let city := Expr.place 3 (.access
      (Expr.place 2 (.access cor ⟨"address", 0, address⟩)) ⟨"city", 0, .notNull .varchar⟩)
    let outer := Expr.place 4 (.correlation ⟨1⟩ (.ofColumns [("dept", .row row)]))
    let sum := Expr.place 6 (.call .plus [dept, dept] (.notNull .integer))
    let e := Expr.place 8 (.call .and
      [Expr.place 7 (.call .isNull [city] (.notNull .boolean)), sum] (.notNull .boolean))
    let d : Decorrelator :=
      ⟨⟨0⟩, Expr.place 5 (.access outer ⟨"dept", 0, .row row⟩), row, rfl, 2⟩
    d.target ∉ d.replacement.correlationIds ∧ e.Placed 9 ∧ sum.Placed 9 ∧
      (∃ new d' s', (d.apply e).run { next := 9 } = ((new, d'), s') ∧ d'.replaced = 4 ∧
        ∀ t, (d'.apply new).run t = ((new, d'),
          { t with warnings := t.warnings ++ [.noSuchField "$cor0.address" (.row row)] })) ∧
      ∃ new d' s', (d.decorrelate sum).run { next := 9 } = ((.ok new, d'), s') ∧
        d'.replaced = 4 ∧ ∀ t, (d'.decorrelate new).run t = ((.ok new, d'), t) := by
  intro address old row cor dept city outer sum e d
  have hfree : d.target ∉ d.replacement.correlationIds := by decide
  have he : e.Placed ({ next := 9 } : Session).next := ⟨by decide, by decide⟩
  have hsum : sum.Placed ({ next := 9 } : Session).next := ⟨by decide, by decide⟩
  obtain ⟨⟨new, d', s', hrun, hagain⟩, -⟩ := apply_again hfree he
  have hcount : d'.replaced = 4 := congrArg (fun r => r.1.2.replaced) hrun.symm
  refine ⟨hfree, he, hsum, ⟨new, d', s', hrun, hcount, hagain⟩, _, _, _, rfl, rfl, ?_⟩
  exact (apply_again hfree hsum).2 _ _ _ rfl

end Decorrelator
end RowExpr
