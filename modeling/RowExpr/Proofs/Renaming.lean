/-
  Reading another variable in place of one, and back.

  Where the replacement is a variable that does not occur in the expression, what is read through it
  afterwards is what was read through the old one, field by field: of each name the first field of
  the new row (`Substituted.fieldsThrough_eq`), so the analysis lists the corresponding fields in
  the same order. A decorrelator the other way round then finds each of them, and writes every
  access as it was (`Substituted.digest_eq_of_renamed`), if its row has all the names. Bare
  occurrences of the old variable stay throughout.
-/
import RowExpr.Proofs.Analyses
import RowExpr.Proofs.Commuting

namespace RowExpr.Decorrelator

variable {d back : Decorrelator} {e m n : Expr}

/-- The field to read in place of `read`: the first one of its name. -/
def instead? (d : Decorrelator) (read : Field) : Option Field :=
  d.row.find? fun field => field.name = read.name

theorem name_of_instead? {read found : Field} (h : d.instead? read = some found) :
    found.name = read.name := by
  simpa using List.find?_some h

theorem isSome_instead?_iff {read : Field} :
    (d.instead? read).isSome = true ↔ ∃ field ∈ d.row, field.name = read.name := by
  simp [instead?]

theorem fieldThrough?_of_correlation? {v id : CorrelationId} (h : e.correlation? = some v) :
    e.fieldThrough? id = none := by
  obtain ⟨type, hcontent⟩ := correlation?_eq_some h
  unfold Expr.fieldThrough?
  rw [hcontent]

/-! ## What is read through the other variable -/

/-- Every field read through the variable is replaced by the first one of its name, read through the
    other variable. -/
theorem Substituted.fieldsThrough_eq (h : d.Substituted e m)
    (hother : d.replacement.correlation? = some back.target)
    (hnew : back.target ∉ e.correlationIds) :
    m.fieldsThrough back.target = (e.fieldsThrough d.target).filterMap d.instead? := by
  unfold Expr.fieldsThrough
  rw [List.filterMap_filterMap]
  refine h.filterMap_walk (fun x _ found hfound id => ?_) fun x hx hnot x' hx' => ?_
  · obtain ⟨reference, read, hcontent, hid, -⟩ := fieldFor?_eq_some hfound
    have hread : (Expr.place id (.access d.replacement found)).fieldThrough? back.target =
        some found := if_pos hother
    have hvariable : d.replacement.fieldThrough? back.target = none :=
      fieldThrough?_of_correlation? hother
    have hreference : d.fieldFor? reference = none := (of_correlation? hid).1
    rw [walk_of_access rfl hother, walk_of_access hcontent hid]
    show _ = [x, reference].filterMap d.fieldFor?
    simp only [List.filterMap_cons, List.filterMap_nil, hread, hvariable, hfound, hreference]
  · rw [hx'.fieldThrough?_eq hnot, Expr.fieldThrough?_eq_none_of_notMem hnew hx]
    exact hnot.symm

/-- Where no field is missing, there is one to read in place of each. -/
theorem isSome_instead? (hnone : d.misses e = []) {read : Field}
    (hread : read ∈ e.fieldsThrough d.target) : (d.instead? read).isSome = true := by
  obtain ⟨x, hx, hread⟩ := Expr.mem_fieldsThrough.mp hread
  have hfield : d.fieldFor? x = d.instead? read := by
    rw [fieldFor?, hread]
    rfl
  rw [← hfield, isSome_fieldFor?_of_misses_nil hnone hx, hread]
  rfl

/-- The analysis lists them in the order in which it listed those they stand for. -/
theorem Substituted.correlatedFields_eq (h : d.Substituted e m) (hnone : d.misses e = [])
    (he : ∀ x ∈ e.walk, x.digest = x.render) (hm : ∀ x ∈ m.walk, x.digest = x.render)
    (hother : d.replacement.correlation? = some back.target)
    (hnew : back.target ∉ e.correlationIds) :
    m.correlatedFields back.target = (e.correlatedFields d.target).filterMap d.instead? := by
  rw [Expr.correlatedFields_eq hm, Expr.correlatedFields_eq he, h.fieldsThrough_eq hother hnew]
  refine (filterMap_firstSeenBy (fun _ => isSome_instead? hnone) ?_).symm
  intro read _ read' _ found found' hfound hfound'
  rw [name_of_instead? hfound, name_of_instead? hfound']

/-- Where there is something for each item, the items go with what there is for them. -/
theorem forall₂_filterMap {α β : Type} {f : α → Option β} {as : List α}
    (h : ∀ a ∈ as, (f a).isSome = true) :
    List.Forall₂ (fun a b => f a = some b) as (as.filterMap f) := by
  induction as with
  | nil => exact .nil
  | cons a as ih =>
    obtain ⟨b, hb⟩ := Option.isSome_iff_exists.mp (h a List.mem_cons_self)
    rw [List.filterMap_cons_some hb]
    exact .cons hb (ih fun x hx => h x (List.mem_cons_of_mem a hx))

/-! ## Back again -/

/-- Read back through the old variable every access is written as it was, and so is everything above
    them. -/
theorem Substituted.digest_eq_of_renamed (h : d.Substituted e m) (h' : back.Substituted m n)
    (he : ∀ x ∈ e.walk, x.digest = x.render)
    (hother : d.replacement.correlation? = some back.target)
    (hsame : back.replacement.digest = d.target.name) (hnew : back.target ∉ e.correlationIds)
    (hrow : ∀ read ∈ e.fieldsThrough d.target, ∃ field ∈ back.row, field.name = read.name) :
    n.digest = e.digest := by
  induction e using Expr.induction generalizing m n with
  | step e ih =>
    cases hfield : d.fieldFor? e with
    | some found =>
      obtain ⟨read, hread, hfound⟩ := Option.bind_eq_some_iff.mp hfield
      have hname : found.name = read.name := name_of_instead? hfound
      obtain ⟨id, rfl⟩ := h.eq_place hfield
      have hthrough : (Expr.place id (.access d.replacement found)).fieldThrough? back.target =
          some found := if_pos hother
      have hmem := Expr.mem_fieldsThrough.mpr ⟨e, e.self_mem_walk, hread⟩
      obtain ⟨again, hagain⟩ := Option.isSome_iff_exists.mp
        (isSome_instead?_iff.mpr (hname ▸ hrow read hmem))
      have hback : back.fieldFor? (.place id (.access d.replacement found)) = some again := by
        rw [fieldFor?, hthrough]
        exact hagain
      obtain ⟨id', rfl⟩ := h'.eq_place hback
      rw [digest_of_fieldThrough? hread (he e e.self_mem_walk), ← hname, ← name_of_instead? hagain,
        ← hsame]
      rfl
    | none =>
      have hback : back.fieldFor? e = none :=
        fieldFor?_eq_none (Expr.fieldThrough?_eq_none_of_notMem hnew e.self_mem_walk)
      have hdigest := Expr.digest_eq_of_rendered he
      rw [h'.digest_eq_content (h.digest_eq_content hdigest), hdigest]
      refine ((h.content_over_twice h' hfield hback).digest_eq ?_).symm
      rintro c hc y ⟨x, hx, hy⟩
      refine (ih c hc hx hy (fun z hz => he z (Expr.mem_walk_of_child hc hz)) ?_ ?_).symm
      · exact fun hmem => hnew (Expr.mem_correlationIds_iff_children.mpr (Or.inr ⟨c, hc, hmem⟩))
      · intro read hread
        obtain ⟨z, hz, hread⟩ := Expr.mem_fieldsThrough.mp hread
        exact hrow read (Expr.mem_fieldsThrough.mpr ⟨z, Expr.mem_walk_of_child hc hz, hread⟩)

/-- Nothing is missing on the way back. -/
theorem Substituted.misses_of_renamed (h : d.Substituted e m)
    (hother : d.replacement.correlation? = some back.target)
    (hnew : back.target ∉ e.correlationIds)
    (hrow : ∀ read ∈ e.fieldsThrough d.target, ∃ field ∈ back.row, field.name = read.name) :
    back.misses m = [] := by
  refine List.filter_eq_nil_iff.mpr fun y hy hlacks => ?_
  obtain ⟨found, hthrough, hnone⟩ := lacks_iff.mp hlacks
  have hfound := Expr.mem_fieldsThrough.mpr ⟨y, hy, hthrough⟩
  rw [h.fieldsThrough_eq hother hnew] at hfound
  obtain ⟨read, hread, hinstead⟩ := List.mem_filterMap.mp hfound
  obtain ⟨field, hfield, hname⟩ := hrow read hread
  exact hnone field hfield (hname.trans (name_of_instead? hinstead).symm)

theorem digest_of_correlation? {id : CorrelationId} (h : e.correlation? = some id)
    (hrendered : e.digest = e.render) : e.digest = id.name := by
  obtain ⟨type, hcontent⟩ := correlation?_eq_some h
  rw [hrendered, Expr.render_eq, hcontent]
  rfl

/-- Let `d` read another variable, `back.target`, in place of its own, and let the other one not
    occur in the expression. If the expression is not refused, the fields that the result reads
    through the other variable are listed in the order of those that were read through the old
    one, for each the first field of its name in the row of the other variable. Decorrelating the
    result by `back`, which reads the old variable in place of the other one, in any later session,
    is not refused if its row has the names of all fields listed, and comes to an expression equal
    to the one there was. -/
theorem decorrelate_rename {s s' : Session} {d' : Decorrelator} (he : e.Placed s.next)
    (hd : d.replacement.Placed s.next) (hother : d.replacement.correlation? = some back.target)
    (hsame : back.replacement.correlation? = some d.target) (hnew : back.target ∉ e.correlationIds)
    (hrun : (d.decorrelate e).run s = ((.ok m, d'), s')) :
    List.Forall₂ (fun read found => (d.row.find? fun field => field.name = read.name) = some found)
      (e.correlatedFields d.target) (m.correlatedFields back.target) ∧
    ((∀ read ∈ e.correlatedFields d.target, ∃ field ∈ back.row, field.name = read.name) →
      ∀ t : Session, s'.next ≤ t.next → back.replacement.Placed t.next →
        ∃ n back' t', (back.decorrelate m).run t = ((.ok n, back'), t') ∧ (n == e) = true) := by
  obtain ⟨-, -, hplaced, -⟩ := decorrelate_yields hd he s trivial (Nat.le_refl _)
  rw [hrun] at hplaced
  have hm : m.Placed s'.next := hplaced m rfl
  have hnone := misses_eq_nil_of_decorrelate he.rendered hrun
  have hrenamed := substituted_of_decorrelate he.taken hrun
  constructor
  · rw [hrenamed.correlatedFields_eq hnone he.rendered hm.rendered hother hnew]
    exact forall₂_filterMap fun read hread =>
      isSome_instead? hnone (Expr.mem_fieldsThrough_of_mem he.rendered hread)
  · intro hnames t hlater hback
    have hrow : ∀ read ∈ e.fieldsThrough d.target, ∃ field ∈ back.row, field.name = read.name := by
      intro read hread
      obtain ⟨listed, hlisted, hname⟩ := Expr.exists_correlatedField he.rendered hread
      exact hname ▸ hnames listed hlisted
    have hnone' : back.misses m = [] := hrenamed.misses_of_renamed hother hnew hrow
    have hname : back.replacement.digest = d.target.name :=
      digest_of_correlation? hsame (hback.rendered _ back.replacement.self_mem_walk)
    have hm' := hm.mono hlater
    obtain ⟨n, t', hrun', hundone⟩ := apply_from back back.replaced hm'.taken
    have hok := decorrelate_of_misses_nil hm'.rendered hnone' t
    rw [hrun'] at hok
    refine ⟨n, _, t', hok, Expr.beq_iff.mpr ?_⟩
    exact hrenamed.digest_eq_of_renamed hundone he.rendered hother hname hnew hrow

/-- The other row has the fields the other way round, one name twice; a bare occurrence of the old
    variable and an access below another one are left as they are. -/
theorem decorrelate_rename_layouts :
    let address := DataType.ofColumns [("city", .notNull .varchar)]
    let old := Row.number 0 [("address", address), ("deptno", .notNull .integer)]
    let new := Row.number 0
      [("deptno", .notNull .bigint), ("address", address), ("deptno", .notNull .varchar)]
    let cor := Expr.place 0 (.correlation ⟨0⟩ (.row old))
    let dept := Expr.place 1 (.access cor ⟨"deptno", 1, .notNull .integer⟩)
    let city := Expr.place 3 (.access
      (Expr.place 2 (.access cor ⟨"address", 0, address⟩)) ⟨"city", 0, .notNull .varchar⟩)
    let e := Expr.place 6 (.call .and
      [Expr.place 4 (.call .equals [dept, city] (.notNull .boolean)),
        Expr.place 5 (.call .equals [cor, dept] (.notNull .boolean))] (.notNull .boolean))
    let d : Decorrelator := ⟨⟨0⟩, Expr.place 7 (.correlation ⟨1⟩ (.row new)), new, rfl, 0⟩
    let back : Decorrelator := ⟨⟨1⟩, cor, old, rfl, 0⟩
    e.Placed 8 ∧ ∃ m d' s', (d.decorrelate e).run { next := 8 } = ((.ok m, d'), s') ∧
      m.correlatedFields ⟨1⟩ = [⟨"deptno", 0, .notNull .bigint⟩, ⟨"address", 1, address⟩] ∧
      ∃ n back' t', (back.decorrelate m).run s' = ((.ok n, back'), t') ∧ (n == e) = true := by
  intro address old new cor dept city e d back
  have he : e.Placed ({ next := 8 } : Session).next := ⟨by decide, by decide⟩
  have hrun := decorrelate_of_misses_nil (d := d) he.rendered (by decide) { next := 8 }
  have hother : d.replacement.correlation? = some back.target := rfl
  obtain ⟨hlisted, hback⟩ := decorrelate_rename he ⟨by decide, by decide⟩ hother rfl (by decide)
    hrun
  refine ⟨he, _, _, _, hrun, ?_, hback (by decide) _ (Nat.le_refl _) ?_⟩
  · have hread : e.correlatedFields ⟨0⟩ =
        [⟨"deptno", 1, .notNull .integer⟩, ⟨"address", 0, address⟩] := by decide
    rw [show d.target = ⟨0⟩ from rfl, hread] at hlisted
    obtain ⟨dept', _, hdept, hlisted, heq⟩ := List.forall₂_cons_left_iff.mp hlisted
    obtain ⟨address', _, haddress, hnil, rfl⟩ := List.forall₂_cons_left_iff.mp hlisted
    obtain rfl := List.forall₂_nil_left_iff.mp hnil
    obtain rfl := Option.some_inj.mp hdept
    obtain rfl := Option.some_inj.mp haddress
    exact heq
  · have hcor : cor.Placed 8 := ⟨by decide, by decide⟩
    exact hcor.mono (by decide +kernel)

end RowExpr.Decorrelator
