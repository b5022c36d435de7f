/-
  The correlation variables of a decorrelated expression.

  Of the variable that is read from elsewhere, only those occurrences remain that no field is
  read of: at the root, or under a node that is no field access (`Expr.unread`). All other
  variables remain, and if a field was read through the variable, those of the replacement come
  in. `remains_iff` takes this apart along the tree, `decorrelate_correlationIds` says it of a
  decorrelated expression.
-/
import RowExpr.Proofs.Checked

namespace RowExpr

namespace Expr

theorem mem_correlationIds {e : Expr} {id : CorrelationId} :
    id ∈ e.correlationIds ↔ ∃ x ∈ e.walk, x.correlation? = some id := by
  have hids := key_mem_firstSeenBy (fun found => found) (e.walk.filterMap correlation?) id
  rw [List.map_id', List.map_id', List.mem_filterMap] at hids
  exact hids

/-- A variable occurs in a node that is one, or in a child. -/
theorem mem_correlationIds_iff_children {e : Expr} {id : CorrelationId} :
    id ∈ e.correlationIds ↔
      e.correlation? = some id ∨ ∃ c ∈ e.children, id ∈ c.correlationIds := by
  simp only [mem_correlationIds]
  exact exists_walk_iff

/-- The nodes that no field is read of, each as often as it occurs so: the root, and the children
    of all nodes but field accesses. -/
def unread (e : Expr) : List Expr :=
  e :: (e.walk.filter fun x => x.isAccess = false).flatMap children

theorem exists_unread_iff {P : Expr → Prop} {e : Expr} :
    (∃ x ∈ e.unread, P x) ↔
      P e ∨ ∃ x ∈ e.walk, x.isAccess = false ∧ ∃ c ∈ x.children, P c := by
  simp only [unread, List.exists_mem_cons_iff, List.mem_flatMap, List.mem_filter,
    decide_eq_true_eq]
  refine or_congr_right ⟨?_, ?_⟩
  · rintro ⟨c, ⟨x, ⟨hx, hnot⟩, hc⟩, hp⟩
    exact ⟨x, hx, hnot, c, hc, hp⟩
  · rintro ⟨x, hx, hnot, c, hc, hp⟩
    exact ⟨c, ⟨x, ⟨hx, hnot⟩, hc⟩, hp⟩

/-- Where no field is read through the variable, an access is not over it. -/
theorem isAccess_eq_false_of_child {e c : Expr} {id : CorrelationId}
    (hnot : e.fieldThrough? id = none) (hc : c ∈ e.children) (hid : c.correlation? = some id) :
    e.isAccess = false := by
  unfold isAccess
  unfold children at hc
  unfold fieldThrough? at hnot
  cases hcontent : e.content with
  | access reference field =>
    rw [hcontent] at hc hnot
    rw [List.mem_singleton.mp hc] at hid
    simp [hid] at hnot
  | literal _ _ | inputRef _ _ | correlation _ _ | call _ _ _ => rfl

/-- The variable occurs unread in a node that does not read through it if the node is the
    variable, or it occurs unread in a child. -/
theorem exists_unread_of_not_read {e : Expr} {id : CorrelationId}
    (hnot : e.fieldThrough? id = none) :
    (∃ x ∈ e.unread, x.correlation? = some id) ↔ e.correlation? = some id ∨
      ∃ c ∈ e.children, ∃ x ∈ c.unread, x.correlation? = some id := by
  rw [exists_unread_iff, exists_walk_iff]
  refine or_congr_right ⟨?_, ?_⟩
  · rintro (⟨-, c, hc, hid⟩ | ⟨c, hc, hbelow⟩)
    · exact ⟨c, hc, exists_unread_iff.mpr (Or.inl hid)⟩
    · exact ⟨c, hc, exists_unread_iff.mpr (Or.inr hbelow)⟩
  · rintro ⟨c, hc, hunread⟩
    rcases exists_unread_iff.mp hunread with hid | hbelow
    · exact Or.inl ⟨isAccess_eq_false_of_child hnot hc hid, c, hc, hid⟩
    · exact Or.inr ⟨c, hc, hbelow⟩

end Expr

namespace Decorrelator

variable {d : Decorrelator} {e : Expr} {v : CorrelationId}

/-- Whether variable `v` is to be found in what `e` becomes: another variable if it was in `e`;
    the variable of the decorrelator if it was there unread; any of the replacement if a field
    was read through the variable. -/
def Remains (d : Decorrelator) (v : CorrelationId) (e : Expr) : Prop :=
  (v ∈ e.correlationIds ∧ v ≠ d.target) ∨
    (v = d.target ∧ ∃ x ∈ e.unread, x.correlation? = some d.target) ∨
      (v ∈ d.replacement.correlationIds ∧ ∃ x ∈ e.walk, (x.fieldThrough? d.target).isSome = true)

/-- A node that does not read through the variable adds itself, if it is a variable. -/
theorem remains_iff (hnot : e.fieldThrough? d.target = none) :
    d.Remains v e ↔ e.correlation? = some v ∨ ∃ c ∈ e.children, d.Remains v c := by
  have hread : (∃ x ∈ e.walk, (x.fieldThrough? d.target).isSome = true) ↔
      ∃ c ∈ e.children, ∃ x ∈ c.walk, (x.fieldThrough? d.target).isSome = true := by
    rw [Expr.exists_walk_iff, hnot]
    exact or_iff_right Bool.false_ne_true
  unfold Remains
  rw [Expr.mem_correlationIds_iff_children, Expr.exists_unread_of_not_read hnot, hread]
  constructor
  · rintro (⟨hself | ⟨c, hc, hv⟩, hne⟩ | ⟨rfl, hself | ⟨c, hc, hx⟩⟩ | ⟨hv, c, hc, hx⟩)
    · exact Or.inl hself
    · exact Or.inr ⟨c, hc, Or.inl ⟨hv, hne⟩⟩
    · exact Or.inl hself
    · exact Or.inr ⟨c, hc, Or.inr (Or.inl ⟨rfl, hx⟩)⟩
    · exact Or.inr ⟨c, hc, Or.inr (Or.inr ⟨hv, hx⟩)⟩
  · rintro (hself | ⟨c, hc, ⟨hv, hne⟩ | ⟨rfl, hx⟩ | ⟨hv, hx⟩⟩)
    · by_cases hv : v = d.target
      · exact Or.inr (Or.inl ⟨hv, Or.inl (hv ▸ hself)⟩)
      · exact Or.inl ⟨Or.inl hself, hv⟩
    · exact Or.inl ⟨Or.inr ⟨c, hc, hv⟩, hne⟩
    · exact Or.inr (Or.inl ⟨rfl, Or.inr ⟨c, hc, hx⟩⟩)
    · exact Or.inr (Or.inr ⟨hv, c, hc, hx⟩)

/-- The variable is all that occurs in an access to be replaced. -/
theorem mem_correlationIds_of_fieldFor? {found : Field} (hfound : d.fieldFor? e = some found) :
    v ∈ e.correlationIds ↔ v = d.target := by
  obtain ⟨reference, read, type, hcontent, hvariable, hwalk⟩ := walk_of_fieldFor? hfound
  rw [Expr.mem_correlationIds, hwalk]
  simp [Expr.correlation?, hcontent, hvariable, eq_comm]

/-- An access over the replacement has the variables of the replacement. -/
theorem mem_correlationIds_access {id : NodeId} {field : Field} :
    v ∈ (Expr.place id (.access d.replacement field)).correlationIds ↔
      v ∈ d.replacement.correlationIds := by
  rw [Expr.mem_correlationIds_iff_children]
  show (none = some v ∨ ∃ c ∈ [d.replacement], v ∈ c.correlationIds) ↔ _
  simp

/-- In place of an access over the variable come the variables of the replacement. -/
theorem remains_of_fieldFor? {found : Field} (hfound : d.fieldFor? e = some found) :
    d.Remains v e ↔ v ∈ d.replacement.correlationIds := by
  obtain ⟨reference, read, type, hcontent, hvariable, hwalk⟩ := walk_of_fieldFor? hfound
  have hself : e.correlation? = none := by
    unfold Expr.correlation?
    rw [hcontent]
  have hreference : reference.correlation? = some d.target := by
    unfold Expr.correlation?
    rw [hvariable]
  have hread : e.fieldThrough? d.target = some read := by
    unfold Expr.fieldThrough?
    rw [hcontent]
    exact if_pos hreference
  have hunread : e.unread = [e] := by
    simp [Expr.unread, hwalk, Expr.isAccess, hcontent, hvariable, Expr.children, Content.children]
  unfold Remains
  rw [mem_correlationIds_of_fieldFor? hfound, hunread, hwalk]
  simp [hself, hread]

/-- The variables of an expression in which all accesses over the variable are replaced. -/
theorem Substituted.mem_correlationIds_iff {new : Expr} (h : d.Substituted e new)
    (hnone : d.misses e = []) (v : CorrelationId) :
    v ∈ new.correlationIds ↔ d.Remains v e := by
  induction e using Expr.induction generalizing new with
  | step e ih =>
    cases hfield : d.fieldFor? e with
    | some found =>
      obtain ⟨id, rfl⟩ := h.eq_place hfield
      rw [remains_of_fieldFor? hfield, mem_correlationIds_access]
    | none =>
      have hnot := fieldThrough?_eq_none_of_misses_nil hnone e.self_mem_walk hfield
      have hchildren : (∃ c' ∈ new.children, v ∈ c'.correlationIds) ↔
          ∃ c ∈ e.children, d.Remains v c :=
        exists_iff_of_forall₂ (h.children hfield) fun c hc _ hc' =>
          ih c hc hc' (misses_child_eq_nil hnone hc)
      rw [Expr.mem_correlationIds_iff_children, remains_iff hnot, hchildren, h.correlation?_eq]

/-! ## Decorrelating -/

/-- The variables of a decorrelated expression: those there were but the one read from elsewhere,
    this one too if it occurs anywhere without a field being read of it, and those of the
    replacement if a field was read through the variable. So the variable is gone if it occurs
    neither in the replacement nor anywhere but under a field access. -/
theorem decorrelate_correlationIds {new : Expr} {d' : Decorrelator} {s s' : Session}
    (he : e.Placed s.next) (hrun : (d.decorrelate e).run s = ((.ok new, d'), s')) :
    (∀ v, v ∈ new.correlationIds ↔
      (v ∈ e.correlationIds ∧ v ≠ d.target) ∨
        (v = d.target ∧ ∃ x ∈ e.unread, x.correlation? = some d.target) ∨
          (v ∈ d.replacement.correlationIds ∧
            ∃ x ∈ e.walk, (x.fieldThrough? d.target).isSome = true)) ∧
    (d.target ∉ d.replacement.correlationIds →
      (∀ x ∈ e.unread, x.correlation? ≠ some d.target) → d.target ∉ new.correlationIds) := by
  have hmem (v : CorrelationId) : v ∈ new.correlationIds ↔ d.Remains v e :=
    (substituted_of_decorrelate he.taken hrun).mem_correlationIds_iff
      (misses_eq_nil_of_decorrelate he.rendered hrun) v
  refine ⟨hmem, fun hreplacement hunread hleft => ?_⟩
  rcases (hmem d.target).mp hleft with ⟨-, hne⟩ | ⟨-, x, hx, hid⟩ | ⟨hr, -⟩
  · exact hne rfl
  · exact hunread x hx hid
  · exact hreplacement hr

/-- Two variables compared, of which one is read from a third: it is gone. With a null test of it
    beside the comparison, it remains. -/
theorem decorrelate_correlationIds_compared :
    let old := DataType.ofColumns [("deptno", .notNull .integer)]
    let row := Row.number 0 [("loc", .notNull .varchar), ("deptno", .notNull .bigint)]
    let cor := Expr.place 0 (.correlation ⟨0⟩ old)
    let read := Expr.place 1 (.access cor ⟨"deptno", 0, .notNull .integer⟩)
    let other := Expr.place 3 (.access
      (Expr.place 2 (.correlation ⟨1⟩ old)) ⟨"deptno", 0, .notNull .integer⟩)
    let compared := Expr.place 4 (.call .equals [read, other] (.notNull .boolean))
    let test := Expr.place 5 (.call .isNull [cor] (.notNull .boolean))
    let both := Expr.place 6 (.call .and [compared, test] (.notNull .boolean))
    let d : Decorrelator := ⟨⟨0⟩, Expr.place 7 (.correlation ⟨2⟩ (.row row)), row, rfl, 0⟩
    (compared.Placed 8 ∧ ∃ new d' s',
      (d.decorrelate compared).run { next := 8 } = ((.ok new, d'), s') ∧
        ⟨0⟩ ∉ new.correlationIds ∧ ⟨1⟩ ∈ new.correlationIds ∧ ⟨2⟩ ∈ new.correlationIds) ∧
      both.Placed 8 ∧ ∃ new d' s',
        (d.decorrelate both).run { next := 8 } = ((.ok new, d'), s') ∧
          ⟨0⟩ ∈ new.correlationIds ∧ ⟨1⟩ ∈ new.correlationIds ∧ ⟨2⟩ ∈ new.correlationIds := by
  intro old row cor read other compared test both d
  have hcompared : compared.Placed ({ next := 8 } : Session).next := ⟨by decide, by decide⟩
  have hboth : both.Placed ({ next := 8 } : Session).next := ⟨by decide, by decide⟩
  refine ⟨⟨hcompared, _, _, _, rfl, ?_⟩, hboth, _, _, _, rfl, ?_⟩
  · obtain ⟨hmem, hgone⟩ := decorrelate_correlationIds (d := d) hcompared rfl
    exact ⟨hgone (by decide) (by decide), (hmem ⟨1⟩).mpr (by decide), (hmem ⟨2⟩).mpr (by decide)⟩
  · have hmem := (decorrelate_correlationIds (d := d) hboth rfl).1
    exact ⟨(hmem ⟨0⟩).mpr (by decide), (hmem ⟨1⟩).mpr (by decide), (hmem ⟨2⟩).mpr (by decide)⟩

end Decorrelator
end RowExpr
