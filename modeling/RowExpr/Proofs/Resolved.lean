/-
  Which accesses still find their field once an expression is decorrelated.

  A node is `Resolved` unless it is an access to something its reference does not have. An
  access over the variable takes over the ordinal and the type of the field it is to read, and
  so is resolved; one further out is put over a new reference with the field it had. Where
  its reference was replaced the type has changed under it, and nothing says that the new row has
  that very field: this is `Fits`. `decorrelate_resolved_iff` says that nothing else can go wrong,
  and `decorrelate_unresolved` that this can.
-/
import RowExpr.Proofs.Substitution

namespace RowExpr

namespace Expr

/-- A field access is over a row that has its field; other nodes are resolved as they are. -/
def Resolved (x : Expr) : Prop :=
  ∀ reference field, x.content = .access reference field →
    ∃ row, reference.type = .row row ∧ field ∈ row

/-- All accesses in the expression are resolved, at any depth. -/
def AllResolved (e : Expr) : Prop := ∀ x ∈ e.walk, x.Resolved

/-- What is said of a node if it is an access is said of the access that it is. -/
theorem forall_access_iff {P : Expr → Field → Prop} {x reference : Expr} {field : Field}
    (h : x.content = .access reference field) :
    (∀ reference' field', x.content = .access reference' field' → P reference' field') ↔
      P reference field := by
  constructor
  · intro hx
    exact hx reference field h
  · intro hp reference' field' h'
    cases h.symm.trans h'
    exact hp

theorem resolved_access_iff {x reference : Expr} {field : Field}
    (h : x.content = .access reference field) :
    x.Resolved ↔ ∃ row, reference.type = .row row ∧ field ∈ row :=
  forall_access_iff h

/-- Whether a type is a row with the field. -/
instance (type : DataType) (field : Field) : Decidable (∃ row, type = .row row ∧ field ∈ row) :=
  decidable_of_iff (∃ row ∈ type.row?, field ∈ row)
    (exists_congr fun _ => and_congr_left fun _ => DataType.row?_eq_some_iff)

instance (x : Expr) : Decidable x.Resolved :=
  match hcontent : x.content with
  | .access _ _ => decidable_of_iff _ (resolved_access_iff hcontent).symm
  | .literal _ _ | .inputRef _ _ | .correlation _ _ | .call _ _ _ =>
    .isTrue fun _ _ haccess => nomatch hcontent.symm.trans haccess

instance (e : Expr) : Decidable e.AllResolved :=
  inferInstanceAs (Decidable (∀ x ∈ e.walk, x.Resolved))

end Expr

namespace Decorrelator

variable {d : Decorrelator}

/-- If `x` is an access over an access to be replaced, the field to be read there is a row that
    has the field of `x`. -/
def Fits (d : Decorrelator) (x : Expr) : Prop :=
  ∀ reference field, x.content = .access reference field →
    ∀ found, d.fieldFor? reference = some found → ∃ row, found.type = .row row ∧ field ∈ row

theorem fits_access_iff {x reference : Expr} {field : Field}
    (h : x.content = .access reference field) :
    d.Fits x ↔
      ∀ found, d.fieldFor? reference = some found → ∃ row, found.type = .row row ∧ field ∈ row :=
  Expr.forall_access_iff h

instance (x : Expr) : Decidable (d.Fits x) :=
  match hcontent : x.content with
  | .access reference _ =>
    decidable_of_iff (∀ found ∈ d.fieldFor? reference, _) (fits_access_iff hcontent).symm
  | .literal _ _ | .inputRef _ _ | .correlation _ _ | .call _ _ _ =>
    .isTrue fun _ _ haccess => nomatch hcontent.symm.trans haccess

/-- An access to be replaced has nothing to fit: what it is over is a variable. -/
theorem fits_of_fieldFor? {e : Expr} {found : Field} (h : d.fieldFor? e = some found) :
    ∀ x ∈ e.walk, d.Fits x := by
  obtain ⟨reference, read, type, hcontent, hvariable, hwalk⟩ := walk_of_fieldFor? h
  rw [hwalk, List.forall_mem_cons, List.forall_mem_singleton]
  refine ⟨?_, fun _ _ haccess => nomatch hvariable.symm.trans haccess⟩
  have hnot : d.fieldFor? reference = none := by
    unfold fieldFor? Expr.fieldThrough?
    rw [hvariable]
    rfl
  rw [fits_access_iff hcontent, hnot]
  intro found' hfound'
  cases hfound'

/-- The access that takes a replaced one's place is resolved. -/
theorem replaced_allResolved (hreplacement : d.replacement.AllResolved) {e : Expr} {found : Field}
    (h : d.fieldFor? e = some found) (id : NodeId) :
    (Expr.place id (.access d.replacement found)).AllResolved := by
  obtain ⟨_, _, _, _, hfound⟩ := fieldFor?_eq_some h
  refine Expr.forall_walk_iff.mpr ⟨?_, fun c hc => ?_⟩
  · rw [Expr.resolved_access_iff rfl]
    exact ⟨d.row, d.row_eq, List.mem_of_find?_eq_some hfound⟩
  · rw [List.mem_singleton.mp hc]
    exact hreplacement

/-- Of an access that stays: over its new reference it finds its field exactly when it fits. -/
theorem Substituted.resolved_iff_fits {x reference reference' : Expr} {field : Field}
    (hcontent : x.content = .access reference field) (hx : x.Resolved)
    (h : d.Substituted reference reference') :
    (∃ row, reference'.type = .row row ∧ field ∈ row) ↔ d.Fits x := by
  rw [fits_access_iff hcontent]
  cases hfound : d.fieldFor? reference with
  | none =>
    rw [h.type_eq hfound]
    constructor
    · intro _ found hsome
      cases hsome
    · intro _
      exact hx reference field hcontent
  | some found =>
    rw [h.type_of_fieldFor? hfound]
    constructor
    · intro hrow found' hsome
      cases hsome
      exact hrow
    · intro hrow
      exact hrow found rfl

/-- Of a node that stays: what stands for it is resolved exactly when it fits. -/
theorem Substituted.resolved_iff {x x' : Expr} (h : d.Substituted x x')
    (hnot : d.fieldFor? x = none) (hx : x.Resolved) : x'.Resolved ↔ d.Fits x := by
  have hover := h.content_over hnot
  generalize hcontent : x.content = content, hcontent' : x'.content = content' at hover
  cases hover with
  | access field hreference =>
    rw [Expr.resolved_access_iff hcontent']
    exact hreference.resolved_iff_fits hcontent hx
  | literal _ _ | inputRef _ _ | correlation _ _ | call _ _ _ =>
    exact iff_of_true (fun _ _ haccess => nomatch hcontent'.symm.trans haccess)
      fun _ _ haccess => nomatch hcontent.symm.trans haccess

theorem Substituted.allResolved_iff (hreplacement : d.replacement.AllResolved) {e new : Expr}
    (h : d.Substituted e new) (he : e.AllResolved) :
    new.AllResolved ↔ ∀ x ∈ e.walk, d.Fits x :=
  h.forall_walk_iff
    (fun _ _ _ hfound id =>
      ⟨replaced_allResolved hreplacement hfound id, fits_of_fieldFor? hfound⟩)
    fun x hx hnot _ hx' => hx'.resolved_iff hnot (he x hx)

/-! ## Decorrelating -/

/-- If all accesses of the expression and of the replacement are resolved, then all those of a
    decorrelated expression are exactly when every access over a replaced one finds its field, of
    the same ordinal and type, in the row that is read instead. -/
theorem decorrelate_resolved_iff {e new : Expr} {d' : Decorrelator} {s s' : Session}
    (htaken : ∀ x ∈ e.walk, x.id < s.next) (hreplacement : d.replacement.AllResolved)
    (he : e.AllResolved) (hrun : (d.decorrelate e).run s = ((.ok new, d'), s')) :
    new.AllResolved ↔ ∀ x ∈ e.walk, ∀ reference field, x.content = .access reference field →
      ∀ found, d.fieldFor? reference = some found → ∃ row, found.type = .row row ∧ field ∈ row := by
  have hnew : ((e.replace d.answer).run { session := s }).1 = new :=
    congrArg (fun r => r.1.1) (decorrelate_ok hrun)
  have hpass := replace_outcome d e { session := s } htaken
  rw [hnew] at hpass
  exact hpass.substituted.allResolved_iff hreplacement he

/-- The city of the address is read from a row that has its columns in another order, and an
    address of the same layout: the access to the city fits. -/
theorem decorrelate_resolved_address :
    let address := DataType.ofColumns [("city", .notNull .varchar)]
    let old := DataType.ofColumns [("address", address), ("age", .notNull .integer)]
    let row := Row.number 0 [("age", .notNull .integer), ("address", address)]
    let outer := Expr.place 1 (.access
      (Expr.place 0 (.correlation ⟨0⟩ old)) ⟨"address", 0, address⟩)
    let e := Expr.place 2 (.access outer ⟨"city", 0, .notNull .varchar⟩)
    let d : Decorrelator := ⟨⟨0⟩, Expr.place 3 (.inputRef 4 (.row row)), row, rfl, 0⟩
    (∀ x ∈ e.walk, x.id < 4) ∧ d.replacement.AllResolved ∧ e.AllResolved ∧
      ∃ new d' s', (d.decorrelate e).run { next := 4 } = ((.ok new, d'), s') ∧
        new.digest = "$4.address.city" ∧ new.AllResolved := by
  intro address old row outer e d
  have htaken : ∀ x ∈ e.walk, x.id < ({ next := 4 } : Session).next := by decide
  have hreplacement : d.replacement.AllResolved := by decide
  have he : e.AllResolved := by decide
  have hfits : ∀ x ∈ e.walk, d.Fits x := by decide
  exact ⟨htaken, hreplacement, he, _, _, _, rfl, rfl,
    (decorrelate_resolved_iff htaken hreplacement he rfl).mpr hfits⟩

/-- The same with an address that has its postal code first: the access to the city still reads
    field 0, which the new address does not call so. -/
theorem decorrelate_unresolved :
    let address := DataType.ofColumns [("city", .notNull .varchar), ("zip", .notNull .integer)]
    let address' := DataType.ofColumns [("zip", .notNull .integer), ("city", .notNull .varchar)]
    let outer := Expr.place 1 (.access
      (Expr.place 0 (.correlation ⟨0⟩ (.ofColumns [("address", address)]))) ⟨"address", 0, address⟩)
    let e := Expr.place 2 (.access outer ⟨"city", 0, .notNull .varchar⟩)
    let row := Row.number 0 [("address", address')]
    let d : Decorrelator := ⟨⟨0⟩, Expr.place 3 (.inputRef 4 (.row row)), row, rfl, 0⟩
    d.replacement.AllResolved ∧ e.AllResolved ∧
      ∃ new d' s', (d.decorrelate e).run { next := 4 } = ((.ok new, d'), s') ∧
        (∃ reference, new.content = .access reference ⟨"city", 0, .notNull .varchar⟩ ∧
          reference.type = address') ∧
        ¬ new.AllResolved := by
  intro address address' outer e row d
  refine ⟨by decide, by decide, _, _, _, rfl, ⟨_, rfl, rfl⟩, ?_⟩
  decide

end Decorrelator
end RowExpr
