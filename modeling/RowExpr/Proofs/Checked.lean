/-
  The check ahead of decorrelating, and the pass behind it.

  `decorrelate` looks for a field that the replacement lacks among the fields read through the
  variable, of which it lists those of equal digest once; then `apply` goes through the tree by
  itself. The two select the same accesses: in a placed expression the digest of an access over
  the variable tells the name of the field, so what is left out of the list lacks no other field
  (`missing?_eq`), and where none is missing, each access over the variable is replaced, as
  often as it occurs, by a new one (`replace_at?`). `decorrelate_refuses_or_replaces` puts this
  together.
-/
import RowExpr.Proofs.Placed
import RowExpr.Proofs.Substitution

namespace RowExpr.Decorrelator

variable {d : Decorrelator}

/-! ## The check -/

/-- An access over the variable is written as the name of the variable, a dot and the field. -/
theorem digest_of_fieldThrough? {id : CorrelationId} {x : Expr} {read : Field}
    (h : x.fieldThrough? id = some read) (hrendered : x.digest = x.render) :
    x.digest = id.name ++ "." ++ read.name := by
  obtain ⟨reference, hcontent, hid⟩ := fieldThrough?_eq_some h
  obtain ⟨type, hvariable⟩ := correlation?_eq_some hid
  have hreference : reference.render = id.name := by
    rw [Expr.render_eq, hvariable]
    rfl
  rw [hrendered, Expr.render_eq, hcontent, ← hreference]
  rfl

theorem lacks_of_fieldThrough? {x : Expr} {read : Field}
    (h : x.fieldThrough? d.target = some read) : d.lacks x = (d.field? read.name).isNone := by
  have hfield : d.fieldFor? x = d.field? read.name := by
    rw [fieldFor?, h]
    rfl
  rw [lacks, h, hfield]
  rfl

/-- Names are compared letter by letter. -/
theorem lacks_iff {x : Expr} :
    d.lacks x = true ↔ ∃ read, x.fieldThrough? d.target = some read ∧
      ∀ field ∈ d.row, field.name ≠ read.name := by
  unfold lacks fieldFor?
  cases h : x.fieldThrough? d.target with
  | none => simp
  | some read => simp

theorem not_lacks_of_fieldThrough?_none {x : Expr} (h : x.fieldThrough? d.target = none) :
    d.lacks x = false := by
  rw [lacks, h]
  rfl

/-- The accesses directly over the variable, each as often as it occurs, in the order of the
    walk. -/
def reads (d : Decorrelator) (e : Expr) : List Expr :=
  e.walk.filter fun x => (x.fieldThrough? d.target).isSome

theorem filter_lacks_reads (e : Expr) : (d.reads e).filter d.lacks = d.misses e := by
  unfold reads
  rw [List.filter_filter]
  refine List.filter_congr fun x _ => ?_
  unfold lacks
  cases (x.fieldThrough? d.target).isSome <;> simp

/-- Accesses over the variable that are written alike are alike to missing fields. -/
theorem lacks_eq_of_digest_eq {e x y : Expr} (h : ∀ x ∈ e.walk, x.digest = x.render)
    (hx : x ∈ d.reads e) (hy : y ∈ d.reads e) (hdigest : x.digest = y.digest) :
    d.lacks x = d.lacks y := by
  obtain ⟨hx, hreadx⟩ := List.mem_filter.mp hx
  obtain ⟨hy, hready⟩ := List.mem_filter.mp hy
  obtain ⟨readx, hreadx⟩ := Option.isSome_iff_exists.mp hreadx
  obtain ⟨ready, hready⟩ := Option.isSome_iff_exists.mp hready
  rw [digest_of_fieldThrough? hreadx (h x hx), digest_of_fieldThrough? hready (h y hy),
    String.append_right_inj] at hdigest
  rw [lacks_of_fieldThrough? hreadx, lacks_of_fieldThrough? hready, hdigest]

/-- The check finds the first access to a missing field, though it looks at one access for each
    digest only. -/
theorem missing?_eq {e : Expr} (h : ∀ x ∈ e.walk, x.digest = x.render) :
    d.missing? e = (d.misses e).head?.bind (Expr.fieldThrough? d.target) := by
  have hlacks (x : Expr) :
      ((x.fieldThrough? d.target).any fun read => (d.field? read.name).isNone) = d.lacks x := by
    cases hread : x.fieldThrough? d.target with
    | none => exact (not_lacks_of_fieldThrough?_none hread).symm
    | some read => exact (lacks_of_fieldThrough? hread).symm
  have hfind : (firstSeenBy Expr.digest (d.reads e)).find? d.lacks = (d.reads e).find? d.lacks :=
    find?_firstSeenBy fun _ hx _ hy => lacks_eq_of_digest_eq h hx hy
  unfold missing? Expr.correlatedFields
  simp only [List.find?_filterMap, hlacks]
  rw [← filter_lacks_reads, List.head?_filter, ← hfind]
  rfl

/-! ## Where nothing is missing -/

/-- If no field is missing, an access over the variable is one to be replaced. -/
theorem isSome_fieldFor?_of_misses_nil {e x : Expr} (hnone : d.misses e = []) (hx : x ∈ e.walk) :
    (d.fieldFor? x).isSome = (x.fieldThrough? d.target).isSome := by
  have hnot : d.lacks x = false := Bool.not_eq_true _ ▸ List.filter_eq_nil_iff.mp hnone x hx
  unfold lacks at hnot
  unfold fieldFor? at hnot ⊢
  cases hread : x.fieldThrough? d.target with
  | none => rfl
  | some read =>
    rw [hread] at hnot
    simpa using hnot

theorem fieldThrough?_eq_none_of_misses_nil {e x : Expr} (hnone : d.misses e = [])
    (hx : x ∈ e.walk) (hnot : d.fieldFor? x = none) : x.fieldThrough? d.target = none := by
  have hsome := isSome_fieldFor?_of_misses_nil hnone hx
  rw [hnot] at hsome
  exact Option.isNone_iff_eq_none.mp (Option.isSome_eq_false_iff.mp hsome.symm)

theorem misses_child_eq_nil {e c : Expr} (hnone : d.misses e = []) (hc : c ∈ e.children) :
    d.misses c = [] := by
  rw [misses_eq, List.append_eq_nil_iff, List.flatMap_eq_nil_iff] at hnone
  exact hnone.2 c hc

theorem hits_eq_reads {e : Expr} (hnone : d.misses e = []) : d.hits e = d.reads e :=
  List.filter_congr fun _ hx => isSome_fieldFor?_of_misses_nil hnone hx

/-- In the result, the accesses over the variable are those put in, and those of the
    replacement itself. -/
theorem Substituted.access_of_replacement {e new : Expr} (h : d.Substituted e new)
    (hnone : d.misses e = []) : ∀ y ∈ new.walk, (y.fieldThrough? d.target).isSome = true →
      (∃ found, y.content = .access d.replacement found) ∨ y ∈ d.replacement.walk := by
  refine (h.forall_walk_iff (Q := fun _ => True) (fun x _ found _ id => ?_)
    fun x hx hnot x' hx' => ?_).mpr fun _ _ => trivial
  · refine ⟨Expr.forall_walk_iff.mpr ⟨fun _ => Or.inl ⟨found, rfl⟩, ?_⟩, fun _ _ => trivial⟩
    intro c hc y hy _
    rw [List.mem_singleton.mp hc] at hy
    exact Or.inr hy
  · refine iff_of_true (fun hread => ?_) trivial
    rw [hx'.fieldThrough?_eq hnot, fieldThrough?_eq_none_of_misses_nil hnone hx hnot] at hread
    cases hread

/-! ## Where the replaced accesses are -/

/-- At a position of a list stands what the pass makes of the item there when it gets to it. -/
theorem replaceAll_getElem? {es : List Expr} {i : Nat} {c : Expr} (hc : es[i]? = some c)
    (p : Pass) (htaken : ∀ e ∈ es, ∀ x ∈ e.walk, x.id < p.session.next) :
    ∃ p', p.session.next ≤ p'.session.next ∧
      ((Expr.replaceAll d.answer es).run p).1[i]? = some ((c.replace d.answer).run p').1 := by
  induction es generalizing i p with
  | nil => simp at hc
  | cons e es ih =>
    have hfirst := replace_outcome d e p (htaken e List.mem_cons_self)
    rw [Expr.replaceAll]
    simp only [run_bind, run_pure]
    cases i with
    | zero =>
      obtain rfl : e = c := Option.some_inj.mp hc
      exact ⟨p, Nat.le_refl _, rfl⟩
    | succ i =>
      obtain ⟨p', hle, hget⟩ := ih hc ((e.replace d.answer).run p).2 fun y hy x hx =>
        Nat.lt_of_lt_of_le (htaken y (List.mem_cons_of_mem e hy) x hx) hfirst.next_le
      exact ⟨p', Nat.le_trans hfirst.next_le hle, hget⟩

/-- The same of the children of a node that has accesses to be replaced below it. -/
theorem replace_children {e c : Expr} {i : Nat} {p : Pass}
    (htaken : ∀ x ∈ e.walk, x.id < p.session.next) (hnot : d.fieldFor? e = none)
    (hsome : d.hits e ≠ []) (hc : e.children[i]? = some c) :
    ∃ p', p.session.next ≤ p'.session.next ∧
      ((e.replace d.answer).run p).1.children[i]? = some ((c.replace d.answer).run p').1 := by
  have hchildren : ∀ c ∈ e.children, ∀ x ∈ c.walk, x.id < (d.note e p).session.next := by
    intro c hc x hx
    rw [next_note]
    exact htaken x (Expr.mem_walk_of_child hc hx)
  rw [hits_of_fieldFor?_none hnot] at hsome
  rw [← next_note d e p]
  obtain ⟨id, digest, content⟩ := e
  cases content with
  | call operator operands type =>
    have hall := replaceAll_outcome (fun e _ => replace_outcome d e) _ hchildren
    have hget := replaceAll_getElem? (d := d) hc _ hchildren
    rw [Expr.replace, offer_run, hnot]
    simp only [run_bind]
    split
    · rename_i hsame
      exact absurd (hall.same_iff.mp hsame) hsome
    · exact hget
  | access reference field =>
    have hreference := hchildren reference List.mem_cons_self
    have hone := (replace_outcome d reference _ hreference).same_iff
      (hreference reference reference.self_mem_walk)
    obtain ⟨rfl, rfl⟩ : i = 0 ∧ c = reference := by
      cases i with
      | zero => exact ⟨rfl, (Option.some_inj.mp hc).symm⟩
      | succ i => cases hc
    rw [Expr.replace, offer_run, hnot]
    simp only [run_bind]
    split
    · rename_i hsame
      refine absurd ?_ hsome
      show [c].flatMap d.hits = []
      rw [List.flatMap_singleton]
      exact hone.mp hsame
    · exact ⟨_, Nat.le_refl _, rfl⟩
  | literal _ _ | inputRef _ _ | correlation _ _ => exact absurd rfl hsome

/-- At the position of an access to be replaced there is a new access over the replacement. -/
theorem replace_at? {e x : Expr} {path : List Nat} {found : Field} {p : Pass}
    (htaken : ∀ x ∈ e.walk, x.id < p.session.next) (hx : e.at? path = some x)
    (hfound : d.fieldFor? x = some found) :
    ∃ id, p.session.next ≤ id ∧ ((e.replace d.answer).run p).1.at? path =
      some (.place id (.access d.replacement found)) := by
  induction path generalizing e p with
  | nil =>
    obtain rfl : e = x := Option.some_inj.mp hx
    have hpass := replace_outcome d e p htaken
    obtain ⟨id, hnew⟩ := hpass.substituted.eq_place hfound
    have hfresh := hpass.fresh (by rw [(of_fieldFor? hfound).1]; exact List.cons_ne_nil e [])
    rw [hnew] at hfresh ⊢
    exact ⟨id, hfresh, rfl⟩
  | cons i path ih =>
    obtain ⟨c, hc, hx⟩ := Option.bind_eq_some_iff.mp hx
    have hchild : c ∈ e.children := List.mem_of_getElem? hc
    have hhit : x ∈ d.hits c :=
      List.mem_filter.mpr ⟨Expr.mem_walk_of_at? hx, Option.isSome_iff_exists.mpr ⟨found, hfound⟩⟩
    have hnot : d.fieldFor? e = none := by
      refine Option.eq_none_iff_forall_ne_some.mpr fun field hfield => ?_
      rw [hits_child_of_fieldFor? hfield hchild] at hhit
      cases hhit
    have hsome : d.hits e ≠ [] := by
      rw [hits_of_fieldFor?_none hnot]
      exact List.ne_nil_of_mem (List.mem_flatMap.mpr ⟨c, hchild, hhit⟩)
    obtain ⟨p', hle, hget⟩ := replace_children htaken hnot hsome hc
    obtain ⟨id, hid, hplaced⟩ := ih (p := p')
      (fun y hy => Nat.lt_of_lt_of_le (htaken y (Expr.mem_walk_of_child hchild hy)) hle) hx
    refine ⟨id, Nat.le_trans hle hid, ?_⟩
    rw [Expr.at?_cons, hget]
    exact hplaced

/-! ## Decorrelating -/

theorem decorrelate_of_missing?_none {e : Expr} (hmissing : d.missing? e = none) (s : Session) :
    (d.decorrelate e).run s =
      ((.ok ((d.apply e).run s).1.1, ((d.apply e).run s).1.2), ((d.apply e).run s).2) := by
  unfold decorrelate
  rw [hmissing]
  rfl

theorem decorrelate_of_misses_nil {e : Expr} (h : ∀ x ∈ e.walk, x.digest = x.render)
    (hnone : d.misses e = []) (s : Session) :
    (d.decorrelate e).run s =
      ((.ok ((d.apply e).run s).1.1, ((d.apply e).run s).1.2), ((d.apply e).run s).2) := by
  refine decorrelate_of_missing?_none ?_ s
  rw [missing?_eq h, hnone]
  rfl

theorem decorrelate_of_misses_cons {e x : Expr} {rest : List Expr}
    (h : ∀ x ∈ e.walk, x.digest = x.render) (hfirst : d.misses e = x :: rest) (s : Session) :
    ∃ read, x.fieldThrough? d.target = some read ∧
      (d.decorrelate e).run s = ((.error (.fieldNotFound d.replacement.type read.name), d), s) := by
  have hlacks : d.lacks x = true := by
    have hx : x ∈ d.misses e := hfirst ▸ List.mem_cons_self
    exact (List.mem_filter.mp hx).2
  obtain ⟨read, hread, -⟩ := lacks_iff.mp hlacks
  refine ⟨read, hread, decorrelate_of_missing s ?_⟩
  rw [missing?_eq h, hfirst]
  exact hread

/-- What is not refused misses nothing. -/
theorem misses_eq_nil_of_decorrelate {e new : Expr} {d' : Decorrelator} {s s' : Session}
    (h : ∀ x ∈ e.walk, x.digest = x.render)
    (hrun : (d.decorrelate e).run s = ((.ok new, d'), s')) : d.misses e = [] := by
  by_contra hsome
  obtain ⟨x, rest, hfirst⟩ := List.exists_cons_of_ne_nil hsome
  obtain ⟨read, -, hrefused⟩ := decorrelate_of_misses_cons h hfirst s
  cases hrun.symm.trans hrefused

/-- Where no field is missing, applying a decorrelator raises no warning and replaces each access
    over the variable, and none is left but those of the replacement. -/
theorem apply_of_misses_nil {e : Expr} {s : Session} (htaken : ∀ x ∈ e.walk, x.id < s.next)
    (hnone : d.misses e = []) :
    ∃ new s',
      (d.apply e).run s = ((new, { d with replaced := d.replaced + (d.reads e).length }), s') ∧
      s'.warnings = s.warnings ∧
      (∀ path x read, e.at? path = some x → x.fieldThrough? d.target = some read →
        ∃ id found, s.next ≤ id ∧
          new.at? path = some (.place id (.access d.replacement found)) ∧
          (d.row.find? fun field => field.name = read.name) = some found) ∧
      ∀ y ∈ new.walk, (y.fieldThrough? d.target).isSome = true →
        (∃ found, y.content = .access d.replacement found) ∨ y ∈ d.replacement.walk := by
  have hpass := replace_outcome d e { session := s } htaken
  have hcount : ((e.replace d.answer).run { session := s }).2.replaced = (d.reads e).length := by
    rw [hpass.replaced_eq, hits_eq_reads hnone, Nat.zero_add]
  have hwarnings := hpass.warnings_eq
  rw [hnone, List.map_nil, List.append_nil] at hwarnings
  rw [← hcount]
  refine ⟨_, _, rfl, hwarnings, fun path x read hx hread => ?_,
    hpass.substituted.access_of_replacement hnone⟩
  have hfield : d.fieldFor? x = d.row.find? fun field => field.name = read.name := by
    rw [fieldFor?, hread]
    rfl
  have hsome := isSome_fieldFor?_of_misses_nil hnone (Expr.mem_walk_of_at? hx)
  rw [hread] at hsome
  obtain ⟨found, hfound⟩ := Option.isSome_iff_exists.mp hsome
  obtain ⟨id, hid, hplaced⟩ := replace_at? (p := { session := s }) htaken hx hfound
  exact ⟨id, found, hid, hplaced, hfield ▸ hfound⟩

/-- Decorrelating a placed expression, as are all that are held on a workbench, is refused
    exactly when an access directly over the variable, anywhere in it, is to a field whose name
    no field of the replacement has. Then the error tells the type of the replacement and the
    name of the first such field in the order of the walk, and count and session stay as they
    are. Otherwise it does what `apply` does: there are no warnings, the count grows by one for
    each access over the variable, as often as it occurs, and at the position of each of them is
    a new object that reads the first field of the same name of the replacement; no other access
    over the variable is left, but for those in the replacement. -/
theorem decorrelate_refuses_or_replaces (d : Decorrelator) {e : Expr} {s : Session}
    (he : e.Placed s.next) :
    ((∃ type name d' s', (d.decorrelate e).run s = ((.error (.fieldNotFound type name), d'), s')) ↔
      ∃ x ∈ e.walk, ∃ read, x.fieldThrough? d.target = some read ∧
        ∀ field ∈ d.row, field.name ≠ read.name) ∧
    (∀ x rest, d.misses e = x :: rest → ∃ read cause, x.fieldThrough? d.target = some read ∧
      cause = .fieldNotFound d.replacement.type read.name ∧
      cause.message =
        "Type '" ++ d.replacement.type.text ++ "' has no field '" ++ read.name ++ "'" ∧
      (d.decorrelate e).run s = ((.error cause, d), s)) ∧
    (d.misses e = [] → ∃ new s',
      (d.apply e).run s = ((new, { d with replaced := d.replaced + (d.reads e).length }), s') ∧
      (d.decorrelate e).run s =
        ((.ok new, { d with replaced := d.replaced + (d.reads e).length }), s') ∧
      s'.warnings = s.warnings ∧
      (∀ path x read, e.at? path = some x → x.fieldThrough? d.target = some read →
        ∃ id found, s.next ≤ id ∧
          new.at? path = some (.place id (.access d.replacement found)) ∧
          (d.row.find? fun field => field.name = read.name) = some found) ∧
      ∀ y ∈ new.walk, (y.fieldThrough? d.target).isSome = true →
        (∃ found, y.content = .access d.replacement found) ∨ y ∈ d.replacement.walk) := by
  have hmisses : (∃ x ∈ e.walk, ∃ read, x.fieldThrough? d.target = some read ∧
      ∀ field ∈ d.row, field.name ≠ read.name) ↔ d.misses e ≠ [] := by
    simp only [← lacks_iff, misses, ne_eq, List.filter_eq_nil_iff, not_forall, exists_prop,
      not_not]
  refine ⟨?_, fun x rest hfirst => ?_, fun hnone => ?_⟩
  · rw [hmisses]
    constructor
    · rintro ⟨type, name, d', s', hrun⟩ hnone
      rw [decorrelate_of_misses_nil he.rendered hnone] at hrun
      cases hrun
    · intro hsome
      obtain ⟨x, rest, hfirst⟩ := List.exists_cons_of_ne_nil hsome
      obtain ⟨read, -, hrun⟩ := decorrelate_of_misses_cons he.rendered hfirst s
      exact ⟨_, _, _, _, hrun⟩
  · obtain ⟨read, hread, hrun⟩ := decorrelate_of_misses_cons he.rendered hfirst s
    exact ⟨read, _, hread, rfl, rfl, hrun⟩
  · obtain ⟨new, s', hrun, hwarnings, hreplaced, hleft⟩ := apply_of_misses_nil he.taken hnone
    have hsame := decorrelate_of_misses_nil he.rendered hnone s
    rw [hrun] at hsame
    exact ⟨new, s', hrun, hsame, hwarnings, hreplaced, hleft⟩

/-- Two objects of one digest, and an access below another one; the replacement is the variable
    itself with another row. Where that has the field in capitals it is refused for the first of the
    two; where it has all fields, three accesses are replaced, five were before. -/
theorem decorrelate_refuses_or_replaces_twins :
    let address := DataType.ofColumns [("city", .notNull .varchar)]
    let cor := Expr.place 0 (.correlation ⟨0⟩
      (.ofColumns [("address", address), ("deptno", .notNull .integer)]))
    let dept := Expr.place 1 (.access cor ⟨"deptno", 1, .notNull .integer⟩)
    let twin := Expr.place 2 (.access cor ⟨"deptno", 1, .notNull .integer⟩)
    let city := Expr.place 4 (.access
      (Expr.place 3 (.access cor ⟨"address", 0, address⟩)) ⟨"city", 0, .notNull .varchar⟩)
    let e := Expr.place 7 (.call .and
      [Expr.place 5 (.call .isNull [city] (.notNull .boolean)),
        Expr.place 6 (.call .equals [dept, twin] (.notNull .boolean))] (.notNull .boolean))
    let capitals := Row.number 0 [("DEPTNO", .notNull .bigint), ("address", address)]
    let row := Row.number 0 [("deptno", .notNull .bigint), ("address", address)]
    let d (row : Row) : Decorrelator :=
      ⟨⟨0⟩, Expr.place 8 (.correlation ⟨0⟩ (.row row)), row, rfl, 5⟩
    e.Placed 9 ∧
      ((d capitals).decorrelate e).run { next := 9 } =
        ((.error (.fieldNotFound (.row capitals) "deptno"), d capitals), { next := 9 }) ∧
      ∃ new s', ((d row).decorrelate e).run { next := 9 } =
          ((.ok new, { d row with replaced := 8 }), s') ∧
        s'.warnings = [] ∧
        ∃ id found, 9 ≤ id ∧ found.index = 0 ∧
          new.at? [1, 1] = some (.place id (.access (d row).replacement found)) := by
  intro address cor dept twin city e capitals row d
  have he : e.Placed ({ next := 9 } : Session).next := ⟨by decide, by decide⟩
  obtain ⟨read, _, hread, rfl, -, hrefused⟩ :=
    (decorrelate_refuses_or_replaces (d capitals) he).2.1 dept [twin] rfl
  obtain ⟨new, s', -, hrun, hwarnings, hreplaced, -⟩ :=
    (decorrelate_refuses_or_replaces (d row) he).2.2 rfl
  obtain ⟨id, found, hid, hat, hfound⟩ := hreplaced [1, 1] twin _ rfl rfl
  cases hread
  cases hfound
  exact ⟨he, hrefused, new, s', hrun, hwarnings, id, _, hid, rfl, hat⟩

end RowExpr.Decorrelator
