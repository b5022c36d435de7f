/-
  What an expression reads from enclosing blocks, as first occurrences in its walk.

  `fieldsThrough` lists the fields read directly through a variable, once for each access. The
  analysis keeps one for each digest; a digest over a given variable tells the name of the field and
  the other way round, dots and digits in names or not, so this is one for each name
  (`correlatedFields_eq`). `analyses_first_occurrences` says of the walk and of both analyses what
  they list, and in which order.
-/
import RowExpr.Proofs.Positions
import RowExpr.Proofs.Remaining

namespace RowExpr.Expr

variable {e : Expr} {id : CorrelationId}

/-- The fields read directly through variable `id`, one for each access, in the order of the
    walk. -/
def fieldsThrough (id : CorrelationId) (e : Expr) : List Field := e.walk.filterMap (fieldThrough? id)

/-- Whether the node reads a field of this name directly through variable `id`. -/
def readsName (id : CorrelationId) (name : String) (x : Expr) : Bool :=
  (x.fieldThrough? id).any fun read => read.name = name

theorem mem_fieldsThrough {read : Field} :
    read ∈ e.fieldsThrough id ↔ ∃ x ∈ e.walk, x.fieldThrough? id = some read :=
  List.mem_filterMap

/-- Two accesses over one variable have one digest exactly when their fields have one name. -/
theorem digest_eq_iff_name_eq {x y : Expr} {read read' : Field} (hx : x.digest = x.render)
    (hy : y.digest = y.render) (hread : x.fieldThrough? id = some read)
    (hread' : y.fieldThrough? id = some read') : x.digest = y.digest ↔ read.name = read'.name := by
  rw [Decorrelator.digest_of_fieldThrough? hread hx, Decorrelator.digest_of_fieldThrough? hread' hy,
    String.append_right_inj]

/-- One field for each digest is one for each name. -/
theorem correlatedFields_eq (h : ∀ x ∈ e.walk, x.digest = x.render) (id : CorrelationId) :
    e.correlatedFields id = firstSeenBy Field.name (e.fieldsThrough id) := by
  have hall : (e.walk.filter fun x => (x.fieldThrough? id).isSome).filterMap (fieldThrough? id) =
      e.fieldsThrough id := by
    rw [List.filterMap_filter]
    refine List.filterMap_congr fun x _ => ?_
    cases x.fieldThrough? id <;> rfl
  unfold correlatedFields
  rw [← hall]
  refine filterMap_firstSeenBy (fun x hx => (List.mem_filter.mp hx).2) ?_
  intro x hx y hy read read' hread hread'
  exact digest_eq_iff_name_eq (h x (List.mem_filter.mp hx).1) (h y (List.mem_filter.mp hy).1) hread
    hread'

/-- A field is listed if the first access over the variable to a field of its name reads it. -/
theorem mem_correlatedFields (h : ∀ x ∈ e.walk, x.digest = x.render) {field : Field} :
    field ∈ e.correlatedFields id ↔
      ∃ x, e.walk.find? (readsName id field.name) = some x ∧ x.fieldThrough? id = some field := by
  rw [correlatedFields_eq h, mem_firstSeenBy_iff, fieldsThrough, List.find?_filterMap,
    Option.bind_eq_some_iff]
  rfl

/-- Every name that is read is listed. -/
theorem exists_correlatedField (h : ∀ x ∈ e.walk, x.digest = x.render) {read : Field}
    (hread : read ∈ e.fieldsThrough id) :
    ∃ field ∈ e.correlatedFields id, field.name = read.name := by
  rw [correlatedFields_eq h]
  exact List.mem_map.mp
    ((key_mem_firstSeenBy Field.name _ read.name).mpr (List.mem_map_of_mem hread))

/-- What is listed was read. -/
theorem mem_fieldsThrough_of_mem (h : ∀ x ∈ e.walk, x.digest = x.render) {field : Field}
    (hfield : field ∈ e.correlatedFields id) : field ∈ e.fieldsThrough id := by
  rw [correlatedFields_eq h] at hfield
  exact mem_of_mem_firstSeenBy hfield

theorem nodup_correlatedFields (h : ∀ x ∈ e.walk, x.digest = x.render) (id : CorrelationId) :
    ((e.correlatedFields id).map Field.name).Nodup := by
  rw [correlatedFields_eq h]
  exact nodup_firstSeenAfter Field.name [] _

/-- They are listed in the order in which their names are first read. -/
theorem pairwise_correlatedFields (h : ∀ x ∈ e.walk, x.digest = x.render) (id : CorrelationId) :
    (e.correlatedFields id).Pairwise fun field other =>
      e.walk.findIdx (readsName id field.name) < e.walk.findIdx (readsName id other.name) := by
  rw [correlatedFields_eq h]
  exact pairwise_firstSeenBy Field.name (fieldThrough? id) e.walk

theorem nodup_correlationIds (e : Expr) : e.correlationIds.Nodup := by
  have hkeys := nodup_firstSeenAfter (fun v => v) [] (e.walk.filterMap correlation?)
  rwa [List.map_id'] at hkeys

/-- The variables are listed in the order in which they first occur. -/
theorem pairwise_correlationIds (e : Expr) :
    e.correlationIds.Pairwise fun v w =>
      e.walk.findIdx (fun x => x.correlation? = some v) <
        e.walk.findIdx (fun x => x.correlation? = some w) := by
  have hany (v : CorrelationId) : (fun x : Expr => x.correlation?.any fun w => w = v) =
      fun x => decide (x.correlation? = some v) := by
    funext x
    cases x.correlation? <;> simp
  have hpairs := pairwise_firstSeenBy (fun v => v) correlation? e.walk
  simp only [hany] at hpairs
  exact hpairs

/-- In an expression whose digests are up to date, as they are in all that are held on a
    workbench:

    * the walk meets what stands behind the paths into the expression, one after the other, in
      lexicographic order;
    * the variables listed are those that occur, each once, by their first occurrence in the walk;
    * the fields listed are those that the first access to a field of their name reads, for each
      name that is read, each name once, by the first access in the walk. To list one for each
      digest is to list one for each name. -/
theorem analyses_first_occurrences (h : ∀ x ∈ e.walk, x.digest = x.render) (id : CorrelationId) :
    (e.positions.Pairwise (· < ·) ∧ (∀ path, path ∈ e.positions ↔ (e.at? path).isSome = true) ∧
      e.positions.map e.at? = e.walk.map some) ∧
    (e.correlationIds.Nodup ∧ (∀ v, v ∈ e.correlationIds ↔ ∃ x ∈ e.walk, x.correlation? = some v) ∧
      e.correlationIds.Pairwise fun v w =>
        e.walk.findIdx (fun x => x.correlation? = some v) <
          e.walk.findIdx (fun x => x.correlation? = some w)) ∧
    ((e.correlatedFields id).map Field.name).Nodup ∧
    (∀ field, field ∈ e.correlatedFields id ↔
      ∃ x, e.walk.find? (readsName id field.name) = some x ∧ x.fieldThrough? id = some field) ∧
    (∀ x ∈ e.walk, ∀ read, x.fieldThrough? id = some read →
      ∃ field ∈ e.correlatedFields id, field.name = read.name) ∧
    ((e.correlatedFields id).Pairwise fun field other =>
      e.walk.findIdx (readsName id field.name) < e.walk.findIdx (readsName id other.name)) ∧
    e.correlatedFields id = firstSeenBy Field.name (e.fieldsThrough id) := by
  refine ⟨⟨pairwise_positions e, fun _ => mem_positions, map_at?_positions e⟩,
    ⟨nodup_correlationIds e, fun _ => mem_correlationIds, pairwise_correlationIds e⟩,
    nodup_correlatedFields h id, fun _ => mem_correlatedFields h, fun x hx read hread => ?_,
    pairwise_correlatedFields h id, correlatedFields_eq h id⟩
  exact exists_correlatedField h (mem_fieldsThrough.mpr ⟨x, hx, hread⟩)

/-- A field with a dot in its name, read twice, the second time by another descriptor, beside an
    access below another one that is written the same way, and a field of another variable. -/
theorem analyses_first_occurrences_dotted :
    let inner := DataType.ofColumns [("b", .notNull .varchar)]
    let row := DataType.ofColumns [("a", inner), ("a.b", .notNull .integer)]
    let cor := Expr.place 0 (.correlation ⟨3⟩ row)
    let other := Expr.place 1 (.correlation ⟨1⟩ row)
    let a : Field := ⟨"a", 0, inner⟩
    let dotted : Field := ⟨"a.b", 1, .notNull .integer⟩
    let nested := Expr.place 3 (.access (Expr.place 2 (.access cor a)) ⟨"b", 0, .notNull .varchar⟩)
    let read := Expr.place 4 (.access cor dotted)
    let again := Expr.place 5 (.access cor ⟨"a.b", 7, .nullable .bigint⟩)
    let e := Expr.place 8 (.call .and
      [Expr.place 6 (.call .isNull [read] (.notNull .boolean)),
        Expr.place 7 (.call .equals [again, Expr.place 9 (.access other a)] (.notNull .boolean)),
        nested, read] (.notNull .boolean))
    (∀ x ∈ e.walk, x.digest = x.render) ∧ nested.digest = read.digest ∧
      e.correlatedFields ⟨3⟩ = [dotted, a] ∧ e.correlationIds = [⟨3⟩, ⟨1⟩] ∧
      e.walk.findIdx (readsName ⟨3⟩ "a.b") < e.walk.findIdx (readsName ⟨3⟩ "a") ∧
      [2, 0, 0] ∈ e.positions ∧ [2, 0, 1] ∉ e.positions := by
  intro inner row cor other a dotted nested read again e
  have h : ∀ x ∈ e.walk, x.digest = x.render := by decide
  obtain ⟨⟨-, hpositions, -⟩, -, -, -, -, hordered, hfields⟩ := analyses_first_occurrences h ⟨3⟩
  have hlisted : e.correlatedFields ⟨3⟩ = [dotted, a] := hfields.trans (by decide)
  rw [hlisted] at hordered
  have hfirst := (List.pairwise_cons.mp hordered).1 a List.mem_cons_self
  refine ⟨h, by decide, hlisted, by decide, hfirst, (hpositions _).mpr (by decide), ?_⟩
  exact fun hmem => absurd ((hpositions _).mp hmem) (by decide)

end RowExpr.Expr
