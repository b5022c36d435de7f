/-
  The text behind the key of a node.

  The key is the hash of the digest, a colon and the text of the type (`Expr.keyText`). A type is
  `Legible` if the fields in it are numbered from zero and have words for names. Such a type is
  read back from its text (`Legible.text_inj`): the fields of a row by the commas outside
  parentheses, the name of a field behind its last space. There is no colon in the text, so the
  last one in a key text ends the digest, whatever the digest holds (`keyText_eq_iff`).
-/
import RowExpr.DataType.Json
import RowExpr.Proofs.Buckets
import RowExpr.Proofs.Readable

namespace RowExpr

open Operands

/-! ## Texts of types -/

namespace DataType

/-- A scalar, or a row made from columns of such types, with names made of ASCII letters, digits
    and underscores. -/
inductive Legible : DataType → Prop
  | scalar (name : ScalarName) (nullable : Bool) : Legible (.scalar name nullable)
  | ofColumns {columns : List (String × DataType)}
    (hnames : ∀ c ∈ columns, ∀ x ∈ c.1.toList, isWordChar x = true)
    (htypes : ∀ c ∈ columns, Legible c.2) : Legible (.ofColumns columns)

/-- All scalar types. -/
def scalars : List DataType :=
  ScalarName.all.flatMap fun name => [.notNull name, .nullable name]

theorem scalar_mem_scalars (name : ScalarName) (nullable : Bool) :
    scalar name nullable ∈ scalars := by
  cases name <;> cases nullable <;> decide

theorem scalars_text_nodup : (scalars.map text).Nodup := by decide

/-- The text of a scalar opens, closes and separates nothing, and has no colon. -/
theorem mem_text_scalar {name : ScalarName} {nullable : Bool} :
    ∀ x ∈ (scalar name nullable).text.toList, isOrdinary x = true ∧ x ≠ ':' := by
  have hall :
      (scalar name nullable).text.toList.all (fun x => isOrdinary x && x != ':') = true := by
    cases name <;> cases nullable <;> decide
  intro x hx
  simpa using List.all_eq_true.mp hall x hx

/-- The text of a column: its type, a space, its name. -/
def columnText (column : String × DataType) : List Char :=
  column.2.text.toList ++ ' ' :: column.1.toList

theorem toList_text_number (start : Nat) (columns : List (String × DataType)) :
    (Row.text (Row.number start columns)).toList =
      [',', ' '].intercalate (columns.map columnText) := by
  induction columns generalizing start with
  | nil => rfl
  | cons column columns ih =>
    cases columns with
    | nil =>
      show (column.2.text ++ " " ++ column.1).toList = _
      simp [columnText]
    | cons next columns =>
      have htext : Row.text (Row.number start (column :: next :: columns)) =
          column.2.text ++ " " ++ column.1 ++ ", " ++
            Row.text (Row.number (start + 1) (next :: columns)) := rfl
      have hlist : [',', ' '].intercalate ((column :: next :: columns).map columnText) =
          columnText column ++ [',', ' '] ++
            [',', ' '].intercalate ((next :: columns).map columnText) :=
        List.intercalate_cons_cons
      rw [htext, hlist, String.toList_append, ih]
      simp [columnText]

theorem toList_text_ofColumns (columns : List (String × DataType)) :
    (ofColumns columns).text.toList =
      "RecordType".toList ++ ('(' :: [',', ' '].intercalate (columns.map columnText) ++ [')']) := by
  have htext : (ofColumns columns).text =
      "RecordType(" ++ Row.text (Row.number 0 columns) ++ ")" := rfl
  rw [htext, String.toList_append, String.toList_append, toList_text_number]
  rfl

/-- A scalar does not read like a row. -/
theorem text_scalar_ne {name : ScalarName} {nullable : Bool}
    {columns : List (String × DataType)} :
    (scalar name nullable).text ≠ (ofColumns columns).text := by
  intro h
  have hopen : '(' ∈ (scalar name nullable).text.toList := by
    rw [h, toList_text_ofColumns]
    exact List.mem_append_right _ List.mem_cons_self
  exact absurd (mem_text_scalar '(' hopen).1 (by decide)

end DataType

/-! ## Reading a type back -/

/-- A text that closes what it opens, is not empty, and has no colon. -/
structure Enclosed (text : List Char) : Prop where
  passes : Passes 0 text
  ne_nil : text ≠ []
  colon : ':' ∉ text

namespace DataType

theorem enclosed_scalar (name : ScalarName) (nullable : Bool) :
    Enclosed (scalar name nullable).text.toList where
  passes := .of_ordinary fun x hx => (mem_text_scalar x hx).1
  ne_nil := by cases name <;> cases nullable <;> decide
  colon := fun hcolon => (mem_text_scalar ':' hcolon).2 rfl

theorem enclosed_column {column : String × DataType}
    (hname : ∀ x ∈ column.1.toList, isWordChar x = true)
    (htype : Enclosed column.2.text.toList) : Enclosed (columnText column) := by
  have hchars : ∀ x ∈ ' ' :: column.1.toList, isOrdinary x = true ∧ x ≠ ':' := by
    rw [List.forall_mem_cons]
    refine ⟨by decide, fun x hx => ⟨isOrdinary_of_isWordChar (hname x hx), ?_⟩⟩
    rintro rfl
    exact absurd (hname ':' hx) (by decide)
  refine ⟨htype.passes.append (.of_ordinary fun x hx => (hchars x hx).1),
    List.append_ne_nil_of_left_ne_nil htype.ne_nil _, fun hmem => ?_⟩
  rcases List.mem_append.mp hmem with hmem | hmem
  · exact htype.colon hmem
  · exact (hchars ':' hmem).2 rfl

theorem enclosed_ofColumns {columns : List (String × DataType)}
    (h : ∀ column ∈ columns, Enclosed (columnText column)) :
    Enclosed (ofColumns columns).text.toList := by
  rw [toList_text_ofColumns]
  rw [← List.forall_mem_map] at h
  have hlist := passes_intercalate fun text htext => (h text htext).passes
  have hcolon := notMem_intercalate (by decide) fun text htext => (h text htext).colon
  have hword : "RecordType".toList.all isOrdinary = true := by decide
  refine ⟨(Passes.of_ordinary (List.all_eq_true.mp hword)).append hlist.parenthesized,
    List.append_ne_nil_of_left_ne_nil (by decide) _, fun hmem => ?_⟩
  rw [List.mem_append, List.cons_append, List.mem_cons, List.mem_append,
    List.mem_singleton] at hmem
  rcases hmem with hmem | hmem | hmem | hmem
  · exact absurd hmem (by decide)
  · cases hmem
  · exact hcolon hmem
  · cases hmem

/-- A column is read back from its text if its type is. -/
theorem columnText_inj {c d : String × DataType} (hc : ∀ x ∈ c.1.toList, isWordChar x = true)
    (hd : ∀ x ∈ d.1.toList, isWordChar x = true) (htype : c.2.text = d.2.text → c.2 = d.2)
    (h : columnText c = columnText d) : c = d := by
  have hspace {name : String} (hname : ∀ x ∈ name.toList, isWordChar x = true) :
      ' ' ∉ name.toList :=
    fun hmem => absurd (hname ' ' hmem) (by decide)
  obtain ⟨htext, hname⟩ := append_cons_inj (hspace hc) (hspace hd) h
  exact Prod.ext (String.toList_inj.mp hname) (htype (String.toList_inj.mp htext))

namespace Legible

variable {a b : DataType}

theorem enclosed (h : a.Legible) : Enclosed a.text.toList := by
  induction h with
  | scalar name nullable => exact enclosed_scalar name nullable
  | ofColumns hnames _ ih =>
    exact enclosed_ofColumns fun c hc => enclosed_column (hnames c hc) (ih c hc)

theorem enclosed_columns {columns : List (String × DataType)}
    (hnames : ∀ c ∈ columns, ∀ x ∈ c.1.toList, isWordChar x = true)
    (htypes : ∀ c ∈ columns, Legible c.2) :
    ∀ text ∈ columns.map columnText, Passes 0 text ∧ text ≠ [] := by
  rw [List.forall_mem_map]
  intro c hc
  have hcolumn := enclosed_column (hnames c hc) (htypes c hc).enclosed
  exact ⟨hcolumn.passes, hcolumn.ne_nil⟩

/-- Legible types of one text are equal. -/
theorem text_inj (ha : a.Legible) (hb : b.Legible) (h : a.text = b.text) : a = b := by
  -- by induction on one of the types: rows are cut at the same commas, so that columns of one
  -- text stand at each place
  induction ha generalizing b with
  | scalar name nullable =>
    cases hb with
    | scalar name' nullable' =>
      exact List.inj_on_of_nodup_map scalars_text_nodup (scalar_mem_scalars _ _)
        (scalar_mem_scalars _ _) h
    | ofColumns _ _ => exact absurd h text_scalar_ne
  | @ofColumns columns hnames htypes ih =>
    cases hb with
    | scalar _ _ => exact absurd h.symm text_scalar_ne
    | @ofColumns columns' hnames' htypes' =>
      have htext := congrArg String.toList h
      rw [toList_text_ofColumns, toList_text_ofColumns] at htext
      have hinner := (List.cons.inj (List.append_cancel_left htext)).2
      have hlists := intercalate_inj (enclosed_columns hnames htypes)
        (enclosed_columns hnames' htypes') (List.append_cancel_right hinner)
      have hall := forall₂_imp_of_mem (map_eq_map_iff.mp hlists) fun c hc d hd =>
        columnText_inj (hnames c hc) (hnames' d hd) (ih c hc (htypes' d hd))
      rw [List.forall₂_eq_eq_eq] at hall
      rw [hall]

end Legible
end DataType

/-! ## Key texts -/

/-- The text that the key of a node is the hash of. -/
def Expr.keyText (e : Expr) : String := e.digest ++ ":" ++ e.type.text

/-- The text tells digest and type, whatever the digest is. -/
theorem Expr.keyText_eq_iff {a b : Expr} (ha : a.type.Legible) (hb : b.type.Legible) :
    a.keyText = b.keyText ↔ a.digest = b.digest ∧ a.type = b.type := by
  have hlist (e : Expr) : e.keyText.toList = e.digest.toList ++ ':' :: e.type.text.toList := by
    simp [keyText]
  constructor
  · intro h
    have htext := congrArg String.toList h
    rw [hlist, hlist] at htext
    obtain ⟨hdigest, htype⟩ := append_cons_inj ha.enclosed.colon hb.enclosed.colon htext
    exact ⟨String.toList_inj.mp hdigest, ha.text_inj hb (String.toList_inj.mp htype)⟩
  · rintro ⟨hdigest, htype⟩
    unfold keyText
    rw [hdigest, htype]

/-- Different texts of one hash. -/
def StableHash.Collide (x y : String) : Prop :=
  x ≠ y ∧ StableHash.ofText x = StableHash.ofText y

/-- Nodes of whatever digests, of legible types: their key texts agree exactly when their digests
    and types do, which is when a cache that keeps the one hands it back for the other. So nodes
    that are told apart have one key only if their key texts collide. -/
theorem Expr.keyText_eq_iff_shared {a b : Expr} (ha : a.type.Legible) (hb : b.type.Legible) :
    (a.keyText = b.keyText ↔ a.digest = b.digest ∧ a.type = b.type) ∧
      (∀ (capacity : Nat) (calls : List DigestCache.Call) (s : Session),
        a ∈ (DigestCache.after capacity calls).nodes →
          ((((DigestCache.after capacity calls).intern b).run s).1.1 = a ↔
            a.keyText = b.keyText)) ∧
      (¬ (a.digest = b.digest ∧ a.type = b.type) → a.key = b.key →
        StableHash.Collide a.keyText b.keyText) := by
  have htext := keyText_eq_iff ha hb
  refine ⟨htext, fun capacity calls s hcached => ?_, fun hapart hkey => ?_⟩
  · rw [htext]
    exact (DigestCache.wellFormed_after capacity calls).intern_eq_iff hcached b s
  · rw [key_eq, key_eq] at hkey
    exact ⟨mt htext.mp hapart, hkey⟩

/-- A row in a row, with fields named NOT and NULL and one that is an empty row, under a digest
    that reads like a key text itself. -/
theorem Expr.keyText_eq_iff_shared_nested :
    let inner := DataType.ofColumns [("NOT", .nullable .integer), ("none", .ofColumns [])]
    let outer := DataType.ofColumns [("NULL", .notNull .any), ("r", inner)]
    let kept : Expr := ⟨0, "x:ANY", .inputRef 0 outer⟩
    let again : Expr := ⟨1, "x:ANY", .correlation ⟨0⟩ outer⟩
    let cache := DigestCache.after 1 [.intern kept {}]
    kept.keyText =
        "x:ANY:RecordType(ANY NOT NULL NULL, RecordType(INTEGER NOT, RecordType() none) r)" ∧
      (kept.keyText = again.keyText ↔ kept.digest = again.digest ∧ kept.type = again.type) ∧
      (((cache.intern again).run {}).1.1 = kept ↔ kept.keyText = again.keyText) ∧
      ∀ e : Expr, e.type = .notNull .any → e.key = kept.key →
        StableHash.Collide e.keyText kept.keyText := by
  intro inner outer kept again cache
  have hnone : (DataType.ofColumns []).Legible :=
    .ofColumns (List.forall_mem_nil _) (List.forall_mem_nil _)
  have hnames : ["NOT", "none", "NULL", "r"].all (·.toList.all isWordChar) = true := by decide
  simp only [List.all_cons, List.all_nil, Bool.and_eq_true, List.all_eq_true] at hnames
  obtain ⟨hnot, hempty, hnull, hr, -⟩ := hnames
  have hinner : inner.Legible := .ofColumns
    (List.forall_mem_cons.mpr ⟨hnot, List.forall_mem_singleton.mpr hempty⟩)
    (List.forall_mem_cons.mpr ⟨.scalar .integer true, List.forall_mem_singleton.mpr hnone⟩)
  have houter : outer.Legible := .ofColumns
    (List.forall_mem_cons.mpr ⟨hnull, List.forall_mem_singleton.mpr hr⟩)
    (List.forall_mem_cons.mpr ⟨.scalar .any false, List.forall_mem_singleton.mpr hinner⟩)
  have hcached : kept ∈ cache.nodes := List.mem_cons_self
  obtain ⟨htext, hshared, -⟩ := keyText_eq_iff_shared (a := kept) (b := again) houter houter
  refine ⟨by decide, htext, hshared 1 _ {} hcached, fun e htype => ?_⟩
  have hscalar : e.type.Legible := by
    rw [htype]
    exact .scalar .any false
  refine (keyText_eq_iff_shared hscalar (b := kept) houter).2.2 fun hsame => ?_
  rw [htype] at hsame
  cases hsame.2

end RowExpr
