/-
  Replacing one part of an expression.

  `graft r path e` is `e` with `r` in place of the part behind `path`: the nodes above are made
  anew, from the inside out, each by the operation for its variant. The text of a child stands whole
  in the text of its node, between two texts that do not depend on it (`withChild?_text`), and so
  does every part in the text of the expression (`graft_text`). A part can therefore be exchanged
  for an equal one, and for no other, if the expression is to stay equal (`graft_beq_iff`).
-/
import RowExpr.Expr.Edit
import RowExpr.Proofs.Tree

namespace RowExpr

/-! ## Texts around a text -/

/-- `f` puts a text between two texts that do not depend on it. -/
def Encloses (f : String → String) : Prop :=
  ∃ before behind, ∀ text, f text = before ++ text ++ behind

namespace Encloses

variable {f g : String → String}

theorem id : Encloses fun text => text := ⟨"", "", by simp⟩

theorem append (before behind : String) : Encloses fun text => before ++ text ++ behind :=
  ⟨before, behind, fun _ => rfl⟩

theorem comp (hf : Encloses f) (hg : Encloses g) : Encloses fun text => f (g text) := by
  obtain ⟨before, behind, hf⟩ := hf
  obtain ⟨before', behind', hg⟩ := hg
  exact ⟨before ++ before', behind' ++ behind, by simp [hf, hg, String.append_assoc]⟩

/-- What stands around a text hides no difference. -/
theorem eq_iff (hf : Encloses f) {text text' : String} : f text = f text' ↔ text = text' := by
  obtain ⟨before, behind, hf⟩ := hf
  simp [hf, String.append_left_inj, String.append_right_inj]

/-- Of several texts that are joined, one is put between the others. -/
theorem intercalate (separator : String) {texts : List String} {i : Nat} (hi : i < texts.length) :
    Encloses fun text => separator.intercalate (texts.set i text) := by
  induction texts generalizing i with
  | nil => cases hi
  | cons first rest ih =>
    cases i with
    | zero =>
      cases rest with
      | nil => exact ⟨"", "", by simp⟩
      | cons second rest =>
        exact ⟨"", separator ++ separator.intercalate (second :: rest), by
          simp [String.append_assoc]⟩
    | succ i =>
      have hrest : rest ≠ [] := List.ne_nil_of_length_pos (by rw [List.length_cons] at hi; omega)
      have hset (text : String) : rest.set i text ≠ [] := by simpa using hrest
      have hjoined := (append (first ++ separator) "").comp (ih (Nat.lt_of_succ_lt_succ hi))
      simpa [String.intercalate_cons_of_ne_nil (hset _)] using hjoined

end Encloses

/-! ## One child -/

namespace Expr

/-- What `e` says over other children, of which number `i` is `new` and the rest are its own. -/
def withChild? (e : Expr) (i : Nat) (new : Expr) : Option (Content Expr) :=
  match e.content with
  | .call _ operands _ => e.withOperands? (operands.set i new)
  | .access _ _ => e.withReference? new
  | _ => none

/-- A call with operands is no bare name, so each operand stands in its text. -/
theorem call_text (operator : Operator) {operands : List Expr} (type : DataType) {i : Nat}
    {c : Expr} (hc : operands[i]? = some c) :
    ∃ around, Encloses around ∧
      (Content.call operator operands type).digest Expr.digest = around c.digest ∧
      ∀ new, (Content.call operator (operands.set i new) type).digest Expr.digest =
        around new.digest := by
  obtain ⟨hi, hget⟩ := List.getElem?_eq_some_iff.mp hc
  have hlength : i < (operands.map Expr.digest).length := by simpa using hi
  have haround := (Encloses.append (operator.name ++ "(") ")").comp
    (Encloses.intercalate ", " hlength)
  have htext (new : Expr) : (Content.call operator (operands.set i new) type).digest Expr.digest =
      operator.name ++ "(" ++
        ", ".intercalate ((operands.map Expr.digest).set i new.digest) ++ ")" := by
    have hsome : (operands.set i new).isEmpty = false := by
      cases operands <;> simp_all
    simp [Content.digest, hsome, List.map_set]
  refine ⟨_, haround, ?_, htext⟩
  rw [← htext c, ← hget, List.set_getElem_self]

/-- The text of a child stands whole in the text of its node, and what stands around it is the
    same for every child put there. -/
theorem withChild?_text {e c : Expr} {i : Nat} (hc : e.children[i]? = some c) :
    ∃ around, Encloses around ∧ e.content.digest Expr.digest = around c.digest ∧
      ∀ new, ∃ content, e.withChild? i new = some content ∧
        content.digest Expr.digest = around new.digest := by
  obtain ⟨id, digest, content⟩ := e
  cases content with
  | call operator operands type =>
    obtain ⟨around, haround, hself, htext⟩ := call_text operator type hc
    exact ⟨around, haround, hself, fun new => ⟨_, rfl, htext new⟩⟩
  | access reference field =>
    obtain rfl : c = reference := List.mem_singleton.mp (List.mem_of_getElem? hc)
    have haround := Encloses.append "" ("." ++ field.name)
    refine ⟨_, haround, ?_, fun new => ⟨_, rfl, ?_⟩⟩ <;> simp [Content.digest, String.append_assoc]
  | literal _ _ | inputRef _ _ | correlation _ _ => cases hc

theorem children_withChild? {e c new : Expr} {i : Nat} {content : Content Expr}
    (hc : e.children[i]? = some c) (h : e.withChild? i new = some content) :
    content.children = e.children.set i new := by
  obtain ⟨id, digest, old⟩ := e
  cases old with
  | call operator operands type =>
    cases h
    rfl
  | access reference field =>
    cases h
    obtain ⟨hi, -⟩ := List.getElem?_eq_some_iff.mp hc
    obtain rfl : i = 0 := Nat.lt_one_iff.mp hi
    rfl
  | literal _ _ | inputRef _ _ | correlation _ _ => cases hc

/-! ## One part -/

/-- The expression with `r` in place of the part behind the path, if there is one. -/
def graft (r : Expr) : List Nat → Expr → SessionM (Option Expr)
  | [], _ => return some r
  | i :: path, e => do
    let some c := e.children[i]? | return none
    let some new ← graft r path c | return none
    let some content := e.withChild? i new | return none
    return some (← Session.place content)

/-- One node over the graft below it. -/
theorem graft_cons {e c r new : Expr} {i : Nat} {path : List Nat} {content : Content Expr}
    {s s' : Session} (hc : e.children[i]? = some c) (hrun : (graft r path c).run s = (some new, s'))
    (hcontent : e.withChild? i new = some content) :
    (graft r (i :: path) e).run s =
      (some (.place s'.next content), { s' with next := s'.next + 1 }) := by
  simp only [graft, hc, run_bind, hrun, hcontent]
  rfl

/-- `new` is `e` with `r` behind `path`: what is neither above nor below it stays as it is. -/
structure Exchanged (path : List Nat) (r e new : Expr) : Prop where
  here : new.at? path = some r
  beside : ∀ other, ¬ other <+: path → ¬ path <+: other → new.at? other = e.at? other

theorem Exchanged.nil (r e : Expr) : Exchanged [] r e r :=
  ⟨rfl, fun _ _ hbelow => absurd List.nil_prefix hbelow⟩

theorem Exchanged.cons {e c r new new' : Expr} {i : Nat} {path : List Nat}
    (h : Exchanged path r c new) (hc : e.children[i]? = some c)
    (hchildren : new'.children = e.children.set i new) : Exchanged (i :: path) r e new' where
  here := by
    obtain ⟨hi, -⟩ := List.getElem?_eq_some_iff.mp hc
    simp [at?_cons, hchildren, hi, h.here]
  beside := by
    intro other habove hbelow
    cases other with
    | nil => exact absurd List.nil_prefix habove
    | cons j other =>
      rw [at?_cons, at?_cons, hchildren]
      by_cases hij : i = j
      · subst hij
        rw [List.cons_prefix_cons, not_and] at habove hbelow
        obtain ⟨hi, rfl⟩ := List.getElem?_eq_some_iff.mp hc
        simpa [hi] using h.beside other (habove rfl) (hbelow rfl)
      · rw [List.getElem?_set_ne hij]

/-- The text of a part stands whole in the text of the expression, and what stands around it is
    the same for every part put there: by induction on the path, one node at a time. -/
theorem graft_text {root part : Expr} {path : List Nat}
    (hroot : ∀ x ∈ root.walk, x.digest = x.render) (hpart : root.at? path = some part) :
    ∃ around, Encloses around ∧ root.digest = around part.digest ∧
      ∀ r s, ∃ new s', (graft r path root).run s = (some new, s') ∧
        new.digest = around r.digest ∧ Exchanged path r root new := by
  induction path generalizing root with
  | nil =>
    obtain rfl : root = part := Option.some_inj.mp hpart
    exact ⟨_, .id, rfl, fun r s => ⟨r, s, rfl, rfl, .nil r root⟩⟩
  | cons i path ih =>
    obtain ⟨c, hc, hpart⟩ := Option.bind_eq_some_iff.mp hpart
    have hchild := List.mem_of_getElem? hc
    obtain ⟨inner, hinner, hinside, hgraft⟩ :=
      ih (fun x hx => hroot x (mem_walk_of_child hchild hx)) hpart
    obtain ⟨outer, houter, houtside, hwith⟩ := withChild?_text hc
    refine ⟨_, houter.comp hinner, ?_, fun r s => ?_⟩
    · rw [digest_eq_of_rendered hroot, houtside, hinside]
    · obtain ⟨new, s', hrun, hnew, hexchanged⟩ := hgraft r s
      obtain ⟨content, hcontent, htext⟩ := hwith new
      refine ⟨_, _, graft_cons hc hrun hcontent, ?_, ?_⟩
      · rw [digest_place, htext, hnew]
      · exact hexchanged.cons hc (children_withChild? hc hcontent)

/-- Putting `r` in place of a part, wherever that part is, gives an expression equal to the
    one before if and only if `r` is equal to the part. -/
theorem graft_beq_iff {root part : Expr} {path : List Nat}
    (hroot : ∀ x ∈ root.walk, x.digest = x.render) (hpart : root.at? path = some part)
    (r : Expr) (s : Session) :
    ∃ new s', (graft r path root).run s = (some new, s') ∧ Exchanged path r root new ∧
      ((new == root) = true ↔ (r == part) = true) := by
  obtain ⟨around, haround, hself, hgraft⟩ := graft_text hroot hpart
  obtain ⟨new, s', hrun, hnew, hexchanged⟩ := hgraft r s
  refine ⟨new, s', hrun, hexchanged, ?_⟩
  rw [beq_iff, beq_iff, hnew, hself, haround.eq_iff]

/-- A part inside two accesses, a call whose name has the separators in it, and a sum, beside a
    bare name. An operator may be named like the part, and then reads the same; what reads `$cor0`
    does not. -/
theorem graft_beq_iff_separators :
    let city := Field.mk "city" 0 (.notNull .varchar)
    let home := Field.mk "home" 0 (.ofColumns [("city", .notNull .varchar)])
    let cor := Expr.place 0 (.correlation ⟨0⟩ (.ofColumns [("home", home.type)]))
    let part := Expr.place 1 (.access cor home)
    let today := Expr.place 2 (.call (.identifier "today") [] (.notNull .date))
    let read := Expr.place 4 (.call (.function "f(, " (.atLeast 1))
      [today, Expr.place 3 (.access part city)] (.notNull .varchar))
    let root := Expr.place 5 (.call .plus [today, read] (.notNull .varchar))
    let named := Expr.place 6 (.call (.identifier "$cor0.home") [] home.type)
    (∀ x ∈ root.walk, x.digest = x.render) ∧ root.at? [1, 1, 0] = some part ∧
      ∃ new s' new' s'', (graft named [1, 1, 0] root).run { next := 7 } = (some new, s') ∧
        (new == root) = true ∧ (graft cor [1, 1, 0] root).run { next := 7 } = (some new', s'') ∧
        ¬ (new' == root) = true := by
  intro city home cor part today read root named
  have hroot : ∀ x ∈ root.walk, x.digest = x.render := by decide
  have hpart : root.at? [1, 1, 0] = some part := rfl
  obtain ⟨new, s', hrun, -, hequal⟩ := graft_beq_iff hroot hpart named { next := 7 }
  obtain ⟨new', s'', hrun', -, hequal'⟩ := graft_beq_iff hroot hpart cor { next := 7 }
  exact ⟨hroot, hpart, new, s', new', s'', hrun, hequal.mpr (by decide), hrun',
    fun h => absurd (hequal'.mp h) (by decide)⟩

end Expr

end RowExpr
