/-
  Replacing leaves.

  A function on leaves acts on an expression through its leaves alone: `LeavesMapped` relates an
  expression to the one in which every leaf is its image, every call keeps its operator and type,
  and every access its field. A part whose leaves are all their own images is the very object it
  was, and a node above any other leaf is new. `replace_maps` carries this through the traversal;
  whether a child has changed is told by its identity, and this is enough because new nodes get
  identities that no node had (`LeavesMapped.same_iff`).
-/
import RowExpr.Expr.Replace
import RowExpr.Proofs.Tree

namespace RowExpr.Expr

/-! ## Images of leaves -/

/-- What a leaf becomes: the answer of `f`, or else the leaf itself. -/
def image (f : Expr → Option Expr) (leaf : Expr) : Expr := (f leaf).getD leaf

/-- Every leaf of `e` is its own image, as an object. -/
def Fixed (f : Expr → Option Expr) (e : Expr) : Prop :=
  ∀ x ∈ e.walk, x.isLeaf = true → (image f x).same x = true

instance (f : Expr → Option Expr) (e : Expr) : Decidable (Fixed f e) :=
  inferInstanceAs (Decidable (∀ x ∈ e.walk, _ → _))

/-- `new` is `e` with every leaf replaced by its image; nodes made for it have identities from
    `next` on. -/
inductive LeavesMapped (f : Expr → Option Expr) (next : NodeId) : Expr → Expr → Prop
  | leaf {e : Expr} (h : e.isLeaf = true) : LeavesMapped f next e (image f e)
  /-- All leaves stay: the same object. -/
  | kept {e : Expr} (h : e.isLeaf = false) (hfixed : Fixed f e) : LeavesMapped f next e e
  /-- Some leaf below changes: a new node that says the same over the new children. -/
  | rebuilt {e : Expr} {id : NodeId} {content : Content Expr} (h : e.isLeaf = false)
    (hfixed : ¬ Fixed f e) (hid : next ≤ id)
    (hcontent : Content.Over (LeavesMapped f next) e.content content) :
    LeavesMapped f next e (.place id content)

variable {f : Expr → Option Expr} {next : NodeId}

theorem children_of_isLeaf {e : Expr} (h : e.isLeaf = true) : e.children = [] := by
  obtain ⟨id, digest, content⟩ := e
  cases content with
  | call _ _ _ | access _ _ => cases h
  | literal _ _ | inputRef _ _ | correlation _ _ => rfl

theorem fixed_leaf_iff {e : Expr} (h : e.isLeaf = true) :
    Fixed f e ↔ (image f e).same e = true := by
  unfold Fixed
  simp [walk_eq, children_of_isLeaf h, walkAll, h]

theorem fixed_inner_iff {e : Expr} (h : e.isLeaf = false) :
    Fixed f e ↔ ∀ c ∈ e.children, Fixed f c := by
  unfold Fixed
  rw [forall_walk_iff]
  simp [h]

/-- A result is the object it came from exactly when no leaf changed. -/
theorem LeavesMapped.same_iff {e new : Expr} (h : LeavesMapped f next e new)
    (htaken : e.id < next) : new.same e = true ↔ Fixed f e := by
  cases h with
  | leaf hleaf => rw [fixed_leaf_iff hleaf]
  | kept _ hfixed => simp [same, hfixed]
  | @rebuilt _ id _ _ hfixed hid _ =>
    have hne : id ≠ e.id := Nat.ne_of_gt (Nat.lt_of_lt_of_le htaken hid)
    simp [same, place, hfixed, hne]

theorem sameAll_iff {es news : List Expr} (h : List.Forall₂ (LeavesMapped f next) es news)
    (htaken : ∀ e ∈ es, e.id < next) :
    sameAll news es = true ↔ ∀ e ∈ es, Fixed f e := by
  induction h with
  | nil => simp [sameAll]
  | @cons e new es news hfirst _ ih =>
    rw [List.forall_mem_cons] at htaken
    rw [List.forall_mem_cons, ← hfirst.same_iff htaken.1, ← ih htaken.2, sameAll_cons,
      Bool.and_eq_true]

/-! ## The traversal -/

/-- What is done about one node: only leaves are looked at. -/
def answerLeaf (f : Expr → Option Expr) (node : Expr) : SessionM (Option Expr) :=
  return if node.isLeaf then f node else none

theorem offer_inner {e : Expr} (h : e.isLeaf = false) (descend : PassM Expr) (p : Pass) :
    (offer (answerLeaf f) e descend).run p = descend.run p := by
  have hlift : (Pass.lift (answerLeaf f e)).run p = (none, p) := by
    unfold answerLeaf
    rw [h]
    rfl
  simp only [offer, run_bind, hlift]

theorem offer_leaf {e : Expr} (h : e.isLeaf = true) (p : Pass) :
    ∃ n, (offer (answerLeaf f) e (return e)).run p = (image f e, { p with replaced := n }) := by
  have hlift : (Pass.lift (answerLeaf f e)).run p = (f e, p) := by
    unfold answerLeaf
    rw [h]
    rfl
  simp only [offer, run_bind, hlift, image]
  cases f e with
  | some new => exact ⟨_, rfl⟩
  | none => exact ⟨_, rfl⟩

/-- How a pass over `e` ends. -/
structure Ends (f : Expr → Option Expr) (next : NodeId) (e : Expr) (r : Expr × Pass) : Prop where
  mapped : LeavesMapped f next e r.1
  next_le : next ≤ r.2.session.next

/-- Over children that are mapped, a node is kept if they all came back as they were, and made anew
    otherwise. -/
theorem ends_rebuild {e : Expr} {content : Content Expr} {news : List Expr} {p : Pass} {all : Bool}
    (h : e.isLeaf = false) (htaken : ∀ x ∈ e.walk, x.id < next)
    (hnews : List.Forall₂ (LeavesMapped f next) e.children news)
    (hall : all = sameAll news e.children) (hp : next ≤ p.session.next)
    (hcontent : Content.Over (LeavesMapped f next) e.content content) :
    Ends f next e
      ((if all then return e else Pass.lift (Session.place content) : PassM Expr).run p) := by
  have hsame := sameAll_iff hnews fun c hc => htaken c (mem_walk_of_child hc c.self_mem_walk)
  rw [← hall, ← fixed_inner_iff h] at hsame
  cases all with
  | true => exact ⟨.kept h (hsame.mp rfl), hp⟩
  | false =>
    have hchanged : ¬ Fixed f e := fun hfixed => Bool.false_ne_true (hsame.mpr hfixed)
    exact ⟨.rebuilt h hchanged hp hcontent, Nat.le_succ_of_le hp⟩

theorem replaceAll_maps {es : List Expr}
    (h : ∀ e ∈ es, ∀ p : Pass, next ≤ p.session.next →
      Ends f next e ((e.replace (answerLeaf f)).run p))
    (p : Pass) (hp : next ≤ p.session.next) :
    List.Forall₂ (LeavesMapped f next) es ((replaceAll (answerLeaf f) es).run p).1 ∧
      next ≤ ((replaceAll (answerLeaf f) es).run p).2.session.next := by
  induction es generalizing p with
  | nil => exact ⟨.nil, hp⟩
  | cons e es ih =>
    rw [List.forall_mem_cons] at h
    have hfirst := h.1 p hp
    have hrest := ih h.2 _ hfirst.next_le
    simp only [replaceAll, run_bind, run_pure]
    exact ⟨.cons hfirst.mapped hrest.1, hrest.2⟩

theorem replace_maps {e : Expr} (htaken : ∀ x ∈ e.walk, x.id < next) (p : Pass)
    (hp : next ≤ p.session.next) : Ends f next e ((e.replace (answerLeaf f)).run p) := by
  induction e using Expr.induction generalizing p with
  | step e ih =>
    have hbelow (c : Expr) (hc : c ∈ e.children) := ih c hc fun x hx =>
      htaken x (mem_walk_of_child hc hx)
    have hleaf (h : e.isLeaf = true) :
        Ends f next e ((offer (answerLeaf f) e (return e)).run p) := by
      obtain ⟨n, hrun⟩ := offer_leaf (f := f) h p
      rw [hrun]
      exact ⟨.leaf h, hp⟩
    obtain ⟨id, digest, content⟩ := e
    cases content with
    | literal _ _ | inputRef _ _ | correlation _ _ => exact hleaf rfl
    | call operator operands type =>
      obtain ⟨hnews, hnext⟩ := replaceAll_maps hbelow p hp
      rw [replace, offer_inner rfl, run_bind]
      exact ends_rebuild rfl htaken hnews rfl hnext (.call operator type hnews)
    | access reference field =>
      obtain ⟨hnew, hnext⟩ := hbelow reference List.mem_cons_self p hp
      rw [replace, offer_inner rfl, run_bind]
      exact ends_rebuild rfl htaken (.cons hnew .nil) (sameAll_singleton _ reference).symm hnext
        (.access field hnew)

/-! ## Positions -/

/-- An identity stands for one object: an image that is the same object as its leaf is that leaf. -/
def Coherent (f : Expr → Option Expr) (e : Expr) : Prop :=
  ∀ x ∈ e.walk, x.isLeaf = true → (image f x).same x = true → image f x = x

theorem Coherent.child {e c : Expr} (h : Coherent f e) (hc : c ∈ e.children) : Coherent f c :=
  fun x hx => h x (mem_walk_of_child hc hx)

theorem LeavesMapped.of_fixed {e : Expr} (hcoherent : Coherent f e) (h : Fixed f e) :
    LeavesMapped f next e e := by
  cases hleaf : e.isLeaf with
  | true =>
    have heq := hcoherent e e.self_mem_walk hleaf ((fixed_leaf_iff hleaf).mp h)
    have hmapped : LeavesMapped f next e (image f e) := .leaf hleaf
    rwa [heq] at hmapped
  | false => exact .kept hleaf h

theorem LeavesMapped.children {e new : Expr} (h : LeavesMapped f next e new)
    (hcoherent : Coherent f e) (hleaf : e.isLeaf = false) :
    List.Forall₂ (LeavesMapped f next) e.children new.children := by
  cases h with
  | leaf h => rw [hleaf] at h; cases h
  | kept _ hfixed =>
    have hchildren := (fixed_inner_iff hleaf).mp hfixed
    exact List.forall₂_same.mpr fun c hc => .of_fixed (hcoherent.child hc) (hchildren c hc)
  | rebuilt _ _ _ hcontent => exact hcontent.children

theorem isLeaf_of_child {e c : Expr} (hc : c ∈ e.children) : e.isLeaf = false := by
  by_contra hleaf
  rw [children_of_isLeaf (Bool.not_eq_false _ ▸ hleaf)] at hc
  cases hc

/-- Behind every path stands what comes of the node that stood there. -/
theorem LeavesMapped.at? {e new x : Expr} {path : List Nat} (h : LeavesMapped f next e new)
    (hcoherent : Coherent f e) (hx : e.at? path = some x) :
    ∃ y, new.at? path = some y ∧ LeavesMapped f next x y := by
  induction path generalizing e new with
  | nil =>
    obtain rfl : e = x := Option.some_inj.mp hx
    exact ⟨new, rfl, h⟩
  | cons i path ih =>
    obtain ⟨c, hc, hx⟩ := Option.bind_eq_some_iff.mp hx
    have hchild := List.mem_of_getElem? hc
    have hchildren := h.children hcoherent (isLeaf_of_child hchild)
    obtain ⟨c', hc', hmapped⟩ := getElem?_of_forall₂ hchildren hc
    rw [at?_cons, hc']
    exact ih hmapped (hcoherent.child hchild) hx

theorem LeavesMapped.eq_of_fixed {e new : Expr} (h : LeavesMapped f next e new)
    (hcoherent : Coherent f e) (hfixed : Fixed f e) : new = e := by
  cases h with
  | leaf hleaf => exact hcoherent e e.self_mem_walk hleaf ((fixed_leaf_iff hleaf).mp hfixed)
  | kept _ _ => rfl
  | rebuilt _ hchanged _ _ => exact absurd hfixed hchanged

theorem LeavesMapped.next_le {e new : Expr} (h : LeavesMapped f next e new)
    (hinner : e.isLeaf = false) (hchanged : ¬ Fixed f e) : next ≤ new.id := by
  cases h with
  | leaf hleaf =>
    rw [hinner] at hleaf
    cases hleaf
  | kept _ hfixed => exact absurd hfixed hchanged
  | rebuilt _ _ hid _ => exact hid

theorem replaceLeaves_run (f : Expr → Option Expr) (e : Expr) (s : Session) :
    (e.replaceLeaves f).run s =
      let r := (e.replace (answerLeaf f)).run { session := s }
      ((r.1, r.2.replaced), r.2.session) := rfl

/-- Replacing leaves replaces every leaf by its image and keeps all else that nodes say. Behind
    every path, a part whose leaves are all their own images is the very object it was; any other
    call or access is a new object. Where no leaf is answered for, the expression itself comes
    back. -/
theorem replaceLeaves_maps (f : Expr → Option Expr) (e : Expr) (s : Session)
    (htaken : ∀ x ∈ e.walk, x.id < s.next) (hcoherent : Coherent f e) :
    (∃ new n s', (e.replaceLeaves f).run s = ((new, n), s') ∧ LeavesMapped f s.next e new ∧
      ∀ path x, e.at? path = some x → ∃ y, new.at? path = some y ∧
        (x.isLeaf = true → y = image f x) ∧ (Fixed f x → y = x) ∧
        (x.isLeaf = false → ¬ Fixed f x → s.next ≤ y.id)) ∧
    ∀ (same : Expr) (t : Session), (same.replaceLeaves fun _ => none).run t = ((same, 0), t) := by
  have hends := replace_maps (f := f) htaken { session := s } (Nat.le_refl s.next)
  refine ⟨⟨_, _, _, rfl, hends.mapped, fun path x hx => ?_⟩, fun same t => ?_⟩
  · obtain ⟨y, hy, hmapped⟩ := hends.mapped.at? hcoherent hx
    have hbelow : Coherent f x := fun z hz => hcoherent z (mem_walk_trans (mem_walk_of_at? hx) hz)
    refine ⟨y, hy, fun hleaf => ?_, hmapped.eq_of_fixed hbelow, hmapped.next_le⟩
    cases hmapped with
    | leaf _ => rfl
    | kept hinner _ | rebuilt hinner _ _ _ =>
      rw [hleaf] at hinner
      cases hinner
  · have hsilent : Silent (answerLeaf fun _ => none) := by
      intro node u
      unfold answerLeaf
      split <;> rfl
    rw [replaceLeaves_run, replace_of_silent hsilent]

/-- Another variable for `$cor0`, below one of two sums; literals are answered for by themselves,
    and input references not at all. -/
theorem replaceLeaves_maps_variable :
    let dept := Field.mk "deptno" 0 (.notNull .integer)
    let row := DataType.ofColumns [("deptno", .notNull .integer)]
    let input := Expr.place 0 (.inputRef 1 (.notNull .integer))
    let five := Expr.place 1 (.literal (.integer 5) (.notNull .integer))
    let read := Expr.place 3 (.access (Expr.place 2 (.correlation ⟨0⟩ row)) dept)
    let sum := Expr.place 4 (.call .plus [input, five] (.notNull .integer))
    let other := Expr.place 5 (.call .plus [read, five] (.notNull .integer))
    let root := Expr.place 6 (.call .equals [sum, other] (.notNull .boolean))
    let outer := Expr.place 7 (.correlation ⟨1⟩ row)
    let f (leaf : Expr) : Option Expr :=
      match leaf.content with
      | .correlation _ _ => some outer
      | .literal _ _ => some leaf
      | _ => none
    (∀ x ∈ root.walk, x.id < 8) ∧ Coherent f root ∧
      ∃ new n s', (root.replaceLeaves f).run { next := 8 } = ((new, n), s') ∧
        new.at? [0] = some sum ∧ new.at? [1, 1] = some five ∧ new.at? [1, 0, 0] = some outer ∧
        ∃ y, new.at? [1, 0] = some y ∧ 8 ≤ y.id := by
  intro dept row input five read sum other root outer f
  have htaken : ∀ x ∈ root.walk, x.id < 8 := by decide
  have hcoherent : Coherent f root := by
    intro x hx _ hsame
    cases hcontent : x.content with
    | correlation id type =>
      have himage : image f x = outer := by simp [image, f, hcontent]
      have hne : ∀ x ∈ root.walk, outer.same x = false := by decide
      rw [himage, hne x hx] at hsame
      cases hsame
    | literal _ _ | inputRef _ _ | call _ _ _ | access _ _ => simp [image, f, hcontent]
  obtain ⟨⟨new, n, s', hrun, -, hat⟩, -⟩ := replaceLeaves_maps f root { next := 8 } htaken hcoherent
  have hsame {path : List Nat} {x : Expr} (hx : root.at? path = some x) (hfixed : Fixed f x) :
      new.at? path = some x := by
    obtain ⟨y, hy, -, hkept, -⟩ := hat path x hx
    rw [hy, hkept hfixed]
  obtain ⟨y, hy, himage, -, -⟩ := hat [1, 0, 0] _ rfl
  obtain ⟨z, hz, -, -, hnew⟩ := hat [1, 0] _ rfl
  refine ⟨htaken, hcoherent, new, n, s', hrun, hsame rfl (by decide), hsame rfl (by decide), ?_, z,
    hz, hnew rfl (by decide)⟩
  rw [hy, himage rfl]
  rfl

end RowExpr.Expr
