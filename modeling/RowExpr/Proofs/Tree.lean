/-
  Expressions as trees.

  `Expr.induction` is induction on a node from its children, whatever the variant. The walk is the
  root followed by the walks of the children (`walk_eq`), so what is below what is below a node
  is below it (`mem_walk_trans`). `at?` follows a path of child positions. `Content.Over` relates
  two nodes that say the same over children that correspond.

  `render` writes an expression out from what its nodes say, and does not look at the digests
  that they carry.
-/
import Mathlib.Data.List.Forall2
import Mathlib.Logic.Relation
import RowExpr.Expr.Walk

namespace RowExpr

/-! ## Induction -/

mutual

/-- What holds of a node as soon as it holds of its children holds of every expression. -/
theorem Expr.induction {P : Expr → Prop} (step : ∀ e : Expr, (∀ c ∈ e.children, P c) → P e) :
    (e : Expr) → P e
  | ⟨_, _, .call _ operands _⟩ => step _ (Expr.inductionAll step operands)
  | ⟨_, _, .access reference _⟩ => step _ fun c hc => by
    rw [List.mem_singleton.mp hc]
    exact Expr.induction step reference
  | ⟨_, _, .literal _ _⟩ => step _ fun _ hc => nomatch hc
  | ⟨_, _, .inputRef _ _⟩ => step _ fun _ hc => nomatch hc
  | ⟨_, _, .correlation _ _⟩ => step _ fun _ hc => nomatch hc
termination_by structural e => e

theorem Expr.inductionAll {P : Expr → Prop}
    (step : ∀ e : Expr, (∀ c ∈ e.children, P c) → P e) : (es : List Expr) → ∀ c ∈ es, P c
  | [], _, hc => nomatch hc
  | e :: es, c, hc => by
    rcases List.mem_cons.mp hc with heq | hc
    · rw [heq]
      exact Expr.induction step e
    · exact Expr.inductionAll step es c hc
termination_by structural es => es

end

namespace Expr

/-! ## Walks -/

theorem walkAll_eq_flatMap (es : List Expr) : walkAll es = es.flatMap walk := by
  induction es with
  | nil => rfl
  | cons e es ih => rw [walkAll, ih, List.flatMap_cons]

/-- A walk starts at the root and goes through the children. -/
theorem walk_eq : (e : Expr) → e.walk = e :: walkAll e.children
  | ⟨_, _, .call _ _ _⟩ => by rw [walk]; rfl
  | ⟨_, _, .access reference _⟩ => by
    show _ = _ :: walkAll [reference]
    rw [walk, walkAll, walkAll, List.append_nil]
  | ⟨_, _, .literal _ _⟩ => rfl
  | ⟨_, _, .inputRef _ _⟩ => rfl
  | ⟨_, _, .correlation _ _⟩ => rfl

theorem mem_walkAll {es : List Expr} {x : Expr} : x ∈ walkAll es ↔ ∃ e ∈ es, x ∈ e.walk := by
  rw [walkAll_eq_flatMap, List.mem_flatMap]

theorem mem_walk {e x : Expr} : x ∈ e.walk ↔ x = e ∨ ∃ c ∈ e.children, x ∈ c.walk := by
  rw [walk_eq, List.mem_cons, mem_walkAll]

theorem self_mem_walk (e : Expr) : e ∈ e.walk := mem_walk.mpr (Or.inl rfl)

theorem mem_walk_of_child {e c x : Expr} (hc : c ∈ e.children) (hx : x ∈ c.walk) : x ∈ e.walk :=
  mem_walk.mpr (Or.inr ⟨c, hc, hx⟩)

theorem mem_walk_trans {e x y : Expr} (hx : x ∈ e.walk) (hy : y ∈ x.walk) : y ∈ e.walk := by
  induction e using Expr.induction with
  | step e ih =>
    rcases mem_walk.mp hx with rfl | ⟨c, hc, hx⟩
    · exact hy
    · exact mem_walk_of_child hc (ih c hc hx)

/-- What holds of all nodes holds of the root and of all nodes below each child. -/
theorem forall_walk_iff {P : Expr → Prop} {e : Expr} :
    (∀ x ∈ e.walk, P x) ↔ P e ∧ ∀ c ∈ e.children, ∀ x ∈ c.walk, P x := by
  constructor
  · intro h
    exact ⟨h e e.self_mem_walk, fun c hc x hx => h x (mem_walk_of_child hc hx)⟩
  · rintro ⟨hroot, hbelow⟩ x hx
    rcases mem_walk.mp hx with rfl | ⟨c, hc, hx⟩
    · exact hroot
    · exact hbelow c hc x hx

/-- What holds of some node holds of the root or of some node below a child. -/
theorem exists_walk_iff {P : Expr → Prop} {e : Expr} :
    (∃ x ∈ e.walk, P x) ↔ P e ∨ ∃ c ∈ e.children, ∃ x ∈ c.walk, P x := by
  constructor
  · rintro ⟨x, hx, hp⟩
    rcases mem_walk.mp hx with rfl | ⟨c, hc, hx⟩
    · exact Or.inl hp
    · exact Or.inr ⟨c, hc, x, hx, hp⟩
  · rintro (hp | ⟨c, hc, x, hx, hp⟩)
    · exact ⟨e, e.self_mem_walk, hp⟩
    · exact ⟨x, mem_walk_of_child hc hx, hp⟩

theorem mem_children_of_call {e c : Expr} {operator : Operator} {operands : List Expr}
    {type : DataType} (h : e.content = .call operator operands type) (hc : c ∈ operands) :
    c ∈ e.children := by
  unfold children
  rw [h]
  exact hc

theorem mem_children_of_access {e reference : Expr} {field : Field}
    (h : e.content = .access reference field) : reference ∈ e.children := by
  unfold children
  rw [h]
  exact List.mem_cons_self

/-- Whether the node reads a field of its child. -/
def isAccess (x : Expr) : Bool :=
  match x.content with
  | .access _ _ => true
  | _ => false

theorem isAccess_iff {e : Expr} :
    e.isAccess = true ↔ ∃ reference field, e.content = .access reference field := by
  unfold isAccess
  split
  · rename_i reference field hcontent
    exact iff_of_true rfl ⟨reference, field, hcontent⟩
  · rename_i hnone
    exact iff_of_false Bool.false_ne_true fun ⟨reference, field, h⟩ => hnone reference field h

/-! ## Positions -/

/-- The node behind a path: at each step, the number of the child to go on with. -/
def at? (e : Expr) : List Nat → Option Expr
  | [] => some e
  | i :: path => e.children[i]?.bind fun c => c.at? path

theorem at?_cons (e : Expr) (i : Nat) (path : List Nat) :
    e.at? (i :: path) = e.children[i]?.bind fun c => c.at? path := rfl

theorem mem_walk_of_at? {e x : Expr} {path : List Nat} (h : e.at? path = some x) : x ∈ e.walk := by
  induction path generalizing e with
  | nil =>
    obtain rfl : e = x := Option.some_inj.mp h
    exact e.self_mem_walk
  | cons i path ih =>
    obtain ⟨c, hc, hx⟩ := Option.bind_eq_some_iff.mp h
    exact mem_walk_of_child (List.mem_of_getElem? hc) (ih hx)

end Expr

/-! ## Nodes over corresponding children -/

/-- In lists related one by one, what stands at a position is related to what stands there. -/
theorem getElem?_of_forall₂ {α β : Type} {R : α → β → Prop} {as : List α} {bs : List β}
    (h : List.Forall₂ R as bs) {i : Nat} {a : α} (ha : as[i]? = some a) :
    ∃ b, bs[i]? = some b ∧ R a b := by
  obtain ⟨hi, rfl⟩ := List.getElem?_eq_some_iff.mp ha
  have hi' : i < bs.length := h.length_eq ▸ hi
  exact ⟨_, List.getElem?_eq_getElem hi', h.get hi hi'⟩

theorem map_eq_map_iff {α β γ : Type} {f : α → γ} {g : β → γ} {as : List α} {bs : List β} :
    as.map f = bs.map g ↔ List.Forall₂ (fun a b => f a = g b) as bs := by
  rw [← List.forall₂_eq_eq_eq, List.forall₂_map_left_iff, List.forall₂_map_right_iff]

/-- Lists related one by one are so under every relation that follows for their members. -/
theorem forall₂_imp_of_mem {α β : Type} {R S : α → β → Prop} {as : List α} {bs : List β}
    (h : List.Forall₂ R as bs) (himp : ∀ a ∈ as, ∀ b ∈ bs, R a b → S a b) :
    List.Forall₂ S as bs := by
  induction h with
  | nil => exact .nil
  | @cons a b as bs hfirst _ ih =>
    refine .cons (himp a List.mem_cons_self b List.mem_cons_self hfirst) ?_
    exact ih fun x hx y hy => himp x (List.mem_cons_of_mem a hx) y (List.mem_cons_of_mem b hy)

/-- Two lists related one by one to a third are related to each other, where their members are. -/
theorem forall₂_span {α β γ : Type} {R : α → β → Prop} {S : α → γ → Prop} {T : β → γ → Prop}
    {as : List α} {bs : List β} {cs : List γ} (h : List.Forall₂ R as bs) (h' : List.Forall₂ S as cs)
    (heach : ∀ a ∈ as, ∀ b c, R a b → S a c → T b c) : List.Forall₂ T bs cs := by
  induction h generalizing cs with
  | nil =>
    cases h'
    exact .nil
  | @cons a b as bs hfirst _ ih =>
    obtain ⟨c, cs, hother, hrest, rfl⟩ := List.forall₂_cons_left_iff.mp h'
    refine .cons (heach a List.mem_cons_self b c hfirst hother) ?_
    exact ih hrest fun x hx => heach x (List.mem_cons_of_mem a hx)

/-- `new` says the same as `old`, over children that correspond by `R`. -/
inductive Content.Over {α β : Type} (R : α → β → Prop) : Content α → Content β → Prop where
  | literal (value : Literal) (type : DataType) :
    Over R (.literal value type) (.literal value type)
  | inputRef (index : UInt64) (type : DataType) :
    Over R (.inputRef index type) (.inputRef index type)
  | correlation (id : CorrelationId) (type : DataType) :
    Over R (.correlation id type) (.correlation id type)
  | call {operands : List α} {operands' : List β} (operator : Operator) (type : DataType)
    (h : List.Forall₂ R operands operands') :
    Over R (.call operator operands type) (.call operator operands' type)
  | access {reference : α} {reference' : β} (field : Field) (h : R reference reference') :
    Over R (.access reference field) (.access reference' field)

namespace Content.Over

variable {α β : Type} {R : α → β → Prop} {old : Content α} {new : Content β}

theorem children (h : Over R old new) : List.Forall₂ R old.children new.children := by
  cases h with
  | call _ _ h => exact h
  | access _ h => exact .cons h .nil
  | literal _ _ | inputRef _ _ | correlation _ _ => exact .nil

theorem type_eq (h : Over R old new) : new.type = old.type := by
  cases h <;> rfl

theorem refl {R : α → α → Prop} (h : ∀ c ∈ old.children, R c c) : Over R old old := by
  cases old with
  | call operator operands type => exact .call operator type (List.forall₂_same.mpr h)
  | access reference field => exact .access field (h reference List.mem_cons_self)
  | literal value type => exact .literal value type
  | inputRef index type => exact .inputRef index type
  | correlation id type => exact .correlation id type

/-- Two nodes that say the same as a third say the same as each other, over children that are
    related where those of the third are related to both. -/
theorem span {γ : Type} {S : α → γ → Prop} {T : β → γ → Prop} {other : Content γ}
    (h : Over R old new) (h' : Over S old other)
    (heach : ∀ c ∈ old.children, ∀ b b', R c b → S c b' → T b b') : Over T new other := by
  cases h with
  | call operator type h =>
    cases h' with
    | call _ _ h' => exact .call operator type (forall₂_span h h' heach)
  | access field h =>
    cases h' with
    | access _ h' => exact .access field (heach _ List.mem_cons_self _ _ h h')
  | literal value type =>
    cases h'
    exact .literal value type
  | inputRef index type =>
    cases h'
    exact .inputRef index type
  | correlation id type =>
    cases h'
    exact .correlation id type

theorem symm {S : β → α → Prop} (h : Over R old new)
    (hsymm : ∀ a ∈ old.children, ∀ b, R a b → S b a) : Over S new old := by
  have hself : Over (· = ·) old old := .refl fun _ _ => rfl
  exact h.span hself fun a ha b _ hab heq => heq ▸ hsymm a ha b hab

/-- Saying the same twice over relates the children in two steps. -/
theorem comp {γ : Type} {S : β → γ → Prop} {last : Content γ} (h : Over R old new)
    (h' : Over S new last) : Over (Relation.Comp R S) old last := by
  have hback : Over (fun b a => R a b) new old := h.symm fun _ _ _ hab => hab
  exact hback.span h' fun b _ _ _ hab hbc => ⟨b, hab, hbc⟩

/-- Over children of the same texts, the texts are the same. -/
theorem digest_eq {f : α → String} {g : β → String} (h : Over R old new)
    (heach : ∀ a ∈ old.children, ∀ b, R a b → f a = g b) : old.digest f = new.digest g := by
  cases h with
  | @call operands operands' operator type h =>
    have hmap : operands.map f = operands'.map g :=
      map_eq_map_iff.mpr (forall₂_imp_of_mem h fun a ha b _ => heach a ha b)
    have hempty : operands.isEmpty = operands'.isEmpty := by
      rw [← List.isEmpty_map (f := f), hmap, List.isEmpty_map]
    simp only [Content.digest, hmap, hempty]
  | access field h => simp only [Content.digest, heach _ List.mem_cons_self _ h]
  | literal _ _ | inputRef _ _ | correlation _ _ => rfl

end Content.Over

/-! ## Rendering from scratch -/

mutual

/-- The text of an expression, from what its nodes say alone. -/
def Expr.render : Expr → String
  | ⟨_, _, .literal value type⟩ => value.text type
  | ⟨_, _, .inputRef index _⟩ => "$" ++ toString index
  | ⟨_, _, .correlation id _⟩ => "$cor" ++ toString id.ordinal.toNat
  | ⟨_, _, .call operator operands _⟩ =>
    if operator.form = .bare ∧ operands.isEmpty then operator.name
    else operator.name ++ "(" ++ ", ".intercalate (Expr.renderAll operands) ++ ")"
  | ⟨_, _, .access reference field⟩ => reference.render ++ "." ++ field.name
termination_by structural e => e

/-- The texts of several expressions. -/
def Expr.renderAll : List Expr → List String
  | [] => []
  | e :: es => e.render :: Expr.renderAll es
termination_by structural es => es

end

theorem Expr.renderAll_eq_map (es : List Expr) : Expr.renderAll es = es.map Expr.render := by
  induction es with
  | nil => rfl
  | cons e es ih => rw [Expr.renderAll, ih, List.map_cons]

/-- One step of rendering is the rule for the text of a node over the texts of its children. -/
theorem Expr.render_eq : (e : Expr) → e.render = e.content.digest Expr.render
  | ⟨_, _, .call _ operands _⟩ => by
    rw [Expr.render, Expr.renderAll_eq_map]
    rfl
  | ⟨_, _, .access _ _⟩ => rfl
  | ⟨_, _, .literal _ _⟩ => rfl
  | ⟨_, _, .inputRef _ _⟩ => rfl
  | ⟨_, _, .correlation _ _⟩ => rfl

/-- The text of a node depends on those of its children only. -/
theorem Content.digest_congr {α : Type} {f g : α → String} {content : Content α}
    (h : ∀ c ∈ content.children, f c = g c) : content.digest f = content.digest g := by
  cases content with
  | call operator operands type =>
    have hmap : operands.map f = operands.map g := List.map_congr_left h
    simp only [Content.digest, hmap]
  | access reference field =>
    have href : f reference = g reference := h reference List.mem_cons_self
    simp only [Content.digest, href]
  | literal value type => rfl
  | inputRef index type => rfl
  | correlation id type => rfl

/-- A node carries the text that its content gives. -/
theorem Expr.digest_eq_of_rendered {e : Expr} (h : ∀ x ∈ e.walk, x.digest = x.render) :
    e.digest = e.content.digest Expr.digest := by
  rw [h e e.self_mem_walk, render_eq]
  exact Content.digest_congr fun c hc => (h c (mem_walk_of_child hc c.self_mem_walk)).symm

end RowExpr
