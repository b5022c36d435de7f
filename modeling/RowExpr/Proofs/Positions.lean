/-
  Positions of an expression, in the order of the walk.

  A position is a path of child numbers (`Expr.at?`). Paths are compared in lexicographic order: a
  path comes before those that go on from it, and where two paths part, the one with the smaller
  child number comes first. `positions` lists the paths that lead to a node, each once, in this
  order (`mem_positions`, `pairwise_positions`), and the walk meets the nodes behind them one by one
  (`map_at?_positions`). So a walk meets every occurrence of a node once, parents before children
  and children left to right.
-/
import RowExpr.Proofs.Tree

namespace RowExpr

mutual

/-- The paths that lead to a node, in pre-order. -/
def Expr.positions : Expr → List (List Nat)
  | ⟨_, _, .call _ operands _⟩ => [] :: Expr.positionsFrom 0 operands
  | ⟨_, _, .access reference _⟩ => [] :: reference.positions.map (0 :: ·)
  | _ => [[]]
termination_by structural e => e

/-- The paths into several expressions that are the children from number `i` on. -/
def Expr.positionsFrom (i : Nat) : List Expr → List (List Nat)
  | [] => []
  | e :: es => e.positions.map (i :: ·) ++ Expr.positionsFrom (i + 1) es
termination_by structural es => es

end

namespace Expr

theorem positions_eq (e : Expr) : e.positions = [] :: positionsFrom 0 e.children := by
  obtain ⟨id, digest, content⟩ := e
  cases content with
  | call operator operands type => rw [positions]; rfl
  | access reference field =>
    show _ = _ :: positionsFrom 0 [reference]
    rw [positions, positionsFrom, positionsFrom, List.append_nil]
  | literal _ _ | inputRef _ _ | correlation _ _ => rfl

/-- A path into several expressions is the number of one of them and a path into it. -/
theorem mem_positionsFrom {es : List Expr} {i : Nat} {path : List Nat} :
    path ∈ positionsFrom i es ↔
      ∃ j c below, es[j]? = some c ∧ below ∈ c.positions ∧ path = (i + j) :: below := by
  induction es generalizing i with
  | nil => simp [positionsFrom]
  | cons e es ih =>
    rw [positionsFrom, List.mem_append, List.mem_map, ih]
    constructor
    · rintro (⟨below, hbelow, rfl⟩ | ⟨j, c, below, hc, hbelow, rfl⟩)
      · exact ⟨0, e, below, rfl, hbelow, rfl⟩
      · exact ⟨j + 1, c, below, hc, hbelow, by rw [Nat.add_assoc, Nat.add_comm 1 j]⟩
    · rintro ⟨j, c, below, hc, hbelow, rfl⟩
      cases j with
      | zero =>
        cases hc
        exact Or.inl ⟨below, hbelow, rfl⟩
      | succ j => exact Or.inr ⟨j, c, below, hc, hbelow, by rw [Nat.add_assoc, Nat.add_comm 1 j]⟩

/-- The paths listed are those that lead to a node. -/
theorem mem_positions {e : Expr} {path : List Nat} :
    path ∈ e.positions ↔ (e.at? path).isSome = true := by
  induction e using Expr.induction generalizing path with
  | step e ih =>
    rw [positions_eq, List.mem_cons, mem_positionsFrom]
    cases path with
    | nil => exact iff_of_true (Or.inl rfl) rfl
    | cons i path =>
      rw [at?_cons]
      constructor
      · rintro (hnil | ⟨j, c, below, hc, hbelow, hpath⟩)
        · cases hnil
        · obtain ⟨rfl, rfl⟩ := List.cons.inj hpath
          rw [Nat.zero_add, hc]
          exact (ih c (List.mem_of_getElem? hc)).mp hbelow
      · intro hsome
        obtain ⟨c, hc⟩ := Option.isSome_iff_exists.mp (Option.isSome_of_isSome_bind hsome)
        rw [hc] at hsome
        refine Or.inr ⟨i, c, path, hc, ?_, by rw [Nat.zero_add]⟩
        exact (ih c (List.mem_of_getElem? hc)).mpr hsome

theorem pairwise_positionsFrom {es : List Expr} (h : ∀ e ∈ es, e.positions.Pairwise (· < ·))
    (i : Nat) : (positionsFrom i es).Pairwise (· < ·) := by
  induction es generalizing i with
  | nil => exact .nil
  | cons e es ih =>
    rw [positionsFrom]
    refine List.pairwise_append.mpr ⟨?_, ih (fun x hx => h x (List.mem_cons_of_mem e hx)) _, ?_⟩
    · refine List.pairwise_map.mpr ((h e List.mem_cons_self).imp fun hlt => ?_)
      exact List.cons_lt_cons_self.mpr hlt
    · intro first hfirst later hlater
      obtain ⟨below, -, rfl⟩ := List.mem_map.mp hfirst
      obtain ⟨j, c, below', -, -, rfl⟩ := mem_positionsFrom.mp hlater
      exact List.cons_lt_cons_iff.mpr (Or.inl (by omega))

/-- They are listed in lexicographic order, hence each once. -/
theorem pairwise_positions (e : Expr) : e.positions.Pairwise (· < ·) := by
  induction e using Expr.induction with
  | step e ih =>
    rw [positions_eq]
    refine List.pairwise_cons.mpr ⟨fun path hpath => ?_, pairwise_positionsFrom ih 0⟩
    obtain ⟨j, c, below, -, -, rfl⟩ := mem_positionsFrom.mp hpath
    exact List.nil_lt_cons _ _

/-- Reading off the nodes behind the paths into the last of the children, from number `i` on. -/
theorem map_positionsFrom {e : Expr} {es : List Expr} {i : Nat}
    (h : ∀ c ∈ es, c.positions.map c.at? = c.walk.map some) (hes : e.children.drop i = es) :
    (positionsFrom i es).map e.at? = (walkAll es).map some := by
  induction es generalizing i with
  | nil => rfl
  | cons c es ih =>
    have hc : e.children[i]? = some c := by
      rw [← List.head?_drop, hes]
      rfl
    have hstep (path : List Nat) : e.at? (i :: path) = c.at? path := by
      rw [at?_cons, hc]
      rfl
    have hrest := ih (i := i + 1) (fun x hx => h x (List.mem_cons_of_mem c hx)) (by
      rw [← List.tail_drop, hes]
      rfl)
    rw [positionsFrom, walkAll, List.map_append, List.map_append, List.map_map, hrest,
      ← h c List.mem_cons_self]
    congr 1
    exact List.map_congr_left fun path _ => hstep path

/-- The walk meets what stands behind the paths, in their order. -/
theorem map_at?_positions (e : Expr) : e.positions.map e.at? = e.walk.map some := by
  induction e using Expr.induction with
  | step e ih =>
    rw [positions_eq, walk_eq, List.map_cons, List.map_cons, map_positionsFrom ih rfl]
    rfl

end Expr
end RowExpr
