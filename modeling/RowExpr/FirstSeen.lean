/-
  The distinct items of a list, in the order in which they are first seen.
-/
namespace RowExpr

/-- The items whose key is neither in `seen` nor that of an earlier item. -/
def firstSeenAfter {α β : Type} [DecidableEq β] (key : α → β) (seen : List β) : List α → List α
  | [] => []
  | x :: xs =>
    if key x ∈ seen then firstSeenAfter key seen xs
    else x :: firstSeenAfter key (key x :: seen) xs

/-- The first item of each key, in order. -/
def firstSeenBy {α β : Type} [DecidableEq β] (key : α → β) (xs : List α) : List α :=
  firstSeenAfter key [] xs

theorem mem_firstSeenAfter {α β : Type} [DecidableEq β] {key : α → β} {xs : List α} {x : α}
    {seen : List β} (h : x ∈ firstSeenAfter key seen xs) : x ∈ xs ∧ key x ∉ seen := by
  induction xs generalizing seen with
  | nil => simp [firstSeenAfter] at h
  | cons y ys ih =>
    unfold firstSeenAfter at h
    split at h
    · have := ih h
      exact ⟨List.mem_cons_of_mem _ this.1, this.2⟩
    · rename_i hy
      rcases List.mem_cons.mp h with rfl | h
      · exact ⟨List.mem_cons_self, hy⟩
      · have := ih h
        exact ⟨List.mem_cons_of_mem _ this.1, fun hm => this.2 (List.mem_cons_of_mem _ hm)⟩

/-- No two of the items have the same key. -/
theorem nodup_firstSeenAfter {α β : Type} [DecidableEq β] (key : α → β) (seen : List β)
    (xs : List α) : ((firstSeenAfter key seen xs).map key).Nodup := by
  induction xs generalizing seen with
  | nil => simp [firstSeenAfter]
  | cons y ys ih =>
    unfold firstSeenAfter
    split
    · exact ih seen
    · rw [List.map_cons, List.nodup_cons]
      refine ⟨fun hm => ?_, ih _⟩
      obtain ⟨z, hz, hk⟩ := List.mem_map.mp hm
      exact (mem_firstSeenAfter hz).2 (hk ▸ List.mem_cons_self)

end RowExpr
