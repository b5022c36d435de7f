/-
  Laws of `firstSeenBy`.

  Seeing one more item adds it at the end if its key is new and changes nothing otherwise
  (`firstSeenBy_concat`); with room for `n` items only, it is added if its key is new and there
  is room (`take_firstSeenBy_concat`). No key gets lost (`key_mem_firstSeenBy`), the items kept are
  the first of their keys in the whole list (`mem_firstSeenBy_iff`), in the order in which the
  keys are first met (`pairwise_firstSeenBy`), and looking for something that the keys tell finds
  the same among them (`find?_firstSeenBy`). What the first items become are the first ones of
  what all items become, if keys tell the same apart on both sides (`filterMap_firstSeenBy`). Where
  all keys are distinct to begin with, a key finds its own item (`find?_key_eq_some_iff`).
-/
import Mathlib.Data.List.Induction
import Mathlib.Data.List.Nodup
import Mathlib.Tactic.Tauto
import RowExpr.FirstSeen

namespace RowExpr

variable {α β : Type} [DecidableEq β]

theorem firstSeenAfter_concat (key : α → β) (seen : List β) (xs : List α) (x : α) :
    firstSeenAfter key seen (xs ++ [x]) =
      if key x ∈ seen ∨ key x ∈ xs.map key then firstSeenAfter key seen xs
      else firstSeenAfter key seen xs ++ [x] := by
  induction xs generalizing seen with
  | nil => by_cases h : key x ∈ seen <;> simp [firstSeenAfter, h]
  | cons y ys ih =>
    simp only [List.cons_append, firstSeenAfter, List.map_cons, List.mem_cons]
    by_cases hy : key y ∈ seen
    · have hk : key x = key y → key x ∈ seen := fun h => h ▸ hy
      rw [if_pos hy, if_pos hy, ih]
      exact if_congr (by tauto) rfl rfl
    · rw [if_neg hy, if_neg hy, ih, List.cons_append]
      by_cases hx : key x ∈ key y :: seen ∨ key x ∈ ys.map key
      · have hx' := hx
        rw [List.mem_cons] at hx'
        rw [if_pos hx, if_pos (by tauto)]
      · have hx' := hx
        rw [List.mem_cons] at hx'
        rw [if_neg hx, if_neg (by tauto)]

theorem firstSeenBy_concat (key : α → β) (xs : List α) (x : α) :
    firstSeenBy key (xs ++ [x]) =
      if key x ∈ xs.map key then firstSeenBy key xs else firstSeenBy key xs ++ [x] := by
  unfold firstSeenBy
  rw [firstSeenAfter_concat]
  simp

theorem mem_of_mem_firstSeenBy {key : α → β} {xs : List α} {x : α}
    (h : x ∈ firstSeenBy key xs) : x ∈ xs :=
  (mem_firstSeenAfter h).1

/-- Every key that occurs is the key of an item that is kept. -/
theorem key_mem_firstSeenBy (key : α → β) (xs : List α) (k : β) :
    k ∈ (firstSeenBy key xs).map key ↔ k ∈ xs.map key := by
  constructor
  · intro h
    obtain ⟨x, hx, rfl⟩ := List.mem_map.mp h
    exact List.mem_map_of_mem (mem_of_mem_firstSeenBy hx)
  · induction xs using List.reverseRecOn with
    | nil => exact id
    | append_singleton xs x ih =>
      intro h
      rw [firstSeenBy_concat]
      rw [List.map_append, List.mem_append] at h
      by_cases hx : key x ∈ xs.map key
      · rw [if_pos hx]
        rcases h with h | h
        · exact ih h
        · rw [List.map_singleton, List.mem_singleton] at h
          exact ih (h ▸ hx)
      · rw [if_neg hx, List.map_append, List.mem_append]
        exact h.imp_left ih

/-- The keys of the first items are the keys that occur, each once, in the order of the list. -/
theorem map_firstSeenBy (key : α → β) (xs : List α) :
    (firstSeenBy key xs).map key = firstSeenBy (fun k => k) (xs.map key) := by
  induction xs using List.reverseRecOn with
  | nil => rfl
  | append_singleton xs x ih =>
    rw [List.map_append, List.map_singleton, firstSeenBy_concat, firstSeenBy_concat, List.map_id',
      ← ih]
    split
    · rfl
    · rw [List.map_append, List.map_singleton]

/-- What is kept for its key is what a search for the key finds in the whole list. -/
theorem find?_key_of_mem_firstSeenBy {key : α → β} {xs : List α} {x : α}
    (h : x ∈ firstSeenBy key xs) : xs.find? (key · = key x) = some x := by
  induction xs using List.reverseRecOn with
  | nil => cases h
  | append_singleton xs y ih =>
    rw [firstSeenBy_concat] at h
    rw [List.find?_append]
    by_cases hy : key y ∈ xs.map key
    · rw [if_pos hy] at h
      rw [ih h, Option.some_or]
    · rw [if_neg hy, List.mem_append, List.mem_singleton] at h
      rcases h with h | rfl
      · rw [ih h, Option.some_or]
      · have hnone : xs.find? (key · = key x) = none := by
          rw [List.find?_eq_none]
          intro z hz hkey
          exact hy (List.mem_map.mpr ⟨z, hz, of_decide_eq_true hkey⟩)
        rw [hnone, Option.none_or]
        simp

/-- What is kept is what searches for the keys find. -/
theorem mem_firstSeenBy_iff {key : α → β} {xs : List α} {x : α} :
    x ∈ firstSeenBy key xs ↔ xs.find? (key · = key x) = some x := by
  constructor
  · exact find?_key_of_mem_firstSeenBy
  · intro hfind
    have hkey : key x ∈ xs.map key := List.mem_map_of_mem (List.mem_of_find?_eq_some hfind)
    obtain ⟨y, hy, hyx⟩ := List.mem_map.mp ((key_mem_firstSeenBy key xs (key x)).mpr hkey)
    have hfirst := find?_key_of_mem_firstSeenBy hy
    rw [hyx, hfind] at hfirst
    rwa [Option.some_inj.mp hfirst]

/-- Where the keys of the items tell the same apart as other keys of what they become, the first
    items become the first ones. -/
theorem filterMap_firstSeenBy {γ δ : Type} [DecidableEq γ] {key : α → β} {key' : δ → γ}
    {f : α → Option δ} {xs : List α} (hsome : ∀ x ∈ xs, (f x).isSome = true)
    (hkey : ∀ x ∈ xs, ∀ y ∈ xs, ∀ a b, f x = some a → f y = some b →
      (key x = key y ↔ key' a = key' b)) :
    (firstSeenBy key xs).filterMap f = firstSeenBy key' (xs.filterMap f) := by
  induction xs using List.reverseRecOn with
  | nil => rfl
  | append_singleton xs x ih =>
    have hlast : x ∈ xs ++ [x] := List.mem_append_right xs List.mem_cons_self
    have hrest := ih (fun y hy => hsome y (List.mem_append_left [x] hy)) fun y hy z hz =>
      hkey y (List.mem_append_left [x] hy) z (List.mem_append_left [x] hz)
    obtain ⟨a, ha⟩ := Option.isSome_iff_exists.mp (hsome x hlast)
    have hseen : key x ∈ xs.map key ↔ key' a ∈ (xs.filterMap f).map key' := by
      simp only [List.mem_map, List.mem_filterMap]
      constructor
      · rintro ⟨y, hy, hyx⟩
        have hy' := List.mem_append_left [x] hy
        obtain ⟨b, hb⟩ := Option.isSome_iff_exists.mp (hsome y hy')
        exact ⟨b, ⟨y, hy, hb⟩, (hkey y hy' x hlast b a hb ha).mp hyx⟩
      · rintro ⟨b, ⟨y, hy, hb⟩, hba⟩
        exact ⟨y, hy, (hkey y (List.mem_append_left [x] hy) x hlast b a hb ha).mpr hba⟩
    have hone : [x].filterMap f = [a] := by rw [List.filterMap_cons_some ha, List.filterMap_nil]
    rw [List.filterMap_append, hone, firstSeenBy_concat, firstSeenBy_concat, ← hrest]
    by_cases hx : key x ∈ xs.map key
    · rw [if_pos hx, if_pos (hseen.mp hx)]
    · rw [if_neg hx, if_neg (mt hseen.mpr hx), List.filterMap_append, hone]

section Order

variable {δ : Type} {key : α → β} {f : δ → Option α} {xs : List δ}

/-- An item of a key that is kept is met somewhere. -/
theorem findIdx_lt_of_mem_firstSeenBy {a : α} (h : a ∈ firstSeenBy key (xs.filterMap f)) :
    xs.findIdx (fun x => (f x).any (key · = key a)) < xs.length := by
  obtain ⟨x, hx, hxa⟩ := List.mem_filterMap.mp (mem_of_mem_firstSeenBy h)
  exact List.findIdx_lt_length_of_exists ⟨x, hx, by simp [hxa]⟩

theorem findIdx_of_key_notMem {a : α} (h : key a ∉ (xs.filterMap f).map key) :
    xs.findIdx (fun x => (f x).any (key · = key a)) = xs.length := by
  refine List.findIdx_eq_length.mpr fun x hx => ?_
  by_contra hfound
  rw [Bool.not_eq_false, Option.any_eq_true] at hfound
  obtain ⟨b, hb, hkey⟩ := hfound
  refine h (List.mem_map.mpr ⟨b, List.mem_filterMap.mpr ⟨x, hx, hb⟩, ?_⟩)
  exact of_decide_eq_true hkey

/-- The first ones of the items picked from a list stand in the order in which items of their keys
    are first met in that list. -/
theorem pairwise_firstSeenBy (key : α → β) (f : δ → Option α) (xs : List δ) :
    (firstSeenBy key (xs.filterMap f)).Pairwise fun a b =>
      xs.findIdx (fun x => (f x).any (key · = key a)) <
        xs.findIdx (fun x => (f x).any (key · = key b)) := by
  induction xs using List.reverseRecOn with
  | nil => exact .nil
  | append_singleton xs x ih =>
    -- where an item of a kept key is first met does not change when one more is seen
    have hstays : ∀ a ∈ firstSeenBy key (xs.filterMap f),
        (xs ++ [x]).findIdx (fun x => (f x).any (key · = key a)) =
          xs.findIdx (fun x => (f x).any (key · = key a)) := by
      intro a ha
      rw [List.findIdx_append, if_pos (findIdx_lt_of_mem_firstSeenBy ha)]
    have hfirst : (firstSeenBy key (xs.filterMap f)).Pairwise fun a b =>
        (xs ++ [x]).findIdx (fun x => (f x).any (key · = key a)) <
          (xs ++ [x]).findIdx (fun x => (f x).any (key · = key b)) := by
      refine ih.imp_of_mem fun ha hb hlt => ?_
      rwa [hstays _ ha, hstays _ hb]
    rw [List.filterMap_append]
    cases hx : f x with
    | none =>
      rw [List.filterMap_cons_none hx, List.filterMap_nil, List.append_nil]
      exact hfirst
    | some a =>
      rw [List.filterMap_cons_some hx, List.filterMap_nil, firstSeenBy_concat]
      split
      · exact hfirst
      · rename_i hnew
        refine List.pairwise_append.mpr ⟨hfirst, List.pairwise_singleton _ _, fun b hb c hc => ?_⟩
        obtain rfl := List.mem_singleton.mp hc
        rw [hstays b hb, List.findIdx_append, findIdx_of_key_notMem hnew,
          if_neg (Nat.lt_irrefl _)]
        exact Nat.lt_add_left _ (findIdx_lt_of_mem_firstSeenBy hb)

end Order

theorem find?_firstSeenAfter {key : α → β} {p : α → Bool} {xs : List α} {seen : List β}
    (hkey : ∀ x ∈ xs, ∀ y ∈ xs, key x = key y → p x = p y)
    (hseen : ∀ x ∈ xs, key x ∈ seen → p x = false) :
    (firstSeenAfter key seen xs).find? p = xs.find? p := by
  induction xs generalizing seen with
  | nil => rfl
  | cons y ys ih =>
    have hkey' : ∀ x ∈ ys, ∀ z ∈ ys, key x = key z → p x = p z := fun x hx z hz =>
      hkey x (List.mem_cons_of_mem y hx) z (List.mem_cons_of_mem y hz)
    have hseen' : ∀ x ∈ ys, key x ∈ seen → p x = false := fun x hx =>
      hseen x (List.mem_cons_of_mem y hx)
    unfold firstSeenAfter
    by_cases hy : key y ∈ seen
    · rw [if_pos hy, List.find?_cons, hseen y List.mem_cons_self hy]
      exact ih hkey' hseen'
    · rw [if_neg hy, List.find?_cons, List.find?_cons]
      cases hp : p y with
      | true => rfl
      | false =>
        refine ih hkey' fun x hx hmem => ?_
        rcases List.mem_cons.mp hmem with heq | hmem
        · rw [hkey x (List.mem_cons_of_mem y hx) y List.mem_cons_self heq, hp]
        · exact hseen' x hx hmem

/-- Looking for something that the keys tell finds the same among the first items of each key. -/
theorem find?_firstSeenBy {key : α → β} {p : α → Bool} {xs : List α}
    (hkey : ∀ x ∈ xs, ∀ y ∈ xs, key x = key y → p x = p y) :
    (firstSeenBy key xs).find? p = xs.find? p :=
  find?_firstSeenAfter hkey fun _ _ hmem => nomatch hmem

/-- Seeing more items loses none. -/
theorem length_firstSeenBy_le_append (key : α → β) (xs ys : List α) :
    (firstSeenBy key xs).length ≤ (firstSeenBy key (xs ++ ys)).length := by
  induction ys using List.reverseRecOn with
  | nil => exact Nat.le_of_eq (by rw [List.append_nil])
  | append_singleton ys y ih =>
    rw [← List.append_assoc, firstSeenBy_concat]
    split
    · exact ih
    · rw [List.length_append]
      exact Nat.le_add_right_of_le ih

/-- What a list of first items, cut off at `n`, becomes when one more item is seen. -/
theorem take_firstSeenBy_concat (key : α → β) (n : Nat) (xs : List α) (x : α) :
    (firstSeenBy key (xs ++ [x])).take n =
      if key x ∈ ((firstSeenBy key xs).take n).map key ∨ n ≤ ((firstSeenBy key xs).take n).length
      then (firstSeenBy key xs).take n else (firstSeenBy key xs).take n ++ [x] := by
  rw [firstSeenBy_concat]
  by_cases hroom : (firstSeenBy key xs).length < n
  · have hall := List.take_of_length_le (Nat.le_of_lt hroom)
    have hk := key_mem_firstSeenBy key xs (key x)
    have hn : ¬ n ≤ (firstSeenBy key xs).length := by omega
    by_cases hx : key x ∈ xs.map key
    · rw [if_pos hx, hall, if_pos (Or.inl (hk.mpr hx))]
    · have hlen : (firstSeenBy key xs ++ [x]).length ≤ n := by
        rw [List.length_append, List.length_singleton]
        omega
      rw [if_neg hx, hall, if_neg (not_or.mpr ⟨fun h => hx (hk.mp h), hn⟩),
        List.take_of_length_le hlen]
  · -- no room: whatever comes is cut off again
    have hle : n ≤ (firstSeenBy key xs).length := by omega
    have hfull : n ≤ ((firstSeenBy key xs).take n).length := by
      rw [List.length_take]
      omega
    rw [if_pos (Or.inr hfull)]
    split
    · rfl
    · rw [List.take_append_of_le_length hle]

/-- In a list of distinct keys, a search for a key finds exactly the item that has it. -/
theorem find?_key_eq_some_iff {key : α → β} {xs : List α} (h : (xs.map key).Nodup) {k : β}
    {x : α} :
    xs.find? (key · = k) = some x ↔ x ∈ xs ∧ key x = k := by
  constructor
  · intro hfind
    exact ⟨List.mem_of_find?_eq_some hfind, by simpa using List.find?_some hfind⟩
  · rintro ⟨hx, rfl⟩
    cases hfind : xs.find? (key · = key x) with
    | none =>
      have hnot := List.find?_eq_none.mp hfind x hx
      exact absurd (decide_eq_true rfl) hnot
    | some y =>
      have hy := List.mem_of_find?_eq_some hfind
      have hkey : key y = key x := by simpa using List.find?_some hfind
      rw [List.inj_on_of_nodup_map h hy hx hkey]

end RowExpr
