/-
  Operand lists are read back from their text.

  The texts of the operands of a call stand between its parentheses, joined by a comma and a
  space. `cut` finds the first comma that is outside all parentheses and quotes. A text that
  closes what it opens, and has no such comma itself, is passed over (`Passes`), and such texts
  can be told apart in a joined text (`intercalate_inj`), whatever stands between their own
  parentheses and quotes.
-/
import Mathlib.Data.List.Basic
import RowExpr.Literal

namespace RowExpr.Operands

/-! ## Cutting -/

/-- How many parentheses are open behind a character outside quotes. -/
def depthBehind (depth : Nat) (c : Char) : Nat :=
  if c = '(' then depth + 1 else if c = ')' then depth - 1 else depth

/-- The text up to the first comma outside parentheses and quotes, and the rest from there on;
    `depth` parentheses are open, and a quote is if `quoted`. -/
def cut (depth : Nat) (quoted : Bool) : List Char → List Char × List Char
  | [] => ([], [])
  | c :: cs =>
    if quoted then
      let (before, rest) := cut depth (c ≠ '\'') cs
      (c :: before, rest)
    else if c = ',' ∧ depth = 0 then ([], c :: cs)
    else
      let (before, rest) := cut (depthBehind depth c) (c = '\'') cs
      (c :: before, rest)

/-- Whether a character opens, closes and separates nothing. -/
def isOrdinary (c : Char) : Bool := c != '(' && c != ')' && c != ',' && c != '\''

theorem isOrdinary_iff {c : Char} :
    isOrdinary c = true ↔ c ≠ '(' ∧ c ≠ ')' ∧ c ≠ ',' ∧ c ≠ '\'' := by
  simp [isOrdinary, and_assoc]

/-- A cut further on, `text` being what comes before. -/
def behind (text : List Char) (p : List Char × List Char) : List Char × List Char :=
  (text ++ p.1, p.2)

theorem behind_append (a b : List Char) (p : List Char × List Char) :
    behind (a ++ b) p = behind a (behind b p) := by
  simp [behind]

/-- Where `least` parentheses or more are open, and no quote is, the cut is behind the text, and
    the text leaves things as they were. -/
def Passes (least : Nat) (text : List Char) : Prop :=
  ∀ depth, least ≤ depth → ∀ rest,
    cut depth false (text ++ rest) = behind text (cut depth false rest)

namespace Passes

variable {least : Nat} {a b text : List Char}

theorem nil : Passes least [] := fun _ _ _ => rfl

theorem append (ha : Passes least a) (hb : Passes least b) : Passes least (a ++ b) := by
  intro depth hdepth rest
  rw [List.append_assoc, ha depth hdepth, hb depth hdepth, behind_append]

theorem mono {more : Nat} (h : Passes least text) (hle : least ≤ more) : Passes more text :=
  fun depth hdepth => h depth (Nat.le_trans hle hdepth)

theorem of_ordinary (h : ∀ c ∈ text, isOrdinary c = true) : Passes 0 text := by
  induction text with
  | nil => exact nil
  | cons c cs ih =>
    intro depth hdepth rest
    obtain ⟨hopen, hclose, hcomma, hquote⟩ := isOrdinary_iff.mp (h c List.mem_cons_self)
    have hcs := ih (fun x hx => h x (List.mem_cons_of_mem c hx)) depth hdepth rest
    simp [cut, depthBehind, hopen, hclose, hcomma, hquote, hcs, behind]

/-- Inside parentheses a comma separates nothing outside. -/
theorem comma : Passes 1 [',', ' '] := by
  intro depth hdepth rest
  have hpos : depth ≠ 0 := Nat.one_le_iff_ne_zero.mp hdepth
  simp [cut, depthBehind, hpos, behind]

theorem parenthesized (h : Passes 1 text) : Passes 0 ('(' :: text ++ [')']) := by
  intro depth _ rest
  have hinner := h (depth + 1) (Nat.le_add_left 1 depth) (')' :: rest)
  simp [cut, depthBehind, hinner, behind]

/-- Quotes that are doubled inside quotes close nothing. -/
theorem cut_doubleQuotes (depth : Nat) (cs rest : List Char) :
    cut depth true (Literal.doubleQuotes cs ++ rest) =
      behind (Literal.doubleQuotes cs) (cut depth true rest) := by
  induction cs with
  | nil => rfl
  | cons c cs ih =>
    unfold Literal.doubleQuotes
    split
    · simp [cut, depthBehind, ih, behind]
    · rename_i hquote
      simp [cut, hquote, ih, behind]

theorem quoted (cs : List Char) : Passes 0 ('\'' :: Literal.doubleQuotes cs ++ ['\'']) := by
  intro depth _ rest
  have hinner := cut_doubleQuotes depth cs ('\'' :: rest)
  simp [cut, depthBehind, hinner, behind]

end Passes

/-! ## Lists of operands -/

theorem passes_intercalate {texts : List (List Char)} (h : ∀ text ∈ texts, Passes 0 text) :
    Passes 1 ([',', ' '].intercalate texts) := by
  induction texts with
  | nil => exact .nil
  | cons text texts ih =>
    have htext : Passes 1 text := (h text List.mem_cons_self).mono (Nat.zero_le 1)
    have htexts := ih fun x hx => h x (List.mem_cons_of_mem text hx)
    cases texts with
    | nil => simpa using htext
    | cons next texts =>
      rw [List.intercalate_cons_cons, List.append_assoc]
      exact htext.append (Passes.comma.append htexts)

theorem notMem_intercalate {c : Char} {texts : List (List Char)} (hc : c ∉ [',', ' '])
    (h : ∀ text ∈ texts, c ∉ text) : c ∉ [',', ' '].intercalate texts := by
  induction texts with
  | nil => exact List.not_mem_nil
  | cons text texts ih =>
    rw [List.forall_mem_cons] at h
    cases texts with
    | nil => simpa using h.1
    | cons next texts =>
      rw [List.intercalate_cons_cons, List.append_assoc, List.mem_append, List.mem_append]
      rintro (hmem | hmem | hmem)
      · exact h.1 hmem
      · exact hc hmem
      · exact ih h.2 hmem

/-- What stands behind the first of several joined texts. -/
def tail (texts : List (List Char)) : List Char :=
  if texts = [] then [] else ',' :: ' ' :: [',', ' '].intercalate texts

theorem intercalate_cons (text : List Char) (texts : List (List Char)) :
    [',', ' '].intercalate (text :: texts) = text ++ tail texts := by
  cases texts with
  | nil => simp [tail]
  | cons next texts => simp [tail, List.intercalate_cons_cons]

/-- The first of several joined texts ends at the cut. -/
theorem cut_intercalate {text : List Char} (h : Passes 0 text) (texts : List (List Char)) :
    cut 0 false ([',', ' '].intercalate (text :: texts)) = (text, tail texts) := by
  rw [intercalate_cons, h 0 (Nat.le_refl 0)]
  unfold tail
  split <;> simp [cut, behind]

theorem intercalate_eq_of_tail {xs ys : List (List Char)} (h : tail xs = tail ys) :
    [',', ' '].intercalate xs = [',', ' '].intercalate ys := by
  unfold tail at h
  split at h <;> split at h
  · simp_all
  · cases h
  · cases h
  · exact (List.cons.inj (List.cons.inj h).2).2

theorem intercalate_cons_ne_nil {text : List Char} (h : text ≠ []) (texts : List (List Char)) :
    [',', ' '].intercalate (text :: texts) ≠ [] := by
  rw [intercalate_cons]
  exact List.append_ne_nil_of_left_ne_nil h _

/-- Texts that close what they open are read back from the joined text. -/
theorem intercalate_inj {xs ys : List (List Char)} (hxs : ∀ x ∈ xs, Passes 0 x ∧ x ≠ [])
    (hys : ∀ y ∈ ys, Passes 0 y ∧ y ≠ [])
    (h : [',', ' '].intercalate xs = [',', ' '].intercalate ys) : xs = ys := by
  induction xs generalizing ys with
  | nil =>
    cases ys with
    | nil => rfl
    | cons y ys => exact absurd h.symm (intercalate_cons_ne_nil (hys y List.mem_cons_self).2 ys)
  | cons x xs ih =>
    cases ys with
    | nil => exact absurd h (intercalate_cons_ne_nil (hxs x List.mem_cons_self).2 xs)
    | cons y ys =>
      have hcut := congrArg (cut 0 false) h
      rw [cut_intercalate (hxs x List.mem_cons_self).1,
        cut_intercalate (hys y List.mem_cons_self).1] at hcut
      obtain ⟨hfirst, htail⟩ := Prod.mk.inj hcut
      have hrest := ih (fun z hz => hxs z (List.mem_cons_of_mem x hz))
        (fun z hz => hys z (List.mem_cons_of_mem y hz)) (intercalate_eq_of_tail htail)
      rw [hfirst, hrest]

end RowExpr.Operands
