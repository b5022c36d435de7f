/-
  JSON text is read as it was written.

  `Json.reading` is what a written value comes back as. Its text is one of those that spell the
  reading (`reading_spelledBy`), so it is read as this reading, and nothing is left of it
  (`ofText_text`).

  A string comes back with some of its characters as 16-bit units, which spell it all the same
  (`text?_pieces`), and an integer of 64 bits as the number it is (`number?_numeral`).
-/
import RowExpr.Json.Number
import RowExpr.Json.Value
import RowExpr.Proofs.Spelled

namespace RowExpr.Json

/-! ## Strings -/

/-- A character is written as a backslash and a letter, by its number, or as it is. -/
theorem escape_cases (c : Char) :
    (∃ letter, escape c = ['\\', letter] ∧ unescape? letter = some c) ∨
    (escape c = ['\\', 'u', '0', '0', hexDigit (c.toNat / 16), hexDigit (c.toNat % 16)] ∧
      c.toNat < 0x20) ∨
    (escape c = [c] ∧ 0x20 ≤ c.toNat ∧ c ≠ '"' ∧ c ≠ '\\') := by
  unfold escape
  split
  · exact Or.inl ⟨'"', rfl, rfl⟩
  · exact Or.inl ⟨'\\', rfl, rfl⟩
  · exact Or.inl ⟨'b', rfl, rfl⟩
  · exact Or.inl ⟨'t', rfl, rfl⟩
  · exact Or.inl ⟨'n', rfl, rfl⟩
  · exact Or.inl ⟨'f', rfl, rfl⟩
  · exact Or.inl ⟨'r', rfl, rfl⟩
  · rename_i hquote hbackslash _ _ _ _ _
    split
    · rename_i hcontrol
      exact Or.inr (Or.inl ⟨rfl, hcontrol⟩)
    · rename_i hplain
      exact Or.inr (Or.inr ⟨rfl, by omega, hquote, hbackslash⟩)

/-- A character as it is read back: by its number if it is written so. -/
def piece (c : Char) : Piece := if (escape c).length = 6 then .unit c.toNat else .char c

/-- A string as it is read back. -/
def pieces (s : String) : List Piece := s.toList.map piece

theorem hexValue?_hexDigit : ∀ n < 16, hexValue? (hexDigit n) = some n := by decide

theorem piece_spelledBy (c : Char) : (piece c).SpelledBy (escape c) := by
  unfold piece
  rcases escape_cases c with ⟨letter, hescape, hletter⟩ | ⟨hescape, hcontrol⟩ |
    ⟨hescape, hplain, hquote, hbackslash⟩
  · have hshort : ¬ (escape c).length = 6 := by simp [hescape]
    rw [if_neg hshort, hescape]
    exact .escaped hletter
  · have hhigh := hexValue?_hexDigit (c.toNat / 16) (by omega)
    have hlow := hexValue?_hexDigit (c.toNat % 16) (by omega)
    have hzero : hexValue? '0' = some 0 := by decide
    have hvalue : 16 * (16 * (16 * 0 + 0) + c.toNat / 16) + c.toNat % 16 = c.toNat := by omega
    have hspelled := Piece.SpelledBy.numbered hzero hzero hhigh hlow
    rw [hvalue] at hspelled
    rw [hescape]
    exact hspelled
  · rw [hescape]
    exact .plain hplain hquote hbackslash

theorem pieces_spelledBy (s : String) : StringSpelledBy (pieces s) (stringText s) := by
  refine ⟨s.toList.map escape, ?_, ?_⟩
  · unfold pieces
    rw [List.forall₂_map_left_iff, List.forall₂_map_right_iff, List.forall₂_same]
    exact fun c _ => piece_spelledBy c
  · unfold stringText
    rw [List.flatMap_def, List.cons_append]

theorem chars?_piece_cons (c : Char) (ps : List Piece) :
    Piece.chars? (piece c :: ps) = (c :: ·) <$> Piece.chars? ps := by
  unfold piece
  split
  · rename_i hlength
    have hcontrol : c.toNat < 0x20 := by
      rcases escape_cases c with ⟨letter, hescape, -⟩ | ⟨-, hcontrol⟩ | ⟨hescape, -⟩
      · simp [hescape] at hlength
      · exact hcontrol
      · simp [hescape] at hlength
    have hhigh : isHighHalf c.toNat = false := by simp [isHighHalf]; omega
    have hlow : isLowHalf c.toNat = false := by simp [isLowHalf]; omega
    match ps with
    | [] => simp [Piece.chars?, hhigh, hlow]
    | .char d :: ps => simp [Piece.chars?, hhigh, hlow]
    | .unit n :: ps => simp [Piece.chars?, hhigh, hlow]
  · rw [Piece.chars?]

/-- A string that was written is read back. -/
@[simp]
theorem text?_pieces (s : String) : Piece.text? (pieces s) = some s := by
  have hchars (cs : List Char) : Piece.chars? (cs.map piece) = some cs := by
    induction cs with
    | nil => rfl
    | cons c cs ih => rw [List.map_cons, chars?_piece_cons, ih]; rfl
  unfold Piece.text? pieces
  rw [hchars]
  simp

/-! ## Integers -/

/-- An integer as it is spelled. -/
def numeral (n : Int) : Numeral := { negative := n < 0, whole := Nat.toDigits 10 n.natAbs }

/-- Zero is spelled by one digit, and no other number starts with a zero. -/
theorem toDigits_ten_cases (n : Nat) :
    n = 0 ∧ Nat.toDigits 10 n = ['0'] ∨
    ∃ c cs, Nat.toDigits 10 n = c :: cs ∧ c ≠ '0' := by
  induction n using Nat.strongRecOn with
  | _ n ih =>
    by_cases hsmall : n < 10
    · rw [Nat.toDigits_of_lt_base hsmall]
      by_cases hzero : n = 0
      · exact Or.inl ⟨hzero, by rw [hzero]; rfl⟩
      · exact Or.inr ⟨_, _, rfl, fun h => hzero (Nat.digitChar_eq_zero.mp h)⟩
    · rw [Nat.toDigits_eq_if (by decide), if_neg hsmall]
      rcases ih (n / 10) (by omega) with ⟨hzero, -⟩ | ⟨c, cs, hdigits, hc⟩
      · omega
      · exact Or.inr ⟨c, cs ++ _, by rw [hdigits]; rfl, hc⟩

theorem toList_toString_int (n : Int) :
    (toString n).toList = (if n < 0 then ['-'] else []) ++ Nat.toDigits 10 n.natAbs := by
  have hrepr (m : Nat) : m.repr.toList = Nat.toDigits 10 m := by
    rw [Nat.repr_eq_ofList_toDigits, String.toList_ofList]
  have htext : toString n = n.repr := rfl
  rw [htext, Int.repr_eq_if]
  split
  · rename_i h
    have habs : n.natAbs = n.toNat := by omega
    rw [hrepr, habs, if_neg (by omega), List.nil_append]
  · rename_i h
    have habs : n.natAbs = (-n).toNat := by omega
    rw [String.toList_append, hrepr, habs, if_pos (by omega)]
    rfl

theorem isWhole_toDigits (n : Nat) : IsWhole (Nat.toDigits 10 n) := by
  refine ⟨isDigits_toDigits n, ?_⟩
  rcases toDigits_ten_cases n with ⟨-, hdigits⟩ | ⟨c, cs, hdigits, hc⟩
  · rw [hdigits]
    exact fun _ => rfl
  · rw [hdigits]
    exact fun hhead => absurd (Option.some_inj.mp hhead) hc

theorem numeral_spelledBy (n : Int) : (numeral n).SpelledBy (toString n).toList := by
  have hspelled := Numeral.SpelledBy.parts (n := numeral n) (isWhole_toDigits n.natAbs) .none .none
  rw [toList_toString_int]
  simpa [numeral] using hspelled

/-- An integer of 64 bits, with or without a sign, is read as itself. -/
theorem number?_numeral {n : Int} (hlow : -(UInt64.size / 2 : Nat) ≤ n) (hhigh : n < UInt64.size) :
    (numeral n).number? = some (.integer n) := by
  have hvalue : digitsValue (numeral n).whole = n.natAbs := digitsValue_toDigits n.natAbs
  unfold Numeral.number?
  rw [hvalue]
  generalize hsize : n.natAbs = size
  by_cases hnegative : n < 0
  · have hbound : 0 < size ∧ size ≤ UInt64.size / 2 := by omega
    have hvalue : -(size : Int) = n := by omega
    simp [numeral, hnegative, hbound, hvalue]
  · have hbound : size < UInt64.size := by omega
    have hvalue : (size : Int) = n := by omega
    simp [numeral, hnegative, hbound, hvalue]

/-! ## The reading -/

mutual

/-- The reading of a written value. -/
def reading : Json → Reading
  | .null => .null
  | .bool b => .bool b
  | .integer n => .number (numeral n)
  | .string s => .string (pieces s)
  | .array items => .array (readings items)
  | .object members => .object (memberReadings members)
termination_by structural json => json

def readings : List Json → List Reading
  | [] => []
  | item :: items => item.reading :: readings items
termination_by structural items => items

def memberReadings : List (String × Json) → List (Option (List Piece) × Reading)
  | [] => []
  | (key, value) :: members => (some (pieces key), value.reading) :: memberReadings members
termination_by structural members => members

end

/-- A member as it is written, without blanks. -/
theorem member_spelledBy (key : String) {value : Reading} {cs : List Char}
    (h : value.SpelledBy cs) :
    MemberSpelledBy (some (pieces key), value) (stringText key ++ ':' :: cs) := by
  simpa using MemberSpelledBy.pair blank_nil (pieces_spelledBy key) blank_nil h.padded

mutual

/-- The text of a value is one of those that spell its reading. -/
theorem reading_spelledBy : (json : Json) → json.reading.SpelledBy json.chars
  | .null => .null
  | .bool true => .true
  | .bool false => .false
  | .integer n => .number (numeral_spelledBy n)
  | .string s => .string (pieces_spelledBy s)
  | .array [] => .emptyArray blank_nil
  | .array (item :: items) => .array (readings_spelledBy (item :: items) (List.cons_ne_nil _ _))
  | .object [] => .emptyObject blank_nil
  | .object (member :: members) =>
    .object (memberReadings_spelledBy (member :: members) (List.cons_ne_nil _ _))
termination_by structural json => json

theorem readings_spelledBy : (items : List Json) → items ≠ [] →
    ItemsSpelledBy (readings items) (itemsChars items)
  | [], hne => absurd rfl hne
  | [item], _ => .last (reading_spelledBy item).padded
  | item :: next :: items, _ =>
    .more (reading_spelledBy item).padded
      (readings_spelledBy (next :: items) (List.cons_ne_nil _ _))
termination_by structural items => items

theorem memberReadings_spelledBy : (members : List (String × Json)) → members ≠ [] →
    MembersSpelledBy (memberReadings members) (membersChars members)
  | [], hne => absurd rfl hne
  | [(key, value)], _ => .last (member_spelledBy key (reading_spelledBy value))
  | (key, value) :: next :: members, _ =>
    .more (member_spelledBy key (reading_spelledBy value))
      (memberReadings_spelledBy (next :: members) (List.cons_ne_nil _ _))
termination_by structural members => members

end

/-- A written value is read as it is, and nothing is left of the text. -/
theorem ofText_text (json : Json) : Reading.ofText json.text = (json.reading, []) := by
  apply Reading.ofText_spelledBy
  unfold text
  rw [String.toList_ofList]
  exact (reading_spelledBy json).padded

end RowExpr.Json
