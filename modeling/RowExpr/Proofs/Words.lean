/-
  Words and numbers, and what stands last in a text.

  A word is a run of ASCII letters, digits and underscores; an identifier is a word that does not
  start with a digit. The text of an integer or a decimal is an `IsNumber`. Where a text ends in a
  word behind something else, both are read back from it (`lastWord_append`, `beforeWord_append`),
  and so are the parts before and behind the last of some character (`append_cons_inj`).
-/
import Mathlib.Data.List.DropRight
import RowExpr.Digits

namespace RowExpr

/-! ## Words -/

/-- An ASCII letter or digit, or an underscore. -/
def isWordChar (c : Char) : Bool := c.isAlphanum || c == '_'

/-- A letter or underscore, then letters, digits and underscores. -/
def isIdentifier (name : String) : Bool :=
  match name.toList with
  | [] => false
  | c :: cs => !c.isDigit && (c :: cs).all isWordChar

theorem isWordChar_of_isDigit {c : Char} (h : c.isDigit = true) : isWordChar c = true := by
  simp [isWordChar, Char.isAlphanum, h]

theorem isIdentifier_iff {name : String} :
    isIdentifier name = true ↔
      name.toList.head?.map Char.isDigit = some false ∧ ∀ c ∈ name.toList, isWordChar c = true := by
  unfold isIdentifier
  cases name.toList with
  | nil => simp
  | cons c cs => simp

/-! ## Numbers -/

theorem head?_of_isDigits {cs : List Char} (h : isDigits cs = true) :
    cs.head?.map Char.isDigit = some true := by
  obtain ⟨hne, hall⟩ := isDigits_iff.mp h
  cases cs with
  | nil => exact absurd rfl hne
  | cons c cs => simp [hall c List.mem_cons_self]

theorem isWordChar_of_isDigits {cs : List Char} (h : isDigits cs = true) :
    ∀ c ∈ cs, isWordChar c = true :=
  fun c hc => isWordChar_of_isDigit ((isDigits_iff.mp h).2 c hc)

theorem isDigits_repr (n : Nat) : isDigits n.repr.toList = true := by
  have hrepr : n.repr = String.ofList (Nat.toDigits 10 n) := Nat.toString_eq_ofList_toDigits
  rw [hrepr, String.toList_ofList]
  exact isDigits_toDigits n

theorem repr_nat_inj {m n : Nat} (h : m.repr = n.repr) : m = n := by
  have hm : m.repr = String.ofList (Nat.toDigits 10 m) := Nat.toString_eq_ofList_toDigits
  have hn : n.repr = String.ofList (Nat.toDigits 10 n) := Nat.toString_eq_ofList_toDigits
  rw [hm, hn, ← String.toList_inj, String.toList_ofList, String.toList_ofList] at h
  calc
    m = Nat.ofDigitChars 10 (Nat.toDigits 10 m) 0 := Nat.ofDigitChars_ten_toDigits.symm
    _ = Nat.ofDigitChars 10 (Nat.toDigits 10 n) 0 := by rw [h]
    _ = n := Nat.ofDigitChars_ten_toDigits

theorem repr_int_inj {a b : Int} (h : a.repr = b.repr) : a = b := by
  have hminus (m n : Nat) : m.repr ≠ "-" ++ n.repr := by
    intro heq
    have hdigits := (isDigits_iff.mp (isDigits_repr m)).2
    rw [heq, String.toList_append] at hdigits
    have hfirst := hdigits '-' (List.mem_append_left _ List.mem_cons_self)
    exact absurd hfirst (by decide)
  rw [Int.repr_eq_if, Int.repr_eq_if] at h
  split at h <;> split at h
  · have hnat := repr_nat_inj h
    omega
  · exact absurd h (hminus _ _)
  · exact absurd h.symm (hminus _ _)
  · rw [String.append_right_inj] at h
    have hnat := repr_nat_inj h
    omega

/-- A text that an integer or a decimal can have: a minus or not, digits, and a point with digits
    or not. -/
def IsNumber (text : List Char) : Prop :=
  ∃ sign whole fraction, text = sign ++ (whole ++ fraction) ∧ (sign = [] ∨ sign = ['-']) ∧
    isDigits whole = true ∧ (fraction = [] ∨ ∃ ds, fraction = '.' :: ds ∧ isDigits ds = true)

theorem isNumber_integer (n : Int64) : IsNumber (toString n).toList := by
  have htext : toString n = n.toInt.repr := rfl
  rw [htext, Int.repr_eq_if]
  split
  · refine ⟨[], n.toInt.toNat.repr.toList, [], ?_, Or.inl rfl, isDigits_repr _, Or.inl rfl⟩
    rw [List.append_nil, List.nil_append]
  · refine ⟨['-'], (-n.toInt).toNat.repr.toList, [], ?_, Or.inr rfl, isDigits_repr _, Or.inl rfl⟩
    rw [List.append_nil, String.toList_append]
    rfl

/-- Behind the digits that a text starts with, there may be a point and further digits. -/
theorem isNumber_of_unsigned {sign unsigned : List Char} (hsign : sign = [] ∨ sign = ['-'])
    (h : (match unsigned.dropWhile (· != '.') with
      | [] => isDigits (unsigned.takeWhile (· != '.'))
      | _ :: fraction => isDigits (unsigned.takeWhile (· != '.')) && isDigits fraction) = true) :
    IsNumber (sign ++ unsigned) := by
  have hsplit : unsigned.takeWhile (· != '.') ++ unsigned.dropWhile (· != '.') = unsigned :=
    List.takeWhile_append_dropWhile
  have hpoint := List.head?_dropWhile_not (· != '.') unsigned
  split at h
  · rename_i hrest
    refine ⟨sign, _, [], ?_, hsign, h, Or.inl rfl⟩
    rw [← hrest, hsplit]
  · rename_i c fraction hrest
    obtain ⟨hwhole, hfraction⟩ := (Bool.and_eq_true _ _).mp h
    rw [hrest] at hpoint
    obtain rfl : c = '.' := by simpa using hpoint
    refine ⟨sign, _, '.' :: fraction, ?_, hsign, hwhole, Or.inr ⟨fraction, rfl, hfraction⟩⟩
    rw [← hrest, hsplit]

theorem isNumber_decimal {text : String} (h : isDecimalText text = true) :
    IsNumber text.toList := by
  unfold isDecimalText at h
  split at h
  · rename_i rest htext
    rw [htext]
    exact isNumber_of_unsigned (Or.inr rfl) h
  · exact isNumber_of_unsigned (Or.inl rfl) h

/-- A number ends in digits, and what is before them is nothing, a minus, or ends in a point. -/
theorem IsNumber.exists_end {text : List Char} (h : IsNumber text) :
    ∃ front word, text = front ++ word ∧ isDigits word = true ∧
      (front.getLast? = none ∨ front.getLast? = some '-' ∨ front.getLast? = some '.') := by
  obtain ⟨sign, whole, fraction, htext, hsign, hwhole, hfraction⟩ := h
  rcases hfraction with rfl | ⟨ds, rfl, hds⟩
  · refine ⟨sign, whole, by simpa using htext, hwhole, ?_⟩
    rcases hsign with rfl | rfl
    · exact Or.inl rfl
    · exact Or.inr (Or.inl rfl)
  · refine ⟨sign ++ whole ++ ['.'], ds, by simpa using htext, hds, Or.inr (Or.inr ?_)⟩
    rw [List.getLast?_concat]

theorem IsNumber.ne_nil {text : List Char} (h : IsNumber text) : text ≠ [] := by
  obtain ⟨front, word, rfl, hword, -⟩ := h.exists_end
  exact List.append_ne_nil_of_right_ne_nil front (isDigits_iff.mp hword).1

/-- The characters that numbers are made of. -/
theorem IsNumber.mem {text : List Char} (h : IsNumber text) :
    ∀ c ∈ text, c = '-' ∨ c = '.' ∨ c.isDigit = true := by
  obtain ⟨sign, whole, fraction, rfl, hsign, hwhole, hfraction⟩ := h
  intro c hc
  rw [List.mem_append, List.mem_append] at hc
  rcases hc with hc | hc | hc
  · rcases hsign with rfl | rfl
    · cases hc
    · exact Or.inl (List.mem_singleton.mp hc)
  · exact Or.inr (Or.inr ((isDigits_iff.mp hwhole).2 c hc))
  · rcases hfraction with rfl | ⟨ds, rfl, hds⟩
    · cases hc
    · exact Or.inr ((List.mem_cons.mp hc).imp_right ((isDigits_iff.mp hds).2 c))

/-! ## The last word -/

/-- The word that a text ends in; empty if the text does not end in one. -/
def lastWord (text : List Char) : List Char := text.rtakeWhile isWordChar

/-- What comes before the word that a text ends in. -/
def beforeWord (text : List Char) : List Char := text.rdropWhile isWordChar

section Last

variable {front word : List Char}

theorem lastWord_append (hfront : ∀ c ∈ front.getLast?, isWordChar c = false)
    (hword : ∀ c ∈ word, isWordChar c = true) : lastWord (front ++ word) = word := by
  have hreverse : ∀ c ∈ word.reverse, isWordChar c = true :=
    fun c hc => hword c (List.mem_reverse.mp hc)
  have hstop : front.reverse.takeWhile isWordChar = [] := by
    rcases List.eq_nil_or_concat' front with rfl | ⟨init, c, rfl⟩
    · rfl
    · have hc : isWordChar c = false := hfront c List.getLast?_concat
      rw [List.reverse_append, List.reverse_singleton, List.singleton_append,
        List.takeWhile_cons_of_neg (by simp [hc])]
  unfold lastWord List.rtakeWhile
  rw [List.reverse_append, List.takeWhile_append_of_pos hreverse, hstop, List.append_nil,
    List.reverse_reverse]

theorem beforeWord_append (hfront : ∀ c ∈ front.getLast?, isWordChar c = false)
    (hword : ∀ c ∈ word, isWordChar c = true) : beforeWord (front ++ word) = front := by
  have hboth : beforeWord (front ++ word) ++ lastWord (front ++ word) = front ++ word :=
    List.rdropWhile_append_rtakeWhile
  rw [lastWord_append hfront hword] at hboth
  exact List.append_cancel_right hboth

end Last

/-- The last of some character splits a text. -/
theorem append_cons_inj {a b s t : List Char} {c : Char} (hs : c ∉ s) (ht : c ∉ t)
    (h : a ++ c :: s = b ++ c :: t) : a = b ∧ s = t := by
  rcases List.append_eq_append_iff.mp h with ⟨between, hb, hrest⟩ | ⟨between, ha, hrest⟩
  · cases between with
    | nil =>
      rw [List.append_nil] at hb
      exact ⟨hb.symm, (List.cons.inj hrest).2⟩
    | cons x between =>
      have hmem : c ∈ s := by
        rw [(List.cons.inj hrest).2]
        exact List.mem_append_right between List.mem_cons_self
      exact absurd hmem hs
  · cases between with
    | nil =>
      rw [List.append_nil] at ha
      exact ⟨ha, (List.cons.inj hrest).2.symm⟩
    | cons x between =>
      have hmem : c ∈ t := by
        rw [(List.cons.inj hrest).2]
        exact List.mem_append_right between List.mem_cons_self
      exact absurd hmem ht

end RowExpr
