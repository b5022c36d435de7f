/-
  Names of correlation variables.

  `Names` says which texts name a variable: the marker, one plus sign or none, and one or more
  digits whose places spell its ordinal. That is what is read (`ofName?_eq_some_iff`), as far as
  32 bits go, and nothing else (`ofName?_eq_none_iff`). The name that is written is one of these
  texts (`names_name`), so it is read back, and no two variables share it.
-/
import Mathlib.Data.List.Induction
import Mathlib.Data.Nat.Digits.Defs
import RowExpr.CorrelationId

namespace RowExpr

/-! ## Digits -/

theorem isDigit_iff {c : Char} : c.isDigit = true ↔ '0' ≤ c ∧ c ≤ '9' := by
  simp [Char.isDigit, Char.le_def]

/-- A run of digits spells the sum of its digits, each times the power of ten of its place. -/
theorem digitsValue_eq_ofDigits (cs : List Char) :
    digitsValue cs = Nat.ofDigits 10 (cs.reverse.map digitValue) := by
  induction cs using List.reverseRecOn with
  | nil => rfl
  | append_singleton cs c ih =>
    rw [digitsValue_append_singleton, List.reverse_append, List.reverse_singleton,
      List.singleton_append, List.map_cons, Nat.ofDigits_cons, ← ih]
    exact Nat.add_comm _ _

namespace CorrelationId

/-! ## Which texts are names -/

/-- The text names the variable of this ordinal: behind the marker there is a plus sign or not, and
    then one or more ASCII digits, which spell the ordinal with the last digit in the place of the
    units. -/
def Names (text : String) (ordinal : Nat) : Prop :=
  ∃ (sign : String) (digits : List Char), text = "$cor" ++ sign ++ String.ofList digits ∧
    (sign = "" ∨ sign = "+") ∧ digits ≠ [] ∧ (∀ c ∈ digits, '0' ≤ c ∧ c ≤ '9') ∧
    Nat.ofDigits 10 (digits.reverse.map fun c => c.toNat - '0'.toNat) = ordinal

/-- What is left of a name behind the marker and the sign. -/
theorem names_iff {text : String} {ordinal : Nat} :
    Names text ordinal ↔ ∃ digits, isDigits digits = true ∧ digitsValue digits = ordinal ∧
      (text.toList = '$' :: 'c' :: 'o' :: 'r' :: digits ∨
        text.toList = '$' :: 'c' :: 'o' :: 'r' :: '+' :: digits) := by
  have hdigits {digits : List Char} :
      isDigits digits = true ↔ digits ≠ [] ∧ ∀ c ∈ digits, '0' ≤ c ∧ c ≤ '9' := by
    rw [isDigits_iff]
    exact and_congr_right' (forall₂_congr fun _ _ => isDigit_iff)
  have hvalue {digits : List Char} :
      Nat.ofDigits 10 (digits.reverse.map fun c => c.toNat - '0'.toNat) = digitsValue digits :=
    (digitsValue_eq_ofDigits digits).symm
  constructor
  · rintro ⟨sign, digits, rfl, hsign, hne, hall, rfl⟩
    refine ⟨digits, hdigits.mpr ⟨hne, hall⟩, hvalue.symm, ?_⟩
    rcases hsign with rfl | rfl
    · exact Or.inl (by simp)
    · exact Or.inr (by simp)
  · rintro ⟨digits, hrun, rfl, htext | htext⟩
    · refine ⟨"", digits, ?_, Or.inl rfl, (hdigits.mp hrun).1, (hdigits.mp hrun).2, hvalue⟩
      rw [← String.toList_inj, htext]
      simp
    · refine ⟨"+", digits, ?_, Or.inr rfl, (hdigits.mp hrun).1, (hdigits.mp hrun).2, hvalue⟩
      rw [← String.toList_inj, htext]
      simp

/-! ## Reading -/

theorem ofDigits?_eq_some_iff {digits : List Char} {id : CorrelationId} :
    ofDigits? digits = some id ↔
      isDigits digits = true ∧ digitsValue digits = id.ordinal.toNat := by
  unfold ofDigits?
  constructor
  · intro h
    split at h
    next hfits =>
      obtain ⟨hrun, hsmall⟩ := (Bool.and_eq_true _ _).mp hfits
      obtain rfl := Option.some_inj.mp h
      exact ⟨hrun, (UInt32.toNat_ofNat_of_lt' (of_decide_eq_true hsmall)).symm⟩
    next => cases h
  · rintro ⟨hrun, hvalue⟩
    have hsmall : digitsValue digits < UInt32.size := hvalue ▸ id.ordinal.toNat_lt
    rw [hrun, decide_eq_true hsmall, hvalue, UInt32.ofNat_toNat]
    rfl

/-- A plus sign is no digit, so the two spellings of a name do not meet. -/
theorem isDigits_plus (digits : List Char) : isDigits ('+' :: digits) = false := by
  simp [isDigits]

theorem ofName?_eq_some_iff {text : String} {id : CorrelationId} :
    ofName? text = some id ↔ Names text id.ordinal.toNat := by
  have hbehind {a b : List Char} :
      '$' :: 'c' :: 'o' :: 'r' :: a = '$' :: 'c' :: 'o' :: 'r' :: b ↔ a = b := by simp
  rw [names_iff]
  unfold ofName?
  split
  next digits htext =>
    rw [htext, ofDigits?_eq_some_iff]
    constructor
    · rintro ⟨hrun, hvalue⟩
      exact ⟨digits, hrun, hvalue, Or.inr rfl⟩
    · rintro ⟨digits', hrun, hvalue, heq | heq⟩
      · rw [← hbehind.mp heq, isDigits_plus] at hrun
        cases hrun
      · obtain rfl := (List.cons.inj (hbehind.mp heq)).2
        exact ⟨hrun, hvalue⟩
  next digits hplus htext =>
    rw [htext, ofDigits?_eq_some_iff]
    constructor
    · rintro ⟨hrun, hvalue⟩
      exact ⟨digits, hrun, hvalue, Or.inl rfl⟩
    · rintro ⟨digits', hrun, hvalue, heq | heq⟩
      · obtain rfl := hbehind.mp heq
        exact ⟨hrun, hvalue⟩
      · exact absurd (hbehind.mp heq) (hplus digits')
  next hplus hmarker =>
    constructor
    · intro h
      cases h
    · rintro ⟨digits, -, -, heq | heq⟩
      · exact absurd heq (hmarker digits)
      · exact absurd heq (hplus digits)

theorem ofName?_eq_none_iff {text : String} :
    ofName? text = none ↔ ¬ ∃ ordinal, ordinal ≤ 4294967295 ∧ Names text ordinal := by
  rw [Option.eq_none_iff_forall_ne_some]
  constructor
  · rintro hnone ⟨ordinal, hsmall, hnames⟩
    have hfits : (UInt32.ofNat ordinal).toNat = ordinal :=
      UInt32.toNat_ofNat_of_lt' (Nat.lt_succ_of_le hsmall)
    exact hnone ⟨UInt32.ofNat ordinal⟩ (ofName?_eq_some_iff.mpr (hfits.symm ▸ hnames))
  · intro hnone id hread
    have hsmall : id.ordinal.toNat ≤ 4294967295 := Nat.le_of_lt_succ id.ordinal.toNat_lt
    exact hnone ⟨_, hsmall, ofName?_eq_some_iff.mp hread⟩

/-! ## Writing -/

/-- The name that is written is one of those of its variable. -/
theorem names_name (id : CorrelationId) : Names id.name id.ordinal.toNat := by
  have htext : id.name.toList =
      '$' :: 'c' :: 'o' :: 'r' :: Nat.toDigits 10 id.ordinal.toNat := by
    have hrepr : toString id.ordinal.toNat = String.ofList (Nat.toDigits 10 id.ordinal.toNat) :=
      Nat.toString_eq_ofList_toDigits
    simp [name, marker, hrepr]
  exact names_iff.mpr ⟨_, isDigits_toDigits _, digitsValue_toDigits _, Or.inl htext⟩

theorem ofName?_name (id : CorrelationId) : ofName? id.name = some id :=
  ofName?_eq_some_iff.mpr (names_name id)

/-- Names are read back as the variables that they were written for, and no two variables have one
    name. A text is read as a variable exactly if it is a name of it, and is not read exactly if it
    names no number of 32 bits. -/
theorem names_decode :
    (∀ id : CorrelationId, ofName? id.name = some id) ∧ Function.Injective name ∧
    (∀ (text : String) (id : CorrelationId),
      ofName? text = some id ↔ Names text id.ordinal.toNat) ∧
    ∀ text : String,
      ofName? text = none ↔ ¬ ∃ ordinal, ordinal ≤ 4294967295 ∧ Names text ordinal := by
  refine ⟨ofName?_name, fun a b h => ?_, fun _ _ => ofName?_eq_some_iff,
    fun _ => ofName?_eq_none_iff⟩
  have hread := ofName?_name a
  rw [h, ofName?_name b] at hread
  exact (Option.some_inj.mp hread).symm

/-- A sign and leading zeros are no part of the number, and the number that follows the largest
    ordinal is too large however it is written. -/
example : ofName? "$cor+0004294967295" = some ⟨4294967295⟩ ∧ ofName? "$cor4294967296" = none ∧
    ofName? "$cor++1" = none ∧ ofName? "$cor+" = none := by decide

end CorrelationId
end RowExpr
