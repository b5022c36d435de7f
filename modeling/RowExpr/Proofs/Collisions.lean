/-
  Which texts the stable hash keeps apart.

  One step of the hash xors a byte into the state and multiplies by an odd number. Modulo `2^64`
  that number has an inverse, so a step loses nothing: the state before can be told from the one
  after it and the byte (`mix_left_inj`), and so can the byte from the two states
  (`mix_right_inj`). By induction on the bytes, a text written to two hashes takes them to one
  only if they are one already (`write_inj`).

  So a common end neither makes nor hides a collision, and texts that differ in one ASCII
  character never collide, wherever it stands.
-/
import RowExpr.Expr.Basic

namespace RowExpr

namespace StableHash

/-! ## One step -/

/-- What undoes a multiplication by the prime, modulo `2^64`. -/
def primeInverse : UInt64 := 0xce965057aff6957b

theorem prime_mul_primeInverse : prime * primeInverse = 1 := by decide

theorem mul_prime_inj {a b : UInt64} : a * prime = b * prime ↔ a = b := by
  constructor
  · intro h
    have hundone := congrArg (· * primeInverse) h
    simpa only [UInt64.mul_assoc, prime_mul_primeInverse, UInt64.mul_one] using hundone
  · exact congrArg (· * prime)

theorem mix_left_inj {a b : UInt64} {byte : UInt8} : mix a byte = mix b byte ↔ a = b :=
  mul_prime_inj.trans (UInt64.xor_left_inj byte.toUInt64)

theorem mix_right_inj {state : UInt64} {x y : UInt8} : mix state x = mix state y ↔ x = y :=
  mul_prime_inj.trans ((UInt64.xor_right_inj state).trans UInt8.toUInt64_inj)

/-! ## Whole texts -/

theorem foldl_mix_inj {a b : UInt64} (bytes : List UInt8) :
    bytes.foldl mix a = bytes.foldl mix b ↔ a = b := by
  induction bytes generalizing a b with
  | nil => rfl
  | cons byte bytes ih => exact ih.trans mix_left_inj

/-- What is written to two hashes alike does not bring them together. -/
theorem write_inj {h h' : StableHash} (text : String) :
    h.write text = h'.write text ↔ h = h' := by
  cases h
  cases h'
  unfold write
  rw [StableHash.mk.injEq, StableHash.mk.injEq, ← Array.foldl_toList, ← Array.foldl_toList]
  exact foldl_mix_inj _

theorem ofText_eq_iff {a b : String} : ofText a = ofText b ↔ start.write a = start.write b := by
  unfold ofText
  cases start.write a
  cases start.write b
  exact (StableHash.mk.injEq ..).symm ▸ Iff.rfl

theorem ofText_append_eq_iff {a b : String} (text : String) :
    ofText (a ++ text) = ofText (b ++ text) ↔ ofText a = ofText b := by
  rw [ofText_eq_iff, ofText_eq_iff, write_append, write_append, write_inj]

/-- An ASCII character is mixed in as one byte. -/
theorem write_singleton (h : StableHash) {c : Char} (hc : c.toNat < 128) :
    h.write (String.singleton c) = ⟨mix h.state c.val.toUInt8⟩ := by
  have hsize : c.utf8Size = 1 := Char.utf8Size_eq_one_iff.mpr (Nat.le_of_lt_succ hc)
  have hbytes : (String.singleton c).toByteArray = [c.val.toUInt8].toByteArray := by
    rw [String.toByteArray_singleton, List.utf8Encode_singleton,
      String.utf8EncodeChar_eq_singleton hsize]
  unfold write
  rw [hbytes]
  rfl

/-- Two ASCII characters written to one hash bring it to different states. -/
theorem write_singleton_inj (h : StableHash) {c d : Char} (hc : c.toNat < 128)
    (hd : d.toNat < 128) :
    h.write (String.singleton c) = h.write (String.singleton d) ↔ c = d := by
  have hbyte {x : Char} (hx : x.toNat < 128) : x.val.toUInt8.toNat = x.toNat := by
    rw [UInt32.toNat_toUInt8]
    exact Nat.mod_eq_of_lt (Nat.lt_trans hx (by decide))
  rw [write_singleton h hc, write_singleton h hd, StableHash.mk.injEq, mix_right_inj,
    ← UInt8.toNat_inj, hbyte hc, hbyte hd, Char.toNat_inj]

/-- Of two texts that differ in one ASCII character the hashes differ. -/
theorem ofText_ne_of_changed {c d : Char} (hc : c.toNat < 128) (hd : d.toNat < 128)
    (hne : c ≠ d) (before after : String) :
    ofText (before ++ String.singleton c ++ after) ≠
      ofText (before ++ String.singleton d ++ after) := by
  rw [Ne, ofText_append_eq_iff, ofText_eq_iff, write_append, write_append,
    write_singleton_inj _ hc hd]
  exact hne

end StableHash

/-! ## Keys -/

/-- The hash neither merges nor parts texts by a common end, it tells texts apart that differ in
    one ASCII character, and the keys of nodes of one type are equal just if their digests have
    equal hashes. -/
theorem StableHash.ofText_discerns :
    (∀ a b text, ofText (a ++ text) = ofText (b ++ text) ↔ ofText a = ofText b) ∧
    (∀ before after (c d : Char), c.toNat < 128 → d.toNat < 128 → c ≠ d →
      ofText (before ++ String.singleton c ++ after) ≠
        ofText (before ++ String.singleton d ++ after)) ∧
    ∀ e e' : Expr, e.type = e'.type →
      (e.key = e'.key ↔ ofText e.digest = ofText e'.digest) := by
  refine ⟨fun _ _ text => ofText_append_eq_iff text,
    fun before after _ _ hc hd hne => ofText_ne_of_changed hc hd hne before after,
    fun e e' htype => ?_⟩
  rw [Expr.key_eq, Expr.key_eq, htype, ofText_append_eq_iff, ofText_append_eq_iff]

/-- Comparisons of neighbouring columns with one number, written alike up to the ordinal. -/
theorem StableHash.ofText_discerns_columns :
    let one := Expr.place 0 (.literal (.integer 1) (.notNull .integer))
    let first := Expr.place 2 (.call .equals
      [Expr.place 1 (.inputRef 0 (.notNull .integer)), one] (.notNull .boolean))
    let second := Expr.place 4 (.call .equals
      [Expr.place 3 (.inputRef 1 (.notNull .integer)), one] (.notNull .boolean))
    first.digest = "=($0, 1)" ∧ second.digest = "=($1, 1)" ∧ first.key ≠ second.key := by
  intro one first second
  have hfirst : first.digest = "=($" ++ String.singleton '0' ++ ", 1)" := by decide
  have hsecond : second.digest = "=($" ++ String.singleton '1' ++ ", 1)" := by decide
  obtain ⟨-, hchanged, hkeys⟩ := ofText_discerns
  refine ⟨hfirst, hsecond, fun heq => ?_⟩
  have hdigests := (hkeys first second rfl).mp heq
  rw [hfirst, hsecond] at hdigests
  exact hchanged "=($" ", 1)" '0' '1' (by decide) (by decide) (by decide) hdigests

end RowExpr
