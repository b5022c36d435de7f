/-
  Hashing piece by piece is hashing the whole.

  `fnv1a` is the published hash, on bytes and in numbers. A text that is written to a hash takes its
  state on by the steps of `fnv1a` over the UTF-8 bytes (`toNat_write`). Whether the pieces of a
  text are written one by one to a hash that is kept (`writeEach`) or chained to a new one, each
  state on the way is the hash of all that was written by then (`pieces_hash_alike`), so it does not
  matter where a text is cut.
-/
import Mathlib.Data.List.Infix
import RowExpr.Expr.Basic

namespace RowExpr

/-- The bytes of a text, character by character. -/
def utf8 (text : String) : List UInt8 := text.toList.flatMap String.utf8EncodeChar

namespace StableHash

/-! ## The published hash -/

/-- One step of 64-bit FNV-1a: xor the byte in, then multiply by the prime and keep 64 bits. -/
def fnv1aStep (hash : Nat) (byte : UInt8) : Nat :=
  (hash ^^^ byte.toNat) * 1099511628211 % UInt64.size

/-- 64-bit FNV-1a, from its offset basis. -/
def fnv1a (bytes : List UInt8) : Nat := bytes.foldl fnv1aStep 14695981039346656037

theorem toNat_mix (state : UInt64) (byte : UInt8) :
    (mix state byte).toNat = fnv1aStep state.toNat byte := by
  unfold mix fnv1aStep
  rw [UInt64.toNat_mul, UInt64.toNat_xor, UInt8.toNat_toUInt64]
  rfl

theorem toNat_foldl_mix (state : UInt64) (bytes : List UInt8) :
    (bytes.foldl mix state).toNat = bytes.foldl fnv1aStep state.toNat := by
  induction bytes generalizing state with
  | nil => rfl
  | cons byte bytes ih => rw [List.foldl_cons, List.foldl_cons, ih, toNat_mix]

theorem toList_toByteArray (text : String) : text.toByteArray.data.toList = utf8 text := by
  rw [← String.utf8Encode_toList]
  exact List.toList_data_toByteArray

/-- A text takes a hash on by its bytes. -/
theorem toNat_write (h : StableHash) (text : String) :
    (h.write text).state.toNat = (utf8 text).foldl fnv1aStep h.state.toNat := by
  unfold write
  rw [← Array.foldl_toList, toList_toByteArray]
  exact toNat_foldl_mix h.state (utf8 text)

theorem toNat_ofText (text : String) : (ofText text).toNat = fnv1a (utf8 text) :=
  toNat_write start text

/-! ## Pieces -/

/-- Pieces chained to a hash are their concatenation written to it. -/
theorem foldl_write (h : StableHash) (pieces : List String) :
    pieces.foldl write h = h.write (String.join pieces) := by
  induction pieces generalizing h with
  | nil => exact (write_empty h).symm
  | cons piece pieces ih => rw [List.foldl_cons, ih, String.join_cons, write_append]

/-- Write pieces to a hash that is kept, and note its state after each of them. -/
def writeEach (pieces : List String) : StateM StableHash (List UInt64) :=
  pieces.mapM fun piece => do
    modify (·.write piece)
    return (← get).state

/-- The states noted are those of the hashes that the pieces so far are chained to, and what is kept
    in the end is the hash that all are chained to. -/
theorem writeEach_run (h : StableHash) (pieces : List String) :
    (writeEach pieces).run h =
      (pieces.inits.tail.map fun front => (front.foldl write h).state, pieces.foldl write h) := by
  induction pieces generalizing h with
  | nil => rfl
  | cons piece pieces ih =>
    have hstep : (writeEach (piece :: pieces)).run h =
        ((h.write piece).state :: ((writeEach pieces).run (h.write piece)).1,
          ((writeEach pieces).run (h.write piece)).2) := by
      unfold writeEach
      rw [List.mapM_cons]
      rfl
    have hinits : pieces.inits = [] :: pieces.inits.tail := by cases pieces <;> simp
    rw [hstep, ih, List.inits_cons, List.tail_cons, hinits, List.map_cons, List.map_cons,
      List.tail_cons, List.map_map]
    rfl

/-- After each of any pieces that are written to a new hash, its state is the 64-bit FNV-1a of the
    UTF-8 bytes of all pieces so far, and in the end it is the hash that the pieces are chained to.
    So however a text is cut, the key is that of the text; and the key of a node is that of its
    digest, a colon and the text of its type. -/
theorem pieces_hash_alike :
    (∀ pieces : List String,
      ((writeEach pieces).run start).1.map UInt64.toNat =
        pieces.inits.tail.map (fun front => fnv1a (utf8 (String.join front))) ∧
      ((writeEach pieces).run start).2 = pieces.foldl write start ∧
      (pieces.foldl write start).state = ofText (String.join pieces)) ∧
    (∀ text : String, (ofText text).toNat = fnv1a (utf8 text)) ∧
    ∀ e : Expr, e.key = ofText (e.digest ++ ":" ++ e.type.text) := by
  refine ⟨fun pieces => ⟨?_, ?_, ?_⟩, toNat_ofText, Expr.key_eq⟩
  · rw [writeEach_run, List.map_map]
    refine List.map_congr_left fun front _ => ?_
    show (front.foldl write start).state.toNat = _
    rw [foldl_write]
    exact toNat_ofText (String.join front)
  · rw [writeEach_run]
  · rw [foldl_write]
    rfl

/-- Keys are stored, so they must stay what they are; an empty piece or a cut behind a character of
    several bytes changes nothing. -/
example : ofText "hello" = 11831194018420276491 ∧
    ["h", "", "ello"].foldl write start = start.write "hello" ∧
    ["é", "😀$"].foldl write start = start.write "é😀$" := by decide

end StableHash
end RowExpr
