/-
  Stable 64-bit keys of text: FNV-1a over the UTF-8 bytes.

  The key of a text depends on nothing but its bytes, so it may be stored and compared
  across processes and machines. It is not a cryptographic hash.

  A hash under way is a value, `StableHash`, and text is mixed in piece by piece. Where the
  pieces are cut does not matter (`write_append`): a composite key is hashed without
  building the joined text.
-/
namespace RowExpr

/-- A hash under way. -/
structure StableHash where
  state : UInt64
deriving DecidableEq, Repr

namespace StableHash

def offsetBasis : UInt64 := 0xcbf29ce484222325

def prime : UInt64 := 0x00000100000001b3

/-- The hash of the empty text. -/
def start : StableHash := ⟨offsetBasis⟩

/-- One byte: xor it in, then multiply by the prime, modulo `2^64`. -/
def mix (state : UInt64) (byte : UInt8) : UInt64 := (state ^^^ byte.toUInt64) * prime

/-- Mix in the bytes of `text`, first to last. -/
def write (h : StableHash) (text : String) : StableHash :=
  ⟨text.toByteArray.data.foldl mix h.state⟩

/-- The key of a whole text. -/
def ofText (text : String) : UInt64 := (start.write text).state

theorem write_empty (h : StableHash) : h.write "" = h := by
  simp [write]

/-- Writing two pieces is writing their concatenation. -/
theorem write_append (h : StableHash) (a b : String) :
    h.write (a ++ b) = (h.write a).write b := by
  simp [write, String.toByteArray_append]

end StableHash
end RowExpr
