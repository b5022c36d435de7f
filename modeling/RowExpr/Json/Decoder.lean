/-
  Building blocks for reading typed values from JSON.

  A decoder takes a reading and says what it means, or the first thing that is wrong with it
  in the order of the text. Three conventions hold for all values.

  * A record is an object, with its fields in any order and each at most once, or an array
    of its fields in their order. A repeated field is noticed when its name has been read,
    before its value; a missing one behind the last.
  * A variant is its name as a string, or an object of exactly one member: the name and the
    content.
  * Arrays and objects nest at most `depthLimit` deep where their content is looked into.
    Decoders of such content take the number of levels still allowed.
-/
import RowExpr.Json.Fault
import RowExpr.Json.Reading

namespace RowExpr.Json

/-- How many levels of arrays and objects are looked into. -/
def depthLimit : Nat := 127

/-- The outcome of a decoder. -/
abbrev Decoded := Except Fault

def malformed {α : Type} : Decoded α := .error .malformed

def refuse {α : Type} (cause : Mismatch) : Decoded α := .error (.mismatch cause)

namespace Reading

/-- What this reading is, if as much of it can be read as it takes to tell. -/
def found? : Reading → Option Found
  | .null => some .null
  | .bool b => some (.bool b)
  | .number n => Found.number <$> n.number?
  | .string pieces => Found.string <$> Piece.text? pieces
  | .array _ => some .sequence
  | .object _ => some .map
  | .broken => none

/-- Refuse a reading of the wrong type. -/
def wrongType {α : Type} (reading : Reading) (expected : String) : Decoded α :=
  match reading.found? with
  | some found => refuse (.type found expected)
  | none => malformed

/-! ## Scalars -/

def asUnit : Reading → Decoded Unit
  | .null => .ok ()
  | reading => reading.wrongType "unit"

def asBool : Reading → Decoded Bool
  | .bool b => .ok b
  | reading => reading.wrongType "a boolean"

def asString (reading : Reading) : Decoded String :=
  match reading with
  | .string pieces => match Piece.text? pieces with
    | some s => .ok s
    | none => malformed
  | reading => reading.wrongType "a string"

/-- An integer within bounds, both included. -/
def asInteger (low high : Int) (expected : String) (reading : Reading) : Decoded Int :=
  match reading with
  | .number numeral => match numeral.number? with
    | some (.integer n) =>
      if low ≤ n ∧ n ≤ high then .ok n
      else refuse (.value (.number (.integer n)) expected)
    | some (.float f) => refuse (.type (.number (.float f)) expected)
    | none => malformed
  | reading => reading.wrongType expected

def asUInt64 (reading : Reading) : Decoded UInt64 :=
  (fun n => UInt64.ofNat n.toNat) <$> asInteger 0 (UInt64.size - 1) "usize" reading

def asUInt32 (reading : Reading) : Decoded UInt32 :=
  (fun n => UInt32.ofNat n.toNat) <$> asInteger 0 (UInt32.size - 1) "u32" reading

def asInt64 (reading : Reading) : Decoded Int64 :=
  Int64.ofInt <$> asInteger Int64.minValue.toInt Int64.maxValue.toInt "i64" reading

/-- Pass over a value that nobody asked for. -/
def skip (reading : Reading) : Decoded Unit :=
  if reading.isWhole then .ok () else malformed

end Reading

/-! ## Records -/

/-- Take the members one by one, left to right. -/
def foldMembers {σ : Type} (take : σ → String → Reading → Decoded σ) (state : σ) :
    List (Option (List Piece) × Reading) → Decoded σ
  | [] => .ok state
  | (none, _) :: _ => malformed
  | (some pieces, value) :: members =>
    match Piece.text? pieces with
    | some key => match take state key value with
      | .ok state => foldMembers take state members
      | .error fault => .error fault
    | none => malformed

/-- Fill the place of a field, unless it is filled already. -/
def fill {α : Type} (name : String) (place : Option α) (value : Decoded α) :
    Decoded (Option α) :=
  match place with
  | some _ => refuse (.duplicateField name)
  | none => some <$> value

/-- The value of a field that must be there. -/
def require {α : Type} (name : String) (place : Option α) : Decoded α :=
  match place with
  | some value => .ok value
  | none => refuse (.missingField name)

/-- The next item of an array that stands for a record; `taken` items precede it. -/
def nextItem {α : Type} (decode : Reading → Decoded α) (taken : Nat) (expected : String) :
    List Reading → Decoded (α × List Reading)
  | [] => refuse (.length taken expected)
  | item :: items => (·, items) <$> decode item

/-- Nothing may follow the last field of a record in an array. -/
def noMoreItems : List Reading → Decoded Unit
  | [] => .ok ()
  | _ :: _ => malformed

/-- Read a record from the members of an object or the items of an array. -/
def record {α : Type} (expected : String) (levels : Nat)
    (ofMembers : List (Option (List Piece) × Reading) → Decoded α)
    (ofItems : List Reading → Decoded α) :
    Reading → Decoded α
  | .object members => if levels = 0 then malformed else ofMembers members
  | .array items => if levels = 0 then malformed else ofItems items
  | reading => reading.wrongType expected

/-! ## Variants -/

/-- How one of several alternatives is read. -/
structure Variant (α : Type) where
  name : String
  /-- The meaning of the bare name. -/
  bare : Decoded α
  /-- The meaning of the name with content. -/
  content : Reading → Decoded α

namespace Variant

/-- An alternative without content, which may be spelled out as null. -/
def constant {α : Type} (name : String) (value : α) : Variant α :=
  ⟨name, .ok value, fun content => (fun _ => value) <$> content.asUnit⟩

/-- An alternative with content, which its bare name lacks. -/
def withContent {α : Type} (name : String) (decode : Reading → Decoded α) : Variant α :=
  ⟨name, refuse (.type .bareVariant "newtype variant"), decode⟩

/-- An alternative whose content is a record. -/
def withRecord {α : Type} (name : String) (decode : Reading → Decoded α) : Variant α :=
  ⟨name, refuse (.type .bareVariant "struct variant"), decode⟩

/-- The alternative of a name, which a string spells. -/
def select {α : Type} (variants : List (Variant α)) (pieces : List Piece) :
    Decoded (Variant α) :=
  match Piece.text? pieces with
  | some name => match variants.find? (·.name = name) with
    | some variant => .ok variant
    | none => refuse (.unknownVariant name (variants.map Variant.name))
  | none => malformed

/-- Read one of several alternatives. The name is judged before the content, and the content
    before what follows it. -/
def decode {α : Type} (variants : List (Variant α)) (levels : Nat) : Reading → Decoded α
  | .string pieces => do (← select variants pieces).bare
  | .object members =>
    if levels = 0 then malformed
    else match members with
      | (some pieces, content) :: more => do
        let value ← (← select variants pieces).content content
        if more.isEmpty then return value else malformed
      | _ => malformed
  | _ => malformed

end Variant

/-! ## Whole texts -/

/-- Read a value from a text that holds it and nothing else. -/
def decodeText {α : Type} (decode : Nat → Reading → Decoded α) (text : String) : Decoded α := do
  let (reading, rest) := Reading.ofText text
  let value ← decode depthLimit reading
  if rest.isEmpty then return value else malformed

end RowExpr.Json
