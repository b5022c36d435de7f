/-
  The JSON form loses nothing.

  A written value is read as it is (`Json.ofText_text`), so it remains to be shown that each decoder
  makes the value again from its reading. Scalars, records and variants have one law each; a type,
  a row and a field are each so many levels around what they contain, and the three are read back
  together, by induction on the type (`DataType.decode_toJson`).

  The levels that arrays and objects may nest to are the only bound: `decode_toJson` says of types
  that they are read back below it and refused above it. `decodeText_toJson_text` is the round trip
  for all that has a JSON form.
-/
import RowExpr.Config.Json
import RowExpr.CorrelationId.Json
import RowExpr.DataType.Json
import RowExpr.Literal.Json
import RowExpr.Operator.Json
import RowExpr.Proofs.FirstSeen
import RowExpr.Proofs.Written

namespace RowExpr

open Json

/-! ## Nesting -/

mutual

/-- How deep arrays and objects nest in a value. -/
def Json.depth : Json → Nat
  | .array items => Json.itemsDepth items + 1
  | .object members => Json.membersDepth members + 1
  | _ => 0
termination_by structural json => json

def Json.itemsDepth : List Json → Nat
  | [] => 0
  | item :: items => max item.depth (Json.itemsDepth items)
termination_by structural items => items

def Json.membersDepth : List (String × Json) → Nat
  | [] => 0
  | (_, value) :: members => max value.depth (Json.membersDepth members)
termination_by structural members => members

end

namespace Json

/-! ## Outcomes -/

section Outcomes

variable {α β : Type}

@[simp]
theorem ok_bind (a : α) (f : α → Decoded β) : ((.ok a : Decoded α) >>= f) = f a := rfl

@[simp]
theorem malformed_map (f : α → β) : f <$> (malformed : Decoded α) = malformed := rfl

@[simp]
theorem malformed_bind (f : α → Decoded β) : ((malformed : Decoded α) >>= f) = malformed := rfl

end Outcomes

/-! ## Scalars -/

@[simp]
theorem asString_string (s : String) : (Json.string s).reading.asString = .ok s := by
  simp [reading, Reading.asString]

@[simp]
theorem asBool_bool (b : Bool) : (Json.bool b).reading.asBool = .ok b := rfl

theorem asInteger_integer {n low high : Int} {expected : String}
    (hlow : -(UInt64.size / 2 : Nat) ≤ n) (hhigh : n < UInt64.size) (h : low ≤ n ∧ n ≤ high) :
    (Json.integer n).reading.asInteger low high expected = .ok n := by
  simp [reading, Reading.asInteger, number?_numeral hlow hhigh, h]

@[simp]
theorem asUInt64_integer (n : UInt64) : (Json.integer n.toNat).reading.asUInt64 = .ok n := by
  have hlt : n.toNat < UInt64.size := n.toNat_lt
  have hn : (Json.integer n.toNat).reading.asInteger 0 (UInt64.size - 1) "usize" = .ok n.toNat :=
    asInteger_integer (by omega) (by omega) (by omega)
  rw [Reading.asUInt64, hn]
  simp

@[simp]
theorem asUInt32_integer (n : UInt32) : (Json.integer n.toNat).reading.asUInt32 = .ok n := by
  have hlt : n.toNat < UInt32.size := n.toNat_lt
  have hsize : UInt32.size < UInt64.size := by decide
  have hn : (Json.integer n.toNat).reading.asInteger 0 (UInt32.size - 1) "u32" = .ok n.toNat :=
    asInteger_integer (by omega) (by omega) (by omega)
  rw [Reading.asUInt32, hn]
  simp

@[simp]
theorem asInt64_integer (n : Int64) : (Json.integer n.toInt).reading.asInt64 = .ok n := by
  have hlow : Int64.minValue.toInt ≤ n.toInt := Int64.minValue_le_toInt n
  have hhigh : n.toInt ≤ Int64.maxValue.toInt := Int64.toInt_le n
  have hmin : Int64.minValue.toInt = -(UInt64.size / 2 : Nat) := by decide
  have hmax : Int64.maxValue.toInt < UInt64.size := by decide
  have hn : (Json.integer n.toInt).reading.asInteger Int64.minValue.toInt Int64.maxValue.toInt
      "i64" = .ok n.toInt :=
    asInteger_integer (by omega) (by omega) ⟨hlow, hhigh⟩
  rw [Reading.asInt64, hn]
  simp

/-! ## Records and variants -/

section Records

variable {σ α : Type}

@[simp]
theorem foldMembers_nil (take : σ → String → Reading → Decoded σ) (state : σ) :
    foldMembers take state (memberReadings []) = .ok state := rfl

@[simp]
theorem foldMembers_cons (take : σ → String → Reading → Decoded σ) (state : σ) (key : String)
    (value : Json) (members : List (String × Json)) :
    foldMembers take state (memberReadings ((key, value) :: members)) =
      take state key value.reading >>= fun state =>
        foldMembers take state (memberReadings members) := by
  simp only [memberReadings, foldMembers, text?_pieces]
  cases take state key value.reading <;> rfl

@[simp]
theorem fill_none (name : String) (value : Decoded α) :
    fill name none value = some <$> value := rfl

@[simp]
theorem require_some (name : String) (value : α) : require name (some value) = .ok value := rfl

@[simp]
theorem record_object (expected : String) (levels : Nat)
    (ofMembers : List (Option (List Piece) × Reading) → Decoded α)
    (ofItems : List Reading → Decoded α) (members : List (String × Json)) :
    record expected levels ofMembers ofItems (Json.object members).reading =
      if levels = 0 then malformed else ofMembers (memberReadings members) := rfl

/-- A variant with content, as it is written. -/
theorem decode_object {variants : List (Variant α)} {variant : Variant α} {name : String}
    (h : variants.find? (·.name = name) = some variant) (levels : Nat) (content : Json) :
    Variant.decode variants (levels + 1) (Json.object [(name, content)]).reading =
      variant.content content.reading := by
  simp only [reading, memberReadings, Variant.decode, Variant.select, text?_pieces, h]
  cases hcontent : variant.content content.reading <;> simp [hcontent]

/-- The bare name of a variant, as it is written. -/
theorem decode_string {variants : List (Variant α)} {variant : Variant α} {name : String}
    (h : variants.find? (·.name = name) = some variant) (levels : Nat) :
    Variant.decode variants levels (Json.string name).reading = variant.bare := by
  simp only [reading, Variant.decode, Variant.select, text?_pieces, h]
  rfl

/-- Constants are told apart by their words. -/
theorem decode_constant {label : α → String} {all : List α} (hlabels : (all.map label).Nodup)
    {a : α} (ha : a ∈ all) (levels : Nat) :
    Variant.decode (all.map fun a => .constant (label a) a) levels (Json.string (label a)).reading =
      .ok a := by
  have hnames : ((all.map fun a => Variant.constant (label a) a).map Variant.name).Nodup := by
    rw [List.map_map]
    exact hlabels
  have hfind : (all.map fun a => Variant.constant (label a) a).find? (·.name = label a) =
      some (.constant (label a) a) :=
    (find?_key_eq_some_iff hnames).mpr ⟨List.mem_map_of_mem ha, rfl⟩
  exact decode_string hfind levels

end Records

end Json

/-! ## Types -/

theorem ScalarName.decode_toJson (name : ScalarName) (levels : Nat) :
    ScalarName.decode levels name.toJson.reading = .ok name :=
  decode_constant (by decide) (by cases name <;> decide) levels

/-! ### How deep types nest -/

@[simp]
theorem DataType.depth_scalar (name : ScalarName) (nullable : Bool) :
    (DataType.scalar name nullable).toJson.depth = 2 := rfl

@[simp]
theorem Row.depth_toJson (row : Row) :
    (Row.toJson row).depth = itemsDepth (Row.fieldsToJson row) + 2 := by
  simp [Row.toJson, depth, membersDepth]

@[simp]
theorem DataType.depth_row (row : Row) :
    (DataType.row row).toJson.depth = (Row.toJson row).depth + 1 := by
  simp [DataType.toJson, depth, membersDepth]

@[simp]
theorem Field.depth_toJson (name : String) (index : UInt64) (type : DataType) :
    (Field.toJson ⟨name, index, type⟩).depth = type.toJson.depth + 1 := by
  simp [Field.toJson, depth, membersDepth]

/-! ### Level by level -/

theorem DataType.decode_scalar (name : ScalarName) (nullable : Bool) (levels : Nat) :
    DataType.decode levels (DataType.scalar name nullable).toJson.reading =
      if (DataType.scalar name nullable).toJson.depth ≤ levels then .ok (.scalar name nullable)
      else malformed := by
  match levels with
  | 0 => rfl
  | 1 =>
    rw [DataType.toJson, DataType.decode, decode_object rfl]
    rfl
  | levels + 2 =>
    rw [DataType.depth_scalar, DataType.toJson, DataType.decode, decode_object rfl]
    simp [DataType.decodeScalar, ScalarName.decode_toJson, Variant.withRecord]

/-- A row type is one level around its row. -/
theorem DataType.decode_row (row : Row) (levels : Nat) :
    DataType.decode (levels + 1) (DataType.row row).toJson.reading =
      DataType.row <$> Row.decode levels (Row.toJson row).reading := by
  rw [DataType.toJson, DataType.decode, decode_object rfl]
  rfl

/-- A row is two levels around its fields. -/
theorem Row.decode_fields (row : Row) (levels : Nat) :
    Row.decode (levels + 2) (Row.toJson row).reading =
      (readings (Row.fieldsToJson row)).mapM (Field.decode levels) := by
  have harray (items : List Json) : Row.decodeFields (levels + 1) (Json.array items).reading =
      (readings items).mapM (Field.decode levels) := by rw [reading, Row.decodeFields]
  rw [Row.toJson, Row.decode]
  simp only [record_object, foldMembers_cons, foldMembers_nil, fill_none, harray]
  cases (readings (Row.fieldsToJson row)).mapM (Field.decode levels) <;> rfl

/-- A field is one level around its type. -/
theorem Field.decode_type (name : String) (index : UInt64) (type : DataType) (levels : Nat) :
    Field.decode (levels + 1) (Field.toJson ⟨name, index, type⟩).reading =
      Field.mk name index <$> DataType.decode levels type.toJson.reading := by
  rw [Field.toJson, Field.decode]
  simp only [record_object, foldMembers_cons, foldMembers_nil, fill_none, asString_string,
    asUInt64_integer]
  cases DataType.decode levels type.toJson.reading <;> rfl

theorem Row.decode_of_fields {row : Row}
    (h : ∀ levels, (readings (Row.fieldsToJson row)).mapM (Field.decode levels) =
      if itemsDepth (Row.fieldsToJson row) ≤ levels then .ok row else malformed) (levels : Nat) :
    Row.decode levels (Row.toJson row).reading =
      if (Row.toJson row).depth ≤ levels then .ok row else malformed := by
  match levels with
  | 0 => simp; rfl
  | 1 =>
    rw [Row.depth_toJson, if_neg (by omega), Row.toJson, Row.decode]
    rfl
  | levels + 2 =>
    rw [Row.decode_fields, h levels, Row.depth_toJson]
    simp only [Nat.add_le_add_iff_right]

mutual

/-- A type is read back if it nests no deeper than is looked into, and refused if it does. -/
theorem DataType.decode_toJson : (type : DataType) → (levels : Nat) →
    DataType.decode levels type.toJson.reading =
      if type.toJson.depth ≤ levels then .ok type else malformed
  | .scalar name nullable, levels => DataType.decode_scalar name nullable levels
  | .row fields, 0 => by simp; rfl
  | .row fields, levels + 1 => by
    rw [DataType.decode_row, Row.decode_of_fields (Row.mapM_decode_toJson fields) levels,
      DataType.depth_row]
    simp only [Nat.add_le_add_iff_right]
    split <;> rfl
termination_by structural type => type

theorem Field.decode_toJson : (field : Field) → (levels : Nat) →
    Field.decode levels field.toJson.reading =
      if field.toJson.depth ≤ levels then .ok field else malformed
  | ⟨name, index, type⟩, 0 => by simp; rfl
  | ⟨name, index, type⟩, levels + 1 => by
    rw [Field.decode_type, DataType.decode_toJson type levels, Field.depth_toJson]
    simp only [Nat.add_le_add_iff_right]
    split <;> rfl
termination_by structural field => field

theorem Row.mapM_decode_toJson : (fields : List Field) → (levels : Nat) →
    (readings (Row.fieldsToJson fields)).mapM (Field.decode levels) =
      if itemsDepth (Row.fieldsToJson fields) ≤ levels then .ok fields else malformed
  | [], _ => rfl
  | field :: fields, levels => by
    have hfield := Field.decode_toJson field levels
    have hfields := Row.mapM_decode_toJson fields levels
    simp only [Row.fieldsToJson, readings, itemsDepth, List.mapM_cons, hfield, hfields,
      Nat.max_le]
    by_cases h : field.toJson.depth ≤ levels <;>
      by_cases h' : itemsDepth (Row.fieldsToJson fields) ≤ levels <;> simp [h, h']
termination_by structural fields => fields

end

theorem Row.decode_toJson (row : Row) (levels : Nat) :
    Row.decode levels (Row.toJson row).reading =
      if (Row.toJson row).depth ≤ levels then .ok row else malformed :=
  Row.decode_of_fields (Row.mapM_decode_toJson row) levels

/-! ## Operators, literals, variables and settings -/

theorem Kind.decode_toJson (kind : Kind) (levels : Nat) :
    Kind.decode levels kind.toJson.reading = .ok kind :=
  decode_constant (by decide) kind.mem_all levels

theorem CallForm.decode_toJson (form : CallForm) (levels : Nat) :
    CallForm.decode levels form.toJson.reading = .ok form :=
  decode_constant (by decide) (by cases form <;> decide) levels

theorem OperandCount.decode_toJson (count : OperandCount) (levels : Nat) :
    OperandCount.decode (levels + 1) count.toJson.reading = .ok count := by
  cases count with
  | exactly n =>
    rw [OperandCount.toJson, OperandCount.decode, decode_object rfl]
    simp [Variant.withContent]
  | atLeast n =>
    rw [OperandCount.toJson, OperandCount.decode, decode_object rfl]
    simp [Variant.withContent]

theorem Operator.decode_toJson (operator : Operator) (levels : Nat) :
    Operator.decode (levels + 2) operator.toJson.reading = .ok operator := by
  simp [Operator.decode, Operator.toJson, Kind.decode_toJson, OperandCount.decode_toJson,
    CallForm.decode_toJson]

theorem Literal.decode_toJson (value : Literal) (levels : Nat) :
    Literal.decode (levels + 1) value.toJson.reading = .ok value := by
  cases value with
  | null =>
    rw [Literal.toJson, Literal.decode, decode_string rfl]
    rfl
  | boolean b =>
    rw [Literal.toJson, Literal.decode, decode_object rfl]
    simp [Variant.withContent]
  | integer n =>
    rw [Literal.toJson, Literal.decode, decode_object rfl]
    simp [Variant.withContent]
  | decimal spelling =>
    rw [Literal.toJson, Literal.decode, decode_object rfl]
    simp [Variant.withContent]
  | string s =>
    rw [Literal.toJson, Literal.decode, decode_object rfl]
    simp [Variant.withContent]

theorem CorrelationId.decode_toJson (id : CorrelationId) :
    CorrelationId.decode id.toJson.reading = .ok id := by
  simp [CorrelationId.decode, CorrelationId.toJson]

theorem Config.decode_toJson (config : Config) (levels : Nat) :
    Config.decode (levels + 1) config.toJson.reading = .ok config := by
  simp [Config.decode, Config.toJson, Config.takeMember, Config.Parts.config]

/-! ## Whole texts -/

theorem decodeText_text {α : Type} (decode : Nat → Json.Reading → Decoded α) (json : Json) :
    decodeText decode json.text = decode depthLimit json.reading := by
  unfold decodeText
  rw [ofText_text]
  exact bind_pure (decode depthLimit json.reading)

/-- What nests to a depth below 128 is read back from its text, and nothing else is. -/
theorem decodeText_eq_ok_iff {α : Type} {decode : Nat → Json.Reading → Decoded α} {json : Json}
    {value : α} (h : decode depthLimit json.reading =
      if json.depth ≤ depthLimit then .ok value else malformed) :
    decodeText decode json.text = .ok value ↔ json.depth < 128 := by
  rw [decodeText_text, h]
  unfold depthLimit
  split <;> simp [malformed] <;> omega

/-- Every value is read back from the text that is written for it. Types, rows and fields of any
    names and ordinals are, exactly as far as their arrays and objects nest to a depth below 128. -/
theorem decodeText_toJson_text :
    (∀ type : DataType,
      decodeText DataType.decode type.toJson.text = .ok type ↔ type.toJson.depth < 128) ∧
    (∀ row : Row,
      decodeText Row.decode (Row.toJson row).text = .ok row ↔ (Row.toJson row).depth < 128) ∧
    (∀ field : Field,
      decodeText Field.decode field.toJson.text = .ok field ↔ field.toJson.depth < 128) ∧
    (∀ operator : Operator, decodeText Operator.decode operator.toJson.text = .ok operator) ∧
    (∀ count : OperandCount, decodeText OperandCount.decode count.toJson.text = .ok count) ∧
    (∀ value : Literal, decodeText Literal.decode value.toJson.text = .ok value) ∧
    (∀ id : CorrelationId, decodeText (fun _ => CorrelationId.decode) id.toJson.text = .ok id) ∧
    ∀ config : Config, decodeText Config.decode config.toJson.text = .ok config := by
  refine ⟨fun type => ?_, fun row => ?_, fun field => ?_, fun operator => ?_, fun count => ?_,
    fun value => ?_, fun id => ?_, fun config => ?_⟩
  · exact decodeText_eq_ok_iff (DataType.decode_toJson type depthLimit)
  · exact decodeText_eq_ok_iff (Row.decode_toJson row depthLimit)
  · exact decodeText_eq_ok_iff (Field.decode_toJson field depthLimit)
  · rw [decodeText_text]
    exact Operator.decode_toJson operator 125
  · rw [decodeText_text]
    exact OperandCount.decode_toJson count 126
  · rw [decodeText_text]
    exact Literal.decode_toJson value 126
  · rw [decodeText_text]
    exact CorrelationId.decode_toJson id
  · rw [decodeText_text]
    exact Config.decode_toJson config 126

/-- A row of one column, numbered 7, whose name has a quote, a backslash and control characters. -/
example :
    (Row.toJson [⟨"it\"s\\\x01\n😀", 7, .nullable .varchar⟩]).text =
      "\x7b\"fields\":[\x7b\"name\":\"it\\\"s\\\\\\u0001\\n😀\",\"index\":7," ++
        "\"ty\":\x7b\"Scalar\":\x7b\"name\":\"Varchar\",\"nullable\":true\x7d\x7d\x7d]\x7d" := by
  rfl

end RowExpr
