/-
  JSON form of types.

  A scalar type is `Scalar` with its name and nullability, a row type `Row` with its fields;
  each field has its name, its ordinal and its type. Ordinals are kept as written, so a row
  that was not numbered from zero survives the round trip.
-/
import RowExpr.DataType
import RowExpr.Json.Decoder
import RowExpr.Json.Value

namespace RowExpr

open Json

/-! ## Scalar names -/

namespace ScalarName

/-- All names of scalar types. -/
def all : List ScalarName :=
  [boolean, integer, bigint, decimal, double, varchar, date, timestamp, any]

/-- The word for a name in JSON. -/
def label : ScalarName → String
  | boolean => "Boolean"
  | integer => "Integer"
  | bigint => "Bigint"
  | decimal => "Decimal"
  | double => "Double"
  | varchar => "Varchar"
  | date => "Date"
  | timestamp => "Timestamp"
  | any => "Any"

def toJson (name : ScalarName) : Json := .string name.label

def decode (levels : Nat) (reading : Reading) : Decoded ScalarName :=
  Variant.decode (all.map fun name => .constant name.label name) levels reading

end ScalarName

/-! ## Writing -/

mutual

def DataType.toJson : DataType → Json
  | .scalar name nullable =>
    .object [("Scalar", .object [("name", name.toJson), ("nullable", .bool nullable)])]
  | .row fields => .object [("Row", .object [("fields", .array (Row.fieldsToJson fields))])]
termination_by structural type => type

def Field.toJson : Field → Json
  | ⟨name, index, type⟩ =>
    .object [("name", .string name), ("index", .integer index.toNat), ("ty", type.toJson)]
termination_by structural field => field

/-- Each field as an object. -/
def Row.fieldsToJson : List Field → List Json
  | [] => []
  | field :: fields => field.toJson :: Row.fieldsToJson fields
termination_by structural fields => fields

end

def Row.toJson (row : Row) : Json := .object [("fields", .array (Row.fieldsToJson row))]

/-! ## Reading -/

namespace DataType

/-- What is known of a scalar type while its record is read. -/
structure ScalarParts where
  name : Option ScalarName := none
  nullable : Option Bool := none

/-- What is expected where a scalar type's record is read. -/
def scalarRecord : String := "struct variant RelDataType::Scalar"

def decodeScalar (levels : Nat) : Reading → Decoded DataType :=
  record scalarRecord levels
    (fun members => do
      let parts ← foldMembers (fun (parts : ScalarParts) key value => match key with
        | "name" => do
          return { parts with name := ← fill key parts.name (ScalarName.decode (levels - 1) value) }
        | "nullable" => do
          return { parts with nullable := ← fill key parts.nullable value.asBool }
        | _ => do
          value.skip
          return parts) {} members
      return .scalar (← require "name" parts.name) (← require "nullable" parts.nullable))
    (fun items => do
      let expected := scalarRecord ++ " with 2 elements"
      let (name, items) ← nextItem (ScalarName.decode (levels - 1)) 0 expected items
      let (nullable, items) ← nextItem Reading.asBool 1 expected items
      noMoreItems items
      return .scalar name nullable)

/-- The two forms of a type, given how their contents are read. -/
def variants (scalar row : Reading → Decoded DataType) : List (Variant DataType) :=
  [.withRecord "Scalar" scalar, .withContent "Row" row]

end DataType

/-- What is known of a field while its record is read. -/
structure Field.Parts where
  name : Option String := none
  index : Option UInt64 := none
  type : Option DataType := none

/-- What is expected where a field is read. -/
def Field.recordName : String := "struct RelDataTypeField"

/-- What is expected where the fields of a row type are read. -/
def Row.recordName : String := "struct RowType"

mutual

def DataType.decode : Nat → Reading → Decoded DataType
  | 0 => Variant.decode (DataType.variants (fun _ => malformed) (fun _ => malformed)) 0
  | levels + 1 =>
    Variant.decode (DataType.variants (DataType.decodeScalar levels)
      (fun content => .row <$> Row.decode levels content)) (levels + 1)
termination_by structural levels => levels

def Row.decode : Nat → Reading → Decoded Row
  | 0 => record Row.recordName 0 (fun _ => malformed) (fun _ => malformed)
  | levels + 1 =>
    record Row.recordName (levels + 1)
      (fun members => do
        let fields ← foldMembers (fun fields key value => match key with
          | "fields" => fill key fields (Row.decodeFields levels value)
          | _ => do
            value.skip
            return fields) none members
        require "fields" fields)
      (fun items => do
        let (fields, items) ←
          nextItem (Row.decodeFields levels) 0 (Row.recordName ++ " with 1 element") items
        noMoreItems items
        return fields)
termination_by structural levels => levels

/-- An array of fields. -/
def Row.decodeFields : Nat → Reading → Decoded Row
  | 0, .array _ => malformed
  | levels + 1, .array items => items.mapM (Field.decode levels)
  | _, reading => reading.wrongType "a sequence"
termination_by structural levels => levels

def Field.decode : Nat → Reading → Decoded Field
  | 0 => record Field.recordName 0 (fun _ => malformed) (fun _ => malformed)
  | levels + 1 =>
    record Field.recordName (levels + 1)
      (fun members => do
        let parts ← foldMembers (fun (parts : Field.Parts) key value => match key with
          | "name" => do
            return { parts with name := ← fill key parts.name value.asString }
          | "index" => do
            return { parts with index := ← fill key parts.index value.asUInt64 }
          | "ty" => do
            return { parts with type := ← fill key parts.type (DataType.decode levels value) }
          | _ => do
            value.skip
            return parts) {} members
        return ⟨← require "name" parts.name, ← require "index" parts.index,
          ← require "ty" parts.type⟩)
      (fun items => do
        let expected := Field.recordName ++ " with 3 elements"
        let (name, items) ← nextItem Reading.asString 0 expected items
        let (index, items) ← nextItem Reading.asUInt64 1 expected items
        let (type, items) ← nextItem (DataType.decode levels) 2 expected items
        noMoreItems items
        return ⟨name, index, type⟩)
termination_by structural levels => levels

end

end RowExpr
