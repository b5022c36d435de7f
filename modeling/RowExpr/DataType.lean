/-
  Static types of row expressions.

  A type is a scalar (a name and whether null is allowed) or a row: fields in order, each
  with a name, an ordinal and a type of its own. Names may repeat and need not be
  identifiers. A row made from columns numbers its fields from zero (`DataType.ofColumns`); a
  row read from outside may number them otherwise, and its ordinals are kept as they are.

  Rows are looked into by name (`Row.field?`) and by position (`Row.fieldAt?`).
-/
namespace RowExpr

/-- Names of scalar types. -/
inductive ScalarName where
  | boolean
  | integer
  | bigint
  | decimal
  | double
  | varchar
  | date
  | timestamp
  /-- Matches every type; the type of a null that has no other. -/
  | any
deriving DecidableEq, Repr, Inhabited

/-- Upper-case spelling. -/
def ScalarName.name : ScalarName → String
  | boolean => "BOOLEAN"
  | integer => "INTEGER"
  | bigint => "BIGINT"
  | decimal => "DECIMAL"
  | double => "DOUBLE"
  | varchar => "VARCHAR"
  | date => "DATE"
  | timestamp => "TIMESTAMP"
  | any => "ANY"

/-- Whether values of this type can be calculated with. -/
def ScalarName.isNumeric : ScalarName → Bool
  | integer | bigint | decimal | double => true
  | _ => false

mutual

/-- Static type of a row expression. -/
inductive DataType where
  | scalar (name : ScalarName) (nullable : Bool)
  | row (fields : List Field)

/-- A named, typed field of a row; `index` is the ordinal it is known by. -/
structure Field where
  name : String
  index : UInt64
  type : DataType

end

instance : Inhabited DataType := ⟨.scalar .any true⟩

/-- The fields of a row type, in order. -/
abbrev Row := List Field

/-! ## Equality is decidable -/

mutual

/-- Types are equal when they are equal part by part. -/
def DataType.decEq : (a b : DataType) → Decidable (a = b)
  | .scalar n p, .scalar n' p' =>
    if h : n = n' ∧ p = p' then .isTrue (by rw [h.1, h.2])
    else .isFalse (by intro e; cases e; simp at h)
  | .row fs, .row gs => match Row.decEq fs gs with
    | .isTrue h => .isTrue (by rw [h])
    | .isFalse h => .isFalse (by intro e; cases e; exact h rfl)
  | .scalar _ _, .row _ => .isFalse nofun
  | .row _, .scalar _ _ => .isFalse nofun
termination_by structural a => a

/-- Rows are equal when their fields are, one by one. -/
def Row.decEq : (a b : List Field) → Decidable (a = b)
  | [], [] => .isTrue rfl
  | [], _ :: _ => .isFalse nofun
  | _ :: _, [] => .isFalse nofun
  | ⟨n, i, t⟩ :: fs, ⟨n', i', t'⟩ :: gs =>
    match decEq (n, i) (n', i'), t.decEq t', Row.decEq fs gs with
    | .isTrue h, .isTrue h', .isTrue h'' => .isTrue (by cases h; rw [h', h''])
    | .isFalse h, _, _ => .isFalse (by intro e; cases e; exact h rfl)
    | _, .isFalse h, _ => .isFalse (by intro e; cases e; exact h rfl)
    | _, _, .isFalse h => .isFalse (by intro e; cases e; exact h rfl)
termination_by structural a => a

end

instance : DecidableEq DataType := DataType.decEq

instance : DecidableEq Field := fun a b =>
  decidable_of_iff (a.name = b.name ∧ a.index = b.index ∧ a.type = b.type) (by
    cases a; cases b; simp)

/-! ## Text -/

mutual

/-- A scalar is its name, marked `NOT NULL` if null is not allowed; a row lists its fields,
    each as its type and its name. -/
def DataType.text : DataType → String
  | .scalar name nullable => name.name ++ (if nullable then "" else " NOT NULL")
  | .row fields => "RecordType(" ++ Row.text fields ++ ")"
termination_by structural type => type

/-- The fields of a row, joined by a comma and a space. -/
def Row.text : List Field → String
  | [] => ""
  | [⟨name, _, type⟩] => type.text ++ " " ++ name
  | ⟨name, _, type⟩ :: fields => type.text ++ " " ++ name ++ ", " ++ Row.text fields
termination_by structural fields => fields

end

/-- A field with its ordinal: `#1: deptno INTEGER`. -/
def Field.text (field : Field) : String :=
  "#" ++ toString field.index ++ ": " ++ field.name ++ " " ++ field.type.text

/-! ## Rows -/

namespace Row

/-- Fields from names and types, numbered from `start`. -/
def number (start : Nat) : List (String × DataType) → Row
  | [] => []
  | (name, type) :: columns => ⟨name, UInt64.ofNat start, type⟩ :: number (start + 1) columns

/-- The field at a position, whatever ordinal it carries. -/
def fieldAt? (row : Row) (index : UInt64) : Option Field := row[index.toNat]?

/-- Names are the same up to the case of ASCII letters. -/
def sameIgnoringCase (a b : String) : Bool :=
  a.toList.map Char.toLower == b.toList.map Char.toLower

/-- Whether a declared name answers to the name asked for. -/
def answersTo (caseSensitive : Bool) (declared asked : String) : Bool :=
  if caseSensitive then declared == asked else sameIgnoringCase declared asked

/-- The first field that answers to `name`. -/
def field? (row : Row) (name : String) (caseSensitive : Bool) : Option Field :=
  row.find? fun field => answersTo caseSensitive field.name name

end Row

/-! ## Types -/

namespace DataType

def notNull (name : ScalarName) : DataType := .scalar name false

def nullable (name : ScalarName) : DataType := .scalar name true

/-- A row type with its fields numbered from zero. -/
def ofColumns (columns : List (String × DataType)) : DataType := .row (Row.number 0 columns)

/-- The fields, if this is a row type. -/
def row? : DataType → Option Row
  | .row fields => some fields
  | .scalar _ _ => none

/-- The name, if this is a scalar type. -/
def scalarName? : DataType → Option ScalarName
  | .scalar name _ => some name
  | .row _ => none

def isRow (type : DataType) : Bool := type.row?.isSome

/-- Whether null is a value of the type; a row is never null. -/
def isNullable : DataType → Bool
  | .scalar _ nullable => nullable
  | .row _ => false

/-- The same type, allowing null or not; a row type stays as it is. -/
def withNullability (nullable : Bool) : DataType → DataType
  | .scalar name _ => .scalar name nullable
  | .row fields => .row fields

theorem isNullable_withNullability_iff {type : DataType} {nullable : Bool} :
    (type.withNullability nullable).isNullable = true ↔ type.isRow = false ∧ nullable = true := by
  cases type <;> simp [withNullability, isNullable, isRow, row?]

theorem row?_eq_some_iff {type : DataType} {fields : Row} :
    type.row? = some fields ↔ type = .row fields := by
  cases type <;> simp [row?]

end DataType
end RowExpr
