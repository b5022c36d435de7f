/-
  Building checked expressions.

  A request says which expression is wanted. `Request.content` checks it and works out what it
  leaves open: the field behind a name, the type of a call. It needs no state, so a request
  that is refused leaves none behind. `Builder.make` places the node, and shares it with an
  earlier one of equal digest and type if the settings say so.

  The type of a call follows from the kind of its operator:

  * null tests are BOOLEAN NOT NULL;
  * comparisons and logical operators are BOOLEAN, nullable if any operand is;
  * arithmetic has the type of the first operand, nullable if any operand is;
  * for all other operators the caller supplies it.
-/
import RowExpr.Config.Load
import RowExpr.DigestCache

namespace RowExpr

/-- A wish for an expression over nodes named by `α`. -/
inductive Request (α : Type) where
  /-- Field number `index` of an input row of the given type. -/
  | inputRef (rowType : DataType) (index : UInt64)
  | integer (value : Int64)
  | decimal (text : String)
  | boolean (value : Bool)
  | string (value : String)
  /-- The null of a scalar type. -/
  | null (name : ScalarName)
  | correlation (id : CorrelationId) (rowType : DataType)
  /-- A call whose type follows from its operator and operands. -/
  | call (operator : Operator) (operands : List α)
  /-- A call of a given type. -/
  | typedCall (operator : Operator) (operands : List α) (type : DataType)
  /-- The field of that name. -/
  | field (reference : α) (name : String)
  /-- The field at that position. -/
  | fieldAt (reference : α) (index : UInt64)

namespace Request

/-- Act on the nodes named, left to right, and keep the rest. -/
def mapM {m : Type → Type} [Monad m] {α β : Type} (f : α → m β) : Request α → m (Request β)
  | inputRef rowType index => return inputRef rowType index
  | integer value => return integer value
  | decimal text => return decimal text
  | boolean value => return boolean value
  | string value => return string value
  | null name => return null name
  | correlation id rowType => return correlation id rowType
  | call operator operands => return call operator (← operands.mapM f)
  | typedCall operator operands type => return typedCall operator (← operands.mapM f) type
  | field reference name => return field (← f reference) name
  | fieldAt reference index => return fieldAt (← f reference) index

/-! ## Checks -/

/-- The fields of a row type; `asked` is what was asked of it. -/
def rowOf (type : DataType) (asked : String) : Except Error Row :=
  match type.row? with
  | some row => .ok row
  | none => .error (.notRow type asked)

/-- The field of a row type at a position. -/
def fieldAtOf (type : DataType) (row : Row) (index : UInt64) : Except Error Field :=
  match row.fieldAt? index with
  | some found => .ok found
  | none => .error (.outOfRange index row.length type)

/-- The field of a row type that answers to a name. -/
def fieldOf (type : DataType) (row : Row) (name : String) (caseSensitive : Bool) :
    Except Error Field :=
  match row.field? name caseSensitive with
  | some found => .ok found
  | none => .error (.fieldNotFound type name)

/-- The operator must take that many operands. -/
def checkCount (operator : Operator) (operands : List Expr) : Except Error Unit :=
  if operator.operands.accepts operands.length then .ok ()
  else .error (.invalidArgument (.operandCount operator operands.length))

/-- The type of an integer literal: INTEGER if it fits 32 bits, BIGINT otherwise. -/
def integerType (value : Int64) : DataType :=
  if Int32.minValue.toInt ≤ value.toInt ∧ value.toInt ≤ Int32.maxValue.toInt then
    .notNull .integer
  else .notNull .bigint

/-- The type of a call, if it follows from the operator and the operands. -/
def callType? (operator : Operator) (operands : List Expr) : Option DataType :=
  let anyNullable := operands.any fun operand => operand.type.isNullable
  if operator.kind.isNullTest then some (.notNull .boolean)
  else if operator.kind.isComparison || operator.kind.isLogical then
    some (.scalar .boolean anyNullable)
  else if operator.kind.isArithmetic then
    operands.head?.map fun first => first.type.withNullability anyNullable
  else none

/-- What the node of a request says, or why the request is refused. -/
def content (caseSensitive : Bool) : Request Expr → Except Error (Content Expr)
  | inputRef rowType index => do
    let row ← rowOf rowType ("$" ++ toString index)
    let found ← fieldAtOf rowType row index
    return .inputRef index found.type
  | integer value => return .literal (.integer value) (integerType value)
  | decimal text =>
    if isDecimalText text then return .literal (.decimal text) (.notNull .decimal)
    else .error (.invalidArgument (.notDecimal text))
  | boolean value => return .literal (.boolean value) (.notNull .boolean)
  | string value => return .literal (.string value) (.notNull .varchar)
  | null name => return .literal .null (.nullable name)
  | correlation id rowType => return .correlation id rowType
  | call operator operands => do
    checkCount operator operands
    match callType? operator operands with
    | some type => return .call operator operands type
    | none => .error (.invalidArgument (.noResultType operator))
  | typedCall operator operands type => do
    checkCount operator operands
    return .call operator operands type
  | field reference name => do
    let row ← rowOf reference.type name
    return .access reference (← fieldOf reference.type row name caseSensitive)
  | fieldAt reference index => do
    let row ← rowOf reference.type ("#" ++ toString index)
    return .access reference (← fieldAtOf reference.type row index)

end Request

/-! ## Builders -/

/-- A builder: its settings, and the nodes it shares. -/
structure Builder where
  config : Config
  cache : DigestCache
deriving Inhabited

namespace Builder

/-- A builder that shares nothing yet. -/
def start (config : Config) : Builder :=
  ⟨config, .ofCapacity config.maxCacheEntries.toNat⟩

/-- A builder with the given settings, if they are allowed. -/
def ofConfig (config : Config) : Except Error Builder := start <$> config.validate

/-- Place a node; if nodes are shared, hand back the shared one. -/
def register (builder : Builder) (content : Content Expr) : SessionM (Expr × Builder) := do
  let node ← Session.place content
  if builder.config.shareCommonSubexpressions then
    let (node, cache) ← builder.cache.intern node
    return (node, { builder with cache })
  else return (node, builder)

/-- Fulfil a request. A refused one leaves builder and session as they are. -/
def make (builder : Builder) (request : Request Expr) :
    SessionM (Except Error Expr × Builder) :=
  match request.content builder.config.caseSensitive with
  | .error e => return (.error e, builder)
  | .ok content => do
    let (node, builder) ← builder.register content
    return (.ok node, builder)

theorem make_error {builder : Builder} {request : Request Expr} {e : Error} (s : Session)
    (h : request.content builder.config.caseSensitive = .error e) :
    (builder.make request).run s = ((.error e, builder), s) := by
  unfold make
  rw [h]
  rfl

end Builder
end RowExpr
