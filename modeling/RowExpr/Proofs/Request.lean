/-
  What a request comes to.

  For each request that is checked: exactly when it is accepted, and what its node then says.
  The children of that node are nodes the request names (`children_of_content`). The type of a
  call is a matter of kind and types (`callType?_eq`), and whether a request is accepted, with
  what error, digest and type, depends on the digests and the types of the nodes it names only
  (`outcome_congr`).
-/
import RowExpr.Builder
import RowExpr.Proofs.DigestCache

namespace RowExpr

theorem bind_eq_ok_iff {ε α β : Type} {x : Except ε α} {f : α → Except ε β} {b : β} :
    x >>= f = .ok b ↔ ∃ a, x = .ok a ∧ f a = .ok b := by
  cases x <;> simp [bind, Except.bind]

theorem bind_eq_error_iff {ε α β : Type} {x : Except ε α} {f : α → Except ε β} {e : ε} :
    x >>= f = .error e ↔ x = .error e ∨ ∃ a, x = .ok a ∧ f a = .error e := by
  cases x <;> simp [bind, Except.bind]

theorem map_eq_ok_iff {ε α β : Type} {f : α → β} {x : Except ε α} {b : β} :
    x.map f = .ok b ↔ ∃ a, x = .ok a ∧ f a = b := by
  cases x <;> simp [Except.map]

theorem map_eq_error_iff {ε α β : Type} {f : α → β} {x : Except ε α} {e : ε} :
    x.map f = .error e ↔ x = .error e := by
  cases x <;> simp [Except.map]

theorem mapM_eq_some_iff {α β : Type} {f : α → Option β} {xs : List α} {ys : List β} :
    xs.mapM f = some ys ↔ xs.map f = ys.map some := by
  induction xs generalizing ys with
  | nil => cases ys <;> simp
  | cons x xs ih =>
    cases ys with
    | nil => cases hx : f x <;> cases hxs : xs.mapM f <;> simp [hx, hxs]
    | cons y ys =>
      rw [List.map_cons, List.map_cons, List.cons.injEq, ← ih, List.mapM_cons]
      cases hx : f x <;> cases hxs : xs.mapM f <;> simp

namespace Request

/-! ## The checks -/

theorem rowOf_eq_ok_iff {type : DataType} {asked : String} {row : Row} :
    rowOf type asked = .ok row ↔ type = .row row := by
  unfold rowOf
  cases type <;> simp [DataType.row?]

theorem fieldAtOf_eq_ok_iff {type : DataType} {row : Row} {index : UInt64} {field : Field} :
    fieldAtOf type row index = .ok field ↔ row.fieldAt? index = some field := by
  unfold fieldAtOf
  cases row.fieldAt? index <;> simp

theorem fieldOf_eq_ok_iff {type : DataType} {row : Row} {name : String} {caseSensitive : Bool}
    {field : Field} :
    fieldOf type row name caseSensitive = .ok field ↔
      row.field? name caseSensitive = some field := by
  unfold fieldOf
  cases row.field? name caseSensitive <;> simp

theorem checkCount_eq_ok_iff {operator : Operator} {operands : List Expr} {u : Unit} :
    checkCount operator operands = .ok u ↔
      operator.operands.accepts operands.length = true := by
  unfold checkCount
  split <;> simp_all

/-! ## Accepted requests -/

variable {caseSensitive : Bool} {content : Content Expr}

theorem content_inputRef {rowType : DataType} {index : UInt64} :
    (inputRef rowType index).content caseSensitive = .ok content ↔
      ∃ (row : Row) (field : Field), rowType = .row row ∧ row.fieldAt? index = some field ∧
        content = .inputRef index field.type := by
  simp only [Request.content, bind_eq_ok_iff, rowOf_eq_ok_iff, fieldAtOf_eq_ok_iff]
  constructor
  · rintro ⟨row, hrow, field, hfield, hc⟩
    exact ⟨row, field, hrow, hfield, by cases hc; rfl⟩
  · rintro ⟨row, field, hrow, hfield, rfl⟩
    exact ⟨row, hrow, field, hfield, rfl⟩

theorem content_decimal {text : String} :
    (decimal text).content caseSensitive = .ok content ↔
      isDecimalText text = true ∧ content = .literal (.decimal text) (.notNull .decimal) := by
  simp only [Request.content]
  by_cases h : isDecimalText text = true
  · rw [if_pos h]
    constructor
    · intro hc
      exact ⟨h, by cases hc; rfl⟩
    · rintro ⟨-, rfl⟩
      rfl
  · simp [h]

theorem content_call {operator : Operator} {operands : List Expr} :
    (call operator operands).content caseSensitive = .ok content ↔
      operator.operands.accepts operands.length = true ∧
        ∃ type, callType? operator operands = some type ∧
          content = .call operator operands type := by
  simp only [Request.content, bind_eq_ok_iff, checkCount_eq_ok_iff]
  constructor
  · rintro ⟨⟨⟩, hcount, hc⟩
    refine ⟨hcount, ?_⟩
    cases htype : callType? operator operands with
    | none => simp [htype] at hc
    | some type =>
      rw [htype] at hc
      exact ⟨type, rfl, by cases hc; rfl⟩
  · rintro ⟨hcount, type, htype, rfl⟩
    refine ⟨(), hcount, ?_⟩
    rw [htype]
    rfl

theorem content_typedCall {operator : Operator} {operands : List Expr} {type : DataType} :
    (typedCall operator operands type).content caseSensitive = .ok content ↔
      operator.operands.accepts operands.length = true ∧
        content = .call operator operands type := by
  simp only [Request.content, bind_eq_ok_iff, checkCount_eq_ok_iff]
  constructor
  · rintro ⟨⟨⟩, hcount, hc⟩
    exact ⟨hcount, by cases hc; rfl⟩
  · rintro ⟨hcount, rfl⟩
    exact ⟨(), hcount, rfl⟩

/-- An access over a node is made if the node is a row with the field that is looked for. -/
theorem access_eq_ok_iff {reference : Expr} {asked : String} (look : Row → Except Error Field) :
    (do
      let row ← rowOf reference.type asked
      return .access reference (← look row) : Except Error (Content Expr)) = .ok content ↔
      ∃ (row : Row) (found : Field), reference.type = .row row ∧ look row = .ok found ∧
        content = .access reference found := by
  simp only [bind_eq_ok_iff, rowOf_eq_ok_iff]
  constructor
  · rintro ⟨row, hrow, found, hfound, hc⟩
    exact ⟨row, found, hrow, hfound, by cases hc; rfl⟩
  · rintro ⟨row, found, hrow, hfound, rfl⟩
    exact ⟨row, hrow, found, hfound, rfl⟩

theorem content_field {reference : Expr} {name : String} :
    (field reference name).content caseSensitive = .ok content ↔
      ∃ (row : Row) (found : Field), reference.type = .row row ∧
        row.field? name caseSensitive = some found ∧ content = .access reference found := by
  refine (access_eq_ok_iff fun row => fieldOf reference.type row name caseSensitive).trans ?_
  simp only [fieldOf_eq_ok_iff]

theorem content_fieldAt {reference : Expr} {index : UInt64} :
    (fieldAt reference index).content caseSensitive = .ok content ↔
      ∃ (row : Row) (found : Field), reference.type = .row row ∧
        row.fieldAt? index = some found ∧ content = .access reference found := by
  refine (access_eq_ok_iff fun row => fieldAtOf reference.type row index).trans ?_
  simp only [fieldAtOf_eq_ok_iff]

/-! ## The nodes a request names -/

/-- The nodes named, left to right. -/
def nodes {α : Type} : Request α → List α
  | call _ operands => operands
  | typedCall _ operands _ => operands
  | field reference _ => [reference]
  | fieldAt reference _ => [reference]
  | _ => []

/-- An accepted request makes a node over the nodes it names. -/
theorem children_of_content {request : Request Expr}
    (h : request.content caseSensitive = .ok content) : content.children = request.nodes := by
  cases request with
  | inputRef rowType index =>
    obtain ⟨_, _, _, _, rfl⟩ := content_inputRef.mp h
    rfl
  | decimal text =>
    obtain ⟨_, rfl⟩ := content_decimal.mp h
    rfl
  | call operator operands =>
    obtain ⟨_, _, _, rfl⟩ := content_call.mp h
    rfl
  | typedCall operator operands type =>
    obtain ⟨_, rfl⟩ := content_typedCall.mp h
    rfl
  | field reference name =>
    obtain ⟨_, _, _, _, rfl⟩ := content_field.mp h
    rfl
  | fieldAt reference index =>
    obtain ⟨_, _, _, _, rfl⟩ := content_fieldAt.mp h
    rfl
  | integer value => cases h; rfl
  | boolean value => cases h; rfl
  | string value => cases h; rfl
  | null name => cases h; rfl
  | correlation id rowType => cases h; rfl

/-- Resolving what a request names resolves the nodes it names. -/
theorem nodes_mapM {α β : Type} {find : α → Option β} {request : Request α}
    {resolved : Request β} (h : request.mapM find = some resolved) :
    request.nodes.map find = resolved.nodes.map some := by
  cases request with
  | call operator operands =>
    obtain ⟨found, hfound, hr⟩ := Option.bind_eq_some_iff.mp h
    cases hr
    exact mapM_eq_some_iff.mp hfound
  | typedCall operator operands type =>
    obtain ⟨found, hfound, hr⟩ := Option.bind_eq_some_iff.mp h
    cases hr
    exact mapM_eq_some_iff.mp hfound
  | field reference name =>
    obtain ⟨found, hfound, hr⟩ := Option.bind_eq_some_iff.mp h
    cases hr
    simpa [nodes] using hfound
  | fieldAt reference index =>
    obtain ⟨found, hfound, hr⟩ := Option.bind_eq_some_iff.mp h
    cases hr
    simpa [nodes] using hfound
  | inputRef rowType index => cases h; rfl
  | integer value => cases h; rfl
  | decimal text => cases h; rfl
  | boolean value => cases h; rfl
  | string value => cases h; rfl
  | null name => cases h; rfl
  | correlation id rowType => cases h; rfl

theorem exists_of_mem_nodes {α β : Type} {find : α → Option β} {request : Request α}
    {resolved : Request β} (h : request.mapM find = some resolved) {b : β}
    (hb : b ∈ resolved.nodes) : ∃ a, find a = some b := by
  have hmem : some b ∈ request.nodes.map find := by
    rw [nodes_mapM h]
    exact List.mem_map_of_mem hb
  obtain ⟨a, _, ha⟩ := List.mem_map.mp hmem
  exact ⟨a, ha⟩

/-! ## The types of calls -/

/-- The type of a call of this kind over operands of these types, if it follows from them. -/
def typeOver? (kind : Kind) (types : List DataType) : Option DataType :=
  if kind.isNullTest then some (.notNull .boolean)
  else if kind.isComparison || kind.isLogical then
    some (.scalar .boolean (types.any DataType.isNullable))
  else if kind.isArithmetic then
    types.head?.map (DataType.withNullability (types.any DataType.isNullable))
  else none

/-- Of the operator its kind counts, of the operands their types. -/
theorem callType?_eq (operator : Operator) (operands : List Expr) :
    callType? operator operands = typeOver? operator.kind (operands.map Expr.type) := by
  unfold callType? typeOver?
  rw [List.any_map, List.head?_map, Option.map_map]
  rfl

/-! ## Only digests and types count -/

section Congruence

variable {xs ys : List Expr}

theorem digests_eq_of_signatures (h : xs.map Expr.signature = ys.map Expr.signature) :
    xs.map Expr.digest = ys.map Expr.digest := by
  have hd := congrArg (List.map Prod.fst) h
  rw [List.map_map, List.map_map] at hd
  exact hd

theorem types_eq_of_signatures (h : xs.map Expr.signature = ys.map Expr.signature) :
    xs.map Expr.type = ys.map Expr.type := by
  have ht := congrArg (List.map Prod.snd) h
  rw [List.map_map, List.map_map] at ht
  exact ht

theorem length_eq_of_signatures (h : xs.map Expr.signature = ys.map Expr.signature) :
    xs.length = ys.length := by
  simpa using congrArg List.length h

theorem callType?_congr (operator : Operator)
    (h : xs.map Expr.signature = ys.map Expr.signature) :
    callType? operator xs = callType? operator ys := by
  rw [callType?_eq, callType?_eq, types_eq_of_signatures h]

theorem signature_call_congr (operator : Operator) (type : DataType)
    (h : xs.map Expr.signature = ys.map Expr.signature) :
    (Content.call operator xs type).signature = (Content.call operator ys type).signature := by
  have hempty : xs.isEmpty = ys.isEmpty := by
    have := congrArg List.isEmpty h
    simpa using this
  simp only [Content.signature, Content.digest, digests_eq_of_signatures h, hempty, Content.type]

/-- What a request comes to: an error, or the digest and the type of its node. -/
def outcome (caseSensitive : Bool) (request : Request Expr) :
    Except Error (String × DataType) :=
  (request.content caseSensitive).map Content.signature

theorem outcome_call_congr (caseSensitive : Bool) (operator : Operator)
    (h : xs.map Expr.signature = ys.map Expr.signature) :
    outcome caseSensitive (call operator xs) = outcome caseSensitive (call operator ys) := by
  unfold outcome
  simp only [Request.content, checkCount, length_eq_of_signatures h, callType?_congr operator h]
  split
  · cases callType? operator ys with
    | none => rfl
    | some type => exact congrArg Except.ok (signature_call_congr operator type h)
  · rfl

theorem outcome_typedCall_congr (caseSensitive : Bool) (operator : Operator) (type : DataType)
    (h : xs.map Expr.signature = ys.map Expr.signature) :
    outcome caseSensitive (typedCall operator xs type) =
      outcome caseSensitive (typedCall operator ys type) := by
  unfold outcome
  simp only [Request.content, checkCount, length_eq_of_signatures h]
  split
  · exact congrArg Except.ok (signature_call_congr operator type h)
  · rfl

theorem signature_access_congr (found : Field) {a b : Expr} (h : a.signature = b.signature) :
    (Content.access a found).signature = (Content.access b found).signature := by
  have hd : a.digest = b.digest := congrArg Prod.fst h
  simp only [Content.signature, Content.digest, hd, Content.type]

/-- Looking for a field comes to the same over nodes of one digest and one type. -/
theorem outcome_access_congr (asked : String) (look : DataType → Row → Except Error Field)
    {a b : Expr} (h : a.signature = b.signature) :
    (do
      let row ← rowOf a.type asked
      return .access a (← look a.type row) : Except Error (Content Expr)).map Content.signature =
    (do
      let row ← rowOf b.type asked
      return .access b (← look b.type row) : Except Error (Content Expr)).map
        Content.signature := by
  have ht : a.type = b.type := congrArg Prod.snd h
  rw [ht]
  cases rowOf b.type asked with
  | error e => rfl
  | ok row =>
    show (look b.type row >>= _).map _ = (look b.type row >>= _).map _
    cases look b.type row with
    | error e => rfl
    | ok found => exact congrArg Except.ok (signature_access_congr found h)

theorem outcome_field_congr (caseSensitive : Bool) (name : String) {a b : Expr}
    (h : a.signature = b.signature) :
    outcome caseSensitive (field a name) = outcome caseSensitive (field b name) :=
  outcome_access_congr name (fun type row => fieldOf type row name caseSensitive) h

theorem outcome_fieldAt_congr (caseSensitive : Bool) (index : UInt64) {a b : Expr}
    (h : a.signature = b.signature) :
    outcome caseSensitive (fieldAt a index) = outcome caseSensitive (fieldAt b index) :=
  outcome_access_congr ("#" ++ toString index) (fun type row => fieldAtOf type row index) h

end Congruence

/-- A function of found things that looks at their marks only gives the same for two searches
    that find the same marks. -/
theorem map_congr_of_map_eq {α β σ : Type} {mark : α → σ} {F : α → β} {x y : Option α}
    (h : x.map mark = y.map mark) (hF : ∀ a b, mark a = mark b → F a = F b) :
    x.map F = y.map F := by
  cases x with
  | none => cases y with
    | none => rfl
    | some b => simp at h
  | some a => cases y with
    | none => simp at h
    | some b =>
      have hab : mark a = mark b := by simpa using h
      exact congrArg some (hF a b hab)

theorem map_bind_pure {α β δ : Type} (x : Option α) (g : α → β) (F : β → δ) :
    (x >>= fun a => pure (g a)).map F = x.map fun a => F (g a) := by
  cases x <;> rfl

theorem mapM_map_signature {γ : Type} (find : γ → Option Expr) (names : List γ) :
    (names.mapM find).map (List.map Expr.signature) =
      names.mapM fun name => (find name).map Expr.signature := by
  induction names with
  | nil => rfl
  | cons name names ih =>
    rw [List.mapM_cons, List.mapM_cons, ← ih]
    cases find name <;> cases names.mapM find <;> rfl

/-- Of the nodes a request names, what it comes to depends on the digests and types only. -/
theorem outcome_congr {γ : Type} (caseSensitive : Bool) {find find' : γ → Option Expr}
    (h : ∀ name, (find name).map Expr.signature = (find' name).map Expr.signature)
    (request : Request γ) :
    (request.mapM find).map (outcome caseSensitive) =
      (request.mapM find').map (outcome caseSensitive) := by
  have hall (names : List γ) : (names.mapM find).map (List.map Expr.signature) =
      (names.mapM find').map (List.map Expr.signature) := by
    rw [mapM_map_signature, mapM_map_signature, funext h]
  have hlist {F : List Expr → Except Error (String × DataType)} (names : List γ)
      (hF : ∀ ys zs, ys.map Expr.signature = zs.map Expr.signature → F ys = F zs) :
      (names.mapM find).map F = (names.mapM find').map F :=
    map_congr_of_map_eq (hall names) hF
  have hone {F : Expr → Except Error (String × DataType)} (name : γ)
      (hF : ∀ a b, a.signature = b.signature → F a = F b) :
      (find name).map F = (find' name).map F :=
    map_congr_of_map_eq (h name) hF
  cases request with
  | call operator operands =>
    simp only [Request.mapM, map_bind_pure]
    exact hlist operands fun _ _ => outcome_call_congr caseSensitive operator
  | typedCall operator operands type =>
    simp only [Request.mapM, map_bind_pure]
    exact hlist operands fun _ _ => outcome_typedCall_congr caseSensitive operator type
  | field reference asked =>
    simp only [Request.mapM, map_bind_pure]
    exact hone reference fun _ _ => outcome_field_congr caseSensitive asked
  | fieldAt reference index =>
    simp only [Request.mapM, map_bind_pure]
    exact hone reference fun _ _ => outcome_fieldAt_congr caseSensitive index
  | inputRef rowType index => rfl
  | integer value => rfl
  | decimal text => rfl
  | boolean value => rfl
  | string value => rfl
  | null name => rfl
  | correlation id rowType => rfl

end Request
end RowExpr
