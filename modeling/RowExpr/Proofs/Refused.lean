/-
  Which requests are refused, and why nothing is left behind.

  `Request.Refused` lists the causes: what is asked of a type that is not a row, a position
  behind the last field, a name that no field answers to, a number of operands that the
  operator does not take, and a call whose type nothing tells. Where there are two checks, the
  second cause needs the first check to pass. `content_eq_error_iff` says that a request fails
  with these causes and no others.

  A builder that refuses stays as it is, and so does the session. So in a run of requests a
  refused one can be left out: those before and behind it are answered alike, and the run ends
  with the same builder and the same session (`makeAll_refused`).
-/
import RowExpr.Proofs.Builder

namespace RowExpr

/-! ## Names up to case -/

/-- An ASCII letter in upper case and the same letter in lower case. -/
def IsCasePair (upper lower : Char) : Prop :=
  'A'.toNat ≤ upper.toNat ∧ upper.toNat ≤ 'Z'.toNat ∧ lower.toNat = upper.toNat + 32

/-- The same character, or one ASCII letter in its two cases. -/
def SameUpToCase (a b : Char) : Prop := a = b ∨ IsCasePair a b ∨ IsCasePair b a

theorem toNat_toLower (c : Char) :
    c.toLower.toNat = if 65 ≤ c.toNat ∧ c.toNat ≤ 90 then c.toNat + 32 else c.toNat := by
  have hrange : (c.val ≥ 'A'.val ∧ c.val ≤ 'Z'.val) ↔ (65 ≤ c.toNat ∧ c.toNat ≤ 90) := Iff.rfl
  unfold Char.toLower
  split
  · rename_i h
    have hstep : ('a'.val - 'A'.val).toNat = 32 := rfl
    have hlast : c.val.toNat ≤ 90 := (hrange.mp h).2
    rw [if_pos (hrange.mp h)]
    show (c.val + ('a'.val - 'A'.val)).toNat = c.val.toNat + 32
    rw [UInt32.toNat_add, hstep]
    omega
  · rename_i h
    rw [if_neg (mt hrange.mpr h)]

theorem toLower_eq_iff {a b : Char} : a.toLower = b.toLower ↔ SameUpToCase a b := by
  have hnat {x y : Char} : x = y ↔ x.toNat = y.toNat := Char.toNat_inj.symm
  have hfirst : 'A'.toNat = 65 := rfl
  have hlast : 'Z'.toNat = 90 := rfl
  unfold SameUpToCase IsCasePair
  rw [hnat, hnat, toNat_toLower, toNat_toLower, hfirst, hlast]
  split <;> split <;> omega

namespace Row

/-- Whether a declared name is meant by the one asked for: the very same name or, where case is
    not regarded, the same up to the case of ASCII letters. -/
def Means (caseSensitive : Bool) (declared asked : String) : Prop :=
  if caseSensitive then declared = asked
  else List.Forall₂ SameUpToCase declared.toList asked.toList

theorem sameIgnoringCase_iff {a b : String} :
    sameIgnoringCase a b = true ↔ List.Forall₂ SameUpToCase a.toList b.toList := by
  unfold sameIgnoringCase
  rw [beq_iff_eq, ← List.forall₂_eq_eq_eq, List.forall₂_map_left_iff, List.forall₂_map_right_iff]
  simp only [toLower_eq_iff]

theorem answersTo_iff {caseSensitive : Bool} {declared asked : String} :
    answersTo caseSensitive declared asked = true ↔ Means caseSensitive declared asked := by
  unfold answersTo Means
  cases caseSensitive
  · exact sameIgnoringCase_iff
  · exact beq_iff_eq

instance (caseSensitive : Bool) (declared asked : String) :
    Decidable (Means caseSensitive declared asked) :=
  decidable_of_iff _ answersTo_iff

theorem field?_eq_none_iff {row : Row} {name : String} {caseSensitive : Bool} :
    row.field? name caseSensitive = none ↔
      ∀ field ∈ row, ¬ Means caseSensitive field.name name := by
  unfold field?
  simp only [List.find?_eq_none, answersTo_iff]

theorem fieldAt?_eq_none_iff {row : Row} {index : UInt64} :
    row.fieldAt? index = none ↔ row.length ≤ index.toNat :=
  List.getElem?_eq_none_iff

end Row

/-! ## Causes of refusal -/

/-- The type of a call over operands follows from kinds of four classes, of the arithmetic ones if
    there is an operand. -/
def Kind.TypesCalls (kind : Kind) (operands : List Expr) : Prop :=
  kind.isComparison = true ∨ kind.isLogical = true ∨ kind.isNullTest = true ∨
    kind.isArithmetic = true ∧ operands ≠ []

namespace Request

/-- Why a request is refused. -/
inductive Refused (caseSensitive : Bool) : Request Expr → Error → Prop where
  | inputOfScalar {type : DataType} {index : UInt64} (scalar : ∀ row, type ≠ .row row) :
    Refused caseSensitive (.inputRef type index) (.notRow type ("$" ++ toString index))
  | inputBeyond {type : DataType} {row : Row} {index : UInt64} (of_row : type = .row row)
    (beyond : row.length ≤ index.toNat) :
    Refused caseSensitive (.inputRef type index) (.outOfRange index row.length type)
  | notDecimal {text : String} (not_decimal : isDecimalText text = false) :
    Refused caseSensitive (.decimal text) (.invalidArgument (.notDecimal text))
  | fieldOfScalar {reference : Expr} {name : String}
    (scalar : ∀ row, reference.type ≠ .row row) :
    Refused caseSensitive (.field reference name) (.notRow reference.type name)
  | fieldUnknown {reference : Expr} {row : Row} {name : String}
    (of_row : reference.type = .row row)
    (unknown : ∀ field ∈ row, ¬ Row.Means caseSensitive field.name name) :
    Refused caseSensitive (.field reference name) (.fieldNotFound reference.type name)
  | fieldAtOfScalar {reference : Expr} {index : UInt64}
    (scalar : ∀ row, reference.type ≠ .row row) :
    Refused caseSensitive (.fieldAt reference index)
      (.notRow reference.type ("#" ++ toString index))
  | fieldBeyond {reference : Expr} {row : Row} {index : UInt64}
    (of_row : reference.type = .row row) (beyond : row.length ≤ index.toNat) :
    Refused caseSensitive (.fieldAt reference index)
      (.outOfRange index row.length reference.type)
  | callCount {operator : Operator} {operands : List Expr}
    (rejected : operator.operands.accepts operands.length = false) :
    Refused caseSensitive (.call operator operands)
      (.invalidArgument (.operandCount operator operands.length))
  | callUntyped {operator : Operator} {operands : List Expr}
    (accepted : operator.operands.accepts operands.length = true)
    (untyped : ¬ operator.kind.TypesCalls operands) :
    Refused caseSensitive (.call operator operands) (.invalidArgument (.noResultType operator))
  | typedCallCount {operator : Operator} {operands : List Expr} {type : DataType}
    (rejected : operator.operands.accepts operands.length = false) :
    Refused caseSensitive (.typedCall operator operands type)
      (.invalidArgument (.operandCount operator operands.length))

theorem rowOf_eq_error_iff {type : DataType} {asked : String} {cause : Error} :
    rowOf type asked = .error cause ↔ (∀ row, type ≠ .row row) ∧ .notRow type asked = cause := by
  unfold rowOf
  cases type <;> simp [DataType.row?]

theorem fieldAtOf_eq_error_iff {type : DataType} {row : Row} {index : UInt64} {cause : Error} :
    fieldAtOf type row index = .error cause ↔
      row.length ≤ index.toNat ∧ .outOfRange index row.length type = cause := by
  unfold fieldAtOf
  rw [← Row.fieldAt?_eq_none_iff]
  cases row.fieldAt? index <;> simp

theorem fieldOf_eq_error_iff {type : DataType} {row : Row} {name : String}
    {caseSensitive : Bool} {cause : Error} :
    fieldOf type row name caseSensitive = .error cause ↔
      (∀ field ∈ row, ¬ Row.Means caseSensitive field.name name) ∧
        .fieldNotFound type name = cause := by
  unfold fieldOf
  rw [← Row.field?_eq_none_iff]
  cases row.field? name caseSensitive <;> simp

theorem checkCount_eq_error_iff {operator : Operator} {operands : List Expr} {cause : Error} :
    checkCount operator operands = .error cause ↔
      operator.operands.accepts operands.length = false ∧
        .invalidArgument (.operandCount operator operands.length) = cause := by
  unfold checkCount
  cases operator.operands.accepts operands.length <;> simp

theorem callType?_eq_none_iff {operator : Operator} {operands : List Expr} :
    callType? operator operands = none ↔ ¬ operator.kind.TypesCalls operands := by
  unfold callType? Kind.TypesCalls
  cases operator.kind <;> cases operands <;>
    simp [Kind.isNullTest, Kind.isComparison, Kind.isLogical, Kind.isArithmetic]

variable {caseSensitive : Bool} {cause : Error}

theorem content_inputRef_error {type : DataType} {index : UInt64} :
    (inputRef type index).content caseSensitive = .error cause ↔
      Refused caseSensitive (inputRef type index) cause := by
  simp only [content, bind_eq_error_iff, rowOf_eq_error_iff, rowOf_eq_ok_iff,
    fieldAtOf_eq_error_iff]
  constructor
  · rintro (⟨hscalar, rfl⟩ | ⟨row, hrow, ⟨hbeyond, rfl⟩ | ⟨found, -, hok⟩⟩)
    · exact .inputOfScalar hscalar
    · exact .inputBeyond hrow hbeyond
    · cases hok
  · intro h
    cases h with
    | inputOfScalar hscalar => exact Or.inl ⟨hscalar, rfl⟩
    | inputBeyond hrow hbeyond => exact Or.inr ⟨_, hrow, Or.inl ⟨hbeyond, rfl⟩⟩

/-- An access is refused if the node is no row, or if the field that is looked for is not there. -/
theorem access_eq_error_iff {reference : Expr} {asked : String} (look : Row → Except Error Field) :
    (do
      let row ← rowOf reference.type asked
      return .access reference (← look row) : Except Error (Content Expr)) = .error cause ↔
      (∀ row, reference.type ≠ .row row) ∧ .notRow reference.type asked = cause ∨
        ∃ row : Row, reference.type = .row row ∧ look row = .error cause := by
  simp only [bind_eq_error_iff, rowOf_eq_error_iff, rowOf_eq_ok_iff]
  refine or_congr_right (exists_congr fun row => and_congr_right fun _ => ?_)
  constructor
  · rintro (hlook | ⟨found, -, hok⟩)
    · exact hlook
    · cases hok
  · exact Or.inl

theorem content_field_error {reference : Expr} {name : String} :
    (field reference name).content caseSensitive = .error cause ↔
      Refused caseSensitive (field reference name) cause := by
  refine (access_eq_error_iff fun row => fieldOf reference.type row name caseSensitive).trans ?_
  simp only [fieldOf_eq_error_iff]
  constructor
  · rintro (⟨hscalar, rfl⟩ | ⟨row, hrow, hunknown, rfl⟩)
    · exact .fieldOfScalar hscalar
    · exact .fieldUnknown hrow hunknown
  · intro h
    cases h with
    | fieldOfScalar hscalar => exact Or.inl ⟨hscalar, rfl⟩
    | fieldUnknown hrow hunknown => exact Or.inr ⟨_, hrow, hunknown, rfl⟩

theorem content_fieldAt_error {reference : Expr} {index : UInt64} :
    (fieldAt reference index).content caseSensitive = .error cause ↔
      Refused caseSensitive (fieldAt reference index) cause := by
  refine (access_eq_error_iff fun row => fieldAtOf reference.type row index).trans ?_
  simp only [fieldAtOf_eq_error_iff]
  constructor
  · rintro (⟨hscalar, rfl⟩ | ⟨row, hrow, hbeyond, rfl⟩)
    · exact .fieldAtOfScalar hscalar
    · exact .fieldBeyond hrow hbeyond
  · intro h
    cases h with
    | fieldAtOfScalar hscalar => exact Or.inl ⟨hscalar, rfl⟩
    | fieldBeyond hrow hbeyond => exact Or.inr ⟨_, hrow, hbeyond, rfl⟩

theorem content_call_error {operator : Operator} {operands : List Expr} :
    (call operator operands).content caseSensitive = .error cause ↔
      Refused caseSensitive (call operator operands) cause := by
  simp only [content, bind_eq_error_iff, checkCount_eq_error_iff, checkCount_eq_ok_iff]
  constructor
  · rintro (⟨hrejected, rfl⟩ | ⟨-, haccepted, huntyped⟩)
    · exact .callCount hrejected
    · cases htype : callType? operator operands with
      | none =>
        rw [htype] at huntyped
        cases huntyped
        exact .callUntyped haccepted (callType?_eq_none_iff.mp htype)
      | some type =>
        rw [htype] at huntyped
        cases huntyped
  · intro h
    cases h with
    | callCount hrejected => exact Or.inl ⟨hrejected, rfl⟩
    | callUntyped haccepted huntyped =>
      refine Or.inr ⟨(), haccepted, ?_⟩
      rw [callType?_eq_none_iff.mpr huntyped]

theorem content_typedCall_error {operator : Operator} {operands : List Expr} {type : DataType} :
    (typedCall operator operands type).content caseSensitive = .error cause ↔
      Refused caseSensitive (typedCall operator operands type) cause := by
  simp only [content, bind_eq_error_iff, checkCount_eq_error_iff]
  constructor
  · rintro (⟨hrejected, rfl⟩ | ⟨-, -, hok⟩)
    · exact .typedCallCount hrejected
    · cases hok
  · intro h
    cases h with
    | typedCallCount hrejected => exact Or.inl ⟨hrejected, rfl⟩

theorem content_decimal_error {text : String} :
    (decimal text).content caseSensitive = .error cause ↔
      Refused caseSensitive (decimal text) cause := by
  simp only [content]
  constructor
  · intro h
    split at h
    · cases h
    · rename_i hnot
      cases h
      exact .notDecimal (Bool.not_eq_true _ ▸ hnot)
  · intro h
    cases h with
    | notDecimal hnot => rw [hnot]; rfl

/-- A request fails exactly with the causes of its refusal. -/
theorem content_eq_error_iff {request : Request Expr} :
    request.content caseSensitive = .error cause ↔ request.Refused caseSensitive cause := by
  cases request with
  | inputRef type index => exact content_inputRef_error
  | decimal text => exact content_decimal_error
  | call operator operands => exact content_call_error
  | typedCall operator operands type => exact content_typedCall_error
  | field reference name => exact content_field_error
  | fieldAt reference index => exact content_fieldAt_error
  | integer _ | boolean _ | string _ | null _ | correlation _ _ =>
    exact ⟨fun h => (nomatch h), fun h => (nomatch h)⟩

end Request

/-! ## Refusals by a builder -/

namespace Builder

variable {request : Request Expr} {cause : Error}

theorem register_config (builder : Builder) (content : Content Expr) (s : Session) :
    ((builder.register content).run s).1.2.config = builder.config := by
  unfold register
  rw [run_bind, Session.place_run]
  split <;> rfl

theorem make_config (builder : Builder) (request : Request Expr) (s : Session) :
    ((builder.make request).run s).1.2.config = builder.config := by
  cases h : request.content builder.config.caseSensitive with
  | error cause => rw [make_error s h]
  | ok content =>
    rw [make_ok s h]
    exact register_config builder content s

/-- The answer to a refused request is the cause, and nothing else happens. -/
theorem make_refused {builder : Builder}
    (h : request.Refused builder.config.caseSensitive cause) (s : Session) :
    (builder.make request).run s = ((.error cause, builder), s) :=
  make_error s (Request.content_eq_error_iff.mpr h)

/-- An answer that is a cause comes from a refused request. -/
theorem refused_of_make {builder : Builder} {s : Session}
    (h : ((builder.make request).run s).1.1 = .error cause) :
    request.Refused builder.config.caseSensitive cause := by
  cases hc : request.content builder.config.caseSensitive with
  | error cause' =>
    rw [make_error s hc] at h
    cases h
    exact Request.content_eq_error_iff.mp hc
  | ok content =>
    rw [make_ok s hc] at h
    cases h

/-- Fulfil requests one after the other. -/
def makeAll (builder : Builder) :
    List (Request Expr) → SessionM (List (Except Error Expr) × Builder)
  | [] => return ([], builder)
  | request :: requests => do
    let (answer, builder) ← builder.make request
    let (answers, builder) ← builder.makeAll requests
    return (answer :: answers, builder)

theorem makeAll_cons {builder builder' : Builder} {s s' : Session}
    {answer : Except Error Expr} (requests : List (Request Expr))
    (h : (builder.make request).run s = ((answer, builder'), s')) :
    (builder.makeAll (request :: requests)).run s =
      ((answer :: ((builder'.makeAll requests).run s').1.1,
        ((builder'.makeAll requests).run s').1.2), ((builder'.makeAll requests).run s').2) := by
  rw [makeAll, run_bind, h]
  rfl

/-- In a run, a refused request can be left out. -/
theorem makeAll_refused {builder : Builder}
    (h : request.Refused builder.config.caseSensitive cause)
    (before later : List (Request Expr)) (s : Session) :
    ∃ answers answers' builder' s', answers.length = before.length ∧
      (builder.makeAll (before ++ later)).run s = ((answers ++ answers', builder'), s') ∧
      (builder.makeAll (before ++ request :: later)).run s =
        ((answers ++ .error cause :: answers', builder'), s') := by
  -- On the requests before it: each of them leaves the settings that decide the refusal.
  induction before generalizing builder s with
  | nil => exact ⟨[], _, _, _, rfl, rfl, makeAll_cons later (make_refused h s)⟩
  | cons first before ih =>
    obtain ⟨⟨⟨answer, next⟩, t⟩, hfirst⟩ : ∃ p, (builder.make first).run s = p := ⟨_, rfl⟩
    have hconfig : next.config = builder.config := by
      rw [← make_config builder first s, hfirst]
    rw [← hconfig] at h
    obtain ⟨answers, answers', builder', s', hlength, hwithout, hwith⟩ := ih h t
    refine ⟨answer :: answers, answers', builder', s', congrArg Nat.succ hlength, ?_, ?_⟩
    · rw [List.cons_append, makeAll_cons _ hfirst, hwithout]
      rfl
    · rw [List.cons_append, makeAll_cons _ hfirst, hwith]
      rfl

/-- A request fails exactly for the causes to refuse it. It then leaves builder and session as
    they are, and wherever it stands in a run, the other requests are answered as without it. -/
theorem make_fails_iff (builder : Builder) (request : Request Expr) (cause : Error)
    (s : Session) :
    (((builder.make request).run s).1.1 = .error cause ↔
      request.Refused builder.config.caseSensitive cause) ∧
    (request.Refused builder.config.caseSensitive cause →
      (builder.make request).run s = ((.error cause, builder), s) ∧
      ∀ before later, ∃ answers answers' builder' s', answers.length = before.length ∧
        (builder.makeAll (before ++ later)).run s = ((answers ++ answers', builder'), s') ∧
        (builder.makeAll (before ++ request :: later)).run s =
          ((answers ++ .error cause :: answers', builder'), s')) := by
  refine ⟨⟨refused_of_make, fun h => ?_⟩, fun h => ⟨make_refused h s, fun before later => ?_⟩⟩
  · rw [make_refused h s]
  · exact makeAll_refused h before later s

/-- A name in the wrong case, asked for before the field is read: refused where case counts,
    though the field after it comes out as if it had been read at once. -/
theorem make_fails_on_case :
    let dept := DataType.ofColumns [("deptno", .notNull .integer)]
    let cor := Expr.place 0 (.correlation ⟨0⟩ dept)
    let read := Expr.place 1 (.access cor ⟨"deptno", 0, .notNull .integer⟩)
    let wrong := Request.field cor "DEPTNO"
    let cause := Error.fieldNotFound dept "DEPTNO"
    (((start {}).make wrong).run { next := 1 }).1.1 = .error cause ∧
      (((start {}).makeAll [.correlation ⟨0⟩ dept, wrong, .field cor "deptno"]).run {}).1.1 =
        [.ok cor, .error cause, .ok read] ∧
      ∀ cause', (((start { caseSensitive := false }).make wrong).run { next := 1 }).1.1 ≠
        .error cause' := by
  intro dept cor read wrong cause
  have hrefused : wrong.Refused true cause := .fieldUnknown rfl (by decide)
  obtain ⟨hiff, -⟩ := make_fails_iff (start {}) wrong cause { next := 1 }
  obtain ⟨-, hleft⟩ := make_fails_iff (start {}) wrong cause {}
  refine ⟨hiff.mpr hrefused, ?_, fun cause' hfails => ?_⟩
  · obtain ⟨answers, answers', builder', s', hlength, hwithout, hwith⟩ :=
      (hleft hrefused).2 [.correlation ⟨0⟩ dept] [.field cor "deptno"]
    have hanswers : answers ++ answers' = [.ok cor, .ok read] :=
      (congrArg (·.1.1) hwithout).symm.trans rfl
    obtain ⟨first, rfl⟩ := List.length_eq_one_iff.mp hlength
    obtain ⟨rfl, rfl⟩ := List.cons.inj hanswers
    exact congrArg (·.1.1) hwith
  · have hunlike : (Request.field cor "DEPTNO").Refused false cause' :=
      (make_fails_iff (start { caseSensitive := false }) wrong cause' _).1.mp hfails
    cases hunlike with
    | fieldOfScalar scalar => exact scalar _ rfl
    | fieldUnknown of_row unknown =>
      cases of_row
      exact absurd unknown (by decide)

end Builder
end RowExpr
