/-
  What a JSON text may look like, and how it is read.

  `Reading.SpelledBy` is the grammar of JSON: which texts spell a value, with blanks where they
  may stand, strings with their escapes, and numbers with fraction and exponent. The lexer finds
  in such a text the tokens of the value (`lexFrom_spelledBy`), whatever stands behind it that
  may follow a value, and the reader finds in these tokens the value (`value_tokens`). Hence a
  text is read as what it spells (`ofText_spelledBy`).

  An object is read member by member. Those it begins with are read even if what follows is no
  JSON at all (`ofText_members`).
-/
import Mathlib.Data.List.Forall2
import RowExpr.Digits
import RowExpr.Json.Reading

namespace RowExpr.Json

/-! ## Blanks -/

def IsBlank (c : Char) : Prop := c = ' ' ∨ c = '\t' ∨ c = '\n' ∨ c = '\r'

/-- Any number of blanks. -/
def Blank (cs : List Char) : Prop := ∀ c ∈ cs, IsBlank c

theorem blank_nil : Blank [] := fun _ h => nomatch h

/-- The text ends here, or goes on with what may stand behind a value. -/
def Ends (rest : List Char) : Prop :=
  ∀ c ∈ rest.head?, IsBlank c ∨ c = ',' ∨ c = ']' ∨ c = '\x7d'

theorem ends_nil : Ends [] := fun _ h => nomatch h

theorem ends_cons {c : Char} (h : IsBlank c ∨ c = ',' ∨ c = ']' ∨ c = '\x7d')
    (rest : List Char) : Ends (c :: rest) := by
  intro d hd
  cases hd
  exact h

theorem ends_comma (rest : List Char) : Ends (',' :: rest) :=
  ends_cons (Or.inr (Or.inl rfl)) rest

theorem ends_closeBracket (rest : List Char) : Ends (']' :: rest) :=
  ends_cons (Or.inr (Or.inr (Or.inl rfl))) rest

theorem ends_closeBrace (rest : List Char) : Ends ('\x7d' :: rest) :=
  ends_cons (Or.inr (Or.inr (Or.inr rfl))) rest

theorem Blank.ends {cs rest : List Char} (h : Blank cs) (hrest : Ends rest) :
    Ends (cs ++ rest) := by
  cases cs with
  | nil => exact hrest
  | cons c cs => exact ends_cons (Or.inl (h c List.mem_cons_self)) _

/-- The lexer drops blanks. -/
theorem lexFrom_blank {cs : List Char} (h : Blank cs) (rest : List Char) :
    lexFrom .between (cs ++ rest) = lexFrom .between rest := by
  induction cs with
  | nil => rfl
  | cons c cs ih =>
    have hstart : start c = ([], .between) := by
      rcases h c List.mem_cons_self with rfl | rfl | rfl | rfl <;> rfl
    rw [← ih fun d hd => h d (List.mem_cons_of_mem c hd)]
    simp [lexFrom, step, hstart]

/-- What the lexer finds behind a character that is a token by itself. -/
theorem lexFrom_mark {c : Char} {token : Token} {rest : List Char}
    (h : start c = ([token], .between)) :
    lexFrom .between (c :: rest) = token :: lexFrom .between rest := by
  simp [lexFrom, step, h]

/-! ## Strings -/

/-- A character of a string stands for itself, or behind a backslash by a letter or by its
    number. -/
inductive Piece.SpelledBy : Piece → List Char → Prop where
  | plain {c : Char} (printable : 0x20 ≤ c.toNat) (ne_quote : c ≠ '"') (ne_backslash : c ≠ '\\') :
    SpelledBy (.char c) [c]
  | escaped {letter c : Char} (means : unescape? letter = some c) :
    SpelledBy (.char c) ['\\', letter]
  | numbered {a b c d : Char} {i j k l : Nat} (ha : hexValue? a = some i)
    (hb : hexValue? b = some j) (hc : hexValue? c = some k) (hd : hexValue? d = some l) :
    SpelledBy (.unit (16 * (16 * (16 * i + j) + k) + l)) ['\\', 'u', a, b, c, d]

/-- A string is its pieces within quotes. -/
def StringSpelledBy (pieces : List Piece) (cs : List Char) : Prop :=
  ∃ parts, List.Forall₂ Piece.SpelledBy pieces parts ∧ cs = '"' :: (parts.flatten ++ ['"'])

theorem lexFrom_piece {piece : Piece} {cs : List Char} (h : piece.SpelledBy cs)
    (read : List Piece) (rest : List Char) :
    lexFrom (.string read) (cs ++ rest) = lexFrom (.string (piece :: read)) rest := by
  cases h with
  | plain hprintable hquote hbackslash =>
    simp [lexFrom, step, hquote, hbackslash, Nat.not_lt.mpr hprintable]
  | @escaped letter c hmeans =>
    have hu : letter ≠ 'u' := by
      rintro rfl
      cases hmeans
    simp [lexFrom, step, hu, hmeans]
  | numbered ha hb hc hd => simp [lexFrom, step, ha, hb, hc, hd]

theorem lexFrom_pieces {pieces : List Piece} {parts : List (List Char)}
    (h : List.Forall₂ Piece.SpelledBy pieces parts) (read : List Piece) (rest : List Char) :
    lexFrom (.string read) (parts.flatten ++ rest) =
      lexFrom (.string (pieces.reverse ++ read)) rest := by
  induction h generalizing read with
  | nil => rfl
  | cons hpiece _ ih =>
    rw [List.flatten_cons, List.append_assoc, lexFrom_piece hpiece, ih]
    simp

theorem lexFrom_string {pieces : List Piece} {cs : List Char} (h : StringSpelledBy pieces cs)
    (rest : List Char) :
    lexFrom .between (cs ++ rest) = .string pieces :: lexFrom .between rest := by
  obtain ⟨parts, hparts, rfl⟩ := h
  have hopen (cs : List Char) : lexFrom .between ('"' :: cs) = lexFrom (.string []) cs := rfl
  have hclose (read : List Piece) :
      lexFrom (.string read) ('"' :: rest) = .string read.reverse :: lexFrom .between rest := rfl
  rw [List.cons_append, hopen, List.append_assoc, lexFrom_pieces hparts, List.singleton_append,
    hclose]
  simp

/-! ## Numbers -/

/-- One or more digits, the first of them no zero unless it is the only one. -/
def IsWhole (ds : List Char) : Prop := isDigits ds = true ∧ (ds.head? = some '0' → ds = ['0'])

/-- The digits of a fraction, if there is one, stand behind a point. -/
inductive FractionSpelledBy : List Char → List Char → Prop where
  | none : FractionSpelledBy [] []
  | digits {ds : List Char} (digits : isDigits ds = true) : FractionSpelledBy ds ('.' :: ds)

/-- A minus, or a plus that may be left out. -/
inductive SignSpelledBy : Bool → List Char → Prop where
  | left_out : SignSpelledBy false []
  | plus : SignSpelledBy false ['+']
  | minus : SignSpelledBy true ['-']

/-- The digits of an exponent, if there is one, stand behind its mark and its sign. -/
inductive ExponentSpelledBy : Bool → List Char → List Char → Prop where
  | none : ExponentSpelledBy false [] []
  | digits {mark : Char} {negative : Bool} {sign ds : List Char}
    (marks : mark = 'e' ∨ mark = 'E') (signs : SignSpelledBy negative sign)
    (digits : isDigits ds = true) :
    ExponentSpelledBy negative ds (mark :: (sign ++ ds))

/-- A number: a minus or nothing, a whole number, a fraction and an exponent. -/
inductive Numeral.SpelledBy : Numeral → List Char → Prop where
  | parts {n : Numeral} {pointed marked : List Char} (whole : IsWhole n.whole)
    (fraction : FractionSpelledBy n.fraction pointed)
    (exponent : ExponentSpelledBy n.exponentNegative n.exponent marked) :
    SpelledBy n ((if n.negative then ['-'] else []) ++ (n.whole ++ (pointed ++ marked)))

/-- The number with more digits in one of its parts. -/
def NumberPart.put : NumberPart → List Char → Numeral → Numeral
  | .fraction, ds, n => { n with fraction := n.fraction ++ ds }
  | .exponent, ds, n => { n with exponent := n.exponent ++ ds }
  | _, ds, n => { n with whole := n.whole ++ ds }

/-- A part that goes on as long as there are digits. -/
def NumberPart.goesOn : NumberPart → Bool
  | .whole | .fraction | .exponent => true
  | _ => false

theorem NumberPart.put_nil (part : NumberPart) (n : Numeral) : part.put [] n = n := by
  cases part <;> simp [put]

theorem NumberPart.put_append (part : NumberPart) (ds es : List Char) (n : Numeral) :
    part.put (ds ++ es) n = part.put es (part.put ds n) := by
  cases part <;> simp [put]

theorem step_goesOn {part : NumberPart} (hpart : part.goesOn = true) {c : Char}
    (hc : c.isDigit = true) (n : Numeral) :
    step (.number part n) c = ([], .number part (part.put [c] n)) := by
  cases part <;> cases hpart <;> simp [step, number, hc, NumberPart.put]

theorem step_point {c : Char} (hc : c.isDigit = true) (n : Numeral) :
    step (.number .point n) c = ([], .number .fraction (NumberPart.fraction.put [c] n)) := by
  simp [step, number, hc, NumberPart.put]

theorem step_exponentMark {c : Char} (hc : c.isDigit = true) (n : Numeral) :
    step (.number .exponentMark n) c = ([], .number .exponent (NumberPart.exponent.put [c] n)) := by
  have hplus : c ≠ '+' := by rintro rfl; cases hc
  have hminus : c ≠ '-' := by rintro rfl; cases hc
  simp [step, number, hc, hplus, hminus, NumberPart.put]

theorem step_exponentSign {c : Char} (hc : c.isDigit = true) (n : Numeral) :
    step (.number .exponentSign n) c = ([], .number .exponent (NumberPart.exponent.put [c] n)) := by
  simp [step, number, hc, NumberPart.put]

/-- A run of digits, of which the first leads into a part, fills that part. -/
theorem lexFrom_digits {mode : Mode} {part : NumberPart} {n : Numeral}
    (hpart : part.goesOn = true)
    {ds : List Char} (hds : isDigits ds = true)
    (hfirst : ∀ c ∈ ds.head?, c.isDigit = true →
      step mode c = ([], .number part (part.put [c] n))) (rest : List Char) :
    lexFrom mode (ds ++ rest) = lexFrom (.number part (part.put ds n)) rest := by
  have hrun : ∀ (es : List Char) (m : Numeral), (∀ c ∈ es, c.isDigit = true) →
      lexFrom (.number part m) (es ++ rest) = lexFrom (.number part (part.put es m)) rest := by
    intro es
    induction es with
    | nil =>
      intro m _
      rw [NumberPart.put_nil]
      rfl
    | cons c es ih =>
      intro m hes
      have hc := hes c List.mem_cons_self
      have hmore := ih (part.put [c] m) fun d hd => hes d (List.mem_cons_of_mem c hd)
      rw [← NumberPart.put_append] at hmore
      simpa [lexFrom, step_goesOn hpart hc] using hmore
  obtain ⟨hne, hall⟩ := isDigits_iff.mp hds
  cases ds with
  | nil => exact absurd rfl hne
  | cons d ds =>
    have hmore := hrun ds (part.put [d] n) fun c hc => hall c (List.mem_cons_of_mem d hc)
    rw [← NumberPart.put_append] at hmore
    simpa [lexFrom, hfirst d rfl (hall d List.mem_cons_self)] using hmore

/-- The lexer stands where a number may begin: a digit is the first of its whole part. -/
def BeginsWhole (mode : Mode) (n : Numeral) : Prop :=
  ∀ c : Char, c.isDigit = true →
    step mode c = ([], .number (if c = '0' then .zero else .whole) { n with whole := [c] })

theorem beginsWhole_between : BeginsWhole .between {} := by
  intro c hc
  show start c = _
  unfold start
  split
  all_goals try exact absurd hc (by decide)
  · rfl
  · rename_i hzero
    rw [if_pos hc, if_neg hzero]

theorem beginsWhole_sign :
    BeginsWhole (.number .sign { negative := true }) { negative := true } := by
  intro c hc
  by_cases hzero : c = '0' <;> simp [step, number, hc, hzero]

/-- Behind a whole number the lexer stands in its last digit. -/
theorem lexFrom_whole {mode : Mode} {n : Numeral} (hmode : BeginsWhole mode n) {ds : List Char}
    (hds : IsWhole ds) :
    ∃ part, (part = .zero ∨ part = .whole) ∧ ∀ rest,
      lexFrom mode (ds ++ rest) = lexFrom (.number part { n with whole := ds }) rest := by
  obtain ⟨hdigits, hzero⟩ := hds
  cases ds with
  | nil => cases hdigits
  | cons d ds =>
    by_cases hd : d = '0'
    · subst hd
      obtain rfl := (List.cons.inj (hzero rfl)).2
      refine ⟨.zero, Or.inl rfl, fun rest => ?_⟩
      simp [lexFrom, hmode '0' rfl]
    · refine ⟨.whole, Or.inr rfl, fun rest => ?_⟩
      have hfirst : ∀ c ∈ (d :: ds).head?, c.isDigit = true → step mode c =
          ([], .number .whole (NumberPart.whole.put [c] { n with whole := [] })) := by
        intro c hc hdigit
        obtain rfl := Option.some_inj.mp hc
        rw [hmode d hdigit, if_neg hd]
        rfl
      exact lexFrom_digits rfl hdigits hfirst rest

/-- Behind a fraction the lexer stands in its last digit. -/
theorem lexFrom_fraction {part : NumberPart} (hpart : part = .zero ∨ part = .whole) {n : Numeral}
    (hn : n.fraction = []) {ds cs : List Char} (h : FractionSpelledBy ds cs) :
    ∃ part', (part' = .zero ∨ part' = .whole ∨ part' = .fraction) ∧ ∀ rest,
      lexFrom (.number part n) (cs ++ rest) =
        lexFrom (.number part' { n with fraction := ds }) rest := by
  cases h with
  | none =>
    have hsame : { n with fraction := [] } = n := by rw [← hn]
    refine ⟨part, hpart.imp_right Or.inl, fun rest => ?_⟩
    rw [hsame]
    rfl
  | digits hds =>
    have hpoint : step (.number part n) '.' = ([], .number .point n) := by
      rcases hpart with rfl | rfl <;> rfl
    refine ⟨.fraction, Or.inr (Or.inr rfl), fun rest => ?_⟩
    have hrun := lexFrom_digits rfl hds (fun c _ hc => step_point hc n) rest
    simpa [lexFrom, hpoint, NumberPart.put, hn] using hrun

/-- Behind an exponent the lexer stands in its last digit. -/
theorem lexFrom_exponent {part : NumberPart}
    (hpart : part = .zero ∨ part = .whole ∨ part = .fraction) {n : Numeral}
    (hsign : n.exponentNegative = false) (hn : n.exponent = []) {negative : Bool}
    {ds cs : List Char} (h : ExponentSpelledBy negative ds cs) :
    ∃ part', part'.isComplete = true ∧ ∀ rest,
      lexFrom (.number part n) (cs ++ rest) =
        lexFrom (.number part' { n with exponentNegative := negative, exponent := ds }) rest := by
  cases h with
  | none =>
    have hsame : { n with exponentNegative := false, exponent := [] } = n := by
      rw [← hsign, ← hn]
    refine ⟨part, by rcases hpart with rfl | rfl | rfl <;> rfl, fun rest => ?_⟩
    rw [hsame]
    rfl
  | @digits mark _ sign _ hmark hsigned hds =>
    have hmarked (cs : List Char) : lexFrom (.number part n) (mark :: cs) =
        lexFrom (.number .exponentMark n) cs := by
      rcases hpart with rfl | rfl | rfl <;> rcases hmark with rfl | rfl <;> rfl
    refine ⟨.exponent, rfl, fun rest => ?_⟩
    rw [List.cons_append, hmarked, List.append_assoc]
    cases hsigned with
    | left_out =>
      have hrun := lexFrom_digits rfl hds (fun c _ hc => step_exponentMark hc n) rest
      simpa [NumberPart.put, hn, ← hsign] using hrun
    | plus =>
      have hrun := lexFrom_digits rfl hds (fun c _ hc => step_exponentSign hc n) rest
      simpa [lexFrom, step, number, NumberPart.put, hn, ← hsign] using hrun
    | minus =>
      have hrun := lexFrom_digits rfl hds
        (fun c _ hc => step_exponentSign hc { n with exponentNegative := true }) rest
      simpa [lexFrom, step, number, NumberPart.put, hn] using hrun

/-- A number that may end here does end where a value may. -/
theorem lexFrom_ends {part : NumberPart} (hpart : part.isComplete = true) (n : Numeral)
    {rest : List Char} (h : Ends rest) :
    lexFrom (.number part n) rest = .number n :: lexFrom .between rest := by
  cases rest with
  | nil => simp [lexFrom, finish, hpart]
  | cons c rest =>
    rcases h c rfl with (rfl | rfl | rfl | rfl) | rfl | rfl | rfl <;>
      cases part <;> cases hpart <;> rfl

theorem lexFrom_unsigned {mode : Mode} {n : Numeral}
    (hmode : BeginsWhole mode { negative := n.negative }) (hwhole : IsWhole n.whole)
    {pointed marked : List Char} (hfraction : FractionSpelledBy n.fraction pointed)
    (hexponent : ExponentSpelledBy n.exponentNegative n.exponent marked) {rest : List Char}
    (hrest : Ends rest) :
    lexFrom mode (n.whole ++ (pointed ++ (marked ++ rest))) =
      .number n :: lexFrom .between rest := by
  obtain ⟨_, hpart, hbehindWhole⟩ := lexFrom_whole hmode hwhole
  obtain ⟨_, hpart, hbehindFraction⟩ := lexFrom_fraction hpart
    (n := { negative := n.negative, whole := n.whole }) rfl hfraction
  obtain ⟨_, hpart, hbehindExponent⟩ := lexFrom_exponent hpart
    (n := { negative := n.negative, whole := n.whole, fraction := n.fraction }) rfl rfl hexponent
  rw [hbehindWhole, hbehindFraction, hbehindExponent, lexFrom_ends hpart _ hrest]

theorem lexFrom_numeral {n : Numeral} {cs : List Char} (h : n.SpelledBy cs) {rest : List Char}
    (hrest : Ends rest) :
    lexFrom .between (cs ++ rest) = .number n :: lexFrom .between rest := by
  obtain ⟨hwhole, hfraction, hexponent⟩ := h
  simp only [List.append_assoc]
  by_cases hnegative : n.negative = true
  · have hminus (cs : List Char) :
        lexFrom .between ('-' :: cs) = lexFrom (.number .sign { negative := true }) cs := rfl
    rw [if_pos hnegative, List.singleton_append, hminus]
    exact lexFrom_unsigned (hnegative.symm ▸ beginsWhole_sign) hwhole hfraction hexponent hrest
  · rw [if_neg hnegative, List.nil_append]
    rw [Bool.not_eq_true] at hnegative
    exact lexFrom_unsigned (hnegative.symm ▸ beginsWhole_between) hwhole hfraction hexponent hrest

/-! ## Values -/

mutual

/-- A value as JSON has it. What could not be read is spelled by nothing. -/
inductive Reading.SpelledBy : Reading → List Char → Prop where
  | null : Reading.SpelledBy .null ['n', 'u', 'l', 'l']
  | true : Reading.SpelledBy (.bool true) ['t', 'r', 'u', 'e']
  | false : Reading.SpelledBy (.bool false) ['f', 'a', 'l', 's', 'e']
  | number {n : Numeral} {cs : List Char} (numeral : n.SpelledBy cs) :
    Reading.SpelledBy (.number n) cs
  | string {pieces : List Piece} {cs : List Char} (quoted : StringSpelledBy pieces cs) :
    Reading.SpelledBy (.string pieces) cs
  | emptyArray {cs : List Char} (blank : Blank cs) :
    Reading.SpelledBy (.array []) ('[' :: (cs ++ [']']))
  | array {items : List Reading} {cs : List Char} (spelled : ItemsSpelledBy items cs) :
    Reading.SpelledBy (.array items) ('[' :: (cs ++ [']']))
  | emptyObject {cs : List Char} (blank : Blank cs) :
    Reading.SpelledBy (.object []) ('\x7b' :: (cs ++ ['\x7d']))
  | object {members : List (Option (List Piece) × Reading)} {cs : List Char}
    (spelled : MembersSpelledBy members cs) :
    Reading.SpelledBy (.object members) ('\x7b' :: (cs ++ ['\x7d']))

/-- A value with blanks around it. -/
inductive Reading.PaddedBy : Reading → List Char → Prop where
  | padded {item : Reading} {before cs after : List Char} (blank_before : Blank before)
    (spelled : item.SpelledBy cs) (blank_after : Blank after) :
    Reading.PaddedBy item (before ++ (cs ++ after))

/-- One or more items with commas between them. -/
inductive ItemsSpelledBy : List Reading → List Char → Prop where
  | last {item : Reading} {cs : List Char} (padded : item.PaddedBy cs) : ItemsSpelledBy [item] cs
  | more {item : Reading} {items : List Reading} {cs ds : List Char} (padded : item.PaddedBy cs)
    (spelled : ItemsSpelledBy items ds) : ItemsSpelledBy (item :: items) (cs ++ ',' :: ds)

/-- A key, a colon and a value, with blanks around each. -/
inductive MemberSpelledBy : Option (List Piece) × Reading → List Char → Prop where
  | pair {key : List Piece} {value : Reading} {before cs after ds : List Char}
    (blank_before : Blank before) (quoted : StringSpelledBy key cs) (blank_after : Blank after)
    (padded : value.PaddedBy ds) :
    MemberSpelledBy (some key, value) (before ++ (cs ++ (after ++ ':' :: ds)))

/-- One or more members with commas between them. -/
inductive MembersSpelledBy : List (Option (List Piece) × Reading) → List Char → Prop where
  | last {member : Option (List Piece) × Reading} {cs : List Char}
    (member_spelled : MemberSpelledBy member cs) : MembersSpelledBy [member] cs
  | more {member : Option (List Piece) × Reading}
    {members : List (Option (List Piece) × Reading)} {cs ds : List Char}
    (member_spelled : MemberSpelledBy member cs) (spelled : MembersSpelledBy members ds) :
    MembersSpelledBy (member :: members) (cs ++ ',' :: ds)

end

theorem Reading.SpelledBy.padded {reading : Reading} {cs : List Char}
    (h : reading.SpelledBy cs) : reading.PaddedBy cs := by
  simpa using Reading.PaddedBy.padded blank_nil h blank_nil

/-! ## Tokens of values -/

namespace Reading

/-- The tokens of a key and the colon behind it. -/
def keyTokens : Option (List Piece) → List Token
  | some key => [.string key, .colon]
  | none => [.invalid]

mutual

/-- The tokens that spell a value. -/
def tokens : Reading → List Token
  | .null => [.null]
  | .bool b => [.bool b]
  | .number n => [.number n]
  | .string pieces => [.string pieces]
  | .array items => .openBracket :: (itemsTokens items ++ [.closeBracket])
  | .object members => .openBrace :: (membersTokens members ++ [.closeBrace])
  | .broken => [.invalid]
termination_by structural reading => reading

/-- The tokens of items with commas between them. -/
def itemsTokens : List Reading → List Token
  | [] => []
  | [item] => item.tokens
  | item :: items => item.tokens ++ .comma :: itemsTokens items
termination_by structural items => items

/-- The tokens of members with commas between them. -/
def membersTokens : List (Option (List Piece) × Reading) → List Token
  | [] => []
  | [(key, value)] => keyTokens key ++ value.tokens
  | (key, value) :: members => keyTokens key ++ (value.tokens ++ .comma :: membersTokens members)
termination_by structural members => members

end

end Reading

mutual

/-- The lexer finds in the text of a value its tokens, if what follows may follow a value. -/
theorem lexFrom_spelledBy {reading : Reading} {cs : List Char} :
    reading.SpelledBy cs → ∀ {rest : List Char}, Ends rest →
    lexFrom .between (cs ++ rest) = reading.tokens ++ lexFrom .between rest
  | .null, _, _ => rfl
  | .true, _, _ => rfl
  | .false, _, _ => rfl
  | .number hnumeral, _, hrest => lexFrom_numeral hnumeral hrest
  | .string hquoted, _, _ => lexFrom_string hquoted _
  | .emptyArray hblank, _, _ => by
    rw [List.cons_append, lexFrom_mark rfl, List.append_assoc, lexFrom_blank hblank,
      List.singleton_append, lexFrom_mark rfl]
    rfl
  | .array hitems, rest, _ => by
    rw [List.cons_append, lexFrom_mark rfl, List.append_assoc, List.singleton_append,
      lexFrom_itemsSpelledBy hitems (ends_closeBracket rest), lexFrom_mark rfl]
    simp [Reading.tokens]
  | .emptyObject hblank, _, _ => by
    rw [List.cons_append, lexFrom_mark rfl, List.append_assoc, lexFrom_blank hblank,
      List.singleton_append, lexFrom_mark rfl]
    rfl
  | .object hmembers, rest, _ => by
    rw [List.cons_append, lexFrom_mark rfl, List.append_assoc, List.singleton_append,
      lexFrom_membersSpelledBy hmembers (ends_closeBrace rest), lexFrom_mark rfl]
    simp [Reading.tokens]
termination_by structural h => h

theorem lexFrom_paddedBy {reading : Reading} {cs : List Char} :
    reading.PaddedBy cs → ∀ {rest : List Char}, Ends rest →
    lexFrom .between (cs ++ rest) = reading.tokens ++ lexFrom .between rest
  | .padded hbefore hspelled hafter, rest, hrest => by
    rw [List.append_assoc, lexFrom_blank hbefore, List.append_assoc,
      lexFrom_spelledBy hspelled (hafter.ends hrest), lexFrom_blank hafter]
termination_by structural h => h

theorem lexFrom_itemsSpelledBy {items : List Reading} {cs : List Char} :
    ItemsSpelledBy items cs → ∀ {rest : List Char}, Ends rest →
    lexFrom .between (cs ++ rest) = Reading.itemsTokens items ++ lexFrom .between rest
  | .last hitem, _, hrest => lexFrom_paddedBy hitem hrest
  | .more hitem hitems, rest, hrest => by
    rw [List.append_assoc, List.cons_append, lexFrom_paddedBy hitem (ends_comma _),
      lexFrom_mark rfl, lexFrom_itemsSpelledBy hitems hrest]
    cases hitems <;> simp [Reading.itemsTokens]
termination_by structural h => h

theorem lexFrom_memberSpelledBy {member : Option (List Piece) × Reading} {cs : List Char} :
    MemberSpelledBy member cs → ∀ {rest : List Char}, Ends rest →
    lexFrom .between (cs ++ rest) = Reading.membersTokens [member] ++ lexFrom .between rest
  | .pair hbefore hkey hafter hvalue, rest, hrest => by
    simp only [List.append_assoc, List.cons_append]
    rw [lexFrom_blank hbefore, lexFrom_string hkey, lexFrom_blank hafter, lexFrom_mark rfl,
      lexFrom_paddedBy hvalue hrest]
    simp [Reading.membersTokens, Reading.keyTokens]
termination_by structural h => h

theorem lexFrom_membersSpelledBy {members : List (Option (List Piece) × Reading)}
    {cs : List Char} : MembersSpelledBy members cs → ∀ {rest : List Char}, Ends rest →
    lexFrom .between (cs ++ rest) = Reading.membersTokens members ++ lexFrom .between rest
  | .last hmember, _, hrest => lexFrom_memberSpelledBy hmember hrest
  | .more hmember hmembers, rest, hrest => by
    rw [List.append_assoc, List.cons_append, lexFrom_memberSpelledBy hmember (ends_comma _),
      lexFrom_mark rfl, lexFrom_membersSpelledBy hmembers hrest]
    cases hmembers <;> simp [Reading.membersTokens]
termination_by structural h => h

end

/-! ## What is read -/

namespace Reading

mutual

/-- What a text spells is JSON throughout. -/
theorem isWhole_of_spelledBy {reading : Reading} {cs : List Char} :
    reading.SpelledBy cs → reading.isWhole = true
  | .null | .true | .false | .number _ | .string _ | .emptyArray _ | .emptyObject _ => rfl
  | .array hitems => allWhole_of_spelledBy hitems
  | .object hmembers => allMembersWhole_of_spelledBy hmembers
termination_by structural h => h

theorem isWhole_of_paddedBy {reading : Reading} {cs : List Char} :
    reading.PaddedBy cs → reading.isWhole = true
  | .padded _ hspelled _ => isWhole_of_spelledBy hspelled
termination_by structural h => h

theorem allWhole_of_spelledBy {items : List Reading} {cs : List Char} :
    ItemsSpelledBy items cs → allWhole items = true
  | .last hitem => by simp [allWhole, isWhole_of_paddedBy hitem]
  | .more hitem hitems => by
    simp [allWhole, isWhole_of_paddedBy hitem, allWhole_of_spelledBy hitems]
termination_by structural h => h

theorem isWhole_of_memberSpelledBy {member : Option (List Piece) × Reading} {cs : List Char} :
    MemberSpelledBy member cs → member.1.isSome = true ∧ member.2.isWhole = true
  | .pair _ _ _ hvalue => ⟨rfl, isWhole_of_paddedBy hvalue⟩
termination_by structural h => h

theorem allMembersWhole_of_spelledBy {members : List (Option (List Piece) × Reading)}
    {cs : List Char} : MembersSpelledBy members cs → allMembersWhole members = true
  | .last hmember => by simp [allMembersWhole, isWhole_of_memberSpelledBy hmember]
  | .more hmember hmembers => by
    simp [allMembersWhole, isWhole_of_memberSpelledBy hmember,
      allMembersWhole_of_spelledBy hmembers]
termination_by structural h => h

end

/-- No item begins with the bracket that closes the array, so an array of items is not taken for
    the empty one. -/
theorem value_openBracket (bound : Nat) (item : Reading) (items : List Reading)
    (rest : List Token) :
    value (bound + 1) (.openBracket :: (itemsTokens (item :: items) ++ rest)) =
      (.array (Reading.items bound (itemsTokens (item :: items) ++ rest)).1,
        (Reading.items bound (itemsTokens (item :: items) ++ rest)).2) := by
  have hhead : ∀ more, itemsTokens (item :: items) ++ rest ≠ .closeBracket :: more := by
    cases items <;> cases item <;> simp [itemsTokens, tokens]
  rw [value]
  exact hhead

/-- Members begin with a key, so an object of members is not taken for the empty one. -/
theorem value_openBrace (bound : Nat) {members : List (Option (List Piece) × Reading)}
    (hne : members ≠ []) (hwhole : allMembersWhole members = true) (behind : List Token) :
    value (bound + 1) (.openBrace :: (membersTokens members ++ behind)) =
      (.object (Reading.members bound (membersTokens members ++ behind)).1,
        (Reading.members bound (membersTokens members ++ behind)).2) := by
  have hhead : ∀ more, membersTokens members ++ behind ≠ .closeBrace :: more := by
    match members, hne, hwhole with
    | [(some key, value)], _, _ => simp [membersTokens, keyTokens]
    | (some key, value) :: next :: members, _, _ => simp [membersTokens, keyTokens]
  rw [value]
  exact hhead

/-- The members that the reader finds behind a member, and the tokens behind them. -/
def membersBehind (bound : Nat) : List Token →
    List (Option (List Piece) × Reading) × List Token
  | .comma :: rest => members bound rest
  | .closeBrace :: rest => ([], rest)
  | _ => ([(none, .broken)], [])

theorem members_cons (bound : Nat) (key : List Piece) {value : Reading} {tokens rest : List Token}
    (h : Reading.value bound tokens = (value, rest)) :
    members (bound + 1) (.string key :: .colon :: tokens) =
      ((some key, value) :: (membersBehind bound rest).1, (membersBehind bound rest).2) := by
  simp only [members, h]
  cases rest with
  | nil => rfl
  | cons token rest => cases token <;> rfl

mutual

/-- The tokens of a value are read as this value, if the recursion may go as deep as there are
    tokens. -/
theorem value_tokens : (reading : Reading) → (bound : Nat) → (rest : List Token) →
    reading.isWhole = true → reading.tokens.length ≤ bound →
    value bound (reading.tokens ++ rest) = (reading, rest)
  | .null, _, _, _, _ => by simp [tokens, value]
  | .bool _, _, _, _, _ => by simp [tokens, value]
  | .number _, _, _, _, _ => by simp [tokens, value]
  | .string _, _, _, _, _ => by simp [tokens, value]
  | .array [], _, _, _, _ => by simp [tokens, itemsTokens, value]
  | .object [], _, _, _, _ => by simp [tokens, membersTokens, value]
  | .array (item :: items), bound, rest, hwhole, h => by
    simp only [tokens, List.length_cons, List.length_append, List.length_nil] at h
    obtain ⟨bound, rfl⟩ : ∃ b, bound = b + 1 := ⟨bound - 1, by omega⟩
    have hitems :=
      items_tokens (item :: items) (List.cons_ne_nil _ _) bound rest hwhole (by omega)
    simp only [tokens, List.cons_append, List.append_assoc, List.nil_append]
    rw [value_openBracket, hitems]
  | .object (member :: members), bound, rest, hwhole, h => by
    simp only [tokens, List.length_cons, List.length_append, List.length_nil] at h
    obtain ⟨bound, rfl⟩ : ∃ b, bound = b + 1 := ⟨bound - 1, by omega⟩
    have hmembers := members_tokens (member :: members) (List.cons_ne_nil _ _) bound
      (.closeBrace :: rest) hwhole (by omega)
    simp only [tokens, List.cons_append, List.append_assoc, List.nil_append]
    rw [value_openBrace bound (List.cons_ne_nil _ _) hwhole, hmembers]
    simp [membersBehind]
  | .broken, _, _, hwhole, _ => by cases hwhole
termination_by structural reading => reading

theorem items_tokens : (items : List Reading) → items ≠ [] → (bound : Nat) →
    (rest : List Token) → allWhole items = true → (itemsTokens items).length < bound →
    Reading.items bound (itemsTokens items ++ .closeBracket :: rest) = (items, rest)
  | [], hne, _, _, _, _ => absurd rfl hne
  | _ :: _, _, 0, _, _, h => absurd h (Nat.not_lt_zero _)
  | [item], _, bound + 1, rest, hwhole, h => by
    simp only [itemsTokens] at h
    simp only [allWhole, Bool.and_true] at hwhole
    have hitem := value_tokens item bound (.closeBracket :: rest) hwhole (by omega)
    simp only [itemsTokens, Reading.items, hitem]
  | item :: next :: items, _, bound + 1, rest, hwhole, h => by
    simp only [itemsTokens, List.length_append, List.length_cons] at h
    rw [allWhole, Bool.and_eq_true] at hwhole
    have hitem := value_tokens item bound
      (.comma :: (itemsTokens (next :: items) ++ .closeBracket :: rest)) hwhole.1 (by omega)
    have hitems := items_tokens (next :: items) (List.cons_ne_nil _ _) bound rest hwhole.2
      (by omega)
    simp only [itemsTokens, List.append_assoc, List.cons_append] at hitem hitems ⊢
    simp only [Reading.items, hitem, hitems]
termination_by structural items => items

/-- The tokens of members are read as these members, and then the reader goes on. -/
theorem members_tokens : (members : List (Option (List Piece) × Reading)) → members ≠ [] →
    (bound : Nat) → (behind : List Token) → allMembersWhole members = true →
    (membersTokens members).length < bound →
    Reading.members bound (membersTokens members ++ behind) =
      (members ++ (membersBehind (bound - members.length) behind).1,
        (membersBehind (bound - members.length) behind).2)
  | [], hne, _, _, _, _ => absurd rfl hne
  | _ :: _, _, 0, _, _, h => absurd h (Nat.not_lt_zero _)
  | (none, _) :: _, _, _, _, hwhole, _ => by cases hwhole
  | [(some key, value)], _, bound + 1, behind, hwhole, h => by
    simp only [membersTokens, keyTokens, List.length_append, List.length_cons] at h
    simp only [allMembersWhole, Bool.and_true, Option.isSome_some, Bool.true_and] at hwhole
    have hvalue := value_tokens value bound behind hwhole (by omega)
    exact members_cons bound key hvalue
  | (some key, value) :: next :: members, _, bound + 1, behind, hwhole, h => by
    simp only [membersTokens, keyTokens, List.length_append, List.length_cons] at h
    rw [allMembersWhole, Bool.and_eq_true] at hwhole
    have hvalue := value_tokens value bound
      (.comma :: (membersTokens (next :: members) ++ behind)) hwhole.1 (by omega)
    have hmembers := members_tokens (next :: members) (List.cons_ne_nil _ _) bound behind
      hwhole.2 (by omega)
    have hfirst := members_cons bound key hvalue
    rw [membersBehind, hmembers] at hfirst
    simpa [membersTokens, keyTokens] using hfirst
termination_by structural members => members

end

/-- A text is read as what it spells, and nothing is left of it. -/
theorem ofText_spelledBy {text : String} {reading : Reading} (h : reading.PaddedBy text.toList) :
    ofText text = (reading, []) := by
  have hlex : lex text = reading.tokens := by
    have htokens := lexFrom_paddedBy h ends_nil
    rw [List.append_nil] at htokens
    exact htokens.trans (List.append_nil _)
  have hvalue := value_tokens reading (2 * reading.tokens.length + 2) [] (isWhole_of_paddedBy h)
    (by omega)
  rw [List.append_nil] at hvalue
  unfold ofText
  rw [hlex]
  exact hvalue

/-- An object is read with the members that it begins with, whatever follows them. -/
theorem ofText_members {text : String} {members : List (Option (List Piece) × Reading)}
    {before cs rest : List Char} (htext : text.toList = before ++ '\x7b' :: (cs ++ rest))
    (hbefore : Blank before) (hmembers : MembersSpelledBy members cs) (hrest : Ends rest) :
    ∃ more left, ofText text = (.object (members ++ more), left) := by
  have hlex : lex text = .openBrace :: (membersTokens members ++ lexFrom .between rest) := by
    unfold lex
    rw [htext, lexFrom_blank hbefore, lexFrom_mark rfl, lexFrom_membersSpelledBy hmembers hrest]
  have hne : members ≠ [] := by cases hmembers <;> exact List.cons_ne_nil _ _
  have hwhole := allMembersWhole_of_spelledBy hmembers
  unfold ofText
  simp only [hlex, List.length_cons, List.length_append]
  rw [value_openBrace _ hne hwhole, members_tokens members hne _ _ hwhole (by omega)]
  exact ⟨_, _, rfl⟩

end Reading
end RowExpr.Json
