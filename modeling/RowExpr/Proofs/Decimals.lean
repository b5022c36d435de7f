/-
  Which texts a builder takes for decimals.

  The check strips a minus, cuts the rest at its first point and looks for digits on both sides.
  No digit is a minus or a point, so a text of the grammar `IsNumber` is cut where the grammar says
  (`takeWhile_point`, `dropWhile_point`), and the check takes exactly these texts
  (`isDecimalText_iff`). What a builder answers to a request for a decimal follows, whatever it was
  asked for before (`decimal_made_iff`).
-/
import RowExpr.Proofs.History
import RowExpr.Proofs.Words

namespace RowExpr

/-! ## The grammar -/

section Cut

variable {whole fraction : List Char}

theorem ne_point_of_isDigits (h : isDigits whole = true) : ∀ c ∈ whole, (c != '.') = true := by
  intro c hc
  rw [bne_iff_ne]
  rintro rfl
  exact absurd ((isDigits_iff.mp h).2 '.' hc) (by decide)

/-- The digits before the point are all that stands before the first point. -/
theorem takeWhile_point (hwhole : isDigits whole = true)
    (hfraction : fraction = [] ∨ ∃ ds, fraction = '.' :: ds ∧ isDigits ds = true) :
    (whole ++ fraction).takeWhile (· != '.') = whole := by
  rw [List.takeWhile_append_of_pos (ne_point_of_isDigits hwhole)]
  rcases hfraction with rfl | ⟨ds, rfl, -⟩
  · exact List.append_nil whole
  · rw [List.takeWhile_cons_of_neg (by decide)]
    exact List.append_nil whole

theorem dropWhile_point (hwhole : isDigits whole = true)
    (hfraction : fraction = [] ∨ ∃ ds, fraction = '.' :: ds ∧ isDigits ds = true) :
    (whole ++ fraction).dropWhile (· != '.') = fraction := by
  rw [List.dropWhile_append_of_pos (ne_point_of_isDigits hwhole)]
  rcases hfraction with rfl | ⟨ds, rfl, -⟩
  · rfl
  · exact List.dropWhile_cons_of_neg (by decide)

/-- What is left behind the minus passes the check. -/
theorem isUnsigned_of_parts (hwhole : isDigits whole = true)
    (hfraction : fraction = [] ∨ ∃ ds, fraction = '.' :: ds ∧ isDigits ds = true) :
    (match (whole ++ fraction).dropWhile (· != '.') with
      | [] => isDigits ((whole ++ fraction).takeWhile (· != '.'))
      | _ :: ds => isDigits ((whole ++ fraction).takeWhile (· != '.')) && isDigits ds) = true := by
  rw [takeWhile_point hwhole hfraction, dropWhile_point hwhole hfraction]
  rcases hfraction with rfl | ⟨ds, rfl, hds⟩
  · exact hwhole
  · exact (Bool.and_eq_true _ _).mpr ⟨hwhole, hds⟩

end Cut

/-- The check takes exactly a minus or none, digits, and a point with digits or none. -/
theorem isDecimalText_iff {text : String} : isDecimalText text = true ↔ IsNumber text.toList := by
  refine ⟨isNumber_decimal, ?_⟩
  rintro ⟨sign, whole, fraction, htext, hsign, hwhole, hfraction⟩
  have hunsigned := isUnsigned_of_parts hwhole hfraction
  unfold isDecimalText
  rw [htext]
  rcases hsign with rfl | rfl
  · rw [List.nil_append]
    split
    next rest hminus =>
      -- the digits would have to start with the minus
      obtain ⟨hne, hall⟩ := isDigits_iff.mp hwhole
      obtain ⟨c, cs, rfl⟩ := List.exists_cons_of_ne_nil hne
      obtain ⟨rfl, -⟩ := List.cons.inj hminus
      exact absurd (hall '-' List.mem_cons_self) (by decide)
    next => exact hunsigned
  · exact hunsigned

namespace Builder

/-! ## Requests for decimals -/

/-- Whatever a builder was asked for before, it makes a decimal of a text exactly if the text is a
    minus or none, digits, and a point with digits or none. What it hands out is DECIMAL NOT NULL
    and has the text as its digest, letter for letter. Any other text is refused as an argument, and
    builder and session stay as they are. -/
theorem decimal_made_iff (config : Config) (calls : List Call) (text : String)
    (session : Session) :
    ((∃ node, (((after config calls).make (.decimal text)).run session).1.1 = .ok node) ↔
      IsNumber text.toList) ∧
    (∀ node, (((after config calls).make (.decimal text)).run session).1.1 = .ok node →
      node.type = .notNull .decimal ∧ node.digest = text) ∧
    (¬ IsNumber text.toList → ((after config calls).make (.decimal text)).run session =
      ((.error (.invalidArgument (.notDecimal text)), after config calls), session)) := by
  have hconfig : (after config calls).config = config := (exists_made config calls).1
  have hrefused (hnot : ¬ IsNumber text.toList) :
      ((after config calls).make (.decimal text)).run session =
        ((.error (.invalidArgument (.notDecimal text)), after config calls), session) := by
    apply make_error
    simp only [Request.content]
    exact if_neg (isDecimalText_iff.not.mpr hnot)
  have hmade (hnumber : IsNumber text.toList) :
      ∃ node, (((after config calls).make (.decimal text)).run session).1.1 = .ok node ∧
        node.signature = (text, .notNull .decimal) := by
    have hcontent : (Request.decimal text).content config.caseSensitive =
        .ok (.literal (.decimal text) (.notNull .decimal)) :=
      Request.content_decimal.mpr ⟨isDecimalText_iff.mpr hnumber, rfl⟩
    obtain ⟨node, hnode, hsignature, -⟩ := make_after config calls hcontent session
    exact ⟨node, hnode, hsignature⟩
  refine ⟨⟨?_, fun hnumber => ?_⟩, fun node hnode => ?_, hrefused⟩
  · rintro ⟨node, hnode⟩
    by_contra hnot
    rw [hrefused hnot] at hnode
    cases hnode
  · obtain ⟨node, hnode, -⟩ := hmade hnumber
    exact ⟨node, hnode⟩
  · by_cases hnumber : IsNumber text.toList
    · obtain ⟨node', hnode', hsignature⟩ := hmade hnumber
      obtain rfl : node' = node := Except.ok.inj (hnode'.symm.trans hnode)
      exact ⟨congrArg Prod.snd hsignature, congrArg Prod.fst hsignature⟩
    · rw [hrefused hnumber] at hnode
      cases hnode

/-- Where the integer 1 was asked for before, the decimal of the same text is a node of its own;
    zeros are kept, and a second point, a second minus or one behind the point is refused. -/
theorem decimal_made_iff_after_integer :
    let calls : List Call := [⟨{}, .integer 1⟩]
    let session : Session := { next := 1 }
    let made (text : String) := ((after {} calls).make (.decimal text)).run session
    let one := Expr.place 1 (.literal (.decimal "1") (.notNull .decimal))
    ((made "1").1.1 = .ok one ∧ one.type = .notNull .decimal ∧ one.digest = "1") ∧
      (∃ node, (made "-007.50").1.1 = .ok node) ∧
      ∀ text ∈ ["1.2.3", "--1", "1.-5", ".5", "5.", "", "-", "+1", "\u0661"],
        made text = ((.error (.invalidArgument (.notDecimal text)), after {} calls), session) := by
  intro calls session made one
  refine ⟨⟨rfl, (decimal_made_iff {} calls "1" session).2.1 one rfl⟩,
    (decimal_made_iff {} calls "-007.50" session).1.mpr (isDecimalText_iff.mp (by decide)),
    fun text htext => (decimal_made_iff {} calls text session).2.2 ?_⟩
  rw [← isDecimalText_iff]
  revert text
  decide

end Builder
end RowExpr
