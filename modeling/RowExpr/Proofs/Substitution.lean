/-
  Decorrelating is substituting.

  `fieldFor?` says from the node alone which field an access over the variable is to read
  instead. `Substituted` relates an expression to one in which all such accesses are replaced and
  nothing else: a part without any is the very object, and a part with some is a new node that
  says the same over the substituted children. What then holds of the nodes of the result comes
  down to the nodes of the input (`Substituted.forall_walk_iff`).

  `replace_outcome` carries this through the traversal, together with the count, the warnings
  and the identities. `apply_substitutes` is the law of `Decorrelator.apply`.
-/
import Mathlib.Data.List.Infix
import RowExpr.Correlation.Decorrelator
import RowExpr.Proofs.Tree

namespace RowExpr.Decorrelator

/-! ## What is to be replaced -/

/-- The field to read in place of the one that `node` reads: if it is an access over the
    variable, the first field of the replacement with the same name. -/
def fieldFor? (d : Decorrelator) (node : Expr) : Option Field :=
  (node.fieldThrough? d.target).bind fun read => d.row.find? fun field => field.name = read.name

/-- Whether `node` is an access over the variable to a field that the replacement lacks. -/
def lacks (d : Decorrelator) (node : Expr) : Bool :=
  (node.fieldThrough? d.target).isSome && (d.fieldFor? node).isNone

/-- The accesses to be replaced, each as often as it occurs, in the order of the walk. -/
def hits (d : Decorrelator) (e : Expr) : List Expr := e.walk.filter fun x => (d.fieldFor? x).isSome

/-- The accesses to missing fields, each as often as it occurs, in the order of the walk. -/
def misses (d : Decorrelator) (e : Expr) : List Expr := e.walk.filter d.lacks

/-- The warning about an access to a missing field. -/
def warning (d : Decorrelator) (node : Expr) : Warning :=
  .noSuchField node.digest d.replacement.type

/-- `new` is `e` with every access to be replaced reading from the replacement instead. -/
inductive Substituted (d : Decorrelator) : Expr → Expr → Prop
  /-- Nothing is to be replaced: the same object. -/
  | kept {e : Expr} (h : d.hits e = []) : Substituted d e e
  /-- An access to be replaced; neither its reference nor the replacement is looked into. -/
  | replaced {e : Expr} {field : Field} (h : d.fieldFor? e = some field) (id : NodeId) :
    Substituted d e (.place id (.access d.replacement field))
  | call {e : Expr} {operator : Operator} {operands operands' : List Expr} {type : DataType}
    (hcontent : e.content = .call operator operands type) (hbelow : d.hits e ≠ [])
    (h : List.Forall₂ (Substituted d) operands operands') (id : NodeId) :
    Substituted d e (.place id (.call operator operands' type))
  | access {e reference reference' : Expr} {field : Field}
    (hcontent : e.content = .access reference field) (hnot : d.fieldFor? e = none)
    (hbelow : d.hits e ≠ []) (h : Substituted d reference reference') (id : NodeId) :
    Substituted d e (.place id (.access reference' field))

variable {d : Decorrelator}

/-- An access is over the variable if it is to be replaced, or would be but for its field. -/
theorem fieldThrough?_eq_some {id : CorrelationId} {node : Expr} {field : Field}
    (h : node.fieldThrough? id = some field) :
    ∃ reference, node.content = .access reference field ∧ reference.correlation? = some id := by
  unfold Expr.fieldThrough? at h
  split at h
  · rename_i reference read hcontent
    split at h
    · rename_i hid
      cases h
      exact ⟨reference, hcontent, hid⟩
    · cases h
  · cases h

theorem fieldFor?_eq_some {node : Expr} {field : Field} (h : d.fieldFor? node = some field) :
    ∃ reference read, node.content = .access reference read ∧
      reference.correlation? = some d.target ∧
      (d.row.find? fun field => field.name = read.name) = some field := by
  obtain ⟨read, hread, hfield⟩ := Option.bind_eq_some_iff.mp h
  obtain ⟨reference, hcontent, hid⟩ := fieldThrough?_eq_some hread
  exact ⟨reference, read, hcontent, hid, hfield⟩

/-! ## Counting along the tree -/

theorem hits_eq (e : Expr) :
    d.hits e = (if (d.fieldFor? e).isSome then [e] else []) ++ e.children.flatMap d.hits := by
  unfold hits
  rw [Expr.walk_eq, List.filter_cons, Expr.walkAll_eq_flatMap, List.filter_flatMap]
  split <;> rfl

theorem misses_eq (e : Expr) :
    d.misses e = (if d.lacks e then [e] else []) ++ e.children.flatMap d.misses := by
  unfold misses
  rw [Expr.walk_eq, List.filter_cons, Expr.walkAll_eq_flatMap, List.filter_flatMap]
  split <;> rfl

theorem correlation?_eq_some {e : Expr} {id : CorrelationId} (h : e.correlation? = some id) :
    ∃ type, e.content = .correlation id type := by
  unfold Expr.correlation? at h
  split at h
  · rename_i type hcontent
    cases h
    exact ⟨type, hcontent⟩
  · cases h

/-- A correlation variable is a leaf, and no access. -/
theorem of_correlation? {e : Expr} {id : CorrelationId} (h : e.correlation? = some id) :
    d.fieldFor? e = none ∧ d.lacks e = false ∧ e.children = [] := by
  obtain ⟨type, hcontent⟩ := correlation?_eq_some h
  simp [fieldFor?, lacks, Expr.fieldThrough?, Expr.children, hcontent, Content.children]

/-- An access over a variable and the variable are all there is to walk through. -/
theorem walk_of_access {e reference : Expr} {field : Field} {id : CorrelationId}
    (hcontent : e.content = .access reference field) (hid : reference.correlation? = some id) :
    e.walk = [e, reference] := by
  obtain ⟨type, hvariable⟩ := correlation?_eq_some hid
  have hone : e.children = [reference] := congrArg Content.children hcontent
  have hleaf : reference.children = [] := congrArg Content.children hvariable
  rw [Expr.walk_eq, hone, Expr.walkAll_eq_flatMap, List.flatMap_singleton, Expr.walk_eq, hleaf]
  rfl

/-- An access to be replaced is one over the variable. -/
theorem walk_of_fieldFor? {e : Expr} {field : Field} (h : d.fieldFor? e = some field) :
    ∃ reference read type, e.content = .access reference read ∧
      reference.content = .correlation d.target type ∧ e.walk = [e, reference] := by
  obtain ⟨reference, read, hcontent, hid, -⟩ := fieldFor?_eq_some h
  obtain ⟨type, hvariable⟩ := correlation?_eq_some hid
  exact ⟨reference, read, type, hcontent, hvariable, walk_of_access hcontent hid⟩

theorem hits_of_correlation? {e : Expr} {id : CorrelationId} (h : e.correlation? = some id) :
    d.hits e = [] ∧ d.misses e = [] := by
  obtain ⟨hfield, hlacks, hchildren⟩ := of_correlation? (d := d) h
  constructor
  · rw [hits_eq, hfield, hchildren]
    rfl
  · rw [misses_eq, hlacks, hchildren]
    rfl

/-- An access to be replaced is all that is to be replaced in it, and nothing in it is missing. -/
theorem of_fieldFor? {e : Expr} {field : Field} (h : d.fieldFor? e = some field) :
    d.hits e = [e] ∧ d.misses e = [] := by
  obtain ⟨reference, read, hcontent, hid, -⟩ := fieldFor?_eq_some h
  obtain ⟨hhits, hmisses⟩ := hits_of_correlation? (d := d) hid
  have hone : e.children = [reference] := congrArg Content.children hcontent
  constructor
  · rw [hits_eq, h, hone, List.flatMap_singleton, hhits]
    rfl
  · have hnot : d.lacks e = false := by simp [lacks, h]
    rw [misses_eq, hnot, hone, List.flatMap_singleton, hmisses]
    rfl

theorem hits_child_of_fieldFor? {e c : Expr} {field : Field} (h : d.fieldFor? e = some field)
    (hc : c ∈ e.children) : d.hits c = [] := by
  obtain ⟨reference, read, hcontent, hid, -⟩ := fieldFor?_eq_some h
  have hone : e.children = [reference] := congrArg Content.children hcontent
  rw [hone, List.mem_singleton] at hc
  rw [hc]
  exact (hits_of_correlation? hid).1

theorem Substituted.eq_of_hits_nil {e new : Expr} (h : d.Substituted e new)
    (hnone : d.hits e = []) : new = e := by
  cases h with
  | kept _ => rfl
  | replaced hfield id =>
    rw [(of_fieldFor? hfield).1] at hnone
    cases hnone
  | call _ hbelow _ _ => exact absurd hnone hbelow
  | access _ _ hbelow _ _ => exact absurd hnone hbelow

/-! ## The traversal -/

/-- What is done about one node, from `fieldFor?` and `lacks` alone. -/
theorem answer_run (d : Decorrelator) (node : Expr) (s : Session) :
    (d.answer node).run s =
      match d.fieldFor? node with
      | some field =>
        (some (.place s.next (.access d.replacement field)), { s with next := s.next + 1 })
      | none =>
        (none,
          if d.lacks node then { s with warnings := s.warnings ++ [d.warning node] } else s) := by
  cases hread : node.fieldThrough? d.target with
  | none =>
    have hfield : d.fieldFor? node = none := by rw [fieldFor?, hread]; rfl
    have hlacks : d.lacks node = false := by rw [lacks, hread]; rfl
    rw [answer, hread, hfield, hlacks]
    rfl
  | some read =>
    have hfield : d.fieldFor? node = d.field? read.name := by rw [fieldFor?, hread]; rfl
    have hlacks : d.lacks node = (d.field? read.name).isNone := by rw [lacks, hread, hfield]; rfl
    rw [answer, hread, hfield, hlacks]
    cases hfound : d.field? read.name <;> simp only [hfound] <;> rfl

/-- How a pass over `e` goes, from `p` to `p'` with result `new`. -/
structure Outcome (d : Decorrelator) (e : Expr) (p : Pass) (new : Expr) (p' : Pass) : Prop where
  substituted : d.Substituted e new
  fresh : d.hits e ≠ [] → p.session.next ≤ new.id
  next_le : p.session.next ≤ p'.session.next
  warnings_eq : p'.session.warnings = p.session.warnings ++ (d.misses e).map d.warning
  replaced_eq : p'.replaced = p.replaced + (d.hits e).length

/-- How a pass over several expressions goes; all results are the same objects exactly when
    nothing was to be replaced. -/
structure OutcomeAll (d : Decorrelator) (es : List Expr) (p : Pass) (news : List Expr)
    (p' : Pass) : Prop where
  substituted : List.Forall₂ d.Substituted es news
  same_iff : Expr.sameAll news es = true ↔ es.flatMap d.hits = []
  next_le : p.session.next ≤ p'.session.next
  warnings_eq : p'.session.warnings = p.session.warnings ++ (es.flatMap d.misses).map d.warning
  replaced_eq : p'.replaced = p.replaced + (es.flatMap d.hits).length

/-- Results keep their objects exactly where nothing was to be replaced, since new nodes get
    identities that no node had. -/
theorem Outcome.same_iff {e new : Expr} {p p' : Pass} (h : Outcome d e p new p')
    (htaken : e.id < p.session.next) : new.same e = true ↔ d.hits e = [] := by
  unfold Expr.same
  rw [beq_iff_eq]
  constructor
  · intro hid
    by_contra hsome
    have hlt : e.id < new.id := Nat.lt_of_lt_of_le htaken (h.fresh hsome)
    exact Nat.ne_of_gt hlt hid
  · intro hnone
    rw [h.substituted.eq_of_hits_nil hnone]

theorem OutcomeAll.nil (p : Pass) : OutcomeAll d [] p [] p :=
  ⟨.nil, by simp [Expr.sameAll], Nat.le_refl _, by simp, rfl⟩

theorem OutcomeAll.cons {e new : Expr} {es news : List Expr} {p p' p'' : Pass}
    (hs : OutcomeAll d es p' news p'') (h : Outcome d e p new p')
    (htaken : e.id < p.session.next) : OutcomeAll d (e :: es) p (new :: news) p'' where
  substituted := .cons h.substituted hs.substituted
  same_iff := by
    rw [List.flatMap_cons, List.append_eq_nil_iff, ← h.same_iff htaken, ← hs.same_iff,
      Expr.sameAll_cons, Bool.and_eq_true]
  next_le := Nat.le_trans h.next_le hs.next_le
  warnings_eq := by
    rw [hs.warnings_eq, h.warnings_eq, List.flatMap_cons, List.map_append, List.append_assoc]
  replaced_eq := by
    rw [hs.replaced_eq, h.replaced_eq, List.flatMap_cons, List.length_append, Nat.add_assoc]

theorem replaceAll_outcome {es : List Expr}
    (h : ∀ e ∈ es, ∀ p : Pass, (∀ x ∈ e.walk, x.id < p.session.next) →
      Outcome d e p ((e.replace d.answer).run p).1 ((e.replace d.answer).run p).2)
    (p : Pass) (htaken : ∀ e ∈ es, ∀ x ∈ e.walk, x.id < p.session.next) :
    OutcomeAll d es p ((Expr.replaceAll d.answer es).run p).1
      ((Expr.replaceAll d.answer es).run p).2 := by
  induction es generalizing p with
  | nil =>
    rw [Expr.replaceAll, run_pure]
    exact OutcomeAll.nil p
  | cons e es ih =>
    have hfirst := h e List.mem_cons_self p (htaken e List.mem_cons_self)
    have hrest := ih (fun x hx => h x (List.mem_cons_of_mem e hx)) ((e.replace d.answer).run p).2
      fun y hy x hx => Nat.lt_of_lt_of_le (htaken y (List.mem_cons_of_mem e hy) x hx) hfirst.next_le
    rw [Expr.replaceAll]
    simp only [run_bind, run_pure]
    exact hrest.cons hfirst (htaken e List.mem_cons_self e e.self_mem_walk)

/-- The pass once a node that is not replaced was looked at: a warning if its field is missing. -/
def note (d : Decorrelator) (e : Expr) (p : Pass) : Pass :=
  if d.lacks e then
    { p with session := { p.session with warnings := p.session.warnings ++ [d.warning e] } }
  else p

theorem next_note (d : Decorrelator) (e : Expr) (p : Pass) :
    (d.note e p).session.next = p.session.next := by
  unfold note
  split <;> rfl

theorem replaced_note (d : Decorrelator) (e : Expr) (p : Pass) :
    (d.note e p).replaced = p.replaced := by
  unfold note
  split <;> rfl

/-- The warning about a node comes before those about its children. -/
theorem warnings_note (d : Decorrelator) (e : Expr) (p : Pass) :
    (d.note e p).session.warnings ++ (e.children.flatMap d.misses).map d.warning =
      p.session.warnings ++ (d.misses e).map d.warning := by
  rw [misses_eq e]
  unfold note
  split <;> simp

theorem offer_run (d : Decorrelator) (e : Expr) (descend : PassM Expr) (p : Pass) :
    (Expr.offer d.answer e descend).run p =
      match d.fieldFor? e with
      | some field => (.place p.session.next (.access d.replacement field),
          { session := { p.session with next := p.session.next + 1 }, replaced := p.replaced + 1 })
      | none => descend.run (d.note e p) := by
  have hlift : (Pass.lift (d.answer e)).run p =
      (((d.answer e).run p.session).1, { p with session := ((d.answer e).run p.session).2 }) := rfl
  rw [answer_run] at hlift
  unfold note
  simp only [Expr.offer, run_bind, hlift]
  cases d.fieldFor? e with
  | some field => rfl
  | none =>
    simp only
    split <;> rfl

/-! ### One node over its children -/

section Node

variable {e : Expr} {p p' : Pass} {news : List Expr}

theorem Outcome.hit {field : Field} (h : d.fieldFor? e = some field) :
    Outcome d e p (.place p.session.next (.access d.replacement field))
      { session := { p.session with next := p.session.next + 1 }, replaced := p.replaced + 1 } where
  substituted := .replaced h _
  fresh := fun _ => Nat.le_refl p.session.next
  next_le := Nat.le_succ p.session.next
  warnings_eq := by rw [(of_fieldFor? h).2, List.map_nil, List.append_nil]
  replaced_eq := by rw [(of_fieldFor? h).1, List.length_singleton]

theorem hits_of_fieldFor?_none (hnot : d.fieldFor? e = none) :
    d.hits e = e.children.flatMap d.hits := by
  rw [hits_eq e, hnot]
  rfl

/-- The children came back as they were, so the node does. -/
theorem Outcome.unchanged (hnot : d.fieldFor? e = none)
    (h : OutcomeAll d e.children (d.note e p) news p')
    (hsame : Expr.sameAll news e.children = true) : Outcome d e p e p' := by
  have hnone : d.hits e = [] := (hits_of_fieldFor?_none hnot).trans (h.same_iff.mp hsame)
  refine ⟨.kept hnone, fun hsome => absurd hnone hsome, ?_, ?_, ?_⟩
  · rw [← next_note d e p]
    exact h.next_le
  · rw [h.warnings_eq, warnings_note]
  · rw [h.replaced_eq, replaced_note, hits_of_fieldFor?_none hnot]

/-- Some child changed, so the node is placed anew, behind all nodes that were there. -/
theorem Outcome.rebuilt {content : Content Expr} (hnot : d.fieldFor? e = none)
    (h : OutcomeAll d e.children (d.note e p) news p')
    (hsame : ¬ Expr.sameAll news e.children = true)
    (hsubstituted : ∀ id, d.hits e ≠ [] → d.Substituted e (.place id content)) :
    Outcome d e p (.place p'.session.next content)
      { p' with session := { p'.session with next := p'.session.next + 1 } } := by
  have hsome : d.hits e ≠ [] := by
    rw [hits_of_fieldFor?_none hnot]
    exact fun hnone => hsame (h.same_iff.mpr hnone)
  have hnext : p.session.next ≤ p'.session.next := by
    rw [← next_note d e p]
    exact h.next_le
  refine ⟨hsubstituted _ hsome, fun _ => hnext, Nat.le_succ_of_le hnext, ?_, ?_⟩
  · rw [← warnings_note]
    exact h.warnings_eq
  · rw [hits_of_fieldFor?_none hnot, ← replaced_note d e p]
    exact h.replaced_eq

/-- An only child. -/
theorem Outcome.single {new : Expr} (h : Outcome d e p new p') (htaken : e.id < p.session.next) :
    OutcomeAll d [e] p [new] p' :=
  (OutcomeAll.nil p').cons h htaken

end Node

/-- A pass over an expression whose identities are all handed out goes as it should. -/
theorem replace_outcome (d : Decorrelator) (e : Expr) :
    ∀ p : Pass, (∀ x ∈ e.walk, x.id < p.session.next) →
      Outcome d e p ((e.replace d.answer).run p).1 ((e.replace d.answer).run p).2 := by
  induction e using Expr.induction with
  | step e ih =>
    intro p htaken
    have hchildren : ∀ c ∈ e.children, ∀ x ∈ c.walk, x.id < (d.note e p).session.next := by
      intro c hc x hx
      rw [next_note]
      exact htaken x (Expr.mem_walk_of_child hc hx)
    obtain ⟨id, digest, content⟩ := e
    cases content with
    | call operator operands type =>
      have hnot : d.fieldFor? ⟨id, digest, .call operator operands type⟩ = none := rfl
      have hall := replaceAll_outcome ih _ hchildren
      rw [Expr.replace, offer_run, hnot]
      simp only [run_bind]
      split
      · rename_i hsame
        exact Outcome.unchanged hnot hall hsame
      · rename_i hsame
        exact Outcome.rebuilt hnot hall hsame fun id' hbelow =>
          .call rfl hbelow hall.substituted id'
    | access reference field =>
      rw [Expr.replace, offer_run]
      cases hfield : d.fieldFor? ⟨id, digest, .access reference field⟩ with
      | some found => exact Outcome.hit hfield
      | none =>
        have hone := ih reference List.mem_cons_self _ (hchildren reference List.mem_cons_self)
        have hall := hone.single (hchildren reference List.mem_cons_self _ reference.self_mem_walk)
        simp only [run_bind]
        split
        · rename_i hsame
          rw [← Expr.sameAll_singleton] at hsame
          exact Outcome.unchanged hfield hall hsame
        · rename_i hsame
          rw [← Expr.sameAll_singleton] at hsame
          exact Outcome.rebuilt hfield hall hsame fun id' hbelow =>
            .access rfl hfield hbelow hone.substituted id'
    | literal value type =>
      exact Outcome.unchanged rfl (OutcomeAll.nil _) (Expr.sameAll_self [])
    | inputRef index type =>
      exact Outcome.unchanged rfl (OutcomeAll.nil _) (Expr.sameAll_self [])
    | correlation id type =>
      exact Outcome.unchanged rfl (OutcomeAll.nil _) (Expr.sameAll_self [])

/-! ## Node by node -/

/-- What is not replaced says the same, over substituted children. -/
theorem Substituted.content_over {e new : Expr} (h : d.Substituted e new)
    (hnot : d.fieldFor? e = none) : Content.Over d.Substituted e.content new.content := by
  cases h with
  | kept hnone =>
    rw [hits_of_fieldFor?_none hnot, List.flatMap_eq_nil_iff] at hnone
    exact .refl fun c hc => .kept (hnone c hc)
  | replaced hfield id =>
    rw [hnot] at hfield
    cases hfield
  | @call _ operator _ _ type hcontent _ hoperands id =>
    rw [hcontent]
    exact .call operator type hoperands
  | @access _ _ _ field hcontent _ _ hreference id =>
    rw [hcontent]
    exact .access field hreference

/-- Under a node that is not itself replaced, child stands for child. -/
theorem Substituted.children {e new : Expr} (h : d.Substituted e new)
    (hnot : d.fieldFor? e = none) : List.Forall₂ d.Substituted e.children new.children :=
  (h.content_over hnot).children

/-- What an access to be replaced becomes. -/
theorem Substituted.eq_place {e new : Expr} {found : Field} (h : d.Substituted e new)
    (hfound : d.fieldFor? e = some found) :
    ∃ id, new = .place id (.access d.replacement found) := by
  cases h with
  | kept hnone =>
    rw [(of_fieldFor? hfound).1] at hnone
    cases hnone
  | replaced hfield id =>
    rw [hfound] at hfield
    cases hfield
    exact ⟨id, rfl⟩
  | call hcontent _ _ _ =>
    obtain ⟨_, _, haccess, _⟩ := fieldFor?_eq_some hfound
    cases hcontent.symm.trans haccess
  | access _ hnot _ _ _ =>
    rw [hnot] at hfound
    cases hfound

/-- Variables stay where they are, and nothing becomes one. -/
theorem Substituted.correlation?_eq {e new : Expr} (h : d.Substituted e new) :
    new.correlation? = e.correlation? := by
  unfold Expr.correlation?
  cases hfield : d.fieldFor? e with
  | some found =>
    obtain ⟨id, rfl⟩ := h.eq_place hfield
    obtain ⟨reference, read, hcontent, -⟩ := fieldFor?_eq_some hfield
    rw [hcontent]
    rfl
  | none =>
    have hover := h.content_over hfield
    generalize e.content = content, new.content = content' at hover
    cases hover <;> rfl

/-- What is not replaced reads the same field over the same variable, if it does so at all. -/
theorem Substituted.fieldThrough?_eq {e new : Expr} (h : d.Substituted e new)
    (hnot : d.fieldFor? e = none) (id : CorrelationId) :
    new.fieldThrough? id = e.fieldThrough? id := by
  unfold Expr.fieldThrough?
  have hover := h.content_over hnot
  generalize e.content = content, new.content = content' at hover
  cases hover with
  | access field hreference => simp only [hreference.correlation?_eq]
  | literal _ _ | inputRef _ _ | correlation _ _ | call _ _ _ => rfl

/-- What is not replaced is not replaced by another decorrelator afterwards unless it would have
    been before. -/
theorem Substituted.fieldFor?_eq {e new : Expr} (h : d.Substituted e new)
    (hnot : d.fieldFor? e = none) (other : Decorrelator) :
    other.fieldFor? new = other.fieldFor? e := by
  simp only [fieldFor?, h.fieldThrough?_eq hnot]

/-- What comes of a node whose digest is up to date carries the text of what it says. -/
theorem Substituted.digest_eq_content {e new : Expr} (h : d.Substituted e new)
    (he : e.digest = e.content.digest Expr.digest) :
    new.digest = new.content.digest Expr.digest := by
  cases h with
  | kept _ => exact he
  | replaced _ _ | call _ _ _ _ | access _ _ _ _ _ => rfl

/-- What is not replaced keeps its type. -/
theorem Substituted.type_eq {e new : Expr} (h : d.Substituted e new)
    (hnot : d.fieldFor? e = none) : new.type = e.type :=
  (h.content_over hnot).type_eq

/-- What an access to be replaced becomes has the type of the field read instead. -/
theorem Substituted.type_of_fieldFor? {e new : Expr} {found : Field} (h : d.Substituted e new)
    (hfound : d.fieldFor? e = some found) : new.type = found.type := by
  obtain ⟨id, rfl⟩ := h.eq_place hfound
  rfl

/-- What comes down from results to inputs pair by pair does so for lists of them. -/
theorem forall_iff_of_forall₂ {P Q : Expr → Prop} {es news : List Expr}
    (h : List.Forall₂ d.Substituted es news)
    (heach : ∀ e ∈ es, ∀ new, d.Substituted e new → (P new ↔ Q e)) :
    (∀ new ∈ news, P new) ↔ ∀ e ∈ es, Q e := by
  induction h with
  | nil => exact iff_of_true (List.forall_mem_nil _) (List.forall_mem_nil _)
  | @cons e new es news hfirst _ ih =>
    rw [List.forall_mem_cons, List.forall_mem_cons]
    have hrest := ih fun x hx => heach x (List.mem_cons_of_mem e hx)
    exact and_congr (heach e List.mem_cons_self new hfirst) hrest

/-- And if it comes down pair by pair, what some result has some input has. -/
theorem exists_iff_of_forall₂ {P Q : Expr → Prop} {es news : List Expr}
    (h : List.Forall₂ d.Substituted es news)
    (heach : ∀ e ∈ es, ∀ new, d.Substituted e new → (P new ↔ Q e)) :
    (∃ new ∈ news, P new) ↔ ∃ e ∈ es, Q e := by
  have hnone := forall_iff_of_forall₂ (P := fun new => ¬ P new) (Q := fun e => ¬ Q e) h
    fun e he new hnew => not_congr (heach e he new hnew)
  simpa using not_congr hnone

/-- Lists that come of results and inputs pair by pair are one list when joined. -/
theorem flatMap_eq_of_forall₂ {β : Type} {f g : Expr → List β} {es news : List Expr}
    (h : List.Forall₂ d.Substituted es news)
    (heach : ∀ e ∈ es, ∀ new, d.Substituted e new → f new = g e) :
    news.flatMap f = es.flatMap g := by
  induction h with
  | nil => rfl
  | @cons e new es news hfirst _ ih =>
    rw [List.flatMap_cons, List.flatMap_cons, heach e List.mem_cons_self new hfirst,
      ih fun x hx => heach x (List.mem_cons_of_mem e hx)]

/-- All nodes of the result have `P` exactly when all nodes of the input have `Q`, if this is so
    of each node that stays, for it and what stands for it, and both hold where accesses are
    replaced. -/
theorem Substituted.forall_walk_iff {P Q : Expr → Prop} {e new : Expr} (h : d.Substituted e new)
    (hreplaced : ∀ x ∈ e.walk, ∀ found, d.fieldFor? x = some found → ∀ id,
      (∀ y ∈ (Expr.place id (.access d.replacement found)).walk, P y) ∧ ∀ y ∈ x.walk, Q y)
    (hnode : ∀ x ∈ e.walk, d.fieldFor? x = none → ∀ x', d.Substituted x x' → (P x' ↔ Q x)) :
    (∀ y ∈ new.walk, P y) ↔ ∀ x ∈ e.walk, Q x := by
  induction e using Expr.induction generalizing new with
  | step e ih =>
    cases hfield : d.fieldFor? e with
    | some found =>
      obtain ⟨id, rfl⟩ := h.eq_place hfield
      obtain ⟨hP, hQ⟩ := hreplaced e e.self_mem_walk found hfield id
      exact iff_of_true hP hQ
    | none =>
      have hchildren := forall_iff_of_forall₂ (h.children hfield) fun c hc c' hc' =>
        ih c hc hc' (fun x hx => hreplaced x (Expr.mem_walk_of_child hc hx))
          fun x hx => hnode x (Expr.mem_walk_of_child hc hx)
      rw [Expr.forall_walk_iff, Expr.forall_walk_iff]
      exact and_congr (hnode e e.self_mem_walk hfield new h) hchildren

/-- What is picked from the nodes of the result is what is picked from the nodes of the input, if
    this is so of each node that stays, and of what is put in and the access it is put for. -/
theorem Substituted.filterMap_walk {β : Type} {f g : Expr → Option β} {e new : Expr}
    (h : d.Substituted e new)
    (hreplaced : ∀ x ∈ e.walk, ∀ found, d.fieldFor? x = some found → ∀ id,
      (Expr.place id (.access d.replacement found)).walk.filterMap f = x.walk.filterMap g)
    (hnode : ∀ x ∈ e.walk, d.fieldFor? x = none → ∀ x', d.Substituted x x' → f x' = g x) :
    new.walk.filterMap f = e.walk.filterMap g := by
  induction e using Expr.induction generalizing new with
  | step e ih =>
    cases hfield : d.fieldFor? e with
    | some found =>
      obtain ⟨id, rfl⟩ := h.eq_place hfield
      exact hreplaced e e.self_mem_walk found hfield id
    | none =>
      have hbelow : (Expr.walkAll new.children).filterMap f =
          (Expr.walkAll e.children).filterMap g := by
        rw [Expr.walkAll_eq_flatMap, Expr.walkAll_eq_flatMap, List.filterMap_flatMap,
          List.filterMap_flatMap]
        refine flatMap_eq_of_forall₂ (h.children hfield) fun c hc c' hc' => ?_
        exact ih c hc hc' (fun x hx => hreplaced x (Expr.mem_walk_of_child hc hx))
          fun x hx => hnode x (Expr.mem_walk_of_child hc hx)
      rw [Expr.walk_eq, Expr.walk_eq, List.filterMap_cons, List.filterMap_cons,
        hnode e e.self_mem_walk hfield new h, hbelow]

/-! ## Positions -/

/-- A part without anything to be replaced, and not below anything replaced, is found again at
    the same position, as the same object. -/
theorem Substituted.at?_eq {e new x : Expr} {path : List Nat} (h : d.Substituted e new)
    (hx : e.at? path = some x)
    (habove : ∀ above, above <+: path → (e.at? above).bind d.fieldFor? = none)
    (hnone : d.hits x = []) : new.at? path = some x := by
  induction path generalizing e new with
  | nil =>
    obtain rfl : e = x := Option.some_inj.mp hx
    rw [h.eq_of_hits_nil hnone]
    rfl
  | cons i path ih =>
    obtain ⟨c, hc, hx⟩ := Option.bind_eq_some_iff.mp hx
    have hchildren := h.children (habove [] List.nil_prefix)
    obtain ⟨c', hc', hsubstituted⟩ := getElem?_of_forall₂ hchildren hc
    have hbelow : ∀ above, above <+: path → (c.at? above).bind d.fieldFor? = none := by
      intro above hprefix
      have hstep := habove (i :: above) (List.cons_prefix_cons.mpr ⟨rfl, hprefix⟩)
      rw [Expr.at?_cons, hc] at hstep
      exact hstep
    rw [Expr.at?_cons, hc']
    exact ih hsubstituted hx hbelow

/-! ## Applying a decorrelator -/

theorem decorrelate_ok {e new : Expr} {d' : Decorrelator} {s s' : Session}
    (h : (d.decorrelate e).run s = ((.ok new, d'), s')) :
    (d.apply e).run s = ((new, d'), s') := by
  unfold decorrelate at h
  split at h
  · cases h
  · rw [run_bind] at h
    cases h
    rfl

/-- What comes of decorrelating is the expression with its accesses substituted. -/
theorem substituted_of_decorrelate {e new : Expr} {d' : Decorrelator} {s s' : Session}
    (htaken : ∀ x ∈ e.walk, x.id < s.next)
    (hrun : (d.decorrelate e).run s = ((.ok new, d'), s')) : d.Substituted e new := by
  have hnew : ((e.replace d.answer).run { session := s }).1 = new :=
    congrArg (fun r => r.1.1) (decorrelate_ok hrun)
  have hpass := replace_outcome d e { session := s } htaken
  rw [hnew] at hpass
  exact hpass.substituted

/-- Whatever was counted before, a pass substitutes and adds the number of accesses replaced. -/
theorem apply_from (d : Decorrelator) (m : Nat) {e : Expr} {s : Session}
    (htaken : ∀ x ∈ e.walk, x.id < s.next) :
    ∃ new s', ({ d with replaced := m }.apply e).run s =
      ((new, { d with replaced := m + (d.hits e).length }), s') ∧ d.Substituted e new := by
  let r := (e.replace d.answer).run { session := s }
  have hpass : Outcome d e { session := s } r.1 r.2 := replace_outcome d e { session := s } htaken
  have hcount : r.2.replaced = (d.hits e).length := by rw [hpass.replaced_eq, Nat.zero_add]
  refine ⟨r.1, r.2.session, ?_, hpass.substituted⟩
  rw [← hcount]
  rfl

/-- In a session that has handed out the identities in `e`, as a session has those of all nodes
    made in it, applying a decorrelator substitutes and does nothing else: the count grows by one
    for each access replaced, as often as it occurs; there is one warning for each access to a
    missing field, in the order of the walk; and every part that neither has an access to be
    replaced nor is below one is the very object it was. -/
theorem apply_substitutes (d : Decorrelator) (e : Expr) (s : Session)
    (htaken : ∀ x ∈ e.walk, x.id < s.next) :
    ∃ new s',
      (d.apply e).run s = ((new, { d with replaced := d.replaced + (d.hits e).length }), s') ∧
      d.Substituted e new ∧
      s'.warnings = s.warnings ++
        (d.misses e).map (fun x => .noSuchField x.digest d.replacement.type) ∧
      ∀ path x, e.at? path = some x →
        (∀ above, above <+: path → (e.at? above).bind d.fieldFor? = none) →
        d.hits x = [] → new.at? path = some x := by
  have hpass := replace_outcome d e { session := s } htaken
  have hcount : ((e.replace d.answer).run { session := s }).2.replaced = (d.hits e).length := by
    rw [hpass.replaced_eq, Nat.zero_add]
  refine ⟨_, _, ?_, hpass.substituted, hpass.warnings_eq, fun path x hx habove hnone =>
    hpass.substituted.at?_eq hx habove hnone⟩
  rw [← hcount]
  rfl

/-- A shared sum of two accesses, met twice, beside a null test of a missing field; the replacement
    is the variable itself with another row, and three accesses were replaced before. -/
theorem apply_substitutes_shared :
    let old := DataType.ofColumns [("deptno", .notNull .integer), ("dname", .nullable .varchar)]
    let row := Row.number 0 [("loc", .notNull .varchar), ("deptno", .notNull .bigint)]
    let cor := Expr.place 0 (.correlation ⟨0⟩ old)
    let read := Expr.place 1 (.access cor ⟨"deptno", 0, .notNull .integer⟩)
    let sum := Expr.place 2 (.call .plus [read, read] (.notNull .integer))
    let gone := Expr.place 3 (.access cor ⟨"dname", 1, .nullable .varchar⟩)
    let test := Expr.place 4 (.call .isNull [gone] (.notNull .boolean))
    let input := Expr.place 5 (.inputRef 0 (.notNull .integer))
    let root := Expr.place 7 (.call .and
      [Expr.place 6 (.call .equals [input, sum] (.notNull .boolean)), test, sum]
      (.notNull .boolean))
    let d : Decorrelator := ⟨⟨0⟩, Expr.place 8 (.correlation ⟨0⟩ (.row row)), row, rfl, 3⟩
    (∀ x ∈ root.walk, x.id < 9) ∧ (d.hits root).map Expr.id = [1, 1, 1, 1] ∧
      ∃ new s', (d.apply root).run { next := 9 } = ((new, { d with replaced := 7 }), s') ∧
        d.Substituted root new ∧ s'.warnings = [.noSuchField "$cor0.dname" (.row row)] ∧
        new.at? [0, 0] = some input ∧ new.at? [1] = some test := by
  intro old row cor read sum gone test input root d
  have htaken : ∀ x ∈ root.walk, x.id < ({ next := 9 } : Session).next := by decide
  obtain ⟨new, s', hrun, hsubstituted, hwarnings, hkept⟩ := apply_substitutes d root _ htaken
  refine ⟨htaken, by decide, new, s', hrun, hsubstituted, hwarnings, ?_, ?_⟩
  · have habove : ∀ above ∈ [0, 0].inits, (root.at? above).bind d.fieldFor? = none := by decide
    exact hkept [0, 0] input rfl (fun above hprefix =>
      habove above ((List.mem_inits above _).mpr hprefix)) rfl
  · have habove : ∀ above ∈ [1].inits, (root.at? above).bind d.fieldFor? = none := by decide
    exact hkept [1] test rfl (fun above hprefix =>
      habove above ((List.mem_inits above _).mpr hprefix)) rfl

end RowExpr.Decorrelator
