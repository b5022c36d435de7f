/-
  What a builder answers after any calls.

  `Builder.after` is the builder behind a list of calls, each made in whatever session.
  `firstAsked?` says from the calls alone what was first asked for with a digest and a type, as
  far as the bound lets the builder remember; `make_after` says that this is what an accepted
  request gets, and that it gets what it asks for itself only where nothing is remembered.
-/
import RowExpr.Proofs.Builder

namespace RowExpr

namespace Builder

/-! ## Histories -/

/-- A request to a builder, and the session in which it is made. -/
structure Call where
  session : Session
  request : Request Expr

/-- The builder behind calls, oldest first. -/
def after (config : Config) (calls : List Call) : Builder :=
  calls.foldl (fun builder call => ((builder.make call.request).run call.session).1.2)
    (start config)

theorem after_concat (config : Config) (calls : List Call) (call : Call) :
    after config (calls ++ [call]) =
      (((after config calls).make call.request).run call.session).1.2 := by
  simp [after, List.foldl_append]

/-- What the accepted calls asked for, oldest first. -/
def asked (config : Config) (calls : List Call) : List (Content Expr) :=
  calls.filterMap fun call => (call.request.content config.caseSensitive).toOption

/-- The first content of each digest and type, at most `capacity` of them. -/
def firstContents (capacity : Nat) (contents : List (Content Expr)) : List (Content Expr) :=
  (firstSeenBy Content.signature contents).take capacity

/-- What was first asked for with this digest and type, if the bound lets it be kept. -/
def firstAsked? (config : Config) (calls : List Call) (signature : String × DataType) :
    Option (Content Expr) :=
  (firstContents config.maxCacheEntries.toNat (asked config calls)).find?
    (·.signature = signature)

theorem asked_concat_error {config : Config} {calls : List Call} {call : Call} {cause : Error}
    (h : call.request.content config.caseSensitive = .error cause) :
    asked config (calls ++ [call]) = asked config calls := by
  simp [asked, List.filterMap_append, h, Except.toOption]

theorem asked_concat_ok {config : Config} {calls : List Call} {call : Call}
    {content : Content Expr} (h : call.request.content config.caseSensitive = .ok content) :
    asked config (calls ++ [call]) = asked config calls ++ [content] := by
  simp [asked, List.filterMap_append, h, Except.toOption]

/-! ## What is kept and what was asked for -/

/-- The nodes kept of those handed out say what was first asked for, in the same order. -/
def Recalls (capacity : Nat) (made : List Expr) (contents : List (Content Expr)) : Prop :=
  (DigestCache.kept capacity made).map (fun e => (e.signature, e.content)) =
    (firstContents capacity contents).map fun content => (content.signature, content)

theorem recalls_nil (capacity : Nat) : Recalls capacity [] [] := by
  have hkept : DigestCache.kept capacity [] = [] := List.take_nil
  have hfirst : firstContents capacity [] = [] := List.take_nil
  rw [Recalls, hkept, hfirst]
  rfl

theorem Recalls.concat {capacity : Nat} {made : List Expr} {contents : List (Content Expr)}
    (h : Recalls capacity made contents) (id : NodeId) (content : Content Expr) :
    Recalls capacity (made ++ [DigestCache.answer capacity made (Expr.place id content)])
      (contents ++ [content]) := by
  have hsignatures : (DigestCache.kept capacity made).map Expr.signature =
      (firstContents capacity contents).map Content.signature := by
    simpa [Function.comp_def] using congrArg (List.map Prod.fst) h
  have hlength : (DigestCache.kept capacity made).length =
      (firstContents capacity contents).length := by
    simpa using congrArg List.length h
  have hcontents := take_firstSeenBy_concat Content.signature capacity contents content
  simp only [← firstContents.eq_1] at hcontents
  unfold Recalls
  rw [DigestCache.kept_concat_answer, DigestCache.kept_concat, Expr.signature_place, hcontents]
  -- both sides grow under the same condition, since they agree on signatures and length
  by_cases hold : content.signature ∈ (DigestCache.kept capacity made).map Expr.signature ∨
      capacity ≤ (DigestCache.kept capacity made).length
  · rw [if_pos hold, if_pos (by rwa [← hsignatures, ← hlength])]
    exact h
  · rw [if_neg hold, if_neg (by rwa [← hsignatures, ← hlength]), List.map_append,
      List.map_append, h]
    rfl

/-- A kept node says what was first asked for with its digest and type. -/
theorem Recalls.find? {capacity : Nat} {made : List Expr} {contents : List (Content Expr)}
    (h : Recalls capacity made contents) (signature : String × DataType) :
    ((DigestCache.kept capacity made).find? (·.signature = signature)).map Expr.content =
      (firstContents capacity contents).find? (·.signature = signature) := by
  have hfind := congrArg
    (fun pairs => (pairs.find? fun pair => pair.1 = signature).map Prod.snd) h
  simpa [List.find?_map, Function.comp_def] using hfind

/-- Behind any calls a builder has its settings, has handed out some nodes and, if it shares,
    keeps of them what was first asked for. -/
theorem exists_made (config : Config) (calls : List Call) :
    (after config calls).config = config ∧
      ∃ made, (after config calls).HasMade made ∧
        (config.shareCommonSubexpressions = true →
          Recalls config.maxCacheEntries.toNat made (asked config calls)) := by
  induction calls using List.reverseRecOn with
  | nil => exact ⟨rfl, [], hasMade_start config, fun _ => recalls_nil _⟩
  | append_singleton calls call ih =>
    obtain ⟨hconfig, made, hmade, hrecalls⟩ := ih
    rw [after_concat]
    cases hc : call.request.content config.caseSensitive with
    | error cause =>
      rw [asked_concat_error hc]
      rw [← hconfig] at hc
      rw [make_error call.session hc]
      exact ⟨hconfig, made, hmade, hrecalls⟩
    | ok content =>
      rw [asked_concat_ok hc]
      rw [← hconfig] at hc
      obtain ⟨builder', s', hrun, -, hconfig', hmade'⟩ := make_run hmade hc call.session
      rw [hrun]
      refine ⟨hconfig'.trans hconfig, _, hmade', fun hshare => ?_⟩
      rw [hconfig, handOut, if_pos hshare]
      exact (hrecalls hshare).concat call.session.next content

/-- An accepted request always gets a node. It has the digest and the type asked for, and says
    what was first asked for with them, if nodes are shared and that is kept. -/
theorem make_after (config : Config) (calls : List Call) {request : Request Expr}
    {content : Content Expr} (hc : request.content config.caseSensitive = .ok content)
    (session : Session) :
    ∃ node, (((after config calls).make request).run session).1.1 = .ok node ∧
      node.signature = content.signature ∧
      node.content =
        if config.shareCommonSubexpressions then
          (firstAsked? config calls content.signature).getD content
        else content := by
  obtain ⟨hconfig, made, hmade, hrecalls⟩ := exists_made config calls
  rw [← hconfig] at hc
  obtain ⟨builder', s', hrun, -⟩ := make_run hmade hc session
  rw [hconfig] at hrun
  refine ⟨_, congrArg (·.1.1) hrun, signature_handOut _ _ _, ?_⟩
  unfold handOut
  split
  next hshare =>
    unfold DigestCache.answer firstAsked?
    rw [← (hrecalls hshare).find?, Expr.signature_place]
    exact (Option.getD_map Expr.content (Expr.place session.next content) _).symm
  next => rfl

end Builder

end RowExpr
