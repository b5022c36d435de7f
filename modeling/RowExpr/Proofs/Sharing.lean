/-
  Maximal sharing.

  A builder that shares nodes and never runs out of room hands out one object for each digest
  and type. `exec_make_shared` is the step: one more request keeps `Shared`. `run_shared` takes
  it through a script, and `same_iff_of_room` reads off that nodes at any depth are one object
  exactly when their digests and types agree.
-/
import RowExpr.Proofs.Workbench

namespace RowExpr.Workbench

/-- A new builder and a script of requests to it; a request names nodes by the numbers of the
    requests that got them. -/
def ask (config : Config) (session : Session) (requests : List (Request SlotId)) :
    List (Except Refusal Reply) :=
  (run (requests.map .make) { builder := .start config, session }).1

/-- One more request keeps all shared, as long as every signature so far is kept. -/
theorem exec_make_shared {bench : Workbench} (hmade : bench.builder.HasMade bench.nodes)
    (hshared : Shared bench.nodes bench.session.next)
    (hshare : bench.builder.config.shareCommonSubexpressions = true)
    (hroom : (firstSeenBy Expr.signature bench.nodes).length ≤
      bench.builder.config.maxCacheEntries.toNat)
    (request : Request SlotId) :
    ∃ answer after, exec (.make request) bench = (answer, after) ∧
      after.nodes = bench.nodes ++ obtained [answer] ∧
      after.builder.config = bench.builder.config ∧
      after.builder.HasMade after.nodes ∧ Shared after.nodes after.session.next := by
  obtain ⟨answer, after, hexec, hnodes, hconfig, hafter, hcase⟩ :=
    exec_make_obtained hmade request
  refine ⟨answer, after, hexec, hnodes, hconfig, hafter, ?_⟩
  rw [hnodes]
  rcases hcase with ⟨hnone, hsession⟩ | ⟨resolved, content, hc, hchildren, hone, hnext⟩
  · rw [hnone, hsession, List.append_nil]
    exact hshared
  · rw [hone, hnext]
    exact hshared.concat hshare hroom hchildren

/-- A whole script keeps all shared, as long as there is room for every signature met. -/
theorem run_shared (requests : List (Request SlotId)) {bench : Workbench}
    (hmade : bench.builder.HasMade bench.nodes)
    (hshared : Shared bench.nodes bench.session.next)
    (hshare : bench.builder.config.shareCommonSubexpressions = true)
    (hroom : (firstSeenBy Expr.signature
        (bench.nodes ++ obtained (run (requests.map .make) bench).1)).length ≤
      bench.builder.config.maxCacheEntries.toNat) :
    ∃ next, Shared (bench.nodes ++ obtained (run (requests.map .make) bench).1) next := by
  induction requests generalizing bench with
  | nil =>
    refine ⟨bench.session.next, ?_⟩
    show Shared (bench.nodes ++ []) _
    rw [List.append_nil]
    exact hshared
  | cons request requests ih =>
    -- signatures only get more, so room at the end is room now
    obtain ⟨answer, after, hexec, hnodes, hconfig, hmade', hshared'⟩ :=
      exec_make_shared hmade hshared hshare
        (Nat.le_trans (length_firstSeenBy_le_append _ _ _) hroom) request
    have hall : bench.nodes ++ obtained (run ((request :: requests).map .make) bench).1 =
        after.nodes ++ obtained (run (requests.map .make) after).1 := by
      rw [hnodes, List.append_assoc, List.map_cons, obtained_run_cons hexec]
    rw [hall] at hroom ⊢
    rw [← hconfig] at hshare hroom
    exact ih hmade' hshared' hshare hroom

/-- Of the nodes that a sharing builder with room for all of them made, at any depth, two are
    one object exactly when their digests and their types are equal. -/
theorem same_iff_of_room {config : Config} {session : Session}
    {requests : List (Request SlotId)} (hshare : config.shareCommonSubexpressions = true)
    (hroom : (firstSeenBy Expr.signature (obtained (ask config session requests))).length ≤
      config.maxCacheEntries.toNat)
    {x y : Expr} (hx : x ∈ Expr.walkAll (obtained (ask config session requests)))
    (hy : y ∈ Expr.walkAll (obtained (ask config session requests))) :
    x.same y = true ↔ x.digest = y.digest ∧ x.type = y.type := by
  let bench : Workbench := { builder := .start config, session }
  have hmade : bench.builder.HasMade bench.nodes := Builder.hasMade_start config
  have hnone : Shared bench.nodes bench.session.next := Shared.nil session.next
  obtain ⟨next, hshared⟩ := run_shared requests hmade hnone hshare hroom
  exact hshared.same_iff hx hy

/-- A field is asked for by name and by position, and then tested for null: there is room for
    the three nodes. -/
theorem same_iff_of_room_dept :
    let dept := DataType.ofColumns [("deptno", .notNull .integer)]
    let config : Config := { maxCacheEntries := 3 }
    let requests : List (Request SlotId) :=
      [.correlation ⟨0⟩ dept, .field 0 "deptno", .fieldAt 0 0, .call .isNull [2]]
    let cor := Expr.place 0 (.correlation ⟨0⟩ dept)
    let deptno := Expr.place 1 (.access cor ⟨"deptno", 0, .notNull .integer⟩)
    let test := Expr.place 3 (.call .isNull [deptno] (.notNull .boolean))
    obtained (ask config {} requests) = [cor, deptno, deptno, test] ∧
      (deptno.same test = true ↔ deptno.digest = test.digest ∧ deptno.type = test.type) ∧
      (deptno.same deptno = true ↔
        deptno.digest = deptno.digest ∧ deptno.type = deptno.type) := by
  intro dept config requests cor deptno test
  have hmade : obtained (ask config {} requests) = [cor, deptno, deptno, test] := by
    subst requests cor deptno test config dept
    rfl
  have hroom : (firstSeenBy Expr.signature (obtained (ask config {} requests))).length ≤
      config.maxCacheEntries.toNat := by
    rw [hmade]
    decide
  have hdeptno : deptno ∈ Expr.walkAll (obtained (ask config {} requests)) := by
    rw [hmade]
    exact List.mem_cons_of_mem _ List.mem_cons_self
  have htest : test ∈ Expr.walkAll (obtained (ask config {} requests)) := by
    rw [hmade]
    exact List.mem_append_right [cor] (List.mem_append_right [deptno, cor]
      (List.mem_append_right [deptno, cor] List.mem_cons_self))
  exact ⟨hmade, same_iff_of_room rfl hroom hdeptno htest,
    same_iff_of_room rfl hroom hdeptno hdeptno⟩

end RowExpr.Workbench
