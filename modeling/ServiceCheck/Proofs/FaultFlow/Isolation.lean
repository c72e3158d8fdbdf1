import Mathlib.Data.List.Basic
import ServiceCheck.Program.Construction
import ServiceCheck.Proofs.FaultFlow.Escaping
import ServiceCheck.Proofs.Verification.InForce
import ServiceCheck.Proofs.Verification.Registration

/-!
Operations are analysed apart from each other. The report of a program is put together, operation
by operation, of what the statements serving each of them let through. So it consists of the
reports of programs that serve a single operation, whatever the other branches hold.
-/

set_option autoImplicit false

namespace ServiceCheck

namespace Statement

/-- The operations that a main body serves, each once and in the order of their first guards. -/
def servedOperations : Statement → List String
  | .inputChoice _ branches =>
    firstNamed id [] (branches.filterMap fun branch => branch.1.inputOperation?)
  | .requestResponse _ operation _ _ _ => [operation]
  | _ => []

/-- An input choice with nothing left but the first branch that receives the operation. -/
def keepFirst (operation : String) : Statement → Statement
  | .inputChoice position branches =>
    .inputChoice position
      (branches.find? (·.1.inputOperation? = some operation)).toList
  | s => s

end Statement

namespace Program

def escapingFrom (p : Program) (operation : String) : List ThrownFault :=
  ((p.servedBranch? operation).map fun parts => (p.mainEffects parts).passedByRoot).getD []

theorem filterMap_operation_readBranches (p : Program) (rest : List (Statement × Statement))
    (trees : List ServedTree) (w : FaultFlow) :
    (p.readBranches trees rest w).1.filterMap (·.operation) =
      trees.filterMap (·.operation) ++
        firstNamed id (trees.filterMap (·.operation))
          (rest.filterMap fun branch => branch.1.inputOperation?) := by
  induction rest generalizing trees w with
  | nil => simp [readBranches, firstNamed]
  | cons branch rest ih =>
    obtain ⟨guard, body⟩ := branch
    rw [readBranches]
    cases hop : guard.inputOperation? with
    | none => simp [hop, ih]
    | some operation =>
      have hserved : (trees.any (·.operation = some operation)) = true ↔
          operation ∈ trees.filterMap (·.operation) := by
        simp
      simp only [List.filterMap_cons, hop, firstNamed, id_eq]
      by_cases hmem : operation ∈ trees.filterMap (·.operation)
      · rw [if_pos (by simpa using hserved.mpr hmem), if_pos hmem, ih]
      · rw [if_neg (by simpa using mt hserved.mp hmem), if_neg hmem, ih, List.filterMap_append,
          List.append_assoc]
        refine congrArg (_ ++ operation :: ·) (firstNamed_congr fun key => ?_)
        simp [or_comm]

theorem operations_readBody (p : Program) (body : Statement) :
    (p.readBody body).1.filterMap (·.operation) = body.servedOperations := by
  cases body
  case inputChoice position branches => exact p.filterMap_operation_readBranches branches [] .start
  all_goals rfl

theorem nodup_servedOperations (body : Statement) : body.servedOperations.Nodup := by
  cases body
  case inputChoice position branches =>
    have hnodup := @nodup_firstNamed _ id [] (branches.filterMap fun b => b.1.inputOperation?)
    rwa [List.map_id] at hnodup
  all_goals simp [Statement.servedOperations]

theorem find?_tree {trees : List ServedTree} (hnodup : (trees.filterMap (·.operation)).Nodup)
    {tree : ServedTree} (h : tree ∈ trees) {operation : String}
    (hop : tree.operation = some operation) :
    trees.find? (·.operation = some operation) = some tree := by
  induction trees with
  | nil => cases h
  | cons first rest ih =>
    rcases List.mem_cons.mp h with rfl | hrest
    · simp [hop]
    · have hin : operation ∈ rest.filterMap (·.operation) :=
        List.mem_filterMap.mpr ⟨tree, hrest, hop⟩
      have hne : first.operation ≠ some operation := fun heq => by
        rw [List.filterMap_cons_some heq] at hnodup
        exact (List.nodup_cons.mp hnodup).1 hin
      have hrestNodup : (rest.filterMap (·.operation)).Nodup :=
        hnodup.sublist ((List.sublist_cons_self first rest).filterMap _)
      simp [hne, ih hrestNodup hrest]

/-- No operation has two trees, so that each tree is the first of its operation. -/
theorem Served.escaping_eq {p : Program} {served : String → Option (List Statement)}
    {trees : List ServedTree} {f : ScopeForest} (h : p.Served served trees f)
    (hnodup : (trees.filterMap (·.operation)).Nodup) :
    escaping trees (trees.foldl (fun g tree => g.resolve tree.scope) f) =
      (trees.filterMap (·.operation)).map fun operation =>
        (operation,
          ((served operation).map fun parts => (p.mainEffects parts).passedByRoot).getD []) := by
  rw [escaping, List.map_filterMap]
  refine List.filterMap_congr fun tree htree => ?_
  cases hop : tree.operation with
  | none => rfl
  | some operation =>
    have hthrown := h.thrown_resolved operation
    rw [find?_tree hnodup htree hop, Option.map_some] at hthrown
    simp only [Option.map_some, ← hthrown, Option.getD_some]

variable {p : Program} {main : Procedure}

theorem faultReport_of_main (hmain : p.procedures.find? (·.isMain) = some main) :
    p.faultReport.thrown = (main.body.servedOperations.map fun operation =>
      (operation, ThrownFault.names (p.escapingFrom operation))) ∧
    p.faultReport.diagnostics = main.body.servedOperations.flatMap fun operation =>
      p.operationFindings operation (p.escapingFrom operation) := by
  have hescaping := (p.served_readBody main.body).escaping_eq
    (by rw [operations_readBody]; exact nodup_servedOperations main.body)
  have hserved : ∀ operation, p.servedBranch? operation = servedBy operation main.body :=
    fun operation => by rw [servedBranch?, hmain, Option.bind_some]
  rw [operations_readBody] at hescaping
  unfold faultReport
  simp only [hmain, hescaping, escapingFrom, hserved, List.map_map, List.flatMap_map]
  exact ⟨rfl, trivial⟩

def keepFirstIfMain? (operation : String) : Declaration → Option Declaration
  | .procedure q =>
    if q.isMain then some (.procedure { q with body := q.body.keepFirst operation }) else none
  | _ => none

def servingOnly (p : Program) (operation : String) : Program :=
  { p with declarations := p.declarations.replaceF (keepFirstIfMain? operation) }

section ServingOnly

variable (operation : String)

/-- The main procedure that counts stands behind declarations of other kinds and names. -/
theorem exists_split_main {ds : List Declaration}
    (hmain : (ds.filterMap Declaration.procedure?).find? (·.isMain) = some main) :
    ∃ before after, ds = before ++ .procedure main :: after ∧
      ds.replaceF (keepFirstIfMain? operation) =
        before ++ .procedure { main with body := main.body.keepFirst operation } :: after ∧
      (before.filterMap Declaration.procedure?).find? (·.isMain) = none := by
  induction ds with
  | nil => cases hmain
  | cons d rest ih =>
    have hskip : keepFirstIfMain? operation d = none →
        (d.procedure?.toList.find? (·.isMain)) = none →
        (rest.filterMap Declaration.procedure?).find? (·.isMain) = some main →
        ∃ before after, d :: rest = before ++ .procedure main :: after ∧
          (d :: rest).replaceF (keepFirstIfMain? operation) =
            before ++ .procedure { main with body := main.body.keepFirst operation } :: after ∧
          (before.filterMap Declaration.procedure?).find? (·.isMain) = none := by
      intro hkeep hnone hrest
      obtain ⟨before, after, rfl, hreplaced, hbefore⟩ := ih hrest
      refine ⟨d :: before, after, rfl, ?_, ?_⟩
      · rw [List.replaceF_cons_of_none _ hkeep, hreplaced, List.cons_append]
      · rw [← hnone]
        cases hd : d.procedure? <;> simp_all
    cases d
    case procedure q =>
      by_cases hq : q.isMain = true
      · obtain rfl : q = main := by simpa [Declaration.procedure?, hq] using hmain
        exact ⟨[], rest, rfl, List.replaceF_cons_of_some _ (by simp [keepFirstIfMain?, hq]), rfl⟩
      · refine hskip (by simp [keepFirstIfMain?, hq]) (by simp [Declaration.procedure?, hq]) ?_
        simpa [Declaration.procedure?, hq] using hmain
    all_goals exact hskip rfl rfl hmain

variable (hmain : p.procedures.find? (·.isMain) = some main)
include hmain

theorem declarations_servingOnly : ∃ before after,
    p.declarations = before ++ .procedure main :: after ∧
      (p.servingOnly operation).declarations =
        before ++ .procedure { main with body := main.body.keepFirst operation } :: after ∧
      (before.filterMap Declaration.procedure?).find? (·.isMain) = none :=
  exists_split_main operation hmain

theorem inputPorts_servingOnly : (p.servingOnly operation).inputPorts = p.inputPorts := by
  obtain ⟨before, after, hold, hnew, -⟩ := declarations_servingOnly operation hmain
  rw [inputPorts, inputPorts, hnew, hold]
  simp only [List.filterMap_append, List.filterMap_cons]

theorem firstOutputPorts_servingOnly :
    (p.servingOnly operation).firstOutputPorts = p.firstOutputPorts := by
  obtain ⟨before, after, hold, hnew, -⟩ := declarations_servingOnly operation hmain
  rw [firstOutputPorts, firstOutputPorts, outputPorts, outputPorts, hnew, hold]
  simp only [List.filterMap_append, List.filterMap_cons]

theorem isMain_keepFirst :
    Procedure.isMain { main with body := main.body.keepFirst operation } = true :=
  have hid : main.isMain = true := List.find?_some hmain
  hid

theorem callable_servingOnly : (p.servingOnly operation).callable = p.callable := by
  obtain ⟨before, after, hold, hnew, -⟩ := declarations_servingOnly operation hmain
  have hid : main.isMain = true := List.find?_some hmain
  rw [callable, callable, procedures, procedures, hnew, hold]
  simp only [List.filterMap_append, List.filterMap_cons, List.filter_append, List.filter_cons, hid,
    isMain_keepFirst operation hmain, Bool.not_true, Bool.false_eq_true, if_false]

theorem find?_main_servingOnly : (p.servingOnly operation).procedures.find? (·.isMain) =
    some { main with body := main.body.keepFirst operation } := by
  obtain ⟨before, after, -, hnew, hbefore⟩ := declarations_servingOnly operation hmain
  change ((p.servingOnly operation).declarations.filterMap Declaration.procedure?).find? _ = _
  rw [hnew, List.filterMap_append, List.find?_append, hbefore, Option.none_or, List.filterMap_cons]
  exact List.find?_cons_of_pos (isMain_keepFirst operation hmain)

theorem mainEffects_servingOnly (parts : List Statement) :
    (p.servingOnly operation).mainEffects parts = p.mainEffects parts := by
  rw [mainEffects, mainEffects, firstOutputPorts_servingOnly operation hmain,
    callable_servingOnly operation hmain]

theorem operationFindings_servingOnly (served : String) (thrown : List ThrownFault) :
    (p.servingOnly operation).operationFindings served thrown =
      p.operationFindings served thrown := by
  rw [operationFindings, operationFindings, servedOperation?, servedOperation?,
    inputPorts_servingOnly operation hmain]

end ServingOnly

theorem mem_servedOperations_iff {position : Position} {branches : List (Statement × Statement)}
    {operation : String} :
    operation ∈ (Statement.inputChoice position branches).servedOperations ↔
      ∃ branch ∈ branches, branch.1.inputOperation? = some operation := by
  rw [← List.mem_filterMap (f := fun branch : Statement × Statement => branch.1.inputOperation?),
    Statement.servedOperations]
  have hfind :=
    @find?_firstNamed _ id [] (branches.filterMap fun b => b.1.inputOperation?) operation
  rw [if_neg List.not_mem_nil] at hfind
  have hsome := congrArg Option.isSome hfind
  rw [Bool.eq_iff_iff, List.find?_isSome, List.find?_isSome] at hsome
  simpa using hsome

theorem find?_of_served {branches : List (Statement × Statement)} {operation : String}
    (h : ∃ branch ∈ branches, branch.1.inputOperation? = some operation) : ∃ branch,
      branches.find? (·.1.inputOperation? = some operation) = some branch ∧
        branch.1.inputOperation? = some operation := by
  obtain ⟨branch, hfirst⟩ : ∃ branch,
      branches.find? (·.1.inputOperation? = some operation) = some branch := by
    rw [← Option.isSome_iff_exists, List.find?_isSome]
    simpa using h
  exact ⟨branch, hfirst, by simpa using List.find?_some hfirst⟩

/-- The first branch of an operation is the whole report of the program left with it. -/
theorem faultReport_servingOnly (hmain : p.procedures.find? (·.isMain) = some main)
    {position : Position} {branches : List (Statement × Statement)}
    (hbody : main.body = .inputChoice position branches) {operation : String}
    (hserved : operation ∈ main.body.servedOperations) :
    (p.servingOnly operation).faultReport.thrown =
        [(operation, ThrownFault.names (p.escapingFrom operation))] ∧
      (p.servingOnly operation).faultReport.diagnostics =
        p.operationFindings operation (p.escapingFrom operation) := by
  rw [hbody, mem_servedOperations_iff] at hserved
  obtain ⟨branch, hfirst, hreceives⟩ := find?_of_served hserved
  have hkept : main.body.keepFirst operation = .inputChoice position [branch] := by
    rw [hbody, Statement.keepFirst, hfirst, Option.toList_some]
  have honly := find?_main_servingOnly operation hmain
  have hescaping : (p.servingOnly operation).escapingFrom operation = p.escapingFrom operation := by
    simp only [escapingFrom, mainEffects_servingOnly operation hmain]
    rw [servedBranch?, servedBranch?, honly, hmain, Option.bind_some, Option.bind_some, hkept,
      hbody, servedBy, servedBy, hfirst]
    simp [hreceives]
  have hoperations : (main.body.keepFirst operation).servedOperations = [operation] := by
    simp [hkept, Statement.servedOperations, hreceives, firstNamed]
  obtain ⟨hthrown, hdiagnostics⟩ := faultReport_of_main honly
  rw [hthrown, hdiagnostics, hoperations, List.map_singleton, List.flatMap_singleton, hescaping,
    operationFindings_servingOnly operation hmain]
  exact ⟨rfl, rfl⟩

/-- A choice reports its operations one after the other, each exactly as a program reports it in
which the choice has no branch but the first that receives it. -/
theorem faultReport_eq_isolated (p : Program) (main : Procedure)
    (hmain : p.procedures.find? (·.isMain) = some main) (position : Position)
    (branches : List (Statement × Statement)) (hbody : main.body = .inputChoice position branches) :
    p.faultReport.thrown = (main.body.servedOperations.flatMap fun operation =>
      (p.servingOnly operation).faultReport.thrown) ∧
    p.faultReport.diagnostics = (main.body.servedOperations.flatMap fun operation =>
      (p.servingOnly operation).faultReport.diagnostics) ∧
    ∀ operation, (∃ branch ∈ branches, branch.1.inputOperation? = some operation) →
      operation ∈ main.body.servedOperations ∧ ∃ names,
        Dictionary.get? p.faultReport.thrown operation = some names ∧
        (p.servingOnly operation).faultReport.thrown = [(operation, names)] := by
  obtain ⟨hthrown, hdiagnostics⟩ := faultReport_of_main hmain
  have hisolated := fun operation (h : operation ∈ main.body.servedOperations) =>
    faultReport_servingOnly hmain hbody h
  refine ⟨?_, ?_, fun operation hreceived => ?_⟩
  · rw [hthrown, List.map_eq_flatMap]
    exact List.flatMap_congr fun operation h => (hisolated operation h).1.symm
  · rw [hdiagnostics]
    exact List.flatMap_congr fun operation h => (hisolated operation h).2.symm
  · have hserved : operation ∈ main.body.servedOperations := by
      rw [hbody]
      exact mem_servedOperations_iff.mpr hreceived
    obtain ⟨branch, hfirst, -⟩ := find?_of_served hreceived
    have hbranch : p.servedBranch? operation = some [branch.1, branch.2] := by
      rw [servedBranch?, hmain, Option.bind_some, hbody, servedBy, hfirst, Option.map_some]
    refine ⟨hserved, _, ?_, (hisolated operation hserved).1⟩
    rw [get?_reported, escapingFrom, hbranch, Option.map_some, Option.map_some, Option.getD_some]

def shopMain : Procedure :=
  .main (.inputChoice .unknown
    [(.answering "buy" (.throwing "Closed"), .calling "retry"),
      (.answering "sell" .nullprocess, .sequence [.calling "retry", .throwing "Broke"]),
      (.answering "buy" (.throwing "Unread"), .nullprocess)])

def shop : Program :=
  .ofDeclarations
    [.inputPort { InputPort.empty "In" with
        operations := [.requestResponse "buy" "string" "string",
          (Operation.requestResponse "sell" "string" "string").addFault "Broke" "string"] },
      .procedure (.named "retry" (.sequence [.throwing "Busy", .calling "retry"])),
      .procedure shopMain]

theorem faultReport_shop :
    shop.procedures.find? (·.isMain) = some shopMain ∧
      (∃ position branches, shopMain.body = .inputChoice position branches) ∧
      shopMain.body.servedOperations = ["buy", "sell"] ∧
      shop.faultReport.thrown = (["buy", "sell"].flatMap fun operation =>
        (shop.servingOnly operation).faultReport.thrown) ∧
      shop.faultReport.diagnostics = (["buy", "sell"].flatMap fun operation =>
        (shop.servingOnly operation).faultReport.diagnostics) ∧
      (shop.servingOnly "sell").faultReport.thrown = [("sell", ["Busy", "Broke"])] := by
  have hmain : shop.procedures.find? (·.isMain) = some shopMain := rfl
  obtain ⟨hthrown, hdiagnostics, -⟩ := faultReport_eq_isolated shop shopMain hmain _ _ rfl
  have hserved : shopMain.body.servedOperations = ["buy", "sell"] := by decide +kernel
  rw [hserved] at hthrown hdiagnostics
  exact ⟨hmain, ⟨_, _, rfl⟩, hserved, hthrown, hdiagnostics, by decide +kernel⟩

end Program

end ServiceCheck
