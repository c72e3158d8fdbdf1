import ServiceCheck.FaultFlow.Report
import ServiceCheck.Proofs.FaultFlow.Reading
import ServiceCheck.Proofs.Verification.Wording

set_option autoImplicit false

namespace ServiceCheck

open Dictionary (mapValues)

def FaultRole.bare : FaultRole → FaultRole
  | .throws fault => .throws fault
  | .opens body => .opens body.bare
  | .solicits operation port => .solicits operation port
  | .installs handlers => .installs (mapValues Statement.bare handlers)
  | .calls procedure => .calls procedure
  | .reads parts => .reads (parts.map Statement.bare)

theorem Statement.faultRole_bare (s : Statement) : s.bare.faultRole = s.faultRole.bare := by
  cases s
  case conditional position branches otherwise =>
    cases otherwise <;> simp [bare, faultRole, FaultRole.bare]
  all_goals
    simp [bare, faultRole, FaultRole.bare, List.flatMap_map, List.map_flatMap]

namespace FaultFlow

variable (ports : Dictionary OutputPort)

theorem solicit_bare (current : Nat) (operation port : String) (w : FaultFlow) :
    w.solicit (mapValues Port.bare ports) current operation port =
      w.solicit ports current operation port := by
  simp only [solicit, Dictionary.get?_mapValues]
  cases Dictionary.get? ports port with
  | none => rfl
  | some p =>
    simp only [Option.map_some, Option.bind_some, Port.findOperation?_bare]
    cases p.findOperation? operation <;> simp

theorem visit_bare (call : CallRule) (s : Statement) (current : Nat) (w : FaultFlow) :
    visit (mapValues Port.bare ports) call current s.bare w = visit ports call current s w := by
  induction s using Statement.inner_induction generalizing current w with
  | step s ih =>
    rw [visit_eq, visit_eq, Statement.faultRole_bare]
    cases h : s.faultRole with
    | throws => rfl
    | opens body =>
      have hbody := ih body (by simp [h, FaultRole.inner])
      simp only [FaultRole.bare, within, hbody]
    | solicits => exact solicit_bare ports ..
    | installs handlers =>
      have hkeys : (mapValues Statement.bare handlers).map (·.1) = handlers.map (·.1) :=
        Dictionary.keys_mapValues Statement.bare handlers
      simp only [FaultRole.bare, hkeys]
      rw [Dictionary.foldl_mapValues]
      refine List.foldl_ext _ _ _ fun v handler hmem => ?_
      have hhandler := ih handler.2 (h ▸ List.mem_map_of_mem hmem)
      simp only [within, hhandler]
    | calls => rfl
    | reads parts =>
      simp only [FaultRole.bare, List.foldl_map]
      exact List.foldl_ext _ _ _ fun v part hmem => ih part (h ▸ hmem) current v

theorem readUpTo_bare (procedures : Dictionary Procedure) (budget : Nat) (reading : List String)
    (current : Nat) (s : Statement) (w : FaultFlow) :
    readUpTo (mapValues Port.bare ports) (mapValues Procedure.bare procedures) budget reading
        current s.bare w =
      readUpTo ports procedures budget reading current s w := by
  have hbare : Dictionary.Alike (fun p q => p.id = q.id ∧ q.body = p.body.bare) procedures
      (mapValues Procedure.bare procedures) := by
    refine ⟨(Dictionary.length_mapValues ..).symm, fun key => ?_⟩
    rw [Dictionary.get?_mapValues]
    cases Dictionary.get? procedures key with
    | none => exact .none
    | some p => exact .some ⟨rfl, rfl⟩
  refine (readUpTo_congr (R := fun s t => t = s.bare) hbare (fun call s t hst current w => ?_)
    budget reading current rfl w).symm
  rw [hst, visit_bare]

end FaultFlow

namespace Program

variable (p : Program)

@[simp] theorem callable_bare : p.bare.callable = mapValues Procedure.bare p.callable := by
  have hfilter : p.bare.procedures.filter (!·.isMain) =
      (p.procedures.filter (!·.isMain)).map Procedure.bare := by
    rw [procedures_bare, List.filter_map]
    rfl
  rw [callable, hfilter]
  exact Dictionary.foldl_setNew_mapValues (f := Procedure.bare) (fun _ => rfl) _ []

@[simp] theorem firstOutputPorts_bare :
    p.bare.firstOutputPorts = mapValues Port.bare p.firstOutputPorts := by
  rw [firstOutputPorts, outputPorts_bare]
  exact Dictionary.foldl_setNew_mapValues (f := Port.bare) (fun _ => rfl) _ []

theorem readMain_bare (current : Nat) (s : Statement) (w : FaultFlow) :
    p.bare.readMain current s.bare w = p.readMain current s w := by
  simp only [readMain, callable_bare, firstOutputPorts_bare, Dictionary.length_mapValues,
    FaultFlow.readUpTo_bare]

theorem readBranches_bare (trees : List ServedTree) (branches : List (Statement × Statement))
    (w : FaultFlow) :
    p.bare.readBranches trees (branches.map fun branch => (branch.1.bare, branch.2.bare)) w =
      p.readBranches trees branches w := by
  induction branches generalizing trees w with
  | nil => rfl
  | cons branch rest ih =>
    simp only [List.map_cons, readBranches, Statement.inputOperation?_bare, readMain_bare, ih]

theorem readBody_bare (body : Statement) : p.bare.readBody body.bare = p.readBody body := by
  cases body
  case inputChoice position branches =>
    simp only [Statement.bare, readBody, Statement.bareInputBranches_eq, readBranches_bare]
  all_goals
    exact congrArg (Prod.mk _) (p.readMain_bare 0 _ _)

theorem servedOperation?_bare (operation : String) :
    p.bare.servedOperation? operation =
      (p.servedOperation? operation).map Operation.bare := by
  have hreply : ∀ o : Operation, o.bare.reply.isSome = o.reply.isSome := by
    simp [Operation.bare]
  have hfound : p.bare.inputPorts.findSome? (·.findOperation? operation) =
      (p.inputPorts.findSome? (·.findOperation? operation)).map Operation.bare := by
    rw [inputPorts_bare, List.findSome?_map, List.map_findSome?]
    exact congrFun (congrArg List.findSome? (funext fun port => by simp)) p.inputPorts
  rw [servedOperation?, hfound, servedOperation?]
  cases p.inputPorts.findSome? (·.findOperation? operation) with
  | none => rfl
  | some o => simp [Option.filter, hreply]

theorem operationFindings_bare (operation : String) (thrown : List ThrownFault) :
    (p.bare.operationFindings operation thrown).map Diagnostic.wording =
      (p.operationFindings operation thrown).map Diagnostic.wording := by
  simp only [operationFindings, servedOperation?_bare]
  cases p.servedOperation? operation with
  | none => rfl
  | some o =>
    simp [unthrownProblems, undeclaredProblems, apply_ite (List.map Diagnostic.wording),
      Function.comp_def]

/-- The lines and faults of a program are those of the bare program. -/
theorem faultReport_bare :
    p.bare.faultReport.lines = p.faultReport.lines ∧
      p.bare.faultReport.thrown = p.faultReport.thrown := by
  have hlines : ∀ r : FaultReport, r.lines =
      (r.diagnostics.map Diagnostic.wording).map (FaultReport.linePrelude ++ ·.message) := by
    intro r
    rw [List.map_map]
    rfl
  have hmain : p.bare.procedures.find? (·.isMain) =
      (p.procedures.find? (·.isMain)).map Procedure.bare := by
    rw [procedures_bare, List.find?_map]
    rfl
  rw [hlines, hlines]
  simp only [faultReport, hmain]
  cases p.procedures.find? (·.isMain) with
  | none => exact ⟨rfl, rfl⟩
  | some main =>
    have hbody : p.bare.readBody main.bare.body = p.readBody main.body := p.readBody_bare main.body
    simp [hbody, List.map_flatMap, operationFindings_bare]

end Program

end ServiceCheck
