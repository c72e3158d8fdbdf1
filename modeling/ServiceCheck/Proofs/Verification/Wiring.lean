import ServiceCheck.Proofs.Verification.BranchesAround
import ServiceCheck.Proofs.Verification.Ending
import ServiceCheck.Proofs.Verification.InForce
import ServiceCheck.Proofs.Verification.Kinds

set_option autoImplicit false

namespace ServiceCheck

inductive Wire where
  | call (position : Position) (procedure : String)
  | output (position : Position) (operation port : String) (used : OperationKind)
  | forward (position : Position) (port : String)
deriving DecidableEq, Repr

def Statement.wire? : Statement → Option Wire
  | .call position procedure => some (.call position procedure)
  | .notification position operation port _ => some (.output position operation port .oneWay)
  | .solicitResponse position operation port _ _ =>
    some (.output position operation port .requestResponse)
  | .notificationForward position port _ | .solicitResponseForward position port _ _ =>
    port.map (.forward position)
  | _ => none

def Node.wire? : Node → Option Wire
  | .statement s => s.wire?
  | _ => none

namespace Wire

/-- What is wrong with a wire, some output ports being declared before it. Procedures may be
declared anywhere. Of ports or operations of one name the first counts. -/
def flaw? (procedures : List Procedure) (ports : List OutputPort) : Wire → Option Diagnostic
  | .call position procedure =>
    if procedures.any (·.id = procedure) then none
    else some (.report .undefinedProcedureCall position procedure)
  | .output position operation port used =>
    match ports.find? (·.id = port) with
    | none => some (.report .undefinedOutputPort position port)
    | some p =>
      match p.allOperations.find? (·.id = operation) with
      | none =>
        some ((Diagnostic.report .undeclaredOperation position operation).hint
          ("output port `" ++ port ++ "`"))
      | some declared =>
        if declared.kind = used then none
        else
          some (.report .operationKindMismatch position
            ("operation `" ++ operation ++ "` is declared as " ++ declared.kind.label ++
              " in output port `" ++ port ++ "` but used as " ++ used.label))
  | .forward position port =>
    if ports.any (·.id = port) then none
    else some (.report .undefinedOutputPort position port)

def flawKinds : List DiagnosticKind :=
  [.undefinedProcedureCall, .undefinedOutputPort, .undeclaredOperation, .operationKindMismatch]

end Wire

open Diagnostics Wire

namespace Scene

variable {scene : Scene} {courier : Option OperationKind} {procedures : List Procedure}
  {ports : List OutputPort} {position : Position}

theorem outputProblems_eq (procedures : List Procedure)
    (hports : ∀ name, Dictionary.get? scene.outputPorts name = ports.find? (·.id = name))
    {operation port : String} {used : OperationKind} :
    scene.outputProblems position operation port used =
      (flaw? procedures ports (.output position operation port used)).toList := by
  rw [outputProblems, hports, flaw?]
  cases ports.find? (·.id = port) with
  | none => rfl
  | some p =>
    cases hfound : p.allOperations.find? (·.id = operation) with
    | none => simp only [Port.findOperation?, hfound, Option.toList]
    | some declared =>
      simp only [Port.findOperation?, hfound]
      split <;> rfl

theorem ofKinds_forwardProblems (procedures : List Procedure)
    (hports : ∀ name, Dictionary.get? scene.outputPorts name = ports.find? (·.id = name))
    {used : OperationKind} {port : Option String} :
    ofKinds flawKinds (scene.forwardProblems courier position used port) =
      ((port.map (.forward position)).bind (flaw? procedures ports)).toList := by
  have hcourier : ofKinds flawKinds (scene.forwardProblems courier position used none) = [] := by
    have hwithin : Within [.courierContextError]
        (scene.forwardProblems courier position used none) := by
      cases courier <;> simp [forwardProblems]
    exact hwithin.ofKinds_eq_nil (by decide)
  cases port with
  | none => exact hcourier
  | some port =>
    have hsplit : scene.forwardProblems courier position used (some port) =
        scene.forwardProblems courier position used none ++
          if Dictionary.contains scene.outputPorts port then []
          else [.report .undefinedOutputPort position port] := by
      simp [forwardProblems]
    have hcontains : Dictionary.contains scene.outputPorts port = ports.any (·.id = port) := by
      rw [Dictionary.contains, hports, List.isSome_find?]
    rw [hsplit, ofKinds_append, hcourier, hcontains, Option.map_some, Option.bind_some, flaw?]
    split <;> rfl

theorem ofKinds_statementProblems (hprocedures : scene.procedureNames = procedures.map (·.id))
    (hports : ∀ name, Dictionary.get? scene.outputPorts name = ports.find? (·.id = name))
    (s : Statement) :
    ofKinds flawKinds (scene.statementProblems courier s) =
      (s.wire?.bind (flaw? procedures ports)).toList := by
  have hwithin : Within (statementKinds s) (scene.statementProblems courier s) :=
    within_statementProblems s
  cases s
  case call position procedure =>
    rw [hwithin.ofKinds_eq_self (by simp [statementKinds, flawKinds]), statementProblems,
      hprocedures]
    simp only [Statement.wire?, Option.bind_some, flaw?, List.mem_map, List.any_eq_true,
      decide_eq_true_eq]
    split <;> rfl
  case notification | solicitResponse =>
    rw [hwithin.ofKinds_eq_self (by simp [statementKinds, flawKinds])]
    exact outputProblems_eq procedures hports
  case notificationForward | solicitResponseForward =>
    exact ofKinds_forwardProblems procedures hports
  all_goals exact hwithin.ofKinds_eq_nil (by simp [statementKinds, flawKinds])

theorem ofKinds_problems (hprocedures : scene.procedureNames = procedures.map (·.id))
    (hports : ∀ name, Dictionary.get? scene.outputPorts name = ports.find? (·.id = name))
    (site : Site) :
    ofKinds flawKinds (scene.problems site) =
      (site.node.wire?.bind (flaw? procedures ports)).toList := by
  cases site with
  | statement courier s => exact ofKinds_statementProblems hprocedures hports s
  | path p => exact (within_pathProblems p).ofKinds_eq_nil (by decide)

end Scene

namespace Declaration

def wires (d : Declaration) : List Wire :=
  (d.body?.map fun s => (Node.statement s).written.filterMap Node.wire?).getD []

theorem filterMap_sites (f : Wire → Option Diagnostic) (d : Declaration) :
    d.sites.filterMap (fun site => site.node.wire?.bind f) = d.wires.filterMap f := by
  have hoperand : ∀ x : Node, x.isOperand → x.wire?.bind f = none := by
    intro x hx
    cases x <;> first | rfl | cases hx
  rw [sites, wires]
  cases d.body? with
  | none => rfl
  | some s =>
    rw [Option.map_some, Option.map_some, Option.getD_some, Option.getD_some,
      List.filterMap_filterMap]
    exact Node.filterMap_sites hoperand (fun _ _ => rfl) (.statement s) rfl none

theorem ofKinds_problems {overview : Overview} {t : Tables} {procedures : List Procedure}
    {ports : List OutputPort} (hprocedures : overview.procedureNames = procedures.map (·.id))
    (hports : ∀ name, Dictionary.get? t.outputPorts name = ports.find? (·.id = name))
    (d : Declaration) :
    ofKinds flawKinds (d.problems overview t) = d.wires.filterMap (flaw? procedures ports) := by
  have hhead : ∀ k ∈ d.headKinds, k ∉ flawKinds := by
    cases d <;> simp [headKinds, flawKinds]
  rw [Program.ofKinds_siteProblems overview t d hhead, ← filterMap_sites,
    List.filterMap_eq_flatMap_toList]
  exact List.flatMap_congr fun site _ => Scene.ofKinds_problems hprocedures hports site

end Declaration

namespace Program

/-- The flaws of all wires in document order, each against the output ports that are declared
before the declaration that it stands in. -/
def wiringFlaws (p : Program) : Diagnostics :=
  p.declarations.zipIdx.flatMap fun (d, i) =>
    d.wires.filterMap
      (flaw? p.procedures ((p.declarations.take i).filterMap Declaration.outputPort?))

theorem ofKinds_problems_eq_wiringFlaws (callerTypes : TypeMap) (config : Config) (p : Program) :
    ofKinds flawKinds (p.problems callerTypes config) = p.wiringFlaws := by
  rw [ofKinds_problems _ _ _ (by decide), declarationProblems, Tables.inForce_eq,
    ofKinds_flatMap, List.flatMap_map, wiringFlaws]
  refine List.flatMap_congr fun e _ => Declaration.ofKinds_problems rfl (fun name => ?_) e.1
  rw [Tables.outputPorts_declareAll, Dictionary.get?_foldl_setNew]
  rfl

/-- Of calls, outputs and forwards, exactly the flawed are reported, each once, and a program with
such a flaw is not accepted. -/
theorem wiring_reported_once (callerTypes : TypeMap) (config : Config) (p : Program) :
    ofKinds flawKinds (p.problems callerTypes config) = p.wiringFlaws ∧
      match p.verify callerTypes config with
      | .accepted _ => p.wiringFlaws = []
      | .rejected problems => ofKinds flawKinds problems = p.wiringFlaws
      | .unending => p.comparesForever callerTypes = true := by
  have hflaws := ofKinds_problems_eq_wiringFlaws callerTypes config p
  refine ⟨hflaws, ?_⟩
  cases hverdict : p.verify callerTypes config with
  | accepted v =>
    rw [problems_eq_nil_of_accepted hverdict] at hflaws
    exact hflaws.symm
  | rejected problems =>
    obtain rfl := problems_of_rejected hverdict
    exact hflaws
  | unending => exact (verify_eq_unending_iff ..).mp hverdict

end Program

end ServiceCheck
