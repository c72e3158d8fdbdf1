import ServiceCheck.Verification.Behaviour

set_option autoImplicit false

namespace ServiceCheck

namespace TypeDefinition

def boundProblems (t : TypeDefinition) (which : String) (bound : Int32) : List Diagnostic :=
  if bound < 0 then
    [.report .invalidCardinality t.position
      ("type `" ++ t.id ++ "` has a negative " ++ which ++ " (" ++ toString bound.toInt ++ ")")]
  else []

def cardinalityProblems (t : TypeDefinition) : List Diagnostic :=
  t.boundProblems "minimum" t.cardinality.min ++ t.boundProblems "maximum" t.cardinality.max

def problems (t : TypeDefinition) : List Diagnostic := t.nodes.flatMap cardinalityProblems

end TypeDefinition

namespace Operation

def problems (types : TypeMap) (o : Operation) : List Diagnostic :=
  (o.types.filter fun t => !Dictionary.contains types t.id).map fun t =>
    (Diagnostic.report .unknownTypeReference o.position t.id).hint
      ("used by operation `" ++ o.id ++ "`")

end Operation

/-- The name is new, or the earlier declaration is pointed at. -/
def redefinitionProblems (kind : DiagnosticKind) (position : Position) (text : String)
    (first : Option Position) : List Diagnostic :=
  match first with
  | none => []
  | some earlier =>
    [(Diagnostic.report kind position text).relate "first defined here" earlier]

namespace InputPort

/-- Operations that are the first of their name are checked, the others reported. -/
def operationProblems (types : TypeMap) (port : String) :
    List String → List Operation → List Diagnostic
  | _, [] => []
  | seen, o :: rest =>
    if o.id ∈ seen then
      (Diagnostic.report .duplicateOperationInPort o.position o.id).hint
        ("in input port `" ++ port ++ "`") :: operationProblems types port seen rest
    else o.problems types ++ operationProblems types port (o.id :: seen) rest

def aggregationProblems (outputPorts : Dictionary OutputPort) (p : InputPort) :
    List Diagnostic :=
  ((p.aggregations.flatMap (·.ports)).filter fun port =>
      !Dictionary.contains outputPorts port).map fun port =>
    (Diagnostic.report .undefinedAggregatedPort p.position port).hint
      ("aggregated by input port `" ++ p.id ++ "`")

def problems (t : Tables) (p : InputPort) : List Diagnostic :=
  redefinitionProblems .duplicatePortDefinition p.position ("input port `" ++ p.id ++ "`")
      ((Dictionary.get? t.inputPorts p.id).map (·.position)) ++
    operationProblems t.types p.id [] p.allOperations ++ p.aggregationProblems t.outputPorts

end InputPort

def Port.outputProblems (t : Tables) (p : OutputPort) : List Diagnostic :=
  redefinitionProblems .duplicatePortDefinition p.position ("output port `" ++ p.id ++ "`")
      ((Dictionary.get? t.outputPorts p.id).map (·.position)) ++
    p.allOperations.flatMap (Operation.problems t.types)

namespace Procedure

/-- Outside single mode every session starts by receiving a message. -/
def shapeProblems (mode : ExecutionMode) (p : Procedure) : List Diagnostic :=
  if mode = .single || p.body.first.isInput then []
  else
    [(Diagnostic.located .mainProcedureShapeInvalid p.position).hint
      "start `main` with a one-way or request-response input, or a choice among them"]

/-- A repeated procedure is reported and not checked further, its body apart. -/
def problems (t : Tables) (mode : ExecutionMode) (p : Procedure) : List Diagnostic :=
  match Dictionary.get? t.procedures p.id with
  | some first =>
    redefinitionProblems .duplicateProcedureDefinition p.position p.id (some first.position)
  | none => if p.isMain then p.shapeProblems mode else []

end Procedure

namespace CorrelationSet

/-- Correlation variables and aliases are normal paths of constant keys. -/
def plainPathProblem? (p : VariablePath) : Option String :=
  if p.isGlobal then some "must not be a global path"
  else if p.isCorrelation then some "must not be a `csets` path"
  else if !p.isStatic then some "must be statically defined"
  else none

def pathProblems (set : CorrelationSet) (subject : String) (p : VariablePath) :
    List Diagnostic :=
  (plainPathProblem? p).toList.map fun problem =>
    .report .invalidPathUsage (p.position.orElse set.position) (subject ++ " " ++ problem)

def variableProblems (set : CorrelationSet) (earlier : List CorrelationVariable)
    (v : CorrelationVariable) : List Diagnostic :=
  set.pathProblems "correlation variable" v.path ++
  (if earlier.any (·.path.samePath v.path) then
    [.report .duplicateCorrelationVariable (v.path.position.orElse set.position) v.path.text]
  else []) ++
  v.aliases.flatMap fun a =>
    set.pathProblems ("correlation alias for `" ++ a.guardType ++ "`") a.path

def declarationProblemsFrom (set : CorrelationSet) :
    List CorrelationVariable → List CorrelationVariable → List Diagnostic
  | _, [] => []
  | earlier, v :: rest =>
    set.variableProblems earlier v ++ declarationProblemsFrom set (earlier ++ [v]) rest

def declarationProblems (set : CorrelationSet) : List Diagnostic :=
  set.declarationProblemsFrom [] set.members

end CorrelationSet

structure Overview where
  procedureNames : List String
  mode : ExecutionMode

def Program.overview (p : Program) : Overview :=
  ⟨p.procedures.map (·.id), p.executionMode⟩

namespace Declaration

def isInitial : Declaration → Bool
  | .procedure p => p.isInitial
  | _ => false

def scene (overview : Overview) (t : Tables) (d : Declaration) : Scene :=
  ⟨overview.procedureNames, t.outputPorts, d.isInitial⟩

def headProblems (overview : Overview) (t : Tables) : Declaration → List Diagnostic
  | .type d => d.problems
  | .interface _ => []
  | .inputPort p => p.problems t
  | .outputPort p => p.outputProblems t
  | .execution _ => []
  | .correlationSet s => s.declarationProblems
  | .procedure p => p.problems t overview.mode
  | .courier c =>
    if Dictionary.contains t.inputPorts c.inputPort then []
    else [.report .undefinedInputPort c.position c.inputPort]
  | .embeddedService _ => []

def problems (overview : Overview) (t : Tables) (d : Declaration) : List Diagnostic :=
  d.headProblems overview t ++ d.sites.flatMap ((d.scene overview t).problems)

end Declaration

def Program.declarationProblems (types : TypeMap) (p : Program) : List Diagnostic :=
  let overview := p.overview
  (Tables.inForce (.initial types) p.declarations).flatMap fun (t, d) => d.problems overview t

end ServiceCheck
