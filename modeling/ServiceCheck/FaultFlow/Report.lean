import ServiceCheck.FaultFlow.Analysis
import ServiceCheck.Text.Quoted

set_option autoImplicit false

namespace ServiceCheck

/-- A tree of scopes with the operation that it serves, if that is known. -/
structure ServedTree where
  operation : Option String
  scope : Nat
deriving DecidableEq, Repr

structure FaultReport where
  diagnostics : Diagnostics
  /-- The faults that can escape each operation, in the order of their discovery. -/
  thrown : Dictionary (List String)
  log : List LogEvent

namespace FaultReport

def linePrelude : String := "CODE QUALITY WARNING: "

def lines (r : FaultReport) : List String :=
  List.map (fun d => linePrelude ++ d.message) r.diagnostics

end FaultReport

namespace Program

/-- Procedures that can be called; the first of a name counts. -/
def callable (p : Program) : Dictionary Procedure :=
  (p.procedures.filter (!·.isMain)).foldl (fun d q => Dictionary.setNew d q.id q) []

def firstOutputPorts (p : Program) : Dictionary OutputPort :=
  p.outputPorts.foldl (fun d port => Dictionary.setNew d port.id port) []

def readMain (p : Program) : Nat → Statement → FaultFlow → FaultFlow :=
  FaultFlow.readUpTo p.firstOutputPorts p.callable p.callable.length []

/-- The branches of a choice, each in a tree of its own. Only the first branch that receives an
operation is read. -/
def readBranches (p : Program) : List ServedTree → List (Statement × Statement) → FaultFlow →
    List ServedTree × FaultFlow
  | trees, [], w => (trees, w)
  | trees, (guard, body) :: rest, w =>
    let operation := guard.inputOperation?
    if operation.isSome && trees.any (·.operation = operation) then
      p.readBranches trees rest
        (w.log ⟨.debug, "skipping repeated input choice guard",
          [("operation", "Some(" ++ Text.quoted (operation.getD "") ++ ")")]⟩)
    else
      let root := w.forest.size
      let w := p.readMain root body (p.readMain root guard (w.update .addRoot))
      p.readBranches (trees ++ [⟨operation, root⟩]) rest w

def readBody (p : Program) (body : Statement) : List ServedTree × FaultFlow :=
  match body with
  | .inputChoice _ branches => p.readBranches [] branches .start
  | body =>
    let operation :=
      match body with
      | .requestResponse _ id _ _ _ => some id
      | _ => none
    ([⟨operation, 0⟩], p.readMain 0 body (FaultFlow.start.update .addRoot))

/-- The first operation of this name among the input ports, if it can declare faults. -/
def servedOperation? (p : Program) (operation : String) : Option Operation :=
  (p.inputPorts.findSome? (·.findOperation? operation)).filter (·.reply.isSome)

/-- Declared faults that are never thrown; they are reported only when some fault escapes. -/
def unthrownProblems (o : Operation) (operation : String) (thrown : List ThrownFault) :
    List Diagnostic :=
  if thrown.isEmpty then []
  else
    ((Dictionary.keys o.faults).filter fun name => !thrown.any (·.name = name)).map fun name =>
      .report .unthrownFault o.position
        ("fault " ++ name ++ " is never thrown by operation " ++ operation ++
          " even if it is declared in the interface")

def undeclaredProblems (o : Operation) (operation : String) (thrown : List ThrownFault) :
    List Diagnostic :=
  (thrown.filter fun fault => !Dictionary.contains o.faults fault.name).map fun fault =>
    let source := (fault.origin.map (" raised by " ++ ·)).getD ""
    .report .undeclaredFault o.position
      ("fault " ++ fault.name ++ " could be thrown inside operation " ++ operation ++ source ++
        " but it is not declared in the interface")

def operationFindings (p : Program) (operation : String) (thrown : List ThrownFault) :
    List Diagnostic :=
  match p.servedOperation? operation with
  | none => []
  | some o => unthrownProblems o operation thrown ++ undeclaredProblems o operation thrown

def escaping (trees : List ServedTree) (forest : ScopeForest) :
    List (String × List ThrownFault) :=
  trees.filterMap fun tree =>
    tree.operation.map fun operation => (operation, forest.thrown tree.scope)

def faultReport (p : Program) : FaultReport :=
  match p.procedures.find? (·.isMain) with
  | none => ⟨[], [], []⟩
  | some main =>
    let (trees, w) := p.readBody main.body
    let forest := trees.foldl (fun f tree => f.resolve tree.scope) w.forest
    let served := escaping trees forest
    let findings := served.flatMap fun (operation, thrown) => p.operationFindings operation thrown
    let report : FaultReport :=
      ⟨findings, served.map fun (operation, thrown) => (operation, thrown.map (·.name)), []⟩
    { report with log := w.events.toList ++ report.lines.map fun line => ⟨.warn, line, []⟩ }

end Program

end ServiceCheck
