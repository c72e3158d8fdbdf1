import ServiceCheck.Diagnostic.Basic
import ServiceCheck.Traversal
import ServiceCheck.Verification.Tables

/-!
Checks on the statements and paths of a behaviour. A body is laid out as a list of sites, and each
site is judged on its own: only the kind of the enclosing courier branch is carried to it.
-/

set_option autoImplicit false

namespace ServiceCheck

/-- A statement with the kind of the innermost courier branch around it, or a path. -/
inductive Site where
  | statement (courier : Option OperationKind) (s : Statement)
  | path (p : VariablePath)

def VariablePath.sites (p : VariablePath) : List Site := p.paths.map .path

def Expression.sites (x : Expression) : List Site := x.paths.map .path

def optionalPathSites (p : Option VariablePath) : List Site := (p.map VariablePath.sites).getD []

def optionalExpressionSites (x : Option Expression) : List Site :=
  (x.map Expression.sites).getD []

namespace Statement

mutual

/-- The sites of a statement in the order of their judgement. The operands of a solicit-response
are not judged. A provide-until of two choices is judged as one choice, so that only the branches
of the two are sites. -/
def sites (courier : Option OperationKind) : Statement → List Site
  | .nullprocess => [.statement courier .nullprocess]
  | s@(.sequence children) => .statement courier s :: childSites courier children
  | s@(.parallel children) => .statement courier s :: childSites courier children
  | s@(.inputChoice _ branches) => .statement courier s :: inputBranchSites courier branches
  | s@(.oneWay _ _ input) => .statement courier s :: optionalPathSites input
  | s@(.requestResponse _ _ input output process) =>
    .statement courier s ::
      (optionalPathSites input ++ process.sites courier ++ optionalExpressionSites output)
  | s@(.notification _ _ _ output) => .statement courier s :: optionalExpressionSites output
  | s@(.solicitResponse ..) => [.statement courier s]
  | s@(.assign _ path value) => .statement courier s :: (path.sites ++ value.sites)
  | s@(.compoundAssign _ _ path value) => .statement courier s :: (path.sites ++ value.sites)
  | s@(.pointer _ left right) => .statement courier s :: (left.sites ++ right.sites)
  | s@(.deepCopy _ left right) => .statement courier s :: (left.sites ++ right.sites)
  | s@(.step _ _ path) => .statement courier s :: path.sites
  | s@(.undef _ path) => .statement courier s :: path.sites
  | s@(.conditional _ branches otherwise) =>
    .statement courier s ::
      (conditionalBranchSites courier branches ++ otherwiseSites courier otherwise)
  | s@(.whileLoop _ condition body) =>
    .statement courier s :: (condition.sites ++ body.sites courier)
  | s@(.forLoop _ first condition post body) =>
    .statement courier s ::
      (first.sites courier ++ condition.sites ++ post.sites courier ++ body.sites courier)
  | s@(.forEach _ _ key target body) =>
    .statement courier s :: (key.sites ++ target.sites ++ body.sites courier)
  | s@(.call ..) => [.statement courier s]
  | s@(.scope _ _ body) => .statement courier s :: body.sites courier
  | s@(.install _ handlers) => .statement courier s :: handlerSites courier handlers
  | s@(.throw _ _ value) => .statement courier s :: optionalExpressionSites value
  | s@(.compensate ..) => [.statement courier s]
  | .exit => [.statement courier .exit]
  | s@(.run _ value) => .statement courier s :: value.sites
  | s@(.synchronized _ _ body) => .statement courier s :: body.sites courier
  | s@(.spawn _ index bound into body) =>
    .statement courier s ::
      (index.sites ++ bound.sites ++ optionalPathSites into ++ body.sites courier)
  | .currentHandler => [.statement courier .currentHandler]
  | s@(.linkIn ..) => [.statement courier s]
  | s@(.linkOut ..) => [.statement courier s]
  | s@(.provideUntil _ (.inputChoice _ provided) (.inputChoice _ finishing)) =>
    .statement courier s ::
      (inputBranchSites courier provided ++ inputBranchSites courier finishing)
  | s@(.provideUntil _ provide finish) =>
    .statement courier s :: (provide.sites courier ++ finish.sites courier)
  | s@(.courierChoice _ branches) => .statement courier s :: courierBranchSites branches
  | s@(.notificationForward _ _ output) => .statement courier s :: optionalPathSites output
  | s@(.solicitResponseForward _ _ output input) =>
    .statement courier s :: (optionalPathSites output ++ optionalPathSites input)

def childSites (courier : Option OperationKind) : List Statement → List Site
  | [] => []
  | s :: rest => s.sites courier ++ childSites courier rest

def inputBranchSites (courier : Option OperationKind) : List (Statement × Statement) → List Site
  | [] => []
  | (guard, body) :: rest =>
    guard.sites courier ++ body.sites courier ++ inputBranchSites courier rest

def conditionalBranchSites (courier : Option OperationKind) :
    List (Expression × Statement) → List Site
  | [] => []
  | (condition, body) :: rest =>
    condition.sites ++ body.sites courier ++ conditionalBranchSites courier rest

def otherwiseSites (courier : Option OperationKind) : Option Statement → List Site
  | none => []
  | some s => s.sites courier

def handlerSites (courier : Option OperationKind) : List (String × Statement) → List Site
  | [] => []
  | (_, body) :: rest => body.sites courier ++ handlerSites courier rest

def courierBranchSites : List CourierBranch → List Site
  | [] => []
  | ⟨_, kind, input, output, body⟩ :: rest =>
    optionalPathSites input ++ optionalPathSites output ++ body.sites (some kind) ++
      courierBranchSites rest

end

end Statement

structure Scene where
  procedureNames : List String
  outputPorts : Dictionary OutputPort
  insideInitial : Bool

namespace Scene

/-- Guards are inputs, and no operation is received by two of them. -/
def guardProblems (fallback : Position) : List String → List Statement → List Diagnostic
  | _, [] => []
  | seen, guard :: rest =>
    let position := guard.position?.getD fallback
    match guard.inputOperation? with
    | none =>
      .report .invalidInputChoice position
        "every branch of an input choice must start with an input" ::
        guardProblems fallback seen rest
    | some operation =>
      if operation ∈ seen then
        .report .invalidInputChoice position
          ("operation `" ++ operation ++ "` is received by more than one branch") ::
          guardProblems fallback seen rest
      else guardProblems fallback (operation :: seen) rest

def inputProblems (courier : Option OperationKind) (position : Position)
    (input : Option VariablePath) : List Diagnostic :=
  (if courier.isSome then
    [.report .courierContextError position "input statements are not allowed inside a courier"]
  else []) ++
  match input with
  | some path =>
    if path.isCorrelation then
      [.report .invalidPathUsage path.position
        "messages cannot be received into a correlation variable"]
    else []
  | none => []

/-- The port is known, declares the operation, and declares it with the kind of its use. -/
def outputProblems (scene : Scene) (position : Position) (operation port : String)
    (used : OperationKind) : List Diagnostic :=
  match Dictionary.get? scene.outputPorts port with
  | none => [.report .undefinedOutputPort position port]
  | some p =>
    match p.findOperation? operation with
    | none =>
      [(Diagnostic.report .undeclaredOperation position operation).hint
        ("output port `" ++ port ++ "`")]
    | some declared =>
      if declared.kind = used then []
      else
        [.report .operationKindMismatch position
          ("operation `" ++ operation ++ "` is declared as " ++ declared.kind.label ++
            " in output port `" ++ port ++ "` but used as " ++ used.label)]

/-- A forward stands in a courier branch of its own kind and names a known port, if any. -/
def forwardProblems (scene : Scene) (courier : Option OperationKind) (position : Position)
    (used : OperationKind) (port : Option String) : List Diagnostic :=
  (match courier with
    | none =>
      [.report .courierContextError position (used.label ++ " forward used outside a courier")]
    | some expected =>
      if expected = used then []
      else
        [(Diagnostic.report .courierContextError position
            (used.label ++ " forward used in a " ++ expected.label ++ " courier branch")).hint
          ("expected a " ++ expected.label ++ " forward")]) ++
  match port with
  | some port =>
    if Dictionary.contains scene.outputPorts port then []
    else [.report .undefinedOutputPort position port]
  | none => []

def correlationUse (position : Position) (path : VariablePath) (text : String) :
    List Diagnostic :=
  if path.isCorrelation then [.report .invalidPathUsage position text] else []

def statementProblems (scene : Scene) (courier : Option OperationKind) :
    Statement → List Diagnostic
  | .call position procedure =>
    if procedure ∈ scene.procedureNames then []
    else [.report .undefinedProcedureCall position procedure]
  | .oneWay position _ input => inputProblems courier position input
  | .requestResponse position _ input _ _ => inputProblems courier position input
  | .notification position operation port _ =>
    outputProblems scene position operation port .oneWay
  | .solicitResponse position operation port _ _ =>
    outputProblems scene position operation port .requestResponse
  | .inputChoice position branches => guardProblems position [] (branches.map (·.1))
  | .provideUntil position (.inputChoice _ provided) (.inputChoice _ finishing) =>
    guardProblems position [] ((provided ++ finishing).map (·.1))
  | .provideUntil position _ _ =>
    [.report .invalidInputChoice position "both sides of provide-until must be input choices"]
  | .pointer position _ right =>
    correlationUse position right "a pointer cannot refer to a correlation variable"
  | .deepCopy position left _ =>
    correlationUse position left "correlation variables cannot be the target of a deep copy"
  | .undef position path => correlationUse position path "correlation variables cannot be undefined"
  | .notificationForward position port _ => forwardProblems scene courier position .oneWay port
  | .solicitResponseForward position port _ _ =>
    forwardProblems scene courier position .requestResponse port
  | _ => []

def firstKeyText : PathKind → String
  | .global => "the first key of a global path must be an identifier"
  | .correlation => "the first key of a `csets` path must be an identifier"
  | .normal => "the first key of a path must be an identifier"

def pathProblems (scene : Scene) (p : VariablePath) : List Diagnostic :=
  (if p.isCorrelation && scene.insideInitial then
    [.report .invalidPathUsage p.position
      "correlation variables cannot be accessed in the init procedure"]
  else []) ++
  if !p.steps.isEmpty && p.rootName?.isNone then
    [.report .invalidPathUsage p.position (firstKeyText p.kind)]
  else if p.isCorrelation && !p.isStatic then
    [.report .invalidPathUsage p.position "correlation variable paths must be statically defined"]
  else []

def problems (scene : Scene) : Site → List Diagnostic
  | .statement courier s => statementProblems scene courier s
  | .path p => pathProblems scene p

end Scene

namespace Site

def writtenPaths : Site → List VariablePath
  | .statement _ (.oneWay _ _ input) => input.toList
  | .statement _ (.requestResponse _ _ input _ _) => input.toList
  | .statement _ (.solicitResponse _ _ _ _ input) => input.toList
  | .statement _ (.assign _ target _) => [target]
  | .statement _ (.compoundAssign _ _ target _) => [target]
  | .statement _ (.step _ _ target) => [target]
  | .statement _ (.undef _ target) => [target]
  | .statement _ (.pointer _ left right) => [left, right]
  | .statement _ (.deepCopy _ left _) => [left]
  | _ => []

def writes (s : Site) : List String := s.writtenPaths.filterMap VariablePath.rootName?

def runPosition? : Site → Option Position
  | .statement _ (.run position _) => some position
  | _ => none

end Site

namespace Declaration

def body? : Declaration → Option Statement
  | .procedure p => some p.body
  | .courier c => some c.body
  | _ => none

@[simp] theorem body?_procedure (p : Procedure) : (procedure p).body? = some p.body := rfl

@[simp] theorem body?_courier (c : Courier) : (courier c).body? = some c.body := rfl

theorem body?_eq_some_iff {d : Declaration} {s : Statement} :
    d.body? = some s ↔ (∃ p, d = .procedure p ∧ p.body = s) ∨ ∃ c, d = .courier c ∧ c.body = s := by
  cases d <;> simp [body?]

theorem body?_eq_none_iff {d : Declaration} :
    d.body? = none ↔ (∀ p, d ≠ .procedure p) ∧ ∀ c, d ≠ .courier c := by
  cases d <;> simp [body?]

def sites (d : Declaration) : List Site := (d.body?.map (Statement.sites none)).getD []

def writes : Declaration → List String
  | .outputPort p => [p.id]
  | d => d.sites.flatMap Site.writes

end Declaration

/-- The written top-level variables in document order, each with whether one write is all. -/
def Program.constants (p : Program) : Dictionary Bool :=
  let writes := p.declarations.flatMap Declaration.writes
  writes.eraseDups.map fun name => (name, writes.count name = 1)

end ServiceCheck
