import ServiceCheck.Config
import ServiceCheck.Verification.Declarations
import ServiceCheck.Verification.Redeclarations

/-!
The verification of a whole program: the declarations in document order, then what needs all of
them, in a fixed order: links, types declared again, operations exposed again, correlation sets,
and the presence of the main procedure.
-/

set_option autoImplicit false

namespace ServiceCheck

/-- What a valid program hands to later stages. -/
structure Validated where
  correlation : CorrelationFunction
  mode : ExecutionMode
  constants : Dictionary Bool

/-- A program is rejected with all its problems at once. `unending` stands for a comparison of
types that has no end. -/
inductive Verdict where
  | accepted (result : Validated)
  | rejected (problems : Diagnostics)
  | unending

namespace Program

def correlation (callerTypes : TypeMap) (p : Program) : CorrelationFunction × List Diagnostic :=
  CorrelationFunction.ofSets (p.allTypes callerTypes) p.requestIndex p.correlationSets

def mainProblems (config : Config) (p : Program) : List Diagnostic :=
  if config.checkForMain && !p.procedures.any (·.isMain) then
    [.unlocated .mainProcedureMissing]
  else []

def problems (callerTypes : TypeMap) (config : Config) (p : Program) : Diagnostics :=
  p.declarationProblems callerTypes ++ p.linkProblems callerTypes ++
    p.typeProblems callerTypes ++ p.signatureProblems callerTypes ++
    (p.correlation callerTypes).2 ++ p.mainProblems config

def verify (callerTypes : TypeMap) (config : Config) (p : Program) : Verdict :=
  if p.comparesForever callerTypes then .unending
  else
    let problems := p.problems callerTypes config
    if Diagnostics.hasErrors problems then .rejected problems
    else .accepted ⟨(p.correlation callerTypes).1, p.executionMode, p.constants⟩

end Program

end ServiceCheck
