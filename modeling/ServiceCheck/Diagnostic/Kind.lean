set_option autoImplicit false

namespace ServiceCheck

inductive Severity where
  | error
  | warning
deriving DecidableEq, Repr

def Severity.text : Severity → String
  | .error => "error"
  | .warning => "warning"

inductive DiagnosticKind where
  | duplicatePortDefinition
  | duplicateOperationInPort
  | duplicateProcedureDefinition
  | undefinedAggregatedPort
  | undefinedInputPort
  | unknownTypeReference
  | invalidCardinality
  | typeEquivalenceMismatch
  | operationSignatureMismatch
  | undefinedProcedureCall
  | undefinedOutputPort
  | undeclaredOperation
  | operationKindMismatch
  | invalidInputChoice
  | invalidPathUsage
  | courierContextError
  | mainProcedureMissing
  | mainProcedureShapeInvalid
  | duplicateCorrelationVariable
  | correlationAliasError
  | correlationSetConflict
  | correlationAliasIncomplete
  | undeclaredFault
  | unthrownFault
deriving DecidableEq, Repr

structure Template where
  before : String
  after : String

def Template.fill (t : Template) (detail : String) : String := t.before ++ detail ++ t.after

def Template.text (t : Template) : String := t.fill "\x7b\x7d"

namespace DiagnosticKind

def all : List DiagnosticKind :=
  [.duplicatePortDefinition, .duplicateOperationInPort, .duplicateProcedureDefinition,
    .undefinedAggregatedPort, .undefinedInputPort, .unknownTypeReference, .invalidCardinality,
    .typeEquivalenceMismatch, .operationSignatureMismatch, .undefinedProcedureCall,
    .undefinedOutputPort, .undeclaredOperation, .operationKindMismatch, .invalidInputChoice,
    .invalidPathUsage, .courierContextError, .mainProcedureMissing, .mainProcedureShapeInvalid,
    .duplicateCorrelationVariable, .correlationAliasError, .correlationSetConflict,
    .correlationAliasIncomplete, .undeclaredFault, .unthrownFault]

def name : DiagnosticKind → String
  | .duplicatePortDefinition => "DuplicatePortDefinition"
  | .duplicateOperationInPort => "DuplicateOperationInPort"
  | .duplicateProcedureDefinition => "DuplicateProcedureDefinition"
  | .undefinedAggregatedPort => "UndefinedAggregatedPort"
  | .undefinedInputPort => "UndefinedInputPort"
  | .unknownTypeReference => "UnknownTypeReference"
  | .invalidCardinality => "InvalidCardinality"
  | .typeEquivalenceMismatch => "TypeEquivalenceMismatch"
  | .operationSignatureMismatch => "OperationSignatureMismatch"
  | .undefinedProcedureCall => "UndefinedProcedureCall"
  | .undefinedOutputPort => "UndefinedOutputPort"
  | .undeclaredOperation => "UndeclaredOperation"
  | .operationKindMismatch => "OperationKindMismatch"
  | .invalidInputChoice => "InvalidInputChoice"
  | .invalidPathUsage => "InvalidPathUsage"
  | .courierContextError => "CourierContextError"
  | .mainProcedureMissing => "MainProcedureMissing"
  | .mainProcedureShapeInvalid => "MainProcedureShapeInvalid"
  | .duplicateCorrelationVariable => "DuplicateCorrelationVariable"
  | .correlationAliasError => "CorrelationAliasError"
  | .correlationSetConflict => "CorrelationSetConflict"
  | .correlationAliasIncomplete => "CorrelationAliasIncomplete"
  | .undeclaredFault => "UndeclaredFault"
  | .unthrownFault => "UnthrownFault"

def ofName? (name : String) : Option DiagnosticKind := all.find? (·.name = name)

def rank (k : DiagnosticKind) : Nat := all.idxOf k

def order (k other : DiagnosticKind) : Ordering := Ord.compare k.rank other.rank

def severity : DiagnosticKind → Severity
  | .undeclaredFault | .unthrownFault => .warning
  | _ => .error

def fallback : DiagnosticKind → String
  | .duplicatePortDefinition => "port is already defined"
  | .duplicateOperationInPort => "operation is declared more than once in this port"
  | .duplicateProcedureDefinition => "procedure is already defined"
  | .undefinedAggregatedPort => "aggregated output port is not defined"
  | .undefinedInputPort => "input port is not defined"
  | .unknownTypeReference => "unknown type"
  | .invalidCardinality => "invalid cardinality"
  | .typeEquivalenceMismatch => "type has already been defined with a different structure"
  | .operationSignatureMismatch =>
    "operation has already been declared with a different signature"
  | .undefinedProcedureCall => "call to an undefined procedure"
  | .undefinedOutputPort => "output port is not defined"
  | .undeclaredOperation => "operation is not declared in the output port"
  | .operationKindMismatch => "operation kind does not match its declaration"
  | .invalidInputChoice => "invalid input choice"
  | .invalidPathUsage => "invalid path usage"
  | .courierContextError => "statement not allowed in this courier context"
  | .mainProcedureMissing => "main procedure not defined"
  | .mainProcedureShapeInvalid => "the first statement of the main procedure must be an input"
  | .duplicateCorrelationVariable => "duplicate correlation variable"
  | .correlationAliasError => "invalid correlation alias"
  | .correlationSetConflict => "operation is specified on more than one correlation set"
  | .correlationAliasIncomplete =>
    "operation does not specify an alias for every correlation variable"
  | .undeclaredFault => "fault could be thrown but it is not declared in the interface"
  | .unthrownFault => "declared fault is never thrown"

/-- The sentence around a detail. A kind without a sentence of its own puts the detail behind its
fallback. -/
def template : DiagnosticKind → Template
  | .duplicatePortDefinition => ⟨"", " is already defined"⟩
  | .duplicateOperationInPort => ⟨"operation `", "` is declared more than once in this port"⟩
  | .duplicateProcedureDefinition => ⟨"procedure `", "` is already defined"⟩
  | .undefinedAggregatedPort => ⟨"aggregated output port `", "` is not defined"⟩
  | .undefinedInputPort => ⟨"input port `", "` is not defined"⟩
  | .unknownTypeReference => ⟨"unknown type `", "`"⟩
  | .typeEquivalenceMismatch =>
    ⟨"type `", "` has already been defined with a different structure"⟩
  | .operationSignatureMismatch =>
    ⟨"operation `", "` has already been declared with a different signature"⟩
  | .undefinedProcedureCall => ⟨"procedure `", "` is not defined"⟩
  | .undefinedOutputPort => ⟨"output port `", "` is not defined"⟩
  | .undeclaredOperation => ⟨"operation `", "` is not declared in the output port"⟩
  | .correlationSetConflict =>
    ⟨"operation `", "` is specified on more than one correlation set"⟩
  | .correlationAliasIncomplete =>
    ⟨"operation `", "` does not specify an alias for every variable in the correlation set"⟩
  | .duplicateCorrelationVariable => ⟨"correlation variable `", "` is declared more than once"⟩
  | .operationKindMismatch | .invalidInputChoice | .invalidPathUsage | .courierContextError
  | .undeclaredFault | .unthrownFault => ⟨"", ""⟩
  | k => ⟨k.fallback ++ ": ", ""⟩

def message (k : DiagnosticKind) : Option String → String
  | none => k.fallback
  | some detail => k.template.fill detail

end DiagnosticKind

end ServiceCheck
