import ServiceCheck.Program.Port

set_option autoImplicit false

namespace ServiceCheck

/-- `single` runs one session from the start; the other modes start sessions by messages, one at
a time or any number together. -/
inductive ExecutionMode where
  | single
  | sequential
  | concurrent
deriving DecidableEq, Repr

structure Execution where
  position : Position
  mode : ExecutionMode
deriving DecidableEq, Repr

structure CorrelationAlias where
  guardType : String
  path : VariablePath
deriving Repr

structure CorrelationVariable where
  path : VariablePath
  aliases : List CorrelationAlias
deriving Repr

structure CorrelationSet where
  position : Position
  members : List CorrelationVariable
deriving Repr

/-- `define id { body }`, the entry and initial procedures included. -/
structure Procedure where
  position : Position
  id : String
  body : Statement
deriving Repr

namespace Procedure

def mainId : String := "main"

def initialId : String := "init"

def isMain (p : Procedure) : Bool := p.id = mainId

def isInitial (p : Procedure) : Bool := p.id = initialId

end Procedure

structure Courier where
  position : Position
  inputPort : String
  body : Statement
deriving Repr

structure EmbeddedService where
  position : Position
  type : String
  path : String
  port : Option String
deriving DecidableEq, Repr

inductive Declaration where
  | type (definition : TypeDefinition)
  | interface (interface : Interface)
  | inputPort (port : InputPort)
  | outputPort (port : OutputPort)
  | execution (execution : Execution)
  | correlationSet (set : CorrelationSet)
  | procedure (procedure : Procedure)
  | courier (courier : Courier)
  | embeddedService (service : EmbeddedService)
deriving Repr

structure Program where
  position : Position
  declarations : List Declaration
deriving Repr

namespace Program

def procedures (p : Program) : List Procedure :=
  p.declarations.filterMap fun
    | .procedure d => some d
    | _ => none

def inputPorts (p : Program) : List InputPort :=
  p.declarations.filterMap fun
    | .inputPort port => some port
    | _ => none

def outputPorts (p : Program) : List OutputPort :=
  p.declarations.filterMap fun
    | .outputPort port => some port
    | _ => none

def correlationSets (p : Program) : List CorrelationSet :=
  p.declarations.filterMap fun
    | .correlationSet set => some set
    | _ => none

/-- The last execution declaration counts. -/
def executionMode (p : Program) : ExecutionMode :=
  (p.declarations.filterMap fun
    | .execution e => some e.mode
    | _ => none).getLast?.getD .single

end Program

end ServiceCheck
