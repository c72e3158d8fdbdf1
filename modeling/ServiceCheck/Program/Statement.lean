import ServiceCheck.Program.Expression

set_option autoImplicit false

namespace ServiceCheck

inductive OperationKind where
  | oneWay
  | requestResponse
deriving DecidableEq, Repr

def OperationKind.label : OperationKind → String
  | .oneWay => "one-way"
  | .requestResponse => "request-response"

inductive AssignOperator where
  | add
  | subtract
  | multiply
  | divide
deriving DecidableEq, Repr

inductive StepKind where
  | preIncrement
  | postIncrement
  | preDecrement
  | postDecrement
deriving DecidableEq, Repr

/-- `foreach ( k : x )` runs over sub-nodes, `for ( item in x )` over items. -/
inductive ForEachKind where
  | subNode
  | arrayItem
deriving DecidableEq, Repr

inductive CourierTarget where
  | interface (name : String)
  | operation (name : String)
deriving DecidableEq, Repr

mutual

inductive Statement where
  | nullprocess
  | sequence (children : List Statement)
  | parallel (children : List Statement)
  | inputChoice (position : Position) (branches : List (Statement × Statement))
  | oneWay (position : Position) (operation : String) (input : Option VariablePath)
  | requestResponse (position : Position) (operation : String) (input : Option VariablePath)
      (output : Option Expression) (process : Statement)
  | notification (position : Position) (operation port : String) (output : Option Expression)
  | solicitResponse (position : Position) (operation port : String) (output : Option Expression)
      (input : Option VariablePath)
  | assign (position : Position) (path : VariablePath) (value : Expression)
  | compoundAssign (position : Position) (operator : AssignOperator) (path : VariablePath)
      (value : Expression)
  | pointer (position : Position) (left right : VariablePath)
  | deepCopy (position : Position) (left : VariablePath) (right : Expression)
  | step (position : Position) (kind : StepKind) (path : VariablePath)
  | undef (position : Position) (path : VariablePath)
  | conditional (position : Position) (branches : List (Expression × Statement))
      (otherwise : Option Statement)
  | whileLoop (position : Position) (condition : Expression) (body : Statement)
  | forLoop (position : Position) (first : Statement) (condition : Expression)
      (post body : Statement)
  | forEach (position : Position) (kind : ForEachKind) (key target : VariablePath)
      (body : Statement)
  | call (position : Position) (procedure : String)
  | scope (position : Position) (id : String) (body : Statement)
  | install (position : Position) (handlers : List (String × Statement))
  | throw (position : Position) (fault : String) (value : Option Expression)
  | compensate (position : Position) (id : String)
  | exit
  | run (position : Position) (value : Expression)
  | synchronized (position : Position) (id : String) (body : Statement)
  | spawn (position : Position) (index : VariablePath) (bound : Expression)
      (into : Option VariablePath) (body : Statement)
  | currentHandler
  | linkIn (position : Position) (id : String)
  | linkOut (position : Position) (id : String)
  | provideUntil (position : Position) (provide finish : Statement)
  | courierChoice (position : Position) (branches : List CourierBranch)
  | notificationForward (position : Position) (port : Option String)
      (output : Option VariablePath)
  | solicitResponseForward (position : Position) (port : Option String)
      (output input : Option VariablePath)
deriving Repr

structure CourierBranch where
  target : CourierTarget
  kind : OperationKind
  input : Option VariablePath
  output : Option VariablePath
  body : Statement
deriving Repr

end

def defaultHandler : String := "default"

namespace Statement

def inputOperation? : Statement → Option String
  | .oneWay _ operation _ => some operation
  | .requestResponse _ operation _ _ _ => some operation
  | _ => none

def isInput : Statement → Bool
  | .oneWay .. | .requestResponse .. | .inputChoice .. => true
  | _ => false

def position? : Statement → Option Position
  | .nullprocess | .exit | .currentHandler | .sequence _ | .parallel _ => none
  | .inputChoice p _ | .oneWay p _ _ | .requestResponse p _ _ _ _ | .notification p _ _ _
  | .solicitResponse p _ _ _ _ | .assign p _ _ | .compoundAssign p _ _ _ | .pointer p _ _
  | .deepCopy p _ _ | .step p _ _ | .undef p _ | .conditional p _ _ | .whileLoop p _ _
  | .forLoop p _ _ _ _ | .forEach p _ _ _ _ | .call p _ | .scope p _ _ | .install p _
  | .throw p _ _ | .compensate p _ | .run p _ | .synchronized p _ _ | .spawn p _ _ _ _
  | .linkIn p _ | .linkOut p _ | .provideUntil p _ _ | .courierChoice p _
  | .notificationForward p _ _ | .solicitResponseForward p _ _ _ => some p

/-- The statement that a body starts with, looking into sequences at its head. -/
def first : Statement → Statement
  | .sequence (child :: _) => child.first
  | s => s

end Statement

end ServiceCheck
