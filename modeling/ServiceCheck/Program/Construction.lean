import ServiceCheck.Program.Declaration

/-!
Programs put together piece by piece. A new piece has no position and empty lists; each further
function adds to one. A function that does not fit the piece leaves it as it is.
-/

set_option autoImplicit false

namespace ServiceCheck

namespace VariablePath

def withKind (kind : PathKind) (p : VariablePath) : VariablePath := { p with kind }

def withPosition (position : Position) (p : VariablePath) : VariablePath := { p with position }

def addStep (key : Expression) (p : VariablePath) : VariablePath :=
  { p with steps := p.steps ++ [⟨key, none⟩] }

end VariablePath

namespace Statement

def throwing (fault : String) : Statement := .throw .unknown fault none

def opening (id : String) (body : Statement) : Statement := .scope .unknown id body

def calling (procedure : String) : Statement := .call .unknown procedure

def assigning (path : VariablePath) (value : Expression) : Statement :=
  .assign .unknown path value

def receiving (operation : String) : Statement := .oneWay .unknown operation none

def answering (operation : String) (process : Statement) : Statement :=
  .requestResponse .unknown operation none none process

def notifying (operation port : String) : Statement := .notification .unknown operation port none

def soliciting (operation port : String) : Statement :=
  .solicitResponse .unknown operation port none none

def choosing : Statement := .inputChoice .unknown []

def installing : Statement := .install .unknown []

def forwarding : Statement := .courierChoice .unknown []

def addBranch (s guard body : Statement) : Statement :=
  match s with
  | .inputChoice p branches => .inputChoice p (branches ++ [(guard, body)])
  | s => s

def addHandler (s : Statement) (fault : String) (body : Statement) : Statement :=
  match s with
  | .install p handlers => .install p (handlers ++ [(fault, body)])
  | s => s

def addCourierBranch (s : Statement) (target : CourierTarget) (kind : OperationKind)
    (body : Statement) : Statement :=
  match s with
  | .courierChoice p branches =>
    .courierChoice p (branches ++ [⟨target, kind, none, none, body⟩])
  | s => s

def receiveInto (s : Statement) (path : VariablePath) : Statement :=
  match s with
  | .oneWay p operation _ => .oneWay p operation (some path)
  | .requestResponse p operation _ output process =>
    .requestResponse p operation (some path) output process
  | .solicitResponse p operation port output _ =>
    .solicitResponse p operation port output (some path)
  | s => s

end Statement

namespace CorrelationVariable

def ofPath (path : VariablePath) : CorrelationVariable := ⟨path, []⟩

def addAlias (guardType : String) (path : VariablePath) (v : CorrelationVariable) :
    CorrelationVariable :=
  { v with aliases := v.aliases ++ [⟨guardType, path⟩] }

end CorrelationVariable

namespace CorrelationSet

def ofMembers (members : List CorrelationVariable) : CorrelationSet := ⟨.unknown, members⟩

def withPosition (position : Position) (s : CorrelationSet) : CorrelationSet :=
  { s with position }

end CorrelationSet

namespace Procedure

def named (id : String) (body : Statement) : Procedure := ⟨.unknown, id, body⟩

def main (body : Statement) : Procedure := named mainId body

def withPosition (position : Position) (p : Procedure) : Procedure := { p with position }

end Procedure

def Courier.on (inputPort : String) (body : Statement) : Courier := ⟨.unknown, inputPort, body⟩

def Execution.ofMode (mode : ExecutionMode) : Execution := ⟨.unknown, mode⟩

def Program.ofDeclarations (declarations : List Declaration) : Program := ⟨.unknown, declarations⟩

end ServiceCheck
