import ServiceCheck.Program.Statement

set_option autoImplicit false

namespace ServiceCheck

structure Reply where
  response : TypeDefinition
  faults : Dictionary TypeDefinition
deriving Repr

structure Operation where
  position : Position
  id : String
  request : TypeDefinition
  reply : Option Reply
deriving Repr

namespace Operation

def kind (o : Operation) : OperationKind :=
  if o.reply.isSome then .requestResponse else .oneWay

def faults (o : Operation) : Dictionary TypeDefinition := (o.reply.map (·.faults)).getD []

def oneWay (id request : String) : Operation := ⟨.unknown, id, .named request, none⟩

def requestResponse (id request response : String) : Operation :=
  ⟨.unknown, id, .named request, some ⟨.named response, []⟩⟩

/-- Only an operation with a reply declares faults. -/
def addFault (name type : String) (o : Operation) : Operation :=
  { o with reply := o.reply.map fun r =>
      { r with faults := Dictionary.set r.faults name (.named type) } }

def types (o : Operation) : List TypeDefinition :=
  match o.reply with
  | none => [o.request]
  | some r => o.request :: r.response :: Dictionary.values r.faults

end Operation

structure Interface where
  position : Position
  name : String
  operations : Dictionary Operation
deriving Repr

namespace Interface

def empty (name : String) : Interface := ⟨.unknown, name, []⟩

def addOperation (o : Operation) (i : Interface) : Interface :=
  { i with operations := Dictionary.set i.operations o.id o }

end Interface

/-- `Aggregates: A, B with Extender` -/
structure Aggregation where
  ports : List String
  extender : Option String
deriving DecidableEq, Repr

structure Port where
  position : Position
  id : String
  location : Option String
  protocol : Option String
  operations : List Operation
  interfaces : List Interface
deriving Repr

namespace Port

def empty (id : String) : Port := ⟨.unknown, id, none, none, [], []⟩

/-- The port's own operations, then those of each interface in order. -/
def allOperations (p : Port) : List Operation :=
  p.operations ++ p.interfaces.flatMap fun i => Dictionary.values i.operations

def findOperation? (p : Port) (id : String) : Option Operation :=
  p.allOperations.find? (·.id = id)

def addOperation (o : Operation) (p : Port) : Port := { p with operations := p.operations ++ [o] }

def addInterface (i : Interface) (p : Port) : Port := { p with interfaces := p.interfaces ++ [i] }

end Port

structure InputPort extends Port where
  aggregations : List Aggregation
deriving Repr

namespace InputPort

def empty (id : String) : InputPort := ⟨.empty id, []⟩

def aggregate (ports : List String) (p : InputPort) : InputPort :=
  { p with aggregations := p.aggregations ++ [⟨ports, none⟩] }

end InputPort

abbrev OutputPort := Port

end ServiceCheck
