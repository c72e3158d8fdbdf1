import ServiceCheck.Program.Declaration

set_option autoImplicit false

namespace ServiceCheck

structure Tables where
  types : TypeMap
  inputPorts : Dictionary InputPort
  outputPorts : Dictionary OutputPort
  procedures : Dictionary Procedure

namespace Tables

/-- The caller's types come before all declarations. -/
def initial (types : TypeMap) : Tables := ⟨types, [], [], []⟩

def declare (t : Tables) : Declaration → Tables
  | .type d => { t with types := Dictionary.setNew t.types d.id d }
  | .inputPort p => { t with inputPorts := Dictionary.setNew t.inputPorts p.id p }
  | .outputPort p => { t with outputPorts := Dictionary.setNew t.outputPorts p.id p }
  | .procedure p => { t with procedures := Dictionary.setNew t.procedures p.id p }
  | _ => t

def declareAll (t : Tables) (ds : List Declaration) : Tables := ds.foldl declare t

/-- Every declaration with the tables of those before it. -/
def inForce : Tables → List Declaration → List (Tables × Declaration)
  | _, [] => []
  | t, d :: ds => (t, d) :: inForce (t.declare d) ds

end Tables

end ServiceCheck
