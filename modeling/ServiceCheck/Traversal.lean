import ServiceCheck.Wire.Declaration

/-!
The nodes of a program in the order of a generic walk: a node first, then what it contains. The
walk enters neither the operations of a free-standing interface nor the paths that a courier
branch receives into or answers from.
-/

set_option autoImplicit false

namespace ServiceCheck

inductive Node where
  | program (p : Program)
  | declaration (d : Declaration)
  | type (t : TypeDefinition)
  | interface (i : Interface)
  | inputPort (p : InputPort)
  | outputPort (p : OutputPort)
  | operation (o : Operation)
  | execution (e : Execution)
  | correlationSet (s : CorrelationSet)
  | procedure (p : Procedure)
  | courier (c : Courier)
  | embeddedService (s : EmbeddedService)
  | statement (s : Statement)
  | expression (x : Expression)
  | path (p : VariablePath)

namespace Node

def path? : Node → Option VariablePath
  | .path p => some p
  | _ => none

def text : Node → String
  | .program p => "program " ++ p.declarations.length.repr
  | .declaration d => "decl " ++ d.tag
  | .type t => "type " ++ t.tag ++ " " ++ t.id
  | .interface i => "interface " ++ i.name
  | .inputPort p => "input_port " ++ p.id
  | .outputPort p => "output_port " ++ p.id
  | .operation o => "operation " ++ o.id
  | .execution e => "execution " ++ e.mode.name
  | .correlationSet s => "cset " ++ s.members.length.repr
  | .procedure p => "procedure " ++ p.id
  | .courier c => "courier " ++ c.inputPort
  | .embeddedService s => "embedded " ++ s.path
  | .statement s => "statement " ++ s.tag
  | .expression x => "expression " ++ x.tag
  | .path p => "path " ++ p.kind.name ++ " " ++ p.rootName?.getD "?"

end Node

mutual

def Expression.nodes : Expression → List Node
  | e@(.literal ..) => [.expression e]
  | e@(.read p) => .expression e :: p.nodes
  | e@(.sum xs) => .expression e :: Expression.operandNodes xs
  | e@(.product xs) => .expression e :: Expression.operandNodes xs
  | e@(.or xs) => .expression e :: Expression.childNodes xs
  | e@(.and xs) => .expression e :: Expression.childNodes xs
  | e@(.not x) => .expression e :: x.nodes
  | e@(.compare _ x y) => .expression e :: (x.nodes ++ y.nodes)
  | e@(.vectorSize p) => .expression e :: p.nodes
  | e@(.isType p) => .expression e :: p.nodes
  | e@(.instanceOf x _) => .expression e :: x.nodes
  | e@(.cast x _) => .expression e :: x.nodes
  | e@(.inlineTree x edits) => .expression e :: (x.nodes ++ TreeEdit.nodes edits)
  | .fresh => [.expression .fresh]
  | .void => [.expression .void]
  | e@(.installFixed p) => .expression e :: p.nodes

def Expression.operandNodes : List (Arithmetic × Expression) → List Node
  | [] => []
  | (_, x) :: rest => x.nodes ++ Expression.operandNodes rest

def Expression.childNodes : List Expression → List Node
  | [] => []
  | x :: rest => x.nodes ++ Expression.childNodes rest

def VariablePath.nodes : VariablePath → List Node
  | ⟨position, kind, steps⟩ => .path ⟨position, kind, steps⟩ :: PathStep.nodes steps

def PathStep.nodes : List PathStep → List Node
  | [] => []
  | ⟨key, none⟩ :: rest => key.nodes ++ PathStep.nodes rest
  | ⟨key, some index⟩ :: rest => key.nodes ++ index.nodes ++ PathStep.nodes rest

def TreeEdit.nodes : List TreeEdit → List Node
  | [] => []
  | .assign p x :: rest => p.nodes ++ x.nodes ++ TreeEdit.nodes rest
  | .deepCopy p x :: rest => p.nodes ++ x.nodes ++ TreeEdit.nodes rest
  | .pointsTo p t :: rest => p.nodes ++ t.nodes ++ TreeEdit.nodes rest

end

def VariablePath.paths (p : VariablePath) : List VariablePath := p.nodes.filterMap Node.path?

def Expression.paths (x : Expression) : List VariablePath := x.nodes.filterMap Node.path?

def optionalPathNodes (p : Option VariablePath) : List Node := (p.map VariablePath.nodes).getD []

def optionalExpressionNodes (x : Option Expression) : List Node :=
  (x.map Expression.nodes).getD []

namespace Statement

mutual

def nodes : Statement → List Node
  | .nullprocess => [.statement .nullprocess]
  | s@(.sequence children) => .statement s :: childNodes children
  | s@(.parallel children) => .statement s :: childNodes children
  | s@(.inputChoice _ branches) => .statement s :: inputBranchNodes branches
  | s@(.oneWay _ _ input) => .statement s :: optionalPathNodes input
  | s@(.requestResponse _ _ input output process) =>
    .statement s :: (optionalPathNodes input ++ process.nodes ++ optionalExpressionNodes output)
  | s@(.notification _ _ _ output) => .statement s :: optionalExpressionNodes output
  | s@(.solicitResponse _ _ _ output input) =>
    .statement s :: (optionalExpressionNodes output ++ optionalPathNodes input)
  | s@(.assign _ path value) => .statement s :: (path.nodes ++ value.nodes)
  | s@(.compoundAssign _ _ path value) => .statement s :: (path.nodes ++ value.nodes)
  | s@(.pointer _ left right) => .statement s :: (left.nodes ++ right.nodes)
  | s@(.deepCopy _ left right) => .statement s :: (left.nodes ++ right.nodes)
  | s@(.step _ _ path) => .statement s :: path.nodes
  | s@(.undef _ path) => .statement s :: path.nodes
  | s@(.conditional _ branches otherwise) =>
    .statement s :: (conditionalBranchNodes branches ++ otherwiseNodes otherwise)
  | s@(.whileLoop _ condition body) => .statement s :: (condition.nodes ++ body.nodes)
  | s@(.forLoop _ first condition post body) =>
    .statement s :: (first.nodes ++ condition.nodes ++ post.nodes ++ body.nodes)
  | s@(.forEach _ _ key target body) => .statement s :: (key.nodes ++ target.nodes ++ body.nodes)
  | s@(.call ..) => [.statement s]
  | s@(.scope _ _ body) => .statement s :: body.nodes
  | s@(.install _ handlers) => .statement s :: handlerNodes handlers
  | s@(.throw _ _ value) => .statement s :: optionalExpressionNodes value
  | s@(.compensate ..) => [.statement s]
  | .exit => [.statement .exit]
  | s@(.run _ value) => .statement s :: value.nodes
  | s@(.synchronized _ _ body) => .statement s :: body.nodes
  | s@(.spawn _ index bound into body) =>
    .statement s :: (index.nodes ++ bound.nodes ++ optionalPathNodes into ++ body.nodes)
  | .currentHandler => [.statement .currentHandler]
  | s@(.linkIn ..) => [.statement s]
  | s@(.linkOut ..) => [.statement s]
  | s@(.provideUntil _ provide finish) => .statement s :: (provide.nodes ++ finish.nodes)
  | s@(.courierChoice _ branches) => .statement s :: courierBranchNodes branches
  | s@(.notificationForward _ _ output) => .statement s :: optionalPathNodes output
  | s@(.solicitResponseForward _ _ output input) =>
    .statement s :: (optionalPathNodes output ++ optionalPathNodes input)

def childNodes : List Statement → List Node
  | [] => []
  | s :: rest => s.nodes ++ childNodes rest

def inputBranchNodes : List (Statement × Statement) → List Node
  | [] => []
  | (guard, body) :: rest => guard.nodes ++ body.nodes ++ inputBranchNodes rest

def conditionalBranchNodes : List (Expression × Statement) → List Node
  | [] => []
  | (condition, body) :: rest => condition.nodes ++ body.nodes ++ conditionalBranchNodes rest

def otherwiseNodes : Option Statement → List Node
  | none => []
  | some s => s.nodes

def handlerNodes : List (String × Statement) → List Node
  | [] => []
  | (_, body) :: rest => body.nodes ++ handlerNodes rest

def courierBranchNodes : List CourierBranch → List Node
  | [] => []
  | ⟨_, _, _, _, body⟩ :: rest => body.nodes ++ courierBranchNodes rest

end

end Statement

def Declaration.nodes (d : Declaration) : List Node :=
  .declaration d ::
    match d with
    | .type t => t.nodes.map .type
    | .interface i => [.interface i]
    | .inputPort p => .inputPort p :: p.allOperations.map .operation
    | .outputPort p => .outputPort p :: p.allOperations.map .operation
    | .execution e => [.execution e]
    | .correlationSet s => [.correlationSet s]
    | .procedure p => .procedure p :: p.body.nodes
    | .courier c => .courier c :: c.body.nodes
    | .embeddedService s => [.embeddedService s]

def Program.nodes (p : Program) : List Node :=
  .program p :: p.declarations.flatMap Declaration.nodes

end ServiceCheck
