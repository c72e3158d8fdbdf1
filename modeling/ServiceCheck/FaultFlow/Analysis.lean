import ServiceCheck.Diagnostic.Basic
import ServiceCheck.FaultFlow.ScopeForest
import ServiceCheck.Program.Declaration

/-!
The scopes of a behaviour. Scope blocks and the processes of request-responses open a scope,
handlers catch in the scope that installs them, and procedures are read at the place of the call.
-/

set_option autoImplicit false

namespace ServiceCheck

/-- The forest built so far and the events logged on the way. -/
structure FaultFlow where
  forest : ScopeForest
  events : Array LogEvent

namespace FaultFlow

def start : FaultFlow := ⟨.empty, #[]⟩

def update (change : ScopeForest → ScopeForest) (w : FaultFlow) : FaultFlow :=
  { w with forest := change w.forest }

def log (event : LogEvent) (w : FaultFlow) : FaultFlow := { w with events := w.events.push event }

def within (parent : Nat) (step : Nat → FaultFlow → FaultFlow) (w : FaultFlow) : FaultFlow :=
  step w.forest.size (w.update (.addChild parent))

/-- A handler named `default` catches every fault. -/
def caughtFault (handler : String) : CaughtFault :=
  if handler = defaultHandler then .all else .named handler

def handleAll (current : Nat) (handlers : List String) (w : FaultFlow) : FaultFlow :=
  handlers.foldl (fun w h => w.update (.handle current (caughtFault h))) w

/-- The declared faults of a called operation may reach the caller. -/
def solicit (ports : Dictionary OutputPort) (current : Nat) (operation port : String)
    (w : FaultFlow) : FaultFlow :=
  match (Dictionary.get? ports port).bind (·.findOperation? operation) with
  | none => w
  | some o =>
    (Dictionary.keys o.faults).foldl
      (fun w name => w.update (.throw current ⟨name, some (operation ++ "@" ++ port)⟩)) w

abbrev CallRule := Nat → String → FaultFlow → FaultFlow

variable (ports : Dictionary OutputPort) (call : CallRule)

mutual

/-- Reads a statement in a scope. A handler is read in a scope beside the one that it guards, since
nothing there catches its own faults. Courier choices serve no operation of the program. -/
def visit (current : Nat) : Statement → FaultFlow → FaultFlow
  | .throw _ fault _, w => w.update (.throw current ⟨fault, none⟩)
  | .scope _ _ body, w => w.within current fun scope w => visit scope body w
  | .requestResponse _ _ _ _ process, w => w.within current fun scope w => visit scope process w
  | .solicitResponse _ operation port _ _, w => w.solicit ports current operation port
  | .install _ handlers, w =>
    let w := w.handleAll current (handlers.map (·.1))
    visitHandlers ((w.forest.parent? current).getD current) handlers w
  | .call _ procedure, w => call current procedure w
  | .provideUntil _ provide finish, w => visit current provide (visit current finish w)
  | .whileLoop _ _ body, w => visit current body w
  | .forLoop _ _ _ _ body, w => visit current body w
  | .forEach _ _ _ _ body, w => visit current body w
  | .spawn _ _ _ _ body, w => visit current body w
  | .synchronized _ _ body, w => visit current body w
  | .sequence children, w => visitChildren current children w
  | .parallel children, w => visitChildren current children w
  | .inputChoice _ branches, w => visitInputBranches current branches w
  | .conditional _ branches otherwise, w =>
    visitOtherwise current otherwise (visitConditionalBranches current branches w)
  | _, w => w

def visitChildren (current : Nat) : List Statement → FaultFlow → FaultFlow
  | [], w => w
  | s :: rest, w => visitChildren current rest (visit current s w)

def visitInputBranches (current : Nat) : List (Statement × Statement) → FaultFlow → FaultFlow
  | [], w => w
  | (guard, body) :: rest, w =>
    visitInputBranches current rest (visit current body (visit current guard w))

def visitConditionalBranches (current : Nat) :
    List (Expression × Statement) → FaultFlow → FaultFlow
  | [], w => w
  | (_, body) :: rest, w => visitConditionalBranches current rest (visit current body w)

def visitOtherwise (current : Nat) : Option Statement → FaultFlow → FaultFlow
  | none, w => w
  | some s, w => visit current s w

def visitHandlers (target : Nat) : List (String × Statement) → FaultFlow → FaultFlow
  | [], w => w
  | (_, body) :: rest, w =>
    visitHandlers target rest (w.within target fun scope w => visit scope body w)

end

/-- Reads the body of the called procedure, unless that is being read already. -/
def inlineCall (procedures : Dictionary Procedure)
    (read : List String → Nat → Statement → FaultFlow → FaultFlow) (reading : List String) :
    CallRule := fun current id w =>
  match Dictionary.get? procedures id with
  | none => w
  | some p =>
    if p.id ∈ reading then
      w.log ⟨.debug, "skipping recursive call to `" ++ id ++ "`", []⟩
    else read (p.id :: reading) current p.body w

/-- Reads a statement while some procedures are being read, with a budget of procedures that may
still be entered. -/
def readUpTo (procedures : Dictionary Procedure) :
    Nat → List String → Nat → Statement → FaultFlow → FaultFlow
  | 0, reading => visit ports (inlineCall procedures (fun _ _ _ w => w) reading)
  | budget + 1, reading => visit ports (inlineCall procedures (readUpTo procedures budget) reading)

end FaultFlow

end ServiceCheck
