import ServiceCheck.Correlation
import ServiceCheck.Types.Equivalence
import ServiceCheck.Verification.Tables

set_option autoImplicit false

namespace ServiceCheck

section Named

variable {α : Type} (name : α → String)

/-- The elements that are the first of their name, some names being taken. -/
def firstNamed : List String → List α → List α
  | _, [] => []
  | taken, x :: rest =>
    if name x ∈ taken then firstNamed taken rest else x :: firstNamed (name x :: taken) rest

def laterNamed : List String → List α → List α
  | _, [] => []
  | taken, x :: rest =>
    if name x ∈ taken then x :: laterNamed taken rest else laterNamed (name x :: taken) rest

end Named

structure WrittenLink where
  position : Position
  target : String
  owner : String
deriving DecidableEq, Repr

def TypeDefinition.links (owner : TypeDefinition) : List WrittenLink :=
  owner.nodes.filterMap fun
    | .link h target => some ⟨h.position, target, owner.id⟩
    | _ => none

namespace Operation

def compareFaults (types : TypeMap) (others : Dictionary TypeDefinition) :
    List (String × TypeDefinition) → Comparing
  | [] => .same .empty
  | (name, fault) :: rest =>
    match Dictionary.get? others name with
    | none => .different
    | some other =>
      (fault.compare types other).andThen fun _ => compareFaults types others rest

/-- The parts of two signatures, each with its comparison. Replies are compared where both
operations have one. -/
def compareSignatures (types : TypeMap) (first later : Operation) : List (String × Comparing) :=
  [("kind", if first.kind = later.kind then .same .empty else .different),
    ("request type", first.request.compare types later.request)] ++
  match first.reply, later.reply with
  | some a, some b =>
    [("response type", a.response.compare types b.response),
      ("faults",
        if a.faults.length = b.faults.length then compareFaults types b.faults a.faults
        else .different)]
  | _, _ => []

end Operation

namespace Program

def types (p : Program) : List TypeDefinition :=
  p.declarations.filterMap fun
    | .type t => some t
    | _ => none

/-- All types that can be named: the caller's, then the declared ones under new names. -/
def allTypes (callerTypes : TypeMap) (p : Program) : TypeMap :=
  ((Tables.initial callerTypes).declareAll p.declarations).types

def links (p : Program) : List WrittenLink := p.types.flatMap TypeDefinition.links

def laterTypes (callerTypes : TypeMap) (p : Program) : List TypeDefinition :=
  laterNamed TypeDefinition.id (Dictionary.keys callerTypes) p.types

/-- What the input ports offer: in each port the first operation of every name. -/
def exposedOperations (p : Program) : List Operation :=
  p.inputPorts.flatMap fun port => firstNamed Operation.id [] port.allOperations

def firstOperations (p : Program) : List Operation :=
  firstNamed Operation.id [] p.exposedOperations

def laterOperations (p : Program) : List Operation :=
  laterNamed Operation.id [] p.exposedOperations

def requestIndex (p : Program) : CorrelationSet.RequestIndex :=
  p.firstOperations.foldl (fun index o => Dictionary.push index o.request.id o.id) []

def linkProblems (callerTypes : TypeMap) (p : Program) : List Diagnostic :=
  let types := p.allTypes callerTypes
  (p.links.filter fun link => !Dictionary.contains types link.target).map fun link =>
    (Diagnostic.report .unknownTypeReference link.position link.target).hint
      ("referenced by type `" ++ link.owner ++ "`")

def typeComparisons (callerTypes : TypeMap) (p : Program) :
    List (TypeDefinition × TypeDefinition × Comparing) :=
  let types := p.allTypes callerTypes
  (p.laterTypes callerTypes).filterMap fun later =>
    (Dictionary.get? types later.id).map fun first => (later, first, first.compare types later)

def typeProblems (callerTypes : TypeMap) (p : Program) : List Diagnostic :=
  (p.typeComparisons callerTypes).filterMap fun (later, first, comparing) =>
    if comparing = .different then
      some ((Diagnostic.report .typeEquivalenceMismatch later.position later.id).relate
        "first defined here" first.position)
    else none

def signatureComparisons (callerTypes : TypeMap) (p : Program) :
    List (Operation × Operation × List (String × Comparing)) :=
  let types := p.allTypes callerTypes
  let firsts := p.firstOperations
  p.laterOperations.filterMap fun later =>
    (firsts.find? (·.id = later.id)).map fun first =>
      (later, first, Operation.compareSignatures types first later)

def signatureProblems (callerTypes : TypeMap) (p : Program) : List Diagnostic :=
  (p.signatureComparisons callerTypes).filterMap fun (later, first, parts) =>
    let differing := (parts.filter fun part => part.2 = .different).map (·.1)
    if differing.isEmpty then none
    else
      some (((Diagnostic.report .operationSignatureMismatch later.position later.id).relate
        "first declared here" first.position).hint
          ("differs in " ++ ", ".intercalate differing))

def comparesForever (callerTypes : TypeMap) (p : Program) : Bool :=
  ((p.typeComparisons callerTypes).any fun c => c.2.2 = .unending) ||
    (p.signatureComparisons callerTypes).any fun c => c.2.2.any fun part => part.2 = .unending

end Program

end ServiceCheck
