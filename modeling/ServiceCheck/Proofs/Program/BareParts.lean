import Mathlib.Data.List.Basic
import ServiceCheck.Proofs.Correlation.StaticPaths
import ServiceCheck.Proofs.Program.Bare

set_option autoImplicit false

namespace ServiceCheck

def PathStep.bare (s : PathStep) : PathStep := ⟨s.key.bare, s.index.map Expression.bare⟩

def TreeEdit.bare : TreeEdit → TreeEdit
  | .assign path value => .assign path.bare value.bare
  | .deepCopy path value => .deepCopy path.bare value.bare
  | .pointsTo path target => .pointsTo path.bare target.bare

def CourierBranch.bare (b : CourierBranch) : CourierBranch :=
  ⟨b.target, b.kind, b.input.map VariablePath.bare, b.output.map VariablePath.bare, b.body.bare⟩

section Lists

@[simp] theorem Expression.bareOperands_eq (operands : List (Arithmetic × Expression)) :
    Expression.bareOperands operands = operands.map fun operand => (operand.1, operand.2.bare) := by
  induction operands with
  | nil => rfl
  | cons operand rest ih => simp [Expression.bareOperands, ih]

@[simp] theorem Expression.bareChildren_eq (children : List Expression) :
    Expression.bareChildren children = children.map Expression.bare := by
  induction children with
  | nil => rfl
  | cons child rest ih => simp [Expression.bareChildren, ih]

@[simp] theorem PathStep.bareAll_eq (steps : List PathStep) :
    PathStep.bareAll steps = steps.map PathStep.bare := by
  induction steps with
  | nil => rfl
  | cons step rest ih =>
    obtain ⟨key, index⟩ := step
    cases index <;> simp [PathStep.bareAll, PathStep.bare, ih]

@[simp] theorem TreeEdit.bareAll_eq (edits : List TreeEdit) :
    TreeEdit.bareAll edits = edits.map TreeEdit.bare := by
  induction edits with
  | nil => rfl
  | cons edit rest ih => cases edit <;> simp [TreeEdit.bareAll, TreeEdit.bare, ih]

namespace Statement

@[simp] theorem bareChildren_eq (children : List Statement) :
    bareChildren children = children.map bare := by
  induction children with
  | nil => rfl
  | cons child rest ih => simp [bareChildren, ih]

@[simp] theorem bareInputBranches_eq (branches : List (Statement × Statement)) :
    bareInputBranches branches = branches.map fun branch => (branch.1.bare, branch.2.bare) := by
  induction branches with
  | nil => rfl
  | cons branch rest ih => simp [bareInputBranches, ih]

@[simp] theorem bareConditionalBranches_eq (branches : List (Expression × Statement)) :
    bareConditionalBranches branches =
      branches.map fun branch => (branch.1.bare, branch.2.bare) := by
  induction branches with
  | nil => rfl
  | cons branch rest ih => simp [bareConditionalBranches, ih]

@[simp] theorem bareOtherwise_eq (otherwise : Option Statement) :
    bareOtherwise otherwise = otherwise.map bare := by
  cases otherwise <;> rfl

@[simp] theorem bareHandlers_eq (handlers : List (String × Statement)) :
    bareHandlers handlers = Dictionary.mapValues bare handlers := by
  induction handlers with
  | nil => rfl
  | cons handler rest ih => simp [bareHandlers, ih]

@[simp] theorem bareCourierBranches_eq (branches : List CourierBranch) :
    bareCourierBranches branches = branches.map CourierBranch.bare := by
  induction branches with
  | nil => rfl
  | cons branch rest ih =>
    obtain ⟨target, kind, input, output, body⟩ := branch
    simp [bareCourierBranches, CourierBranch.bare, ih]

end Statement

end Lists

section Paths

@[simp] theorem Expression.constantString?_bare (x : Expression) :
    x.bare.constantString? = x.constantString? := by
  cases x <;> rfl

@[simp] theorem Expression.constantInt?_bare (x : Expression) :
    x.bare.constantInt? = x.constantInt? := by
  cases x <;> rfl

@[simp] theorem Expression.isConstantInt_bare (x : Expression) :
    x.bare.isConstantInt = x.isConstantInt := by
  cases x <;> rfl

@[simp] theorem PathStep.isStatic_bare (s : PathStep) : s.bare.isStatic = s.isStatic := by
  obtain ⟨key, index⟩ := s
  cases index <;> simp [PathStep.isStatic, PathStep.bare]

@[simp] theorem PathStep.constants_bare (s : PathStep) : s.bare.constants = s.constants := by
  simp [PathStep.constants, PathStep.bare, Function.comp_def]

namespace VariablePath

variable (p q : VariablePath)

theorem bare_eq : p.bare = ⟨.unknown, p.kind, p.steps.map PathStep.bare⟩ := by
  cases p
  simp [bare]

@[simp] theorem kind_bare : p.bare.kind = p.kind := by rw [bare_eq]

@[simp] theorem steps_bare : p.bare.steps = p.steps.map PathStep.bare := by rw [bare_eq]

@[simp] theorem isGlobal_bare : p.bare.isGlobal = p.isGlobal := by simp [isGlobal]

@[simp] theorem isCorrelation_bare : p.bare.isCorrelation = p.isCorrelation := by
  simp [isCorrelation]

@[simp] theorem isStatic_bare : p.bare.isStatic = p.isStatic := by
  simp [isStatic, Function.comp_def]

@[simp] theorem rootName?_bare : p.bare.rootName? = p.rootName? := by
  simp only [rootName?, steps_bare, List.head?_map]
  cases p.steps.head? <;> simp [PathStep.bare]

@[simp] theorem keys?_bare : p.bare.keys? = p.keys? := by
  simp [keys?, List.mapM_map, PathStep.bare, Function.comp_def]

@[simp] theorem text_bare : p.bare.text = p.text := by
  rw [text, keys?_bare, text]

variable {p q}

/-- Keys and indexes that are paths themselves compare with their positions. A static path has
none. -/
theorem samePath_bare (hp : p.isStatic = true) (hq : q.isStatic = true) :
    p.bare.samePath q.bare = p.samePath q := by
  have hp' : p.bare.isStatic = true := by rw [isStatic_bare, hp]
  have hq' : q.bare.isStatic = true := by rw [isStatic_bare, hq]
  rw [Bool.eq_iff_iff, samePath_iff hp' hq', samePath_iff hp hq]
  simp [Function.comp_def]

end VariablePath

end Paths

namespace Node

def bare : Node → Node
  | .program p => .program p.bare
  | .declaration d => .declaration d.bare
  | .type t => .type t.bare
  | .interface i => .interface i.bare
  | .inputPort p => .inputPort p.bare
  | .outputPort p => .outputPort (Port.bare p)
  | .operation o => .operation o.bare
  | .execution e => .execution e.bare
  | .correlationSet s => .correlationSet s.bare
  | .procedure p => .procedure p.bare
  | .courier c => .courier c.bare
  | .embeddedService s => .embeddedService s.bare
  | .statement s => .statement s.bare
  | .expression x => .expression x.bare
  | .path p => .path p.bare

end Node

theorem TreeEdit.parts_bare (e : TreeEdit) : e.bare.parts = e.parts.map Node.bare := by
  cases e <;> rfl

theorem Expression.parts_bare (x : Expression) : x.bare.parts = x.parts.map Node.bare := by
  cases x <;>
    simp [Expression.bare, Expression.parts, Node.bare, TreeEdit.parts_bare, List.flatMap_map,
      List.map_flatMap]

theorem PathStep.parts_bare (s : PathStep) : s.bare.parts = s.parts.map Node.bare := by
  obtain ⟨key, index⟩ := s
  cases index <;> rfl

theorem VariablePath.parts_bare (p : VariablePath) : p.bare.parts = p.parts.map Node.bare := by
  simp [VariablePath.parts, PathStep.parts_bare, List.flatMap_map, List.map_flatMap]

theorem CourierBranch.parts_bare (b : CourierBranch) : b.bare.parts = b.parts.map Node.bare := by
  obtain ⟨target, kind, input, output, body⟩ := b
  cases input <;> cases output <;> rfl

theorem Statement.parts_bare (s : Statement) : s.bare.parts = s.parts.map Node.bare := by
  have hpath : ∀ path : Option VariablePath, (path.map VariablePath.bare).toList.map Node.path =
      (path.toList.map Node.path).map Node.bare := by
    intro path
    cases path <;> rfl
  have hvalue : ∀ value : Option Expression,
      (value.map Expression.bare).toList.map Node.expression =
        (value.toList.map Node.expression).map Node.bare := by
    intro value
    cases value <;> rfl
  have hotherwise : ∀ s : Option Statement, (s.map Statement.bare).toList.map Node.statement =
      (s.toList.map Node.statement).map Node.bare := by
    intro s
    cases s <;> rfl
  cases s <;>
    simp [Statement.bare, Statement.parts, Node.bare, hpath, hvalue, hotherwise,
      CourierBranch.parts_bare, Dictionary.mapValues, List.flatMap_map, List.map_flatMap]

namespace Statement

@[simp] theorem inputOperation?_bare (s : Statement) :
    s.bare.inputOperation? = s.inputOperation? := by
  cases s <;> rfl

@[simp] theorem isInput_bare (s : Statement) : s.bare.isInput = s.isInput := by
  cases s <;> rfl

@[simp] theorem first_bare (s : Statement) : s.bare.first = s.first.bare := by
  induction s using first.induct with
  | case1 child rest ih => simp [bare, first, ih]
  | case2 s h =>
    rw [first.eq_2 s h]
    cases s with
    | sequence children =>
      cases children with
      | nil => rfl
      | cons child rest => cases h child rest rfl
    | _ => rfl

end Statement

section Ports

@[simp] theorem Operation.id_bare (o : Operation) : o.bare.id = o.id := rfl

@[simp] theorem Operation.kind_bare (o : Operation) : o.bare.kind = o.kind := by
  simp [Operation.kind, Operation.bare]

@[simp] theorem Operation.faults_bare (o : Operation) :
    o.bare.faults = Dictionary.mapValues TypeDefinition.bare o.faults := by
  obtain ⟨position, id, request, reply⟩ := o
  cases reply <;> rfl

@[simp] theorem Operation.types_bare (o : Operation) :
    o.bare.types = o.types.map TypeDefinition.bare := by
  obtain ⟨position, id, request, reply⟩ := o
  cases reply <;> simp [Operation.types, Operation.bare, Reply.bare]

@[simp] theorem Port.id_bare (p : Port) : p.bare.id = p.id := rfl

@[simp] theorem Port.allOperations_bare (p : Port) :
    p.bare.allOperations = p.allOperations.map Operation.bare := by
  simp [Port.allOperations, Port.bare, Interface.bare, List.flatMap_map, List.map_flatMap]

@[simp] theorem Port.findOperation?_bare (p : Port) (id : String) :
    p.bare.findOperation? id = (p.findOperation? id).map Operation.bare := by
  rw [Port.findOperation?, Port.allOperations_bare, List.find?_map]
  rfl

@[simp] theorem InputPort.toPort_bare (p : InputPort) : p.bare.toPort = p.toPort.bare := rfl

end Ports

namespace Program

variable (p : Program)

@[simp] theorem declarations_bare : p.bare.declarations = p.declarations.map Declaration.bare := rfl

/-- What a choice among the declarations gives, where the choice does not look at positions. -/
theorem filterMap_bare {α : Type} {choose : Declaration → Option α} {f : α → α}
    (h : ∀ d : Declaration, choose d.bare = (choose d).map f) :
    p.bare.declarations.filterMap choose = (p.declarations.filterMap choose).map f := by
  rw [declarations_bare, List.filterMap_map, List.map_filterMap]
  exact List.filterMap_congr fun d _ => h d

@[simp] theorem procedures_bare : p.bare.procedures = p.procedures.map Procedure.bare :=
  p.filterMap_bare fun d => by cases d <;> rfl

@[simp] theorem inputPorts_bare : p.bare.inputPorts = p.inputPorts.map InputPort.bare :=
  p.filterMap_bare fun d => by cases d <;> rfl

@[simp] theorem outputPorts_bare : p.bare.outputPorts = p.outputPorts.map Port.bare :=
  p.filterMap_bare fun d => by cases d <;> rfl

@[simp] theorem correlationSets_bare :
    p.bare.correlationSets = p.correlationSets.map CorrelationSet.bare :=
  p.filterMap_bare fun d => by cases d <;> rfl

@[simp] theorem executionMode_bare : p.bare.executionMode = p.executionMode := by
  unfold executionMode
  rw [p.filterMap_bare (f := id) fun d => by cases d <;> rfl, List.map_id]

end Program

end ServiceCheck
