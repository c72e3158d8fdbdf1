import ServiceCheck.Proofs.Program.Written
import ServiceCheck.Verification.Verdict

/-!
Programs with all positions forgotten, also those of paths inside paths. Two programs are the same
but for positions when they are the same once bare.
-/

set_option autoImplicit false

namespace ServiceCheck

namespace Dictionary

variable {α β : Type}

def mapValues (f : α → β) (d : Dictionary α) : Dictionary β := d.map fun e => (e.1, f e.2)

variable (f : α → β) (d : Dictionary α)

@[simp] theorem mapValues_cons (e : String × α) :
    mapValues f (e :: d) = (e.1, f e.2) :: mapValues f d := rfl

@[simp] theorem mapValues_append (d' : Dictionary α) :
    mapValues f (d ++ d') = mapValues f d ++ mapValues f d' := List.map_append

theorem flatMap_mapValues {γ : Type} (g : String × β → List γ) :
    (mapValues f d).flatMap g = d.flatMap fun e => g (e.1, f e.2) :=
  List.flatMap_map _ g d

theorem foldl_mapValues {γ : Type} (g : γ → String × β → γ) (start : γ) :
    (mapValues f d).foldl g start = d.foldl (fun c e => g c (e.1, f e.2)) start := List.foldl_map

@[simp] theorem length_mapValues : (mapValues f d).length = d.length := List.length_map _

@[simp] theorem keys_mapValues : keys (mapValues f d) = keys d := by
  simp [keys, mapValues]

@[simp] theorem values_mapValues : values (mapValues f d) = (values d).map f := by
  simp [values, mapValues]

@[simp] theorem get?_mapValues (key : String) : get? (mapValues f d) key = (get? d key).map f := by
  induction d with
  | nil => rfl
  | cons e rest ih =>
    obtain ⟨k, v⟩ := e
    by_cases h : k = key <;> simp [get?_cons, h, ih]

@[simp] theorem contains_mapValues (key : String) :
    contains (mapValues f d) key = contains d key := by
  simp [contains]

theorem setNew_mapValues (key : String) (value : α) :
    setNew (mapValues f d) key (f value) = mapValues f (setNew d key value) := by
  simp only [setNew, contains_mapValues]
  split <;> simp [mapValues]

theorem set_mapValues (key : String) (value : α) :
    set (mapValues f d) key (f value) = mapValues f (set d key value) := by
  induction d with
  | nil => rfl
  | cons e rest ih =>
    obtain ⟨k, v⟩ := e
    by_cases h : k = key <;> simp [set, h, ih]

theorem push_mapValues (d : Dictionary (List α)) (key : String) (value : α) :
    push (mapValues (List.map f) d) key (f value) = mapValues (List.map f) (push d key value) := by
  rw [push, push, ← set_mapValues, get?_mapValues]
  cases get? d key <;> simp

theorem foldl_push_mapValues (entries : Dictionary α) (d : Dictionary (List α)) :
    (mapValues f entries).foldl (fun d e => push d e.1 e.2) (mapValues (List.map f) d) =
      mapValues (List.map f) (entries.foldl (fun d e => push d e.1 e.2) d) := by
  induction entries generalizing d with
  | nil => rfl
  | cons e rest ih =>
    simp only [mapValues_cons, List.foldl_cons, push_mapValues, ih]

theorem foldl_setNew_mapValues {f : α → α} {key : α → String} (h : ∀ x, key (f x) = key x)
    (items : List α) (d : Dictionary α) :
    (items.map f).foldl (fun d x => setNew d (key x) x) (mapValues f d) =
      mapValues f (items.foldl (fun d x => setNew d (key x) x) d) := by
  induction items generalizing d with
  | nil => rfl
  | cons x rest ih => simp only [List.map_cons, List.foldl_cons, h, setNew_mapValues, ih]

end Dictionary

def TypeHead.bare (h : TypeHead) : TypeHead := { h with position := .unknown }

namespace TypeDefinition

mutual

def bare : TypeDefinition → TypeDefinition
  | .inline h n s u => .inline h.bare n (bareBlock s) u
  | .link h target => .link h.bare target
  | .choice h l r => .choice h.bare l.bare r.bare

def bareBlock : Option (List (String × TypeDefinition)) → Option (List (String × TypeDefinition))
  | none => none
  | some members => some (bareMembers members)

def bareMembers : List (String × TypeDefinition) → List (String × TypeDefinition)
  | [] => []
  | (key, t) :: rest => (key, t.bare) :: bareMembers rest

end

end TypeDefinition

def TypeMap.bare (types : TypeMap) : TypeMap := Dictionary.mapValues TypeDefinition.bare types

mutual

def Expression.bare : Expression → Expression
  | .literal value => .literal value
  | .read path => .read path.bare
  | .sum operands => .sum (Expression.bareOperands operands)
  | .product operands => .product (Expression.bareOperands operands)
  | .or children => .or (Expression.bareChildren children)
  | .and children => .and (Expression.bareChildren children)
  | .not inner => .not inner.bare
  | .compare comparison left right => .compare comparison left.bare right.bare
  | .vectorSize path => .vectorSize path.bare
  | .isType path => .isType path.bare
  | .instanceOf inner target => .instanceOf inner.bare target.bare
  | .cast inner target => .cast inner.bare target
  | .inlineTree root edits => .inlineTree root.bare (TreeEdit.bareAll edits)
  | .fresh => .fresh
  | .void => .void
  | .installFixed path => .installFixed path.bare

def Expression.bareOperands : List (Arithmetic × Expression) → List (Arithmetic × Expression)
  | [] => []
  | (operator, x) :: rest => (operator, x.bare) :: Expression.bareOperands rest

def Expression.bareChildren : List Expression → List Expression
  | [] => []
  | x :: rest => x.bare :: Expression.bareChildren rest

def VariablePath.bare : VariablePath → VariablePath
  | ⟨_, kind, steps⟩ => ⟨.unknown, kind, PathStep.bareAll steps⟩

def PathStep.bareAll : List PathStep → List PathStep
  | [] => []
  | ⟨key, none⟩ :: rest => ⟨key.bare, none⟩ :: PathStep.bareAll rest
  | ⟨key, some index⟩ :: rest => ⟨key.bare, some index.bare⟩ :: PathStep.bareAll rest

def TreeEdit.bareAll : List TreeEdit → List TreeEdit
  | [] => []
  | .assign path value :: rest => .assign path.bare value.bare :: TreeEdit.bareAll rest
  | .deepCopy path value :: rest => .deepCopy path.bare value.bare :: TreeEdit.bareAll rest
  | .pointsTo path target :: rest => .pointsTo path.bare target.bare :: TreeEdit.bareAll rest

end

namespace Statement

mutual

def bare : Statement → Statement
  | .nullprocess => .nullprocess
  | .sequence children => .sequence (bareChildren children)
  | .parallel children => .parallel (bareChildren children)
  | .inputChoice _ branches => .inputChoice .unknown (bareInputBranches branches)
  | .oneWay _ operation input => .oneWay .unknown operation (input.map VariablePath.bare)
  | .requestResponse _ operation input output process =>
    .requestResponse .unknown operation (input.map VariablePath.bare) (output.map Expression.bare)
      process.bare
  | .notification _ operation port output =>
    .notification .unknown operation port (output.map Expression.bare)
  | .solicitResponse _ operation port output input =>
    .solicitResponse .unknown operation port (output.map Expression.bare)
      (input.map VariablePath.bare)
  | .assign _ path value => .assign .unknown path.bare value.bare
  | .compoundAssign _ operator path value => .compoundAssign .unknown operator path.bare value.bare
  | .pointer _ left right => .pointer .unknown left.bare right.bare
  | .deepCopy _ left right => .deepCopy .unknown left.bare right.bare
  | .step _ kind path => .step .unknown kind path.bare
  | .undef _ path => .undef .unknown path.bare
  | .conditional _ branches otherwise =>
    .conditional .unknown (bareConditionalBranches branches) (bareOtherwise otherwise)
  | .whileLoop _ condition body => .whileLoop .unknown condition.bare body.bare
  | .forLoop _ first condition post body =>
    .forLoop .unknown first.bare condition.bare post.bare body.bare
  | .forEach _ kind key target body => .forEach .unknown kind key.bare target.bare body.bare
  | .call _ procedure => .call .unknown procedure
  | .scope _ id body => .scope .unknown id body.bare
  | .install _ handlers => .install .unknown (bareHandlers handlers)
  | .throw _ fault value => .throw .unknown fault (value.map Expression.bare)
  | .compensate _ id => .compensate .unknown id
  | .exit => .exit
  | .run _ value => .run .unknown value.bare
  | .synchronized _ id body => .synchronized .unknown id body.bare
  | .spawn _ index bound into body =>
    .spawn .unknown index.bare bound.bare (into.map VariablePath.bare) body.bare
  | .currentHandler => .currentHandler
  | .linkIn _ id => .linkIn .unknown id
  | .linkOut _ id => .linkOut .unknown id
  | .provideUntil _ provide finish => .provideUntil .unknown provide.bare finish.bare
  | .courierChoice _ branches => .courierChoice .unknown (bareCourierBranches branches)
  | .notificationForward _ port output =>
    .notificationForward .unknown port (output.map VariablePath.bare)
  | .solicitResponseForward _ port output input =>
    .solicitResponseForward .unknown port (output.map VariablePath.bare)
      (input.map VariablePath.bare)

def bareChildren : List Statement → List Statement
  | [] => []
  | s :: rest => s.bare :: bareChildren rest

def bareInputBranches : List (Statement × Statement) → List (Statement × Statement)
  | [] => []
  | (guard, body) :: rest => (guard.bare, body.bare) :: bareInputBranches rest

def bareConditionalBranches : List (Expression × Statement) → List (Expression × Statement)
  | [] => []
  | (condition, body) :: rest => (condition.bare, body.bare) :: bareConditionalBranches rest

def bareOtherwise : Option Statement → Option Statement
  | none => none
  | some s => some s.bare

def bareHandlers : List (String × Statement) → List (String × Statement)
  | [] => []
  | (fault, body) :: rest => (fault, body.bare) :: bareHandlers rest

def bareCourierBranches : List CourierBranch → List CourierBranch
  | [] => []
  | ⟨target, kind, input, output, body⟩ :: rest =>
    ⟨target, kind, input.map VariablePath.bare, output.map VariablePath.bare, body.bare⟩ ::
      bareCourierBranches rest

end

end Statement

def Reply.bare (r : Reply) : Reply :=
  ⟨r.response.bare, Dictionary.mapValues TypeDefinition.bare r.faults⟩

def Operation.bare (o : Operation) : Operation :=
  ⟨.unknown, o.id, o.request.bare, o.reply.map Reply.bare⟩

def Interface.bare (i : Interface) : Interface :=
  ⟨.unknown, i.name, Dictionary.mapValues Operation.bare i.operations⟩

def Port.bare (p : Port) : Port :=
  ⟨.unknown, p.id, p.location, p.protocol, p.operations.map Operation.bare,
    p.interfaces.map Interface.bare⟩

def InputPort.bare (p : InputPort) : InputPort := ⟨p.toPort.bare, p.aggregations⟩

def Execution.bare (e : Execution) : Execution := { e with position := .unknown }

def CorrelationAlias.bare (a : CorrelationAlias) : CorrelationAlias := ⟨a.guardType, a.path.bare⟩

def CorrelationVariable.bare (v : CorrelationVariable) : CorrelationVariable :=
  ⟨v.path.bare, v.aliases.map CorrelationAlias.bare⟩

def CorrelationSet.bare (s : CorrelationSet) : CorrelationSet :=
  ⟨.unknown, s.members.map CorrelationVariable.bare⟩

def Procedure.bare (p : Procedure) : Procedure := ⟨.unknown, p.id, p.body.bare⟩

def Courier.bare (c : Courier) : Courier := ⟨.unknown, c.inputPort, c.body.bare⟩

def EmbeddedService.bare (s : EmbeddedService) : EmbeddedService := { s with position := .unknown }

def Declaration.bare : Declaration → Declaration
  | .type t => .type t.bare
  | .interface i => .interface i.bare
  | .inputPort p => .inputPort p.bare
  | .outputPort p => .outputPort (Port.bare p)
  | .execution e => .execution e.bare
  | .correlationSet s => .correlationSet s.bare
  | .procedure p => .procedure p.bare
  | .courier c => .courier c.bare
  | .embeddedService s => .embeddedService s.bare

def Program.bare (p : Program) : Program := ⟨.unknown, p.declarations.map Declaration.bare⟩

def CorrelationPair.bare (pair : CorrelationPair) : CorrelationPair :=
  ⟨pair.sessionPath.bare, pair.messagePath.bare⟩

def Binding.bare (b : Binding) : Binding := ⟨b.set, b.pairs.map CorrelationPair.bare⟩

def CorrelationFunction.bare (f : CorrelationFunction) : CorrelationFunction :=
  ⟨f.sets.map CorrelationSet.bare, Dictionary.mapValues Binding.bare f.bindings⟩

def Validated.bare (v : Validated) : Validated := ⟨v.correlation.bare, v.mode, v.constants⟩

end ServiceCheck
