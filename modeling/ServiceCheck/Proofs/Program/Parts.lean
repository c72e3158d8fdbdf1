import ServiceCheck.Traversal

set_option autoImplicit false

namespace ServiceCheck

def TypeDefinition.parts : TypeDefinition → List Node
  | .inline _ _ s _ => (s.getD []).map fun member => .type member.2
  | .link .. => []
  | .choice _ l r => [.type l, .type r]

def TreeEdit.parts : TreeEdit → List Node
  | .assign path value | .deepCopy path value => [.path path, .expression value]
  | .pointsTo path target => [.path path, .path target]

def Expression.parts : Expression → List Node
  | .literal _ | .fresh | .void => []
  | .read path | .vectorSize path | .isType path | .installFixed path => [.path path]
  | .sum operands | .product operands => operands.map fun operand => .expression operand.2
  | .or children | .and children => children.map .expression
  | .not inner | .cast inner _ => [.expression inner]
  | .compare _ left right => [.expression left, .expression right]
  | .instanceOf inner target => [.expression inner, .type target]
  | .inlineTree root edits => .expression root :: edits.flatMap TreeEdit.parts

def PathStep.parts (s : PathStep) : List Node :=
  .expression s.key :: s.index.toList.map .expression

def VariablePath.parts (p : VariablePath) : List Node := p.steps.flatMap PathStep.parts

def CourierBranch.parts (b : CourierBranch) : List Node :=
  b.input.toList.map .path ++ b.output.toList.map .path ++ [.statement b.body]

def Statement.parts : Statement → List Node
  | .nullprocess | .exit | .currentHandler | .call .. | .compensate .. | .linkIn .. | .linkOut .. =>
    []
  | .sequence children | .parallel children => children.map .statement
  | .inputChoice _ branches =>
    branches.flatMap fun branch => [.statement branch.1, .statement branch.2]
  | .oneWay _ _ input => input.toList.map .path
  | .requestResponse _ _ input output process =>
    input.toList.map .path ++ [.statement process] ++ output.toList.map .expression
  | .notification _ _ _ output => output.toList.map .expression
  | .solicitResponse _ _ _ output input => output.toList.map .expression ++ input.toList.map .path
  | .assign _ path value | .compoundAssign _ _ path value => [.path path, .expression value]
  | .pointer _ left right => [.path left, .path right]
  | .deepCopy _ left right => [.path left, .expression right]
  | .step _ _ path | .undef _ path => [.path path]
  | .conditional _ branches otherwise =>
    (branches.flatMap fun branch => [.expression branch.1, .statement branch.2]) ++
      otherwise.toList.map .statement
  | .whileLoop _ condition body => [.expression condition, .statement body]
  | .forLoop _ first condition post body =>
    [.statement first, .expression condition, .statement post, .statement body]
  | .forEach _ _ key target body => [.path key, .path target, .statement body]
  | .scope _ _ body | .synchronized _ _ body => [.statement body]
  | .install _ handlers => handlers.map fun handler => .statement handler.2
  | .throw _ _ value => value.toList.map .expression
  | .run _ value => [.expression value]
  | .spawn _ index bound into body =>
    [.path index, .expression bound] ++ into.toList.map .path ++ [.statement body]
  | .provideUntil _ provide finish => [.statement provide, .statement finish]
  | .courierChoice _ branches => branches.flatMap CourierBranch.parts
  | .notificationForward _ _ output => output.toList.map .path
  | .solicitResponseForward _ _ output input =>
    output.toList.map .path ++ input.toList.map .path

def Port.parts (p : Port) : List Node :=
  p.operations.map .operation ++ p.interfaces.map .interface

def CorrelationVariable.parts (v : CorrelationVariable) : List Node :=
  .path v.path :: v.aliases.map fun a => .path a.path

def Declaration.parts : Declaration → List Node
  | .type t => [.type t]
  | .interface i => [.interface i]
  | .inputPort p => [.inputPort p]
  | .outputPort p => [.outputPort p]
  | .execution e => [.execution e]
  | .correlationSet s => [.correlationSet s]
  | .procedure p => [.procedure p]
  | .courier c => [.courier c]
  | .embeddedService s => [.embeddedService s]

namespace Node

def parts : Node → List Node
  | .program p => p.declarations.map .declaration
  | .declaration d => d.parts
  | .type t => t.parts
  | .interface i => (Dictionary.values i.operations).map .operation
  | .inputPort p => p.toPort.parts
  | .outputPort p => p.parts
  | .operation o => o.types.map .type
  | .execution _ | .embeddedService _ => []
  | .correlationSet s => s.members.flatMap CorrelationVariable.parts
  | .procedure p => [.statement p.body]
  | .courier c => [.statement c.body]
  | .statement s => s.parts
  | .expression x => x.parts
  | .path p => p.parts

section Size

variable {α : Type} [SizeOf α] {y : Node}

theorem sizeOf_le_of_mem_map {items : List α} {node : α → Node} (h : y ∈ items.map node)
    (hnode : ∀ item, sizeOf (node item) ≤ 1 + sizeOf item) : sizeOf y ≤ sizeOf items := by
  obtain ⟨item, hitem, rfl⟩ := List.mem_map.mp h
  have hle := hnode item
  have hlt := List.sizeOf_lt_of_mem hitem
  omega

theorem sizeOf_lt_of_mem_flatMap {items : List α} {nodes : α → List Node}
    (h : y ∈ items.flatMap nodes) (hnodes : ∀ item, ∀ y ∈ nodes item, sizeOf y ≤ sizeOf item) :
    sizeOf y < sizeOf items := by
  obtain ⟨item, hitem, hy⟩ := List.mem_flatMap.mp h
  exact Nat.lt_of_le_of_lt (hnodes item y hy) (List.sizeOf_lt_of_mem hitem)

theorem sizeOf_le_of_mem_toList {o : Option α} {node : α → Node} (h : y ∈ o.toList.map node)
    (hnode : ∀ item, sizeOf (node item) ≤ 1 + sizeOf item) : sizeOf y ≤ sizeOf o := by
  cases o with
  | none => cases h
  | some item =>
    obtain rfl := List.mem_singleton.mp h
    exact hnode item

end Size

theorem sizeOf_lt_of_mem_type {t : TypeDefinition} {y : Node} (h : y ∈ t.parts) :
    sizeOf y < sizeOf (Node.type t) := by
  cases t with
  | inline hd n s u =>
    cases s with
    | none => cases h
    | some members =>
      have hle : sizeOf y ≤ sizeOf members :=
        sizeOf_le_of_mem_map h fun member => by cases member; simp
      simp
      omega
  | link => cases h
  | choice hd l r =>
    simp [TypeDefinition.parts] at h
    rcases h with rfl | rfl <;>
      simp only [Node.type.sizeOf_spec, TypeDefinition.choice.sizeOf_spec] <;> omega

theorem sizeOf_le_of_mem_edit {e : TreeEdit} {y : Node} (h : y ∈ e.parts) :
    sizeOf y ≤ sizeOf e := by
  cases e <;> simp [TreeEdit.parts] at h <;> rcases h with rfl | rfl <;> simp

theorem sizeOf_lt_of_mem_expression {x : Expression} {y : Node} (h : y ∈ x.parts) :
    sizeOf y < sizeOf (Node.expression x) := by
  have hoperands : ∀ {operands : List (Arithmetic × Expression)},
      y ∈ operands.map (fun operand => .expression operand.2) → sizeOf y ≤ sizeOf operands :=
    fun h => sizeOf_le_of_mem_map h fun operand => by cases operand; simp
  have hchildren : ∀ {children : List Expression},
      y ∈ children.map .expression → sizeOf y ≤ sizeOf children :=
    fun h => sizeOf_le_of_mem_map h fun child => by simp
  cases x <;> simp only [Expression.parts] at h
  case literal | fresh | void => cases h
  case sum | product =>
    have hle := hoperands h
    simp
    omega
  case or | and =>
    have hle := hchildren h
    simp
    omega
  case inlineTree =>
    rcases List.mem_cons.mp h with rfl | h
    · simp
      omega
    · have hlt := sizeOf_lt_of_mem_flatMap h fun _ _ => sizeOf_le_of_mem_edit
      simp
      omega
  all_goals
    simp at h
    rcases h with rfl | rfl <;> simp <;> omega

theorem sizeOf_lt_of_mem_path {p : VariablePath} {y : Node} (h : y ∈ p.parts) :
    sizeOf y < sizeOf (Node.path p) := by
  have hlt : sizeOf y < sizeOf p.steps := by
    refine sizeOf_lt_of_mem_flatMap h fun step y hy => ?_
    cases step with
    | mk key index =>
      rcases List.mem_cons.mp hy with rfl | hy
      · simp
      · have hle : sizeOf y ≤ sizeOf index := sizeOf_le_of_mem_toList hy fun index => by simp
        simp
        omega
  cases p
  simp at hlt ⊢
  omega

theorem sizeOf_le_of_mem_pair {α : Type} [SizeOf α] (node : α → Node)
    (hnode : ∀ a, sizeOf (node a) ≤ 1 + sizeOf a) {branch : α × Statement} {y : Node}
    (h : y ∈ [node branch.1, .statement branch.2]) : sizeOf y ≤ sizeOf branch := by
  obtain ⟨a, s⟩ := branch
  simp at h
  have hle := hnode a
  rcases h with rfl | rfl
  · simp
    omega
  · simp

theorem sizeOf_le_of_mem_branch {b : CourierBranch} {y : Node} (h : y ∈ b.parts) :
    sizeOf y ≤ sizeOf b := by
  cases b with
  | mk target kind input output body =>
    simp only [CourierBranch.parts, List.mem_append] at h
    rcases h with (h | h) | h
    · have hle := sizeOf_le_of_mem_toList h fun path => by simp
      simp
      omega
    · have hle := sizeOf_le_of_mem_toList h fun path => by simp
      simp
      omega
    · obtain rfl := List.mem_singleton.mp h
      simp
      omega

theorem sizeOf_lt_of_mem_statement {s : Statement} {y : Node} (h : y ∈ s.parts) :
    sizeOf y < sizeOf (Node.statement s) := by
  have hpath : ∀ {path : Option VariablePath},
      y ∈ path.toList.map .path → sizeOf y ≤ sizeOf path :=
    fun h => sizeOf_le_of_mem_toList h fun path => by simp
  have hvalue : ∀ {value : Option Expression},
      y ∈ value.toList.map .expression → sizeOf y ≤ sizeOf value :=
    fun h => sizeOf_le_of_mem_toList h fun value => by simp
  have hchildren : ∀ {children : List Statement},
      y ∈ children.map .statement → sizeOf y ≤ sizeOf children :=
    fun h => sizeOf_le_of_mem_map h fun child => by simp
  cases s <;> simp only [Statement.parts] at h
  case sequence | parallel =>
    have hle := hchildren h
    simp
    omega
  case inputChoice =>
    have hlt := sizeOf_lt_of_mem_flatMap h fun _ _ =>
      sizeOf_le_of_mem_pair .statement fun guard => by simp
    simp
    omega
  case oneWay | notificationForward =>
    have hle := hpath h
    simp
    omega
  case notification | throw =>
    have hle := hvalue h
    simp
    omega
  case requestResponse =>
    simp only [List.mem_append, List.mem_singleton] at h
    rcases h with (h | rfl) | h
    · have hle := hpath h
      simp
      omega
    · simp only [Node.statement.sizeOf_spec, Statement.requestResponse.sizeOf_spec]
      omega
    · have hle := hvalue h
      simp
      omega
  case solicitResponse =>
    rcases List.mem_append.mp h with h | h
    · have hle := hvalue h
      simp
      omega
    · have hle := hpath h
      simp
      omega
  case conditional branches otherwise =>
    rcases List.mem_append.mp h with h | h
    · have hlt := sizeOf_lt_of_mem_flatMap h fun _ _ =>
        sizeOf_le_of_mem_pair .expression fun condition => by simp
      simp
      omega
    · have hle : sizeOf y ≤ sizeOf otherwise := sizeOf_le_of_mem_toList h fun s => by simp
      simp
      omega
  case install handlers =>
    have hle : sizeOf y ≤ sizeOf handlers :=
      sizeOf_le_of_mem_map h fun handler => by cases handler; simp
    simp
    omega
  case spawn =>
    simp only [List.mem_append, List.mem_cons, List.not_mem_nil, or_false] at h
    rcases h with ((rfl | rfl) | h) | rfl
    · simp
      omega
    · simp
      omega
    · have hle := hpath h
      simp
      omega
    · simp only [Node.statement.sizeOf_spec, Statement.spawn.sizeOf_spec]
      omega
  case courierChoice =>
    have hlt := sizeOf_lt_of_mem_flatMap h fun _ _ => sizeOf_le_of_mem_branch
    simp
    omega
  case solicitResponseForward =>
    rcases List.mem_append.mp h with h | h
    · have hle := hpath h
      simp
      omega
    · have hle := hpath h
      simp
      omega
  case nullprocess | exit | currentHandler | call | compensate | linkIn | linkOut => cases h
  all_goals
    simp at h
    rcases h with rfl | rfl | rfl | rfl <;> simp <;> omega

theorem sizeOf_lt_of_mem_operation {o : Operation} {y : Node} (h : y ∈ o.types.map .type) :
    sizeOf y < sizeOf (Node.operation o) := by
  obtain ⟨position, id, request, reply⟩ := o
  cases reply with
  | none =>
    obtain rfl := List.mem_singleton.mp h
    simp only [Node.type.sizeOf_spec, Node.operation.sizeOf_spec, Operation.mk.sizeOf_spec]
    omega
  | some r =>
    obtain ⟨response, faults⟩ := r
    simp only [Operation.types, List.map_cons, List.mem_cons, Dictionary.values, List.map_map] at h
    rcases h with rfl | rfl | h
    · simp
      omega
    · simp
      omega
    · have hle : sizeOf y ≤ sizeOf faults :=
        sizeOf_le_of_mem_map h fun fault => by cases fault; simp
      simp
      omega

theorem sizeOf_lt_of_mem_interface {i : Interface} {y : Node}
    (h : y ∈ (Dictionary.values i.operations).map .operation) :
    sizeOf y < sizeOf (Node.interface i) := by
  obtain ⟨position, name, operations⟩ := i
  rw [Dictionary.values, List.map_map] at h
  have hle : sizeOf y ≤ sizeOf operations :=
    sizeOf_le_of_mem_map h fun entry => by cases entry; simp
  simp
  omega

theorem sizeOf_le_of_mem_port {p : Port} {y : Node} (h : y ∈ p.parts) :
    sizeOf y ≤ sizeOf p := by
  obtain ⟨position, id, location, protocol, operations, interfaces⟩ := p
  rcases List.mem_append.mp h with h | h
  · have hle : sizeOf y ≤ sizeOf operations := sizeOf_le_of_mem_map h fun o => by simp
    simp
    omega
  · have hle : sizeOf y ≤ sizeOf interfaces := sizeOf_le_of_mem_map h fun i => by simp
    simp
    omega

theorem sizeOf_le_of_mem_variable {v : CorrelationVariable} {y : Node} (h : y ∈ v.parts) :
    sizeOf y ≤ sizeOf v := by
  obtain ⟨path, aliases⟩ := v
  rcases List.mem_cons.mp h with rfl | h
  · simp
  · have hle : sizeOf y ≤ sizeOf aliases :=
      sizeOf_le_of_mem_map h fun a => by cases a; simp
    simp
    omega

theorem sizeOf_lt_of_mem_parts {x y : Node} (h : y ∈ x.parts) : sizeOf y < sizeOf x := by
  cases x with
  | program p =>
    obtain ⟨position, declarations⟩ := p
    have hle : sizeOf y ≤ sizeOf declarations := sizeOf_le_of_mem_map h fun d => by simp
    simp
    omega
  | declaration d =>
    cases d <;> obtain rfl := List.mem_singleton.mp h <;> simp
  | type t => exact sizeOf_lt_of_mem_type h
  | interface i => exact sizeOf_lt_of_mem_interface h
  | inputPort p =>
    have hle := sizeOf_le_of_mem_port h
    obtain ⟨port, aggregations⟩ := p
    simp at hle ⊢
    omega
  | outputPort p =>
    have hle := sizeOf_le_of_mem_port h
    simp
    omega
  | operation o => exact sizeOf_lt_of_mem_operation h
  | execution => cases h
  | correlationSet s =>
    have hlt := sizeOf_lt_of_mem_flatMap h fun _ _ => sizeOf_le_of_mem_variable
    obtain ⟨position, members⟩ := s
    simp at hlt ⊢
    omega
  | procedure p =>
    obtain rfl := List.mem_singleton.mp h
    obtain ⟨position, id, body⟩ := p
    simp only [Node.statement.sizeOf_spec, Node.procedure.sizeOf_spec, Procedure.mk.sizeOf_spec]
    omega
  | courier c =>
    obtain rfl := List.mem_singleton.mp h
    obtain ⟨position, inputPort, body⟩ := c
    simp only [Node.statement.sizeOf_spec, Node.courier.sizeOf_spec, Courier.mk.sizeOf_spec]
    omega
  | embeddedService => cases h
  | statement s => exact sizeOf_lt_of_mem_statement h
  | expression x => exact sizeOf_lt_of_mem_expression h
  | path p => exact sizeOf_lt_of_mem_path h

theorem exists_type_of_mem_parts {t : TypeDefinition} {y : Node} (h : y ∈ (type t).parts) :
    ∃ u, y = .type u := by
  cases t with
  | inline hd native members untyped =>
    obtain ⟨member, -, rfl⟩ := List.mem_map.mp h
    exact ⟨_, rfl⟩
  | link => cases h
  | choice hd l r =>
    simp [parts, TypeDefinition.parts] at h
    rcases h with rfl | rfl <;> exact ⟨_, rfl⟩

/-- What holds of a node when it holds of all its parts holds of every node. -/
theorem induction {P : Node → Prop} (step : ∀ x, (∀ y ∈ x.parts, P y) → P x) (x : Node) : P x :=
  step x fun y hy =>
    have := sizeOf_lt_of_mem_parts hy
    induction step y
termination_by sizeOf x

/-- What is met from a node by going on to parts. Nothing is met behind a closed node, the node
itself apart. -/
inductive Meets (closed : Node → Bool) : Node → Node → Prop where
  | self (x : Node) : Meets closed x x
  | part {x y z : Node} (isOpen : closed x = false) (mem : y ∈ x.parts) (rest : Meets closed y z) :
    Meets closed x z

/-- The node has the other one written in it, at any depth. -/
abbrev Contains : Node → Node → Prop := Meets fun _ => false

variable {closed : Node → Bool} {x y z : Node}

theorem meets_iff : Meets closed x z ↔
    z = x ∨ closed x = false ∧ ∃ y ∈ x.parts, Meets closed y z := by
  constructor
  · intro h
    cases h with
    | self => exact .inl rfl
    | part isOpen mem rest => exact .inr ⟨isOpen, _, mem, rest⟩
  · rintro (rfl | ⟨isOpen, y, mem, rest⟩)
    · exact .self z
    · exact .part isOpen mem rest

theorem meets_iff_of_open (h : closed x = false) :
    Meets closed x z ↔ z = x ∨ ∃ y ∈ x.parts, Meets closed y z := by
  rw [meets_iff, and_iff_right h]

theorem contains_iff : Contains x z ↔ z = x ∨ ∃ y ∈ x.parts, Contains y z :=
  meets_iff_of_open rfl

theorem Meets.trans (h : Meets closed x y) (h' : Meets closed y z) : Meets closed x z := by
  induction h with
  | self => exact h'
  | part isOpen mem _ ih => exact .part isOpen mem (ih h')

theorem Contains.of_part (mem : y ∈ x.parts) (h : Contains y z) : Contains x z := .part rfl mem h

/-- The node and all that is written in it pass a test. Nodes at the given depth fail, whatever
they are. -/
def allAbove (test : Node → Bool) : Nat → Node → Bool
  | 0, _ => false
  | depth + 1, x => test x && x.parts.all (allAbove test depth)

theorem passes_of_allAbove {test : Node → Bool} {depth : Nat} (h : x.allAbove test depth)
    (hz : x.Contains z) : test z := by
  induction hz generalizing depth with
  | self x =>
    cases depth with
    | zero => cases h
    | succ depth => exact (Bool.and_eq_true_iff.mp h).1
  | part _ mem _ ih =>
    cases depth with
    | zero => cases h
    | succ depth => exact ih (List.all_eq_true.mp (Bool.and_eq_true_iff.mp h).2 _ mem)

end Node

end ServiceCheck
