import Mathlib.Data.List.Basic
import Mathlib.Data.List.Sigma
import ServiceCheck.Program.Construction
import ServiceCheck.Proofs.Verification.Sites

/-!
Where in a program the nodes of a walk stand. A place is given by the numbers of the parts that
lead to it, so that two occurrences of one statement are told apart. The walk through a procedure
or courier comes to every place once and from above, those apart that lie in a path of a courier
branch.
-/

set_option autoImplicit false

namespace ServiceCheck

namespace Statement

theorem childNodes_eq (children : List Statement) :
    childNodes children = children.flatMap nodes := by
  induction children with
  | nil => rfl
  | cons child rest ih => simp [childNodes, ih]

theorem inputBranchNodes_eq (branches : List (Statement × Statement)) :
    inputBranchNodes branches =
      branches.flatMap fun branch => branch.1.nodes ++ branch.2.nodes := by
  induction branches with
  | nil => rfl
  | cons branch rest ih => simp [inputBranchNodes, ih]

theorem conditionalBranchNodes_eq (branches : List (Expression × Statement)) :
    conditionalBranchNodes branches =
      branches.flatMap fun branch => branch.1.nodes ++ branch.2.nodes := by
  induction branches with
  | nil => rfl
  | cons branch rest ih => simp [conditionalBranchNodes, ih]

theorem handlerNodes_eq (handlers : List (String × Statement)) :
    handlerNodes handlers = handlers.flatMap fun handler => handler.2.nodes := by
  induction handlers with
  | nil => rfl
  | cons handler rest ih => simp [handlerNodes, ih]

theorem courierBranchNodes_eq (branches : List CourierBranch) :
    courierBranchNodes branches = branches.flatMap fun branch => branch.body.nodes := by
  induction branches with
  | nil => rfl
  | cons branch rest ih =>
    obtain ⟨target, kind, input, output, body⟩ := branch
    simp [courierBranchNodes, ih]

end Statement

namespace Node

/-- What is written at a place: the numbers of the parts that lead there. -/
def at? : Node → List Nat → Option Node
  | x, [] => some x
  | x, i :: rest => x.parts[i]?.bind fun y => y.at? rest

def isTerm : Node → Bool
  | .statement _ | .expression _ | .path _ => true
  | _ => false

def isBehaviour : Node → Bool
  | .program _ | .declaration (.procedure _) | .declaration (.courier _) | .procedure _
  | .courier _ | .statement _ | .expression _ | .path _ => true
  | _ => false

/-- The part is a path that a courier branch receives into or answers from. -/
def isCourierPath : Node → Node → Bool
  | .statement (.courierChoice ..), .path _ => true
  | _, _ => false

def enters (x y : Node) : Bool := y.isBehaviour && !x.isCourierPath y

def nodes : Node → List Node
  | .program p => p.nodes
  | .declaration d => d.nodes
  | .procedure p => .procedure p :: p.body.nodes
  | .courier c => .courier c :: c.body.nodes
  | .statement s => s.nodes
  | .expression x => x.nodes
  | .path p => p.nodes
  | x => [x]

def entered (x : Node) : List Node := x.parts.filter x.enters

theorem nodes_expression (x : Expression) :
    x.nodes = .expression x :: (expression x).entered.flatMap nodes := by
  have hedits : ∀ edits : List TreeEdit, TreeEdit.nodes edits =
      ((edits.flatMap TreeEdit.parts).filter (enters (.expression x))).flatMap nodes := by
    intro edits
    induction edits with
    | nil => rfl
    | cons edit rest ih =>
      cases edit <;>
        simp [TreeEdit.nodes, TreeEdit.parts, enters, isBehaviour, isCourierPath, nodes, ih]
  cases x <;>
    simp [Expression.nodes, entered, parts, Expression.parts, Expression.operandNodes_eq,
      Expression.childNodes_eq, hedits, List.filter_map, List.flatMap_map, Function.comp_def,
      enters, isBehaviour, isCourierPath, nodes]

theorem nodes_path (p : VariablePath) : p.nodes = .path p :: (path p).entered.flatMap nodes := by
  obtain ⟨position, kind, steps⟩ := p
  have hsteps : ∀ steps' : List PathStep, PathStep.nodes steps' =
      ((steps'.flatMap PathStep.parts).filter (enters (.path ⟨position, kind, steps⟩))).flatMap
        nodes := by
    intro steps'
    induction steps' with
    | nil => rfl
    | cons step rest ih =>
      obtain ⟨key, index⟩ := step
      cases index <;>
        simp [PathStep.nodes, PathStep.parts, enters, isBehaviour, isCourierPath, nodes, ih]
  rw [VariablePath.nodes, hsteps]
  rfl

theorem nodes_statement (s : Statement) :
    s.nodes = .statement s :: (statement s).entered.flatMap nodes := by
  have hpath : ∀ path : Option VariablePath,
      optionalPathNodes path = path.toList.flatMap VariablePath.nodes := by
    intro path
    cases path <;> simp [optionalPathNodes]
  have hvalue : ∀ value : Option Expression,
      optionalExpressionNodes value = value.toList.flatMap Expression.nodes := by
    intro value
    cases value <;> simp [optionalExpressionNodes]
  have hotherwise : ∀ s : Option Statement,
      Statement.otherwiseNodes s = s.toList.flatMap Statement.nodes := by
    intro s
    cases s <;> simp [Statement.otherwiseNodes]
  cases s <;>
    simp [Statement.nodes, entered, parts, Statement.parts, CourierBranch.parts, hpath, hvalue,
      hotherwise, Statement.childNodes_eq, Statement.inputBranchNodes_eq,
      Statement.conditionalBranchNodes_eq, Statement.handlerNodes_eq,
      Statement.courierBranchNodes_eq, List.filter_map, List.filter_flatMap, List.flatMap_map,
      List.flatMap_assoc, Function.comp_def, enters, isBehaviour, isCourierPath, nodes]

def numbered (x : Node) : List (Node × Nat) := x.parts.zipIdx.filter fun part => x.enters part.1

theorem mem_numbered_iff {x y : Node} {i : Nat} :
    (y, i) ∈ x.numbered ↔ x.parts[i]? = some y ∧ x.enters y = true := by
  rw [numbered, List.mem_filter, List.mem_zipIdx_iff_getElem?]

theorem map_fst_numbered (x : Node) : x.numbered.map Prod.fst = x.entered := by
  have hfst : x.parts.zipIdx.map Prod.fst = x.parts := List.zipIdx_map_fst 0 x.parts
  have hfilter := List.filter_map (p := x.enters) (f := Prod.fst) (l := x.parts.zipIdx)
  rw [hfst] at hfilter
  exact hfilter.symm

def walk (x : Node) : List (List Nat × Node) :=
  ([], x) :: x.numbered.attach.flatMap fun part =>
    part.1.1.walk.map fun visit => (part.1.2 :: visit.1, visit.2)
termination_by sizeOf x
decreasing_by
  exact sizeOf_lt_of_mem_parts (List.mem_of_getElem? (mem_numbered_iff.mp part.2).1)

theorem walk_eq (x : Node) :
    x.walk = ([], x) :: x.numbered.flatMap fun part =>
      part.1.walk.map fun visit => (part.2 :: visit.1, visit.2) := by
  have hvisits := List.attach_map_val (l := x.numbered)
    (f := fun part => part.1.walk.map fun visit => (part.2 :: visit.1, visit.2))
  rw [walk, List.flatMap_def, List.flatMap_def, hvisits]

inductive Reaches : Node → List Nat → Node → Prop where
  | self (x : Node) : Reaches x [] x
  | part {x y z : Node} {i : Nat} {place : List Nat} (found : x.parts[i]? = some y)
      (enters : x.enters y = true) (rest : Reaches y place z) : Reaches x (i :: place) z

theorem mem_walk_iff {x z : Node} {place : List Nat} :
    (place, z) ∈ x.walk ↔ x.Reaches place z := by
  induction x using Node.induction generalizing place z with
  | step x ih =>
    rw [walk_eq, List.mem_cons, List.mem_flatMap]
    constructor
    · rintro (heq | ⟨⟨y, i⟩, hpart, hvisit⟩)
      · obtain ⟨rfl, rfl⟩ := Prod.mk.inj heq
        exact .self _
      · obtain ⟨⟨front, z⟩, hrest, heq⟩ := List.mem_map.mp hvisit
        obtain ⟨rfl, rfl⟩ := Prod.mk.inj heq
        obtain ⟨hfound, henters⟩ := mem_numbered_iff.mp hpart
        exact .part hfound henters ((ih y (List.mem_of_getElem? hfound)).mp hrest)
    · intro h
      cases h with
      | self => exact .inl rfl
      | part hfound henters hrest =>
        have hvisit := (ih _ (List.mem_of_getElem? hfound)).mpr hrest
        exact .inr ⟨_, mem_numbered_iff.mpr ⟨hfound, henters⟩, List.mem_map.mpr ⟨_, hvisit, rfl⟩⟩

/-- No place comes again, and none after a place below it. -/
theorem pairwise_walk (x : Node) : x.walk.Pairwise fun earlier later => ¬later.1 <+: earlier.1 := by
  induction x using Node.induction with
  | step x ih =>
    rw [walk_eq, List.pairwise_cons, List.pairwise_flatMap]
    refine ⟨fun visit hvisit hprefix => ?_, fun part hpart => ?_, ?_⟩
    · obtain ⟨part, -, hvisit⟩ := List.mem_flatMap.mp hvisit
      obtain ⟨_, -, rfl⟩ := List.mem_map.mp hvisit
      cases List.prefix_nil.mp hprefix
    · rw [List.pairwise_map]
      have hwalk := ih part.1 (List.mem_of_getElem? (mem_numbered_iff.mp hpart).1)
      exact hwalk.imp fun hnot hprefix => hnot (List.cons_prefix_cons.mp hprefix).2
    · have hnumbers : x.numbered.Pairwise fun part other => part.2 ≠ other.2 := by
        have hnodup := List.pairwise_map.mp (List.nodup_zipIdx_map_snd x.parts)
        exact hnodup.sublist List.filter_sublist
      refine hnumbers.imp fun hne visit hvisit other hother hprefix => ?_
      obtain ⟨_, -, rfl⟩ := List.mem_map.mp hvisit
      obtain ⟨_, -, rfl⟩ := List.mem_map.mp hother
      exact hne (List.cons_prefix_cons.mp hprefix).1.symm

theorem Reaches.at? {x z : Node} {place : List Nat} (h : x.Reaches place z) :
    x.at? place = some z := by
  induction h with
  | self => rfl
  | part found _ _ ih => rw [Node.at?, found, Option.bind_some, ih]

/-- The way to the place goes through a path of a courier branch. -/
def CrossesCourierPath (x : Node) (place : List Nat) : Prop :=
  ∃ front i rest y path, place = front ++ i :: rest ∧ x.at? front = some y ∧
    y.parts[i]? = some path ∧ y.isCourierPath path = true

theorem crossesCourierPath_cons {x y : Node} {i : Nat} {place : List Nat}
    (hfound : x.parts[i]? = some y) : x.CrossesCourierPath (i :: place) ↔
      x.isCourierPath y = true ∨ y.CrossesCourierPath place := by
  constructor
  · rintro ⟨front, j, rest, z, path, heq, hat, hpath, hcourier⟩
    cases front with
    | nil =>
      obtain ⟨rfl, -⟩ := List.cons.inj heq
      obtain rfl := Option.some.inj hat
      obtain rfl := Option.some.inj (hfound.symm.trans hpath)
      exact .inl hcourier
    | cons k front =>
      obtain ⟨rfl, rfl⟩ := List.cons.inj heq
      rw [Node.at?, hfound, Option.bind_some] at hat
      exact .inr ⟨front, j, rest, z, path, rfl, hat, hpath, hcourier⟩
  · rintro (hcourier | ⟨front, j, rest, z, path, rfl, hat, hpath, hcourier⟩)
    · exact ⟨[], i, place, x, y, rfl, rfl, hfound, hcourier⟩
    · exact ⟨i :: front, j, rest, z, path, rfl, by rw [Node.at?, hfound, Option.bind_some, hat],
        hpath, hcourier⟩

theorem Reaches.not_crossesCourierPath {x z : Node} {place : List Nat} (h : x.Reaches place z) :
    ¬x.CrossesCourierPath place := by
  induction h with
  | self =>
    rintro ⟨front, i, rest, -, -, heq, -⟩
    simp at heq
  | part found enters _ ih =>
    rw [crossesCourierPath_cons found, not_or]
    exact ⟨by simpa using (Bool.and_eq_true_iff.mp enters).2, ih⟩

theorem not_isTerm_of_at?_type {t : TypeDefinition} {z : Node} {place : List Nat}
    (h : (type t).at? place = some z) : z.isTerm = false := by
  induction place generalizing t with
  | nil =>
    cases h
    rfl
  | cons i rest ih =>
    obtain ⟨y, hy, hrest⟩ := Option.bind_eq_some_iff.mp h
    obtain ⟨u, rfl⟩ := exists_type_of_mem_parts (List.mem_of_getElem? hy)
    exact ih hrest

theorem isTerm_or_type_of_mem_parts {x y : Node} (hx : x.isTerm = true) (h : y ∈ x.parts) :
    y.isTerm = true ∨ ∃ t, y = .type t := by
  have hcode : x.isCode = true := by
    cases x <;> first | rfl | cases hx
  have hpart := isCode_of_mem_parts hcode h
  cases y <;> simp [isCode, isTerm] at hpart ⊢

theorem isBehaviour_of_isTerm {x : Node} (hx : x.isTerm = true) : x.isBehaviour = true := by
  cases x <;> first | rfl | cases hx

/-- From a term the walk comes to all terms but those in a path of a courier branch. -/
theorem reaches_iff {x z : Node} {place : List Nat} (hx : x.isTerm = true) (hz : z.isTerm = true) :
    x.Reaches place z ↔ x.at? place = some z ∧ ¬x.CrossesCourierPath place := by
  constructor
  · exact fun h => ⟨h.at?, h.not_crossesCourierPath⟩
  rintro ⟨hat, hcross⟩
  induction place generalizing x with
  | nil =>
    cases hat
    exact .self _
  | cons i rest ih =>
    obtain ⟨y, hy, hrest⟩ := Option.bind_eq_some_iff.mp hat
    rw [crossesCourierPath_cons hy, not_or, Bool.not_eq_true] at hcross
    rcases isTerm_or_type_of_mem_parts hx (List.mem_of_getElem? hy) with hterm | ⟨t, rfl⟩
    · have henters : x.enters y = true := by
        rw [enters, isBehaviour_of_isTerm hterm, hcross.1]
        rfl
      exact .part hy henters (ih hterm hrest hcross.2)
    · rw [not_isTerm_of_at?_type hrest] at hz
      cases hz

theorem filter_nodes_declaration {d : Declaration} (hd : (declaration d).isBehaviour = false) :
    d.nodes.filter isBehaviour = [] := by
  cases d <;>
    simp [Declaration.nodes, List.filter_map, Function.comp_def, isBehaviour] at hd ⊢

/-- All that the walk meets besides behaviours is left out. -/
theorem filter_nodes {x : Node} (hx : x.isBehaviour = true) :
    x.nodes.filter isBehaviour = x :: x.entered.flatMap fun y => y.nodes.filter isBehaviour := by
  have hcons : ∀ {rest : List Node},
      (x :: rest).filter isBehaviour = x :: rest.filter isBehaviour := List.filter_cons_of_pos hx
  cases x
  case program p =>
    have hall : ∀ ds : List Declaration, ds.flatMap (fun d => d.nodes.filter isBehaviour) =
        ((ds.map declaration).filter (enters (.program p))).flatMap fun y =>
          y.nodes.filter isBehaviour := by
      intro ds
      induction ds with
      | nil => rfl
      | cons d rest ih =>
        rw [List.flatMap_cons, List.map_cons, List.filter_cons, ih]
        cases hd : (declaration d).isBehaviour with
        | true =>
          have henters : enters (.program p) (.declaration d) = true := by rw [enters, hd]; rfl
          rw [if_pos henters, List.flatMap_cons, nodes]
        | false =>
          have henters : ¬enters (.program p) (.declaration d) = true := by simp [enters, hd]
          rw [if_neg henters, filter_nodes_declaration hd, List.nil_append]
    rw [nodes, Program.nodes, hcons, List.filter_flatMap, hall]
    rfl
  case declaration d =>
    cases d
    case procedure | courier =>
      rw [nodes, Declaration.nodes, hcons]
      simp [entered, parts, Declaration.parts, enters, isBehaviour, isCourierPath, nodes]
    all_goals cases hx
  case procedure | courier =>
    rw [nodes, hcons]
    simp [entered, parts, enters, isBehaviour, isCourierPath, nodes]
  case statement s => rw [nodes, nodes_statement, hcons, List.filter_flatMap]
  case expression e => rw [nodes, nodes_expression, hcons, List.filter_flatMap]
  case path p => rw [nodes, nodes_path, hcons, List.filter_flatMap]
  all_goals cases hx

theorem map_snd_walk {x : Node} (hx : x.isBehaviour = true) :
    x.walk.map Prod.snd = x.nodes.filter isBehaviour := by
  induction x using Node.induction with
  | step x ih =>
    rw [walk_eq, List.map_cons, List.map_flatMap, filter_nodes hx, ← map_fst_numbered,
      List.flatMap_map]
    refine congrArg (x :: ·) (List.flatMap_congr fun part hpart => ?_)
    obtain ⟨hfound, henters⟩ := mem_numbered_iff.mp hpart
    rw [List.map_map]
    exact ih part.1 (List.mem_of_getElem? hfound) (Bool.and_eq_true_iff.mp henters).1

theorem Reaches.holder {x z : Node} {place : List Nat} {i : Nat}
    (h : x.Reaches (place ++ [i]) z) : ∃ y, x.Reaches place y := by
  induction place generalizing x with
  | nil => exact ⟨x, .self x⟩
  | cons j rest ih =>
    cases h with
    | part found enters hrest =>
      obtain ⟨y, hy⟩ := ih hrest
      exact ⟨y, .part found enters hy⟩

theorem Reaches.of_single {x y z : Node} {place : List Nat} (h : x.Reaches place z)
    (hparts : x.parts = [y]) (hne : z ≠ x) : ∃ rest, place = 0 :: rest ∧ y.Reaches rest z := by
  cases h with
  | self => exact absurd rfl hne
  | part found _ rest =>
    rw [hparts, List.getElem?_singleton, Option.ite_none_right_eq_some] at found
    obtain ⟨rfl, heq⟩ := found
    obtain rfl := Option.some.inj heq
    exact ⟨_, rfl, rest⟩

end Node

namespace Program

/-- What is met in the behaviours of a program: in its procedures and couriers each statement,
expression and path, a path of a courier branch apart with all that is in it. Every one is met
once, in no case before the node that holds it. -/
structure MetOnce (p : Program) (visits : List (List Nat × Node)) : Prop where
  nodes : visits.map Prod.snd = p.nodes.filter Node.isBehaviour
  written : ∀ visit ∈ visits, (Node.program p).at? visit.1 = some visit.2
  order : visits.Pairwise fun earlier later => ¬later.1 <+: earlier.1
  holders : ∀ place i z, (place ++ [i], z) ∈ visits → ∃ y, (place, y) ∈ visits
  terms : ∀ place z, z.isTerm = true → ((place, z) ∈ visits ↔
    ∃ i body rest, place = i :: 0 :: 0 :: rest ∧
      p.declarations[i]?.bind Declaration.body? = some body ∧
      (Node.statement body).at? rest = some z ∧
      ¬(Node.statement body).CrossesCourierPath rest)

variable {p : Program}

/-- The way to a term leads through a declaration, the procedure or courier in it, and its body. -/
theorem reaches_term_iff {place : List Nat} {z : Node} (hz : z.isTerm = true) :
    (Node.program p).Reaches place z ↔ ∃ i body rest, place = i :: 0 :: 0 :: rest ∧
      p.declarations[i]?.bind Declaration.body? = some body ∧
      (Node.statement body).Reaches rest z := by
  have hne : ∀ {x : Node}, x.isTerm = false → z ≠ x := by
    rintro x hx rfl
    exact Bool.eq_false_iff.mp hx hz
  constructor
  · intro h
    cases h with
    | self => cases hz
    | @part _ _ _ i _ found enters rest =>
      rw [Node.parts, List.getElem?_map, Option.map_eq_some_iff] at found
      obtain ⟨d, hd, rfl⟩ := found
      cases d
      case procedure | courier =>
        obtain ⟨_, rfl, hholder⟩ := rest.of_single rfl (hne rfl)
        obtain ⟨_, rfl, hbody⟩ := hholder.of_single rfl (hne rfl)
        exact ⟨i, _, _, rfl, by rw [hd]; rfl, hbody⟩
      all_goals cases enters
  · rintro ⟨i, body, rest, rfl, hbody, hrest⟩
    obtain ⟨d, hd, hdbody⟩ := Option.bind_eq_some_iff.mp hbody
    have hfound : (Node.program p).parts[i]? = some (.declaration d) := by
      rw [Node.parts, List.getElem?_map, hd, Option.map_some]
    rcases Declaration.body?_eq_some_iff.mp hdbody with ⟨p, rfl, rfl⟩ | ⟨c, rfl, rfl⟩
    · exact .part hfound rfl (.part rfl rfl (.part rfl rfl hrest))
    · exact .part hfound rfl (.part rfl rfl (.part rfl rfl hrest))

theorem walk_metOnce (p : Program) : p.MetOnce (Node.program p).walk where
  nodes := Node.map_snd_walk rfl
  written visit hvisit := (Node.mem_walk_iff.mp hvisit).at?
  order := Node.pairwise_walk _
  holders place i z h := by
    obtain ⟨y, hy⟩ := (Node.mem_walk_iff.mp h).holder
    exact ⟨y, Node.mem_walk_iff.mpr hy⟩
  terms place z hz := by
    rw [Node.mem_walk_iff, reaches_term_iff hz]
    refine exists_congr fun i => exists_congr fun body => exists_congr fun rest => ?_
    rw [Node.reaches_iff rfl hz]

/-- A courier that takes messages into a variable and does nothing. -/
def silentCourier : Program :=
  .ofDeclarations
    [.inputPort (.empty "In"),
      .courier (.on "In" (.courierChoice .unknown
        [⟨.operation "ping", .oneWay, some (.ofKeys ["message"]), none, .nullprocess⟩]))]

theorem silentCourier_path_unmet :
    (∃ c path, .courier c ∈ silentCourier.declarations ∧
      (Node.statement c.body).Contains (.path path)) ∧
      silentCourier.nodes.filterMap Node.path? = [] := by
  refine ⟨⟨_, .ofKeys ["message"], List.mem_cons_of_mem _ (List.mem_singleton_self _), ?_⟩, ?_⟩
  · exact .part rfl List.mem_cons_self (.self _)
  · rfl

end Program

end ServiceCheck
