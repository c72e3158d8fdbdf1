import ServiceCheck.Program.Construction
import ServiceCheck.Proofs.Verification.BranchesAround
import ServiceCheck.Proofs.Verification.Ending
import ServiceCheck.Proofs.Verification.InForce
import ServiceCheck.Proofs.Verification.Kinds
import ServiceCheck.Proofs.Verification.Visit

set_option autoImplicit false

namespace ServiceCheck

def misplacedForward? (courier : Option OperationKind) (position : Position)
    (used : OperationKind) : Option Diagnostic :=
  match courier with
  | none =>
    some (.report .courierContextError position (used.label ++ " forward used outside a courier"))
  | some expected =>
    if expected = used then none
    else
      some ((Diagnostic.report .courierContextError position
          (used.label ++ " forward used in a " ++ expected.label ++ " courier branch")).hint
        ("expected a " ++ expected.label ++ " forward"))

def misplacedInput? (courier : Option OperationKind) (position : Position) : Option Diagnostic :=
  courier.map fun _ =>
    .report .courierContextError position "input statements are not allowed inside a courier"

def Statement.misplaced? (courier : Option OperationKind) : Statement → Option Diagnostic
  | .oneWay position .. | .requestResponse position .. => misplacedInput? courier position
  | .notificationForward position .. => misplacedForward? courier position .oneWay
  | .solicitResponseForward position .. => misplacedForward? courier position .requestResponse
  | _ => none

namespace Node

def misplaced? (courier : Option OperationKind) : Node → Option Diagnostic
  | .statement s => s.misplaced? courier
  | _ => none

def isInput : Node → Bool
  | .statement (.oneWay ..) | .statement (.requestResponse ..) => true
  | _ => false

def forwardKind? : Node → Option OperationKind
  | .statement (.notificationForward ..) => some .oneWay
  | .statement (.solicitResponseForward ..) => some .requestResponse
  | _ => none

end Node

open Diagnostics

namespace Scene

variable {scene : Scene} {courier : Option OperationKind} {position : Position}

theorem ofKinds_courier_inputProblems {input : Option VariablePath} :
    ofKinds [.courierContextError] (inputProblems courier position input) =
      (misplacedInput? courier position).toList := by
  have hpath : Within [.invalidPathUsage] (inputProblems none position input) := by
    cases input <;> simp [inputProblems]
  cases courier with
  | none => exact hpath.ofKinds_eq_nil (by decide)
  | some kind =>
    have hsplit : inputProblems (some kind) position input =
        (misplacedInput? (some kind) position).toList ++ inputProblems none position input := by
      simp [inputProblems, misplacedInput?]
    rw [hsplit, ofKinds_append, hpath.ofKinds_eq_nil (by decide), List.append_nil]
    rfl

theorem ofKinds_courier_forwardProblems {used : OperationKind} {port : Option String} :
    ofKinds [.courierContextError] (scene.forwardProblems courier position used port) =
      (misplacedForward? courier position used).toList := by
  have hself : Within [.courierContextError] (misplacedForward? courier position used).toList := by
    cases courier with
    | none => simp [misplacedForward?]
    | some expected => by_cases h : expected = used <;> simp [misplacedForward?, h]
  obtain ⟨portProblems, hport, hsplit⟩ : ∃ ds, Within [.undefinedOutputPort] ds ∧
      scene.forwardProblems courier position used port =
        (misplacedForward? courier position used).toList ++ ds := by
    -- What is said of the port comes last, whatever the branch.
    refine ⟨_, ?_, congrArg (· ++ _) ?_⟩
    · cases port <;> simp
    · cases courier with
      | none => rfl
      | some expected => by_cases h : expected = used <;> simp [misplacedForward?, h]
  rw [hsplit, ofKinds_append, hself.ofKinds_eq_self (by decide), hport.ofKinds_eq_nil (by decide),
    List.append_nil]

theorem ofKinds_courier_problems (site : Site) :
    ofKinds [.courierContextError] (scene.problems site) =
      (site.node.misplaced? site.courier).toList := by
  cases site with
  | path p => exact (within_pathProblems p).ofKinds_eq_nil (by decide)
  | statement courier s =>
    have hwithin : Within (statementKinds s) (scene.statementProblems courier s) :=
      within_statementProblems s
    cases s
    case oneWay | requestResponse => exact ofKinds_courier_inputProblems
    case notificationForward | solicitResponseForward => exact ofKinds_courier_forwardProblems
    all_goals exact hwithin.ofKinds_eq_nil (by simp [statementKinds])

end Scene

namespace Declaration

theorem filterMap_writtenUnder_misplaced? (d : Declaration) :
    ((Node.declaration d).writtenUnder []).filterMap (fun e => e.2.misplaced? e.1.head?) =
      (d.body?.map fun s =>
        ((Node.statement s).writtenUnder []).filterMap fun e => e.2.misplaced? e.1.head?).getD
          [] := by
  have hnone : ∀ x : Node, x.isDeclarative →
      (x.writtenUnder []).filterMap (fun e => e.2.misplaced? e.1.head?) = [] := by
    intro x hx
    refine List.filterMap_eq_nil_iff.mpr fun e he => ?_
    have hmem : e.2 ∈ x.written := Node.map_snd_writtenUnder [] x ▸ List.mem_map_of_mem he
    have hdeclarative := Node.isDeclarative_of_mem_written hx hmem
    cases h : e.2 with
    | statement => simp [h, Node.isDeclarative] at hdeclarative
    | _ => rfl
  rw [Node.writtenUnder_eq, List.filterMap_cons_none rfl, List.filterMap_flatMap]
  cases h : d.body? with
  | some s =>
    rcases body?_eq_some_iff.mp h with ⟨p, rfl, rfl⟩ | ⟨c, rfl, rfl⟩
    · simp [Node.partsUnder, Node.parts, parts, Node.writtenUnder_eq _ (.procedure _),
        Node.misplaced?]
    · simp [Node.partsUnder, Node.parts, parts, Node.writtenUnder_eq _ (.courier _),
        Node.misplaced?]
  | none =>
    obtain ⟨hprocedure, hcourier⟩ := body?_eq_none_iff.mp h
    refine List.flatMap_eq_nil_iff.mpr fun part hpart => ?_
    cases d
    case procedure p => exact absurd rfl (hprocedure p)
    case courier c => exact absurd rfl (hcourier c)
    all_goals
      obtain rfl := List.mem_singleton.mp hpart
      exact hnone _ rfl

theorem ofKinds_courier_problems (overview : Overview) (t : Tables) (d : Declaration) :
    ofKinds [.courierContextError] (d.problems overview t) =
      ((Node.declaration d).writtenUnder []).filterMap fun e => e.2.misplaced? e.1.head? := by
  have hhead : ∀ k ∈ d.headKinds, k ∉ [DiagnosticKind.courierContextError] := by
    cases d <;> simp [headKinds]
  have hoperand : ∀ courier (x : Node), x.isOperand → x.misplaced? courier = none := by
    intro courier x hx
    cases x <;> first | rfl | cases hx
  simp only [Program.ofKinds_siteProblems overview t d hhead, Scene.ofKinds_courier_problems]
  rw [← List.filterMap_eq_flatMap_toList, filterMap_writtenUnder_misplaced?, sites]
  cases d.body? with
  | none => rfl
  | some s => exact Node.filterMap_sites_under hoperand (fun _ _ _ => rfl) (.statement s) rfl []

end Declaration

namespace Program

def writtenUnder (p : Program) : List (List OperationKind × Node) :=
  (Node.program p).writtenUnder []

def inputsInBranches (p : Program) : Nat :=
  p.writtenUnder.countP fun e => e.2.isInput && !e.1.isEmpty

/-- The forwards whose innermost courier branch does not exist or is of the other kind. -/
def strayForwards (p : Program) : Nat :=
  p.writtenUnder.countP fun e => e.2.forwardKind?.any fun used => e.1.head? ≠ some used

theorem isSome_misplaced? (branches : List OperationKind) (x : Node) :
    (x.misplaced? branches.head?).isSome.toNat =
      (x.isInput && !branches.isEmpty).toNat +
        (x.forwardKind?.any fun used => branches.head? ≠ some used).toNat := by
  have hinput : ∀ position, (misplacedInput? branches.head? position).isSome =
      !branches.isEmpty := by
    intro position
    cases branches <;> rfl
  have hforward : ∀ position used, (misplacedForward? branches.head? position used).isSome =
      decide (branches.head? ≠ some used) := by
    intro position used
    cases branches with
    | nil => rfl
    | cons kind _ => by_cases h : kind = used <;> simp [misplacedForward?, h]
  cases x
  case statement s =>
    cases s <;> simp [Node.misplaced?, Statement.misplaced?, Node.isInput, Node.forwardKind?,
      hinput, hforward]
  all_goals rfl

theorem length_filterMap_misplaced? (written : List (List OperationKind × Node)) :
    (written.filterMap fun e => e.2.misplaced? e.1.head?).length =
      written.countP (fun e => e.2.isInput && !e.1.isEmpty) +
        written.countP fun e => e.2.forwardKind?.any fun used => e.1.head? ≠ some used := by
  rw [List.length_filterMap_eq_countP]
  induction written with
  | nil => rfl
  | cons e rest ih =>
    have he := isSome_misplaced? e.1 e.2
    have hstep : ∀ test : List OperationKind × Node → Bool,
        (e :: rest).countP test = rest.countP test + (test e).toNat := fun test => by
      cases h : test e <;> simp [h]
    rw [hstep, hstep, hstep, ih, he]
    omega

theorem ofKinds_courier_problems (callerTypes : TypeMap) (config : Config) (p : Program) :
    ofKinds [.courierContextError] (p.problems callerTypes config) =
      p.writtenUnder.filterMap fun e => e.2.misplaced? e.1.head? := by
  have hwritten : p.writtenUnder =
      ([], .program p) :: p.declarations.flatMap fun d => (Node.declaration d).writtenUnder [] := by
    have hparts : (Node.program p).partsUnder [] =
        p.declarations.map fun d => ([], .declaration d) := List.map_map
    rw [writtenUnder, Node.writtenUnder_eq, hparts, List.flatMap_map]
  rw [ofKinds_problems _ _ _ (by decide), declarationProblems, ofKinds_flatMap, hwritten,
    List.filterMap_cons_none rfl, List.filterMap_flatMap]
  simp only [Declaration.ofKinds_courier_problems]
  conv_rhs => rw [← Tables.map_snd_inForce (.initial callerTypes) p.declarations]
  rw [List.flatMap_map]

/-- The misplaced inputs and forwards are reported, each once, and a visit to a statement, through
whatever courier branches, leaves the visitor in the branch where it was. -/
theorem courier_context_counted (callerTypes : TypeMap) (config : Config) (p : Program) :
    (∀ (scene : Scene) (s : Statement) (v : Visitor),
      (Node.statement s).visit scene v =
        ⟨v.courier, v.reported ++ (s.sites v.courier).flatMap scene.problems⟩) ∧
      count .courierContextError (p.problems callerTypes config) =
        p.inputsInBranches + p.strayForwards ∧
      match p.verify callerTypes config with
      | .accepted _ => p.inputsInBranches = 0 ∧ p.strayForwards = 0
      | .rejected problems =>
        count .courierContextError problems = p.inputsInBranches + p.strayForwards
      | .unending => p.comparesForever callerTypes = true := by
  have hcount : count .courierContextError (p.problems callerTypes config) =
      p.inputsInBranches + p.strayForwards := by
    have hlength := congrArg List.length (p.ofKinds_courier_problems callerTypes config)
    rw [length_filterMap_misplaced?] at hlength
    rw [count, List.countP_eq_length_filter, inputsInBranches, strayForwards, ← hlength]
    simp [ofKinds]
  refine ⟨fun scene s v => Node.reports scene (.statement s) v, hcount, ?_⟩
  cases hverdict : p.verify callerTypes config with
  | accepted v =>
    rw [problems_eq_nil_of_accepted hverdict] at hcount
    exact Nat.add_eq_zero_iff.mp hcount.symm
  | rejected problems =>
    obtain rfl := problems_of_rejected hverdict
    exact hcount
  | unending => exact (verify_eq_unending_iff ..).mp hverdict

def nestedCouriers : Program :=
  .ofDeclarations
    [.inputPort (.empty "In"),
      .courier (.on "In" (.courierChoice .unknown
        [⟨.operation "ping", .oneWay, none, none,
          .sequence
            [.courierChoice .unknown
              [⟨.operation "ask", .requestResponse, none, none, .oneWay .unknown "note" none⟩],
              .notificationForward .unknown none none,
              .solicitResponseForward .unknown none none none]⟩]))]

example : count .courierContextError (nestedCouriers.problems [] ⟨false⟩) = 2 := by
  decide +kernel

end Program

end ServiceCheck
