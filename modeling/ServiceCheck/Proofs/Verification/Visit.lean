import ServiceCheck.Proofs.Verification.Sites
import ServiceCheck.Verification.Declarations

/-!
The judgement of a behaviour as a visit with a state: the kind of the courier branch around the
visitor. It is replaced where a branch is entered and put back where the branch is left. The visit
reports the problems of the sites, and leaves the kind as it was.
-/

set_option autoImplicit false

namespace ServiceCheck

structure Visitor where
  courier : Option OperationKind
  reported : Diagnostics

namespace Visitor

def report (problems : Diagnostics) (v : Visitor) : Visitor :=
  { v with reported := v.reported ++ problems }

/-- A visit inside a branch. The kind from before it is put back afterwards. -/
def inBranch (kind : OperationKind) (visit : Visitor → Visitor) (v : Visitor) : Visitor :=
  { visit { v with courier := some kind } with courier := v.courier }

@[simp] theorem courier_report (problems : Diagnostics) (v : Visitor) :
    (v.report problems).courier = v.courier := rfl

@[simp] theorem report_nil (v : Visitor) : v.report [] = v :=
  congrArg (Visitor.mk v.courier) (List.append_nil _)

@[simp] theorem report_report (problems later : Diagnostics) (v : Visitor) :
    (v.report problems).report later = v.report (problems ++ later) :=
  congrArg (Visitor.mk v.courier) (List.append_assoc ..)

end Visitor

/-- The parts that a visit goes on to, those of a courier branch apart, with its kind. The branches
of a provide-until of two choices are visited in its place, and no operand of a solicit-response. -/
def Statement.runs : Statement → List (Option OperationKind × List Node)
  | .solicitResponse .. => []
  | .provideUntil _ provide finish =>
    if provide.isChoice && finish.isChoice then [(none, provide.parts ++ finish.parts)]
    else [(none, [.statement provide, .statement finish])]
  | .courierChoice _ branches => branches.map fun b => (some b.kind, b.parts)
  | s => [(none, s.parts)]

namespace Statement

theorem judgedParts_eq_runs (courier : Option OperationKind) (s : Statement) :
    s.judgedParts courier =
      s.runs.flatMap fun run => run.2.map fun part => (run.1.or courier, part) := by
  cases s
  case provideUntil position provide finish =>
    rw [judgedParts_provideUntil, runs]
    by_cases h : provide.isChoice && finish.isChoice
    · obtain ⟨hprovide, hfinish⟩ := Bool.and_eq_true_iff.mp h
      obtain ⟨p, provided, rfl⟩ := provide.isChoice_iff.mp hprovide
      obtain ⟨p', finishing, rfl⟩ := finish.isChoice_iff.mp hfinish
      simp [isChoice, judgedParts]
    · simp [h]
  case courierChoice => simp [judgedParts, runs, List.flatMap_map]
  all_goals simp [judgedParts, runs]

theorem sizeOf_lt_of_mem_runs {s : Statement} {run : Option OperationKind × List Node}
    (hrun : run ∈ s.runs) {y : Node} (hy : y ∈ run.2) : sizeOf y < sizeOf (Node.statement s) := by
  have hmem : (run.1.or none, y) ∈ s.judgedParts none := by
    rw [judgedParts_eq_runs]
    exact List.mem_flatMap.mpr ⟨run, hrun, List.mem_map_of_mem hy⟩
  exact sizeOf_lt_of_mem_judgedParts none hmem

end Statement

namespace Node

def visit (scene : Scene) (x : Node) (v : Visitor) : Visitor :=
  match x with
  | .statement s =>
    s.runs.attach.foldl
      (fun v ⟨run, _⟩ =>
        let visitParts := fun v => run.2.attach.foldl (fun v ⟨y, _⟩ => y.visit scene v) v
        match run.1 with
        | none => visitParts v
        | some kind => v.inBranch kind visitParts)
      (v.report (scene.statementProblems v.courier s))
  | .expression e => v.report (e.sites.flatMap scene.problems)
  | .path p => v.report (p.sites.flatMap scene.problems)
  | _ => v
termination_by sizeOf x
decreasing_by exact Statement.sizeOf_lt_of_mem_runs (by assumption) (by assumption)

def visitRun (scene : Scene) (run : Option OperationKind × List Node) (v : Visitor) : Visitor :=
  match run.1 with
  | none => run.2.foldl (fun v y => y.visit scene v) v
  | some kind => v.inBranch kind fun v => run.2.foldl (fun v y => y.visit scene v) v

variable {scene : Scene}

theorem visit_statement (s : Statement) (v : Visitor) :
    (statement s).visit scene v =
      s.runs.foldl (fun v run => visitRun scene run v)
        (v.report (scene.statementProblems v.courier s)) := by
  rw [visit, ← List.foldl_attach (l := s.runs)]
  refine congrFun (congrFun (congrArg List.foldl ?_) _) _
  funext v ⟨run, _⟩
  have hparts : ∀ v, run.2.attach.foldl (fun v ⟨y, _⟩ => y.visit scene v) v =
      run.2.foldl (fun v y => y.visit scene v) v := fun v => by
    rw [← List.foldl_attach (l := run.2)]
  obtain ⟨kind, parts⟩ := run
  cases kind <;> simp only [visitRun, hparts]

def Reports (scene : Scene) (x : Node) : Prop :=
  ∀ v : Visitor, x.visit scene v = v.report ((x.sites v.courier).flatMap scene.problems)

theorem foldl_visit {ys : List Node} (h : ∀ y ∈ ys, y.Reports scene) (v : Visitor) :
    ys.foldl (fun v y => y.visit scene v) v =
      v.report (ys.flatMap fun y => (y.sites v.courier).flatMap scene.problems) := by
  induction ys generalizing v with
  | nil => rw [List.foldl_nil, List.flatMap_nil, v.report_nil]
  | cons y rest ih =>
    obtain ⟨hy, hrest⟩ := List.forall_mem_cons.mp h
    rw [List.foldl_cons, hy, ih hrest, Visitor.report_report, Visitor.courier_report,
      List.flatMap_cons]

theorem visitRun_eq {run : Option OperationKind × List Node}
    (h : ∀ y ∈ run.2, y.Reports scene) (v : Visitor) :
    visitRun scene run v =
      v.report (run.2.flatMap fun y =>
        (y.sites (run.1.or v.courier)).flatMap scene.problems) := by
  obtain ⟨kind, parts⟩ := run
  cases kind with
  | none => exact foldl_visit h v
  | some kind =>
    simp only [visitRun, Visitor.inBranch]
    rw [foldl_visit h]
    rfl

theorem foldl_visitRun {runs : List (Option OperationKind × List Node)}
    (h : ∀ run ∈ runs, ∀ y ∈ run.2, y.Reports scene) (v : Visitor) :
    runs.foldl (fun v run => visitRun scene run v) v =
      v.report (runs.flatMap fun run => run.2.flatMap fun y =>
        (y.sites (run.1.or v.courier)).flatMap scene.problems) := by
  induction runs generalizing v with
  | nil => rw [List.foldl_nil, List.flatMap_nil, v.report_nil]
  | cons run rest ih =>
    obtain ⟨hrun, hrest⟩ := List.forall_mem_cons.mp h
    rw [List.foldl_cons, visitRun_eq hrun, ih hrest, Visitor.report_report,
      Visitor.courier_report, List.flatMap_cons]

theorem reports_statement {s : Statement}
    (h : ∀ run ∈ s.runs, ∀ y ∈ run.2, y.Reports scene) : (statement s).Reports scene := by
  intro v
  rw [visit_statement, foldl_visitRun h, Visitor.report_report, Visitor.courier_report, sites,
    Statement.sites_eq, Statement.judgedParts_eq_runs, List.flatMap_cons, List.flatMap_assoc,
    List.flatMap_assoc]
  simp only [List.flatMap_map]
  rfl

theorem reports (scene : Scene) (x : Node) : x.Reports scene := by
  induction hn : sizeOf x using Nat.strongRecOn generalizing x with
  | ind n ih =>
    subst hn
    cases x with
    | statement s =>
      exact reports_statement fun run hrun y hy =>
        ih _ (Statement.sizeOf_lt_of_mem_runs hrun hy) y rfl
    | _ => exact fun v => by simp [visit, sites]

end Node

/-- What is wrong with a declaration is wrong with its head or reported by a visit to its body. -/
theorem Declaration.problems_eq_visit (overview : Overview) (t : Tables) (d : Declaration) :
    d.problems overview t = d.headProblems overview t ++
      (d.body?.map fun s =>
        ((Node.statement s).visit (d.scene overview t) ⟨none, []⟩).reported).getD [] := by
  rw [problems, sites]
  cases d.body? with
  | none => rfl
  | some s =>
    rw [Option.map_some, Option.map_some, Option.getD_some, Option.getD_some, Node.reports]
    rfl

end ServiceCheck
