import Mathlib.Data.List.Basic
import ServiceCheck.Proofs.Program.BareParts
import ServiceCheck.Proofs.Verification.Sites

set_option autoImplicit false

namespace ServiceCheck

/-- A diagnostic without the places that it points to. -/
structure Wording where
  kind : DiagnosticKind
  message : String
  hints : List String
deriving DecidableEq, Repr

namespace Diagnostic

def wording (d : Diagnostic) : Wording := ⟨d.kind, d.message, d.hints⟩

variable (kind : DiagnosticKind) (position : Position) (text : String) (d : Diagnostic)

@[simp] theorem wording_located :
    (located kind position).wording = ⟨kind, kind.message none, []⟩ := rfl

@[simp] theorem wording_report :
    (report kind position text).wording = ⟨kind, kind.message (some text), []⟩ := rfl

@[simp] theorem wording_hint :
    (d.hint text).wording = { d.wording with hints := d.wording.hints ++ [text] } := rfl

@[simp] theorem wording_relate : (d.relate text position).wording = d.wording := by
  unfold relate
  split <;> rfl

end Diagnostic

theorem Diagnostics.hasErrors_congr {ds ds' : Diagnostics}
    (h : ds.map Diagnostic.wording = ds'.map Diagnostic.wording) :
    hasErrors ds = hasErrors ds' := by
  have hkinds : ∀ ds : Diagnostics,
      hasErrors ds = (ds.map Diagnostic.wording).any (·.kind.severity = .error) := by
    intro ds
    rw [List.any_map]
    rfl
  rw [hkinds, hkinds, h]

namespace Site

def bare : Site → Site
  | .statement courier s => .statement courier s.bare
  | .path p => .path p.bare

theorem writtenPaths_bare (s : Site) :
    s.bare.writtenPaths = s.writtenPaths.map VariablePath.bare := by
  cases s with
  | statement courier s =>
    cases s
    case oneWay input | requestResponse input _ _ | solicitResponse input => cases input <;> rfl
    all_goals rfl
  | path => rfl

@[simp] theorem writes_bare (s : Site) : s.bare.writes = s.writes := by
  simp [writes, writtenPaths_bare, List.filterMap_map]

end Site

namespace Statement

variable (courier : Option OperationKind)

@[simp] theorem isChoice_bare (s : Statement) : s.bare.isChoice = s.isChoice := by
  cases s <;> rfl

theorem guards_bare (s : Statement) : s.bare.guards = s.guards.map bare := by
  cases s <;> simp [bare, guards]

theorem judgedParts_bare (s : Statement) :
    s.bare.judgedParts courier =
      (s.judgedParts courier).map fun part => (part.1, part.2.bare) := by
  have hopen : ∀ s : Statement, s.bare.parts.map (fun part => (courier, part)) =
      (s.parts.map fun part => (courier, part)).map fun part => (part.1, part.2.bare) := by
    intro s
    rw [parts_bare, List.map_map, List.map_map]
    rfl
  cases s
  case solicitResponse => simp [bare, judgedParts]
  case provideUntil position provide finish =>
    rw [bare, judgedParts_provideUntil, judgedParts_provideUntil, isChoice_bare, isChoice_bare]
    split
    · rename_i hchoices
      obtain ⟨hprovide, hfinish⟩ := Bool.and_eq_true_iff.mp hchoices
      obtain ⟨p, provided, rfl⟩ := provide.isChoice_iff.mp hprovide
      obtain ⟨p', finishing, rfl⟩ := finish.isChoice_iff.mp hfinish
      rw [List.map_append]
      exact congr (congrArg _ (hopen _)) (hopen _)
    · rfl
  case courierChoice position branches =>
    simp only [bare, bareCourierBranches_eq, judgedParts, List.flatMap_map, List.map_flatMap,
      CourierBranch.parts_bare, List.map_map]
    rfl
  all_goals exact hopen _

end Statement

namespace Node

theorem sites_bare (x : Node) (hx : x.isCode) (courier : Option OperationKind) :
    x.bare.sites courier = (x.sites courier).map Site.bare := by
  induction hsize : sizeOf x using Nat.strongRecOn generalizing x courier with
  | ind n ih =>
    subst hsize
    have hparts : (x.parts.map bare).flatMap (sites courier) =
        (x.parts.flatMap (sites courier)).map Site.bare := by
      rw [List.flatMap_map, List.map_flatMap]
      exact List.flatMap_congr fun y hy =>
        ih _ (sizeOf_lt_of_mem_parts hy) y (isCode_of_mem_parts hx hy) courier rfl
    cases x with
    | statement s =>
      rw [bare, sites, sites, Statement.sites_eq, Statement.sites_eq, Statement.judgedParts_bare,
        List.map_cons, List.flatMap_map, List.map_flatMap]
      refine congrArg (Site.bare (.statement courier s) :: ·)
        (List.flatMap_congr fun part hpart => ?_)
      have hinner : part.2.isCode ∧ sizeOf part.2 < sizeOf (Node.statement s) := by
        rcases (Statement.of_mem_judgedParts courier hpart).2 with hmem | ⟨y, hy, hmem⟩
        · exact ⟨isCode_of_mem_parts hx hmem, sizeOf_lt_of_mem_parts hmem⟩
        · exact ⟨isCode_of_mem_parts (isCode_of_mem_parts hx hy) hmem,
            Nat.lt_trans (sizeOf_lt_of_mem_parts hmem) (sizeOf_lt_of_mem_parts hy)⟩
      exact ih _ hinner.2 part.2 hinner.1 part.1 rfl
    | expression e =>
      rw [bare, sites, sites, Expression.sites_eq courier, Expression.sites_eq courier,
        Expression.parts_bare]
      exact hparts
    | path p =>
      rw [bare, sites, sites, VariablePath.sites_eq courier, VariablePath.sites_eq courier,
        VariablePath.parts_bare, List.map_cons]
      exact congrArg (Site.bare (.path p) :: ·) hparts
    | type t => rfl
    | _ => cases hx

end Node

namespace Scene

def bare (scene : Scene) : Scene :=
  { scene with outputPorts := Dictionary.mapValues Port.bare scene.outputPorts }

theorem guardProblems_bare (fallback fallback' : Position) (seen : List String)
    (guards : List Statement) :
    (guardProblems fallback' seen (guards.map Statement.bare)).map Diagnostic.wording =
      (guardProblems fallback seen guards).map Diagnostic.wording := by
  induction guards generalizing seen with
  | nil => rfl
  | cons guard rest ih =>
    simp only [List.map_cons, guardProblems, Statement.inputOperation?_bare]
    cases guard.inputOperation? with
    | none => simp [ih]
    | some operation => by_cases h : operation ∈ seen <;> simp [h, ih]

theorem inputProblems_bare (courier : Option OperationKind) (position position' : Position)
    (input : Option VariablePath) :
    (inputProblems courier position' (input.map VariablePath.bare)).map Diagnostic.wording =
      (inputProblems courier position input).map Diagnostic.wording := by
  cases courier <;> cases input <;> simp [inputProblems, apply_ite (List.map Diagnostic.wording)]

variable (scene : Scene) (position position' : Position)

theorem outputProblems_bare (operation port : String) (used : OperationKind) :
    (scene.bare.outputProblems position' operation port used).map Diagnostic.wording =
      (scene.outputProblems position operation port used).map Diagnostic.wording := by
  simp only [outputProblems, bare, Dictionary.get?_mapValues]
  cases Dictionary.get? scene.outputPorts port with
  | none => rfl
  | some p =>
    simp only [Option.map_some, Port.findOperation?_bare]
    cases p.findOperation? operation with
    | none => rfl
    | some declared => by_cases h : declared.kind = used <;> simp [h]

theorem forwardProblems_bare (courier : Option OperationKind) (used : OperationKind)
    (port : Option String) :
    (scene.bare.forwardProblems courier position' used port).map Diagnostic.wording =
      (scene.forwardProblems courier position used port).map Diagnostic.wording := by
  cases courier <;> cases port <;>
    simp [forwardProblems, bare, apply_ite (List.map Diagnostic.wording)]

theorem correlationUse_bare (path : VariablePath) (text : String) :
    (correlationUse position' path.bare text).map Diagnostic.wording =
      (correlationUse position path text).map Diagnostic.wording := by
  simp [correlationUse, apply_ite (List.map Diagnostic.wording)]

theorem statementProblems_bare (courier : Option OperationKind) (s : Statement) :
    (scene.bare.statementProblems courier s.bare).map Diagnostic.wording =
      (scene.statementProblems courier s).map Diagnostic.wording := by
  cases s
  case call position procedure =>
    by_cases h : procedure ∈ scene.procedureNames <;>
      simp [Statement.bare, statementProblems, bare, h]
  case oneWay | requestResponse => exact inputProblems_bare ..
  case notification | solicitResponse => exact scene.outputProblems_bare ..
  case notificationForward | solicitResponseForward => exact scene.forwardProblems_bare ..
  case pointer | deepCopy | undef => exact correlationUse_bare ..
  case inputChoice position branches =>
    have h := guardProblems_bare position .unknown [] (branches.map (·.1))
    simpa [Statement.bare, statementProblems, Function.comp_def] using h
  case provideUntil position provide finish =>
    rw [Statement.bare, statementProblems_provideUntil, statementProblems_provideUntil,
      Statement.isChoice_bare, Statement.isChoice_bare]
    split
    · have h := guardProblems_bare position .unknown [] (provide.guards ++ finish.guards)
      rwa [List.map_append, ← Statement.guards_bare, ← Statement.guards_bare] at h
    · rfl
  all_goals rfl

theorem pathProblems_bare (p : VariablePath) :
    (scene.bare.pathProblems p.bare).map Diagnostic.wording =
      (scene.pathProblems p).map Diagnostic.wording := by
  simp [pathProblems, bare, apply_ite (List.map Diagnostic.wording)]

theorem problems_bare (site : Site) :
    (scene.bare.problems site.bare).map Diagnostic.wording =
      (scene.problems site).map Diagnostic.wording := by
  cases site with
  | statement courier s => exact scene.statementProblems_bare courier s
  | path p => exact scene.pathProblems_bare p

end Scene

end ServiceCheck
