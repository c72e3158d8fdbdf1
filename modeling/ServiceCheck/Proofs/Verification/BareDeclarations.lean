import ServiceCheck.Proofs.Types.BareTypes
import ServiceCheck.Proofs.Verification.PathUsage
import ServiceCheck.Proofs.Verification.Wording
import ServiceCheck.Verification.Declarations

set_option autoImplicit false

namespace ServiceCheck

open Dictionary (mapValues)

namespace Tables

def bare (t : Tables) : Tables :=
  ⟨t.types.bare, mapValues InputPort.bare t.inputPorts, mapValues Port.bare t.outputPorts,
    mapValues Procedure.bare t.procedures⟩

theorem declare_bare (t : Tables) (d : Declaration) :
    t.bare.declare d.bare = (t.declare d).bare := by
  cases d <;> simp [declare, Declaration.bare, bare, TypeMap.bare, InputPort.bare, Port.bare,
    Procedure.bare, ← Dictionary.setNew_mapValues]

theorem declareAll_bare (t : Tables) (ds : List Declaration) :
    t.bare.declareAll (ds.map Declaration.bare) = (t.declareAll ds).bare := by
  induction ds generalizing t with
  | nil => rfl
  | cons d ds ih =>
    simp only [declareAll, List.map_cons, List.foldl_cons] at ih ⊢
    rw [declare_bare, ih]

theorem inForce_bare (t : Tables) (ds : List Declaration) :
    inForce t.bare (ds.map Declaration.bare) =
      (inForce t ds).map fun entry => (entry.1.bare, entry.2.bare) := by
  induction ds generalizing t with
  | nil => rfl
  | cons d ds ih => simp [inForce, declare_bare, ih]

end Tables

section Sites

@[simp] theorem Declaration.body?_bare (d : Declaration) :
    d.bare.body? = d.body?.map Statement.bare := by
  cases d <;> rfl

@[simp] theorem Declaration.sites_bare (d : Declaration) :
    d.bare.sites = d.sites.map Site.bare := by
  rw [Declaration.sites, Declaration.sites, body?_bare]
  cases d.body? with
  | none => rfl
  | some body => exact Node.sites_bare (.statement body) rfl none

@[simp] theorem Declaration.writes_bare (d : Declaration) : d.bare.writes = d.writes := by
  have hsites : d.bare.sites.flatMap Site.writes = d.sites.flatMap Site.writes := by
    simp [List.flatMap_map]
  cases d
  case outputPort => rfl
  all_goals exact hsites

@[simp] theorem Program.constants_bare (p : Program) : p.bare.constants = p.constants := by
  simp [Program.constants, List.flatMap_map]

end Sites

theorem TypeDefinition.problems_bare (t : TypeDefinition) :
    t.bare.problems.map Diagnostic.wording = t.problems.map Diagnostic.wording := by
  simp [problems, cardinalityProblems, boundProblems, nodes_bare, List.flatMap_map,
    List.map_flatMap, apply_ite (List.map Diagnostic.wording)]

section Ports

variable (types : TypeMap)

theorem Operation.problems_bare (o : Operation) :
    (o.bare.problems types.bare).map Diagnostic.wording =
      (o.problems types).map Diagnostic.wording := by
  simp [problems, TypeMap.bare, List.filter_map, Function.comp_def]

@[simp] theorem wording_redefinitionProblems (kind : DiagnosticKind) (position : Position)
    (text : String) (first : Option Position) :
    (redefinitionProblems kind position text first).map Diagnostic.wording =
      if first.isSome then [⟨kind, kind.message (some text), []⟩] else [] := by
  cases first <;> simp [redefinitionProblems]

theorem InputPort.operationProblems_bare (port : String) (seen : List String)
    (operations : List Operation) :
    (operationProblems types.bare port seen (operations.map Operation.bare)).map
        Diagnostic.wording =
      (operationProblems types port seen operations).map Diagnostic.wording := by
  induction operations generalizing seen with
  | nil => rfl
  | cons o rest ih =>
    simp only [List.map_cons, operationProblems, Operation.id_bare]
    by_cases h : o.id ∈ seen <;> simp [h, ih, Operation.problems_bare]

variable (t : Tables)

theorem InputPort.aggregationProblems_bare (ports : Dictionary OutputPort) (p : InputPort) :
    (p.bare.aggregationProblems (mapValues Port.bare ports)).map Diagnostic.wording =
      (p.aggregationProblems ports).map Diagnostic.wording := by
  simp [aggregationProblems, InputPort.bare, Port.bare]

theorem InputPort.problems_bare (p : InputPort) :
    (p.bare.problems t.bare).map Diagnostic.wording = (p.problems t).map Diagnostic.wording := by
  simp [problems, Tables.bare, operationProblems_bare, aggregationProblems_bare]

theorem Port.outputProblems_bare (p : OutputPort) :
    ((Port.bare p).outputProblems t.bare).map Diagnostic.wording =
      (p.outputProblems t).map Diagnostic.wording := by
  simp [outputProblems, Tables.bare, List.flatMap_map, List.map_flatMap,
    Operation.problems_bare]

end Ports

theorem Procedure.problems_bare (t : Tables) (mode : ExecutionMode) (p : Procedure) :
    (p.bare.problems t.bare mode).map Diagnostic.wording =
      (p.problems t mode).map Diagnostic.wording := by
  have hid : p.bare.id = p.id := rfl
  have hmain : p.bare.isMain = p.isMain := rfl
  have hbody : p.bare.body = p.body.bare := rfl
  simp only [problems, hid, hmain, Tables.bare, Dictionary.get?_mapValues]
  cases Dictionary.get? t.procedures p.id with
  | some first => simp
  | none => simp [shapeProblems, hbody, apply_ite (List.map Diagnostic.wording)]

namespace CorrelationSet

def MembersStatic (set : CorrelationSet) : Prop := ∀ v ∈ set.members, v.path.isStatic = true

variable (set : CorrelationSet)

theorem pathProblems_bare (subject : String) (p : VariablePath) :
    (set.bare.pathProblems subject p.bare).map Diagnostic.wording =
      (set.pathProblems subject p).map Diagnostic.wording := by
  simp [pathProblems, plainPathProblem?]

theorem variableProblems_bare (earlier : List CorrelationVariable) (v : CorrelationVariable)
    (hearlier : ∀ u ∈ earlier, u.path.isStatic = true) (hv : v.path.isStatic = true) :
    (set.bare.variableProblems (earlier.map CorrelationVariable.bare) v.bare).map
        Diagnostic.wording =
      (set.variableProblems earlier v).map Diagnostic.wording := by
  have hrepeated : (earlier.map CorrelationVariable.bare).any (·.path.samePath v.path.bare) =
      earlier.any (·.path.samePath v.path) := by
    rw [List.any_map, Bool.eq_iff_iff, List.any_eq_true, List.any_eq_true]
    refine exists_congr fun u => and_congr_right fun hu => ?_
    rw [← VariablePath.samePath_bare (hearlier u hu) hv]
    rfl
  simp [variableProblems, CorrelationVariable.bare, CorrelationAlias.bare, hrepeated,
    pathProblems_bare, List.flatMap_map, List.map_flatMap, apply_ite (List.map Diagnostic.wording)]

theorem declarationProblemsFrom_bare (earlier members : List CorrelationVariable)
    (hearlier : ∀ u ∈ earlier, u.path.isStatic = true)
    (hmembers : ∀ v ∈ members, v.path.isStatic = true) :
    (set.bare.declarationProblemsFrom (earlier.map CorrelationVariable.bare)
        (members.map CorrelationVariable.bare)).map Diagnostic.wording =
      (set.declarationProblemsFrom earlier members).map Diagnostic.wording := by
  induction members generalizing earlier with
  | nil => rfl
  | cons v rest ih =>
    obtain ⟨hv, hrest⟩ := List.forall_mem_cons.mp hmembers
    have hnext : ∀ u ∈ earlier ++ [v], u.path.isStatic = true := by
      intro u hu
      rcases List.mem_append.mp hu with hu | hu
      · exact hearlier u hu
      · exact List.mem_singleton.mp hu ▸ hv
    have hlater := ih (earlier ++ [v]) hnext hrest
    rw [List.map_append, List.map_singleton] at hlater
    simp only [List.map_cons, declarationProblemsFrom, List.map_append,
      set.variableProblems_bare earlier v hearlier hv, hlater]

theorem declarationProblems_bare (h : set.MembersStatic) :
    set.bare.declarationProblems.map Diagnostic.wording =
      set.declarationProblems.map Diagnostic.wording :=
  set.declarationProblemsFrom_bare [] set.members (by simp) h

end CorrelationSet

def Program.MembersStatic (p : Program) : Prop := ∀ set ∈ p.correlationSets, set.MembersStatic

namespace Declaration

variable (overview : Overview) (t : Tables) (d : Declaration)

theorem headProblems_bare (h : ∀ set, d = .correlationSet set → set.MembersStatic) :
    (d.bare.headProblems overview t.bare).map Diagnostic.wording =
      (d.headProblems overview t).map Diagnostic.wording := by
  cases d
  case type t => exact t.problems_bare
  case inputPort p => exact p.problems_bare t
  case outputPort p => exact Port.outputProblems_bare t p
  case correlationSet set => exact set.declarationProblems_bare (h set rfl)
  case procedure p => exact p.problems_bare t overview.mode
  case courier c =>
    simp [bare, headProblems, Courier.bare, Tables.bare, apply_ite (List.map Diagnostic.wording)]
  all_goals rfl

theorem scene_bare : d.bare.scene overview t.bare = (d.scene overview t).bare := by
  cases d <;> rfl

theorem problems_bare (h : ∀ set, d = .correlationSet set → set.MembersStatic) :
    (d.bare.problems overview t.bare).map Diagnostic.wording =
      (d.problems overview t).map Diagnostic.wording := by
  simp only [problems, List.map_append, d.headProblems_bare overview t h, sites_bare, scene_bare,
    List.flatMap_map, List.map_flatMap, Scene.problems_bare]

end Declaration

theorem Program.overview_bare (p : Program) : p.bare.overview = p.overview := by
  simp [Program.overview, Procedure.bare]

theorem Program.declarationProblems_bare (callerTypes : TypeMap) (p : Program)
    (h : p.MembersStatic) :
    (p.bare.declarationProblems callerTypes.bare).map Diagnostic.wording =
      (p.declarationProblems callerTypes).map Diagnostic.wording := by
  have hinitial : Tables.initial callerTypes.bare = (Tables.initial callerTypes).bare := rfl
  simp only [Program.declarationProblems, overview_bare, hinitial, declarations_bare,
    Tables.inForce_bare, List.flatMap_map, List.map_flatMap]
  refine List.flatMap_congr fun entry hentry => ?_
  refine entry.2.problems_bare p.overview entry.1 fun set hset => h set ?_
  rw [Program.mem_correlationSets_iff, ← hset]
  exact Tables.mem_of_mem_inForce hentry

end ServiceCheck
