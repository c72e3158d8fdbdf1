import Mathlib.Data.List.Perm.Basic
import ServiceCheck.Proofs.Verification.Mismatches
import ServiceCheck.Proofs.Verification.Wiring

set_option autoImplicit false

namespace ServiceCheck

open Diagnostics

section Named

variable {α β : Type} (name : α → String)

/-- How many names repeat an earlier one. -/
def surplus (names : List String) : Nat := names.length - names.toFinset.card

theorem length_laterNamed (items : List α) :
    (laterNamed name [] items).length = surplus (items.map name) := by
  have hlength := @length_laterNamed_add_card α name [] items
  rw [List.toFinset_nil, Finset.sdiff_empty] at hlength
  rw [surplus, List.length_map]
  omega

theorem map_snd_repeats (items : List α) :
    (repeats name (fun _ => none) items).map (·.2) = laterNamed name [] items := by
  have hnone : ∀ key, key ∈ [] ↔ ((fun _ => none : String → Option α) key).isSome := by simp
  rw [← laterNamed_eq_repeats hnone, List.map_filterMap]
  refine Eq.trans (List.filterMap_congr fun later hlater => ?_) List.filterMap_some
  have hfound : (items.find? (name · = name later)).isSome :=
    List.find?_isSome.mpr ⟨later, mem_of_mem_laterNamed hlater, by simp⟩
  obtain ⟨first, hfirst⟩ := Option.isSome_iff_exists.mp hfound
  rw [Option.none_or, hfirst]
  rfl

theorem length_repeats (items : List α) :
    (repeats name (fun _ => none) items).length = surplus (items.map name) := by
  rw [← length_laterNamed, ← map_snd_repeats, List.length_map]

/-- What is said of an item once its name is held is said of the repeats. -/
theorem flatMap_heldBefore_eq_repeats (say : α → α → β) (items : List α) :
    ((heldBefore name (fun _ => none) items).flatMap fun e => (e.1.map (say · e.2)).toList) =
      (repeats name (fun _ => none) items).map fun (first, later) => say first later := by
  rw [repeats, List.map_filterMap, List.filterMap_eq_flatMap_toList]
  refine List.flatMap_congr fun e _ => ?_
  rw [Option.map_map]
  rfl

/-- What is said of the items of one name while the name is not held is said of the first. -/
theorem flatMap_heldBefore_eq_find? (held : String → Option α) (key : String) (say : α → List β)
    (items : List α) :
    ((heldBefore name held items).flatMap fun e =>
        if e.1.isNone ∧ name e.2 = key then say e.2 else []) =
      if (held key).isSome then []
      else (items.find? (name · = key)).toList.flatMap say := by
  induction items generalizing held with
  | nil => simp [heldBefore]
  | cons x rest ih =>
    rw [heldBefore_cons, List.flatMap_cons, ih, List.find?_cons, alsoHeld]
    by_cases hname : name x = key
    · subst hname
      cases held (name x) <;> simp
    · simp [hname]

end Named

namespace Tables

variable {α β : Type} (table : Tables → Dictionary α) (name : α → String)
  (item? : Declaration → Option α)

/-- The table in force at a declaration holds what is held before it. -/
theorem flatMap_inForce
    (hdeclare : ∀ t d, table (t.declare d) =
      (item? d).toList.foldl (fun d x => Dictionary.setNew d (name x) x) (table t))
    (say : Option α → α → List β) (t : Tables) (ds : List Declaration) :
    ((inForce t ds).flatMap fun e =>
        (item? e.2).toList.flatMap fun x => say (Dictionary.get? (table e.1) (name x)) x) =
      (heldBefore name (Dictionary.get? (table t)) (ds.filterMap item?)).flatMap fun e =>
        say e.1 e.2 := by
  induction ds generalizing t with
  | nil => rfl
  | cons d rest ih =>
    rw [inForce, List.flatMap_cons, ih, hdeclare]
    cases hd : item? d with
    | none => rw [List.filterMap_cons_none hd]; rfl
    | some x =>
      have hheld : Dictionary.get? (Dictionary.setNew (table t) (name x) x) =
          alsoHeld name (Dictionary.get? (table t)) x :=
        funext fun key => Dictionary.get?_setNew (table t) (name x) key x
      rw [List.filterMap_cons_some hd, heldBefore_cons, List.flatMap_cons, ← hheld]
      simp

theorem flatMap_items (say : α → List β) (t : Tables) (ds : List Declaration) :
    ((inForce t ds).flatMap fun e => (item? e.2).toList.flatMap say) =
      (ds.filterMap item?).flatMap say := by
  rw [List.filterMap_eq_flatMap_toList, List.flatMap_assoc]
  nth_rewrite 2 [← map_snd_inForce t ds]
  rw [List.flatMap_map]

end Tables

def Declaration.correlationSet? : Declaration → Option CorrelationSet
  | .correlationSet set => some set
  | _ => none

namespace Diagnostic

/-- The report of a name that is declared again. The first declaration is pointed at, where its
position is known. -/
def redefinition (kind : DiagnosticKind) (later : Position) (text : String) (first : Position) :
    Diagnostic :=
  { report kind later text with
    related := if first.isKnown then [⟨"first defined here", first⟩] else [] }

theorem redefinitionProblems_eq (kind : DiagnosticKind) (later : Position) (text : String)
    (first : Option Position) :
    redefinitionProblems kind later text first =
      (first.map (redefinition kind later text)).toList := by
  cases first with
  | none => rfl
  | some first =>
    simp only [redefinitionProblems, relate, redefinition, Option.map_some, Option.toList]
    split <;> rfl

end Diagnostic

def InputPort.redefinition (first later : InputPort) : Diagnostic :=
  .redefinition .duplicatePortDefinition later.position ("input port `" ++ later.id ++ "`")
    first.position

def Port.redefinition (first later : OutputPort) : Diagnostic :=
  .redefinition .duplicatePortDefinition later.position ("output port `" ++ later.id ++ "`")
    first.position

def Procedure.redefinition (first later : Procedure) : Diagnostic :=
  .redefinition .duplicateProcedureDefinition later.position later.id first.position

namespace InputPort

def repeatedOperation (port : InputPort) (later : Operation) : Diagnostic :=
  (Diagnostic.report .duplicateOperationInPort later.position later.id).hint
    ("in input port `" ++ port.id ++ "`")

def repeatedOperations (port : InputPort) : Diagnostics :=
  (repeats Operation.id (fun _ => none) port.allOperations).map fun (_, later) =>
    port.repeatedOperation later

def danglingAggregations (declared : List OutputPort) (port : InputPort) : Diagnostics :=
  ((port.aggregations.flatMap (·.ports)).filter fun name => !declared.any (·.id = name)).map
    fun name => (Diagnostic.report .undefinedAggregatedPort port.position name).hint
      ("aggregated by input port `" ++ port.id ++ "`")

end InputPort

namespace CorrelationSet

def repeatedVariable? (set : CorrelationSet) (earlier : List CorrelationVariable)
    (v : CorrelationVariable) : Option Diagnostic :=
  if earlier.any (·.path.samePath v.path) then
    some (.report .duplicateCorrelationVariable (v.path.position.orElse set.position) v.path.text)
  else none

def repeatedVariables (set : CorrelationSet) : Diagnostics :=
  set.members.zipIdx.filterMap fun (v, i) => set.repeatedVariable? (set.members.take i) v

end CorrelationSet

def Scene.behaviourKinds : List DiagnosticKind :=
  [.undefinedProcedureCall, .courierContextError, .invalidPathUsage, .undefinedOutputPort,
    .undeclaredOperation, .operationKindMismatch, .invalidInputChoice]

theorem Scene.siteKinds_subset (site : Site) : siteKinds site ⊆ behaviourKinds := by
  cases site with
  | path => simp [siteKinds, behaviourKinds]
  | statement courier s => cases s <;> simp [siteKinds, statementKinds, behaviourKinds]

namespace InputPort

variable (t : Tables) (port : InputPort)

theorem ofKinds_duplicatePort :
    ofKinds [.duplicatePortDefinition] (port.problems t) =
      ((Dictionary.get? t.inputPorts port.id).map (redefinition · port)).toList := by
  rw [problems, ofKinds_append, ofKinds_append,
    within_redefinitionProblems.ofKinds_eq_self (by decide),
    within_operationProblems.ofKinds_eq_nil (by decide),
    port.within_aggregationProblems.ofKinds_eq_nil (by decide), List.append_nil, List.append_nil,
    Diagnostic.redefinitionProblems_eq, Option.map_map]
  rfl

theorem ofKinds_operationProblems (types : TypeMap) (seen : List String)
    (operations : List Operation) :
    ofKinds [.duplicateOperationInPort] (operationProblems types port.id seen operations) =
      (laterNamed Operation.id seen operations).map port.repeatedOperation := by
  induction operations generalizing seen with
  | nil => rfl
  | cons o rest ih =>
    rw [operationProblems, laterNamed]
    split
    · rw [List.map_cons, ← ih]
      rfl
    · rw [ofKinds_append, ih, o.within_problems.ofKinds_eq_nil (by decide), List.nil_append]

theorem ofKinds_duplicateOperation :
    ofKinds [.duplicateOperationInPort] (port.problems t) = port.repeatedOperations := by
  rw [problems, ofKinds_append, ofKinds_append,
    within_redefinitionProblems.ofKinds_eq_nil (by decide),
    port.within_aggregationProblems.ofKinds_eq_nil (by decide), List.append_nil, List.nil_append,
    ofKinds_operationProblems, ← map_snd_repeats, List.map_map]
  rfl

theorem ofKinds_danglingAggregation :
    ofKinds [.undefinedAggregatedPort] (port.problems t) =
      port.aggregationProblems t.outputPorts := by
  rw [problems, ofKinds_append, ofKinds_append,
    within_redefinitionProblems.ofKinds_eq_nil (by decide),
    within_operationProblems.ofKinds_eq_nil (by decide),
    port.within_aggregationProblems.ofKinds_eq_self (by decide), List.nil_append, List.nil_append]

theorem aggregationProblems_eq {held : Dictionary OutputPort} {declared : List OutputPort}
    (hports : ∀ name, Dictionary.get? held name = declared.find? (·.id = name)) :
    port.aggregationProblems held = port.danglingAggregations declared := by
  have hcontains : ∀ name, Dictionary.contains held name = declared.any (·.id = name) :=
    fun name => by rw [Dictionary.contains, hports, List.isSome_find?]
  rw [aggregationProblems, danglingAggregations]
  simp only [hcontains]

end InputPort

theorem Port.ofKinds_duplicatePort (t : Tables) (port : OutputPort) :
    ofKinds [.duplicatePortDefinition] (port.outputProblems t) =
      ((Dictionary.get? t.outputPorts port.id).map (redefinition · port)).toList := by
  have hoperations : Within [.unknownTypeReference]
      (port.allOperations.flatMap (Operation.problems t.types)) :=
    within_flatMap.mpr fun o _ => o.within_problems
  rw [Port.outputProblems, ofKinds_append, within_redefinitionProblems.ofKinds_eq_self (by decide),
    hoperations.ofKinds_eq_nil (by decide), List.append_nil, Diagnostic.redefinitionProblems_eq,
    Option.map_map]
  rfl

namespace Procedure

variable (t : Tables) (mode : ExecutionMode) (f : Procedure)

theorem ofKinds_duplicateProcedure :
    ofKinds [.duplicateProcedureDefinition] (f.problems t mode) =
      ((Dictionary.get? t.procedures f.id).map (redefinition · f)).toList := by
  rw [problems]
  cases Dictionary.get? t.procedures f.id with
  | none =>
    have hshape : Within [.mainProcedureShapeInvalid]
        (if f.isMain then f.shapeProblems mode else []) := by
      simp [shapeProblems]
    exact hshape.ofKinds_eq_nil (by decide)
  | some first =>
    exact (within_redefinitionProblems.ofKinds_eq_self (by decide)).trans
      (Diagnostic.redefinitionProblems_eq ..)

theorem ofKinds_mainShape :
    ofKinds [.mainProcedureShapeInvalid] (f.problems t mode) =
      if (Dictionary.get? t.procedures f.id).isNone ∧ f.id = mainId then f.shapeProblems mode
      else [] := by
  have hshape : Within [.mainProcedureShapeInvalid] (f.shapeProblems mode) := by
    simp [shapeProblems]
  rw [problems]
  cases Dictionary.get? t.procedures f.id with
  | some first => exact within_redefinitionProblems.ofKinds_eq_nil (by decide)
  | none =>
    rw [isMain]
    by_cases hmain : f.id = mainId
    · simpa [hmain] using hshape.ofKinds_eq_self (by decide)
    · simp [hmain]

end Procedure

namespace CorrelationSet

variable (set : CorrelationSet)

theorem ofKinds_variableProblems (earlier : List CorrelationVariable) (v : CorrelationVariable) :
    ofKinds [.duplicateCorrelationVariable] (set.variableProblems earlier v) =
      (set.repeatedVariable? earlier v).toList := by
  have hpath : ∀ subject path,
      ofKinds [.duplicateCorrelationVariable] (set.pathProblems subject path) = [] :=
    fun subject path => (set.within_pathProblems subject path).ofKinds_eq_nil (by decide)
  have haliases : ofKinds [.duplicateCorrelationVariable] (v.aliases.flatMap fun a =>
      set.pathProblems ("correlation alias for `" ++ a.guardType ++ "`") a.path) = [] := by
    simp [ofKinds_flatMap, hpath]
  rw [variableProblems, ofKinds_append, ofKinds_append, hpath, haliases, List.nil_append,
    List.append_nil, repeatedVariable?]
  split <;> rfl

theorem ofKinds_declarationProblems :
    ofKinds [.duplicateCorrelationVariable] set.declarationProblems = set.repeatedVariables := by
  have hfrom : ∀ rest earlier,
      ofKinds [.duplicateCorrelationVariable] (set.declarationProblemsFrom earlier rest) =
        (rest.zipIdx earlier.length).filterMap fun (v, i) =>
          set.repeatedVariable? ((earlier ++ rest).take i) v := by
    intro rest
    induction rest with
    | nil => simp [declarationProblemsFrom]
    | cons v rest ih =>
      intro earlier
      have hnext := ih (earlier ++ [v])
      rw [List.append_assoc, List.singleton_append, List.length_append, List.length_singleton]
        at hnext
      rw [declarationProblemsFrom, ofKinds_append, hnext, ofKinds_variableProblems,
        List.zipIdx_cons]
      simp only [List.filterMap_eq_flatMap_toList, List.flatMap_cons, List.take_left]
  exact hfrom set.members []

end CorrelationSet

namespace Program

section Heads

variable (callerTypes : TypeMap) (config : Config) (p : Program) {kinds : List DiagnosticKind}

/-- Problems of kinds that only declarations themselves have. -/
theorem ofKinds_problems_eq_heads (hwhole : ∀ k ∈ wholeKinds, k ∉ kinds)
    (hsites : ∀ k ∈ Scene.behaviourKinds, k ∉ kinds) :
    ofKinds kinds (p.problems callerTypes config) =
      (Tables.inForce (.initial callerTypes) p.declarations).flatMap fun e =>
        ofKinds kinds (e.2.headProblems p.overview e.1) := by
  rw [ofKinds_problems _ _ _ hwhole, declarationProblems, ofKinds_flatMap]
  refine List.flatMap_congr fun e _ => ?_
  have hbehaviour : ∀ site, ofKinds kinds ((e.2.scene p.overview e.1).problems site) = [] :=
    fun site => (Scene.within_problems site).ofKinds_eq_nil fun k hk =>
      hsites k (Scene.siteKinds_subset site hk)
  simp [Declaration.problems, ofKinds_flatMap, hbehaviour]

variable {α β : Type} (table : Tables → Dictionary α) (name : α → String)
  (item? : Declaration → Option α)

theorem ofKinds_problems_eq_items {say : Tables → α → Diagnostics}
    (hwhole : ∀ k ∈ wholeKinds, k ∉ kinds) (hsites : ∀ k ∈ Scene.behaviourKinds, k ∉ kinds)
    (hitem : ∀ t d x, item? d = some x → ofKinds kinds (d.headProblems p.overview t) = say t x)
    (hother : ∀ d, item? d = none → ∀ k ∈ d.headKinds, k ∉ kinds) :
    ofKinds kinds (p.problems callerTypes config) =
      (Tables.inForce (.initial callerTypes) p.declarations).flatMap fun e =>
        (item? e.2).toList.flatMap (say e.1) := by
  rw [ofKinds_problems_eq_heads _ _ _ hwhole hsites]
  refine List.flatMap_congr fun e _ => ?_
  cases hd : item? e.2 with
  | none => exact (e.2.within_headProblems p.overview).ofKinds_eq_nil (hother e.2 hd)
  | some x => simp [hitem e.1 e.2 x hd]

theorem flatMap_heads_eq_repeats {t : Tables} (hempty : table t = [])
    (hdeclare : ∀ t d, table (t.declare d) =
      (item? d).toList.foldl (fun d x => Dictionary.setNew d (name x) x) (table t))
    (say : α → α → β) (ds : List Declaration) :
    ((Tables.inForce t ds).flatMap fun e => (item? e.2).toList.flatMap fun x =>
        ((Dictionary.get? (table e.1) (name x)).map (say · x)).toList) =
      (repeats name (fun _ => none) (ds.filterMap item?)).map fun (first, later) =>
        say first later := by
  rw [Tables.flatMap_inForce table name item? hdeclare
    (fun first x => (first.map (say · x)).toList), hempty]
  exact flatMap_heldBefore_eq_repeats name say _

end Heads

def repeatedInputPorts (p : Program) : Diagnostics :=
  (repeats (·.id) (fun _ => none) p.inputPorts).map fun (first, later) => first.redefinition later

def repeatedOutputPorts (p : Program) : Diagnostics :=
  (repeats (·.id) (fun _ => none) p.outputPorts).map fun (first, later) => first.redefinition later

def repeatedProcedures (p : Program) : Diagnostics :=
  (repeats (·.id) (fun _ => none) p.procedures).map fun (first, later) => first.redefinition later

def shapeProblems (p : Program) : Diagnostics :=
  (p.procedures.find? (·.id = Procedure.mainId)).toList.flatMap
    (Procedure.shapeProblems p.executionMode)

def danglingAggregations (p : Program) : Diagnostics :=
  p.declarations.zipIdx.flatMap fun (d, i) => d.inputPort?.toList.flatMap
    (InputPort.danglingAggregations ((p.declarations.take i).filterMap Declaration.outputPort?))

/-- What is reported of what a program declares more than once, one report for each declaration
that repeats a name. Input and output ports share a kind of problem and no names. Look-ups of ports
and the shape of the main procedure go by the first declaration of a name. -/
structure DuplicatesReported (p : Program) (ds : Diagnostics) : Prop where
  ports : (ofKinds [.duplicatePortDefinition] ds).Perm
    (p.repeatedInputPorts ++ p.repeatedOutputPorts)
  portCount : count .duplicatePortDefinition ds =
    surplus (p.inputPorts.map (·.id)) + surplus (p.outputPorts.map (·.id))
  procedures : ofKinds [.duplicateProcedureDefinition] ds = p.repeatedProcedures
  procedureCount : count .duplicateProcedureDefinition ds = surplus (p.procedures.map (·.id))
  operations : ofKinds [.duplicateOperationInPort] ds =
    p.inputPorts.flatMap InputPort.repeatedOperations
  operationCounts : ∀ port ∈ p.inputPorts,
    port.repeatedOperations.length = surplus (port.allOperations.map (·.id))
  correlation : ofKinds [.duplicateCorrelationVariable] ds =
    p.correlationSets.flatMap CorrelationSet.repeatedVariables
  wiring : ofKinds Wire.flawKinds ds = p.wiringFlaws
  aggregations : ofKinds [.undefinedAggregatedPort] ds = p.danglingAggregations
  mainShape : ofKinds [.mainProcedureShapeInvalid] ds = p.shapeProblems

variable (callerTypes : TypeMap) (config : Config) (p : Program)

theorem ofKinds_ports :
    (ofKinds [.duplicatePortDefinition] (p.problems callerTypes config)).Perm
      (p.repeatedInputPorts ++ p.repeatedOutputPorts) := by
  have hinputs := flatMap_heads_eq_repeats (·.inputPorts) (·.id) Declaration.inputPort?
    (t := .initial callerTypes) rfl (fun _ d => by cases d <;> rfl) InputPort.redefinition
    p.declarations
  have houtputs := flatMap_heads_eq_repeats (·.outputPorts) (·.id) Declaration.outputPort?
    (t := .initial callerTypes) rfl (fun _ d => by cases d <;> rfl) Port.redefinition
    p.declarations
  rw [ofKinds_problems_eq_heads _ _ _ (by decide) (by decide)]
  refine List.Perm.trans (.of_eq (List.flatMap_congr fun e _ => ?_))
    ((List.flatMap_append_perm _ _ _).symm.trans (.of_eq (congrArg₂ (· ++ ·) hinputs houtputs)))
  cases e.2 with
  | inputPort port =>
    refine (port.ofKinds_duplicatePort e.1).trans ?_
    simp [Declaration.inputPort?, Declaration.outputPort?]
  | outputPort port =>
    refine (Port.ofKinds_duplicatePort e.1 port).trans ?_
    simp [Declaration.inputPort?, Declaration.outputPort?]
  | _ =>
    exact (Declaration.within_headProblems p.overview _).ofKinds_eq_nil
      (by simp [Declaration.headKinds])

theorem ofKinds_procedures :
    ofKinds [.duplicateProcedureDefinition] (p.problems callerTypes config) =
      p.repeatedProcedures := by
  rw [ofKinds_problems_eq_items _ _ _ Declaration.procedure? (by decide) (by decide)
    (fun t d f h => by cases d <;> cases h; exact f.ofKinds_duplicateProcedure t p.executionMode)
    (fun d h => by cases d <;> simp_all [Declaration.headKinds, Declaration.procedure?])]
  exact flatMap_heads_eq_repeats (·.procedures) (·.id) Declaration.procedure? rfl
    (fun _ d => by cases d <;> rfl) Procedure.redefinition p.declarations

theorem ofKinds_mainShape :
    ofKinds [.mainProcedureShapeInvalid] (p.problems callerTypes config) = p.shapeProblems := by
  rw [ofKinds_problems_eq_items _ _ _ Declaration.procedure? (by decide) (by decide)
    (fun t d f h => by cases d <;> cases h; exact f.ofKinds_mainShape t p.executionMode)
    (fun d h => by cases d <;> simp_all [Declaration.headKinds, Declaration.procedure?])]
  have hinForce := Tables.flatMap_inForce (·.procedures) (·.id) Declaration.procedure?
    (fun _ d => by cases d <;> rfl) (fun held f => if held.isNone ∧ f.id = Procedure.mainId then
      f.shapeProblems p.executionMode else []) (.initial callerTypes) p.declarations
  have hfirst := flatMap_heldBefore_eq_find? (·.id) (fun _ => none) Procedure.mainId
    (Procedure.shapeProblems p.executionMode) p.procedures
  exact hinForce.trans hfirst

theorem ofKinds_operations :
    ofKinds [.duplicateOperationInPort] (p.problems callerTypes config) =
      p.inputPorts.flatMap InputPort.repeatedOperations := by
  rw [ofKinds_problems_eq_items _ _ _ Declaration.inputPort? (by decide) (by decide)
    (fun t d port h => by cases d <;> cases h; exact port.ofKinds_duplicateOperation t)
    (fun d h => by cases d <;> simp_all [Declaration.headKinds, Declaration.inputPort?])]
  exact Tables.flatMap_items Declaration.inputPort? _ _ _

theorem ofKinds_correlation :
    ofKinds [.duplicateCorrelationVariable] (p.problems callerTypes config) =
      p.correlationSets.flatMap CorrelationSet.repeatedVariables := by
  rw [ofKinds_problems_eq_items _ _ _ Declaration.correlationSet? (by decide)
    (by decide) (fun t d set h => by cases d <;> cases h; exact set.ofKinds_declarationProblems)
    (fun d h => by cases d <;> simp_all [Declaration.headKinds, Declaration.correlationSet?])]
  exact Tables.flatMap_items Declaration.correlationSet? _ _ _

theorem ofKinds_aggregations :
    ofKinds [.undefinedAggregatedPort] (p.problems callerTypes config) =
      p.danglingAggregations := by
  rw [ofKinds_problems_eq_items _ _ _ Declaration.inputPort? (by decide) (by decide)
    (fun t d port h => by cases d <;> cases h; exact port.ofKinds_danglingAggregation t)
    (fun d h => by cases d <;> simp_all [Declaration.headKinds, Declaration.inputPort?]),
    Tables.inForce_eq, List.flatMap_map, danglingAggregations]
  have hports : ∀ (before : List Declaration) name,
      Dictionary.get? ((Tables.initial callerTypes).declareAll before).outputPorts name =
        (before.filterMap Declaration.outputPort?).find? (·.id = name) := fun before name => by
    rw [Tables.outputPorts_declareAll, Dictionary.get?_foldl_setNew]
    rfl
  refine List.flatMap_congr fun e _ => List.flatMap_congr fun port _ => ?_
  exact port.aggregationProblems_eq (hports _)

/-- What is declared more than once is reported once for each repetition, and the first declaration
stays in force. -/
theorem duplicates_reported :
    p.DuplicatesReported (p.problems callerTypes config) ∧
      match p.verify callerTypes config with
      | .accepted _ => p.DuplicatesReported []
      | .rejected problems => p.DuplicatesReported problems
      | .unending => p.comparesForever callerTypes = true := by
  have hports := p.ofKinds_ports callerTypes config
  have hprocedures := p.ofKinds_procedures callerTypes config
  have hreported : p.DuplicatesReported (p.problems callerTypes config) := {
    ports := hports
    portCount := by
      rw [count_eq_length_ofKinds, hports.length_eq, List.length_append, repeatedInputPorts,
        repeatedOutputPorts, List.length_map, List.length_map, length_repeats, length_repeats]
    procedures := hprocedures
    procedureCount := by
      rw [count_eq_length_ofKinds, hprocedures, repeatedProcedures, List.length_map,
        length_repeats]
    operations := p.ofKinds_operations callerTypes config
    operationCounts := fun port _ => by
      rw [InputPort.repeatedOperations, List.length_map, length_repeats]
    correlation := p.ofKinds_correlation callerTypes config
    wiring := p.ofKinds_problems_eq_wiringFlaws callerTypes config
    aggregations := p.ofKinds_aggregations callerTypes config
    mainShape := p.ofKinds_mainShape callerTypes config }
  exact ⟨hreported, verify_shows hreported⟩

end Program

end ServiceCheck
