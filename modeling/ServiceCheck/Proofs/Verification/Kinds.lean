import ServiceCheck.Proofs.Verification.Acceptance

/-!
The kinds of problem that each check reports. All of them are errors, so that an accepted program
is one without any problem. The problems of given kinds are those of the checks that report them.
-/

set_option autoImplicit false

namespace ServiceCheck

namespace Diagnostics

def Within (kinds : List DiagnosticKind) (ds : Diagnostics) : Prop := ∀ d ∈ ds, d.kind ∈ kinds

def ofKinds (kinds : List DiagnosticKind) (ds : Diagnostics) : Diagnostics :=
  List.filter (·.kind ∈ kinds) ds

variable {kinds kinds' : List DiagnosticKind} {d : Diagnostic} {ds ds' : Diagnostics} {α : Type}

@[simp] theorem within_nil : Within kinds [] := nofun

@[simp] theorem within_cons : Within kinds (d :: ds) ↔ d.kind ∈ kinds ∧ Within kinds ds :=
  List.forall_mem_cons

@[simp] theorem within_append : Within kinds (ds ++ ds') ↔ Within kinds ds ∧ Within kinds ds' :=
  List.forall_mem_append

@[simp] theorem within_map {items : List α} {problem : α → Diagnostic} :
    Within kinds (items.map problem) ↔ ∀ x ∈ items, (problem x).kind ∈ kinds :=
  List.forall_mem_map

@[simp] theorem within_flatMap {items : List α} {problems : α → Diagnostics} :
    Within kinds (items.flatMap problems) ↔ ∀ x ∈ items, Within kinds (problems x) := by
  simp only [Within, List.mem_flatMap]
  grind

@[simp] theorem within_ite {c : Prop} [Decidable c] :
    Within kinds (if c then ds else ds') ↔ (c → Within kinds ds) ∧ (¬c → Within kinds ds') := by
  split <;> simp_all

theorem within_filterMap {items : List α} {problem? : α → Option Diagnostic} :
    Within kinds (items.filterMap problem?) ↔ ∀ x ∈ items, ∀ d ∈ problem? x, d.kind ∈ kinds := by
  simp only [Within, List.mem_filterMap, Option.mem_def]
  grind

theorem Within.mono (h : Within kinds ds) (hkinds : kinds ⊆ kinds') : Within kinds' ds :=
  fun d hd => hkinds (h d hd)

@[simp] theorem ofKinds_nil : ofKinds kinds [] = [] := rfl

@[simp] theorem ofKinds_append : ofKinds kinds (ds ++ ds') = ofKinds kinds ds ++ ofKinds kinds ds' :=
  List.filter_append ..

theorem ofKinds_flatMap (items : List α) (problems : α → Diagnostics) :
    ofKinds kinds (items.flatMap problems) = items.flatMap fun x => ofKinds kinds (problems x) :=
  List.filter_flatMap

theorem Within.ofKinds_eq_self (h : Within kinds' ds) (hkinds : kinds' ⊆ kinds) :
    ofKinds kinds ds = ds :=
  List.filter_eq_self.mpr fun d hd => decide_eq_true (hkinds (h d hd))

theorem Within.ofKinds_eq_nil (h : Within kinds' ds) (hkinds : ∀ k ∈ kinds', k ∉ kinds) :
    ofKinds kinds ds = [] :=
  List.filter_eq_nil_iff.mpr fun d hd hmem => hkinds _ (h d hd) (of_decide_eq_true hmem)

theorem count_eq_length_ofKinds (kind : DiagnosticKind) (ds : Diagnostics) :
    count kind ds = (ofKinds [kind] ds).length := by
  rw [count, List.countP_eq_length_filter]
  simp [ofKinds]

end Diagnostics

open Diagnostics

section Declared

variable {types : TypeMap} {tables : Tables}

theorem TypeDefinition.within_problems (t : TypeDefinition) :
    Within [.invalidCardinality] t.problems := by
  simp [problems, cardinalityProblems, boundProblems]

theorem Operation.within_problems (o : Operation) :
    Within [.unknownTypeReference] (o.problems types) := by
  simp [problems]

theorem within_redefinitionProblems {kind : DiagnosticKind} {position : Position} {text : String}
    {first : Option Position} :
    Within [kind] (redefinitionProblems kind position text first) := by
  cases first <;> simp [redefinitionProblems]

theorem InputPort.within_operationProblems {port : String} {seen : List String}
    {operations : List Operation} :
    Within [.duplicateOperationInPort, .unknownTypeReference]
      (operationProblems types port seen operations) := by
  induction operations generalizing seen with
  | nil => simp [operationProblems]
  | cons o rest ih =>
    have ho : Within [.duplicateOperationInPort, .unknownTypeReference] (o.problems types) :=
      o.within_problems.mono (by decide)
    simp [operationProblems, ih, ho]

theorem InputPort.within_aggregationProblems {ports : Dictionary OutputPort} (p : InputPort) :
    Within [.undefinedAggregatedPort] (p.aggregationProblems ports) := by
  simp [aggregationProblems]

theorem InputPort.within_problems (p : InputPort) :
    Within [.duplicatePortDefinition, .duplicateOperationInPort, .unknownTypeReference,
      .undefinedAggregatedPort] (p.problems tables) := by
  simp only [problems, within_append]
  exact ⟨⟨within_redefinitionProblems.mono (by decide),
    within_operationProblems.mono (by decide)⟩, p.within_aggregationProblems.mono (by decide)⟩

theorem Port.within_outputProblems (p : OutputPort) :
    Within [.duplicatePortDefinition, .unknownTypeReference] (p.outputProblems tables) := by
  simp only [outputProblems, within_append, within_flatMap]
  exact ⟨within_redefinitionProblems.mono (by decide),
    fun o _ => o.within_problems.mono (by decide)⟩

theorem Procedure.within_problems (mode : ExecutionMode) (p : Procedure) :
    Within [.duplicateProcedureDefinition, .mainProcedureShapeInvalid]
      (p.problems tables mode) := by
  unfold problems shapeProblems
  split
  · exact within_redefinitionProblems.mono (by decide)
  · simp

theorem CorrelationSet.within_pathProblems (set : CorrelationSet) (subject : String)
    (path : VariablePath) : Within [.invalidPathUsage] (set.pathProblems subject path) := by
  simp [pathProblems]

theorem CorrelationSet.within_declarationProblems (set : CorrelationSet) :
    Within [.invalidPathUsage, .duplicateCorrelationVariable] set.declarationProblems := by
  have hpath : ∀ subject path,
      Within [.invalidPathUsage, .duplicateCorrelationVariable] (set.pathProblems subject path) :=
    fun subject path => (set.within_pathProblems subject path).mono (by decide)
  have hfrom : ∀ members earlier, Within [.invalidPathUsage, .duplicateCorrelationVariable]
      (set.declarationProblemsFrom earlier members) := by
    intro members
    induction members with
    | nil => simp [declarationProblemsFrom]
    | cons v rest ih => simp [declarationProblemsFrom, variableProblems, hpath, ih]
  exact hfrom set.members []

def Declaration.headKinds : Declaration → List DiagnosticKind
  | .type _ => [.invalidCardinality]
  | .inputPort _ =>
    [.duplicatePortDefinition, .duplicateOperationInPort, .unknownTypeReference,
      .undefinedAggregatedPort]
  | .outputPort _ => [.duplicatePortDefinition, .unknownTypeReference]
  | .correlationSet _ => [.invalidPathUsage, .duplicateCorrelationVariable]
  | .procedure _ => [.duplicateProcedureDefinition, .mainProcedureShapeInvalid]
  | .courier _ => [.undefinedInputPort]
  | _ => []

theorem Declaration.within_headProblems (overview : Overview) (d : Declaration) :
    Within d.headKinds (d.headProblems overview tables) := by
  cases d with
  | type t => exact t.within_problems
  | inputPort p => exact p.within_problems
  | outputPort p => exact p.within_outputProblems
  | correlationSet s => exact s.within_declarationProblems
  | procedure p => exact p.within_problems _
  | courier => simp [headProblems, headKinds]
  | _ => exact within_nil

end Declared

namespace Scene

variable {scene : Scene} {courier : Option OperationKind} {position : Position}

theorem within_guardProblems {seen : List String} {guards : List Statement} :
    Within [.invalidInputChoice] (guardProblems position seen guards) := by
  induction guards generalizing seen with
  | nil => simp [guardProblems]
  | cons guard rest ih =>
    rw [guardProblems]
    split <;> simp [ih]

theorem within_inputProblems {input : Option VariablePath} :
    Within [.courierContextError, .invalidPathUsage] (inputProblems courier position input) := by
  cases input <;> simp [inputProblems]

theorem within_correlationUse {path : VariablePath} {text : String} :
    Within [.invalidPathUsage] (correlationUse position path text) := by
  simp [correlationUse]

theorem within_outputProblems {operation port : String} {used : OperationKind} :
    Within [.undefinedOutputPort, .undeclaredOperation, .operationKindMismatch]
      (scene.outputProblems position operation port used) := by
  unfold outputProblems
  split
  · simp
  · split <;> simp

theorem within_forwardProblems {used : OperationKind} {port : Option String} :
    Within [.courierContextError, .undefinedOutputPort]
      (scene.forwardProblems courier position used port) := by
  cases courier <;> cases port <;> simp [forwardProblems]

theorem within_pathProblems (p : VariablePath) :
    Within [.invalidPathUsage] (scene.pathProblems p) := by
  simp [pathProblems]

def statementKinds : Statement → List DiagnosticKind
  | .call .. => [.undefinedProcedureCall]
  | .oneWay .. | .requestResponse .. => [.courierContextError, .invalidPathUsage]
  | .notification .. | .solicitResponse .. =>
    [.undefinedOutputPort, .undeclaredOperation, .operationKindMismatch]
  | .inputChoice .. | .provideUntil .. => [.invalidInputChoice]
  | .pointer .. | .deepCopy .. | .undef .. => [.invalidPathUsage]
  | .notificationForward .. | .solicitResponseForward .. =>
    [.courierContextError, .undefinedOutputPort]
  | _ => []

theorem within_statementProblems (s : Statement) :
    Within (statementKinds s) (scene.statementProblems courier s) := by
  cases s with
  | call => simp [statementProblems, statementKinds]
  | oneWay | requestResponse => exact within_inputProblems
  | notification | solicitResponse => exact within_outputProblems
  | inputChoice => exact within_guardProblems
  | provideUntil =>
    unfold statementProblems
    split <;> first | exact within_guardProblems | simp_all [statementKinds]
  | pointer | deepCopy | undef => exact within_correlationUse
  | notificationForward | solicitResponseForward => exact within_forwardProblems
  | _ => exact within_nil

def siteKinds : Site → List DiagnosticKind
  | .statement _ s => statementKinds s
  | .path _ => [.invalidPathUsage]

theorem within_problems (site : Site) : Within (siteKinds site) (scene.problems site) := by
  cases site with
  | statement courier s => exact within_statementProblems s
  | path p => exact within_pathProblems p

end Scene

namespace CorrelationSet

theorem within_aliasProblems {types : TypeMap} (a : CorrelationAlias) :
    Within [.correlationAliasError] (aliasProblems types a) := by
  unfold aliasProblems
  split
  · simp
  · split <;> simp

theorem within_claimProblems (set : CorrelationSet) (bound : Dictionary Binding)
    (operation : String) (pairs : List CorrelationPair) :
    Within [.correlationAliasError, .correlationSetConflict, .correlationAliasIncomplete]
      (set.claimProblems bound operation pairs) := by
  simp [claimProblems, coverageProblems]

theorem within_bindAll {types : TypeMap} {index : RequestIndex} {id : Nat}
    {bound : Dictionary Binding} {sets : List CorrelationSet} :
    Within [.correlationAliasError, .correlationSetConflict, .correlationAliasIncomplete]
      (bindAll types index id bound sets).2 := by
  induction sets generalizing id bound with
  | nil => simp [bindAll]
  | cons set rest ih =>
    have halias : ∀ a, Within [.correlationAliasError, .correlationSetConflict,
        .correlationAliasIncomplete] (aliasProblems types a) :=
      fun a => (within_aliasProblems a).mono (by decide)
    simp [bindAll, problems, halias, within_claimProblems, ih]

end CorrelationSet

namespace Program

variable (callerTypes : TypeMap) (config : Config) (p : Program)

theorem within_linkProblems : Within [.unknownTypeReference] (p.linkProblems callerTypes) := by
  simp [linkProblems]

theorem within_typeProblems : Within [.typeEquivalenceMismatch] (p.typeProblems callerTypes) := by
  refine within_filterMap.mpr fun ⟨later, first, comparing⟩ _ d hd => ?_
  obtain ⟨-, hreport⟩ := Option.ite_none_right_eq_some.mp hd
  cases hreport
  simp

theorem within_signatureProblems :
    Within [.operationSignatureMismatch] (p.signatureProblems callerTypes) := by
  refine within_filterMap.mpr fun ⟨later, first, parts⟩ _ d hd => ?_
  obtain ⟨-, hreport⟩ := Option.ite_none_left_eq_some.mp hd
  cases hreport
  simp

theorem within_correlation :
    Within [.correlationAliasError, .correlationSetConflict, .correlationAliasIncomplete]
      (p.correlation callerTypes).2 :=
  CorrelationSet.within_bindAll

theorem within_mainProblems : Within [.mainProcedureMissing] (p.mainProblems config) := by
  simp [mainProblems]

def wholeKinds : List DiagnosticKind :=
  [.unknownTypeReference, .typeEquivalenceMismatch, .operationSignatureMismatch,
    .correlationAliasError, .correlationSetConflict, .correlationAliasIncomplete,
    .mainProcedureMissing]

def declarationKinds : List DiagnosticKind :=
  [.invalidCardinality, .duplicatePortDefinition, .duplicateOperationInPort,
    .unknownTypeReference, .undefinedAggregatedPort, .undefinedInputPort, .invalidPathUsage,
    .duplicateCorrelationVariable, .duplicateProcedureDefinition, .mainProcedureShapeInvalid,
    .undefinedProcedureCall, .courierContextError, .undefinedOutputPort, .undeclaredOperation,
    .operationKindMismatch, .invalidInputChoice]

theorem within_declarationProblems :
    Within declarationKinds (p.declarationProblems callerTypes) := by
  refine within_flatMap.mpr fun ⟨t, d⟩ _ => within_append.mpr ⟨?_, ?_⟩
  · refine (d.within_headProblems p.overview).mono ?_
    cases d <;> simp [Declaration.headKinds, declarationKinds]
  · refine within_flatMap.mpr fun site _ => (Scene.within_problems site).mono ?_
    cases site with
    | path => simp [Scene.siteKinds, declarationKinds]
    | statement courier s =>
      cases s <;> simp [Scene.siteKinds, Scene.statementKinds, declarationKinds]

section OfKinds

variable {kinds : List DiagnosticKind}

theorem ofKinds_problems (hkinds : ∀ k ∈ wholeKinds, k ∉ kinds) :
    ofKinds kinds (p.problems callerTypes config) =
      ofKinds kinds (p.declarationProblems callerTypes) := by
  have hnone : ∀ {kinds' ds}, Within kinds' ds → kinds' ⊆ wholeKinds → ofKinds kinds ds = [] :=
    fun h hsub => h.ofKinds_eq_nil fun k hk => hkinds k (hsub hk)
  have hlinks := hnone (p.within_linkProblems callerTypes) (by decide)
  have htypes := hnone (p.within_typeProblems callerTypes) (by decide)
  have hsignatures := hnone (p.within_signatureProblems callerTypes) (by decide)
  have hcorrelation := hnone (p.within_correlation callerTypes) (by decide)
  have hmain := hnone (p.within_mainProblems config) (by decide)
  simp only [problems, ofKinds_append, hlinks, htypes, hsignatures, hcorrelation, hmain,
    List.append_nil]

theorem ofKinds_siteProblems (overview : Overview) (t : Tables) (d : Declaration)
    (hkinds : ∀ k ∈ d.headKinds, k ∉ kinds) :
    ofKinds kinds (d.problems overview t) =
      d.sites.flatMap fun site => ofKinds kinds ((d.scene overview t).problems site) := by
  rw [Declaration.problems, ofKinds_append,
    (d.within_headProblems overview).ofKinds_eq_nil hkinds, List.nil_append, ofKinds_flatMap]

end OfKinds

variable {callerTypes config p}

theorem isError_of_within {kinds : List DiagnosticKind} {ds : Diagnostics} (h : Within kinds ds)
    (hkinds : ∀ k ∈ kinds, k.severity = .error) : ∀ d ∈ ds, d.isError = true :=
  fun d hd => decide_eq_true (hkinds _ (h d hd))

theorem isError_of_mem_problems {d : Diagnostic} (h : d ∈ p.problems callerTypes config) :
    d.isError = true := by
  simp only [problems, List.mem_append] at h
  rcases h with ((((h | h) | h) | h) | h) | h
  · exact isError_of_within (p.within_declarationProblems callerTypes) (by decide) d h
  · exact isError_of_within (p.within_linkProblems callerTypes) (by decide) d h
  · exact isError_of_within (p.within_typeProblems callerTypes) (by decide) d h
  · exact isError_of_within (p.within_signatureProblems callerTypes) (by decide) d h
  · exact isError_of_within (p.within_correlation callerTypes) (by decide) d h
  · exact isError_of_within (p.within_mainProblems config) (by decide) d h

theorem accepted_iff_no_problems {v : Validated} :
    p.verify callerTypes config = .accepted v ↔
      p.comparesForever callerTypes = false ∧ p.problems callerTypes config = [] ∧
        v = ⟨(p.correlation callerTypes).1, p.executionMode, p.constants⟩ := by
  have herrors : Diagnostics.hasErrors (p.problems callerTypes config) = false ↔
      p.problems callerTypes config = [] := by
    rw [hasErrors_eq_false_iff, List.eq_nil_iff_forall_not_mem]
    refine forall_congr' fun d => ⟨fun h hd => ?_, fun h hd => absurd hd h⟩
    rw [isError_of_mem_problems hd] at h
    cases h hd
  rw [verify_eq_accepted_iff, herrors]

theorem problems_eq_nil_iff :
    p.problems callerTypes config = [] ↔
      p.declarationProblems callerTypes = [] ∧ p.linkProblems callerTypes = [] ∧
        p.typeProblems callerTypes = [] ∧ p.signatureProblems callerTypes = [] ∧
        (p.correlation callerTypes).2 = [] ∧ p.mainProblems config = [] := by
  simp only [problems, List.append_eq_nil_iff, and_assoc]

theorem problems_eq_nil_of_accepted {v : Validated}
    (h : p.verify callerTypes config = .accepted v) : p.problems callerTypes config = [] :=
  (accepted_iff_no_problems.mp h).2.1

theorem exists_problems_eq_nil {v : Validated} (h : p.verify callerTypes config = .accepted v)
    {d : Declaration} (hd : d ∈ p.declarations) : ∃ t, d.problems p.overview t = [] := by
  obtain ⟨hdeclarations, -⟩ := problems_eq_nil_iff.mp (problems_eq_nil_of_accepted h)
  obtain ⟨t, ht⟩ := Tables.exists_inForce hd (.initial callerTypes)
  exact ⟨t, List.flatMap_eq_nil_iff.mp hdeclarations _ ht⟩

theorem problems_of_rejected {ds : Diagnostics} (h : p.verify callerTypes config = .rejected ds) :
    ds = p.problems callerTypes config := by
  unfold verify at h
  split at h
  · cases h
  · dsimp only at h
    split at h
    · exact (Verdict.rejected.inj h).symm
    · cases h

theorem verify_shows {holds : Diagnostics → Prop} (h : holds (p.problems callerTypes config)) :
    match p.verify callerTypes config with
    | .accepted _ => holds []
    | .rejected problems => holds problems
    | .unending => p.comparesForever callerTypes = true := by
  cases hverdict : p.verify callerTypes config with
  | accepted v => exact problems_eq_nil_of_accepted hverdict ▸ h
  | rejected problems => exact problems_of_rejected hverdict ▸ h
  | unending => exact (verify_eq_unending_iff ..).mp hverdict

end Program

end ServiceCheck
