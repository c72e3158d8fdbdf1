import Mathlib.Data.List.Basic
import ServiceCheck.Program.Construction
import ServiceCheck.Proofs.Program.DistinctKeys
import ServiceCheck.Proofs.Program.Written
import ServiceCheck.Proofs.Verification.Agreement

set_option autoImplicit false

namespace ServiceCheck

def Node.type? : Node → Option TypeDefinition
  | .type t => some t
  | _ => none

theorem TypeDefinition.written_type (t : TypeDefinition) :
    (Node.type t).written = t.nodes.map .type := by
  induction hx : Node.type t using Node.induction generalizing t with
  | step x ih =>
    subst hx
    have hparts : ∀ parts : List TypeDefinition, (Node.type t).parts = parts.map .type →
        t.nodes = t :: parts.flatMap TypeDefinition.nodes →
          (Node.type t).written = t.nodes.map .type := by
      intro parts hparts hnodes
      rw [Node.written_eq, hparts, hnodes, List.flatMap_map, List.map_cons, List.map_flatMap]
      refine congrArg (_ :: ·) (List.flatMap_congr fun part hpart => ih _ ?_ part rfl)
      exact hparts ▸ List.mem_map_of_mem hpart
    cases t with
    | inline h n s untyped =>
      cases s with
      | none => exact hparts [] rfl rfl
      | some members =>
        refine hparts (members.map (·.2)) ?_ ?_
        · simp [Node.parts, parts]
        · simp [nodes, blockNodes, membersNodes_eq, List.flatMap_map]
    | link => exact hparts [] rfl rfl
    | choice h l r => exact hparts [l, r] rfl (by simp [nodes])

open Diagnostics

namespace Operation

theorem hints_of_mem_problems {types : TypeMap} {o : Operation} {d : Diagnostic}
    (h : d ∈ o.problems types) : d.hints = ["used by operation `" ++ o.id ++ "`"] := by
  obtain ⟨t, -, rfl⟩ := List.mem_map.mp h
  rfl

end Operation

def Diagnostic.IsSignatureReference (d : Diagnostic) : Prop :=
  ∃ operation, d.hints = ["used by operation `" ++ operation ++ "`"]

theorem InputPort.isSignatureReference {types : TypeMap} {port : String} {seen : List String}
    {operations : List Operation} {d : Diagnostic}
    (h : d ∈ operationProblems types port seen operations)
    (hkind : d.kind = .unknownTypeReference) : d.IsSignatureReference := by
  induction operations generalizing seen with
  | nil => cases h
  | cons o rest ih =>
    rw [operationProblems] at h
    split at h
    · rcases List.mem_cons.mp h with rfl | h
      · cases hkind
      · exact ih h
    · rcases List.mem_append.mp h with h | h
      · exact ⟨o.id, Operation.hints_of_mem_problems h⟩
      · exact ih h

namespace Declaration

variable {overview : Overview} {t : Tables} {d : Declaration}

theorem isSignatureReference {problem : Diagnostic} (h : problem ∈ d.headProblems overview t)
    (hkind : problem.kind = .unknownTypeReference) : problem.IsSignatureReference := by
  have hother : ∀ {kinds ds}, Within kinds ds → problem ∈ ds →
      DiagnosticKind.unknownTypeReference ∉ kinds → problem.IsSignatureReference :=
    fun hwithin hmem hnot => absurd (hkind ▸ hwithin problem hmem) hnot
  cases d
  case inputPort p =>
    rcases List.mem_append.mp h with h | h
    · rcases List.mem_append.mp h with h | h
      · exact hother within_redefinitionProblems h (by decide)
      · exact InputPort.isSignatureReference h hkind
    · exact hother p.within_aggregationProblems h (by decide)
  case outputPort p =>
    rcases List.mem_append.mp h with h | h
    · exact hother within_redefinitionProblems h (by decide)
    · obtain ⟨o, -, h⟩ := List.mem_flatMap.mp h
      exact ⟨o.id, Operation.hints_of_mem_problems h⟩
  all_goals exact hother (within_headProblems overview _) h (by simp [headKinds])

theorem ofKinds_headProblems {kinds : List DiagnosticKind}
    (hkinds : kinds ⊆ [.invalidCardinality, .unknownTypeReference]) :
    ofKinds kinds (d.problems overview t) = ofKinds kinds (d.headProblems overview t) := by
  have hother : ∀ site, ∀ k ∈ Scene.siteKinds site,
      k ∉ [DiagnosticKind.invalidCardinality, .unknownTypeReference] := by
    intro site
    cases site with
    | path => simp [Scene.siteKinds]
    | statement courier s => cases s <;> simp [Scene.siteKinds, Scene.statementKinds]
  have hsites : ∀ site ∈ d.sites, ofKinds kinds ((d.scene overview t).problems site) = [] :=
    fun site _ => (Scene.within_problems site).ofKinds_eq_nil fun k hk hmem =>
      hother site k hk (hkinds hmem)
  rw [problems, ofKinds_append, ofKinds_flatMap, List.flatMap_eq_nil_iff.mpr hsites,
    List.append_nil]

theorem ofKinds_cardinality_problems :
    ofKinds [.invalidCardinality] (d.problems overview t) =
      d.type?.toList.flatMap TypeDefinition.problems := by
  rw [ofKinds_headProblems (by decide)]
  cases d
  case type t =>
    exact (t.within_problems.ofKinds_eq_self (by decide)).trans (List.flatMap_singleton ..).symm
  all_goals exact (within_headProblems overview _).ofKinds_eq_nil (by simp [headKinds])

end Declaration

namespace Program

/-- All that is written in the declared types, each node with the declared type around it. -/
def typeNodes (p : Program) : List (TypeDefinition × TypeDefinition) :=
  p.types.flatMap fun owner =>
    ((Node.type owner).written.filterMap Node.type?).map fun node => (owner, node)

theorem typeNodes_eq (p : Program) :
    p.typeNodes = p.types.flatMap fun owner => owner.nodes.map fun node => (owner, node) := by
  refine List.flatMap_congr fun owner _ => congrArg (List.map _) ?_
  rw [TypeDefinition.written_type, List.filterMap_map]
  exact List.filterMap_some

/-- What is said of a node that links to a name that neither the caller nor the program gives to
any type. -/
def danglingLink? (callerTypes : TypeMap) (p : Program) :
    TypeDefinition × TypeDefinition → Option Diagnostic
  | (owner, .link head target) =>
    if Dictionary.contains callerTypes target || p.types.any (·.id = target) then none
    else
      some ((Diagnostic.report .unknownTypeReference head.position target).hint
        ("referenced by type `" ++ owner.id ++ "`"))
  | _ => none

/-- What is reported of the nodes of declared types: each negative bound on the way through the
declarations, and each dangling link in one go behind them. Other names of types that are not known
are those in signatures. -/
structure TypeNodesReported (callerTypes : TypeMap) (p : Program) (ds : Diagnostics) : Prop where
  bounds : ofKinds [.invalidCardinality] ds =
    p.typeNodes.flatMap fun e =>
      e.2.boundProblems "minimum" e.2.cardinality.min ++
        e.2.boundProblems "maximum" e.2.cardinality.max
  counted : count .invalidCardinality ds =
    p.typeNodes.countP (·.2.cardinality.min < 0) + p.typeNodes.countP (·.2.cardinality.max < 0)
  links : ∃ before after : Diagnostics,
    ds = before ++ p.typeNodes.filterMap (p.danglingLink? callerTypes) ++ after ∧
      (∀ d ∈ before, d.kind = .unknownTypeReference → d.IsSignatureReference) ∧
      ∀ d ∈ after, d.kind ≠ .unknownTypeReference

variable (callerTypes : TypeMap) (config : Config) (p : Program)

theorem ofKinds_cardinality_problems :
    ofKinds [.invalidCardinality] (p.problems callerTypes config) =
      p.typeNodes.flatMap fun e => e.2.cardinalityProblems := by
  have htypes : p.types = p.declarations.filterMap Declaration.type? := rfl
  rw [ofKinds_problems _ _ _ (by decide), declarationProblems, ofKinds_flatMap, typeNodes_eq,
    List.flatMap_assoc]
  simp only [Declaration.ofKinds_cardinality_problems, List.flatMap_map]
  rw [htypes, List.filterMap_eq_flatMap_toList, List.flatMap_assoc]
  conv_rhs => rw [← Tables.map_snd_inForce (.initial callerTypes) p.declarations]
  rw [List.flatMap_map]
  rfl

theorem length_flatMap_cardinalityProblems (nodes : List (TypeDefinition × TypeDefinition)) :
    (nodes.flatMap fun e => e.2.cardinalityProblems).length =
      nodes.countP (·.2.cardinality.min < 0) + nodes.countP (·.2.cardinality.max < 0) := by
  have hbound : ∀ (t : TypeDefinition) which (bound : Int32),
      (t.boundProblems which bound).length = if bound < 0 then 1 else 0 := by
    intro t which bound
    rw [TypeDefinition.boundProblems]
    split <;> rfl
  induction nodes with
  | nil => rfl
  | cons e rest ih =>
    rw [List.flatMap_cons, List.length_append, ih, TypeDefinition.cardinalityProblems,
      List.length_append, hbound, hbound, List.countP_cons, List.countP_cons]
    simp only [decide_eq_true_eq]
    omega

theorem linkProblems_eq :
    p.linkProblems callerTypes = p.typeNodes.filterMap (p.danglingLink? callerTypes) := by
  have hresolved : ∀ name, (!Dictionary.contains (p.allTypes callerTypes) name) =
      !(Dictionary.contains callerTypes name || p.types.any (·.id = name)) := by
    intro name
    rw [Bool.not_inj_iff, Bool.eq_iff_iff, contains_allTypes_iff]
    simp
  rw [linkProblems, links, typeNodes_eq]
  simp only [hresolved, List.filter_flatMap, List.map_flatMap, List.filterMap_flatMap,
    List.filterMap_map]
  refine List.flatMap_congr fun owner _ => ?_
  rw [TypeDefinition.links, List.filter_filterMap, List.map_filterMap]
  refine List.filterMap_congr fun node _ => ?_
  cases node with
  | link head target =>
    simp only [danglingLink?, Function.comp, Option.filter_some]
    cases Dictionary.contains callerTypes target || p.types.any (·.id = target) <;> rfl
  | inline | choice => rfl

theorem isSignatureReference {d : Diagnostic} (h : d ∈ p.declarationProblems callerTypes)
    (hkind : d.kind = .unknownTypeReference) : d.IsSignatureReference := by
  obtain ⟨⟨t, declaration⟩, -, h⟩ := List.mem_flatMap.mp h
  have hmem : d ∈ ofKinds [.unknownTypeReference] (declaration.problems p.overview t) :=
    List.mem_filter.mpr ⟨h, by simpa using hkind⟩
  rw [Declaration.ofKinds_headProblems (by decide)] at hmem
  exact Declaration.isSignatureReference (List.mem_of_mem_filter hmem) hkind

theorem exists_problems_around_links :
    ∃ after, p.problems callerTypes config =
        p.declarationProblems callerTypes ++ p.linkProblems callerTypes ++ after ∧
      ∀ d ∈ after, d.kind ≠ .unknownTypeReference := by
  have hafter : Within [.typeEquivalenceMismatch, .operationSignatureMismatch,
      .correlationAliasError, .correlationSetConflict, .correlationAliasIncomplete,
      .mainProcedureMissing] (p.typeProblems callerTypes ++ p.signatureProblems callerTypes ++
        (p.correlation callerTypes).2 ++ p.mainProblems config) := by
    simp only [within_append]
    exact ⟨⟨⟨(p.within_typeProblems callerTypes).mono (by decide),
      (p.within_signatureProblems callerTypes).mono (by decide)⟩,
      (p.within_correlation callerTypes).mono (by decide)⟩,
      (p.within_mainProblems config).mono (by decide)⟩
  refine ⟨_, ?_, fun d hd hkind => absurd (hkind ▸ hafter d hd) (by decide)⟩
  simp only [problems, List.append_assoc]

/-- Each negative bound of a node of a declared type is reported once, and once each link whose
target is declared nowhere, in document order and after all declarations. -/
theorem type_nodes_reported :
    p.TypeNodesReported callerTypes (p.problems callerTypes config) ∧
      match p.verify callerTypes config with
      | .accepted _ => p.TypeNodesReported callerTypes []
      | .rejected problems => p.TypeNodesReported callerTypes problems
      | .unending => p.comparesForever callerTypes = true := by
  have hbounds := p.ofKinds_cardinality_problems callerTypes config
  obtain ⟨after, hafter, hkinds⟩ := p.exists_problems_around_links callerTypes config
  have hreported : p.TypeNodesReported callerTypes (p.problems callerTypes config) := by
    refine ⟨hbounds, ?_, p.declarationProblems callerTypes, after, ?_,
      fun _ => p.isSignatureReference callerTypes, hkinds⟩
    · rw [count_eq_length_ofKinds, hbounds, length_flatMap_cardinalityProblems]
    · rw [hafter, linkProblems_eq]
  exact ⟨hreported, verify_shows hreported⟩

def mutualLinks : Program :=
  .ofDeclarations
    [.type ((TypeDefinition.native "Even" .void).addSubType (.named "Odd")),
      .type ((TypeDefinition.native "Odd" .void).addSubType (.named "Even")),
      .type (.choice (.plain "Odd") ((TypeDefinition.named "Even").withCardinality ⟨-1, 1⟩)
        (.named "None"))]

example :
    mutualLinks.typeNodes.filterMap (mutualLinks.danglingLink? []) =
      [(Diagnostic.report .unknownTypeReference .unknown "None").hint
        "referenced by type `Odd`"] := by
  rw [typeNodes_eq]
  decide +kernel

end Program

end ServiceCheck
