import ServiceCheck.Proofs.Correlation.Soundness
import ServiceCheck.Proofs.Verification.InForce
import ServiceCheck.Proofs.Verification.Kinds
import ServiceCheck.Proofs.Verification.Sites

set_option autoImplicit false

namespace ServiceCheck

namespace VariablePath

def Rooted (p : VariablePath) : Prop :=
  ∀ first ∈ p.steps.head?, ∃ name, first.key = .string name

def Static (p : VariablePath) : Prop :=
  ∀ step ∈ p.steps, (∃ name, step.key = .string name) ∧ ∀ index ∈ step.index, ∃ n, index = .int n

theorem constantString?_isSome_iff (x : Expression) :
    x.constantString?.isSome ↔ ∃ name, x = .string name := by
  unfold Expression.constantString? Expression.string
  split <;> simp_all

theorem isConstantInt_iff (x : Expression) : x.isConstantInt ↔ ∃ n, x = .int n := by
  unfold Expression.isConstantInt Expression.int
  split <;> simp_all

theorem isStatic_iff (p : VariablePath) : p.isStatic ↔ p.Static := by
  simp [isStatic, Static, PathStep.isStatic, constantString?_isSome_iff, ← isConstantInt_iff,
    Option.all_eq_true]

theorem rooted_iff (p : VariablePath) :
    p.Rooted ↔ ¬((!p.steps.isEmpty && p.rootName?.isNone) = true) := by
  obtain ⟨position, kind, steps⟩ := p
  cases steps with
  | nil => simp [Rooted]
  | cons first rest =>
    simp [Rooted, rootName?, ← constantString?_isSome_iff, Option.ne_none_iff_isSome]

end VariablePath

/-- The path that must not be one of a correlation variable: it is received into, pointed at,
copied over or undefined. -/
def Statement.sparedPath? : Statement → Option VariablePath
  | .oneWay _ _ input => input
  | .requestResponse _ _ input _ _ => input
  | .pointer _ _ right => some right
  | .deepCopy _ left _ => some left
  | .undef _ path => some path
  | _ => none

/-- The node is met in the body of the declaration, if it has one. The operands of a
solicit-response are not met. -/
def Declaration.Judges (d : Declaration) (x : Node) : Prop :=
  ∃ body ∈ d.body?, (Node.statement body).Meets Node.isSolicitResponse x

structure Program.PathsWellUsed (p : Program) : Prop where
  rooted : ∀ d ∈ p.declarations, ∀ path, d.Judges (.path path) → path.Rooted
  static : ∀ d ∈ p.declarations, ∀ path, d.Judges (.path path) → path.kind = .correlation →
    path.Static
  initial : ∀ procedure ∈ p.procedures, procedure.id = "init" → ∀ path,
    (Declaration.procedure procedure).Judges (.path path) → path.kind ≠ .correlation
  spared : ∀ d ∈ p.declarations, ∀ s, d.Judges (.statement s) → ∀ path ∈ s.sparedPath?,
    path.kind ≠ .correlation
  members : ∀ set ∈ p.correlationSets, ∀ v ∈ set.members,
    v.path.kind = .normal ∧ v.path.Static
  aliases : ∀ set ∈ p.correlationSets, ∀ v ∈ set.members, ∀ a ∈ v.aliases,
    a.path.kind = .normal ∧ a.path.Static

namespace Diagnostics

def Lacks (kind : DiagnosticKind) (ds : Diagnostics) : Prop := ∀ d ∈ ds, d.kind ≠ kind

variable {kind : DiagnosticKind} {d : Diagnostic} {ds ds' : Diagnostics} {α : Type}

@[simp] theorem lacks_nil : Lacks kind [] := nofun

@[simp] theorem lacks_cons : Lacks kind (d :: ds) ↔ d.kind ≠ kind ∧ Lacks kind ds :=
  List.forall_mem_cons

@[simp] theorem lacks_append : Lacks kind (ds ++ ds') ↔ Lacks kind ds ∧ Lacks kind ds' :=
  List.forall_mem_append

@[simp] theorem lacks_map {items : List α} {problem : α → Diagnostic} :
    Lacks kind (items.map problem) ↔ ∀ x ∈ items, (problem x).kind ≠ kind :=
  List.forall_mem_map

@[simp] theorem lacks_flatMap {items : List α} {problems : α → Diagnostics} :
    Lacks kind (items.flatMap problems) ↔ ∀ x ∈ items, Lacks kind (problems x) := by
  simp only [Lacks, List.mem_flatMap]
  grind

@[simp] theorem lacks_ite {c : Prop} [Decidable c] :
    Lacks kind (if c then ds else ds') ↔ (c → Lacks kind ds) ∧ (¬c → Lacks kind ds') := by
  split <;> simp_all

theorem Within.lacks {kinds : List DiagnosticKind} (h : Within kinds ds) (hkind : kind ∉ kinds) :
    Lacks kind ds :=
  fun d hd heq => hkind (heq ▸ h d hd)

theorem lacks_iff_ofKinds : Lacks kind ds ↔ ofKinds [kind] ds = [] := by
  simp [Lacks, ofKinds]

end Diagnostics

open Diagnostics

namespace CorrelationSet

theorem lacks_pathProblems_iff (set : CorrelationSet) (subject : String) (path : VariablePath) :
    Lacks .invalidPathUsage (set.pathProblems subject path) ↔
      path.kind = .normal ∧ path.Static := by
  rw [← path.isStatic_iff, ← plainPathProblem?_eq_none_iff, pathProblems, lacks_map]
  cases plainPathProblem? path <;> simp

theorem lacks_declarationProblems_iff (set : CorrelationSet) :
    Lacks .invalidPathUsage set.declarationProblems ↔
      ∀ v ∈ set.members, (v.path.kind = .normal ∧ v.path.Static) ∧
        ∀ a ∈ v.aliases, a.path.kind = .normal ∧ a.path.Static := by
  have hvariable : ∀ earlier v, Lacks .invalidPathUsage (set.variableProblems earlier v) ↔
      (v.path.kind = .normal ∧ v.path.Static) ∧
        ∀ a ∈ v.aliases, a.path.kind = .normal ∧ a.path.Static := by
    simp [variableProblems, lacks_pathProblems_iff]
  have hfrom : ∀ members earlier,
      Lacks .invalidPathUsage (set.declarationProblemsFrom earlier members) ↔
        ∀ v ∈ members, (v.path.kind = .normal ∧ v.path.Static) ∧
          ∀ a ∈ v.aliases, a.path.kind = .normal ∧ a.path.Static := by
    intro members
    induction members with
    | nil => simp [declarationProblemsFrom]
    | cons v rest ih => simp [declarationProblemsFrom, hvariable, ih]
  exact hfrom set.members []

end CorrelationSet

namespace Scene

variable (scene : Scene) (courier : Option OperationKind)

theorem lacks_inputProblems_iff (position : Position) (input : Option VariablePath) :
    Lacks .invalidPathUsage (inputProblems courier position input) ↔
      ∀ path ∈ input, path.kind ≠ .correlation := by
  cases input <;> simp [inputProblems, VariablePath.isCorrelation]

theorem lacks_correlationUse_iff (position : Position) (path : VariablePath) (text : String) :
    Lacks .invalidPathUsage (correlationUse position path text) ↔ path.kind ≠ .correlation := by
  simp [correlationUse, VariablePath.isCorrelation]

theorem lacks_statementProblems_iff (s : Statement) :
    Lacks .invalidPathUsage (scene.statementProblems courier s) ↔
      ∀ path ∈ s.sparedPath?, path.kind ≠ .correlation := by
  have hothers : .invalidPathUsage ∉ statementKinds s → s.sparedPath? = none →
      (Lacks .invalidPathUsage (scene.statementProblems courier s) ↔
        ∀ path ∈ s.sparedPath?, path.kind ≠ .correlation) := fun hkind hnone =>
    iff_of_true ((within_statementProblems s).lacks hkind) (by simp [hnone])
  cases s
  case oneWay | requestResponse => exact lacks_inputProblems_iff ..
  case pointer | deepCopy | undef =>
    simp [statementProblems, Statement.sparedPath?, lacks_correlationUse_iff]
  all_goals exact hothers (by simp [statementKinds]) rfl

theorem lacks_pathProblems_iff (p : VariablePath) :
    Lacks .invalidPathUsage (scene.pathProblems p) ↔
      p.Rooted ∧ (p.kind = .correlation → p.Static ∧ scene.insideInitial = false) := by
  rw [← p.isStatic_iff, p.rooted_iff, pathProblems, VariablePath.isCorrelation]
  simp only [lacks_append, lacks_ite, lacks_cons, lacks_nil, Diagnostic.kind_report]
  grind

end Scene

/-- What the checks of a body leave of a node in it. -/
def Node.WellUsed (initial : Bool) : Node → Prop
  | .path p => p.Rooted ∧ (p.kind = .correlation → p.Static ∧ initial = false)
  | .statement s => ∀ path ∈ s.sparedPath?, path.kind ≠ .correlation
  | _ => True

theorem Node.wellUsed_of_not_isJudged {initial : Bool} {x : Node} (h : ¬x.isJudged) :
    x.WellUsed initial := by
  unfold isJudged at h
  split at h
  · simp [WellUsed, Statement.sparedPath?]
  · cases h rfl
  · cases h rfl
  · cases x <;> simp_all [WellUsed]

namespace Declaration

variable (overview : Overview) (t : Tables) (d : Declaration)

theorem forall_sites_iff {P : Node → Prop} (hP : ∀ x : Node, ¬x.isJudged → P x) :
    (∀ site ∈ d.sites, P site.node) ↔ ∀ x, d.Judges x → P x := by
  unfold Judges sites
  cases d.body? with
  | none => simp
  | some body =>
    have hsite : ∀ x : Node, x.isJudged →
        ((∃ site ∈ body.sites none, site.node = x) ↔
          (Node.statement body).Meets Node.isSolicitResponse x) :=
      fun x hx => Node.isSite_iff_meets hx (.statement body) rfl none
    simp only [Option.map_some, Option.getD_some, Option.mem_some_iff, exists_eq_left']
    constructor
    · intro h x hmeets
      by_cases hx : x.isJudged
      · obtain ⟨site, hmem, rfl⟩ := (hsite x hx).mpr hmeets
        exact h site hmem
      · exact hP x hx
    · intro h site hmem
      by_cases hx : site.node.isJudged
      · exact h _ ((hsite _ hx).mp ⟨site, hmem, rfl⟩)
      · exact hP _ hx

theorem lacks_siteProblems_iff :
    Lacks .invalidPathUsage (d.sites.flatMap (d.scene overview t).problems) ↔
      ∀ x, d.Judges x → x.WellUsed d.isInitial := by
  rw [← d.forall_sites_iff fun _ => Node.wellUsed_of_not_isJudged, lacks_flatMap]
  refine forall_congr' fun site => imp_congr_right fun _ => ?_
  cases site with
  | statement courier s => exact Scene.lacks_statementProblems_iff _ courier s
  | path p => exact Scene.lacks_pathProblems_iff _ p

theorem lacks_headProblems_iff :
    Lacks .invalidPathUsage (d.headProblems overview t) ↔
      ∀ set, d = .correlationSet set → Lacks .invalidPathUsage set.declarationProblems := by
  cases d
  case correlationSet set => simp [headProblems]
  all_goals
    refine iff_of_true ((within_headProblems overview _).lacks (by simp [headKinds])) ?_
    rintro _ ⟨⟩

end Declaration

namespace Program

variable (callerTypes : TypeMap) (config : Config) (p : Program)

theorem lacks_problems_iff :
    Lacks .invalidPathUsage (p.problems callerTypes config) ↔ ∀ d ∈ p.declarations,
      (∀ set, d = .correlationSet set → Lacks .invalidPathUsage set.declarationProblems) ∧
        ∀ x, d.Judges x → x.WellUsed d.isInitial := by
  have hdeclared : ∀ t (d : Declaration), Lacks .invalidPathUsage (d.problems p.overview t) ↔
      (∀ set, d = .correlationSet set → Lacks .invalidPathUsage set.declarationProblems) ∧
        ∀ x, d.Judges x → x.WellUsed d.isInitial := by
    intro t d
    rw [Declaration.problems, lacks_append, Declaration.lacks_headProblems_iff,
      Declaration.lacks_siteProblems_iff]
  rw [lacks_iff_ofKinds, ofKinds_problems _ _ _ (by decide), ← lacks_iff_ofKinds]
  simp only [declarationProblems, lacks_flatMap, hdeclared]
  constructor
  · intro h d hd
    obtain ⟨t, ht⟩ := Tables.exists_inForce hd (.initial callerTypes)
    exact h (t, d) ht
  · intro h entry hentry
    exact h entry.2 (Tables.mem_of_mem_inForce hentry)

theorem mem_correlationSets_iff (set : CorrelationSet) :
    set ∈ p.correlationSets ↔ .correlationSet set ∈ p.declarations := by
  simp only [correlationSets, List.mem_filterMap]
  grind

theorem mem_procedures_iff (procedure : Procedure) :
    procedure ∈ p.procedures ↔ .procedure procedure ∈ p.declarations := by
  simp only [procedures, List.mem_filterMap]
  grind

theorem lacks_problems_iff_pathsWellUsed :
    Lacks .invalidPathUsage (p.problems callerTypes config) ↔ p.PathsWellUsed := by
  rw [lacks_problems_iff]
  constructor
  · intro h
    have hsets : ∀ set ∈ p.correlationSets, ∀ v ∈ set.members,
        (v.path.kind = .normal ∧ v.path.Static) ∧
          ∀ a ∈ v.aliases, a.path.kind = .normal ∧ a.path.Static := fun set hset =>
      set.lacks_declarationProblems_iff.mp
        ((h _ ((p.mem_correlationSets_iff set).mp hset)).1 set rfl)
    exact {
      rooted := fun d hd path hpath => ((h d hd).2 _ hpath).1
      static := fun d hd path hpath hkind => (((h d hd).2 _ hpath).2 hkind).1
      initial := fun procedure hprocedure hid path hpath hkind => by
        have hused := (h _ ((p.mem_procedures_iff procedure).mp hprocedure)).2 _ hpath
        simp [Declaration.isInitial, Procedure.isInitial, Procedure.initialId, hid] at hused
        cases (hused.2 hkind).2
      spared := fun d hd s hs => (h d hd).2 _ hs
      members := fun set hset v hv => (hsets set hset v hv).1
      aliases := fun set hset v hv => (hsets set hset v hv).2 }
  · intro h d hd
    constructor
    · rintro set rfl
      have hset := (p.mem_correlationSets_iff set).mpr hd
      exact set.lacks_declarationProblems_iff.mpr fun v hv =>
        ⟨h.members set hset v hv, h.aliases set hset v hv⟩
    · intro x hx
      cases x with
      | path path =>
        refine ⟨h.rooted d hd path hx, fun hkind => ⟨h.static d hd path hx hkind, ?_⟩⟩
        cases d with
        | procedure procedure =>
          have hprocedure := (p.mem_procedures_iff procedure).mpr hd
          have hid : procedure.id ≠ "init" := fun hid =>
            h.initial procedure hprocedure hid path hx hkind
          simp [Declaration.isInitial, Procedure.isInitial, Procedure.initialId, hid]
        | _ => rfl
      | statement s => exact h.spared d hd s hx
      | _ => trivial

/-- A program has a problem of path usage exactly when it misuses a path, and it is not accepted
then. -/
theorem pathUsage_reported_iff :
    (Lacks .invalidPathUsage (p.problems callerTypes config) ↔ p.PathsWellUsed) ∧
      match p.verify callerTypes config with
      | .accepted _ => p.PathsWellUsed
      | .rejected problems => Lacks .invalidPathUsage problems ↔ p.PathsWellUsed
      | .unending => p.comparesForever callerTypes := by
  have hiff := p.lacks_problems_iff_pathsWellUsed callerTypes config
  refine ⟨hiff, ?_⟩
  unfold verify
  by_cases hforever : p.comparesForever callerTypes
  · simp [hforever]
  · by_cases herrors : Diagnostics.hasErrors (p.problems callerTypes config)
    · simpa [hforever, herrors] using hiff
    · simp only [hforever, herrors]
      refine hiff.mp fun d hd hkind => ?_
      have hnone := (hasErrors_eq_false_iff _).mp (by simpa using herrors) d hd
      rw [Diagnostic.isError, Diagnostic.severity, hkind] at hnone
      cases hnone

end Program

end ServiceCheck
